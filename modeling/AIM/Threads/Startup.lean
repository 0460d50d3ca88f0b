import AIM.Foundation.Execution

namespace AIM.Threads

/-! # Starting and ending

`main` starts the cleaner and the updater, and joins both when it fails. The cleaner waits for
the updater to publish the visualizer object: on a condition variable, without a predicate, so
that a notification before the wait is lost. -/

/-- A sweep of the cleaner has the pointer that was read when it began. -/
inductive StartingCleaner
  | begin
  | timed
  | waiting
  | looping
  | sweeping (vizObjVoidPtr : Bool)
  | exited
  deriving DecidableEq

inductive StartingUpdater
  | begin
  | connected
  | published
  | notified
  | looping
  | exited
  deriving DecidableEq

/-- What `main` is going to do, behind the start of both threads. -/
inductive MainThread
  | opening
  | indexing
  | preparing
  | receiving
  | joiningCleaner
  | joiningUpdater
  | ended
  deriving DecidableEq

/-- Of the pointer to the visualizer object it is kept whether it was set, and of the process
whether a thread has called `exit`. -/
structure Startup where
  terminatorFlag : Bool
  globVehVizPtr : Bool
  cleaner : StartingCleaner
  updater : StartingUpdater
  main : MainThread
  exited : Bool

inductive StartupStep
  | cleanerTimer (created : Bool)
  | cleanerWait
  | wakeSpuriously
  | cleanerTurn
  | sendObjectClean
  | cleanerSwept
  | startServer (connected : Bool)
  | publish
  | notifyAll
  | updaterTimer (created : Bool)
  | updaterTurn
  | openSocket (opened : Bool)
  | findIndex (found : Bool)
  | prepare (prepared : Bool)
  | join
  deriving DecidableEq

namespace Startup

def start : Startup := ⟨false, false, .begin, .begin, .opening, false⟩

/-- The loops test the flag at the beginning of a turn. The updater destroys the visualizer
object when it exits, and an object that is not connected any more calls `exit`. -/
def stepCleaner (state : Startup) : StartupStep → Option Startup
  | .cleanerTimer created =>
      if state.cleaner = .begin then
        if created then some { state with cleaner := .timed }
        else some { state with cleaner := .exited, terminatorFlag := true }
      else none
  | .cleanerWait =>
      if state.cleaner = .timed then some { state with cleaner := .waiting } else none
  | .wakeSpuriously =>
      if state.cleaner = .waiting then some { state with cleaner := .looping } else none
  | .cleanerTurn =>
      if state.cleaner = .looping then
        if state.terminatorFlag then some { state with cleaner := .exited }
        else some { state with cleaner := .sweeping state.globVehVizPtr }
      else none
  | .sendObjectClean =>
      match state.cleaner with
      | .sweeping _ =>
          if state.updater = .exited then some { state with exited := true } else some state
      | _ => none
  | .cleanerSwept =>
      match state.cleaner with
      | .sweeping _ => some { state with cleaner := .looping }
      | _ => none
  | _ => none

/-- `startServer`, `connectToServer` and `sendMapDraw` call `exit` when they fail. -/
def stepUpdater (state : Startup) : StartupStep → Option Startup
  | .startServer connected =>
      if state.updater = .begin then
        if connected then some { state with updater := .connected }
        else some { state with exited := true }
      else none
  | .publish =>
      if state.updater = .connected then
        some { state with updater := .published, globVehVizPtr := true }
      else none
  | .notifyAll =>
      if state.updater = .published then
        some { state with
          updater := .notified
          cleaner := if state.cleaner = .waiting then .looping else state.cleaner }
      else none
  | .updaterTimer created =>
      if state.updater = .notified then
        if created then some { state with updater := .looping }
        else some { state with updater := .exited, terminatorFlag := true }
      else none
  | .updaterTurn =>
      if state.updater = .looping then
        if state.terminatorFlag then some { state with updater := .exited } else some state
      else none
  | _ => none

/-- `main` opens the socket and finds the address of the interface, then its index, without
which it calls `exit`. Then it binds the socket and starts the JSON server. The reception is
never stopped. -/
def stepMain (state : Startup) : StartupStep → Option Startup
  | .openSocket opened =>
      if state.main = .opening then
        if opened ∧ state.terminatorFlag = false then some { state with main := .indexing }
        else some { state with main := .joiningCleaner, terminatorFlag := true }
      else none
  | .findIndex found =>
      if state.main = .indexing then
        if found then some { state with main := .preparing }
        else some { state with exited := true }
      else none
  | .prepare prepared =>
      if state.main = .preparing then
        if prepared then some { state with main := .receiving }
        else some { state with main := .joiningCleaner, terminatorFlag := true }
      else none
  | .join =>
      if state.main = .joiningCleaner ∧ state.cleaner = .exited then
        some { state with main := .joiningUpdater }
      else if state.main = .joiningUpdater ∧ state.updater = .exited then
        some { state with main := .ended }
      else none
  | _ => none

/-- No thread goes on behind a call of `exit`. -/
def step (state : Startup) (startupStep : StartupStep) : Option Startup :=
  if state.exited then none
  else
    match startupStep with
    | .cleanerTimer _ | .cleanerWait | .wakeSpuriously | .cleanerTurn | .sendObjectClean
    | .cleanerSwept => state.stepCleaner startupStep
    | .startServer _ | .publish | .notifyAll | .updaterTimer _ | .updaterTurn =>
        state.stepUpdater startupStep
    | .openSocket _ | .findIndex _ | .prepare _ | .join => state.stepMain startupStep

def Announces (state : Startup) : Prop :=
  state.updater = .begin ∨ state.updater = .connected ∨ state.updater = .published

/-- The cleaner waits, or is going to, for a notification that has been. -/
def Lost (state : Startup) : Prop :=
  (state.cleaner = .timed ∨ state.cleaner = .waiting) ∧ ¬state.Announces

def Sweeping (state : Startup) : Prop :=
  ∃ vizObjVoidPtr, state.cleaner = .sweeping vizObjVoidPtr

/-- A sweep may still go on when the updater, which has no timer yet, has exited. -/
def MayOutlive (state : Startup) : Prop :=
  state.Sweeping ∧ state.updater = .exited ∨
    state.terminatorFlag = false ∧
      (state.updater = .connected ∨ state.updater = .published ∨
        state.updater = .notified ∧ (state.cleaner = .looping ∨ state.Sweeping))

/-- A call of `exit` is possible or has been. -/
def MayExit (state : Startup) : Prop :=
  state.exited = true ∨ state.updater = .begin ∨ state.main = .indexing ∨
    state.main = .opening ∧ state.terminatorFlag = false ∨ state.MayOutlive

def Awake (steps : List StartupStep) : Prop := StartupStep.wakeSpuriously ∉ steps

instance (steps : List StartupStep) : Decidable (Awake steps) :=
  inferInstanceAs (Decidable (_ ∉ _))

/-- The program can still get to a state. -/
def CanReach (state : Startup) (goal : Startup → Prop) : Prop :=
  ∃ steps final, Awake steps ∧ Execution.run step state steps = some final ∧ goal final

variable {state next final : Startup}

theorem CanReach.trans {middle goal : Startup → Prop} (first : state.CanReach middle)
    (second : ∀ next, middle next → next.CanReach goal) : state.CanReach goal := by
  rcases first with ⟨steps, next, awake, reached, met⟩
  rcases second next met with ⟨rest, final, restAwake, restReached, restMet⟩
  refine ⟨steps ++ rest, final, ?_, ?_, restMet⟩
  · intro member
    rcases List.mem_append.mp member with early | late
    · exact awake early
    · exact restAwake late
  · rw [Execution.run_append, reached]
    exact restReached

/-! ## The steps -/

theorem keeps_awake {invariant : Startup → Prop} {steps : List StartupStep}
    (keeps : ∀ current startupStep next, invariant current → startupStep ≠ .wakeSpuriously →
      current.step startupStep = some next → invariant next)
    (holds : invariant state) (awake : Awake steps)
    (reached : Execution.run step state steps = some final) : invariant final := by
  apply Execution.run_keeps invariant _ keeps holds _ reached
  intro startupStep member spurious
  exact awake (spurious ▸ member)

/-- What a thread does in a step, and when. -/
inductive CleanerMoves (state : Startup) : StartupStep → Startup → Prop
  | timed (begins : state.cleaner = .begin) :
      CleanerMoves state (.cleanerTimer true) { state with cleaner := .timed }
  | fails (begins : state.cleaner = .begin) :
      CleanerMoves state (.cleanerTimer false)
        { state with cleaner := .exited, terminatorFlag := true }
  | waits (timed : state.cleaner = .timed) :
      CleanerMoves state .cleanerWait { state with cleaner := .waiting }
  | wakes (waiting : state.cleaner = .waiting) :
      CleanerMoves state .wakeSpuriously { state with cleaner := .looping }
  | leaves (looping : state.cleaner = .looping) (flag : state.terminatorFlag = true) :
      CleanerMoves state .cleanerTurn { state with cleaner := .exited }
  | sweeps (looping : state.cleaner = .looping) (flag : state.terminatorFlag = false) :
      CleanerMoves state .cleanerTurn { state with cleaner := .sweeping state.globVehVizPtr }
  | exits (vizObjVoidPtr : Bool) (sweeping : state.cleaner = .sweeping vizObjVoidPtr)
      (gone : state.updater = .exited) :
      CleanerMoves state .sendObjectClean { state with exited := true }
  | sends : CleanerMoves state .sendObjectClean state
  | swept (vizObjVoidPtr : Bool) (sweeping : state.cleaner = .sweeping vizObjVoidPtr) :
      CleanerMoves state .cleanerSwept { state with cleaner := .looping }

inductive UpdaterMoves (state : Startup) : StartupStep → Startup → Prop
  | connects (begins : state.updater = .begin) :
      UpdaterMoves state (.startServer true) { state with updater := .connected }
  | exits (begins : state.updater = .begin) :
      UpdaterMoves state (.startServer false) { state with exited := true }
  | publishes (connected : state.updater = .connected) :
      UpdaterMoves state .publish { state with updater := .published, globVehVizPtr := true }
  | wakes (published : state.updater = .published) (waiting : state.cleaner = .waiting) :
      UpdaterMoves state .notifyAll { state with updater := .notified, cleaner := .looping }
  | notifies (published : state.updater = .published) (other : state.cleaner ≠ .waiting) :
      UpdaterMoves state .notifyAll { state with updater := .notified }
  | timed (notified : state.updater = .notified) :
      UpdaterMoves state (.updaterTimer true) { state with updater := .looping }
  | fails (notified : state.updater = .notified) :
      UpdaterMoves state (.updaterTimer false)
        { state with updater := .exited, terminatorFlag := true }
  | leaves (looping : state.updater = .looping) (flag : state.terminatorFlag = true) :
      UpdaterMoves state .updaterTurn { state with updater := .exited }
  | turns : UpdaterMoves state .updaterTurn state

inductive MainMoves (state : Startup) : StartupStep → Startup → Prop
  | opens (opening : state.main = .opening) (flag : state.terminatorFlag = false) :
      MainMoves state (.openSocket true) { state with main := .indexing }
  | notOpened (opened : Bool) (opening : state.main = .opening) :
      MainMoves state (.openSocket opened)
        { state with main := .joiningCleaner, terminatorFlag := true }
  | finds (indexing : state.main = .indexing) :
      MainMoves state (.findIndex true) { state with main := .preparing }
  | exits (indexing : state.main = .indexing) :
      MainMoves state (.findIndex false) { state with exited := true }
  | receives (preparing : state.main = .preparing) :
      MainMoves state (.prepare true) { state with main := .receiving }
  | notPrepared (preparing : state.main = .preparing) :
      MainMoves state (.prepare false)
        { state with main := .joiningCleaner, terminatorFlag := true }
  | joinsCleaner (joining : state.main = .joiningCleaner) (exited : state.cleaner = .exited) :
      MainMoves state .join { state with main := .joiningUpdater }
  | joinsUpdater (joining : state.main = .joiningUpdater) (exited : state.updater = .exited) :
      MainMoves state .join { state with main := .ended }

theorem cleanerMoves_of_step {startupStep : StartupStep}
    (stepped : state.stepCleaner startupStep = some next) :
    state.CleanerMoves startupStep next := by
  cases startupStep with
  | cleanerTimer created =>
      rw [stepCleaner] at stepped
      split at stepped
      next begins =>
        cases created with
        | true =>
            cases stepped
            exact .timed begins
        | false =>
            cases stepped
            exact .fails begins
      next => cases stepped
  | cleanerWait =>
      rw [stepCleaner] at stepped
      split at stepped
      next timed =>
        cases stepped
        exact .waits timed
      next => cases stepped
  | wakeSpuriously =>
      rw [stepCleaner] at stepped
      split at stepped
      next waiting =>
        cases stepped
        exact .wakes waiting
      next => cases stepped
  | cleanerTurn =>
      rw [stepCleaner] at stepped
      split at stepped
      next looping =>
        split at stepped
        next flag =>
          cases stepped
          exact .leaves looping flag
        next flag =>
          cases stepped
          exact .sweeps looping (Bool.eq_false_iff.mpr flag)
      next => cases stepped
  | sendObjectClean =>
      rw [stepCleaner] at stepped
      split at stepped
      next vizObjVoidPtr sweeping =>
        split at stepped
        next gone =>
          cases stepped
          exact .exits vizObjVoidPtr sweeping gone
        next =>
          cases stepped
          exact .sends
      next => cases stepped
  | cleanerSwept =>
      rw [stepCleaner] at stepped
      split at stepped
      next vizObjVoidPtr sweeping =>
        cases stepped
        exact .swept vizObjVoidPtr sweeping
      next => cases stepped
  | _ => cases stepped

theorem updaterMoves_of_step {startupStep : StartupStep}
    (stepped : state.stepUpdater startupStep = some next) :
    state.UpdaterMoves startupStep next := by
  cases startupStep with
  | startServer connected =>
      rw [stepUpdater] at stepped
      split at stepped
      next begins =>
        cases connected with
        | true =>
            cases stepped
            exact .connects begins
        | false =>
            cases stepped
            exact .exits begins
      next => cases stepped
  | publish =>
      rw [stepUpdater] at stepped
      split at stepped
      next connected =>
        cases stepped
        exact .publishes connected
      next => cases stepped
  | notifyAll =>
      rw [stepUpdater] at stepped
      split at stepped
      next published =>
        split at stepped
        next waiting =>
          cases stepped
          exact .wakes published waiting
        next other =>
          cases stepped
          exact .notifies published other
      next => cases stepped
  | updaterTimer created =>
      rw [stepUpdater] at stepped
      split at stepped
      next notified =>
        cases created with
        | true =>
            cases stepped
            exact .timed notified
        | false =>
            cases stepped
            exact .fails notified
      next => cases stepped
  | updaterTurn =>
      rw [stepUpdater] at stepped
      split at stepped
      next looping =>
        split at stepped
        next flag =>
          cases stepped
          exact .leaves looping flag
        next =>
          cases stepped
          exact .turns
      next => cases stepped
  | _ => cases stepped

theorem mainMoves_of_step {startupStep : StartupStep}
    (stepped : state.stepMain startupStep = some next) : state.MainMoves startupStep next := by
  cases startupStep with
  | openSocket opened =>
      rw [stepMain] at stepped
      split at stepped
      next opening =>
        split at stepped
        next both =>
          cases stepped
          cases both.1
          exact .opens opening both.2
        next =>
          cases stepped
          exact .notOpened opened opening
      next => cases stepped
  | findIndex found =>
      rw [stepMain] at stepped
      split at stepped
      next indexing =>
        cases found with
        | true =>
            cases stepped
            exact .finds indexing
        | false =>
            cases stepped
            exact .exits indexing
      next => cases stepped
  | prepare prepared =>
      rw [stepMain] at stepped
      split at stepped
      next preparing =>
        cases prepared with
        | true =>
            cases stepped
            exact .receives preparing
        | false =>
            cases stepped
            exact .notPrepared preparing
      next => cases stepped
  | join =>
      rw [stepMain] at stepped
      split at stepped
      next both =>
        cases stepped
        exact .joinsCleaner both.1 both.2
      next =>
        split at stepped
        next both =>
          cases stepped
          exact .joinsUpdater both.1 both.2
        next => cases stepped
  | _ => cases stepped

theorem moves_of_step {startupStep : StartupStep} (stepped : state.step startupStep = some next) :
    state.CleanerMoves startupStep next ∨ state.UpdaterMoves startupStep next ∨
      state.MainMoves startupStep next := by
  rw [step.eq_def] at stepped
  split at stepped
  · cases stepped
  · cases startupStep with
    | cleanerTimer | cleanerWait | wakeSpuriously | cleanerTurn | sendObjectClean
    | cleanerSwept => exact .inl (cleanerMoves_of_step stepped)
    | startServer | publish | notifyAll | updaterTimer | updaterTurn =>
        exact .inr (.inl (updaterMoves_of_step stepped))
    | openSocket | findIndex | prepare | join => exact .inr (.inr (mainMoves_of_step stepped))

theorem cleaner_cases {startupStep : StartupStep} (awake : startupStep ≠ .wakeSpuriously)
    (stepped : state.step startupStep = some next)
    (waits : state.cleaner = .timed ∨ state.cleaner = .waiting) :
    next.cleaner = .timed ∨ next.cleaner = .waiting ∨ state.updater = .published := by
  rcases moves_of_step stepped with cleaner | updater | main
  · cases cleaner with
    | wakes => exact absurd rfl awake
    | _ => grind
  · cases updater with
    | wakes published => exact .inr (.inr published)
    | _ => grind
  · cases main <;> grind

theorem not_announces_step {startupStep : StartupStep} (notified : ¬state.Announces)
    (stepped : state.step startupStep = some next) : ¬next.Announces := by
  unfold Announces at notified ⊢
  rcases moves_of_step stepped with cleaner | updater | main
  · cases cleaner <;> exact notified
  · cases updater <;> grind
  · cases main <;> exact notified

structure Consistent (state : Startup) : Prop where
  published : state.updater ≠ .begin → state.updater ≠ .connected → state.globVehVizPtr = true
  looping : state.cleaner = .looping → state.globVehVizPtr = true
  sweeping : ∀ vizObjVoidPtr, state.cleaner = .sweeping vizObjVoidPtr →
    vizObjVoidPtr = true ∧ state.globVehVizPtr = true
  exited : state.cleaner = .exited ∨ state.updater = .exited → state.terminatorFlag = true
  failed : state.main = .joiningCleaner ∨ state.main = .joiningUpdater ∨ state.main = .ended →
    state.terminatorFlag = true
  joined : state.main = .joiningUpdater ∨ state.main = .ended → state.cleaner = .exited
  flagged : state.terminatorFlag = true → state.cleaner = .exited ∨ state.updater = .exited ∨
    state.main = .joiningCleaner ∨ state.main = .joiningUpdater ∨ state.main = .ended

theorem consistent_start : start.Consistent := by
  constructor <;> simp [start]

theorem Consistent.step (consistent : state.Consistent) {startupStep : StartupStep}
    (awake : startupStep ≠ .wakeSpuriously)
    (stepped : state.step startupStep = some next) : next.Consistent := by
  rcases consistent with ⟨published, looping, sweeping, exited, failed, joined, flagged⟩
  have moves := moves_of_step stepped
  constructor
  case published =>
    clear looping sweeping exited failed joined flagged
    rcases moves with cleaner | updater | main
    · cases cleaner <;> exact published
    · cases updater <;> grind
    · cases main <;> exact published
  case looping =>
    clear exited failed joined flagged
    rcases moves with cleaner | updater | main
    · cases cleaner with
      | wakes => exact absurd rfl awake
      | swept _ isSweeping => exact fun _ => (sweeping _ isSweeping).2
      | _ => grind
    · cases updater <;> grind
    · cases main <;> exact looping
  case sweeping =>
    clear exited failed joined flagged
    rcases moves with cleaner | updater | main
    · cases cleaner with
      | exits | sends => exact sweeping
      | _ => grind
    · cases updater with
      | wakes => exact nofun
      | publishes => exact fun _ isSweeping => ⟨(sweeping _ isSweeping).1, rfl⟩
      | _ => exact sweeping
    · cases main <;> exact sweeping
  case exited =>
    clear published looping sweeping failed joined flagged
    rcases moves with cleaner | updater | main
    · cases cleaner with
      | fails => exact fun _ => rfl
      | leaves _ flag => exact fun _ => flag
      | _ => grind
    · cases updater with
      | fails => exact fun _ => rfl
      | leaves _ flag => exact fun _ => flag
      | _ => grind
    · cases main with
      | notOpened | notPrepared => exact fun _ => rfl
      | _ => exact exited
  case failed =>
    clear published looping sweeping exited joined flagged
    rcases moves with cleaner | updater | main
    · cases cleaner with
      | fails => exact fun _ => rfl
      | _ => exact failed
    · cases updater with
      | fails => exact fun _ => rfl
      | _ => exact failed
    · cases main with
      | notOpened | notPrepared => exact fun _ => rfl
      | _ => grind
  case joined =>
    clear published looping sweeping exited failed flagged
    rcases moves with cleaner | updater | main
    · cases cleaner with
      | exits | sends => exact joined
      | _ => grind
    · cases updater with
      | wakes => grind
      | _ => exact joined
    · cases main with
      | joinsCleaner _ gone => exact fun _ => gone
      | joinsUpdater joining => exact fun _ => joined (.inl joining)
      | _ => grind
  case flagged =>
    clear published looping sweeping exited failed joined
    rcases moves with cleaner | updater | main
    · cases cleaner with
      | fails | leaves => exact fun _ => .inl rfl
      | exits | sends => exact flagged
      | _ => grind
    · cases updater with
      | fails | leaves => exact fun _ => .inr (.inl rfl)
      | exits | turns => exact flagged
      | _ => grind
    · cases main with
      | notOpened | notPrepared => exact fun _ => .inr (.inr (.inl rfl))
      | exits => exact flagged
      | _ => grind

theorem Consistent.run (consistent : state.Consistent) {steps : List StartupStep}
    (awake : Awake steps) (reached : Execution.run Startup.step state steps = some final) :
    final.Consistent := by
  apply keeps_awake _ consistent awake reached
  intro current startupStep next holds allowed stepped
  exact holds.step allowed stepped

/-! ## A lost notification -/

theorem Lost.step (lost : state.Lost) {startupStep : StartupStep}
    (awake : startupStep ≠ .wakeSpuriously)
    (stepped : state.step startupStep = some next) : next.Lost := by
  refine ⟨?_, not_announces_step lost.2 stepped⟩
  rcases cleaner_cases awake stepped lost.1 with timed | waiting | published
  · exact .inl timed
  · exact .inr waiting
  · exact absurd (.inr (.inr published)) lost.2

theorem Lost.not_exited (lost : state.Lost) : state.cleaner ≠ .exited := by
  intro exited
  rcases lost.1 with timed | waiting
  · cases timed.symm.trans exited
  · cases waiting.symm.trans exited

theorem Lost.run (lost : state.Lost) {steps : List StartupStep} (awake : Awake steps)
    (reached : Execution.run Startup.step state steps = some final) : final.Lost := by
  apply keeps_awake _ lost awake reached
  intro current startupStep next holds allowed stepped
  exact holds.step allowed stepped

structure Endless (state : Startup) : Prop where
  noExit : ¬state.MayExit
  waits : state.main = .receiving ∨ state.main ≠ .ended ∧ state.Lost

theorem not_mayOutlive_step (consistent : state.Consistent) (noExit : ¬state.MayExit)
    (waits : state.main = .receiving ∨ state.Lost) {startupStep : StartupStep}
    (awake : startupStep ≠ .wakeSpuriously)
    (stepped : state.step startupStep = some next) : ¬next.MayOutlive := by
  have started : state.updater ≠ .begin := fun begins => noExit (.inr (.inl begins))
  have inTime : ¬state.MayOutlive := fun outlives => noExit (.inr (.inr (.inr (.inr outlives))))
  have exited := consistent.exited
  -- A flag that is set was set by a thread that has exited, or the notification was lost.
  have stopped : state.terminatorFlag = true →
      state.cleaner = .exited ∨ state.updater = .exited ∨ state.Lost := by
    intro flag
    rcases waits with receiving | lost
    · rcases consistent.flagged flag with gone | gone | joining | joining | ended
      · exact .inl gone
      · exact .inr (.inl gone)
      · cases receiving.symm.trans joining
      · cases receiving.symm.trans joining
      · cases receiving.symm.trans ended
    · exact .inr (.inr lost)
  have moves := moves_of_step stepped
  clear noExit waits consistent stepped
  unfold Lost Announces at stopped
  rcases moves with cleaner | updater | main
  · cases cleaner with
    | wakes => exact absurd rfl awake
    | exits | sends => exact inTime
    | _ =>
        unfold MayOutlive Sweeping at inTime ⊢
        grind
  · cases updater with
    | exits | turns => exact inTime
    | _ =>
        unfold MayOutlive Sweeping at inTime ⊢
        grind
  · cases main with
    | notOpened | notPrepared =>
        rintro (late | ⟨flag, _⟩)
        · exact inTime (.inl late)
        · cases flag
    | _ => exact inTime

theorem Endless.step (consistent : state.Consistent) (endless : state.Endless)
    {startupStep : StartupStep} (awake : startupStep ≠ .wakeSpuriously)
    (stepped : state.step startupStep = some next) : next.Endless := by
  rcases endless with ⟨noExit, waits⟩
  have lost : state.Lost → next.Lost := fun lost => lost.step awake stepped
  have waiting : state.Lost → state.cleaner ≠ .exited := Lost.not_exited
  have noLateSweep := not_mayOutlive_step consistent noExit
    (waits.imp_right fun both => both.2) awake stepped
  have joined := consistent.joined
  unfold MayExit MayOutlive Sweeping at noExit
  rcases moves_of_step stepped with cleaner | updater | main
  · cases cleaner <;> constructor <;> grind [MayExit]
  · cases updater <;> constructor <;> grind [MayExit]
  · cases main <;> constructor <;> grind [MayExit]

theorem Endless.run (consistent : state.Consistent) (endless : state.Endless)
    {steps : List StartupStep} (awake : Awake steps)
    (reached : Execution.run Startup.step state steps = some final) : final.Endless := by
  have both : final.Consistent ∧ final.Endless := by
    apply keeps_awake (fun current startupStep next holds allowed stepped => ?_)
      ⟨consistent, endless⟩ awake reached
    exact ⟨holds.1.step allowed stepped, holds.2.step holds.1 allowed stepped⟩
  exact both.2

end Startup

end AIM.Threads
