import AIM.Database.StationIDs
import AIM.Foundation.Execution
import AIM.Threads.ReceiverCleaner
import AIM.Visualizer.Display

namespace AIM.Threads

open Database Visualizer

/-! # The visualizer updater

A third thread sends the whole database to the visualizer, one lower map after the other,
while the receiver inserts and the cleaner deletes and clears. Like a sweep of the cleaner
it holds the lock of the main map in shared mode, and the lock of every lower map in turn. -/

inductive UpdaterPc
  | idle
  | sweeping (uppers : List UInt32)

structure VisualizedMap where
  threads : ReceiverCleaner
  updater : UpdaterPc
  display : Display

/-- The steps of the three threads, and a client that loads the page anew. The updater
visits the lower maps in any order. -/
inductive VisualizedStep
  | thread (threadStep : ThreadStep)
  | beginUpdate (uppers : List UInt32)
  | updateLower
  | endUpdate
  | reload

def VisualizedStep.InRange : VisualizedStep → Prop
  | .thread (.check newVehicleData) => Database.InRange newVehicleData.stationID
  | _ => True

def ReceiverCleaner.cleared (state : ReceiverCleaner) : ThreadStep → List UInt64
  | .sweepLower =>
      match state.cleaner with
      | .sweeping now timeMilliseconds (upper :: _) =>
          (LDMMap.sweepLower now timeMilliseconds (state.map, []) upper).2
      | _ => []
  | _ => []

namespace VisualizedMap

def start (memory : Nat → UninitializedPHpoints) (display : Display) : VisualizedMap :=
  ⟨.start memory, .idle, display⟩

section

variable (haversineDist : ℚ → ℚ → ℚ → ℚ → ℚ) (state : VisualizedMap)

/-- A new lower map also waits for the end of an update. -/
def Waits : ThreadStep → Bool
  | .write =>
      match state.threads.receiver, state.updater with
      | .decided _ .newUpper, .sweeping _ => true
      | _, _ => false
  | _ => false

def thread (threadStep : ThreadStep) : Option VisualizedMap :=
  if state.Waits threadStep then none
  else
    match state.threads.step haversineDist threadStep with
    | none => none
    | some threads =>
        match state.display.clearObjects (state.threads.cleared threadStep) with
        | none => none
        | some display => some { state with threads := threads, display := display }

def beginUpdate (uppers : List UInt32) : Option VisualizedMap :=
  match state.updater with
  | .idle =>
      if uppers.Perm state.threads.map.ldmmap.keys then
        some { state with updater := .sweeping uppers }
      else none
  | _ => none

def updateLower : Option VisualizedMap :=
  match state.updater with
  | .sweeping (upper :: rest) =>
      match state.display.updateObjects (state.threads.map.lowerContents upper) with
      | none => none
      | some display => some { state with updater := .sweeping rest, display := display }
  | _ => none

def endUpdate : Option VisualizedMap :=
  match state.updater with
  | .sweeping [] => some { state with updater := .idle }
  | _ => none

def step : VisualizedStep → Option VisualizedMap
  | .thread threadStep => state.thread haversineDist threadStep
  | .beginUpdate uppers => state.beginUpdate uppers
  | .updateLower => state.updateLower
  | .endUpdate => state.endUpdate
  | .reload => some { state with display := state.display.reload }

/-- A whole update without any other step in between. -/
def update (uppers : List UInt32) : List VisualizedStep :=
  .beginUpdate uppers :: List.replicate uppers.length .updateLower ++ [.endUpdate]

def storedIDs : Set Decimal.Text := objectID '' state.threads.map.stationIDs

/-- The client shows stored stations only. -/
def NoGhosts : Prop := state.display.page.shown ⊆ state.storedIDs

/-- Every update that is not interrupted ends, and the client then shows all stored
stations. -/
def Updatable : Prop :=
  ∀ {uppers}, state.updater = .idle → uppers.Perm state.threads.map.ldmmap.keys →
    ∃ updated, Execution.run (step haversineDist) state (update uppers) = some updated ∧
      updated.display.page.shown = updated.storedIDs

def KeepsDisplay (visualizedStep : VisualizedStep) : Prop :=
  ∀ {next}, state.step haversineDist visualizedStep = some next →
    next.NoGhosts ∧ next.Updatable haversineDist

end

/-! ## The invariant -/

def Decided (map : LDMMap) : ReceiverPc → Prop
  | .decided newVehicleData decision =>
      InRange newVehicleData.stationID ∧ map.Ready newVehicleData decision
  | _ => True

structure Faithful (state : VisualizedMap) : Prop where
  keyed : state.threads.map.Keyed
  decided : Decided state.threads.map state.threads.receiver
  drawn : state.display.Drawn
  noGhosts : state.NoGhosts

/-- What a step of the other two threads does for the display: a station that is not cleared
is still stored. -/
structure Remains (threads next : ReceiverCleaner) (cleared : List UInt64) : Prop where
  keyed : next.map.Keyed
  decided : Decided next.map next.receiver
  stored : threads.map.stationIDs \ { id | id ∈ cleared } ⊆ next.map.stationIDs

variable {haversineDist : ℚ → ℚ → ℚ → ℚ → ℚ} {threads nextThreads : ReceiverCleaner}
  {state next : VisualizedMap}

theorem remains_of_ldmmap (isKeyed : threads.map.Keyed)
    (same : nextThreads.map.ldmmap = threads.map.ldmmap)
    (decided : Decided nextThreads.map nextThreads.receiver) :
    Remains threads nextThreads [] where
  keyed.keyed := by
    rw [same]
    exact isKeyed.keyed
  decided := decided
  stored := by
    rintro id ⟨⟨upper, lower, stored, found, equal⟩, _⟩
    rw [← same] at found
    exact ⟨upper, lower, stored, found, equal⟩

theorem remains_check (isKeyed : threads.map.Keyed)
    (decided : Decided threads.map threads.receiver) {newVehicleData : VehicleData}
    (inRange : InRange newVehicleData.stationID)
    (stepped : threads.check newVehicleData = some nextThreads) :
    Remains threads nextThreads [] := by
  rcases threads with ⟨map, receiver, cleaner⟩
  cases receiver with
  | decided | written | nullCall => cases stepped
  | idle =>
      by_cases full : map.card = uint64Max
      · have checks : map.insertChecks newVehicleData = none := by
          rw [LDMMap.insertChecks, if_pos full]
        simp only [ReceiverCleaner.check, checks, Option.some.injEq] at stepped
        rw [← stepped]
        exact remains_of_ldmmap isKeyed rfl decided
      · rcases LDMMap.insertChecks_spec newVehicleData full with ⟨decision, prepared, checks⟩
        simp only [ReceiverCleaner.check, checks, Option.some.injEq] at stepped
        rw [← stepped]
        have ready := prepared.ready
        refine remains_of_ldmmap isKeyed rfl ?_
        cases decision with
        | newUpper | newLower | update => exact ⟨inRange, ready⟩

theorem remains_write (isKeyed : threads.map.Keyed)
    (decided : Decided threads.map threads.receiver)
    (stepped : threads.write = some nextThreads) : Remains threads nextThreads [] := by
  rcases ReceiverCleaner.write_cases stepped with ⟨newVehicleData, decision, receiver, rfl⟩
  rw [receiver] at decided
  rcases decided with ⟨inRange, ready⟩
  refine ⟨isKeyed.insertWrite inRange ready, trivial, ?_⟩
  exact Set.sdiff_subset.trans (isKeyed.stationIDs_insertWrite inRange ready)

theorem remains_call (isKeyed : threads.map.Keyed)
    (stepped : threads.call haversineDist = some nextThreads) :
    Remains threads nextThreads [] := by
  rcases threads with ⟨map, receiver, cleaner⟩
  cases receiver with
  | idle | decided | nullCall => cases stepped
  | written newVehicleData =>
      simp only [ReceiverCleaner.call] at stepped
      split at stepped
      · cases stepped
        exact remains_of_ldmmap isKeyed rfl trivial
      · next called inserted =>
          cases stepped
          exact remains_of_ldmmap isKeyed (LDMMap.insertCall_ldmmap inserted) trivial

theorem remains_sweepLower (isKeyed : threads.map.Keyed)
    (decided : Decided threads.map threads.receiver)
    (stepped : threads.sweepLower = some nextThreads) :
    Remains threads nextThreads (threads.cleared .sweepLower) := by
  rcases ReceiverCleaner.sweepLower_cases stepped with
    ⟨now, timeMilliseconds, upper, rest, cleaner, rfl⟩
  have cleared : threads.cleared .sweepLower =
      (LDMMap.sweepLower now timeMilliseconds (threads.map, []) upper).2 := by
    rw [ReceiverCleaner.cleared, cleaner]
  rw [cleared]
  constructor
  case keyed =>
    exact isKeyed.of_fewer fun found =>
      ((LDMMap.sweepLower_find_eq_some_iff _ _ _ _ _ _ _).mp found).1
  case decided =>
    cases receiver : threads.receiver with
    | idle | written | nullCall => trivial
    | decided newVehicleData decision =>
        rw [receiver] at decided
        exact ⟨decided.1, decided.2.sweepLower now timeMilliseconds [] upper⟩
  case stored =>
    exact (isKeyed.stationIDs_sweepLower now timeMilliseconds upper).superset

theorem remains_step (isKeyed : threads.map.Keyed)
    (decided : Decided threads.map threads.receiver) {threadStep : ThreadStep}
    (inRange : (VisualizedStep.thread threadStep).InRange)
    (stepped : threads.step haversineDist threadStep = some nextThreads) :
    Remains threads nextThreads (threads.cleared threadStep) := by
  cases threadStep with
  | check newVehicleData => exact remains_check isKeyed decided inRange stepped
  | write => exact remains_write isKeyed decided stepped
  | call => exact remains_call isKeyed stepped
  | sweepLower => exact remains_sweepLower isKeyed decided stepped
  | beginSweep now timeMilliseconds uppers =>
      rcases ReceiverCleaner.beginSweep_cases stepped with ⟨cleaner, rfl⟩
      exact remains_of_ldmmap isKeyed rfl decided
  | endSweep =>
      rcases ReceiverCleaner.endSweep_cases stepped with ⟨cleaner, rfl⟩
      exact remains_of_ldmmap isKeyed rfl decided

/-! ## The steps of the three threads -/

theorem faithful_start (memory : Nat → UninitializedPHpoints) {display : Display}
    (drawn : display.Drawn) (bare : display.page.shown = ∅) :
    (start memory display).Faithful where
  keyed := (LDMMap.wellFormed_empty _).isKeyed
  decided := trivial
  drawn := drawn
  noGhosts := by
    intro text isShown
    rw [start, bare] at isShown
    cases isShown

theorem thread_cases {threadStep : ThreadStep}
    (stepped : state.thread haversineDist threadStep = some next) :
    ∃ threads display, state.threads.step haversineDist threadStep = some threads ∧
      state.display.clearObjects (state.threads.cleared threadStep) = some display ∧
      next = { state with threads := threads, display := display } := by
  unfold thread at stepped
  split at stepped
  · cases stepped
  · split at stepped
    · cases stepped
    · next threads taken =>
        split at stepped
        · cases stepped
        · next display cleared =>
            cases stepped
            exact ⟨threads, display, taken, cleared, rfl⟩

theorem thread_faithful (faithful : state.Faithful) {threadStep : ThreadStep}
    (inRange : (VisualizedStep.thread threadStep).InRange)
    (stepped : state.thread haversineDist threadStep = some next) : next.Faithful := by
  rcases thread_cases stepped with ⟨threads, display, taken, cleared, rfl⟩
  have remains := remains_step faithful.keyed faithful.decided inRange taken
  rcases Display.clearObjects_spec faithful.drawn (state.threads.cleared threadStep) with
    ⟨after, afterCleared, drawn, shown⟩
  cases cleared.symm.trans afterCleared
  refine ⟨remains.keyed, remains.decided, drawn, ?_⟩
  intro text isShown
  rw [shown] at isShown
  rcases isShown with ⟨wasShown, notCleared⟩
  rcases faithful.noGhosts wasShown with ⟨id, stored, rfl⟩
  refine ⟨id, remains.stored ⟨stored, ?_⟩, rfl⟩
  exact fun isCleared => notCleared ⟨id, isCleared, rfl⟩

theorem updateLower_cases (stepped : state.updateLower = some next) :
    ∃ upper rest display, state.updater = .sweeping (upper :: rest) ∧
      state.display.updateObjects (state.threads.map.lowerContents upper) = some display ∧
      next = { state with updater := .sweeping rest, display := display } := by
  unfold updateLower at stepped
  split at stepped
  · next upper rest updater =>
      split at stepped
      · cases stepped
      · next display updated =>
          cases stepped
          exact ⟨upper, rest, display, updater, updated, rfl⟩
  · cases stepped

theorem updateLower_faithful (faithful : state.Faithful)
    (stepped : state.updateLower = some next) : next.Faithful := by
  rcases updateLower_cases stepped with ⟨upper, rest, display, _, updated, rfl⟩
  rcases Display.updateObjects_spec faithful.drawn (state.threads.map.lowerContents upper)
    with ⟨after, afterUpdated, drawn, shown⟩
  cases updated.symm.trans afterUpdated
  refine ⟨faithful.keyed, faithful.decided, drawn, ?_⟩
  intro text isShown
  rw [shown] at isShown
  rcases isShown with wasShown | ⟨id, ⟨vehdata, member, rfl⟩, rfl⟩
  · exact faithful.noGhosts wasShown
  · exact ⟨_, LDMMap.mem_stationIDs_of_mem_lowerContents member, rfl⟩

theorem Faithful.step (faithful : state.Faithful) {visualizedStep : VisualizedStep}
    (inRange : visualizedStep.InRange)
    (stepped : state.step haversineDist visualizedStep = some next) : next.Faithful := by
  cases visualizedStep with
  | thread threadStep => exact thread_faithful faithful inRange stepped
  | updateLower => exact updateLower_faithful faithful stepped
  | beginUpdate uppers =>
      simp only [VisualizedMap.step, beginUpdate] at stepped
      split at stepped
      · split at stepped
        · cases stepped
          exact ⟨faithful.keyed, faithful.decided, faithful.drawn, faithful.noGhosts⟩
        · cases stepped
      · cases stepped
  | endUpdate =>
      simp only [VisualizedMap.step, endUpdate] at stepped
      split at stepped
      · cases stepped
        exact ⟨faithful.keyed, faithful.decided, faithful.drawn, faithful.noGhosts⟩
      · cases stepped
  | reload =>
      cases stepped
      refine ⟨faithful.keyed, faithful.decided, faithful.drawn.reload.1, ?_⟩
      rw [NoGhosts, faithful.drawn.reload.2]
      exact Set.empty_subset _

/-! ## An update without interruption -/

theorem run_updateLower (haversineDist : ℚ → ℚ → ℚ → ℚ → ℚ) (threads : ReceiverCleaner)
    (uppers : List UInt32) {display : Display} (drawn : display.Drawn) :
    ∃ updated, Execution.run (VisualizedMap.step haversineDist)
        ⟨threads, .sweeping uppers, display⟩
        (List.replicate uppers.length .updateLower ++ [.endUpdate]) =
          some ⟨threads, .idle, updated⟩ ∧
      updated.page.shown = display.page.shown ∪ objectID ''
        { id | ∃ upper ∈ uppers, ∃ vehdata ∈ threads.map.lowerContents upper,
          vehdata.stationID = id } := by
  induction uppers generalizing display with
  | nil =>
      refine ⟨display, rfl, ?_⟩
      simp
  | cons upper rest induction =>
      rcases Display.updateObjects_spec drawn (threads.map.lowerContents upper) with
        ⟨middle, taken, middleDrawn, added⟩
      rcases induction middleDrawn with ⟨updated, later, shown⟩
      refine ⟨updated, ?_, ?_⟩
      · rw [List.length_cons, List.replicate_succ, List.cons_append, Execution.run]
        simp only [VisualizedMap.step, updateLower, taken]
        exact later
      · rw [shown, added, Set.union_assoc, ← Set.image_union]
        congr 2
        ext id
        simp only [Set.mem_union, Set.mem_ofPred_eq, List.exists_mem_cons_iff]

theorem Faithful.updatable (faithful : state.Faithful) : state.Updatable haversineDist := by
  intro uppers idle permutation
  rcases state with ⟨threads, updater, display⟩
  dsimp only at idle permutation
  subst idle
  rcases run_updateLower haversineDist threads uppers faithful.drawn with
    ⟨updated, ended, shown⟩
  refine ⟨⟨threads, .idle, updated⟩, ?_, ?_⟩
  · rw [update, List.cons_append, Execution.run]
    simp only [VisualizedMap.step, beginUpdate, if_pos permutation]
    exact ended
  · have contents : { id | ∃ upper ∈ uppers, ∃ vehdata ∈ threads.map.lowerContents upper,
        vehdata.stationID = id } = threads.map.stationIDs := by
      ext id
      constructor
      · rintro ⟨upper, _, vehdata, member, rfl⟩
        exact LDMMap.mem_stationIDs_of_mem_lowerContents member
      · intro stored
        rcases LDMMap.exists_lowerContents stored with ⟨upper, member, vehdata, entry⟩
        exact ⟨upper, permutation.mem_iff.mpr member, vehdata, entry⟩
    change updated.page.shown = _
    rw [shown, contents]
    exact Set.union_eq_self_of_subset_left faithful.noGhosts

/-- In every interleaving of the receiver, the cleaner and the updater the client shows
stored stations only, and all of them after an update that is not interrupted. -/
theorem run_keepsDisplay (haversineDist : ℚ → ℚ → ℚ → ℚ → ℚ)
    (memory : Nat → UninitializedPHpoints) {display : Display} (drawn : display.Drawn)
    (bare : display.page.shown = ∅) (steps : List VisualizedStep)
    (inRange : ∀ visualizedStep ∈ steps, visualizedStep.InRange) :
    Execution.Always (step haversineDist) (KeepsDisplay haversineDist)
      (start memory display) steps := by
  apply Execution.Always.of_invariant Faithful VisualizedStep.InRange
  · intro state visualizedStep next faithful inRange _ stepped
    exact faithful.step inRange stepped
  · intro state visualizedStep faithful inRange _ next stepped
    have nextFaithful := faithful.step inRange stepped
    exact ⟨nextFaithful.noGhosts, nextFaithful.updatable⟩
  · exact faithful_start memory drawn bare
  · exact inRange
  · exact Execution.Always.unguarded _ _

/-! A station that is shown, swept while it is inserted again, and cleared. -/

def sweptSteps : List VisualizedStep :=
  [.thread (.check (LDMMap.station 12)), .thread .write, .thread .call, .beginUpdate [0],
    .updateLower, .endUpdate, .thread (.check (LDMMap.station 12)),
    .thread (.beginSweep 2000000 1000 [0]), .thread .sweepLower, .thread .write,
    .thread .endSweep, .reload]

theorem run_keepsDisplay_swept :
    Execution.Always (step LDMMap.noDist) (KeepsDisplay LDMMap.noDist)
        (start default (Display.start 45 7 "none".toList)) sweptSteps ∧
      (Execution.run (step LDMMap.noDist) (start default (Display.start 45 7 "none".toList))
        sweptSteps).isSome ∧
      (Execution.run (step LDMMap.noDist) (start default (Display.start 45 7 "none".toList))
        (sweptSteps.take 6)).any (fun state =>
          (state.display.page.markers (objectID 12)).isSome) := by
  have inRange : InRange (LDMMap.station 12).stationID := by decide
  refine ⟨?_, by decide +kernel, by decide +kernel⟩
  apply run_keepsDisplay
  · exact Display.drawn_start 45 7 (by decide)
  · exact Display.shown_start 45 7 (by decide)
  · simp only [sweptSteps, List.mem_cons, List.not_mem_nil, or_false, forall_eq_or_imp, forall_eq]
    exact ⟨inRange, trivial, trivial, trivial, trivial, trivial, inRange, trivial, trivial,
      trivial, trivial, trivial⟩

end VisualizedMap

end AIM.Threads
