import AIM.Database.Operations

namespace AIM.Threads

open Database

/-! # The clock of the cleaner

The receiver reads the clock for its record before it inserts the record, and the
cleaner reads it before its sweep. Between the reading and its use the other thread
may run, and the clock may go on. -/

inductive StampingReceiver
  | idle
  | stamped (vehdata : VehicleData)

inductive StampingCleaner
  | idle
  | stamped (now : UInt64) (timeMilliseconds : ℚ)
  | sweeping (now : UInt64) (timeMilliseconds : ℚ) (uppers : List UInt32)

/-- `stampedSince` lists the records that the receiver has stamped since the cleaner
read the clock. -/
structure CleanerClock where
  clock : UInt64
  map : LDMMap
  receiver : StampingReceiver
  cleaner : StampingCleaner
  stampedSince : List VehicleData

inductive ClockStep
  | tick (later : UInt64)
  | stamp (vehdata : VehicleData)
  | insert
  | readNow (timeMilliseconds : ℚ)
  | beginSweep (uppers : List UInt32)
  | sweepLower
  | endSweep

namespace CleanerClock

def start (clock : UInt64) (map : LDMMap) : CleanerClock :=
  ⟨clock, map, .idle, .idle, []⟩

section

variable (haversineDist : ℚ → ℚ → ℚ → ℚ → ℚ) (state : CleanerClock)

def tick (later : UInt64) : Option CleanerClock :=
  if state.clock ≤ later then some { state with clock := later } else none

def stamp (vehdata : VehicleData) : Option CleanerClock :=
  match state.receiver with
  | .idle =>
      let stamped := { vehdata with timestampUs := state.clock }
      some { state with
        receiver := .stamped stamped
        stampedSince := stamped :: state.stampedSince }
  | .stamped _ => none

/-- A new lower map waits for the end of a sweep. -/
def insertWaits (vehdata : VehicleData) : Bool :=
  match state.cleaner with
  | .sweeping _ _ _ => (state.map.ldmmap.lookup (keyUpper vehdata.stationID)).isNone
  | _ => false

def insert : Option CleanerClock :=
  match state.receiver with
  | .idle => none
  | .stamped vehdata =>
      if state.insertWaits vehdata then none
      else (state.map.insert haversineDist vehdata).map fun inserted =>
        { state with map := inserted.1, receiver := .idle }

def readNow (timeMilliseconds : ℚ) : Option CleanerClock :=
  match state.cleaner with
  | .idle => some { state with
      cleaner := .stamped state.clock timeMilliseconds
      stampedSince := [] }
  | _ => none

def beginSweep (uppers : List UInt32) : Option CleanerClock :=
  match state.cleaner with
  | .stamped now timeMilliseconds =>
      if uppers.Perm state.map.ldmmap.keys then
        some { state with cleaner := .sweeping now timeMilliseconds uppers }
      else none
  | _ => none

def sweepLower : Option CleanerClock :=
  match state.cleaner with
  | .sweeping now timeMilliseconds (upper :: rest) =>
      some { state with
        map := (LDMMap.sweepLower now timeMilliseconds (state.map, []) upper).1
        cleaner := .sweeping now timeMilliseconds rest }
  | _ => none

def endSweep : Option CleanerClock :=
  match state.cleaner with
  | .sweeping _ _ [] => some { state with cleaner := .idle }
  | _ => none

def step : ClockStep → Option CleanerClock
  | .tick later => state.tick later
  | .stamp vehdata => state.stamp vehdata
  | .insert => state.insert haversineDist
  | .readNow timeMilliseconds => state.readNow timeMilliseconds
  | .beginSweep uppers => state.beginSweep uppers
  | .sweepLower => state.sweepLower
  | .endSweep => state.endSweep

/-- An entry that a sweep erases is older than the given time, and it is not a record
stamped since the cleaner read the clock. -/
def ErasesOldOnly : ClockStep → Prop
  | .sweepLower =>
      match state.cleaner with
      | .sweeping now timeMilliseconds _ =>
          ∀ next upper lower stored, state.sweepLower = some next →
            state.map.ldmmap.find upper lower = some stored →
            next.map.ldmmap.find upper lower = none →
            (stored.vehData.timestampUs.toNat : ℚ) + 1000 * timeMilliseconds < now.toNat ∧
              (0 ≤ timeMilliseconds → stored.vehData ∉ state.stampedSince)
      | _ => True
  | _ => True

/-- The age of a record that is newer than `now` wraps around. It does no harm when it
stays within the given time even so, or when the time is negative. -/
def WrapsHarmlessly (now : UInt64) (timeMilliseconds : ℚ) (vehData : VehicleData) : Prop :=
  now < vehData.timestampUs →
    (2 ^ 64 + now.toNat - vehData.timestampUs.toNat : ℚ) ≤ 1000 * timeMilliseconds ∨
      (vehData.timestampUs.toNat : ℚ) + 1000 * timeMilliseconds < now.toNat

/-- In the lower map that a sweep handles no record is newer than `now`, unless its
wrapped age does no harm. -/
def SweepsNoNewer : ClockStep → Prop
  | .sweepLower =>
      match state.cleaner with
      | .sweeping now timeMilliseconds (upper :: _) =>
          ∀ lower stored, state.map.ldmmap.find upper lower = some stored →
            WrapsHarmlessly now timeMilliseconds stored.vehData
      | _ => True
  | _ => True

end

/-! ## The age test -/

theorem expired_iff {now : UInt64} {timeMilliseconds : ℚ} {vehData : VehicleData} :
    LDMMap.expired now timeMilliseconds vehData = true ↔
      1000 * timeMilliseconds < ((now - vehData.timestampUs).toNat : ℚ) := by
  rw [LDMMap.expired, decide_eq_true_eq, lt_div_iff₀' (by norm_num)]

theorem age_of_le {now timestamp : UInt64} (earlier : timestamp ≤ now) :
    ((now - timestamp).toNat : ℚ) = now.toNat - timestamp.toNat := by
  rw [UInt64.toNat_sub_of_le _ _ earlier, Nat.cast_sub (UInt64.le_iff_toNat_le.mp earlier)]

theorem age_of_lt {now timestamp : UInt64} (newer : now < timestamp) :
    ((now - timestamp).toNat : ℚ) = 2 ^ 64 + now.toNat - timestamp.toNat := by
  have order := UInt64.lt_iff_toNat_lt.mp newer
  have bound := timestamp.toNat_lt
  have wrapped : (now - timestamp).toNat = 2 ^ 64 + now.toNat - timestamp.toNat := by
    rw [UInt64.toNat_sub]
    omega
  rw [wrapped, Nat.cast_sub (by omega)]
  push_cast
  rfl

theorem expired_older_iff {now : UInt64} {timeMilliseconds : ℚ} {vehData : VehicleData} :
    (LDMMap.expired now timeMilliseconds vehData = true →
        (vehData.timestampUs.toNat : ℚ) + 1000 * timeMilliseconds < now.toNat) ↔
      WrapsHarmlessly now timeMilliseconds vehData := by
  rw [expired_iff]
  constructor
  · intro older newer
    rw [age_of_lt newer] at older
    exact (le_or_gt _ _).imp_right older
  · intro harmless old
    by_cases earlier : vehData.timestampUs ≤ now
    · rw [age_of_le earlier] at old
      linarith
    · have newer := UInt64.not_le.mp earlier
      rw [age_of_lt newer] at old
      exact (harmless newer).resolve_left (not_le_of_gt old)

end CleanerClock

/-! ## The order of the clock readings -/

def StampingCleaner.reading : StampingCleaner → Option UInt64
  | .idle => none
  | .stamped now _ => some now
  | .sweeping now _ _ => some now

namespace CleanerClock

/-- A record stamped since the cleaner read the clock is not older than that reading. -/
def Ordered (state : CleanerClock) : Prop :=
  ∀ now ∈ state.cleaner.reading, now ≤ state.clock ∧
    ∀ vehdata ∈ state.stampedSince, now ≤ vehdata.timestampUs

variable {haversineDist : ℚ → ℚ → ℚ → ℚ → ℚ} {state next : CleanerClock}

theorem ordered_start (clock : UInt64) (map : LDMMap) : (start clock map).Ordered :=
  fun _ reading => nomatch reading

theorem Ordered.tick (ordered : state.Ordered) {later : UInt64}
    (stepped : state.tick later = some next) : next.Ordered := by
  unfold CleanerClock.tick at stepped
  split at stepped
  · next goesOn =>
      cases stepped
      intro now reading
      rcases ordered now reading with ⟨notLater, stamped⟩
      exact ⟨UInt64.le_trans notLater goesOn, stamped⟩
  · cases stepped

theorem Ordered.stamp (ordered : state.Ordered) {vehdata : VehicleData}
    (stepped : state.stamp vehdata = some next) : next.Ordered := by
  unfold CleanerClock.stamp at stepped
  split at stepped
  · cases stepped
    intro now reading
    rcases ordered now reading with ⟨notLater, stamped⟩
    refine ⟨notLater, fun other member => ?_⟩
    rcases List.mem_cons.mp member with rfl | member
    · exact notLater
    · exact stamped other member
  · cases stepped

theorem Ordered.insert (ordered : state.Ordered)
    (stepped : state.insert haversineDist = some next) : next.Ordered := by
  unfold CleanerClock.insert at stepped
  split at stepped
  · cases stepped
  · split at stepped
    · cases stepped
    · rcases Option.map_eq_some_iff.mp stepped with ⟨inserted, _, rfl⟩
      exact ordered

theorem ordered_readNow {timeMilliseconds : ℚ}
    (stepped : state.readNow timeMilliseconds = some next) : next.Ordered := by
  unfold CleanerClock.readNow at stepped
  split at stepped
  · cases stepped
    intro now reading
    cases reading
    exact ⟨UInt64.le_refl _, fun _ member => nomatch member⟩
  · cases stepped

theorem Ordered.beginSweep (ordered : state.Ordered) {uppers : List UInt32}
    (stepped : state.beginSweep uppers = some next) : next.Ordered := by
  unfold CleanerClock.beginSweep at stepped
  split at stepped
  · next cleaner =>
      split at stepped
      · cases stepped
        exact fun now reading => ordered now (cleaner ▸ reading)
      · cases stepped
  · cases stepped

theorem Ordered.sweepLower (ordered : state.Ordered)
    (stepped : state.sweepLower = some next) : next.Ordered := by
  unfold CleanerClock.sweepLower at stepped
  split at stepped
  · next cleaner =>
      cases stepped
      exact fun now reading => ordered now (cleaner ▸ reading)
  · cases stepped

theorem ordered_endSweep (stepped : state.endSweep = some next) : next.Ordered := by
  unfold CleanerClock.endSweep at stepped
  split at stepped
  · cases stepped
    exact fun now reading => nomatch reading
  · cases stepped

theorem Ordered.step (ordered : state.Ordered) {clockStep : ClockStep}
    (stepped : state.step haversineDist clockStep = some next) : next.Ordered := by
  cases clockStep with
  | tick later => exact ordered.tick stepped
  | stamp vehdata => exact ordered.stamp stepped
  | insert => exact ordered.insert stepped
  | readNow timeMilliseconds => exact ordered_readNow stepped
  | beginSweep uppers => exact ordered.beginSweep stepped
  | sweepLower => exact ordered.sweepLower stepped
  | endSweep => exact ordered_endSweep stepped

theorem Ordered.erasesOldOnly_iff (ordered : state.Ordered) (clockStep : ClockStep) :
    state.ErasesOldOnly clockStep ↔ state.SweepsNoNewer clockStep := by
  cases clockStep with
  | tick | stamp | insert | readNow | beginSweep | endSweep => exact Iff.rfl
  | sweepLower =>
      rcases state with ⟨clock, map, receiver, cleaner, stampedSince⟩
      rcases cleaner with _ | _ | ⟨now, timeMilliseconds, _ | ⟨upper, rest⟩⟩
      · exact Iff.rfl
      · exact Iff.rfl
      · exact iff_of_true (fun _ _ _ _ stepped => nomatch stepped) trivial
      · constructor
        · intro erasesOldOnly lower stored found
          apply expired_older_iff.mp
          intro old
          exact (erasesOldOnly _ upper lower stored rfl found
            ((LDMMap.sweepLower_find_eq_none_iff _ _ _ _ _ _ found).mpr ⟨rfl, old⟩)).1
        · intro noNewer next otherUpper lower stored stepped found erased
          cases stepped
          rcases (LDMMap.sweepLower_find_eq_none_iff _ _ _ _ _ _ found).mp erased with ⟨rfl, old⟩
          have older := expired_older_iff.mpr (noNewer lower stored found) old
          refine ⟨older, fun positive member => ?_⟩
          have after := UInt64.le_iff_toNat_le.mp ((ordered now rfl).2 _ member)
          have afterCast : (now.toNat : ℚ) ≤ stored.vehData.timestampUs.toNat :=
            Nat.cast_le.mpr after
          linarith

/-- In every interleaving the sweeps erase old entries only, exactly when no age wraps
around harmfully in a lower map that is swept. -/
theorem run_erasesOldOnly_iff (haversineDist : ℚ → ℚ → ℚ → ℚ → ℚ) (clock : UInt64)
    (map : LDMMap) (steps : List ClockStep) :
    Execution.Always (step haversineDist) ErasesOldOnly (start clock map) steps ↔
      Execution.Always (step haversineDist) SweepsNoNewer (start clock map) steps := by
  apply Execution.Always.iff_of_invariant Ordered (fun _ => True)
  · intro state clockStep next ordered _ _ stepped
    exact ordered.step stepped
  · intro state clockStep ordered _
    exact ordered.erasesOldOnly_iff clockStep
  · exact ordered_start clock map
  · exact fun _ _ => trivial

/-- The receiver refreshes its station after the cleaner has read the clock. The age of
the record wraps around, and the sweep erases the entry. -/
theorem not_erasesOldOnly_of_refreshed :
    ¬Execution.Always (step LDMMap.noDist) ErasesOldOnly (start 1000 (.empty default))
      [.stamp (LDMMap.station 12), .insert, .tick 2000, .readNow 7000, .tick 3000,
        .stamp (LDMMap.station 12), .insert, .beginSweep [0], .sweepLower] := by
  intro always
  have swept := always.after
    [ClockStep.stamp (LDMMap.station 12), .insert, .tick 2000, .readNow 7000, .tick 3000,
      .stamp (LDMMap.station 12), .insert, .beginSweep [0]]
    (Option.some_get (by decide +kernel)).symm
  have old := (swept.1 _ 0 12 _ (Option.some_get (by decide +kernel)).symm
    (Option.some_get (by decide +kernel)).symm (by decide +kernel)).1
  exact absurd old (by decide +kernel)

end CleanerClock

end AIM.Threads
