import AIM.Client.AgeCheck
import AIM.Threads.CleanerClock

namespace AIM.Threads

open Database

/-! # The age of the entries

The age check compares timestamps that are reset from time to time, and relies on the cleaner
to keep no entry for five minutes. How old an entry gets depends on the time that a sweep
leaves to the entries, on the time between the sweeps and on the time that the receiver takes
to insert a record. -/

/-- How the threads keep up with the clock: the time that `deleteOlderThanAndExecute` is called
with, and the microseconds between the clock reading of a sweep and the end of the next one,
and between the clock reading for a record and its insertion. -/
structure CleanerRate where
  timeMilliseconds : ℚ
  period : ℚ
  delay : ℚ
  nonneg : 0 ≤ timeMilliseconds

/-- How old a record may be when a sweep leaves it, or when it is inserted. -/
def CleanerRate.limit (rate : CleanerRate) : ℚ :=
  max (1000 * rate.timeMilliseconds) rate.delay

/-- The clock of the threads, and the clock reading of the last sweep that has ended. -/
structure WatchedClock where
  state : CleanerClock
  lastSweep : UInt64

namespace WatchedClock

def start (clock : UInt64) (memory : Nat → UninitializedPHpoints) : WatchedClock :=
  ⟨.start clock (.empty memory), clock⟩

section

variable (haversineDist : ℚ → ℚ → ℚ → ℚ → ℚ) (rate : CleanerRate) (watched : WatchedClock)

def swept : ClockStep → UInt64
  | .endSweep => watched.state.cleaner.reading.getD watched.lastSweep
  | _ => watched.lastSweep

def step (clockStep : ClockStep) : Option WatchedClock :=
  (watched.state.step haversineDist clockStep).map fun next => ⟨next, watched.swept clockStep⟩

/-- The step keeps to the rate. -/
def Prompt : ClockStep → Prop
  | .tick later => (later.toNat : ℚ) ≤ watched.lastSweep.toNat + rate.period
  | .insert =>
      match watched.state.receiver with
      | .stamped vehdata =>
          (watched.state.clock.toNat : ℚ) ≤ vehdata.timestampUs.toNat + rate.delay
      | .idle => True
  | .readNow timeMilliseconds => timeMilliseconds = rate.timeMilliseconds
  | _ => True

instance (clockStep : ClockStep) : Decidable (watched.Prompt rate clockStep) := by
  cases clockStep with
  | tick later => exact inferInstanceAs (Decidable (_ ≤ _))
  | insert =>
      unfold Prompt
      cases watched.state.receiver with
      | stamped vehdata => exact inferInstanceAs (Decidable (_ ≤ _))
      | idle => exact inferInstanceAs (Decidable True)
  | readNow timeMilliseconds => exact inferInstanceAs (Decidable (_ = _))
  | stamp | beginSweep | sweepLower | endSweep => exact inferInstanceAs (Decidable True)

end

/-! ## What is kept -/

variable {haversineDist : ℚ → ℚ → ℚ → ℚ → ℚ} {rate : CleanerRate} {watched next : WatchedClock}

/-- A sweep that reads `now` keeps the record, or comes before its insertion. -/
def Recent (rate : CleanerRate) (now : UInt64) (vehData : VehicleData) : Prop :=
  (now.toNat : ℚ) ≤ vehData.timestampUs.toNat + rate.limit

theorem Recent.of_le {now earlier : UInt64} {vehData : VehicleData}
    (recent : Recent rate now vehData) (order : earlier ≤ now) : Recent rate earlier vehData := by
  have cast : (earlier.toNat : ℚ) ≤ now.toNat := Nat.cast_le.mpr (UInt64.le_iff_toNat_le.mp order)
  exact cast.trans recent

theorem recent_of_kept {now : UInt64} {vehData : VehicleData}
    (kept : LDMMap.expired now rate.timeMilliseconds vehData = false) :
    Recent rate now vehData := by
  have young := mt CleanerClock.expired_iff.mpr (Bool.eq_false_iff.mp kept)
  have nonneg := rate.nonneg
  have within : 1000 * rate.timeMilliseconds ≤ rate.limit := le_max_left _ _
  rw [not_lt] at young
  unfold Recent
  by_cases earlier : vehData.timestampUs ≤ now
  · rw [CleanerClock.age_of_le earlier] at young
    linarith
  · have order : (now.toNat : ℚ) ≤ vehData.timestampUs.toNat :=
      Nat.cast_le.mpr (UInt64.lt_iff_toNat_lt.mp (UInt64.not_le.mp earlier)).le
    linarith

/-- What a state keeps. The lower maps that a sweep has not handled yet hold what the sweep
before it left. -/
structure Fresh (rate : CleanerRate) (watched : WatchedClock) : Prop where
  onTime : (watched.state.clock.toNat : ℚ) ≤ watched.lastSweep.toNat + rate.period
  started : watched.lastSweep ≤ watched.state.clock
  reading : ∀ now ∈ watched.state.cleaner.reading,
    watched.lastSweep ≤ now ∧ now ≤ watched.state.clock
  stamped : ∀ {now timeMilliseconds}, watched.state.cleaner = .stamped now timeMilliseconds →
    timeMilliseconds = rate.timeMilliseconds
  sweeping : ∀ {now timeMilliseconds uppers},
    watched.state.cleaner = .sweeping now timeMilliseconds uppers →
      timeMilliseconds = rate.timeMilliseconds ∧
      ∀ {upper lower stored}, watched.state.map.ldmmap.find upper lower = some stored →
        upper ∉ uppers → Recent rate now stored.vehData
  made : ∀ {vehdata}, watched.state.receiver = .stamped vehdata →
    vehdata.timestampUs ≤ watched.state.clock
  entries : ∀ {upper lower stored}, watched.state.map.ldmmap.find upper lower = some stored →
    Recent rate watched.lastSweep stored.vehData ∧ stored.vehData.timestampUs ≤ watched.state.clock

theorem fresh_start {clock : UInt64} (memory : Nat → UninitializedPHpoints)
    (nonneg : 0 ≤ rate.period) : (start clock memory).Fresh rate where
  onTime := le_add_of_nonneg_right nonneg
  started := UInt64.le_refl clock
  reading := by
    intro now reading
    cases reading
  stamped := by
    intro now timeMilliseconds cleaner
    cases cleaner
  sweeping := by
    intro now timeMilliseconds uppers cleaner
    cases cleaner
  made := by
    intro vehdata receiver
    cases receiver
  entries := by
    intro upper lower stored found
    cases found

theorem step_cases {clockStep : ClockStep}
    (stepped : watched.step haversineDist clockStep = some next) :
    ∃ state, watched.state.step haversineDist clockStep = some state ∧
      next = ⟨state, watched.swept clockStep⟩ := by
  rcases Option.map_eq_some_iff.mp stepped with ⟨state, taken, rfl⟩
  exact ⟨state, taken, rfl⟩

theorem Fresh.tick (fresh : watched.Fresh rate) {later : UInt64}
    (prompt : watched.Prompt rate (.tick later))
    (stepped : watched.step haversineDist (.tick later) = some next) : next.Fresh rate := by
  rcases step_cases stepped with ⟨state, taken, rfl⟩
  simp only [CleanerClock.step, CleanerClock.tick] at taken
  split at taken
  · next goesOn =>
      cases taken
      constructor
      case onTime => exact prompt
      case started => exact UInt64.le_trans fresh.started goesOn
      case reading =>
        intro now reading
        rcases fresh.reading now reading with ⟨after, before⟩
        exact ⟨after, UInt64.le_trans before goesOn⟩
      case stamped => exact fresh.stamped
      case sweeping => exact fresh.sweeping
      case made =>
        intro vehdata receiver
        exact UInt64.le_trans (fresh.made receiver) goesOn
      case entries =>
        intro upper lower stored found
        rcases fresh.entries found with ⟨recent, past⟩
        exact ⟨recent, UInt64.le_trans past goesOn⟩
  · cases taken

theorem Fresh.stamp (fresh : watched.Fresh rate) {vehdata : VehicleData}
    (stepped : watched.step haversineDist (.stamp vehdata) = some next) : next.Fresh rate := by
  rcases step_cases stepped with ⟨state, taken, rfl⟩
  simp only [CleanerClock.step, CleanerClock.stamp] at taken
  split at taken
  · cases taken
    refine { fresh with made := ?_ }
    intro stamped receiver
    cases receiver
    exact UInt64.le_refl _
  · cases taken

theorem Fresh.insert (fresh : watched.Fresh rate) (prompt : watched.Prompt rate .insert)
    (stepped : watched.step haversineDist .insert = some next) : next.Fresh rate := by
  rcases step_cases stepped with ⟨state, taken, rfl⟩
  simp only [CleanerClock.step, CleanerClock.insert] at taken
  split at taken
  · cases taken
  · next vehdata receiver =>
      split at taken
      · cases taken
      · rcases Option.map_eq_some_iff.mp taken with ⟨inserted, insertion, rfl⟩
        have young : Recent rate watched.state.clock vehdata := by
          simp only [Prompt, receiver] at prompt
          have within : rate.delay ≤ rate.limit := le_max_right _ _
          unfold Recent
          linarith
        constructor
        case onTime => exact fresh.onTime
        case started => exact fresh.started
        case reading => exact fresh.reading
        case stamped => exact fresh.stamped
        case sweeping =>
          intro now timeMilliseconds uppers cleaner
          rcases fresh.sweeping cleaner with ⟨same, handled⟩
          refine ⟨same, ?_⟩
          intro upper lower stored found absent
          rcases LDMMap.insert_find_cases insertion found with before | new
          · exact handled before absent
          · rw [new]
            exact young.of_le (fresh.reading now (cleaner ▸ rfl)).2
        case made =>
          intro other idle
          cases idle
        case entries =>
          intro upper lower stored found
          rcases LDMMap.insert_find_cases insertion found with before | new
          · exact fresh.entries before
          · rw [new]
            exact ⟨young.of_le fresh.started, fresh.made receiver⟩

theorem Fresh.readNow (fresh : watched.Fresh rate) {timeMilliseconds : ℚ}
    (prompt : watched.Prompt rate (.readNow timeMilliseconds))
    (stepped : watched.step haversineDist (.readNow timeMilliseconds) = some next) :
    next.Fresh rate := by
  rcases step_cases stepped with ⟨state, taken, rfl⟩
  simp only [CleanerClock.step, CleanerClock.readNow] at taken
  split at taken
  · cases taken
    refine { fresh with reading := ?_, stamped := ?_, sweeping := ?_ }
    · intro now reading
      cases reading
      exact ⟨fresh.started, UInt64.le_refl _⟩
    · intro now other cleaner
      cases cleaner
      exact prompt
    · intro now other uppers cleaner
      cases cleaner
  · cases taken

theorem Fresh.beginSweep (fresh : watched.Fresh rate) {uppers : List UInt32}
    (stepped : watched.step haversineDist (.beginSweep uppers) = some next) :
    next.Fresh rate := by
  rcases step_cases stepped with ⟨state, taken, rfl⟩
  simp only [CleanerClock.step, CleanerClock.beginSweep] at taken
  split at taken
  · next now timeMilliseconds cleaner =>
      split at taken
      · next permutation =>
          cases taken
          refine { fresh with reading := ?_, stamped := ?_, sweeping := ?_ }
          · intro other reading
            exact fresh.reading other (cleaner ▸ reading)
          · intro other otherTime sweeping
            cases sweeping
          · intro other otherTime otherUppers sweeping
            cases sweeping
            refine ⟨fresh.stamped cleaner, ?_⟩
            intro upper lower stored found absent
            have member := permutation.mem_iff.mpr (NestedMap.mem_keys_of_find found)
            exact absurd member absent
      · cases taken
  · cases taken

theorem Fresh.sweepLower (fresh : watched.Fresh rate)
    (stepped : watched.step haversineDist .sweepLower = some next) : next.Fresh rate := by
  rcases step_cases stepped with ⟨state, taken, rfl⟩
  simp only [CleanerClock.step, CleanerClock.sweepLower] at taken
  split at taken
  · next now timeMilliseconds upper rest cleaner =>
      cases taken
      rcases fresh.sweeping cleaner with ⟨rfl, handled⟩
      constructor
      case onTime => exact fresh.onTime
      case started => exact fresh.started
      case reading =>
        intro other reading
        exact fresh.reading other (cleaner ▸ reading)
      case stamped =>
        intro other otherTime sweeping
        cases sweeping
      case sweeping =>
        intro other otherTime otherUppers sweeping
        cases sweeping
        refine ⟨rfl, ?_⟩
        intro otherUpper lower stored found absent
        rcases (LDMMap.sweepLower_find_eq_some_iff _ _ _ _ _ _ _).mp found with ⟨before, young⟩
        by_cases same : otherUpper = upper
        · exact recent_of_kept (young same)
        · exact handled before (List.not_mem_cons_of_ne_of_not_mem same absent)
      case made => exact fresh.made
      case entries =>
        intro otherUpper lower stored found
        exact fresh.entries ((LDMMap.sweepLower_find_eq_some_iff _ _ _ _ _ _ _).mp found).1
  · cases taken

theorem Fresh.endSweep (fresh : watched.Fresh rate)
    (stepped : watched.step haversineDist .endSweep = some next) : next.Fresh rate := by
  rcases step_cases stepped with ⟨state, taken, rfl⟩
  simp only [CleanerClock.step, CleanerClock.endSweep] at taken
  split at taken
  · next now timeMilliseconds cleaner =>
      cases taken
      have swept : watched.swept .endSweep = now := by
        rw [WatchedClock.swept, cleaner]
        rfl
      rcases fresh.reading now (cleaner ▸ rfl) with ⟨after, before⟩
      rw [swept]
      constructor
      case onTime =>
        have order : (watched.lastSweep.toNat : ℚ) ≤ now.toNat :=
          Nat.cast_le.mpr (UInt64.le_iff_toNat_le.mp after)
        have onTime := fresh.onTime
        dsimp only
        linarith
      case started => exact before
      case reading =>
        intro other reading
        cases reading
      case stamped =>
        intro other otherTime idle
        cases idle
      case sweeping =>
        intro other otherTime uppers idle
        cases idle
      case made => exact fresh.made
      case entries =>
        intro upper lower stored found
        exact ⟨(fresh.sweeping cleaner).2 found List.not_mem_nil, (fresh.entries found).2⟩
  · cases taken

theorem Fresh.step (fresh : watched.Fresh rate) {clockStep : ClockStep}
    (prompt : watched.Prompt rate clockStep)
    (stepped : watched.step haversineDist clockStep = some next) : next.Fresh rate := by
  cases clockStep with
  | tick later => exact fresh.tick prompt stepped
  | stamp vehdata => exact fresh.stamp stepped
  | insert => exact fresh.insert prompt stepped
  | readNow timeMilliseconds => exact fresh.readNow prompt stepped
  | beginSweep uppers => exact fresh.beginSweep stepped
  | sweepLower => exact fresh.sweepLower stepped
  | endSweep => exact fresh.endSweep stepped

/-! ## The age check -/

/-- The clock of a sender counts milliseconds from another start, and is off by the tolerance
at most when its message is received. -/
def Synchronous (offset tolerance : ℚ) (clock : UInt64) (time : Nat) : Prop :=
  |1000 * (time : ℚ) + offset - clock.toNat| ≤ tolerance

/-- No entry is older than the cleaner leaves it, and the age check finds out which one of two
messages was sent first, whatever number of times their timestamps were reset. -/
structure ChecksAges (rate : CleanerRate) (offset tolerance : ℚ) (watched : WatchedClock) :
    Prop where
  young : ∀ {stationID stored}, watched.state.map.entry stationID = some stored →
    stored.vehData.timestampUs ≤ watched.state.clock ∧
      ((watched.state.clock - stored.vehData.timestampUs).toNat : ℚ) ≤
        rate.limit + rate.period
  outdated_iff : ∀ {options : Client.Options} {stationID stored storedTime rxTime},
    options.ageCheckEnabled = true → watched.state.map.entry stationID = some stored →
    stored.vehData.gnTimestamp.toNat = storedTime % 2 ^ 32 →
    Synchronous offset tolerance stored.vehData.timestampUs storedTime →
    Synchronous offset tolerance watched.state.clock rxTime →
      (Client.outdated options watched.state.map stationID (.ofNat (rxTime % 2 ^ 32)) = true ↔
        rxTime < storedTime)

theorem Fresh.age_le (fresh : watched.Fresh rate) {stationID : UInt64}
    {stored : ReturnedVehicleData} (found : watched.state.map.entry stationID = some stored) :
    stored.vehData.timestampUs ≤ watched.state.clock ∧
      ((watched.state.clock - stored.vehData.timestampUs).toNat : ℚ) ≤
        rate.limit + rate.period := by
  rcases fresh.entries found with ⟨recent, past⟩
  have onTime := fresh.onTime
  unfold Recent at recent
  rw [CleanerClock.age_of_le past]
  exact ⟨past, by linarith⟩

theorem Synchronous.close {offset tolerance limit : ℚ} {clock timestamp : UInt64}
    {rxTime storedTime : Nat} (rx : Synchronous offset tolerance clock rxTime)
    (stored : Synchronous offset tolerance timestamp storedTime) (past : timestamp ≤ clock)
    (age : ((clock - timestamp).toNat : ℚ) ≤ limit)
    (small : limit + 2 * tolerance < 1000 * 300000) :
    |(rxTime : Int) - storedTime| < 300000 := by
  rw [CleanerClock.age_of_le past] at age
  have order : (timestamp.toNat : ℚ) ≤ clock.toNat :=
    Nat.cast_le.mpr (UInt64.le_iff_toNat_le.mp past)
  rcases abs_le.mp rx with ⟨rxLower, rxUpper⟩
  rcases abs_le.mp stored with ⟨storedLower, storedUpper⟩
  have cast : |((rxTime : Int) - storedTime : ℚ)| < 300000 := by
    rw [abs_lt]
    push_cast
    constructor
    · linarith
    · linarith
  exact_mod_cast cast

theorem Fresh.checksAges (fresh : watched.Fresh rate) {offset tolerance : ℚ}
    (small : rate.limit + rate.period + 2 * tolerance < 1000 * 300000) :
    watched.ChecksAges rate offset tolerance where
  young := fresh.age_le
  outdated_iff := by
    intro options stationID stored storedTime rxTime enabled found wraps storedSync rxSync
    rcases fresh.age_le found with ⟨past, age⟩
    have close := rxSync.close storedSync past age small
    have bound : rxTime % 2 ^ 32 < 2 ^ 32 := Nat.mod_lt _ (by decide)
    have received : (UInt64.ofNat (rxTime % 2 ^ 32)).toNat = rxTime % 2 ^ 32 :=
      UInt64.toNat_ofNat_of_lt' (bound.trans (by decide))
    have tooOld_iff := Client.tooOld_iff_lt received wraps close
    rw [Client.outdated_iff, ← tooOld_iff]
    constructor
    · intro outdated
      rcases outdated with ⟨_, _, other, otherFound, older⟩
      cases found.symm.trans otherFound
      exact older
    · intro older
      refine ⟨enabled, ?_, stored, found, older⟩
      intro noTimestamp
      rw [noTimestamp] at received
      have large : uint64Max.toNat = 2 ^ 64 - 1 := rfl
      omega

/-- In every interleaving that keeps to the rate, the entries stay young enough for the age
check, if the limit, the time between the sweeps and the tolerance of the clocks are below
five minutes together. -/
theorem run_checksAges (haversineDist : ℚ → ℚ → ℚ → ℚ → ℚ) (rate : CleanerRate)
    (periodNonneg : 0 ≤ rate.period) (offset tolerance : ℚ)
    (small : rate.limit + rate.period + 2 * tolerance < 1000 * 300000)
    (clock : UInt64) (memory : Nat → UninitializedPHpoints) (steps : List ClockStep)
    (prompt : Execution.Always (step haversineDist) (Prompt rate) (start clock memory) steps)
    (final : WatchedClock)
    (reached : Execution.run (step haversineDist) (start clock memory) steps = some final) :
    final.ChecksAges rate offset tolerance := by
  have fresh : final.Fresh rate := by
    refine Execution.Always.run_invariant (Fresh rate) ?_ (fresh_start memory periodNonneg)
      prompt reached
    intro watched clockStep next fresh isPrompt stepped
    exact fresh.step isPrompt stepped
  exact fresh.checksAges small

/-- Seven seconds, a sweep that ends in the sixth second behind the one before, and a receiver
that waits a second at most. -/
def defaultRate : CleanerRate where
  timeMilliseconds := 7000
  period := 6000000
  delay := 1000000
  nonneg := by norm_num

theorem run_checksAges_default : ∃ final,
    Execution.run (step LDMMap.noDist) (start 1000 default)
        [.stamp (LDMMap.station 12), .insert, .tick 5000000, .readNow 7000, .beginSweep [0],
          .sweepLower, .endSweep, .tick 10000000] = some final ∧
      final.ChecksAges defaultRate 0 1000000 := by
  have reached := (Option.some_get (show (Execution.run (step LDMMap.noDist) (start 1000 default)
    [.stamp (LDMMap.station 12), .insert, .tick 5000000, .readNow 7000, .beginSweep [0],
      .sweepLower, .endSweep, .tick 10000000]).isSome by decide +kernel)).symm
  refine ⟨_, reached, run_checksAges LDMMap.noDist defaultRate ?_ 0 1000000 ?_ 1000 default _ ?_
    _ reached⟩
  · decide +kernel
  · decide +kernel
  · decide +kernel

end WatchedClock

end AIM.Threads
