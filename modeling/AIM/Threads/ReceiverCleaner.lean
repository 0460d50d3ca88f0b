import AIM.Database.Operations

namespace AIM.Threads

open Database

/-! # The receiver and the cleaner

One thread inserts into the database while another one deletes old entries. An
insertion runs in three steps: the checks, the write under a lock and the call of
`phData->insert`. A sweep holds the lock of the main map in shared mode, which keeps
new lower maps out, and handles every lower map in one step under its own lock. -/

inductive ReceiverPc
  | idle
  | decided (newVehicleData : VehicleData) (decision : LDMMap.InsertDecision)
  | written (newVehicleData : VehicleData)
  | nullCall

inductive CleanerPc
  | idle
  | sweeping (now : UInt64) (timeMilliseconds : ℚ) (uppers : List UInt32)

structure ReceiverCleaner where
  map : LDMMap
  receiver : ReceiverPc
  cleaner : CleanerPc

/-- The steps of the two threads. A sweep visits the lower maps in any order. -/
inductive ThreadStep
  | check (newVehicleData : VehicleData)
  | write
  | call
  | beginSweep (now : UInt64) (timeMilliseconds : ℚ) (uppers : List UInt32)
  | sweepLower
  | endSweep

def ReceiverPc.inserting : ReceiverPc → Option VehicleData
  | .idle => none
  | .decided newVehicleData _ => some newVehicleData
  | .written newVehicleData => some newVehicleData
  | .nullCall => none

namespace ReceiverCleaner

def start (memory : Nat → UninitializedPHpoints) : ReceiverCleaner :=
  ⟨.empty memory, .idle, .idle⟩

section

variable (haversineDist : ℚ → ℚ → ℚ → ℚ → ℚ) (state : ReceiverCleaner)

def check (newVehicleData : VehicleData) : Option ReceiverCleaner :=
  match state.receiver with
  | .idle =>
      match state.map.insertChecks newVehicleData with
      | none => some state
      | some (checked, decision) =>
          some { state with map := checked, receiver := .decided newVehicleData decision }
  | _ => none

/-- A new lower map waits for the end of a sweep. -/
def write : Option ReceiverCleaner :=
  match state.receiver, state.cleaner with
  | .decided _ .newUpper, .sweeping _ _ _ => none
  | .decided newVehicleData decision, _ =>
      some { state with
        map := state.map.insertWrite newVehicleData decision
        receiver := .written newVehicleData }
  | _, _ => none

def call : Option ReceiverCleaner :=
  match state.receiver with
  | .written newVehicleData =>
      match state.map.insertCall haversineDist newVehicleData with
      | none => some { state with receiver := .nullCall }
      | some called => some { state with map := called, receiver := .idle }
  | _ => none

def beginSweep (now : UInt64) (timeMilliseconds : ℚ) (uppers : List UInt32) :
    Option ReceiverCleaner :=
  match state.cleaner with
  | .idle =>
      if uppers.Perm state.map.ldmmap.keys then
        some { state with cleaner := .sweeping now timeMilliseconds uppers }
      else none
  | _ => none

def sweepLower : Option ReceiverCleaner :=
  match state.cleaner with
  | .sweeping now timeMilliseconds (upper :: rest) =>
      some { state with
        map := (LDMMap.sweepLower now timeMilliseconds (state.map, []) upper).1
        cleaner := .sweeping now timeMilliseconds rest }
  | _ => none

def endSweep : Option ReceiverCleaner :=
  match state.cleaner with
  | .sweeping _ _ [] => some { state with cleaner := .idle }
  | _ => none

def step : ThreadStep → Option ReceiverCleaner
  | .check newVehicleData => state.check newVehicleData
  | .write => state.write
  | .call => state.call haversineDist
  | .beginSweep now timeMilliseconds uppers => state.beginSweep now timeMilliseconds uppers
  | .sweepLower => state.sweepLower
  | .endSweep => state.endSweep

/-- The integrity that the two threads should keep. -/
structure Integrity : Prop where
  phData : ∀ upper lower stored, state.map.ldmmap.find upper lower = some stored →
    stored.phData ≠ none
  noNullCall : state.receiver ≠ .nullCall
  counted : state.receiver = .idle → state.map.card.toNat = state.map.ldmmap.card

def KeepsIntegrity (threadStep : ThreadStep) : Prop :=
  ∀ {next}, state.step haversineDist threadStep = some next → next.Integrity

/-- A sweep does not erase the entry of the station that is being inserted. -/
def SparesInsertion : ThreadStep → Prop
  | .sweepLower =>
      match state.cleaner, state.receiver.inserting with
      | .sweeping now timeMilliseconds (upper :: _), some newVehicleData =>
          keyUpper newVehicleData.stationID = upper →
            ∀ stored ∈ state.map.entry newVehicleData.stationID,
              LDMMap.olderThan now timeMilliseconds stored = false
      | _, _ => True
  | _ => True

end

instance (state : ReceiverCleaner) (threadStep : ThreadStep) :
    Decidable (state.SparesInsertion threadStep) := by
  unfold SparesInsertion
  split
  · split <;> infer_instance
  · infer_instance

/-! ## The invariant -/

/-- Every entry points to a live path history, under a split key. -/
structure EntriesLive (map : LDMMap) : Prop where
  uppers : ∀ {upper lower stored}, map.ldmmap.find upper lower = some stored →
    upper.toNat < 65536
  live : ∀ {upper lower stored}, map.ldmmap.find upper lower = some stored →
    ∃ address object, stored.phData = some address ∧ address < map.heap.nextAddress ∧
      map.heap.objects address = some object

def Expects (map : LDMMap) : ReceiverPc → Prop
  | .idle => map.card.toNat = map.ldmmap.card
  | .decided newVehicleData decision =>
      map.Prepared newVehicleData decision ∧
        map.card.toNat = map.ldmmap.card + decision.countedEarly
  | .written newVehicleData =>
      (map.entry newVehicleData.stationID).isSome ∧ map.card.toNat = map.ldmmap.card
  | .nullCall => False

structure Consistent (state : ReceiverCleaner) : Prop where
  entries : EntriesLive state.map
  expects : Expects state.map state.receiver

variable {haversineDist : ℚ → ℚ → ℚ → ℚ → ℚ} {state next : ReceiverCleaner}

theorem consistent_start (memory : Nat → UninitializedPHpoints) :
    (start memory).Consistent where
  entries.uppers found := nomatch found
  entries.live found := nomatch found
  expects := rfl

theorem Consistent.integrity (consistent : state.Consistent) : state.Integrity where
  phData := by
    intro upper lower stored found
    rcases consistent.entries.live found with ⟨address, _, pointer, _⟩
    rw [pointer]
    exact nofun
  noNullCall := by
    intro null
    have expects := consistent.expects
    rw [null] at expects
    exact expects
  counted := by
    intro idle
    have expects := consistent.expects
    rw [idle] at expects
    exact expects

/-! ## The steps of the receiver -/

theorem EntriesLive.card_le {map : LDMMap} (entries : EntriesLive map) :
    map.ldmmap.card ≤ 2 ^ 48 :=
  LDMMap.ldmmap_card_le fun _ _ _ found => entries.uppers found

theorem toNat_add_ofNat {card : UInt64} {count : Nat} (few : card.toNat + count < 2 ^ 64) :
    (card + .ofNat count).toNat = card.toNat + count := by
  rw [UInt64.toNat_add, UInt64.toNat_ofNat']
  omega

theorem check_consistent (consistent : state.Consistent) {newVehicleData : VehicleData}
    (stepped : state.check newVehicleData = some next) : next.Consistent := by
  rcases state with ⟨map, receiver, cleaner⟩
  cases receiver with
  | decided | written | nullCall => cases stepped
  | idle =>
      have counted : map.card.toNat = map.ldmmap.card := consistent.expects
      have few : map.ldmmap.card ≤ 2 ^ 48 := consistent.entries.card_le
      rcases LDMMap.insertChecks_spec newVehicleData
        (LDMMap.card_ne_uint64Max (counted.trans_le few)) with ⟨decision, prepared, checks⟩
      simp only [check, checks, Option.some.injEq] at stepped
      rw [← stepped]
      refine ⟨⟨consistent.entries.uppers, consistent.entries.live⟩, ?_, ?_⟩
      · cases decision <;> exact prepared
      · have early : decision.countedEarly ≤ 1 := by cases decision <;> decide
        rw [toNat_add_ofNat (by omega), counted]

theorem EntriesLive.insertWrite {map : LDMMap} (entries : EntriesLive map)
    {newVehicleData : VehicleData} {decision : LDMMap.InsertDecision}
    (prepared : map.Prepared newVehicleData decision) :
    EntriesLive (map.insertWrite newVehicleData decision) where
  uppers := by
    intro upper lower stored found
    rw [LDMMap.insertWrite_find prepared.ready] at found
    split at found
    · next same =>
        rw [same.1, keyUpper_toNat]
        omega
    · exact entries.uppers found
  live := by
    intro upper lower stored found
    rw [LDMMap.insertWrite_find prepared.ready] at found
    split at found
    · cases decision with
      | newUpper | newLower =>
          cases found
          exact ⟨_, _, rfl, Nat.lt_succ_self _, Function.update_self _ _ _⟩
      | update =>
          rcases Option.isSome_iff_exists.mp prepared with ⟨previous, present⟩
          cases found
          rw [LDMMap.writtenEntry, present]
          rcases entries.live present with ⟨address, object, pointer, below, alive⟩
          exact ⟨address, object, pointer, below, alive⟩
    · rcases entries.live found with ⟨address, object, pointer, below, alive⟩
      rw [LDMMap.insertWrite_heap]
      split
      · exact ⟨address, object, pointer, below, alive⟩
      · exact ⟨address, object, pointer, below.trans (Nat.lt_succ_self _),
          (Function.update_of_ne (Nat.ne_of_lt below) _ _).trans alive⟩

theorem write_cases (stepped : state.write = some next) :
    ∃ newVehicleData decision, state.receiver = .decided newVehicleData decision ∧
      next = { state with
        map := state.map.insertWrite newVehicleData decision
        receiver := .written newVehicleData } := by
  unfold write at stepped
  split at stepped
  · cases stepped
  · next newVehicleData decision receiver _ =>
      cases stepped
      exact ⟨newVehicleData, decision, receiver, rfl⟩
  · cases stepped

theorem write_consistent (consistent : state.Consistent)
    (stepped : state.write = some next) : next.Consistent := by
  rcases write_cases stepped with ⟨newVehicleData, decision, receiver, rfl⟩
  have expects := consistent.expects
  rw [receiver] at expects
  rcases expects with ⟨prepared, counted⟩
  have few := consistent.entries.card_le
  have added : decision.countedEarly + (decision.added - decision.countedEarly) =
      decision.added ∧ decision.added ≤ 1 := by
    cases decision <;> decide
  refine ⟨consistent.entries.insertWrite prepared, ?_, ?_⟩
  · rw [LDMMap.insertWrite_entry prepared.ready]
    rfl
  · rw [LDMMap.insertWrite_card, LDMMap.insertWrite_ldmmap_card prepared,
      toNat_add_ofNat (by omega)]
    omega

theorem call_consistent (consistent : state.Consistent)
    (stepped : state.call haversineDist = some next) : next.Consistent := by
  rcases state with ⟨map, receiver, cleaner⟩
  cases receiver with
  | idle | decided | nullCall => cases stepped
  | written newVehicleData =>
      rcases consistent.expects with ⟨present, counted⟩
      rcases Option.isSome_iff_exists.mp present with ⟨stored, found⟩
      rcases consistent.entries.live found with ⟨address, object, pointer, below, alive⟩
      simp only [call, LDMMap.insertCall_of_entry haversineDist map found pointer alive,
        Option.some.injEq] at stepped
      rw [← stepped]
      refine ⟨⟨consistent.entries.uppers, ?_⟩, counted⟩
      intro upper lower other otherFound
      rcases consistent.entries.live otherFound with
        ⟨otherAddress, otherObject, otherPointer, otherBelow, otherAlive⟩
      by_cases same : otherAddress = address
      · subst same
        exact ⟨otherAddress, _, otherPointer, otherBelow, Function.update_self _ _ _⟩
      · exact ⟨otherAddress, otherObject, otherPointer, otherBelow,
          (Function.update_of_ne same _ _).trans otherAlive⟩

/-! ## The steps of the cleaner -/

theorem sweepLower_cases (stepped : state.sweepLower = some next) :
    ∃ now timeMilliseconds upper rest,
      state.cleaner = .sweeping now timeMilliseconds (upper :: rest) ∧
      next = { state with
        map := (LDMMap.sweepLower now timeMilliseconds (state.map, []) upper).1
        cleaner := .sweeping now timeMilliseconds rest } := by
  unfold sweepLower at stepped
  split at stepped
  · next now timeMilliseconds upper rest cleaner =>
      cases stepped
      exact ⟨now, timeMilliseconds, upper, rest, cleaner, rfl⟩
  · cases stepped

theorem beginSweep_cases {now : UInt64} {timeMilliseconds : ℚ} {uppers : List UInt32}
    (stepped : state.beginSweep now timeMilliseconds uppers = some next) :
    ∃ cleaner, next = { state with cleaner := cleaner } := by
  unfold beginSweep at stepped
  split at stepped
  · split at stepped
    · cases stepped
      exact ⟨_, rfl⟩
    · cases stepped
  · cases stepped

theorem endSweep_cases (stepped : state.endSweep = some next) :
    ∃ cleaner, next = { state with cleaner := cleaner } := by
  unfold endSweep at stepped
  split at stepped
  · cases stepped
    exact ⟨_, rfl⟩
  · cases stepped

theorem EntriesLive.sweepLower {map : LDMMap} (entries : EntriesLive map) (now : UInt64)
    (timeMilliseconds : ℚ) (upper : UInt32) :
    EntriesLive (LDMMap.sweepLower now timeMilliseconds (map, []) upper).1 where
  uppers found :=
    entries.uppers ((LDMMap.sweepLower_find_eq_some_iff _ _ _ _ _ _ _).mp found).1
  live found := by
    rw [LDMMap.sweepLower_heap]
    exact entries.live ((LDMMap.sweepLower_find_eq_some_iff _ _ _ _ _ _ _).mp found).1

theorem entry_sweepLower {map : LDMMap} {stationID : UInt64}
    (present : (map.entry stationID).isSome) {now : UInt64} {timeMilliseconds : ℚ}
    {upper : UInt32}
    (spares : keyUpper stationID = upper → ∀ stored ∈ map.entry stationID,
      LDMMap.olderThan now timeMilliseconds stored = false) :
    ((LDMMap.sweepLower now timeMilliseconds (map, []) upper).1.entry stationID).isSome := by
  rcases Option.isSome_iff_exists.mp present with ⟨stored, found⟩
  apply Option.isSome_of_eq_some
  exact (LDMMap.sweepLower_find_eq_some_iff _ _ _ _ _ _ _).mpr
    ⟨found, fun same => spares same stored found⟩

theorem prepared_sweepLower {map : LDMMap} {newVehicleData : VehicleData}
    {decision : LDMMap.InsertDecision} (prepared : map.Prepared newVehicleData decision)
    {now : UInt64} {timeMilliseconds : ℚ} {upper : UInt32}
    (spares : keyUpper newVehicleData.stationID = upper →
      ∀ stored ∈ map.entry newVehicleData.stationID,
        LDMMap.olderThan now timeMilliseconds stored = false) :
    (LDMMap.sweepLower now timeMilliseconds (map, []) upper).1.Prepared newVehicleData
      decision := by
  cases decision with
  | newUpper =>
      exact prepared.ready.sweepLower now timeMilliseconds [] upper
  | newLower =>
      rcases prepared with ⟨lowerMap, found, absent⟩
      have after := LDMMap.sweepLower_lookup now timeMilliseconds (map, []) upper
        (keyUpper newVehicleData.stationID)
      by_cases same : keyUpper newVehicleData.stationID = upper
      · subst same
        rw [if_pos rfl, found, Option.map_some] at after
        refine ⟨_, after, ?_⟩
        rw [← AList.lookup_eq_none, Assoc.lookup_eraseWhere,
          AList.lookup_eq_none.mpr absent, Option.filter_none]
      · rw [if_neg same, found] at after
        exact ⟨lowerMap, after, absent⟩
  | update => exact entry_sweepLower prepared spares

theorem sweepLower_difference {map : LDMMap} (count : Nat)
    (counted : map.card.toNat = map.ldmmap.card + count) (now : UInt64)
    (timeMilliseconds : ℚ) (upper : UInt32) :
    (LDMMap.sweepLower now timeMilliseconds (map, []) upper).1.card.toNat =
      (LDMMap.sweepLower now timeMilliseconds (map, []) upper).1.ldmmap.card + count := by
  have entries := LDMMap.sweepLower_ldmmap_card now timeMilliseconds (map, []) upper
  have counter := LDMMap.sweepLower_card now timeMilliseconds (map, []) upper
    (Nat.le.intro counted.symm)
  dsimp only at entries counter
  omega

theorem sweepLower_consistent (consistent : state.Consistent)
    (spares : state.SparesInsertion .sweepLower)
    (stepped : state.sweepLower = some next) : next.Consistent := by
  rcases sweepLower_cases stepped with ⟨now, timeMilliseconds, upper, rest, sweeping, rfl⟩
  rcases state with ⟨map, receiver, cleaner⟩
  dsimp only at sweeping
  subst sweeping
  have expects := consistent.expects
  refine ⟨consistent.entries.sweepLower now timeMilliseconds upper, ?_⟩
  cases receiver with
  | idle => exact sweepLower_difference 0 expects now timeMilliseconds upper
  | decided newVehicleData decision =>
      exact ⟨prepared_sweepLower expects.1 spares,
        sweepLower_difference _ expects.2 now timeMilliseconds upper⟩
  | written newVehicleData =>
      exact ⟨entry_sweepLower expects.1 spares,
        sweepLower_difference 0 expects.2 now timeMilliseconds upper⟩
  | nullCall => exact expects

theorem Consistent.step (consistent : state.Consistent) {threadStep : ThreadStep}
    (spares : state.SparesInsertion threadStep)
    (stepped : state.step haversineDist threadStep = some next) : next.Consistent := by
  cases threadStep with
  | check newVehicleData => exact check_consistent consistent stepped
  | write => exact write_consistent consistent stepped
  | call => exact call_consistent consistent stepped
  | sweepLower => exact sweepLower_consistent consistent spares stepped
  | beginSweep now timeMilliseconds uppers =>
      rcases beginSweep_cases stepped with ⟨cleaner, rfl⟩
      exact ⟨consistent.entries, consistent.expects⟩
  | endSweep =>
      rcases endSweep_cases stepped with ⟨cleaner, rfl⟩
      exact ⟨consistent.entries, consistent.expects⟩

/-- Every state of an interleaving has integrity, as long as no sweep erases the entry
of the station that is being inserted. -/
theorem run_keepsIntegrity (haversineDist : ℚ → ℚ → ℚ → ℚ → ℚ)
    (memory : Nat → UninitializedPHpoints) (steps : List ThreadStep)
    (spares : Execution.Always (step haversineDist) SparesInsertion (start memory) steps) :
    Execution.Always (step haversineDist) (KeepsIntegrity haversineDist) (start memory)
      steps := by
  apply Execution.Always.of_invariant Consistent (fun _ => True)
  · intro state threadStep next consistent _ spares stepped
    exact consistent.step spares stepped
  · intro state threadStep consistent _ spares next stepped
    exact (consistent.step spares stepped).integrity
  · exact consistent_start memory
  · exact fun _ _ => trivial
  · exact spares

/-! ## The other direction -/

theorem insertWrite_update_of_erased {map : LDMMap} {newVehicleData : VehicleData}
    (ready : map.Ready newVehicleData .update)
    (erased : map.entry newVehicleData.stationID = none) :
    (map.insertWrite newVehicleData .update).entry newVehicleData.stationID =
      some ⟨newVehicleData, none⟩ := by
  rw [LDMMap.insertWrite_entry ready, LDMMap.writtenEntry, erased]
  rfl

theorem step_call_eq_nullCall {newVehicleData : VehicleData}
    (written : state.receiver = .written newVehicleData)
    (null : state.map.insertCall haversineDist newVehicleData = none) :
    state.step haversineDist .call = some { state with receiver := .nullCall } := by
  simp only [ReceiverCleaner.step, call, written, null]

theorem not_spares_cases (erasing : ¬state.SparesInsertion .sweepLower) :
    ∃ now timeMilliseconds newVehicleData rest stored,
      state.cleaner = .sweeping now timeMilliseconds
        (keyUpper newVehicleData.stationID :: rest) ∧
      state.receiver.inserting = some newVehicleData ∧
      state.map.entry newVehicleData.stationID = some stored ∧
      LDMMap.olderThan now timeMilliseconds stored = true := by
  simp only [SparesInsertion] at erasing
  split at erasing
  · next now timeMilliseconds upper rest newVehicleData cleaner inserting =>
      simp only [not_forall, Bool.not_eq_false] at erasing
      rcases erasing with ⟨rfl, stored, found, old⟩
      exact ⟨now, timeMilliseconds, newVehicleData, rest, stored, cleaner, inserting, found,
        old⟩
  · exact absurd trivial erasing

theorem not_keepsIntegrity_of_not_spares (haversineDist : ℚ → ℚ → ℚ → ℚ → ℚ)
    (consistent : state.Consistent) (erasing : ¬state.SparesInsertion .sweepLower)
    (stepped : state.sweepLower = some next) :
    ∃ threadStep, ¬next.KeepsIntegrity haversineDist threadStep := by
  rcases state with ⟨map, receiver, cleaner⟩
  rcases not_spares_cases erasing with
    ⟨now, timeMilliseconds, newVehicleData, rest, stored, sweeping, inserting, found, old⟩
  dsimp only at sweeping
  subst sweeping
  cases stepped
  have erased := (LDMMap.sweepLower_find_eq_none_iff now timeMilliseconds (map, [])
    (keyUpper newVehicleData.stationID) _ _ found).mpr ⟨rfl, old⟩
  have expects := consistent.expects
  cases receiver with
  | idle | nullCall => cases inserting
  | decided _ decision =>
      cases inserting
      have isUpdate : decision = .update := by
        by_contra added
        rw [LDMMap.Prepared.entry_eq_none expects.1 added] at found
        cases found
      subst isUpdate
      refine ⟨.write, fun keeps => ?_⟩
      have integrity := keeps rfl
      have ready := expects.1.ready.sweepLower now timeMilliseconds []
        (keyUpper newVehicleData.stationID)
      exact integrity.phData _ _ _ (insertWrite_update_of_erased ready erased) rfl
  | written _ =>
      cases inserting
      refine ⟨.call, fun keeps => ?_⟩
      have null := LDMMap.insertCall_of_absent haversineDist erased
      exact (keeps (step_call_eq_nullCall rfl null)).noNullCall rfl

/-! A station that is updated while its entry is swept. -/

/-- The sweep finds an entry that is not older than a second. -/
theorem run_keepsIntegrity_spared :
    Execution.Always (step LDMMap.noDist) (KeepsIntegrity LDMMap.noDist) (start default)
      [.check (LDMMap.station 12), .write, .call, .check (LDMMap.station 12),
        .beginSweep 2000 1000 [0], .sweepLower, .write, .call, .endSweep] :=
  run_keepsIntegrity LDMMap.noDist default _ (by decide +kernel)

/-- The sweep erases the entry between the checks and the write of an update. The write
then creates it anew, without a path history. -/
theorem not_keepsIntegrity_of_swept :
    ¬Execution.Always (step LDMMap.noDist) (KeepsIntegrity LDMMap.noDist) (start default)
      [.check (LDMMap.station 12), .write, .call, .check (LDMMap.station 12),
        .beginSweep 2000000 1000 [0], .sweepLower, .write, .call] := by
  intro always
  have written := always.after
    [ThreadStep.check (LDMMap.station 12), .write, .call, .check (LDMMap.station 12),
      .beginSweep 2000000 1000 [0], .sweepLower] (Option.some_get (by decide +kernel)).symm
  have integrity := written.1 (Option.some_get (by decide +kernel)).symm
  exact integrity.phData 0 12 _ (Option.some_get (by decide +kernel)).symm (by decide +kernel)

end ReceiverCleaner

end AIM.Threads
