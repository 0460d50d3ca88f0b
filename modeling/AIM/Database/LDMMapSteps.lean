import AIM.Database.LDMMap

namespace AIM.Database

/-! # What the steps of the database do

The effect of every step on the entries, on the number of entries and on the
cardinality counter. Nothing else is needed about the definitions of the steps. -/

/-! ## The split key -/

theorem keyLower_toNat (stationID : UInt64) :
    (keyLower stationID).toNat = stationID.toNat % 65536 := by
  have mask : stationID.toNat &&& 65535 = stationID.toNat % 65536 :=
    Nat.and_two_pow_sub_one_eq_mod _ 16
  simp only [keyLower, UInt64.toNat_toUInt32, UInt64.toNat_and]
  change (stationID.toNat &&& 65535) % 2 ^ 32 = _
  omega

theorem keyUpper_toNat (stationID : UInt64) :
    (keyUpper stationID).toNat = stationID.toNat / 65536 % 65536 := by
  have mask : stationID.toNat / 65536 &&& 65535 = stationID.toNat / 65536 % 65536 :=
    Nat.and_two_pow_sub_one_eq_mod _ 16
  simp only [keyUpper, UInt64.toNat_toUInt32, UInt64.toNat_shiftRight, UInt64.toNat_and]
  change ((stationID.toNat &&& 0xFFFF0000) >>> 16) % 2 ^ 32 = _
  rw [Nat.shiftRight_and_distrib, Nat.shiftRight_eq_div_pow]
  change (stationID.toNat / 65536 &&& 65535) % 2 ^ 32 = _
  omega

/-- The range of the ASN.1 type StationID. -/
def InRange (stationID : UInt64) : Prop := stationID.toNat < 2 ^ 32

instance (stationID : UInt64) : Decidable (InRange stationID) :=
  inferInstanceAs (Decidable (_ < _))

theorem inRange_toUInt64 (stationID : UInt32) : InRange stationID.toUInt64 := by
  have bound := stationID.toNat_lt
  rw [InRange, UInt32.toNat_toUInt64]
  exact bound

theorem stationID_eq_of_keys {left right : UInt64} (leftRange : InRange left)
    (rightRange : InRange right) (upper : keyUpper left = keyUpper right)
    (lower : keyLower left = keyLower right) : left = right := by
  have uppers := congrArg UInt32.toNat upper
  have lowers := congrArg UInt32.toNat lower
  rw [keyUpper_toNat, keyUpper_toNat] at uppers
  rw [keyLower_toNat, keyLower_toNat] at lowers
  unfold InRange at leftRange rightRange
  apply UInt64.toNat_inj.mp
  omega

theorem keys_ne {stationID other : UInt64} (inRange : InRange stationID)
    (otherRange : InRange other) (different : other ≠ stationID) :
    ¬(keyUpper other = keyUpper stationID ∧ keyLower other = keyLower stationID) :=
  fun keys => different (stationID_eq_of_keys otherRange inRange keys.1 keys.2)

theorem toUInt32_eq_keyLower {stationID : UInt64} (small : stationID.toNat < 65536) :
    stationID.toUInt32 = keyLower stationID := by
  apply UInt32.toNat_inj.mp
  rw [keyLower_toNat, UInt64.toNat_toUInt32]
  omega

theorem keyLower_ne_toUInt32 {stationID other : UInt64} (inRange : InRange stationID)
    (large : 65536 ≤ stationID.toNat) : keyLower other ≠ stationID.toUInt32 := by
  intro equal
  have values := congrArg UInt32.toNat equal
  rw [keyLower_toNat, UInt64.toNat_toUInt32] at values
  unfold InRange at inRange
  omega

namespace LDMMap

/-! ## Insertion -/

def Prepared (map : LDMMap) (newVehicleData : VehicleData) : InsertDecision → Prop
  | .newUpper => map.ldmmap.lookup (keyUpper newVehicleData.stationID) = none
  | .newLower => ∃ lowerMap,
      map.ldmmap.lookup (keyUpper newVehicleData.stationID) = some lowerMap ∧
      keyLower newVehicleData.stationID ∉ lowerMap
  | .update => (map.entry newVehicleData.stationID).isSome

/-- What a decision still relies on after other threads have deleted entries. -/
def Ready (map : LDMMap) (newVehicleData : VehicleData) : InsertDecision → Prop
  | .newUpper => map.ldmmap.lookup (keyUpper newVehicleData.stationID) = none
  | .newLower => (map.ldmmap.lookup (keyUpper newVehicleData.stationID)).isSome
  | .update => (map.ldmmap.lookup (keyUpper newVehicleData.stationID)).isSome

def InsertDecision.added : InsertDecision → Nat
  | .newUpper => 1
  | .newLower => 1
  | .update => 0

def InsertDecision.countedEarly : InsertDecision → Nat
  | .newUpper => 0
  | .newLower => 1
  | .update => 0

theorem entry_of_lookup {map : LDMMap} {stationID : UInt64}
    {lowerMap : Assoc UInt32 ReturnedVehicleData}
    (found : map.ldmmap.lookup (keyUpper stationID) = some lowerMap) :
    map.entry stationID = lowerMap.lookup (keyLower stationID) :=
  NestedMap.find_of_lookup found _

theorem entry_of_lookup_none {map : LDMMap} {stationID : UInt64}
    (absent : map.ldmmap.lookup (keyUpper stationID) = none) :
    map.entry stationID = none := by
  rw [entry, NestedMap.find, absent, Option.bind_none]

theorem insertChecks_spec {map : LDMMap} (newVehicleData : VehicleData)
    (notFull : map.card ≠ uint64Max) :
    ∃ decision, map.Prepared newVehicleData decision ∧
      map.insertChecks newVehicleData =
        some ({ map with card := map.card + .ofNat decision.countedEarly }, decision) := by
  rw [insertChecks, if_neg notFull]
  cases found : map.ldmmap.lookup (keyUpper newVehicleData.stationID) with
  | none =>
      refine ⟨.newUpper, found, ?_⟩
      simp [InsertDecision.countedEarly]
  | some lowerMap =>
      by_cases member : keyLower newVehicleData.stationID ∈ lowerMap
      · refine ⟨.update, ?_, ?_⟩
        · rw [Prepared, entry_of_lookup found]
          exact AList.lookup_isSome.mpr member
        · simp [member, InsertDecision.countedEarly]
      · refine ⟨.newLower, ⟨lowerMap, found, member⟩, ?_⟩
        simp [member, InsertDecision.countedEarly]

theorem Prepared.entry_eq_none {map : LDMMap} {newVehicleData : VehicleData}
    {decision : InsertDecision} (prepared : map.Prepared newVehicleData decision)
    (added : decision ≠ .update) : map.entry newVehicleData.stationID = none := by
  cases decision with
  | newUpper => exact entry_of_lookup_none prepared
  | newLower =>
      rcases prepared with ⟨lowerMap, found, absent⟩
      rw [entry_of_lookup found]
      exact AList.lookup_eq_none.mpr absent
  | update => exact absurd rfl added

def writtenEntry (map : LDMMap) (newVehicleData : VehicleData) :
    InsertDecision → ReturnedVehicleData
  | .newUpper => ⟨newVehicleData, some map.heap.nextAddress⟩
  | .newLower => ⟨newVehicleData, some map.heap.nextAddress⟩
  | .update =>
      ⟨newVehicleData, ((map.entry newVehicleData.stationID).getD default).phData⟩

theorem lookup_of_entry_isSome {map : LDMMap} {stationID : UInt64}
    (present : (map.entry stationID).isSome) :
    ∃ lowerMap, map.ldmmap.lookup (keyUpper stationID) = some lowerMap ∧
      keyLower stationID ∈ lowerMap := by
  cases found : map.ldmmap.lookup (keyUpper stationID) with
  | none =>
      rw [entry_of_lookup_none found] at present
      cases present
  | some lowerMap =>
      rw [entry_of_lookup found] at present
      exact ⟨lowerMap, rfl, AList.lookup_isSome.mp present⟩

theorem Prepared.ready {map : LDMMap} {newVehicleData : VehicleData}
    {decision : InsertDecision} (prepared : map.Prepared newVehicleData decision) :
    map.Ready newVehicleData decision := by
  cases decision with
  | newUpper => exact prepared
  | newLower =>
      rcases prepared with ⟨lowerMap, found, _⟩
      exact Option.isSome_of_eq_some found
  | update =>
      rcases lookup_of_entry_isSome prepared with ⟨lowerMap, found, _⟩
      exact Option.isSome_of_eq_some found

theorem insertWrite_find {map : LDMMap} {newVehicleData : VehicleData}
    {decision : InsertDecision} (ready : map.Ready newVehicleData decision)
    (upper lower : UInt32) :
    (map.insertWrite newVehicleData decision).ldmmap.find upper lower =
      if upper = keyUpper newVehicleData.stationID ∧
          lower = keyLower newVehicleData.stationID then
        some (map.writtenEntry newVehicleData decision)
      else map.ldmmap.find upper lower := by
  cases decision with
  | newUpper =>
      exact NestedMap.find_insert_singleton ready _ _ upper lower
  | newLower =>
      rcases Option.isSome_iff_exists.mp ready with ⟨lowerMap, found⟩
      exact NestedMap.find_modifyLower_insert found _ _ upper lower
  | update =>
      rcases Option.isSome_iff_exists.mp ready with ⟨lowerMap, found⟩
      rw [writtenEntry, entry_of_lookup found]
      exact NestedMap.find_modifyLower_insert found _ _ upper lower

theorem insertWrite_ldmmap_card {map : LDMMap} {newVehicleData : VehicleData}
    {decision : InsertDecision} (prepared : map.Prepared newVehicleData decision) :
    (map.insertWrite newVehicleData decision).ldmmap.card =
      map.ldmmap.card + decision.added := by
  cases decision with
  | newUpper => exact NestedMap.card_insert_of_lookup_none prepared _
  | newLower =>
      rcases prepared with ⟨lowerMap, found, absent⟩
      exact NestedMap.card_modifyLower_insert_of_not_mem found absent _
  | update =>
      rcases lookup_of_entry_isSome prepared with ⟨lowerMap, found, member⟩
      exact NestedMap.card_modifyLower_insert_of_mem found member _

theorem insertWrite_card (map : LDMMap) (newVehicleData : VehicleData)
    (decision : InsertDecision) :
    (map.insertWrite newVehicleData decision).card =
      map.card + .ofNat (decision.added - decision.countedEarly) := by
  cases decision with
  | newUpper => rfl
  | newLower => exact (UInt64.add_zero _).symm
  | update => exact (UInt64.add_zero _).symm

theorem insertWrite_heap (map : LDMMap) (newVehicleData : VehicleData)
    (decision : InsertDecision) :
    (map.insertWrite newVehicleData decision).heap =
      if decision = .update then map.heap else map.heap.allocate := by
  cases decision <;> rfl

theorem insertWrite_entry {map : LDMMap} {newVehicleData : VehicleData}
    {decision : InsertDecision} (ready : map.Ready newVehicleData decision) :
    (map.insertWrite newVehicleData decision).entry newVehicleData.stationID =
      some (map.writtenEntry newVehicleData decision) := by
  rw [entry, insertWrite_find ready, if_pos ⟨rfl, rfl⟩]

theorem writtenEntry_vehData (map : LDMMap) (newVehicleData : VehicleData)
    (decision : InsertDecision) :
    (map.writtenEntry newVehicleData decision).vehData = newVehicleData := by
  cases decision <;> rfl

theorem insertWrite_of_card (map : LDMMap) (count : UInt64) (newVehicleData : VehicleData)
    (decision : InsertDecision) :
    { map with card := count }.insertWrite newVehicleData decision =
      { map.insertWrite newVehicleData decision with
        card := count + .ofNat (decision.added - decision.countedEarly) } := by
  cases decision <;>
    simp [insertWrite, InsertDecision.added, InsertDecision.countedEarly]

theorem insertCall_of_entry (haversineDist : ℚ → ℚ → ℚ → ℚ → ℚ) (map : LDMMap)
    {newVehicleData : VehicleData} {stored : ReturnedVehicleData} {address : Nat}
    {object : PHpoints} (found : map.entry newVehicleData.stationID = some stored)
    (pointer : stored.phData = some address)
    (live : map.heap.objects address = some object) :
    map.insertCall haversineDist newVehicleData = some { map with
      heap := map.heap.write address (object.insert haversineDist newVehicleData).1 } := by
  simp only [insertCall, found, Option.getD_some, pointer, live]

theorem insertCall_of_absent (haversineDist : ℚ → ℚ → ℚ → ℚ → ℚ) {map : LDMMap}
    {newVehicleData : VehicleData} (absent : map.entry newVehicleData.stationID = none) :
    map.insertCall haversineDist newVehicleData = none := by
  rw [insertCall, absent]
  rfl

theorem insertCall_ldmmap {haversineDist : ℚ → ℚ → ℚ → ℚ → ℚ} {map called : LDMMap}
    {newVehicleData : VehicleData}
    (inserted : map.insertCall haversineDist newVehicleData = some called) :
    called.ldmmap = map.ldmmap := by
  unfold insertCall at inserted
  split at inserted
  · cases inserted
  · split at inserted
    · cases inserted
    · cases inserted
      rfl

theorem insert_find_cases {haversineDist : ℚ → ℚ → ℚ → ℚ → ℚ} {map next : LDMMap}
    {newVehicleData : VehicleData} {retval : LDMMapError}
    (inserted : map.insert haversineDist newVehicleData = some (next, retval))
    {upper lower : UInt32} {stored : ReturnedVehicleData}
    (found : next.ldmmap.find upper lower = some stored) :
    map.ldmmap.find upper lower = some stored ∨ stored.vehData = newVehicleData := by
  by_cases full : map.card = uint64Max
  · simp only [LDMMap.insert, insertChecks, if_pos full] at inserted
    cases inserted
    exact .inl found
  · rcases insertChecks_spec newVehicleData full with ⟨decision, prepared, checks⟩
    simp only [LDMMap.insert, checks, insertWrite_of_card] at inserted
    split at inserted
    · cases inserted
    · next called =>
        cases inserted
        rw [insertCall_ldmmap called] at found
        dsimp only at found
        rw [insertWrite_find prepared.ready] at found
        split at found
        · cases found
          exact .inr (writtenEntry_vehData _ _ _)
        · exact .inl found

/-! ## Removal -/

/-- A removal that finds its station erases the entry exactly when the stationID
equals its own lower key; the counter is decremented in any case. -/
theorem remove_of_absent {map : LDMMap} {stationID : UInt64}
    (absent : map.entry stationID = none) :
    map.remove stationID = (map, .ldmmapItemNotFound) := by
  cases found : map.ldmmap.lookup (keyUpper stationID) with
  | none => simp only [remove, found]
  | some lowerMap =>
      rw [entry_of_lookup found] at absent
      simp only [remove, found]
      exact if_neg (AList.lookup_eq_none.mp absent)

theorem remove_of_present {map : LDMMap} {stationID : UInt64}
    (present : (map.entry stationID).isSome) :
    map.remove stationID = ({ map with
      ldmmap := map.ldmmap.modifyLower (keyUpper stationID)
        fun lowerMap => lowerMap.erase stationID.toUInt32
      card := map.card - 1 }, .ldmmapOk) := by
  rcases lookup_of_entry_isSome present with ⟨lowerMap, found, member⟩
  simp only [remove, found, if_pos member, NestedMap.modifyLower_of_lookup found]

theorem remove_find_of_present {map : LDMMap} {stationID : UInt64}
    (present : (map.entry stationID).isSome) (upper lower : UInt32) :
    (map.remove stationID).1.ldmmap.find upper lower =
      if upper = keyUpper stationID ∧ lower = stationID.toUInt32 then none
      else map.ldmmap.find upper lower := by
  rw [remove_of_present present]
  exact NestedMap.find_modifyLower_erase _ _ _ upper lower

theorem remove_fewer {map : LDMMap} {stationID : UInt64} {upper lower : UInt32}
    {stored : ReturnedVehicleData}
    (found : (map.remove stationID).1.ldmmap.find upper lower = some stored) :
    map.ldmmap.find upper lower = some stored := by
  cases present : map.entry stationID with
  | none =>
      rw [remove_of_absent present] at found
      exact found
  | some =>
      rw [remove_find_of_present (Option.isSome_of_eq_some present)] at found
      split at found
      · cases found
      · exact found

/-! ## Lookup -/

theorem lookup_eq (map : LDMMap) (stationID : UInt64) :
    map.lookup stationID =
      match map.entry stationID with
      | none => (.ldmmapItemNotFound, none)
      | some found => (.ldmmapOk, some found) := by
  unfold lookup
  cases foundUpper : map.ldmmap.lookup (keyUpper stationID) with
  | none => rw [entry_of_lookup_none foundUpper]
  | some lowerMap =>
      have found := entry_of_lookup foundUpper
      cases foundLower : lowerMap.lookup (keyLower stationID) <;>
        simp only [found, foundLower]

/-! ## Sweeps -/

private theorem foldl_sweepEntry (now : UInt64) (timeMilliseconds : ℚ)
    (entries : List (Σ _ : UInt32, ReturnedVehicleData)) (state : SweepState) :
    entries.foldl (sweepEntry now timeMilliseconds) state = {
      lowerMap := entries.foldl (fun current entry =>
        if olderThan now timeMilliseconds entry.2 then current.erase entry.1
        else current) state.lowerMap
      card := state.card -
        .ofNat (entries.filter fun entry => olderThan now timeMilliseconds entry.2).length
      called := state.called ++
        (entries.filter fun entry => olderThan now timeMilliseconds entry.2).map
          fun entry => entry.2.vehData.stationID } := by
  induction entries generalizing state with
  | nil => simp
  | cons entry rest induction =>
      rw [List.foldl_cons, induction, sweepEntry]
      cases old : olderThan now timeMilliseconds entry.2 with
      | false => simp [old]
      | true =>
          have counter (count : Nat) :
              state.card - 1 - .ofNat count = state.card - .ofNat (count + 1) := by
            rw [UInt64.ofNat_add]
            grind
          simp [old, counter]

section

variable (now : UInt64) (timeMilliseconds : ℚ)

def sweptEntries (map : LDMMap) (upper : UInt32) :
    List (Σ _ : UInt32, ReturnedVehicleData) :=
  match map.ldmmap.lookup upper with
  | none => []
  | some lowerMap => Assoc.erased (olderThan now timeMilliseconds) lowerMap

theorem mem_sweptEntries (map : LDMMap) (upper lower : UInt32)
    (stored : ReturnedVehicleData) :
    ⟨lower, stored⟩ ∈ sweptEntries now timeMilliseconds map upper ↔
      map.ldmmap.find upper lower = some stored ∧
        olderThan now timeMilliseconds stored = true := by
  unfold sweptEntries
  cases found : map.ldmmap.lookup upper with
  | none => simp [NestedMap.find, found]
  | some lowerMap =>
      rw [NestedMap.find_of_lookup found, ← Option.mem_def, AList.mem_lookup_iff]
      exact List.mem_filter

theorem nodupKeys_sweptEntries (map : LDMMap) (upper : UInt32) :
    (sweptEntries now timeMilliseconds map upper).NodupKeys := by
  unfold sweptEntries
  cases map.ldmmap.lookup upper with
  | none => exact List.nodupKeys_nil
  | some lowerMap => exact lowerMap.nodupKeys.sublist List.filter_sublist

theorem sweepLower_eq (state : LDMMap × List UInt64) (upper : UInt32) :
    sweepLower now timeMilliseconds state upper = ({ state.1 with
      ldmmap := state.1.ldmmap.modifyLower upper
        (Assoc.eraseWhere (olderThan now timeMilliseconds))
      card := state.1.card -
        .ofNat (sweptEntries now timeMilliseconds state.1 upper).length },
      state.2 ++ (sweptEntries now timeMilliseconds state.1 upper).map
        fun entry => entry.2.vehData.stationID) := by
  unfold sweepLower sweptEntries
  cases found : state.1.ldmmap.lookup upper with
  | none => simp [NestedMap.modifyLower, found]
  | some lowerMap =>
      simp only [foldl_sweepEntry, Assoc.foldl_erase_eq_eraseWhere, Assoc.erased,
        NestedMap.modifyLower_of_lookup found]

theorem sweepLower_find (state : LDMMap × List UInt64) (upper otherUpper lower : UInt32) :
    (sweepLower now timeMilliseconds state upper).1.ldmmap.find otherUpper lower =
      if otherUpper = upper then
        (state.1.ldmmap.find otherUpper lower).filter
          fun stored => !olderThan now timeMilliseconds stored
      else state.1.ldmmap.find otherUpper lower := by
  rw [sweepLower_eq]
  exact NestedMap.find_modifyLower_eraseWhere _ upper _ otherUpper lower

theorem sweepLower_find_eq_some_iff (state : LDMMap × List UInt64)
    (upper otherUpper lower : UInt32) (stored : ReturnedVehicleData) :
    (sweepLower now timeMilliseconds state upper).1.ldmmap.find otherUpper lower =
        some stored ↔
      state.1.ldmmap.find otherUpper lower = some stored ∧
        (otherUpper = upper → olderThan now timeMilliseconds stored = false) := by
  rw [sweepLower_find]
  split
  · next same => simp [Option.filter_eq_some_iff, same]
  · next different => simp [different]

theorem sweepLower_find_eq_none_iff (state : LDMMap × List UInt64)
    (upper otherUpper lower : UInt32) {stored : ReturnedVehicleData}
    (found : state.1.ldmmap.find otherUpper lower = some stored) :
    (sweepLower now timeMilliseconds state upper).1.ldmmap.find otherUpper lower = none ↔
      otherUpper = upper ∧ olderThan now timeMilliseconds stored = true := by
  rw [sweepLower_find, found]
  split
  · next same => simp [Option.filter_eq_none_iff, same]
  · next different => simp [different]

theorem sweepLower_lookup (state : LDMMap × List UInt64) (upper other : UInt32) :
    (sweepLower now timeMilliseconds state upper).1.ldmmap.lookup other =
      if other = upper then
        (state.1.ldmmap.lookup upper).map (Assoc.eraseWhere (olderThan now timeMilliseconds))
      else state.1.ldmmap.lookup other := by
  rw [sweepLower_eq]
  exact NestedMap.lookup_modifyLower _ _ _ _

theorem Ready.sweepLower {map : LDMMap} {newVehicleData : VehicleData}
    {decision : InsertDecision} (ready : map.Ready newVehicleData decision)
    (called : List UInt64) (upper : UInt32) :
    (LDMMap.sweepLower now timeMilliseconds (map, called) upper).1.Ready newVehicleData
      decision := by
  have same : ((LDMMap.sweepLower now timeMilliseconds (map, called) upper).1.ldmmap.lookup
      (keyUpper newVehicleData.stationID)).isSome =
        (map.ldmmap.lookup (keyUpper newVehicleData.stationID)).isSome := by
    rw [sweepLower_lookup]
    split
    · next equal => rw [equal, Option.isSome_map]
    · rfl
  cases decision with
  | newUpper =>
      rw [Ready, ← Option.not_isSome_iff_eq_none] at ready ⊢
      rwa [same]
  | newLower | update => exact same.trans ready

theorem sweepLower_heap (state : LDMMap × List UInt64) (upper : UInt32) :
    (sweepLower now timeMilliseconds state upper).1.heap = state.1.heap := by
  rw [sweepLower_eq]

theorem sweepLower_ldmmap_card (state : LDMMap × List UInt64) (upper : UInt32) :
    (sweepLower now timeMilliseconds state upper).1.ldmmap.card +
      (sweptEntries now timeMilliseconds state.1 upper).length = state.1.ldmmap.card := by
  rw [sweepLower_eq]
  unfold sweptEntries
  cases found : state.1.ldmmap.lookup upper with
  | none => simp [NestedMap.modifyLower, found]
  | some lowerMap => exact NestedMap.card_modifyLower_eraseWhere found _

theorem sweepLower_card (state : LDMMap × List UInt64) (upper : UInt32)
    (enough : state.1.ldmmap.card ≤ state.1.card.toNat) :
    (sweepLower now timeMilliseconds state upper).1.card.toNat +
      (sweptEntries now timeMilliseconds state.1 upper).length = state.1.card.toNat := by
  have total := sweepLower_ldmmap_card now timeMilliseconds state upper
  rw [sweepLower_eq]
  have bound := state.1.card.toNat_lt
  have small : (UInt64.ofNat (sweptEntries now timeMilliseconds state.1 upper).length).toNat =
      (sweptEntries now timeMilliseconds state.1 upper).length := by
    rw [UInt64.toNat_ofNat']
    omega
  change (state.1.card - _).toNat + _ = _
  rw [UInt64.toNat_sub_of_le, small]
  · omega
  · rw [UInt64.le_iff_toNat_le, small]
    omega

theorem sweepLower_called (state : LDMMap × List UInt64) (upper : UInt32)
    (stationID : UInt64) :
    stationID ∈ (sweepLower now timeMilliseconds state upper).2 ↔
      stationID ∈ state.2 ∨ ∃ lower stored,
        state.1.ldmmap.find upper lower = some stored ∧
        olderThan now timeMilliseconds stored = true ∧
        stored.vehData.stationID = stationID := by
  rw [sweepLower_eq, List.mem_append, List.mem_map]
  apply or_congr_right
  constructor
  · rintro ⟨⟨lower, stored⟩, member, equal⟩
    rcases (mem_sweptEntries now timeMilliseconds _ _ _ _).mp member with ⟨found, old⟩
    exact ⟨lower, stored, found, old, equal⟩
  · rintro ⟨lower, stored, found, old, equal⟩
    exact ⟨⟨lower, stored⟩,
      (mem_sweptEntries now timeMilliseconds _ _ _ _).mpr ⟨found, old⟩, equal⟩

/-! A whole sweep, over any list of upper keys. -/

theorem sweep_find (uppers : List UInt32) (state : LDMMap × List UInt64)
    (upper lower : UInt32) :
    (uppers.foldl (sweepLower now timeMilliseconds) state).1.ldmmap.find upper lower =
      if upper ∈ uppers then
        (state.1.ldmmap.find upper lower).filter
          fun stored => !olderThan now timeMilliseconds stored
      else state.1.ldmmap.find upper lower := by
  induction uppers generalizing state with
  | nil => simp
  | cons first rest induction =>
      rw [List.foldl_cons, induction, sweepLower_find]
      by_cases same : upper = first
      · by_cases again : upper ∈ rest <;> simp [same, Option.filter_filter]
      · simp [same]

theorem sweep_heap (uppers : List UInt32) (state : LDMMap × List UInt64) :
    (uppers.foldl (sweepLower now timeMilliseconds) state).1.heap = state.1.heap := by
  induction uppers generalizing state with
  | nil => rfl
  | cons first rest induction => rw [List.foldl_cons, induction, sweepLower_heap]

theorem sweep_called (uppers : List UInt32) (state : LDMMap × List UInt64)
    (stationID : UInt64) :
    stationID ∈ (uppers.foldl (sweepLower now timeMilliseconds) state).2 ↔
      stationID ∈ state.2 ∨ ∃ upper ∈ uppers, ∃ lower stored,
        state.1.ldmmap.find upper lower = some stored ∧
        olderThan now timeMilliseconds stored = true ∧
        stored.vehData.stationID = stationID := by
  induction uppers generalizing state with
  | nil => simp
  | cons first rest induction =>
      rw [List.foldl_cons, induction, sweepLower_called]
      simp only [sweepLower_find]
      constructor
      · rintro ((called | ⟨lower, stored, entry⟩) | ⟨upper, member, lower, stored, entry⟩)
        · exact .inl called
        · exact .inr ⟨first, List.mem_cons_self, lower, stored, entry⟩
        · refine .inr ⟨upper, List.mem_cons_of_mem first member, lower, stored, ?_⟩
          split at entry
          · exact ⟨(Option.filter_eq_some_iff.mp entry.1).1, entry.2⟩
          · exact entry
      · rintro (called | ⟨upper, member, lower, stored, entry⟩)
        · exact .inl (.inl called)
        · by_cases same : upper = first
          · subst same
            exact .inl (.inr ⟨lower, stored, entry⟩)
          · refine .inr ⟨upper, (List.mem_cons.mp member).resolve_left same, lower,
              stored, ?_⟩
            rw [if_neg same]
            exact entry

theorem deleteOlderThanAndExecute_find (map : LDMMap) (upper lower : UInt32) :
    (map.deleteOlderThanAndExecute now timeMilliseconds).1.ldmmap.find upper lower =
      (map.ldmmap.find upper lower).filter
        fun stored => !olderThan now timeMilliseconds stored := by
  rw [deleteOlderThanAndExecute, sweep_find]
  split
  · rfl
  · next absent =>
      have missing : map.ldmmap.find upper lower = none := by
        rw [NestedMap.find, AList.lookup_eq_none.mpr absent, Option.bind_none]
      rw [missing, Option.filter_none]

theorem deleteOlderThanAndExecute_fewer (map : LDMMap) {upper lower : UInt32}
    {stored : ReturnedVehicleData}
    (found : (map.deleteOlderThanAndExecute now timeMilliseconds).1.ldmmap.find upper lower =
      some stored) : map.ldmmap.find upper lower = some stored := by
  rw [deleteOlderThanAndExecute_find] at found
  exact (Option.filter_eq_some_iff.mp found).1

theorem deleteOlderThanAndExecute_heap (map : LDMMap) :
    (map.deleteOlderThanAndExecute now timeMilliseconds).1.heap = map.heap :=
  sweep_heap now timeMilliseconds _ (map, [])

theorem deleteOlderThanAndExecute_called (map : LDMMap) (stationID : UInt64) :
    stationID ∈ (map.deleteOlderThanAndExecute now timeMilliseconds).2 ↔
      ∃ upper lower stored, map.ldmmap.find upper lower = some stored ∧
        olderThan now timeMilliseconds stored = true ∧
        stored.vehData.stationID = stationID := by
  rw [deleteOlderThanAndExecute, sweep_called]
  constructor
  · rintro (called | ⟨upper, _, entry⟩)
    · exact absurd called List.not_mem_nil
    · exact ⟨upper, entry⟩
  · rintro ⟨upper, lower, stored, found, entry⟩
    exact .inr ⟨upper, NestedMap.mem_keys_of_find found, lower, stored, found, entry⟩

/-! Deletion without a callback. -/

def SweepState.withoutCalls (state : SweepState) : DeletionState := ⟨state.lowerMap, state.card⟩

theorem deleteEntry_withoutCalls (state : SweepState)
    (current : Σ _ : UInt32, ReturnedVehicleData) :
    deleteEntry now timeMilliseconds state.withoutCalls current =
      (sweepEntry now timeMilliseconds state current).withoutCalls := by
  unfold deleteEntry sweepEntry
  split <;> rfl

theorem deleteLower_fst (state : LDMMap × List UInt64) (upper : UInt32) :
    deleteLower now timeMilliseconds state.1 upper =
      (sweepLower now timeMilliseconds state upper).1 := by
  unfold deleteLower sweepLower
  cases state.1.ldmmap.lookup upper with
  | none => rfl
  | some lowerMap =>
      have loop := @List.foldl_hom _ _ _ SweepState.withoutCalls _ _ lowerMap.entries
        ⟨lowerMap, state.1.card, state.2⟩ (deleteEntry_withoutCalls now timeMilliseconds)
      rw [SweepState.withoutCalls] at loop
      simp only [loop]
      rfl

theorem deleteOlderThan_eq (map : LDMMap) :
    map.deleteOlderThan now timeMilliseconds =
      (map.deleteOlderThanAndExecute now timeMilliseconds).1 := by
  rw [deleteOlderThan, deleteOlderThanAndExecute,
    ← List.foldl_hom Prod.fst (deleteLower_fst now timeMilliseconds)]

end

end LDMMap

end AIM.Database
