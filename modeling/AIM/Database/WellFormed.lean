import AIM.Database.LDMMapSteps

namespace AIM.Database

/-! # Well-formed databases

The invariant of the operations: entries are stored under the split key of their
stationID, every entry has a path history of its own, and the counter is exact. -/

namespace LDMMap

structure WellFormed (map : LDMMap) : Prop where
  keyed : ∀ {upper lower stored}, map.ldmmap.find upper lower = some stored →
    InRange stored.vehData.stationID ∧ keyUpper stored.vehData.stationID = upper ∧
      keyLower stored.vehData.stationID = lower
  allocated : ∀ {upper lower stored}, map.ldmmap.find upper lower = some stored →
    ∃ address object, stored.phData = some address ∧ address < map.heap.nextAddress ∧
      map.heap.objects address = some object
  separate : ∀ {upper lower stored otherUpper otherLower otherStored},
    map.ldmmap.find upper lower = some stored →
    map.ldmmap.find otherUpper otherLower = some otherStored →
    stored.phData = otherStored.phData → upper = otherUpper ∧ lower = otherLower
  counted : map.card.toNat = map.ldmmap.card

/-- Every entry has a live path history of its own. -/
structure Linked (map : LDMMap) : Prop where
  allocated : ∀ {upper lower stored}, map.ldmmap.find upper lower = some stored →
    ∃ address object, stored.phData = some address ∧ address < map.heap.nextAddress ∧
      map.heap.objects address = some object
  separate : ∀ {upper lower stored otherUpper otherLower otherStored},
    map.ldmmap.find upper lower = some stored →
    map.ldmmap.find otherUpper otherLower = some otherStored →
    stored.phData = otherStored.phData → upper = otherUpper ∧ lower = otherLower

/-- Entries are stored under the split key of their stationID. -/
structure Keyed (map : LDMMap) : Prop where
  keyed : ∀ {upper lower stored}, map.ldmmap.find upper lower = some stored →
    InRange stored.vehData.stationID ∧ keyUpper stored.vehData.stationID = upper ∧
      keyLower stored.vehData.stationID = lower

theorem WellFormed.linked {map : LDMMap} (wellFormed : map.WellFormed) : map.Linked :=
  ⟨wellFormed.allocated, wellFormed.separate⟩

theorem WellFormed.isKeyed {map : LDMMap} (wellFormed : map.WellFormed) : map.Keyed :=
  ⟨wellFormed.keyed⟩

theorem Linked.wellFormed {map : LDMMap} (linked : map.Linked) (keyed : map.Keyed)
    (counted : map.card.toNat = map.ldmmap.card) : map.WellFormed :=
  ⟨keyed.keyed, linked.allocated, linked.separate, counted⟩

theorem wellFormed_empty (heap : PHpointsHeap) : WellFormed ⟨∅, 0, heap⟩ where
  keyed found := nomatch found
  allocated found := nomatch found
  separate found := nomatch found
  counted := rfl

theorem ldmmap_card_le {map : NestedMap UInt32 UInt32 ReturnedVehicleData}
    (uppers : ∀ upper lower stored, map.find upper lower = some stored →
      upper.toNat < 65536) : map.card ≤ 2 ^ 48 := by
  apply map.card_le_of_rank fun keys => keys.1.toNat * 2 ^ 32 + keys.2.toNat
  · intro left right equal
    have leftBound := left.2.toNat_lt
    have rightBound := right.2.toNat_lt
    have uppersEqual : left.1.toNat = right.1.toNat := by
      dsimp only at equal
      omega
    have lowersEqual : left.2.toNat = right.2.toNat := by
      dsimp only at equal
      omega
    exact Prod.ext (UInt32.toNat_inj.mp uppersEqual) (UInt32.toNat_inj.mp lowersEqual)
  · intro upper lower stored found
    have small := uppers upper lower stored found
    have bound := lower.toNat_lt
    dsimp only
    omega

theorem card_ne_uint64Max {map : LDMMap} (few : map.card.toNat ≤ 2 ^ 48) :
    map.card ≠ uint64Max := by
  intro full
  rw [full] at few
  exact absurd few (by decide)

theorem Keyed.entry_stationID {map : LDMMap} (isKeyed : map.Keyed) {stationID : UInt64}
    (inRange : InRange stationID) {stored : ReturnedVehicleData}
    (found : map.entry stationID = some stored) : stored.vehData.stationID = stationID := by
  rcases isKeyed.keyed found with ⟨storedRange, upper, lower⟩
  exact stationID_eq_of_keys storedRange inRange upper lower

namespace WellFormed

variable {map : LDMMap}

theorem card_le (wellFormed : map.WellFormed) : map.ldmmap.card ≤ 2 ^ 48 := by
  apply ldmmap_card_le
  intro upper lower stored found
  rcases wellFormed.keyed found with ⟨_, rfl, _⟩
  rw [keyUpper_toNat]
  omega

theorem not_full (wellFormed : map.WellFormed) : map.card ≠ uint64Max := by
  apply card_ne_uint64Max
  rw [wellFormed.counted]
  exact wellFormed.card_le

theorem entry_stationID (wellFormed : map.WellFormed) {stationID : UInt64}
    (inRange : InRange stationID) {stored : ReturnedVehicleData}
    (found : map.entry stationID = some stored) : stored.vehData.stationID = stationID :=
  wellFormed.isKeyed.entry_stationID inRange found

/-! ## Insertion -/

/-- Vehicle data and a path history have been stored at an address, and nothing
else has changed. -/
structure StoredAt (map next : LDMMap) (newVehicleData : VehicleData) (address : Nat)
    (history : PHpoints) : Prop where
  find : ∀ upper lower, next.ldmmap.find upper lower =
    if upper = keyUpper newVehicleData.stationID ∧
        lower = keyLower newVehicleData.stationID then
      some ⟨newVehicleData, some address⟩
    else map.ldmmap.find upper lower
  history : next.heap.objects address = some history
  others : ∀ other < map.heap.nextAddress, other ≠ address →
    next.heap.objects other = map.heap.objects other
  nextAddress_le : map.heap.nextAddress ≤ next.heap.nextAddress
  address_lt : address < next.heap.nextAddress

section

variable {next : LDMMap} {newVehicleData : VehicleData} {address : Nat}
  {history : PHpoints}

theorem StoredAt.entry_self (storing : StoredAt map next newVehicleData address history) :
    next.entry newVehicleData.stationID = some ⟨newVehicleData, some address⟩ := by
  rw [entry, storing.find, if_pos ⟨rfl, rfl⟩]

theorem StoredAt.entry_of_ne (storing : StoredAt map next newVehicleData address history)
    {other : UInt64} (inRange : InRange newVehicleData.stationID)
    (otherRange : InRange other) (different : other ≠ newVehicleData.stationID) :
    next.entry other = map.entry other := by
  rw [entry, storing.find, if_neg (keys_ne inRange otherRange different)]
  rfl

end

section

variable (haversineDist : ℚ → ℚ → ℚ → ℚ → ℚ)

theorem insert_of_written {newVehicleData : VehicleData} {decision : InsertDecision}
    {address : Nat} {object : PHpoints}
    (checks : map.insertChecks newVehicleData =
      some ({ map with card := map.card + .ofNat decision.countedEarly }, decision))
    (prepared : map.Prepared newVehicleData decision)
    (written : map.writtenEntry newVehicleData decision = ⟨newVehicleData, some address⟩)
    (below : address < (map.insertWrite newVehicleData decision).heap.nextAddress)
    (live : (map.insertWrite newVehicleData decision).heap.objects address = some object) :
    ∃ next, map.insert haversineDist newVehicleData = some (next, decision.retval) ∧
      next.card = map.card + .ofNat decision.added ∧
      next.ldmmap.card = map.ldmmap.card + decision.added ∧
      StoredAt map next newVehicleData address
        (object.insert haversineDist newVehicleData).1 := by
  have counted : map.card + .ofNat decision.countedEarly +
      .ofNat (decision.added - decision.countedEarly) = map.card + .ofNat decision.added := by
    cases decision <;> simp [InsertDecision.added, InsertDecision.countedEarly]
  have found := insertWrite_entry prepared.ready
  rw [written] at found
  have called := insertCall_of_entry haversineDist
    { map.insertWrite newVehicleData decision with
      card := map.card + .ofNat decision.added } found rfl live
  refine ⟨{
      ldmmap := (map.insertWrite newVehicleData decision).ldmmap
      card := map.card + .ofNat decision.added
      heap := (map.insertWrite newVehicleData decision).heap.write address
        (object.insert haversineDist newVehicleData).1 },
    ?_, rfl, insertWrite_ldmmap_card prepared, ?_⟩
  · simp only [insert, checks, insertWrite_of_card, counted, called]
  · constructor
    · intro upper lower
      rw [← written]
      exact insertWrite_find prepared.ready upper lower
    · exact Function.update_self _ _ _
    · intro other otherBelow different
      have unchanged : (map.insertWrite newVehicleData decision).heap.objects other =
          map.heap.objects other := by
        rw [insertWrite_heap]
        split
        · rfl
        · exact Function.update_of_ne (Nat.ne_of_lt otherBelow) _ _
      rw [← unchanged]
      exact Function.update_of_ne different _ _
    · change map.heap.nextAddress ≤ (map.insertWrite newVehicleData decision).heap.nextAddress
      rw [insertWrite_heap]
      split
      · exact Nat.le_refl _
      · exact Nat.le_succ _
    · exact below

end

end WellFormed

namespace Linked

variable {map : LDMMap} (haversineDist : ℚ → ℚ → ℚ → ℚ → ℚ)

theorem insert_cases (linked : map.Linked) (newVehicleData : VehicleData) :
    (map.card = uint64Max ∧
      map.insert haversineDist newVehicleData = some (map, .ldmmapMapFull)) ∨
    (∃ stored address object next,
      map.entry newVehicleData.stationID = some stored ∧
      stored.phData = some address ∧ map.heap.objects address = some object ∧
      map.insert haversineDist newVehicleData = some (next, .ldmmapUpdated) ∧
      next.card = map.card ∧ next.ldmmap.card = map.ldmmap.card ∧
      WellFormed.StoredAt map next newVehicleData address
        (object.insert haversineDist newVehicleData).1) ∨
    (∃ next, map.entry newVehicleData.stationID = none ∧
      map.insert haversineDist newVehicleData = some (next, .ldmmapOk) ∧
      next.card = map.card + 1 ∧ next.ldmmap.card = map.ldmmap.card + 1 ∧
      WellFormed.StoredAt map next newVehicleData map.heap.nextAddress
        ((PHpoints.new (map.heap.memory map.heap.nextAddress)).insert haversineDist
          newVehicleData).1) := by
  by_cases full : map.card = uint64Max
  · refine .inl ⟨full, ?_⟩
    simp only [LDMMap.insert, insertChecks, if_pos full]
  rcases insertChecks_spec newVehicleData full with ⟨decision, prepared, checks⟩
  cases decision with
  | update =>
      rcases Option.isSome_iff_exists.mp prepared with ⟨stored, found⟩
      rcases linked.allocated found with ⟨address, object, pointer, below, live⟩
      have written : map.writtenEntry newVehicleData .update =
          ⟨newVehicleData, some address⟩ := by
        rw [writtenEntry, found, Option.getD_some, pointer]
      rcases WellFormed.insert_of_written haversineDist checks prepared written below live
        with ⟨next, inserted, card, size, storedAt⟩
      exact .inr (.inl ⟨stored, address, object, next, found, pointer, live, inserted,
        card.trans (UInt64.add_zero _), size, storedAt⟩)
  | newUpper =>
      rcases WellFormed.insert_of_written haversineDist checks prepared rfl
        (Nat.lt_succ_self _) (Function.update_self _ _ _) with
        ⟨next, inserted, card, size, storedAt⟩
      exact .inr (.inr ⟨next, prepared.entry_eq_none (by decide), inserted, card, size,
        storedAt⟩)
  | newLower =>
      rcases WellFormed.insert_of_written haversineDist checks prepared rfl
        (Nat.lt_succ_self _) (Function.update_self _ _ _) with
        ⟨next, inserted, card, size, storedAt⟩
      exact .inr (.inr ⟨next, prepared.entry_eq_none (by decide), inserted, card, size,
        storedAt⟩)

theorem insert_isSome (linked : map.Linked) (newVehicleData : VehicleData) :
    ∃ next retval, map.insert haversineDist newVehicleData = some (next, retval) := by
  rcases linked.insert_cases haversineDist newVehicleData with ⟨_, inserted⟩ |
    ⟨_, _, _, next, _, _, _, inserted, _⟩ | ⟨next, _, inserted, _⟩
  · exact ⟨_, _, inserted⟩
  · exact ⟨_, _, inserted⟩
  · exact ⟨_, _, inserted⟩

theorem storedAt (linked : map.Linked) {next : LDMMap} {newVehicleData : VehicleData}
    {address : Nat} {history : PHpoints}
    (storedAt : WellFormed.StoredAt map next newVehicleData address history)
    (unshared : ∀ {upper lower stored}, map.ldmmap.find upper lower = some stored →
      stored.phData = some address →
        upper = keyUpper newVehicleData.stationID ∧
        lower = keyLower newVehicleData.stationID) : next.Linked where
  allocated := by
    intro upper lower stored found
    rw [storedAt.find] at found
    split at found
    · cases found
      exact ⟨address, history, rfl, storedAt.address_lt, storedAt.history⟩
    · next different =>
        rcases linked.allocated found with ⟨other, object, pointer, below, live⟩
        refine ⟨other, object, pointer, below.trans_le storedAt.nextAddress_le, ?_⟩
        rw [storedAt.others other below fun same => different (unshared found ?_)]
        · exact live
        · rw [pointer, same]
  separate := by
    intro upper lower stored otherUpper otherLower otherStored found otherFound equal
    rw [storedAt.find] at found otherFound
    split at found <;> split at otherFound
    · next same otherSame => exact ⟨same.1.trans otherSame.1.symm, same.2.trans otherSame.2.symm⟩
    · next different =>
        cases found
        exact absurd (unshared otherFound equal.symm) different
    · next different _ =>
        cases otherFound
        exact absurd (unshared found equal) different
    · exact linked.separate found otherFound equal

theorem insert (linked : map.Linked) {newVehicleData : VehicleData} {next : LDMMap}
    {retval : LDMMapError}
    (inserted : map.insert haversineDist newVehicleData = some (next, retval)) :
    next.Linked := by
  rcases linked.insert_cases haversineDist newVehicleData with ⟨_, equal⟩ |
    ⟨stored, address, object, result, found, pointer, _, equal, _, _, storing⟩ |
    ⟨result, _, equal, _, _, storing⟩
  · cases equal.symm.trans inserted
    exact linked
  · cases equal.symm.trans inserted
    apply linked.storedAt storing
    intro upper lower other otherFound same
    exact linked.separate otherFound found (same.trans pointer.symm)
  · cases equal.symm.trans inserted
    apply linked.storedAt storing
    intro upper lower other otherFound same
    rcases linked.allocated otherFound with ⟨address, _, otherPointer, below, _⟩
    cases same.symm.trans otherPointer
    exact absurd below (Nat.lt_irrefl _)

theorem of_fewer (linked : map.Linked) {next : LDMMap} (heap : next.heap = map.heap)
    (fewer : ∀ {upper lower stored}, next.ldmmap.find upper lower = some stored →
      map.ldmmap.find upper lower = some stored) : next.Linked where
  allocated found := by
    rw [heap]
    exact linked.allocated (fewer found)
  separate found otherFound := linked.separate (fewer found) (fewer otherFound)

theorem nodup_phData (linked : map.Linked) :
    ((NestedMap.toList map.ldmmap).map fun item => item.2.phData).Nodup := by
  have keys := NestedMap.nodup_toList_keys map.ldmmap
  rw [List.nodup_map_iff_inj_on keys.of_map]
  rintro ⟨⟨upper, lower⟩, stored⟩ member ⟨⟨otherUpper, otherLower⟩, other⟩ otherMember equal
  have found := (NestedMap.mem_toList_iff _ _ _ _).mp member
  have otherFound := (NestedMap.mem_toList_iff _ _ _ _).mp otherMember
  rcases linked.separate found otherFound equal with ⟨rfl, rfl⟩
  cases found.symm.trans otherFound
  rfl

private theorem clearEntries_spec (entries : List ReturnedVehicleData)
    (heap : PHpointsHeap) (separate : (entries.map (·.phData)).Nodup)
    (live : ∀ stored ∈ entries, ∃ address object, stored.phData = some address ∧
      heap.objects address = some object) :
    ∃ cleared, entries.foldlM clearEntry heap = some cleared ∧
      ∀ address object, cleared.objects address = some object →
        heap.objects address = some object ∧
          ∀ stored ∈ entries, stored.phData ≠ some address := by
  induction entries generalizing heap with
  | nil =>
      refine ⟨heap, rfl, ?_⟩
      intro address object kept
      refine ⟨kept, ?_⟩
      intro stored member
      cases member
  | cons stored rest induction =>
      rcases live stored List.mem_cons_self with ⟨address, object, pointer, found⟩
      rw [List.map_cons, List.nodup_cons] at separate
      have later : ∀ other ∈ rest, ∃ otherAddress object, other.phData = some otherAddress ∧
          (heap.delete address).objects otherAddress = some object := by
        intro other member
        rcases live other (List.mem_cons_of_mem stored member) with
          ⟨otherAddress, otherObject, otherPointer, otherFound⟩
        refine ⟨otherAddress, otherObject, otherPointer, ?_⟩
        have different : otherAddress ≠ address := by
          rintro rfl
          apply separate.1
          rw [pointer, ← otherPointer]
          exact List.mem_map_of_mem member
        rw [← otherFound]
        exact Function.update_of_ne different _ _
      rcases induction (heap.delete address) separate.2 later with ⟨cleared, equal, kept⟩
      refine ⟨cleared, ?_, ?_⟩
      · rw [List.foldlM_cons, clearEntry, pointer]
        simp only [found]
        exact equal
      · intro otherAddress otherObject otherFound
        rcases kept otherAddress otherObject otherFound with ⟨before, unused⟩
        have different : otherAddress ≠ address := by
          rintro rfl
          change Function.update heap.objects otherAddress none otherAddress = _ at before
          rw [Function.update_self] at before
          cases before
        refine ⟨(Function.update_of_ne different _ _).symm.trans before, ?_⟩
        intro other member same
        rcases List.mem_cons.mp member with rfl | inRest
        · exact different (Option.some.inj (same.symm.trans pointer))
        · exact unused other inRest same

theorem clear (linked : map.Linked) :
    ∃ heap, map.clear = some ⟨∅, 0, heap⟩ ∧
      ∀ address object, heap.objects address = some object →
        map.heap.objects address = some object ∧
          ∀ upper lower stored, map.ldmmap.find upper lower = some stored →
            stored.phData ≠ some address := by
  have live : ∀ stored ∈ (NestedMap.toList map.ldmmap).map Prod.snd,
      ∃ address object, stored.phData = some address ∧
        map.heap.objects address = some object := by
    intro stored member
    rcases List.mem_map.mp member with ⟨⟨⟨upper, lower⟩, value⟩, entry, rfl⟩
    rcases linked.allocated ((NestedMap.mem_toList_iff _ _ _ _).mp entry) with
      ⟨address, object, pointer, _, found⟩
    exact ⟨address, object, pointer, found⟩
  have separate : (((NestedMap.toList map.ldmmap).map Prod.snd).map
      (·.phData)).Nodup := by
    rw [List.map_map]
    exact linked.nodup_phData
  rcases clearEntries_spec _ map.heap separate live with ⟨heap, equal, kept⟩
  refine ⟨heap, by simp only [LDMMap.clear, equal], ?_⟩
  intro address object found
  rcases kept address object found with ⟨before, unused⟩
  refine ⟨before, fun upper lower stored entry => unused stored ?_⟩
  exact List.mem_map_of_mem ((NestedMap.mem_toList_iff _ _ _ _).mpr entry)

end Linked

namespace Keyed

variable {map : LDMMap}

theorem storedAt (isKeyed : map.Keyed) {next : LDMMap} {newVehicleData : VehicleData}
    {address : Nat} {history : PHpoints}
    (storedAt : WellFormed.StoredAt map next newVehicleData address history)
    (inRange : InRange newVehicleData.stationID) : next.Keyed where
  keyed := by
    intro upper lower stored found
    rw [storedAt.find] at found
    split at found
    · next same =>
        cases found
        exact ⟨inRange, same.1.symm, same.2.symm⟩
    · exact isKeyed.keyed found

theorem of_fewer (isKeyed : map.Keyed) {next : LDMMap}
    (fewer : ∀ {upper lower stored}, next.ldmmap.find upper lower = some stored →
      map.ldmmap.find upper lower = some stored) : next.Keyed where
  keyed found := isKeyed.keyed (fewer found)

end Keyed

namespace WellFormed

variable {map : LDMMap}

theorem insert_cases (wellFormed : map.WellFormed)
    (haversineDist : ℚ → ℚ → ℚ → ℚ → ℚ) (newVehicleData : VehicleData) :
    (∃ stored address object next,
      map.entry newVehicleData.stationID = some stored ∧
      stored.phData = some address ∧ map.heap.objects address = some object ∧
      map.insert haversineDist newVehicleData = some (next, .ldmmapUpdated) ∧
      next.card = map.card ∧ next.ldmmap.card = map.ldmmap.card ∧
      StoredAt map next newVehicleData address
        (object.insert haversineDist newVehicleData).1) ∨
    (∃ next, map.entry newVehicleData.stationID = none ∧
      map.insert haversineDist newVehicleData = some (next, .ldmmapOk) ∧
      next.card = map.card + 1 ∧ next.ldmmap.card = map.ldmmap.card + 1 ∧
      StoredAt map next newVehicleData map.heap.nextAddress
        ((PHpoints.new (map.heap.memory map.heap.nextAddress)).insert haversineDist
          newVehicleData).1) :=
  (wellFormed.linked.insert_cases haversineDist newVehicleData).resolve_left
    fun full => wellFormed.not_full full.1

theorem insert (wellFormed : map.WellFormed) (haversineDist : ℚ → ℚ → ℚ → ℚ → ℚ)
    {newVehicleData : VehicleData} (inRange : InRange newVehicleData.stationID)
    {next : LDMMap} {retval : LDMMapError}
    (inserted : map.insert haversineDist newVehicleData = some (next, retval)) :
    next.WellFormed := by
  have linked := wellFormed.linked.insert haversineDist inserted
  rcases wellFormed.insert_cases haversineDist newVehicleData with
    ⟨stored, address, object, result, found, pointer, _, equal, card, size, storing⟩ |
    ⟨result, _, equal, card, size, storing⟩
  · cases equal.symm.trans inserted
    apply linked.wellFormed (wellFormed.isKeyed.storedAt storing inRange)
    rw [card, size]
    exact wellFormed.counted
  · cases equal.symm.trans inserted
    apply linked.wellFormed (wellFormed.isKeyed.storedAt storing inRange)
    have few := wellFormed.card_le
    have counted := wellFormed.counted
    rw [card, size, UInt64.toNat_add, counted]
    change (map.ldmmap.card + 1) % 2 ^ 64 = _
    omega

theorem insert_entry (wellFormed : map.WellFormed) (haversineDist : ℚ → ℚ → ℚ → ℚ → ℚ)
    {newVehicleData : VehicleData} (inRange : InRange newVehicleData.stationID)
    {next : LDMMap} {retval : LDMMapError}
    (inserted : map.insert haversineDist newVehicleData = some (next, retval)) :
    retval ≠ .ldmmapMapFull ∧
    (∃ address, next.entry newVehicleData.stationID =
      some ⟨newVehicleData, some address⟩) ∧
    ∀ other, InRange other → other ≠ newVehicleData.stationID →
      next.entry other = map.entry other := by
  rcases wellFormed.insert_cases haversineDist newVehicleData with
    ⟨_, address, _, result, _, _, _, equal, _, _, storing⟩ |
    ⟨result, _, equal, _, _, storing⟩
  all_goals
    cases equal.symm.trans inserted
    exact ⟨nofun, ⟨_, storing.entry_self⟩, fun other otherRange different =>
      storing.entry_of_ne inRange otherRange different⟩

/-! ## Removal, sweeps and clearing -/

theorem of_fewer (wellFormed : map.WellFormed) {next : LDMMap}
    (heap : next.heap = map.heap)
    (fewer : ∀ {upper lower stored}, next.ldmmap.find upper lower = some stored →
      map.ldmmap.find upper lower = some stored)
    (counted : next.card.toNat = next.ldmmap.card) : next.WellFormed :=
  (wellFormed.linked.of_fewer heap fewer).wellFormed (wellFormed.isKeyed.of_fewer fewer)
    counted

theorem remove_find {stationID : UInt64}
    (removable : stationID.toNat < 65536 ∨ map.entry stationID = none)
    (upper lower : UInt32) :
    (map.remove stationID).1.ldmmap.find upper lower =
      if upper = keyUpper stationID ∧ lower = keyLower stationID then none
      else map.ldmmap.find upper lower := by
  cases present : map.entry stationID with
  | none =>
      rw [remove_of_absent present]
      split
      · next same =>
          rw [same.1, same.2]
          exact present
      · rfl
  | some stored =>
      have small : stationID.toNat < 65536 := by
        rcases removable with small | absent
        · exact small
        · rw [present] at absent
          cases absent
      rw [remove_find_of_present (Option.isSome_of_eq_some present),
        toUInt32_eq_keyLower small]

theorem remove_heap (map : LDMMap) (stationID : UInt64) :
    (map.remove stationID).1.heap = map.heap := by
  cases present : map.entry stationID with
  | none => rw [remove_of_absent present]
  | some stored => rw [remove_of_present (Option.isSome_of_eq_some present)]

theorem remove_ldmmap_card_of_large (wellFormed : map.WellFormed) {stationID : UInt64}
    (inRange : InRange stationID) (large : 65536 ≤ stationID.toNat) :
    (map.remove stationID).1.ldmmap.card = map.ldmmap.card := by
  cases present : map.entry stationID with
  | none => rw [remove_of_absent present]
  | some stored =>
      rw [remove_of_present (Option.isSome_of_eq_some present)]
      rcases lookup_of_entry_isSome (Option.isSome_of_eq_some present) with
        ⟨lowerMap, found, _⟩
      have absent : stationID.toUInt32 ∉ lowerMap := by
        intro member
        rcases Option.isSome_iff_exists.mp (AList.lookup_isSome.mpr member) with
          ⟨other, otherFound⟩
        rw [← NestedMap.find_of_lookup found] at otherFound
        exact keyLower_ne_toUInt32 inRange large (wellFormed.keyed otherFound).2.2
      have total := NestedMap.card_modifyLower found
        fun current => current.erase stationID.toUInt32
      rw [Assoc.erase_of_not_mem absent] at total
      exact Nat.add_right_cancel total

theorem remove_entry_of_large {stationID : UInt64}
    (inRange : InRange stationID) (large : 65536 ≤ stationID.toNat) :
    (map.remove stationID).1.entry stationID = map.entry stationID := by
  cases present : map.entry stationID with
  | none => rw [remove_of_absent present, present]
  | some stored =>
      rw [← present]
      refine (remove_find_of_present (Option.isSome_of_eq_some present) _ _).trans
        (if_neg ?_)
      exact fun same => keyLower_ne_toUInt32 inRange large same.2

theorem remove_card_of_present (wellFormed : map.WellFormed) {stationID : UInt64}
    (present : (map.entry stationID).isSome) :
    (map.remove stationID).1.card.toNat + 1 = map.ldmmap.card := by
  rcases lookup_of_entry_isSome present with ⟨lowerMap, found, member⟩
  have nonempty := NestedMap.card_modifyLower_erase_of_mem found member
  have counted := wellFormed.counted
  rw [remove_of_present present]
  change (map.card - 1).toNat + 1 = _
  rw [UInt64.toNat_sub_of_le]
  · change map.card.toNat - 1 + 1 = _
    omega
  · rw [UInt64.le_iff_toNat_le]
    change 1 ≤ map.card.toNat
    omega

theorem remove_counted_iff (wellFormed : map.WellFormed) {stationID : UInt64}
    (inRange : InRange stationID) :
    (map.remove stationID).1.card.toNat = (map.remove stationID).1.ldmmap.card ↔
      stationID.toNat < 65536 ∨ map.entry stationID = none := by
  cases present : map.entry stationID with
  | none =>
      rw [remove_of_absent present]
      exact iff_of_true wellFormed.counted (.inr rfl)
  | some stored =>
      have isPresent := Option.isSome_of_eq_some present
      have counter := wellFormed.remove_card_of_present isPresent
      rcases Nat.lt_or_ge stationID.toNat 65536 with small | large
      · refine iff_of_true ?_ (.inl small)
        rcases lookup_of_entry_isSome isPresent with ⟨lowerMap, found, member⟩
        have smaller := NestedMap.card_modifyLower_erase_of_mem found member
        have erased : (map.remove stationID).1.ldmmap.card + 1 = map.ldmmap.card := by
          rw [remove_of_present isPresent, toUInt32_eq_keyLower small]
          exact smaller
        omega
      · apply iff_of_false
        · have kept := wellFormed.remove_ldmmap_card_of_large inRange large
          omega
        · rintro (small | absent)
          · omega
          · cases absent

theorem remove (wellFormed : map.WellFormed) {stationID : UInt64}
    (inRange : InRange stationID)
    (removable : stationID.toNat < 65536 ∨ map.entry stationID = none) :
    (map.remove stationID).1.WellFormed := by
  apply wellFormed.of_fewer (remove_heap map stationID)
  · exact remove_fewer
  · exact (wellFormed.remove_counted_iff inRange).mpr removable

section

variable (now : UInt64) (timeMilliseconds : ℚ)

theorem sweepLower (wellFormed : map.WellFormed) (called : List UInt64)
    (upper : UInt32) :
    (LDMMap.sweepLower now timeMilliseconds (map, called) upper).1.WellFormed := by
  refine wellFormed.of_fewer (sweepLower_heap _ _ _ _) ?_ ?_
  · intro otherUpper lower stored found
    exact ((sweepLower_find_eq_some_iff _ _ _ _ _ _ _).mp found).1
  · have total := sweepLower_ldmmap_card now timeMilliseconds (map, called) upper
    have counter := sweepLower_card now timeMilliseconds (map, called) upper
      (Nat.le_of_eq wellFormed.counted.symm)
    have counted := wellFormed.counted
    dsimp only at total counter
    omega

theorem sweep (wellFormed : map.WellFormed) (called : List UInt64)
    (uppers : List UInt32) :
    (uppers.foldl (LDMMap.sweepLower now timeMilliseconds) (map, called)).1.WellFormed := by
  induction uppers generalizing map called with
  | nil => exact wellFormed
  | cons upper rest induction =>
      exact induction (wellFormed.sweepLower now timeMilliseconds called upper) _

theorem sweepLower_called_nodup (wellFormed : map.WellFormed) {called : List UInt64}
    (nodup : called.Nodup)
    (gone : ∀ {upper lower stored}, map.ldmmap.find upper lower = some stored →
      stored.vehData.stationID ∉ called) (upper : UInt32) :
    let swept := LDMMap.sweepLower now timeMilliseconds (map, called) upper
    swept.2.Nodup ∧ ∀ {otherUpper lower stored},
      swept.1.ldmmap.find otherUpper lower = some stored →
        stored.vehData.stationID ∉ swept.2 := by
  intro swept
  constructor
  · rw [show swept = _ from sweepLower_eq now timeMilliseconds (map, called) upper]
    refine List.nodup_append.mpr ⟨nodup, ?_, ?_⟩
    · have keys := nodupKeys_sweptEntries now timeMilliseconds map upper
      rw [List.nodup_map_iff_inj_on keys.nodup]
      rintro ⟨lower, stored⟩ member ⟨otherLower, other⟩ otherMember equal
      have found := ((mem_sweptEntries now timeMilliseconds _ _ _ _).mp member).1
      have otherFound := ((mem_sweptEntries now timeMilliseconds _ _ _ _).mp otherMember).1
      have same : lower = otherLower := by
        rw [← (wellFormed.keyed found).2.2, ← (wellFormed.keyed otherFound).2.2]
        exact congrArg keyLower equal
      subst same
      cases found.symm.trans otherFound
      rfl
    · rintro stationID before _ after rfl
      rcases List.mem_map.mp after with ⟨⟨lower, stored⟩, member, rfl⟩
      exact gone ((mem_sweptEntries now timeMilliseconds _ _ _ _).mp member).1 before
  · intro otherUpper lower stored found member
    rcases (sweepLower_find_eq_some_iff _ _ _ _ _ _ _).mp found with ⟨kept, fresh⟩
    rcases (sweepLower_called _ _ _ _ _).mp member with
      before | ⟨sweptLower, other, otherFound, old, equal⟩
    · exact gone kept before
    · rcases wellFormed.keyed kept with ⟨_, rfl, rfl⟩
      rcases wellFormed.keyed otherFound with ⟨_, upperSame, lowerSame⟩
      rw [equal] at upperSame lowerSame
      rw [← lowerSame, ← upperSame] at otherFound
      cases kept.symm.trans otherFound
      rw [fresh upperSame] at old
      cases old

theorem sweep_called_nodup (wellFormed : map.WellFormed) {called : List UInt64}
    (nodup : called.Nodup)
    (gone : ∀ {upper lower stored}, map.ldmmap.find upper lower = some stored →
      stored.vehData.stationID ∉ called) (uppers : List UInt32) :
    (uppers.foldl (LDMMap.sweepLower now timeMilliseconds) (map, called)).2.Nodup := by
  induction uppers generalizing map called with
  | nil => exact nodup
  | cons upper rest induction =>
      have first := wellFormed.sweepLower_called_nodup now timeMilliseconds nodup gone upper
      exact induction (wellFormed.sweepLower now timeMilliseconds called upper) first.1
        first.2

theorem sweep_card_le (wellFormed : map.WellFormed) (called : List UInt64)
    (uppers : List UInt32) :
    (uppers.foldl (LDMMap.sweepLower now timeMilliseconds) (map, called)).1.card ≤
      map.card := by
  induction uppers generalizing map called with
  | nil => exact UInt64.le_refl _
  | cons upper rest induction =>
      have counter := sweepLower_card now timeMilliseconds (map, called) upper
        (Nat.le_of_eq wellFormed.counted.symm)
      refine UInt64.le_trans
        (induction (wellFormed.sweepLower now timeMilliseconds called upper) _) ?_
      rw [UInt64.le_iff_toNat_le]
      dsimp only at counter
      omega

theorem deleteOlderThanAndExecute (wellFormed : map.WellFormed) :
    (map.deleteOlderThanAndExecute now timeMilliseconds).1.WellFormed :=
  wellFormed.sweep now timeMilliseconds [] _

end

theorem clear (wellFormed : map.WellFormed) :
    ∃ heap, map.clear = some ⟨∅, 0, heap⟩ := by
  rcases wellFormed.linked.clear with ⟨heap, cleared, _⟩
  exact ⟨heap, cleared⟩

end WellFormed

end LDMMap

end AIM.Database
