import AIM.Database.Operations

namespace AIM.Database

/-! # Ownership of path histories

`insert` creates a path history for every new entry, and only `clear` deletes them. -/

namespace PHpointsHeap

def live (heap : PHpointsHeap) : List Nat :=
  (List.range heap.nextAddress).filter fun address => (heap.objects address).isSome

def Bounded (heap : PHpointsHeap) : Prop :=
  ∀ {address object}, heap.objects address = some object → address < heap.nextAddress

theorem mem_live_iff {heap : PHpointsHeap} (bounded : heap.Bounded) (address : Nat) :
    address ∈ heap.live ↔ ∃ object, heap.objects address = some object := by
  rw [live, List.mem_filter, List.mem_range, Option.isSome_iff_exists]
  constructor
  · exact And.right
  · rintro ⟨object, found⟩
    exact ⟨bounded found, object, found⟩

theorem nodup_live (heap : PHpointsHeap) : heap.live.Nodup :=
  List.nodup_range.filter _

end PHpointsHeap

namespace LDMMap

/-- Entries and path histories belong to each other one to one. -/
structure OwnsOneToOne (map : LDMMap) : Prop where
  references : ∀ {upper lower stored}, map.ldmmap.find upper lower = some stored →
    ∃ address object, stored.phData = some address ∧
      map.heap.objects address = some object
  distinct : ∀ {upper lower stored otherUpper otherLower otherStored},
    map.ldmmap.find upper lower = some stored →
    map.ldmmap.find otherUpper otherLower = some otherStored →
    stored.phData = otherStored.phData → upper = otherUpper ∧ lower = otherLower
  owner : ∀ {address object}, map.heap.objects address = some object →
    ∃ upper lower stored, map.ldmmap.find upper lower = some stored ∧
      stored.phData = some address
  count : map.heap.live.length = map.ldmmap.card

def KeepsOwnership (haversineDist : ℚ → ℚ → ℚ → ℚ → ℚ) (map : LDMMap)
    (operation : MapOperation) : Prop :=
  ∃ next, map.step haversineDist operation = some next ∧ next.OwnsOneToOne

/-- The operation erases no single entry: a removal finds none under the key that it
erases, and a sweep finds no old one. -/
def ErasesNone (map : LDMMap) : MapOperation → Prop
  | .remove stationID =>
      map.entry stationID = none ∨ stationID.toUInt32 ≠ keyLower stationID
  | .deleteOlderThan now timeMilliseconds =>
      ∀ item ∈ NestedMap.toList map.ldmmap, olderThan now timeMilliseconds item.2 = false
  | .deleteOlderThanAndExecute now timeMilliseconds =>
      ∀ item ∈ NestedMap.toList map.ldmmap, olderThan now timeMilliseconds item.2 = false
  | _ => True

/-- The invariant of runs that erase no single entry. -/
structure Owned (map : LDMMap) : Prop where
  linked : map.Linked
  lowers : ∀ {upper lower stored}, map.ldmmap.find upper lower = some stored →
    lower.toNat < 65536
  bounded : map.heap.Bounded
  owner : ∀ {address object}, map.heap.objects address = some object →
    ∃ upper lower stored, map.ldmmap.find upper lower = some stored ∧
      stored.phData = some address

theorem owned_empty (heap : PHpointsHeap) (none : ∀ address, heap.objects address = none) :
    Owned ⟨∅, 0, heap⟩ where
  linked := (wellFormed_empty heap).linked
  lowers found := nomatch found
  bounded found := by
    rw [none] at found
    cases found
  owner found := by
    change heap.objects _ = _ at found
    rw [none] at found
    cases found

namespace Owned

variable {map : LDMMap}

theorem live_perm (owned : map.Owned) :
    ((NestedMap.toList map.ldmmap).map fun item => item.2.phData).Perm
      (map.heap.live.map some) := by
  rw [List.perm_ext_iff_of_nodup owned.linked.nodup_phData
    (map.heap.nodup_live.map (Option.some_injective _))]
  intro pointer
  rw [List.mem_map, List.mem_map]
  constructor
  · rintro ⟨⟨⟨upper, lower⟩, stored⟩, member, rfl⟩
    rcases owned.linked.allocated ((NestedMap.mem_toList_iff _ _ _ _).mp member) with
      ⟨address, object, pointer, _, found⟩
    exact ⟨address, (PHpointsHeap.mem_live_iff owned.bounded address).mpr ⟨object, found⟩,
      pointer.symm⟩
  · rintro ⟨address, member, rfl⟩
    rcases (PHpointsHeap.mem_live_iff owned.bounded address).mp member with ⟨object, live⟩
    rcases owned.owner live with ⟨upper, lower, stored, found, pointer⟩
    exact ⟨((upper, lower), stored), (NestedMap.mem_toList_iff _ _ _ _).mpr found, pointer⟩

theorem ownsOneToOne (owned : map.Owned) : map.OwnsOneToOne where
  references found := by
    rcases owned.linked.allocated found with ⟨address, object, pointer, _, live⟩
    exact ⟨address, object, pointer, live⟩
  distinct := owned.linked.separate
  owner := owned.owner
  count := by
    have lengths := owned.live_perm.length_eq
    rw [List.length_map, List.length_map, NestedMap.length_toList] at lengths
    exact lengths.symm

end Owned

/-! ## Insertion -/

variable {haversineDist : ℚ → ℚ → ℚ → ℚ → ℚ} {map next : LDMMap}

theorem insertCall_objects {newVehicleData : VehicleData}
    (called : map.insertCall haversineDist newVehicleData = some next) (address : Nat) :
    (next.heap.objects address).isSome = (map.heap.objects address).isSome := by
  unfold insertCall at called
  split at called
  · cases called
  · next pointer _ =>
      split at called
      · cases called
      · next object live =>
          cases called
          change (Function.update map.heap.objects pointer _ address).isSome = _
          by_cases same : address = pointer
          · rw [same, Function.update_self, live]
            rfl
          · rw [Function.update_of_ne same]

theorem insert_objects {newVehicleData : VehicleData} {retval : LDMMapError}
    (inserted : map.insert haversineDist newVehicleData = some (next, retval))
    {address : Nat} (live : (next.heap.objects address).isSome) :
    (map.heap.objects address).isSome ∨
      (address = map.heap.nextAddress ∧ map.entry newVehicleData.stationID = none) := by
  by_cases full : map.card = uint64Max
  · simp only [insert, insertChecks, if_pos full, Option.some.injEq, Prod.mk.injEq] at inserted
    rw [← inserted.1] at live
    exact .inl live
  · rcases insertChecks_spec newVehicleData full with ⟨decision, prepared, checks⟩
    simp only [insert, checks] at inserted
    split at inserted
    · cases inserted
    · next called equal =>
        cases inserted
        rw [insertCall_objects equal, insertWrite_heap] at live
        by_cases update : decision = .update
        · rw [if_pos update] at live
          exact .inl live
        · rw [if_neg update] at live
          change (Function.update map.heap.objects map.heap.nextAddress _ address).isSome
            at live
          by_cases same : address = map.heap.nextAddress
          · exact .inr ⟨same, prepared.entry_eq_none update⟩
          · rw [Function.update_of_ne same] at live
            exact .inl live

namespace Owned

theorem storedAt (owned : map.Owned) {newVehicleData : VehicleData} {address : Nat}
    {history : PHpoints} (linked : next.Linked)
    (storing : WellFormed.StoredAt map next newVehicleData address history)
    (kept : ∀ stored ∈ map.entry newVehicleData.stationID, stored.phData = some address)
    (created : ∀ {other}, (next.heap.objects other).isSome →
      (map.heap.objects other).isSome ∨ other = address) : next.Owned where
  linked := linked
  lowers := by
    intro upper lower stored found
    rw [storing.find] at found
    split at found
    · next same =>
        rw [same.2, keyLower_toNat]
        omega
    · exact owned.lowers found
  bounded := by
    intro other object live
    rcases created (Option.isSome_of_eq_some live) with before | rfl
    · rcases Option.isSome_iff_exists.mp before with ⟨_, before⟩
      exact (owned.bounded before).trans_le storing.nextAddress_le
    · exact storing.address_lt
  owner := by
    intro other object live
    rcases created (Option.isSome_of_eq_some live) with before | rfl
    · rcases Option.isSome_iff_exists.mp before with ⟨_, before⟩
      rcases owned.owner before with ⟨upper, lower, stored, found, pointer⟩
      by_cases same : upper = keyUpper newVehicleData.stationID ∧
          lower = keyLower newVehicleData.stationID
      · rw [same.1, same.2] at found
        exact ⟨_, _, _, storing.entry_self, (kept stored found).symm.trans pointer⟩
      · refine ⟨upper, lower, stored, ?_, pointer⟩
        rw [storing.find, if_neg same]
        exact found
    · exact ⟨_, _, _, storing.entry_self, rfl⟩

theorem insert (owned : map.Owned) {newVehicleData : VehicleData} {retval : LDMMapError}
    (inserted : map.insert haversineDist newVehicleData = some (next, retval)) :
    next.Owned := by
  have linked := owned.linked.insert haversineDist inserted
  have created := @insert_objects _ _ _ _ _ inserted
  rcases owned.linked.insert_cases haversineDist newVehicleData with ⟨_, equal⟩ |
    ⟨stored, address, object, result, found, pointer, _, equal, _, _, storing⟩ |
    ⟨result, absent, equal, _, _, storing⟩
  · cases equal.symm.trans inserted
    exact owned
  · cases equal.symm.trans inserted
    apply owned.storedAt linked storing
    · intro other otherFound
      cases found.symm.trans otherFound
      exact pointer
    · intro other live
      exact .inl ((created live).resolve_right fun fresh => by cases found.symm.trans fresh.2)
  · cases equal.symm.trans inserted
    apply owned.storedAt linked storing
    · intro other otherFound
      cases absent.symm.trans otherFound
    · intro other live
      exact (created live).imp_right And.left

/-! ## Removal, sweeps and clearing -/

theorem of_same (owned : map.Owned) (heap : next.heap = map.heap)
    (same : ∀ upper lower, next.ldmmap.find upper lower = map.ldmmap.find upper lower) :
    next.Owned where
  linked := by
    apply owned.linked.of_fewer heap
    intro upper lower stored found
    exact (same upper lower).symm.trans found
  lowers found := owned.lowers ((same _ _).symm.trans found)
  bounded := by
    rw [heap]
    exact owned.bounded
  owner := by
    intro address object live
    rw [heap] at live
    rcases owned.owner live with ⟨upper, lower, stored, found, pointer⟩
    exact ⟨upper, lower, stored, (same upper lower).trans found, pointer⟩

theorem not_ownsOneToOne_of_lost (owned : map.Owned) (heap : next.heap = map.heap)
    (fewer : ∀ {upper lower stored}, next.ldmmap.find upper lower = some stored →
      map.ldmmap.find upper lower = some stored)
    {upper lower : UInt32} {stored : ReturnedVehicleData}
    (found : map.ldmmap.find upper lower = some stored)
    (lost : next.ldmmap.find upper lower = none) : ¬next.OwnsOneToOne := by
  intro owns
  rcases owned.linked.allocated found with ⟨address, object, pointer, _, live⟩
  rw [← heap] at live
  rcases owns.owner live with ⟨otherUpper, otherLower, other, otherFound, otherPointer⟩
  rcases owned.linked.separate found (fewer otherFound)
    (pointer.trans otherPointer.symm) with ⟨rfl, rfl⟩
  cases otherFound.symm.trans lost

theorem remove_find_of_other (owned : map.Owned) {stationID : UInt64}
    (other : stationID.toUInt32 ≠ keyLower stationID) (upper lower : UInt32) :
    (map.remove stationID).1.ldmmap.find upper lower = map.ldmmap.find upper lower := by
  cases present : map.entry stationID with
  | none => rw [remove_of_absent present]
  | some stored =>
      rw [remove_find_of_present (Option.isSome_of_eq_some present)]
      split
      · next same =>
          cases found : map.ldmmap.find upper lower with
          | none => rfl
          | some stored =>
              -- A lower key is below 65536 and so cannot be the whole stationID.
              have small := owned.lowers found
              rw [same.2] at small
              exfalso
              apply other
              apply UInt32.toNat_inj.mp
              rw [keyLower_toNat]
              rw [UInt64.toNat_toUInt32] at small ⊢
              omega
      · rfl

theorem remove (owned : map.Owned) {stationID : UInt64}
    (erasesNone : map.ErasesNone (.remove stationID)) : (map.remove stationID).1.Owned := by
  rcases erasesNone with absent | other
  · rw [remove_of_absent absent]
    exact owned
  · exact owned.of_same (WellFormed.remove_heap map stationID)
      (owned.remove_find_of_other other)

theorem erasesNone_of_remove (owned : map.Owned) {stationID : UInt64}
    (owns : (map.remove stationID).1.OwnsOneToOne) : map.ErasesNone (.remove stationID) := by
  by_contra erases
  rcases not_or.mp erases with ⟨present, same⟩
  rcases Option.ne_none_iff_exists'.mp present with ⟨stored, found⟩
  have heap := WellFormed.remove_heap map stationID
  apply owned.not_ownsOneToOne_of_lost heap remove_fewer found _ owns
  rw [remove_find_of_present (Option.isSome_of_eq_some found)]
  exact if_pos ⟨rfl, (not_not.mp same).symm⟩

theorem sweep (owned : map.Owned) {now : UInt64} {timeMilliseconds : ℚ}
    (erasesNone : map.ErasesNone (.deleteOlderThan now timeMilliseconds)) :
    (map.deleteOlderThanAndExecute now timeMilliseconds).1.Owned := by
  apply owned.of_same (deleteOlderThanAndExecute_heap now timeMilliseconds map)
  intro upper lower
  rw [deleteOlderThanAndExecute_find]
  cases found : map.ldmmap.find upper lower with
  | none => rfl
  | some stored =>
      have young := erasesNone _ ((NestedMap.mem_toList_iff _ upper lower stored).mpr found)
      exact Option.filter_some_pos (by rw [young]; rfl)

theorem erasesNone_of_sweep (owned : map.Owned) {now : UInt64} {timeMilliseconds : ℚ}
    (owns : (map.deleteOlderThanAndExecute now timeMilliseconds).1.OwnsOneToOne) :
    map.ErasesNone (.deleteOlderThan now timeMilliseconds) := by
  rintro ⟨⟨upper, lower⟩, stored⟩ member
  have found := (NestedMap.mem_toList_iff _ upper lower stored).mp member
  by_contra old
  have heap := deleteOlderThanAndExecute_heap now timeMilliseconds map
  apply owned.not_ownsOneToOne_of_lost heap _ found _ owns
  · intro upper lower stored kept
    rw [deleteOlderThanAndExecute_find] at kept
    exact (Option.filter_eq_some_iff.mp kept).1
  · rw [deleteOlderThanAndExecute_find, found]
    exact Option.filter_some_neg (by simpa using old)

theorem clear (owned : map.Owned) : ∃ cleared, map.clear = some cleared ∧ cleared.Owned := by
  rcases owned.linked.clear with ⟨heap, cleared, kept⟩
  refine ⟨_, cleared, owned_empty heap ?_⟩
  intro address
  cases live : heap.objects address with
  | none => rfl
  | some object =>
      rcases kept address object live with ⟨before, unused⟩
      rcases owned.owner before with ⟨upper, lower, stored, found, pointer⟩
      exact absurd pointer (unused upper lower stored found)

/-! ## Runs -/

theorem step (owned : map.Owned) {operation : MapOperation}
    (erasesNone : map.ErasesNone operation) :
    ∃ next, map.step haversineDist operation = some next ∧ next.Owned := by
  cases operation with
  | insert newVehicleData =>
      rcases owned.linked.perform_isSome haversineDist (.insert newVehicleData) with
        ⟨next, reply, performed⟩
      rw [perform, Option.map_eq_some_iff] at performed
      rcases performed with ⟨⟨inserted, retval⟩, equal, _⟩
      refine ⟨inserted, ?_, owned.insert equal⟩
      rw [LDMMap.step, perform, equal]
      rfl
  | remove stationID => exact ⟨_, rfl, owned.remove erasesNone⟩
  | lookup stationID => exact ⟨map, rfl, owned⟩
  | deleteOlderThan now timeMilliseconds =>
      exact ⟨_, step_deleteOlderThan haversineDist map now timeMilliseconds,
        owned.sweep erasesNone⟩
  | deleteOlderThanAndExecute now timeMilliseconds =>
      exact ⟨_, rfl, owned.sweep erasesNone⟩
  | clear =>
      rcases owned.clear with ⟨cleared, equal, clearedOwned⟩
      refine ⟨cleared, ?_, clearedOwned⟩
      rw [LDMMap.step, perform, equal]
      rfl

theorem keepsOwnership_iff (owned : map.Owned) (operation : MapOperation) :
    map.KeepsOwnership haversineDist operation ↔ map.ErasesNone operation := by
  constructor
  · rintro ⟨next, taken, owns⟩
    cases operation with
    | remove =>
        cases taken
        exact owned.erasesNone_of_remove owns
    | deleteOlderThan =>
        rw [step_deleteOlderThan] at taken
        cases taken
        exact owned.erasesNone_of_sweep owns
    | deleteOlderThanAndExecute =>
        cases taken
        exact owned.erasesNone_of_sweep owns
    | insert | lookup | clear => trivial
  · intro erasesNone
    rcases @Owned.step haversineDist _ owned _ erasesNone with
      ⟨next, taken, nextOwned⟩
    exact ⟨next, taken, nextOwned.ownsOneToOne⟩

end Owned

/-- Path histories are owned one to one throughout a run exactly when no removal and no
sweep of the run erases an entry. -/
theorem run_keepsOwnership_iff (haversineDist : ℚ → ℚ → ℚ → ℚ → ℚ)
    (memory : Nat → UninitializedPHpoints) (operations : List MapOperation) :
    Execution.Always (LDMMap.step haversineDist) (KeepsOwnership haversineDist)
        (empty memory) operations ↔
      Execution.Always (LDMMap.step haversineDist) ErasesNone (empty memory) operations := by
  apply Execution.Always.iff_of_invariant Owned fun _ => True
  · intro map operation next owned _ erasesNone taken
    rcases @Owned.step haversineDist _ owned _ erasesNone with
      ⟨other, otherTaken, otherOwned⟩
    cases taken.symm.trans otherTaken
    exact otherOwned
  · intro map operation owned _
    exact owned.keepsOwnership_iff operation
  · exact owned_empty _ fun _ => rfl
  · exact fun _ _ => trivial

/-- A vehicle that has not been heard of for ten seconds is erased by the sweep of the
cleaner, and its path history stays behind. -/
theorem not_keepsOwnership_of_sweep :
    ¬Execution.Always (LDMMap.step noDist) (KeepsOwnership noDist) (empty default)
      [.insert (station 12), .deleteOlderThanAndExecute 10000000 5000] := by
  intro always
  have sweep := always.after [MapOperation.insert (station 12)]
    (Option.some_get (by decide +kernel)).symm
  rcases sweep.1 with ⟨next, taken, owns⟩
  cases taken
  exact absurd owns.count (by decide +kernel)

end LDMMap

end AIM.Database
