import Mathlib.Order.Lattice

namespace AIM.SortedMap

/-! # Ordered maps

A map is the list of its entries in the ascending order of their keys, each key once. -/

variable {Key : Type u} {Value : Type v} [LinearOrder Key]

/-- The value of a key that is there already is overwritten. -/
def insert (key : Key) (value : Value) : List (Key × Value) → List (Key × Value)
  | [] => [(key, value)]
  | (other, stored) :: rest =>
      if key < other then (key, value) :: (other, stored) :: rest
      else if key = other then (key, value) :: rest
      else (other, stored) :: insert key value rest

def ofAssignments (assignments : List (Key × Value)) : List (Key × Value) :=
  assignments.foldl (fun entries assignment => insert assignment.1 assignment.2 entries) []

def Sorted (entries : List (Key × Value)) : Prop :=
  entries.Pairwise fun first second => first.1 < second.1

variable {key : Key} {value : Value} {entries : List (Key × Value)}

theorem mem_insert {entry : Key × Value} (member : entry ∈ insert key value entries) :
    entry = (key, value) ∨ entry ∈ entries := by
  induction entries with
  | nil => exact .inl (List.mem_singleton.mp member)
  | cons first rest induction =>
      rw [insert] at member
      split at member
      · exact List.mem_cons.mp member
      · split at member
        · exact (List.mem_cons.mp member).imp_right (List.mem_cons_of_mem first)
        · rcases List.mem_cons.mp member with rfl | later
          · exact .inr List.mem_cons_self
          · exact (induction later).imp_right (List.mem_cons_of_mem first)

theorem Sorted.insert (sorted : Sorted entries) (key : Key) (value : Value) :
    Sorted (insert key value entries) := by
  induction entries with
  | nil => exact List.pairwise_singleton _ _
  | cons first rest induction =>
      rcases List.pairwise_cons.mp sorted with ⟨below, later⟩
      rw [SortedMap.insert]
      split
      · next less =>
          refine List.pairwise_cons.mpr ⟨fun entry member => ?_, sorted⟩
          rcases List.mem_cons.mp member with rfl | behind
          · exact less
          · exact lt_trans less (below entry behind)
      · next notLess =>
          split
          · next same => exact List.pairwise_cons.mpr ⟨fun entry member =>
              same ▸ below entry member, later⟩
          · next different =>
              refine List.pairwise_cons.mpr ⟨fun entry member => ?_, induction later⟩
              rcases mem_insert member with rfl | behind
              · exact lt_of_le_of_ne (not_lt.mp notLess) (Ne.symm different)
              · exact below entry behind

theorem insert_of_forall_lt (behind : ∀ entry ∈ entries, entry.1 < key) (value : Value) :
    insert key value entries = entries ++ [(key, value)] := by
  induction entries with
  | nil => rfl
  | cons first rest induction =>
      have less := behind first List.mem_cons_self
      rw [insert, if_neg (lt_asymm less), if_neg (ne_of_gt less),
        induction fun entry member => behind entry (List.mem_cons_of_mem first member)]
      rfl

theorem foldl_insert_of_sorted {assignments : List (Key × Value)}
    (sorted : Sorted (entries ++ assignments)) :
    assignments.foldl (fun entries assignment => insert assignment.1 assignment.2 entries)
      entries = entries ++ assignments := by
  induction assignments generalizing entries with
  | nil => exact (List.append_nil entries).symm
  | cons first rest induction =>
      have behind : ∀ entry ∈ entries, entry.1 < first.1 := fun entry member =>
        (List.pairwise_append.mp sorted).2.2 entry member first List.mem_cons_self
      rw [List.append_cons] at sorted
      rw [List.foldl_cons, insert_of_forall_lt behind, induction sorted, ← List.append_cons]

theorem ofAssignments_of_sorted (sorted : Sorted entries) : ofAssignments entries = entries :=
  foldl_insert_of_sorted sorted

theorem sorted_foldl_insert (sorted : Sorted entries) (assignments : List (Key × Value)) :
    Sorted (assignments.foldl
      (fun entries assignment => SortedMap.insert assignment.1 assignment.2 entries) entries) := by
  induction assignments generalizing entries with
  | nil => exact sorted
  | cons first rest induction => exact induction (sorted.insert first.1 first.2)

theorem mem_foldl_insert {assignments : List (Key × Value)} {entry : Key × Value}
    (member : entry ∈ assignments.foldl
      (fun entries assignment => insert assignment.1 assignment.2 entries) entries) :
    entry ∈ entries ∨ entry ∈ assignments := by
  induction assignments generalizing entries with
  | nil => exact .inl member
  | cons first rest induction =>
      rcases induction member with inserted | later
      · rcases mem_insert inserted with rfl | before
        · exact .inr List.mem_cons_self
        · exact .inl before
      · exact .inr (List.mem_cons_of_mem first later)

theorem mem_ofAssignments {assignments : List (Key × Value)} {entry : Key × Value}
    (member : entry ∈ ofAssignments assignments) : entry ∈ assignments := by
  rcases mem_foldl_insert member with before | assigned
  · cases before
  · exact assigned

theorem sorted_ofAssignments (assignments : List (Key × Value)) :
    Sorted (ofAssignments assignments) :=
  sorted_foldl_insert List.Pairwise.nil assignments

/-! ## Reading a key -/

def find (key : Key) : List (Key × Value) → Option Value
  | [] => none
  | (other, stored) :: rest => if key = other then some stored else find key rest

theorem find_insert (key other : Key) (value : Value) (entries : List (Key × Value)) :
    find other (insert key value entries) =
      if other = key then some value else find other entries := by
  induction entries with
  | nil => rfl
  | cons first rest induction =>
      rw [insert]
      split
      · rfl
      · split
        · next same =>
            rw [find, find, same]
            split
            · rfl
            · rfl
        · next different =>
            rw [find, induction, find]
            by_cases equal : other = first.1
            · rw [if_pos equal, if_pos equal, equal, if_neg (Ne.symm different)]
            · rw [if_neg equal, if_neg equal]

theorem find_foldl_insert {assignments : List (Key × Value)} {other : Key}
    (different : ∀ assignment ∈ assignments, assignment.1 ≠ other) :
    find other (assignments.foldl
      (fun entries assignment => insert assignment.1 assignment.2 entries) entries) =
      find other entries := by
  induction assignments generalizing entries with
  | nil => rfl
  | cons first rest induction =>
      rw [List.foldl_cons, induction fun assignment member =>
        different assignment (List.mem_cons_of_mem first member), find_insert,
        if_neg (different first List.mem_cons_self).symm]

theorem find_foldl_insert_of_mem {assignments : List (Key × Value)}
    (distinct : (assignments.map Prod.fst).Nodup) (member : (key, value) ∈ assignments) :
    find key (assignments.foldl
      (fun entries assignment => insert assignment.1 assignment.2 entries) entries) =
      some value := by
  induction assignments generalizing entries with
  | nil => cases member
  | cons first rest induction =>
      rcases List.nodup_cons.mp distinct with ⟨apart, later⟩
      rw [List.foldl_cons]
      rcases List.mem_cons.mp member with rfl | behind
      · rw [find_foldl_insert, find_insert, if_pos rfl]
        intro assignment inside same
        exact apart (List.mem_map.mpr ⟨assignment, inside, same⟩)
      · exact induction later behind

theorem find_ofAssignments {assignments : List (Key × Value)}
    (distinct : (assignments.map Prod.fst).Nodup) (member : (key, value) ∈ assignments) :
    find key (ofAssignments assignments) = some value :=
  find_foldl_insert_of_mem distinct member

end AIM.SortedMap
