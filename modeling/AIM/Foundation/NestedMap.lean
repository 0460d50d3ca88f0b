import Mathlib.Algebra.GroupWithZero.Nat
import Mathlib.Data.List.AList

namespace AIM

/-! # Two-level association maps

Association lists stand for hash maps: the order of the entries is the order in
which an iteration visits them. A nested map sends an upper key to a map of lower
keys, and is used as a map from pairs of keys that can also be changed one lower
map at a time. -/

/-- A map from keys to values of a fixed type. -/
abbrev Assoc (Key : Type u) (Value : Type v) := AList fun _ : Key => Value

namespace Assoc

def size (map : Assoc Key Value) : Nat := map.entries.length

/-- Drop the entries whose value satisfies a test. -/
def eraseWhere (test : Value → Bool) (map : Assoc Key Value) : Assoc Key Value where
  entries := map.entries.filter fun entry => !test entry.2
  nodupKeys := map.nodupKeys.sublist List.filter_sublist

/-- The entries that `eraseWhere` drops, in iteration order. -/
def erased (test : Value → Bool) (map : Assoc Key Value) :
    List (Σ _ : Key, Value) :=
  map.entries.filter fun entry => test entry.2

theorem size_eraseWhere (test : Value → Bool) (map : Assoc Key Value) :
    size (map.eraseWhere test) + (map.erased test).length = size map := by
  have split : map.entries.length = _ :=
    List.length_eq_length_filter_add fun entry => test entry.2
  simp only [size, eraseWhere, erased]
  omega

variable [DecidableEq Key]

theorem size_erase_of_mem {key : Key} {map : Assoc Key Value} (member : key ∈ map) :
    size (map.erase key) + 1 = size map := by
  rcases List.exists_of_kerase member with ⟨value, before, after, _, whole, erased⟩
  have longer := congrArg List.length whole
  have shorter := congrArg List.length erased
  simp only [List.length_append, List.length_cons] at longer shorter
  change (List.kerase key map.entries).length + 1 = map.entries.length
  omega

theorem erase_of_not_mem {key : Key} {map : Assoc Key Value} (absent : key ∉ map) :
    map.erase key = map :=
  AList.ext (List.kerase_of_notMem_keys absent)

theorem size_insert_of_not_mem {key : Key} {map : Assoc Key Value} (value : Value)
    (absent : key ∉ map) : size (map.insert key value) = size map + 1 := by
  simp only [size, AList.entries_insert_of_notMem absent, List.length_cons]

theorem size_insert_of_mem {key : Key} {map : Assoc Key Value} (value : Value)
    (member : key ∈ map) : size (map.insert key value) = size map := by
  have erased := size_erase_of_mem member
  rw [size, AList.entries_insert, List.length_cons]
  exact erased

theorem lookup_eraseWhere (test : Value → Bool) (map : Assoc Key Value) (key : Key) :
    (map.eraseWhere test).lookup key =
      (map.lookup key).filter fun value => !test value := by
  ext value
  rw [Option.filter_eq_some_iff, ← Option.mem_def, ← Option.mem_def,
    AList.mem_lookup_iff, AList.mem_lookup_iff]
  simp [eraseWhere]

private theorem foldl_erase_entries (test : Value → Bool) :
    ∀ (rest kept : List (Σ _ : Key, Value)) (map : Assoc Key Value),
      map.entries = kept ++ rest →
      (rest.foldl (fun current entry =>
        if test entry.2 then current.erase entry.1 else current) map).entries =
        kept ++ rest.filter fun entry => !test entry.2
  | [], kept, map, whole => by simpa using whole
  | entry :: rest, kept, map, whole => by
      by_cases drop : test entry.2 = true
      · have nodup := map.nodupKeys
        rw [whole, List.nodupKeys_middle] at nodup
        have notBefore : entry.1 ∉ kept.keys := by
          have fresh := List.notMem_keys_of_nodupKeys_cons nodup
          rw [List.keys_append] at fresh
          exact fun member => fresh (List.mem_append_left _ member)
        have erased : (map.erase entry.1).entries = kept ++ rest := by
          change List.kerase entry.1 map.entries = kept ++ rest
          rw [whole, List.kerase_append_right notBefore, List.kerase_cons_eq rfl]
        simpa [drop] using foldl_erase_entries test rest kept _ erased
      · have next : map.entries = (kept ++ [entry]) ++ rest := by simpa using whole
        simpa [drop] using foldl_erase_entries test rest (kept ++ [entry]) map next

/-- A loop over all entries that erases the current one when it satisfies the
test visits every entry once and leaves the others. -/
theorem foldl_erase_eq_eraseWhere (test : Value → Bool) (map : Assoc Key Value) :
    map.entries.foldl (fun current entry =>
        if test entry.2 then current.erase entry.1 else current) map =
      map.eraseWhere test :=
  AList.ext (foldl_erase_entries test map.entries [] map rfl)

end Assoc

/-! ## Nested maps -/

/-- Lower maps by upper key. -/
abbrev NestedMap (Upper : Type u) (Lower : Type v) (Value : Type w) :=
  Assoc Upper (Assoc Lower Value)

namespace NestedMap

def card (map : NestedMap Upper Lower Value) : Nat :=
  (map.entries.map fun entry => entry.2.size).sum

def toList (map : NestedMap Upper Lower Value) : List ((Upper × Lower) × Value) :=
  map.entries.flatMap fun entry =>
    entry.2.entries.map fun inner => ((entry.1, inner.1), inner.2)

theorem length_toList (map : NestedMap Upper Lower Value) :
    map.toList.length = map.card := by
  simp [toList, card, Assoc.size, List.length_flatMap]

theorem nodup_toList_keys (map : NestedMap Upper Lower Value) :
    (map.toList.map Prod.fst).Nodup := by
  simp only [toList, List.map_flatMap, List.map_map]
  rw [List.nodup_flatMap]
  refine ⟨fun entry _ => ?_, ?_⟩
  · have inner : (entry.2.keys.map fun lower => (entry.1, lower)).Nodup :=
      entry.2.keys_nodup.map fun left right equal => (Prod.mk.inj equal).2
    simpa [AList.keys, List.keys, Function.comp_def] using inner
  · refine (List.nodupKeys_iff_pairwise.mp map.nodupKeys).imp ?_
    intro left right different
    change List.Disjoint _ _
    rw [List.disjoint_left]
    intro keys inLeft inRight
    rcases List.mem_map.mp inLeft with ⟨_, _, rfl⟩
    rcases List.mem_map.mp inRight with ⟨_, _, equal⟩
    exact different (Prod.mk.inj equal).1.symm

section

variable [DecidableEq Upper]

def modifyLower (map : NestedMap Upper Lower Value) (upper : Upper)
    (change : Assoc Lower Value → Assoc Lower Value) :
    NestedMap Upper Lower Value :=
  match map.lookup upper with
  | none => map
  | some lowerMap => map.insert upper (change lowerMap)

theorem card_insert_of_lookup_none {map : NestedMap Upper Lower Value} {upper : Upper}
    (absent : map.lookup upper = none) (lowerMap : Assoc Lower Value) :
    card (map.insert upper lowerMap) = card map + lowerMap.size := by
  have notMem := AList.lookup_eq_none.mp absent
  simp only [card, AList.entries_insert_of_notMem notMem, List.map_cons, List.sum_cons]
  omega

theorem card_insert_of_lookup_some {map : NestedMap Upper Lower Value} {upper : Upper}
    {previous : Assoc Lower Value} (found : map.lookup upper = some previous)
    (lowerMap : Assoc Lower Value) :
    card (map.insert upper lowerMap) + previous.size = card map + lowerMap.size := by
  have member : upper ∈ map := by
    rw [← AList.lookup_isSome, found]
    rfl
  rcases List.exists_of_kerase member with ⟨value, before, after, _, whole, erased⟩
  have same : value = previous := by
    have entry : (⟨upper, value⟩ : Σ _ : Upper, Assoc Lower Value) ∈ map.entries := by
      rw [whole]
      simp
    have lookup := AList.mem_lookup_iff.mpr entry
    rw [found] at lookup
    exact (Option.some.inj lookup).symm
  subst same
  have before := congrArg (fun entries => (entries.map fun entry => entry.2.size).sum)
    whole
  simp only [card, AList.entries_insert, erased, List.map_cons, List.map_append,
    List.sum_cons, List.sum_append] at before ⊢
  omega

theorem card_modifyLower {map : NestedMap Upper Lower Value} {upper : Upper}
    {lowerMap : Assoc Lower Value} (found : map.lookup upper = some lowerMap)
    (change : Assoc Lower Value → Assoc Lower Value) :
    (map.modifyLower upper change).card + lowerMap.size =
      map.card + (change lowerMap).size := by
  simp only [modifyLower, found]
  exact card_insert_of_lookup_some found _

theorem modifyLower_of_lookup {map : NestedMap Upper Lower Value} {upper : Upper}
    {lowerMap : Assoc Lower Value} (found : map.lookup upper = some lowerMap)
    (change : Assoc Lower Value → Assoc Lower Value) :
    map.modifyLower upper change = map.insert upper (change lowerMap) := by
  simp only [modifyLower, found]

theorem lookup_modifyLower (map : NestedMap Upper Lower Value) (upper : Upper)
    (change : Assoc Lower Value → Assoc Lower Value) (other : Upper) :
    (map.modifyLower upper change).lookup other =
      if other = upper then (map.lookup upper).map change else map.lookup other := by
  cases found : map.lookup upper with
  | none =>
      simp only [modifyLower, found]
      split
      · next same => rw [same, found, Option.map_none]
      · rfl
  | some lowerMap =>
      rw [modifyLower_of_lookup found]
      split
      · next same => rw [same, AList.lookup_insert, Option.map_some]
      · next different => exact AList.lookup_insert_ne different

theorem card_modifyLower_eraseWhere {map : NestedMap Upper Lower Value} {upper : Upper}
    {lowerMap : Assoc Lower Value} (found : map.lookup upper = some lowerMap)
    (test : Value → Bool) :
    (map.modifyLower upper (Assoc.eraseWhere test)).card +
      (Assoc.erased test lowerMap).length = map.card := by
  have total := card_modifyLower found (Assoc.eraseWhere test)
  have split := Assoc.size_eraseWhere test lowerMap
  omega

end

variable [DecidableEq Upper] [DecidableEq Lower]

def find (map : NestedMap Upper Lower Value) (upper : Upper) (lower : Lower) :
    Option Value :=
  (map.lookup upper).bind (·.lookup lower)

theorem mem_toList_iff (map : NestedMap Upper Lower Value) (upper : Upper)
    (lower : Lower) (value : Value) :
    ((upper, lower), value) ∈ map.toList ↔ map.find upper lower = some value := by
  simp only [toList, List.mem_flatMap, List.mem_map, Prod.mk.injEq, find,
    Option.bind_eq_some_iff]
  constructor
  · rintro ⟨entry, entryMem, inner, innerMem, ⟨rfl, rfl⟩, rfl⟩
    exact ⟨entry.2, AList.mem_lookup_iff.mpr entryMem, AList.mem_lookup_iff.mpr innerMem⟩
  · rintro ⟨lowerMap, upperFound, lowerFound⟩
    exact ⟨⟨upper, lowerMap⟩, AList.mem_lookup_iff.mp upperFound, ⟨lower, value⟩,
      AList.mem_lookup_iff.mp lowerFound, ⟨rfl, rfl⟩, rfl⟩

theorem card_le_of_rank (map : NestedMap Upper Lower Value) (rank : Upper × Lower → Nat)
    (injective : Function.Injective rank) (bound : Nat)
    (below : ∀ upper lower value, map.find upper lower = some value →
      rank (upper, lower) < bound) : map.card ≤ bound := by
  have nodup : ((map.toList.map Prod.fst).map rank).Nodup :=
    map.nodup_toList_keys.map injective
  have inside : (map.toList.map Prod.fst).map rank ⊆ List.range bound := by
    intro value member
    rcases List.mem_map.mp member with ⟨keys, keysMem, rfl⟩
    rcases List.mem_map.mp keysMem with ⟨⟨⟨upper, lower⟩, stored⟩, entry, rfl⟩
    exact List.mem_range.mpr
      (below upper lower stored ((map.mem_toList_iff upper lower stored).mp entry))
  have length := (List.subperm_of_subset nodup inside).length_le
  simpa [← map.length_toList] using length

theorem find_of_lookup {map : NestedMap Upper Lower Value} {upper : Upper}
    {lowerMap : Assoc Lower Value} (found : map.lookup upper = some lowerMap)
    (lower : Lower) : map.find upper lower = lowerMap.lookup lower := by
  rw [find, found, Option.bind_some]

theorem mem_keys_of_find {map : NestedMap Upper Lower Value} {upper : Upper} {lower : Lower}
    {value : Value} (found : map.find upper lower = some value) : upper ∈ map.keys := by
  rcases Option.bind_eq_some_iff.mp found with ⟨lowerMap, foundUpper, _⟩
  exact AList.lookup_isSome.mp (Option.isSome_of_eq_some foundUpper)

theorem find_insert_self (map : NestedMap Upper Lower Value) (upper : Upper)
    (lowerMap : Assoc Lower Value) (lower : Lower) :
    find (map.insert upper lowerMap) upper lower = lowerMap.lookup lower := by
  rw [find, AList.lookup_insert, Option.bind_some]

theorem find_insert_of_ne (map : NestedMap Upper Lower Value) {upper other : Upper}
    (lowerMap : Assoc Lower Value) (lower : Lower) (different : other ≠ upper) :
    find (map.insert upper lowerMap) other lower = map.find other lower := by
  rw [find, AList.lookup_insert_ne different, find]

theorem find_modifyLower_self {map : NestedMap Upper Lower Value} {upper : Upper}
    {lowerMap : Assoc Lower Value} (found : map.lookup upper = some lowerMap)
    (change : Assoc Lower Value → Assoc Lower Value) (lower : Lower) :
    (map.modifyLower upper change).find upper lower =
      (change lowerMap).lookup lower := by
  simp only [modifyLower, found]
  exact find_insert_self map upper _ lower

theorem find_modifyLower_of_ne (map : NestedMap Upper Lower Value)
    {upper other : Upper} (change : Assoc Lower Value → Assoc Lower Value)
    (lower : Lower) (different : other ≠ upper) :
    (map.modifyLower upper change).find other lower = map.find other lower := by
  unfold modifyLower
  split
  · rfl
  · exact find_insert_of_ne map _ lower different

/-! ### Single values -/

theorem find_insert_singleton {map : NestedMap Upper Lower Value} {upper : Upper}
    (absent : map.lookup upper = none) (lower : Lower) (value : Value)
    (otherUpper : Upper) (otherLower : Lower) :
    find (map.insert upper (AList.singleton lower value)) otherUpper otherLower =
      if otherUpper = upper ∧ otherLower = lower then some value
      else map.find otherUpper otherLower := by
  by_cases sameUpper : otherUpper = upper
  · subst sameUpper
    rw [find_insert_self, ← AList.insert_empty]
    by_cases sameLower : otherLower = lower
    · subst sameLower
      rw [if_pos ⟨rfl, rfl⟩, AList.lookup_insert]
    · rw [if_neg fun same => sameLower same.2, AList.lookup_insert_ne sameLower, find,
        absent, Option.bind_none, AList.lookup_empty]
  · rw [if_neg fun same => sameUpper same.1]
    exact find_insert_of_ne map _ otherLower sameUpper

theorem find_modifyLower_insert {map : NestedMap Upper Lower Value} {upper : Upper}
    {lowerMap : Assoc Lower Value} (found : map.lookup upper = some lowerMap)
    (lower : Lower) (value : Assoc Lower Value → Value) (otherUpper : Upper)
    (otherLower : Lower) :
    (map.modifyLower upper fun current => current.insert lower (value current)).find
        otherUpper otherLower =
      if otherUpper = upper ∧ otherLower = lower then some (value lowerMap)
      else map.find otherUpper otherLower := by
  by_cases sameUpper : otherUpper = upper
  · subst sameUpper
    rw [find_modifyLower_self found]
    by_cases sameLower : otherLower = lower
    · subst sameLower
      rw [if_pos ⟨rfl, rfl⟩, AList.lookup_insert]
    · rw [if_neg fun same => sameLower same.2, AList.lookup_insert_ne sameLower,
        find_of_lookup found]
  · rw [if_neg fun same => sameUpper same.1]
    exact find_modifyLower_of_ne map _ otherLower sameUpper

theorem card_modifyLower_insert_of_mem {map : NestedMap Upper Lower Value}
    {upper : Upper} {lowerMap : Assoc Lower Value}
    (found : map.lookup upper = some lowerMap) {lower : Lower}
    (member : lower ∈ lowerMap) (value : Assoc Lower Value → Value) :
    (map.modifyLower upper fun current => current.insert lower (value current)).card =
      map.card := by
  have total := card_modifyLower found fun current => current.insert lower (value current)
  rw [Assoc.size_insert_of_mem _ member] at total
  omega

theorem card_modifyLower_insert_of_not_mem {map : NestedMap Upper Lower Value}
    {upper : Upper} {lowerMap : Assoc Lower Value}
    (found : map.lookup upper = some lowerMap) {lower : Lower}
    (absent : lower ∉ lowerMap) (value : Assoc Lower Value → Value) :
    (map.modifyLower upper fun current => current.insert lower (value current)).card =
      map.card + 1 := by
  have total := card_modifyLower found fun current => current.insert lower (value current)
  rw [Assoc.size_insert_of_not_mem _ absent] at total
  omega

theorem find_modifyLower_erase (map : NestedMap Upper Lower Value) (upper : Upper)
    (lower : Lower) (otherUpper : Upper) (otherLower : Lower) :
    (map.modifyLower upper fun current => current.erase lower).find otherUpper
        otherLower =
      if otherUpper = upper ∧ otherLower = lower then none
      else map.find otherUpper otherLower := by
  by_cases sameUpper : otherUpper = upper
  · subst sameUpper
    cases found : map.lookup otherUpper with
    | none => simp [modifyLower, find, found]
    | some lowerMap =>
        rw [find_modifyLower_self found]
        by_cases sameLower : otherLower = lower
        · subst sameLower
          rw [if_pos ⟨rfl, rfl⟩, AList.lookup_erase]
        · rw [if_neg fun same => sameLower same.2, AList.lookup_erase_ne sameLower,
            find_of_lookup found]
  · rw [if_neg fun same => sameUpper same.1]
    exact find_modifyLower_of_ne map _ otherLower sameUpper

theorem card_modifyLower_erase_of_mem {map : NestedMap Upper Lower Value}
    {upper : Upper} {lowerMap : Assoc Lower Value}
    (found : map.lookup upper = some lowerMap) {lower : Lower}
    (member : lower ∈ lowerMap) :
    (map.modifyLower upper fun current => current.erase lower).card + 1 = map.card := by
  have total := card_modifyLower found fun current => current.erase lower
  have smaller := Assoc.size_erase_of_mem member
  omega

/-! ### One lower map at a time -/

theorem find_modifyLower_eraseWhere (map : NestedMap Upper Lower Value) (upper : Upper)
    (test : Value → Bool) (otherUpper : Upper) (otherLower : Lower) :
    (map.modifyLower upper (Assoc.eraseWhere test)).find otherUpper otherLower =
      if otherUpper = upper then
        (map.find otherUpper otherLower).filter fun value => !test value
      else map.find otherUpper otherLower := by
  by_cases sameUpper : otherUpper = upper
  · subst sameUpper
    rw [if_pos rfl]
    cases found : map.lookup otherUpper with
    | none => simp [modifyLower, find, found]
    | some lowerMap =>
        rw [find_modifyLower_self found, find_of_lookup found, Assoc.lookup_eraseWhere]
  · rw [if_neg sameUpper]
    exact find_modifyLower_of_ne map _ otherLower sameUpper

end NestedMap

end AIM
