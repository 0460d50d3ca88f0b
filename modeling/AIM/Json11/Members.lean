import AIM.Json11.RoundTrip

namespace AIM.Json11

open Binary64

/-! # Members of values that were read back

Equal values have equal members, so that a reader finds what was assigned. -/

namespace Json

def ofMembers (members : List (Bytes × Json)) : Json := object (SortedMap.ofAssignments members)

theorem equals_null : equals null null = true := rfl

theorem find_printedObject (key : Bytes) (entries : List (Bytes × Json)) :
    SortedMap.find key (printedObject entries) = (SortedMap.find key entries).map printed := by
  induction entries with
  | nil => rfl
  | cons entry rest induction =>
      rw [printedObject, SortedMap.find, SortedMap.find]
      split
      · rfl
      · exact induction

theorem equals_find {first second : List (Bytes × Json)}
    (equal : equalsObject first second = true) (key : Bytes) :
    equals ((SortedMap.find key first).getD null) ((SortedMap.find key second).getD null) =
      true := by
  induction first generalizing second with
  | nil =>
      cases second with
      | nil => exact equals_null
      | cons => cases equal
  | cons entry rest induction =>
      cases second with
      | nil => cases equal
      | cons other others =>
          rw [equalsObject, Bool.and_eq_true, Bool.and_eq_true, beq_iff_eq] at equal
          rcases equal with ⟨⟨sameKey, value⟩, later⟩
          rw [SortedMap.find, SortedMap.find, sameKey]
          split
          · exact value
          · exact induction later

theorem member_printed (value : Json) (key : Bytes) :
    value.printed.member key = (value.member key).printed := by
  cases value with
  | double value =>
      cases finite : value.isFinite with
      | true => rw [show (double value).printed = double value from if_pos finite]; rfl
      | false => rw [show (double value).printed = null from if_neg (by simp [finite])]; rfl
  | object values =>
      change (SortedMap.find key (printedObject values)).getD null =
        ((SortedMap.find key values).getD null).printed
      rw [find_printedObject]
      cases SortedMap.find key values <;> rfl
  | _ => rfl

theorem equals_member {result value : Json} (equal : equals result value.printed = true)
    (key : Bytes) : equals (result.member key) (value.member key).printed = true := by
  rw [← member_printed]
  generalize value.printed = value at equal ⊢
  cases result with
  | object values =>
      cases value with
      | object others => exact equals_find equal key
      | _ => cases equal
  | _ =>
      cases value with
      | object others => cases equal
      | _ => exact equals_null

theorem numberValue_of_equals {first second : Json} (number : second.type = .number)
    (equal : equals first second = true) :
    first.numberValue.equals second.numberValue = true := by
  have both (value : Double) (same : (second.type == .number && value.equals second.numberValue) =
      true) : value.equals second.numberValue = true := (Bool.and_eq_true_iff.mp same).2
  cases first with
  | double value => exact both _ equal
  | int value => exact both _ equal
  | uint64 value => exact both _ equal
  | _ =>
      cases second with
      | double value => cases equal
      | int value => cases equal
      | uint64 value => cases equal
      | _ => cases number

theorem stringValue_of_equals {first : Json} {value : Bytes}
    (equal : equals first (string value) = true) : first.stringValue = value := by
  cases first with
  | string other => simpa [equals, stringValue] using equal
  | _ => cases equal

theorem arrayItems_of_equals {result : Json} {values : List Json}
    (equal : equals result (array values).printed = true) :
    List.Forall₂ (fun item value => equals item value.printed = true) result.arrayItems values := by
  cases result with
  | array items =>
      replace equal : equalsArray items (printedArray values) = true := equal
      change List.Forall₂ _ items values
      induction items generalizing values with
      | nil =>
          cases values with
          | nil => exact .nil
          | cons => cases equal
      | cons item rest induction =>
          cases values with
          | nil => cases equal
          | cons value later =>
              rw [printedArray, equalsArray, Bool.and_eq_true] at equal
              exact .cons equal.1 (induction equal.2)
  | _ => cases equal

end Json

end AIM.Json11
