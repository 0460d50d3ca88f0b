import AIM.Json11.Printing
import AIM.Json11.Rejection

namespace AIM.Json11

open Binary64 Decimal

/-! # Reading printed values back

What is written by `dump` is read again as an equal value, if its doubles are finite. -/

/-! ## Numbers -/

theorem NumberToken.value?_double (token : NumberToken) :
    token.double.value? = (Double.ofRat token.decimal).value? := by
  apply Double.value?_round_eq
  intro nonzero
  have digits : (0 : ℚ) ≤ digitsValue (token.integer ++ token.fraction.getD []) *
      10 ^ (token.exponentValue - (token.fraction.getD []).length) :=
    mul_nonneg (Nat.cast_nonneg _) (zpow_nonneg (by decide) _)
  have split : token.decimal = token.sign *
      (digitsValue (token.integer ++ token.fraction.getD []) *
        10 ^ (token.exponentValue - (token.fraction.getD []).length)) := mul_assoc ..
  rw [split] at nonzero ⊢
  have positive := lt_of_le_of_ne digits (right_ne_zero_of_mul nonzero).symm
  rw [sign]
  cases token.negative with
  | false => simp [positive.not_gt]
  | true => simp [positive]

theorem NumberToken.numberValue_value (token : NumberToken) :
    token.value.numberValue.value? = (Double.ofRat token.decimal).value? := by
  unfold value
  split
  · next short =>
      rcases short with ⟨noFraction, noExponent, short⟩
      have digits := ofDigitChars_lt (digits_textOf token.integerDigits.1.2)
      have length : (textOf token.integer).length ≤ 9 := by
        rw [textOf, List.length_map]
        rw [text, List.length_append, List.length_append] at short
        unfold digits10 at short
        omega
      have below : digitsValue token.integer < 10 ^ 9 :=
        lt_of_lt_of_le digits (Nat.pow_le_pow_right (by decide) length)
      have fits : (Int32.ofInt (token.sign * digitsValue token.integer)).toInt =
          token.sign * digitsValue token.integer := by
        apply Int32.toInt_ofInt_of_le
        · unfold sign
          split <;> omega
        · unfold sign
          split <;> omega
      change (Double.ofRat
        (Int32.ofInt (token.sign * digitsValue token.integer)).toInt).value? = _
      rw [fits, decimal, exponentValue, noFraction, noExponent]
      simp
  · exact token.value?_double

theorem NumberToken.type_value (token : NumberToken) : token.value.type = .number := by
  unfold value
  split
  · rfl
  · rfl

theorem numberChar_oneByte {char : Char} (numberChar : NumberChar char) : char.toNat < 256 := by
  rcases numberChar with digit | sign
  · exact oneByte_of_isDigit digit
  · simp only [List.mem_cons, List.not_mem_nil, or_false] at sign
    rcases sign with rfl | rfl | rfl | rfl <;> decide

theorem textOf_bytesOf {text : Text} (chars : ∀ char ∈ text, NumberChar char) :
    textOf (bytesOf text) = text := by
  rw [textOf, bytesOf, List.map_map]
  refine (List.map_congr_left fun char member => ?_).trans (List.map_id text)
  exact charOf_byteOf (numberChar_oneByte (chars char member))

theorem numberValue_of_text {token : NumberToken} {text : Text} (same : token.text = bytesOf text)
    (chars : ∀ char ∈ text, NumberChar char) {value : ℚ} (read : readDecimal text = some value) :
    token.value.numberValue.value? = (Double.ofRat value).value? := by
  have ends : token.EndsBefore [] := Delimits.endsBefore (.inl rfl) token
  have decimal := NumberToken.readDecimal_text ends
  rw [List.append_nil, same, textOf_bytesOf chars, read, Option.some_inj] at decimal
  rw [token.numberValue_value, decimal]

/-! ## Values -/

/-- The value is nested in fewer levels than given, and its objects are ordered maps. -/
inductive Fits : Nat → Json → Prop
  | null {levels} : Fits (levels + 1) .null
  | bool {levels} (value : Bool) : Fits (levels + 1) (.bool value)
  | double {levels} (value : Double) : Fits (levels + 1) (.double value)
  | int {levels} (value : Int32) : Fits (levels + 1) (.int value)
  | uint64 {levels} (value : UInt64) : Fits (levels + 1) (.uint64 value)
  | string {levels} (value : Bytes) : Fits (levels + 1) (.string value)
  | array {levels} {values : List Json} (each : ∀ value ∈ values, Fits levels value) :
      Fits (levels + 1) (.array values)
  | object {levels} {values : List (Bytes × Json)} (sorted : SortedMap.Sorted values)
      (each : ∀ entry ∈ values, Fits levels entry.2) : Fits (levels + 1) (.object values)

namespace Json

mutual

/-- The value with null for the doubles that are not finite. -/
def printed : Json → Json
  | double value => if value.isFinite then double value else null
  | array values => array (printedArray values)
  | object values => object (printedObject values)
  | value => value

def printedArray : List Json → List Json
  | [] => []
  | value :: rest => value.printed :: printedArray rest

def printedObject : List (Bytes × Json) → List (Bytes × Json)
  | [] => []
  | (key, value) :: rest => (key, value.printed) :: printedObject rest

end

mutual

def isFinite : Json → Bool
  | double value => value.isFinite
  | array values => isFiniteArray values
  | object values => isFiniteObject values
  | _ => true

def isFiniteArray : List Json → Bool
  | [] => true
  | value :: rest => value.isFinite && isFiniteArray rest

def isFiniteObject : List (Bytes × Json) → Bool
  | [] => true
  | (_, value) :: rest => value.isFinite && isFiniteObject rest

end

end Json

theorem equals_of_numbers {first second : Json} (left : first.type = .number)
    (right : second.type = .number) {value : ℚ} (firstValue : first.numberValue.value? = some value)
    (secondValue : second.numberValue.value? = some value) : Json.equals first second = true := by
  have same := Double.equals_of_value? firstValue secondValue
  have both : (second.type == .number && first.numberValue.equals second.numberValue) = true := by
    rw [right, same]
    rfl
  cases first with
  | double value => exact both
  | int value => exact both
  | uint64 value => exact both
  | _ => cases left

theorem blank_nil : Blank [] := List.forall_mem_nil _

theorem blank_space : Blank (ascii " ") := List.forall_mem_singleton.mpr rfl

def Reads (levels : Nat) (value : Json) : Prop :=
  ∃ result, IsJson levels (Json.dump value) result ∧ Json.equals result value.printed = true

theorem reads_number {levels : Nat} {value : Json} {text : Text}
    (dumped : value.dump = bytesOf text)
    (token : ∃ token : NumberToken, token.text = bytesOf text)
    (chars : ∀ char ∈ text, NumberChar char) (number : value.printed.type = .number)
    {decimal exact : ℚ} (read : readDecimal text = some decimal)
    (kept : (Double.ofRat decimal).value? = some exact)
    (isExact : value.printed.numberValue.value? = some exact) : Reads (levels + 1) value := by
  rcases token with ⟨token, same⟩
  refine ⟨token.value, ?_, equals_of_numbers token.type_value number
    ((numberValue_of_text same chars read).trans kept) isExact⟩
  rw [dumped, ← same]
  exact @IsJson.number _ [] blank_nil token

theorem doubleText_chars {negative : Bool} {magnitude : Magnitude} {char : Char}
    (member : char ∈ Json.doubleText negative magnitude) : NumberChar char := by
  rcases List.mem_append.mp member with sign | digits
  · cases negative with
    | false => cases sign
    | true =>
        rw [List.mem_singleton.mp sign]
        exact .inr (by decide)
  · exact generalText_chars digits

theorem readDecimal_doubleText (negative : Bool) (magnitude : Magnitude) :
    readDecimal (Json.doubleText negative magnitude) =
      some (if negative then -rounded 17 magnitude.value else rounded 17 magnitude.value) := by
  have read := readDecimal_generalText_append (show 0 < 17 by decide) magnitude.value stops_nil
  rw [List.append_nil] at read
  cases negative with
  | false => exact read
  | true =>
      rcases generalText_starts 17 magnitude.nonneg with ⟨first, later, text, digit⟩
      rw [text] at read
      change readDecimal ('-' :: generalText 17 magnitude.value) = _
      rw [text, readDecimal_negative digit, read]
      rfl

theorem dumpArray_elements {levels : Nat} {value : Json} {values : List Json}
    (each : ∀ other ∈ value :: values, Reads levels other) {before : Bytes} (blank : Blank before) :
    ∃ elements : List Element, elements ≠ [] ∧
      (∀ element ∈ elements, IsJson levels element.text element.value) ∧
      (∀ element ∈ elements, Blank element.behind) ∧
      commaSeparated (elements.map Element.whole) = before ++ Json.dumpArray (value :: values) ∧
      Json.equalsArray (elements.map Element.value) (Json.printedArray (value :: values)) =
        true := by
  rcases each value List.mem_cons_self with ⟨result, isJson, equal⟩
  induction values generalizing value result before with
  | nil =>
      refine ⟨[⟨before ++ value.dump, [], result⟩], List.cons_ne_nil _ _, ?_, ?_, ?_, ?_⟩
      · exact List.forall_mem_singleton.mpr (isJson.blanks blank)
      · exact List.forall_mem_singleton.mpr blank_nil
      · simp [commaSeparated_singleton, Element.whole, Json.dumpArray]
      · simp [Json.printedArray, Json.equalsArray, equal]
  | cons second later induction =>
      have rest := fun other member => each other (List.mem_cons_of_mem value member)
      rcases rest second List.mem_cons_self with ⟨next, nextJson, nextEqual⟩
      rcases induction rest blank_space next nextJson nextEqual with
        ⟨elements, nonempty, texts, blanked, text, equals⟩
      refine ⟨⟨before ++ value.dump, [], result⟩ :: elements, List.cons_ne_nil _ _, ?_, ?_, ?_, ?_⟩
      · exact List.forall_mem_cons.mpr ⟨isJson.blanks blank, texts⟩
      · exact List.forall_mem_cons.mpr ⟨blank_nil, blanked⟩
      · rw [List.map_cons, commaSeparated_cons _ (List.map_eq_nil_iff.not.mpr nonempty), text]
        simp [Element.whole, Json.dumpArray]
        rfl
      · rw [List.map_cons, Json.printedArray, Json.equalsArray, equal, equals]
        rfl

theorem dumpObject_members {levels : Nat} {entry : Bytes × Json} {entries : List (Bytes × Json)}
    (each : ∀ other ∈ entry :: entries, Reads levels other.2) {before : Bytes}
    (blank : Blank before) :
    ∃ members : List Member, members ≠ [] ∧
      (∀ member ∈ members, IsJson levels member.element.text member.element.value) ∧
      (∀ member ∈ members,
        Blank member.before ∧ Blank member.behind ∧ Blank member.element.behind) ∧
      commaSeparated (members.map Member.whole) = before ++ Json.dumpObject (entry :: entries) ∧
      (members.map Member.assignment).map Prod.fst = (entry :: entries).map Prod.fst ∧
      Json.equalsObject (members.map Member.assignment) (Json.printedObject (entry :: entries)) =
        true := by
  rcases each entry List.mem_cons_self with ⟨result, isJson, equal⟩
  rcases dumpString_items entry.1 with ⟨items, text, key⟩
  have valueJson := isJson.blanks blank_space
  induction entries generalizing entry result before items with
  | nil =>
      refine ⟨[⟨before, items, [], ⟨ascii " " ++ entry.2.dump, [], result⟩⟩],
        List.cons_ne_nil _ _, ?_, ?_, ?_, ?_, ?_⟩
      · exact List.forall_mem_singleton.mpr valueJson
      · exact List.forall_mem_singleton.mpr ⟨blank, blank_nil, blank_nil⟩
      · rw [List.map_singleton, commaSeparated_singleton, Member.whole, text]
        simp [Element.whole, Json.dumpObject]
        rfl
      · simp [Member.assignment, key]
      · simp [Json.printedObject, Json.equalsObject, Member.assignment, equal, key]
  | cons second later induction =>
      have rest := fun other member => each other (List.mem_cons_of_mem entry member)
      rcases rest second List.mem_cons_self with ⟨next, nextJson, nextEqual⟩
      rcases dumpString_items second.1 with ⟨nextItems, nextText, nextKey⟩
      rcases induction rest blank_space next nextJson nextEqual nextItems nextText nextKey
        (nextJson.blanks blank_space) with ⟨members, nonempty, texts, blanked, whole, keys, equals⟩
      refine ⟨⟨before, items, [], ⟨ascii " " ++ entry.2.dump, [], result⟩⟩ :: members,
        List.cons_ne_nil _ _, ?_, ?_, ?_, ?_, ?_⟩
      · exact List.forall_mem_cons.mpr ⟨valueJson, texts⟩
      · exact List.forall_mem_cons.mpr ⟨⟨blank, blank_nil, blank_nil⟩, blanked⟩
      · rw [List.map_cons, commaSeparated_cons _ (List.map_eq_nil_iff.not.mpr nonempty), whole,
          Member.whole, text]
        simp [Element.whole, Json.dumpObject]
        rfl
      · rw [List.map_cons, List.map_cons, keys, Member.assignment, key]
        rfl
      · rw [List.map_cons, Json.printedObject, Member.assignment, key, Json.equalsObject, equal,
          equals]
        simp

theorem sorted_of_keys {first second : List (Bytes × Json)}
    (same : first.map Prod.fst = second.map Prod.fst) (sorted : SortedMap.Sorted second) :
    SortedMap.Sorted first := by
  have keys := List.pairwise_map.mpr sorted
  rw [← same] at keys
  exact List.pairwise_map.mp keys

theorem Fits.reads {levels : Nat} {value : Json} (fits : Fits levels value) :
    Reads levels value := by
  induction fits with
  | null => exact ⟨.null, @IsJson.null _ [] blank_nil, rfl⟩
  | bool value =>
      refine ⟨.bool value, ?_, ?_⟩
      · rw [Json.dump]
        exact @IsJson.bool _ [] blank_nil value
      · simp [Json.printed, Json.equals]
  | double value =>
      cases value with
      | finite negative magnitude =>
          exact reads_number (Json.dump.eq_3 (.finite negative magnitude))
            (doubleText_token negative magnitude) (fun _ => doubleText_chars) rfl
            (readDecimal_doubleText negative magnitude)
            (Double.value?_ofRat_rounded negative magnitude) rfl
      | infinite negative => exact ⟨.null, @IsJson.null _ [] blank_nil, rfl⟩
      | nan => exact ⟨.null, @IsJson.null _ [] blank_nil, rfl⟩
  | int value =>
      have read := readDecimal_intText_append value.toInt stops_nil
      have bounds := And.intro value.le_toInt value.toInt_lt
      have word : (Double.ofRat value.toInt).value?.isSome = true :=
        Double.value?_ofRat_isSome (by omega)
      rw [List.append_nil] at read
      exact reads_number (Json.dump.eq_4 value) (intText_token value.toInt)
        (fun _ => intText_chars) rfl read (Option.some_get word).symm (Option.some_get word).symm
  | uint64 value =>
      have read := readDecimal_intText_append value.toNat stops_nil
      have below := value.toNat_lt
      have word : (Double.ofRat value.toNat).value?.isSome = true :=
        Double.value?_ofRat_isSome (show (value.toNat : Int).natAbs < 2 ^ 64 by omega)
      rw [List.append_nil] at read
      exact reads_number (Json.dump.eq_5 value) (intText_token value.toNat)
        (fun _ => natText_chars) rfl read (Option.some_get word).symm (Option.some_get word).symm
  | string value =>
      rcases dumpString_items value with ⟨items, text, same⟩
      refine ⟨.string value, ?_, ?_⟩
      · rw [Json.dump, ← text, ← same]
        exact @IsJson.string _ [] blank_nil items
      · simp [Json.printed, Json.equals]
  | @array levels values each induction =>
      cases values with
      | nil => exact ⟨.array [], @IsJson.emptyArray _ [] [] blank_nil blank_nil, rfl⟩
      | cons value values =>
          rcases dumpArray_elements induction blank_nil with
            ⟨elements, nonempty, texts, blanked, text, equals⟩
          refine ⟨.array (elements.map Element.value), ?_, equals⟩
          have dumped : (Json.array (value :: values)).dump =
              [] ++ 0x5b :: (commaSeparated (elements.map Element.whole) ++ [0x5d]) := by
            rw [text, Json.dump]
            rfl
          rw [dumped]
          exact .array blank_nil nonempty texts blanked
  | @object levels values sorted each induction =>
      cases values with
      | nil => exact ⟨.object [], @IsJson.emptyObject _ [] [] blank_nil blank_nil, rfl⟩
      | cons entry entries =>
          rcases dumpObject_members induction blank_nil with
            ⟨members, nonempty, texts, blanked, text, keys, equals⟩
          have ordered := SortedMap.ofAssignments_of_sorted (sorted_of_keys keys sorted)
          refine ⟨.object (SortedMap.ofAssignments (members.map Member.assignment)), ?_, ?_⟩
          · have dumped : (Json.object (entry :: entries)).dump =
                [] ++ 0x7b :: (commaSeparated (members.map Member.whole) ++ [0x7d]) := by
              rw [text, Json.dump]
              rfl
            rw [dumped]
            exact .object blank_nil nonempty texts blanked
          · rw [ordered]
            exact equals

theorem IsJson.fits {levels : Nat} {text : Bytes} {value : Json}
    (isJson : IsJson levels text value) : Fits levels value := by
  induction isJson with
  | null blank => exact .null
  | bool blank value => exact .bool value
  | number blank token =>
      unfold NumberToken.value
      split
      · exact .int _
      · exact .double _
  | string blank items => exact .string _
  | emptyArray blank empty => exact .array (List.forall_mem_nil _)
  | array blank nonempty texts blanked induction =>
      refine .array fun value member => ?_
      rcases List.mem_map.mp member with ⟨element, inside, rfl⟩
      exact induction element inside
  | emptyObject blank empty => exact .object List.Pairwise.nil (List.forall_mem_nil _)
  | object blank nonempty texts blanked induction =>
      refine .object (SortedMap.sorted_ofAssignments _) fun entry stored => ?_
      rcases List.mem_map.mp (SortedMap.mem_ofAssignments stored) with ⟨member, inside, rfl⟩
      exact induction member inside

theorem parse_dump {value : Json} (fits : Fits (maxDepth + 1) value) :
    ∃ result, parse value.dump = .ok result ∧ Json.equals result value.printed = true := by
  rcases fits.reads with ⟨result, isJson, equals⟩
  exact ⟨result, parse_eq_ok_iff.mpr ⟨_, [], (List.append_nil _).symm, isJson, blank_nil⟩, equals⟩

/-! ## Deeper values -/

theorem IsJson.succ {levels : Nat} {text : Bytes} {value : Json}
    (isJson : IsJson levels text value) : IsJson (levels + 1) text value := by
  induction isJson with
  | null blank => exact .null blank
  | bool blank value => exact .bool blank value
  | number blank token => exact .number blank token
  | string blank items => exact .string blank items
  | emptyArray blank empty => exact .emptyArray blank empty
  | array blank nonempty texts blanked induction => exact .array blank nonempty induction blanked
  | emptyObject blank empty => exact .emptyObject blank empty
  | object blank nonempty texts blanked induction => exact .object blank nonempty induction blanked

theorem IsJson.of_le {levels more : Nat} {text : Bytes} {value : Json}
    (isJson : IsJson levels text value) (more_le : levels ≤ more) : IsJson more text value := by
  induction more_le with
  | refl => exact isJson
  | step _ induction => exact induction.succ

theorem exists_equal_element {results values : List Json}
    (equals : Json.equalsArray results values = true) {value : Json}
    (member : value ∈ values) : ∃ result ∈ results, Json.equals result value = true := by
  induction values generalizing results with
  | nil => cases member
  | cons first later induction =>
      cases results with
      | nil => cases equals
      | cons result rest =>
          rw [Json.equalsArray, Bool.and_eq_true] at equals
          rcases List.mem_cons.mp member with rfl | behind
          · exact ⟨result, List.mem_cons_self, equals.1⟩
          · rcases induction equals.2 behind with ⟨other, inside, equal⟩
            exact ⟨other, List.mem_cons_of_mem result inside, equal⟩

theorem exists_equal_entry {results values : List (Bytes × Json)}
    (equals : Json.equalsObject results values = true) {entry : Bytes × Json}
    (member : entry ∈ values) :
    ∃ result ∈ results, Json.equals result.2 entry.2 = true := by
  induction values generalizing results with
  | nil => cases member
  | cons first later induction =>
      cases results with
      | nil => cases equals
      | cons result rest =>
          rw [Json.equalsObject, Bool.and_eq_true, Bool.and_eq_true] at equals
          rcases List.mem_cons.mp member with rfl | behind
          · exact ⟨result, List.mem_cons_self, equals.1.2⟩
          · rcases induction equals.2 behind with ⟨other, inside, equal⟩
            exact ⟨other, List.mem_cons_of_mem result inside, equal⟩

theorem Fits.of_equals {levels more : Nat} {value : Json} (fits : Fits more value) {result : Json}
    (equals : Json.equals result value = true) (resultFits : Fits levels result) :
    Fits levels value := by
  induction fits generalizing levels result with
  | null => cases resultFits <;> exact .null
  | bool value => cases resultFits <;> exact .bool value
  | double value => cases resultFits <;> exact .double value
  | int value => cases resultFits <;> exact .int value
  | uint64 value => cases resultFits <;> exact .uint64 value
  | string value => cases resultFits <;> exact .string value
  | @array more values each induction =>
      cases resultFits with
      | @array levels results resultEach =>
          refine .array fun value member => ?_
          rcases exists_equal_element equals member with ⟨result, inside, equal⟩
          exact induction value member equal (resultEach result inside)
      | null => cases equals
      | bool value => cases equals
      | double value => cases equals
      | int value => cases equals
      | uint64 value => cases equals
      | string value => cases equals
      | object sorted each => cases equals
  | @object more values sorted each induction =>
      cases resultFits with
      | @object levels results resultSorted resultEach =>
          refine .object sorted fun entry member => ?_
          rcases exists_equal_entry equals member with ⟨result, inside, equal⟩
          exact induction entry member equal (resultEach result inside)
      | null => cases equals
      | bool value => cases equals
      | double value => cases equals
      | int value => cases equals
      | uint64 value => cases equals
      | string value => cases equals
      | array each => cases equals

/-! ## Numbers that are not finite -/

theorem printedArray_of_isFinite {values : List Json}
    (each : ∀ value ∈ values, value.isFinite = true → value.printed = value)
    (finite : Json.isFiniteArray values = true) : Json.printedArray values = values := by
  induction values with
  | nil => rfl
  | cons value rest induction =>
      rw [Json.isFiniteArray, Bool.and_eq_true] at finite
      rw [Json.printedArray, each value List.mem_cons_self finite.1,
        induction (fun other member => each other (List.mem_cons_of_mem value member)) finite.2]

theorem printedObject_of_isFinite {entries : List (Bytes × Json)}
    (each : ∀ entry ∈ entries, entry.2.isFinite = true → entry.2.printed = entry.2)
    (finite : Json.isFiniteObject entries = true) : Json.printedObject entries = entries := by
  induction entries with
  | nil => rfl
  | cons entry rest induction =>
      rw [Json.isFiniteObject, Bool.and_eq_true] at finite
      rw [Json.printedObject, each entry List.mem_cons_self finite.1,
        induction (fun other member => each other (List.mem_cons_of_mem entry member)) finite.2]

theorem Fits.printed_of_isFinite {levels : Nat} {value : Json} (fits : Fits levels value)
    (finite : value.isFinite = true) : value.printed = value := by
  induction fits with
  | double value => exact if_pos finite
  | array each induction => exact congrArg _ (printedArray_of_isFinite induction finite)
  | object sorted each induction => exact congrArg _ (printedObject_of_isFinite induction finite)
  | _ => rfl

theorem isFiniteArray_of_equals {values : List Json}
    (each : ∀ value ∈ values, ∀ result : Json, Json.equals result value.printed = true →
      Json.equals result value = true → value.isFinite = true) {results : List Json}
    (printed : Json.equalsArray results (Json.printedArray values) = true)
    (equals : Json.equalsArray results values = true) : Json.isFiniteArray values = true := by
  induction values generalizing results with
  | nil => rfl
  | cons value rest induction =>
      cases results with
      | nil => cases equals
      | cons result others =>
          rw [Json.printedArray, Json.equalsArray, Bool.and_eq_true] at printed
          rw [Json.equalsArray, Bool.and_eq_true] at equals
          rw [Json.isFiniteArray, each value List.mem_cons_self result printed.1 equals.1,
            induction (fun other member => each other (List.mem_cons_of_mem value member)) printed.2
              equals.2]
          rfl

theorem isFiniteObject_of_equals {entries : List (Bytes × Json)}
    (each : ∀ entry ∈ entries, ∀ result : Json, Json.equals result entry.2.printed = true →
      Json.equals result entry.2 = true → entry.2.isFinite = true) {results : List (Bytes × Json)}
    (printed : Json.equalsObject results (Json.printedObject entries) = true)
    (equals : Json.equalsObject results entries = true) : Json.isFiniteObject entries = true := by
  induction entries generalizing results with
  | nil => rfl
  | cons entry rest induction =>
      cases results with
      | nil => cases equals
      | cons result others =>
          rw [Json.printedObject, Json.equalsObject, Bool.and_eq_true, Bool.and_eq_true] at printed
          rw [Json.equalsObject, Bool.and_eq_true, Bool.and_eq_true] at equals
          rw [Json.isFiniteObject, each entry List.mem_cons_self result.2 printed.1.2 equals.1.2,
            induction (fun other member => each other (List.mem_cons_of_mem entry member)) printed.2
              equals.2]
          rfl

theorem Fits.isFinite_of_equals {levels : Nat} {value : Json} (fits : Fits levels value)
    {result : Json} (printed : Json.equals result value.printed = true)
    (equals : Json.equals result value = true) : value.isFinite = true := by
  induction fits generalizing result with
  | double value =>
      cases finite : value.isFinite with
      | true => exact finite
      | false =>
          have null : (Json.double value).printed = .null := if_neg (by simp [finite])
          rw [null] at printed
          cases result with
          | null => cases equals
          | _ => cases printed
  | @array levels values each induction =>
      cases result with
      | array results =>
          exact isFiniteArray_of_equals (fun value member result => induction value member)
            printed equals
      | _ => cases printed
  | @object levels entries sorted each induction =>
      cases result with
      | object results =>
          exact isFiniteObject_of_equals (fun entry member result => induction entry member)
            printed equals
      | _ => cases printed
  | _ => rfl

/-- A printed value is read back exactly if it is nested as deeply as the parser allows and all
its doubles are finite. -/
theorem parse_dump_iff {levels : Nat} {value : Json} (fits : Fits levels value) :
    (∃ result, parse value.dump = .ok result ∧ Json.equals result value = true) ↔
      Fits (maxDepth + 1) value ∧ value.isFinite = true := by
  constructor
  · rintro ⟨result, read, equals⟩
    rcases parse_eq_ok_iff.mp read with ⟨inside, behind, _, isJson, _⟩
    have shallow := fits.of_equals equals isJson.fits
    rcases parse_dump shallow with ⟨other, again, printed⟩
    cases read.symm.trans again
    exact ⟨shallow, fits.isFinite_of_equals printed equals⟩
  · rintro ⟨shallow, finite⟩
    have back := parse_dump shallow
    rwa [fits.printed_of_isFinite finite] at back

theorem parse_dump_iff_list :
    (∃ result, parse (Json.array [.array [], .double (.ofRat (1 / 3))]).dump = .ok result ∧
      Json.equals result (.array [.array [], .double (.ofRat (1 / 3))]) = true) ↔
      Fits (maxDepth + 1) (.array [.array [], .double (.ofRat (1 / 3))]) ∧
        (Json.array [.array [], .double (.ofRat (1 / 3))]).isFinite = true := by
  have inner : Fits 2 (.array []) := .array (List.forall_mem_nil _)
  have fits : Fits 3 (.array [.array [], .double (.ofRat (1 / 3))]) :=
    .array (List.forall_mem_cons.mpr ⟨inner, List.forall_mem_singleton.mpr (.double _)⟩)
  exact parse_dump_iff fits

/-- What was read can always be printed again. It is read from that as it was, exactly if no
number of the text was too large for a double. -/
theorem parse_reserialized {text : Bytes} {value : Json} (read : parse text = .ok value) :
    ∃ result, parse value.dump = .ok result ∧ Json.equals result value.printed = true ∧
      (Json.equals result value = true ↔ value.isFinite = true) := by
  rcases parse_eq_ok_iff.mp read with ⟨inside, behind, _, isJson, _⟩
  rcases parse_dump isJson.fits with ⟨result, again, printed⟩
  refine ⟨result, again, printed, isJson.fits.isFinite_of_equals printed, ?_⟩
  intro finite
  rwa [isJson.fits.printed_of_isFinite finite] at printed

def overflowText : Bytes :=
  ascii "\x7b\"lat\": [1e400, -0.5], \"\\u0041\\n\": \x7b\"lon\": 7.66\x7d\x7d"

theorem parse_reserialized_overflow : ∃ value, parse overflowText = .ok value ∧
    value.isFinite = false ∧
    ∃ result, parse value.dump = .ok result ∧ Json.equals result value.printed = true ∧
      (Json.equals result value = true ↔ value.isFinite = true) := by
  have infinite : ((parse overflowText).toOption.map Json.isFinite) = some false := by
    decide +kernel
  cases read : parse overflowText with
  | error failure =>
      rw [read] at infinite
      cases infinite
  | ok value =>
      rw [read] at infinite
      exact ⟨value, rfl, Option.some_inj.mp infinite, parse_reserialized read⟩

end AIM.Json11
