import AIM.Json11.Acceptance

namespace AIM.Json11

open Binary64 Decimal

/-! # Printed values

What `dump` writes is in the grammar: the strings and numbers are tokens, and the lists are
the lists of them. -/

/-! ## Strings -/

theorem stringValue_byte {item : StringItem} {ch : UInt8} (unit : item.unit = .byte ch)
    (items : List StringItem) : stringValue (item :: items) = ch :: stringValue items := by
  rw [stringValue, List.map_cons, unit, unitsValue]
  rfl

theorem stringValue_code {item : StringItem} {codepoint : Nat} (unit : item.unit = .code codepoint)
    (noLead : codepoint < 0xd800 ∨ 0xdbff < codepoint) (items : List StringItem) :
    stringValue (item :: items) = encodeUtf8 codepoint ++ stringValue items := by
  have noPair : ∀ trail, ¬IsPair codepoint trail := by
    intro trail pair
    rcases pair with ⟨lead, _⟩
    omega
  rw [stringValue, List.map_cons, unit, stringValue]
  cases items.map StringItem.unit with
  | nil => simp [unitsValue]
  | cons second later =>
      cases second with
      | byte ch => simp [unitsValue]
      | code trail => rw [unitsValue, if_neg (noPair trail)]

theorem control_code {ch : UInt8} (control : ch ≤ 0x1f) :
    (Json.hexText ch.toNat).all isHexDigit = true ∧
      hexNumber (Json.hexText ch.toNat) = ch.toNat ∧ encodeUtf8 ch.toNat = [ch] := by
  have all : ∀ number < 32, (Json.hexText number).all isHexDigit = true ∧
      hexNumber (Json.hexText number) = number ∧
      encodeUtf8 number = [UInt8.ofNat number] := by decide +kernel
  have below : ch.toNat < 32 := Nat.lt_succ_of_le (UInt8.le_iff_toNat_le.mp control)
  have code := all ch.toNat below
  rwa [UInt8.ofNat_toNat] at code

/-- The text is the characters of a string between its quotes. -/
def Spells (text value : Bytes) : Prop :=
  ∃ items : List StringItem, items.flatMap StringItem.text = text ∧ stringValue items = value

namespace Spells

variable {text value : Bytes}

theorem plain (spells : Spells text value) {ch : UInt8} (visible : ¬ch ≤ 0x1f)
    (notQuote : ¬ch = Json.quote) (notBackslash : ¬ch = Json.backslash) :
    Spells (ch :: text) (ch :: value) := by
  rcases spells with ⟨items, rfl, rfl⟩
  exact ⟨.plain ch ⟨UInt8.not_le.mp visible, notQuote, notBackslash⟩ :: items, rfl,
    stringValue_byte rfl items⟩

theorem letter (spells : Spells text value) {escape ch : UInt8}
    (escapes : unescaped escape = some ch) :
    Spells (Json.backslash :: escape :: text) (ch :: value) := by
  rcases spells with ⟨items, rfl, rfl⟩
  exact ⟨.letter escape ch escapes :: items, rfl, stringValue_byte rfl items⟩

theorem code (spells : Spells text value) {digits : Bytes} (length : digits.length = 4)
    (hex : digits.all isHexDigit = true) (below : hexNumber digits < 0xd800) :
    Spells (ascii "\\u" ++ digits ++ text) (encodeUtf8 (hexNumber digits) ++ value) := by
  rcases spells with ⟨items, rfl, rfl⟩
  exact ⟨.code digits length hex :: items, rfl, stringValue_code rfl (.inl below) items⟩

end Spells

theorem spells_dumpChars (value : Bytes) : Spells (Json.dumpChars value) value := by
  fun_induction Json.dumpChars value with
  | case1 => exact ⟨[], rfl, rfl⟩
  | case2 rest induction => exact induction.letter rfl
  | case3 rest _ induction => exact induction.letter rfl
  | case4 rest _ _ induction => exact induction.letter rfl
  | case5 rest _ _ _ induction => exact induction.letter rfl
  | case6 rest _ _ _ _ induction => exact induction.letter rfl
  | case7 rest _ _ _ _ _ induction => exact induction.letter rfl
  | case8 rest _ _ _ _ _ _ induction => exact induction.letter rfl
  | case9 ch rest _ _ _ _ _ _ _ control induction =>
      rcases control_code control with ⟨hex, number, encoded⟩
      have below : ch.toNat < 0xd800 := lt_trans ch.toNat_lt (by decide)
      have spelled := induction.code rfl hex (lt_of_eq_of_lt number below)
      rwa [number, encoded] at spelled
  | case10 ch _ _ _ _ _ _ _ _ second third later bytes induction =>
      rcases bytes with ⟨rfl, rfl, rfl⟩
      exact @Spells.code _ _ induction (ascii "2028") rfl rfl (by decide)
  | case11 ch _ _ _ _ _ _ _ _ second third later _ bytes induction =>
      rcases bytes with ⟨rfl, rfl, rfl⟩
      exact @Spells.code _ _ induction (ascii "2029") rfl rfl (by decide)
  | case12 ch notBackslash notQuote _ _ _ _ _ visible second third later _ _ induction =>
      exact induction.plain visible notQuote notBackslash
  | case13 ch notBackslash notQuote _ _ _ _ _ visible second induction =>
      exact induction.plain visible notQuote notBackslash
  | case14 ch notBackslash notQuote _ _ _ _ _ visible =>
      exact Spells.plain ⟨[], rfl, rfl⟩ visible notQuote notBackslash

theorem dumpString_items (value : Bytes) :
    ∃ items, stringText items = Json.dumpString value ∧ stringValue items = value := by
  rcases spells_dumpChars value with ⟨items, text, same⟩
  exact ⟨items, by rw [stringText, text, Json.dumpString], same⟩

/-! ## Numbers -/

theorem charOf_byteOf {char : Char} (oneByte : char.toNat < 256) : charOf (byteOf char) = char := by
  have same : (byteOf char).toNat = char.toNat := by
    change (UInt8.ofNat char.toNat).toNat = char.toNat
    rw [UInt8.toNat_ofNat', Nat.mod_eq_of_lt oneByte]
  apply Char.toNat_inj.mp
  rw [charOf_toNat, same]

theorem oneByte_of_isDigit {char : Char} (digit : char.isDigit = true) : char.toNat < 256 :=
  lt_of_le_of_lt (Char.isDigit_iff_toNat.mp digit).2 (by decide)

theorem bytesOf_append (first second : Text) :
    bytesOf (first ++ second) = bytesOf first ++ bytesOf second := List.map_append

theorem isDigits_bytesOf {digits : Text} (nonempty : digits ≠ []) (all : Digits digits) :
    IsDigits (bytesOf digits) := by
  refine ⟨List.map_eq_nil_iff.not.mpr nonempty, List.all_eq_true.mpr fun ch member => ?_⟩
  rcases List.mem_map.mp member with ⟨char, inside, rfl⟩
  have digit := all char inside
  rw [← isDigit_charOf, charOf_byteOf (oneByte_of_isDigit digit)]
  exact digit

theorem natText_zero_first (number : Nat) {later : Text} (starts : natText number = '0' :: later) :
    number = 0 := by
  induction number using Nat.strong_induction_on generalizing later with
  | _ number induction =>
      rcases Nat.lt_or_ge number 10 with small | large
      · have onlyZero : ∀ digit < 10, digit.digitChar = '0' → digit = 0 := by decide
        rw [natText, Nat.toDigits_of_lt_base small] at starts
        exact onlyZero number small (List.cons.inj starts).1
      · rw [natText, Nat.toDigits_of_base_le (by decide) large] at starts
        rcases List.exists_cons_of_ne_nil (natText_ne_nil (number / 10)) with ⟨first, rest, digits⟩
        rw [← natText, digits] at starts
        have isZero : first = '0' := (List.cons.inj starts).1
        have quotient := induction (number / 10) (by omega) (isZero ▸ digits)
        omega

theorem isInteger_natText (number : Nat) : IsInteger (bytesOf (natText number)) := by
  refine ⟨isDigits_bytesOf (natText_ne_nil number) (digits_natText number), ?_⟩
  intro zero
  rcases List.exists_cons_of_ne_nil (natText_ne_nil number) with ⟨first, later, digits⟩
  have digit : first.isDigit = true := digits_natText number first (digits ▸ List.mem_cons_self)
  rw [digits] at zero
  have isZero : first = '0' := by
    rw [← charOf_byteOf (oneByte_of_isDigit digit), show byteOf first = 0x30 from zero]
    rfl
  rw [natText_zero_first number (isZero ▸ digits)]
  rfl

theorem withDecimals_token (decimals number : Nat) (negative : Bool)
    {exponent : Option (Bytes × Bytes)}
    (marks : ∀ mark ∈ exponent, mark.1 ∈ exponentMarks ∧ IsDigits mark.2) :
    ∃ token : NumberToken, token.text = NumberToken.signText negative ++
      (bytesOf (withDecimals decimals number) ++ NumberToken.exponentText exponent) := by
  unfold withDecimals
  dsimp only
  split
  · exact ⟨⟨negative, _, none, exponent, isInteger_natText _, forall_mem_none, marks⟩, rfl⟩
  · next nonempty =>
      generalize kept : List.rdropWhile (· == '0')
        (List.leftpad decimals '0' (natText (number % 10 ^ decimals))) = fraction at nonempty ⊢
      have all : Digits fraction := fun char member =>
        digits_leftpad _ _ char ((List.rdropWhile_prefix _ _).subset (kept ▸ member))
      refine ⟨⟨negative, _, some (bytesOf fraction), exponent,
        isInteger_natText (number / 10 ^ decimals), ?_, marks⟩, ?_⟩
      · intro digits same
        cases same
        exact isDigits_bytesOf nonempty all
      · rw [bytesOf_append, List.append_assoc]
        rfl

theorem positiveText_token (precision : Nat) (value : ℚ) (negative : Bool) :
    ∃ token : NumberToken, token.text =
      NumberToken.signText negative ++ bytesOf (positiveText precision value) := by
  unfold positiveText
  dsimp only
  split
  · rcases withDecimals_token ((precision : Int) - 1 - (significand precision value).2).toNat
      (significand precision value).1 negative
      (show ∀ mark ∈ (none : Option (Bytes × Bytes)), mark.1 ∈ exponentMarks ∧ IsDigits mark.2 from
        forall_mem_none) with ⟨token, text⟩
    exact ⟨token, by rw [text]; simp [NumberToken.exponentText]⟩
  · generalize (significand precision value).2 = exponent
    have marks : ∀ mark ∈ (some (if exponent < 0 then ascii "e-" else ascii "e+",
        bytesOf (List.leftpad 2 '0' (natText exponent.natAbs))) : Option (Bytes × Bytes)),
        mark.1 ∈ exponentMarks ∧ IsDigits mark.2 := by
      intro mark same
      cases same
      refine ⟨?_, isDigits_bytesOf (leftpad_ne_nil _ _) (digits_leftpad _ _)⟩
      change (if exponent < 0 then ascii "e-" else ascii "e+") ∈ exponentMarks
      split <;> decide
    rcases withDecimals_token (precision - 1) (significand precision value).1 negative marks with
      ⟨token, text⟩
    refine ⟨token, text.trans ?_⟩
    rw [bytesOf_append, NumberToken.exponentText, Decimal.exponentText]
    split <;> rfl

theorem doubleText_token (negative : Bool) (magnitude : Magnitude) :
    ∃ token : NumberToken, token.text = bytesOf (Json.doubleText negative magnitude) := by
  have sign : bytesOf (if negative then ['-'] else []) = NumberToken.signText negative := by
    cases negative with
    | false => rfl
    | true => rfl
  rw [Json.doubleText, bytesOf_append, sign, generalText]
  split
  · exact ⟨⟨negative, _, none, none, isInteger_natText 0, forall_mem_none, forall_mem_none⟩,
      congrArg _ (List.append_nil _)⟩
  · rw [if_neg magnitude.nonneg.not_gt]
    exact positiveText_token 17 magnitude.value negative

theorem intText_token (value : Int) :
    ∃ token : NumberToken, token.text = bytesOf (intText value) := by
  have token : ∀ (negative : Bool) (number : Nat), ∃ token : NumberToken,
      token.text = NumberToken.signText negative ++ bytesOf (natText number) := by
    intro negative number
    exact ⟨⟨negative, _, none, none, isInteger_natText number, forall_mem_none, forall_mem_none⟩,
      congrArg _ (List.append_nil _)⟩
  cases value with
  | ofNat number => exact token false number
  | negSucc number => exact token true (number + 1)

end AIM.Json11
