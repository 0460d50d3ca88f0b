import AIM.Json11.Printing

namespace AIM.Json11

/-! # Escaped characters

Every character can be written as an escape sequence of its code point, and the characters
beyond the basic plane as a surrogate pair. The parser turns them into UTF-8. -/

def hexDigit (upper : Bool) (digit : Nat) : UInt8 :=
  byteOf ((if upper then "0123456789ABCDEF" else "0123456789abcdef").toList.getD digit '0')

def hexDigits (upper : Nat → Bool) (unit : Nat) : Bytes :=
  [hexDigit (upper 0) (unit / 4096 % 16), hexDigit (upper 1) (unit / 256 % 16),
    hexDigit (upper 2) (unit / 16 % 16), hexDigit (upper 3) (unit % 16)]

/-- `\\u` and four hexadecimal digits. -/
def escapeUnit (upper : Nat → Bool) (unit : Nat) : Bytes :=
  Json.backslash :: 0x75 :: hexDigits upper unit

/-- The escape sequences of a character, as in UTF-16. -/
def escapeChar (upper : Nat → Bool) (char : Char) : Bytes :=
  if char.toNat < 0x10000 then escapeUnit upper char.toNat
  else escapeUnit upper (0xd800 + (char.toNat - 0x10000) / 0x400) ++
    escapeUnit (fun digit => upper (digit + 4)) (0xdc00 + (char.toNat - 0x10000) % 0x400)

theorem isHexDigit_hexDigit (upper : Bool) {digit : Nat} (small : digit < 16) :
    isHexDigit (hexDigit upper digit) = true := by
  have all : ∀ upper : Bool, ∀ digit < 16, isHexDigit (hexDigit upper digit) = true := by
    decide +kernel
  exact all upper digit small

theorem hexValue_hexDigit (upper : Bool) {digit : Nat} (small : digit < 16) :
    hexValue (hexDigit upper digit) = digit := by
  have all : ∀ upper : Bool, ∀ digit < 16, hexValue (hexDigit upper digit) = digit := by
    decide +kernel
  exact all upper digit small

theorem all_hexDigits (upper : Nat → Bool) (unit : Nat) :
    (hexDigits upper unit).all isHexDigit = true := by
  simp [hexDigits, isHexDigit_hexDigit, Nat.mod_lt]

theorem hexNumber_hexDigits (upper : Nat → Bool) {unit : Nat} (short : unit < 0x10000) :
    hexNumber (hexDigits upper unit) = unit := by
  simp only [hexDigits, hexNumber, List.foldl_cons, List.foldl_nil]
  rw [hexValue_hexDigit _ (Nat.mod_lt _ (by decide)),
    hexValue_hexDigit _ (Nat.mod_lt _ (by decide)),
    hexValue_hexDigit _ (Nat.mod_lt _ (by decide)), hexValue_hexDigit _ (Nat.mod_lt _ (by decide))]
  omega

theorem or_marker {low bits : Nat} (short : low < 2 ^ bits) (high : Nat) :
    low ||| high * 2 ^ bits = low + high * 2 ^ bits := by
  rw [Nat.or_comm, ← Nat.shiftLeft_eq, shiftLeft_or high short, Nat.add_comm, Nat.shiftLeft_eq]

theorem continuation (number : Nat) : number &&& 0x3f ||| 0x80 = number % 64 + 0x80 := by
  have sextet : number &&& 0x3f = number % 64 := Nat.and_two_pow_sub_one_eq_mod number 6
  rw [sextet]
  exact @or_marker (number % 64) 6 (Nat.mod_lt _ (by decide)) 2

theorem toNat_lt (char : Char) : char.toNat < 0x110000 := by
  rcases char.valid with low | high
  · exact lt_trans low (by decide)
  · exact high.2

theorem encodeUtf8_toNat (char : Char) :
    encodeUtf8 (char.toNat : Int) = String.utf8EncodeChar char := by
  have most := toNat_lt char
  unfold encodeUtf8 String.utf8EncodeChar
  rw [if_neg (Int.not_lt.mpr (Int.natCast_nonneg _)), Int.toNat_natCast]
  dsimp only
  rw [continuation, continuation, continuation, Nat.shiftRight_eq_div_pow,
    Nat.shiftRight_eq_div_pow, Nat.shiftRight_eq_div_pow]
  change _ = (if char.toNat ≤ 0x7f then [UInt8.ofNat char.toNat]
    else if char.toNat ≤ 0x7ff then [UInt8.ofNat (char.toNat / 64 % 0x20 + 0xc0),
      UInt8.ofNat (char.toNat % 0x40 + 0x80)]
    else if char.toNat ≤ 0xffff then [UInt8.ofNat (char.toNat / 4096 % 0x10 + 0xe0),
      UInt8.ofNat (char.toNat / 64 % 0x40 + 0x80), UInt8.ofNat (char.toNat % 0x40 + 0x80)]
    else [UInt8.ofNat (char.toNat / 262144 % 0x08 + 0xf0),
      UInt8.ofNat (char.toNat / 4096 % 0x40 + 0x80), UInt8.ofNat (char.toNat / 64 % 0x40 + 0x80),
      UInt8.ofNat (char.toNat % 0x40 + 0x80)])
  generalize char.toNat = number at most ⊢
  rcases Nat.lt_or_ge number 0x80 with one | more
  · rw [if_pos one, if_pos (by omega)]
  rcases Nat.lt_or_ge number 0x800 with two | more
  · have lead : number / 2 ^ 6 ||| 0xc0 = number / 64 % 0x20 + 0xc0 := by
      rw [Nat.mod_eq_of_lt (by omega)]
      exact @or_marker (number / 64) 5 (by omega) 6
    rw [if_neg (by omega), if_pos two, if_neg (by omega), if_pos (by omega), lead]
  rcases Nat.lt_or_ge number 0x10000 with three | more
  · have lead : number / 2 ^ 12 ||| 0xe0 = number / 4096 % 0x10 + 0xe0 := by
      rw [Nat.mod_eq_of_lt (by omega)]
      exact @or_marker (number / 4096) 4 (by omega) 14
    rw [if_neg (by omega), if_neg (by omega), if_pos three, if_neg (by omega), if_neg (by omega),
      if_pos (by omega), lead]
  · have lead : number / 2 ^ 18 ||| 0xf0 = number / 262144 % 0x08 + 0xf0 := by
      rw [Nat.mod_eq_of_lt (by omega)]
      exact @or_marker (number / 262144) 3 (by omega) 30
    rw [if_neg (by omega), if_neg (by omega), if_neg (by omega), if_neg (by omega),
      if_neg (by omega), if_neg (by omega), lead]

theorem escapeChar_items (upper : Nat → Bool) (char : Char) (items : List StringItem) :
    ∃ escaped : List StringItem, escaped.flatMap StringItem.text = escapeChar upper char ∧
      stringValue (escaped ++ items) = String.utf8EncodeChar char ++ stringValue items := by
  have most := toNat_lt char
  have item : ∀ upper, ∀ unit < 0x10000, ∃ item : StringItem,
      item.text = escapeUnit upper unit ∧ item.unit = .code unit := by
    intro upper unit short
    refine ⟨.code (hexDigits upper unit) rfl (all_hexDigits upper unit), rfl, ?_⟩
    exact congrArg StringUnit.code (hexNumber_hexDigits upper short)
  rw [← encodeUtf8_toNat]
  unfold escapeChar
  split
  · next basic =>
      rcases item upper char.toNat basic with ⟨single, text, unit⟩
      have noLead : char.toNat < 0xd800 ∨ 0xdbff < char.toNat := by
        rcases char.valid with low | high
        · exact .inl low
        · exact .inr (lt_trans (by decide) high.1)
      exact ⟨[single], by rw [List.flatMap_singleton, text], stringValue_code unit noLead items⟩
  · next beyond =>
      rcases item upper (0xd800 + (char.toNat - 0x10000) / 0x400) (by omega) with
        ⟨lead, leadText, leadUnit⟩
      rcases item (fun digit => upper (digit + 4)) (0xdc00 + (char.toNat - 0x10000) % 0x400)
        (by omega) with ⟨trail, trailText, trailUnit⟩
      have pair : IsPair (0xd800 + (char.toNat - 0x10000) / 0x400)
          (0xdc00 + (char.toNat - 0x10000) % 0x400) := by
        unfold IsPair
        omega
      have point : pairPoint (0xd800 + (char.toNat - 0x10000) / 0x400)
          (0xdc00 + (char.toNat - 0x10000) % 0x400) = char.toNat := by
        unfold pairPoint
        omega
      refine ⟨[lead, trail], by simp [leadText, trailText], ?_⟩
      rw [stringValue, List.map_append, List.map_cons, List.map_singleton, leadUnit, trailUnit]
      change unitsValue (.code _ :: .code _ :: items.map StringItem.unit) = _
      rw [unitsValue, if_pos pair, point]
      rfl

/-- Any text whose characters are all escaped, with digits of either case, is read as its UTF-8
encoding. -/
theorem parseString_escaped (chars : List (Char × (Nat → Bool))) (rest : Bytes) :
    parseString [] (-1) ((chars.flatMap fun char => escapeChar char.2 char.1) ++
        Json.quote :: rest) =
      .ok (chars.flatMap fun char => String.utf8EncodeChar char.1, rest) := by
  have items : ∃ items : List StringItem, items.flatMap StringItem.text =
      (chars.flatMap fun char => escapeChar char.2 char.1) ∧
      stringValue items = chars.flatMap fun char => String.utf8EncodeChar char.1 := by
    induction chars with
    | nil => exact ⟨[], rfl, rfl⟩
    | cons char later induction =>
        rcases induction with ⟨items, text, same⟩
        rcases escapeChar_items char.2 char.1 items with ⟨escaped, escapedText, value⟩
        refine ⟨escaped ++ items, ?_, ?_⟩
        · rw [List.flatMap_append, escapedText, text, List.flatMap_cons]
        · rw [value, same, List.flatMap_cons]
  rcases items with ⟨items, text, same⟩
  refine parseString_eq_ok_iff.mpr ⟨items, ?_, same.symm⟩
  rw [← text, stringText]
  simp

end AIM.Json11
