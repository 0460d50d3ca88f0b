import AIM.Foundation.DecimalRoundTrip
import AIM.Json11.Grammar

namespace AIM.Json11

open Decimal

/-! # Reading tokens

What the functions of the parser do on one token, in both directions: a token in front of
something that does not belong to it is read, and what is read is a token. -/

theorem bind_eq_ok {action : Except Failure First} {next : First → Except Failure Second}
    {result : Second} :
    (action >>= next) = .ok result ↔ ∃ value, action = .ok value ∧ next value = .ok result := by
  constructor
  · intro taken
    cases action with
    | error failure => cases taken
    | ok value => exact ⟨value, rfl, taken⟩
  · intro found
    rcases found with ⟨value, rfl, taken⟩
    exact taken

/-! ## Blanks -/

theorem consumeWhitespace_append {blanks : Bytes} (blank : Blank blanks) (rest : Bytes) :
    consumeWhitespace (blanks ++ rest) = consumeWhitespace rest :=
  List.dropWhile_append_of_pos blank

theorem consumeWhitespace_split (text : Bytes) :
    ∃ blanks, text = blanks ++ consumeWhitespace text ∧ Blank blanks :=
  ⟨text.takeWhile isBlank, List.takeWhile_append_dropWhile.symm,
    fun _ member => List.mem_takeWhile_imp member⟩

theorem getNextToken_append {blanks : Bytes} (blank : Blank blanks) {ch : UInt8}
    (visible : isBlank ch = false) (rest : Bytes) :
    getNextToken (blanks ++ ch :: rest) = .ok (ch, rest) := by
  have stops : consumeWhitespace (ch :: rest) = ch :: rest :=
    List.dropWhile_cons_of_neg (Bool.not_eq_true _ ▸ visible)
  rw [getNextToken, consumeWhitespace_append blank, stops]

theorem getNextToken_eq_ok {text : Bytes} {ch : UInt8} {rest : Bytes}
    (read : getNextToken text = .ok (ch, rest)) :
    isBlank ch = false ∧ ∃ blanks, text = blanks ++ ch :: rest ∧ Blank blanks := by
  rcases consumeWhitespace_split text with ⟨blanks, split, blank⟩
  unfold getNextToken at read
  split at read
  · cases read
  · next consumed =>
      cases read
      constructor
      · have stops := List.head?_dropWhile_not isBlank text
        rw [show text.dropWhile isBlank = ch :: rest from consumed] at stops
        simpa using stops
      · rw [consumed] at split
        exact ⟨blanks, split, blank⟩

theorem expect_eq_ok_iff {expected text : Bytes} {res value : Json} {rest : Bytes} :
    expect expected res text = .ok (value, rest) ↔ value = res ∧ text = expected ++ rest := by
  unfold expect
  constructor
  · intro read
    split at read
    · next starts =>
        cases read
        refine ⟨rfl, ?_⟩
        nth_rewrite 1 [← List.take_append_drop expected.length text]
        rw [starts]
    · cases read
  · intro both
    rcases both with ⟨rfl, rfl⟩
    rw [List.take_left, if_pos rfl, List.drop_left]

/-! ## Strings -/

/-- The escape sequence that is not encoded yet. -/
def pendingUnits (last : Int) : List StringUnit := if last < 0 then [] else [.code last.toNat]

theorem unitsValue_pending (last : Int) : unitsValue (pendingUnits last) = encodeUtf8 last := by
  unfold pendingUnits
  split
  · next negative => exact (if_pos negative).symm
  · next nonneg =>
      rw [unitsValue, Int.toNat_of_nonneg (not_lt.mp nonneg)]

theorem unitsValue_pending_byte (last : Int) (ch : UInt8) (units : List StringUnit) :
    unitsValue (pendingUnits last ++ .byte ch :: units) =
      encodeUtf8 last ++ ch :: unitsValue units := by
  unfold pendingUnits
  split
  · next negative =>
      rw [encodeUtf8, if_pos negative]
      rfl
  · next nonneg =>
      rw [List.singleton_append, unitsValue, Int.toNat_of_nonneg (not_lt.mp nonneg)]
      rfl

theorem pendingUnits_natCast (codepoint : Nat) : pendingUnits codepoint = [.code codepoint] :=
  if_neg (not_lt.mpr (Int.natCast_nonneg codepoint))

theorem pendingUnits_negative : pendingUnits (-1) = [] := rfl

theorem shiftLeft_or {low bits : Nat} (high : Nat) (short : low < 2 ^ bits) :
    high <<< bits ||| low = high * 2 ^ bits + low := by
  rw [← Nat.shiftLeft_add_eq_or_of_lt short, Nat.shiftLeft_eq]

theorem pairPoint_eq {lead trail : Nat} (pair : IsPair lead trail) :
    ((((lead : Int) - 0xd800).toNat <<< 10 ||| ((trail : Int) - 0xdc00).toNat : Nat) +
      0x10000 : Int) = pairPoint lead trail := by
  rcases pair with ⟨_, trailLeast, trailMost⟩
  have short : ((trail : Int) - 0xdc00).toNat < 2 ^ 10 := by omega
  rw [shiftLeft_or _ short]
  unfold pairPoint
  omega

theorem unitsValue_pending_code_of_pair {last : Int} {codepoint : Nat}
    (pair : (0xd800 ≤ last ∧ last ≤ 0xdbff) ∧
      0xdc00 ≤ (codepoint : Int) ∧ (codepoint : Int) ≤ 0xdfff)
    (units : List StringUnit) :
    unitsValue (pendingUnits last ++ .code codepoint :: units) =
      encodeUtf8 (((last - 0xd800).toNat <<< 10 ||| ((codepoint : Int) - 0xdc00).toNat : Nat) +
        0x10000) ++ unitsValue units := by
  have nonneg : ¬last < 0 := by omega
  have isPair : IsPair last.toNat codepoint := by
    unfold IsPair
    omega
  have joined := pairPoint_eq isPair
  rw [Int.toNat_of_nonneg (not_lt.mp nonneg)] at joined
  rw [pendingUnits, if_neg nonneg, List.singleton_append, unitsValue, if_pos isPair, joined]

theorem unitsValue_pending_code {last : Int} {codepoint : Nat}
    (noPair : ¬((0xd800 ≤ last ∧ last ≤ 0xdbff) ∧
      0xdc00 ≤ (codepoint : Int) ∧ (codepoint : Int) ≤ 0xdfff))
    (units : List StringUnit) :
    unitsValue (pendingUnits last ++ .code codepoint :: units) =
      encodeUtf8 last ++ unitsValue (.code codepoint :: units) := by
  unfold pendingUnits
  split
  · next negative =>
      rw [encodeUtf8, if_pos negative]
      rfl
  · next nonneg =>
      have notPair : ¬IsPair last.toNat codepoint := by
        unfold IsPair
        omega
      rw [List.singleton_append, unitsValue, if_neg notPair,
        Int.toNat_of_nonneg (not_lt.mp nonneg)]

/-! What `parseString` does with the first character. -/

theorem parseString_quote (out : Bytes) (last : Int) (rest : Bytes) :
    parseString out last (Json.quote :: rest) = .ok (out ++ encodeUtf8 last, rest) := by
  rw [parseString.eq_def]
  exact if_pos rfl

theorem parseString_plain {ch : UInt8}
    (allowed : 0x1f < ch ∧ ch ≠ Json.quote ∧ ch ≠ Json.backslash) (out : Bytes) (last : Int)
    (rest : Bytes) :
    parseString out last (ch :: rest) = parseString (out ++ encodeUtf8 last ++ [ch]) (-1) rest := by
  rcases allowed with ⟨visible, notQuote, notBackslash⟩
  rw [parseString.eq_def]
  dsimp only
  rw [if_neg notQuote, if_neg (UInt8.not_le.mpr visible), if_pos notBackslash]

theorem parseString_letter {escape ch : UInt8} (escapes : unescaped escape = some ch)
    (out : Bytes) (last : Int) (rest : Bytes) :
    parseString out last (Json.backslash :: escape :: rest) =
      parseString (out ++ encodeUtf8 last ++ [ch]) (-1) rest := by
  have notCode : escape ≠ 0x75 := by
    intro code
    rw [code] at escapes
    cases escapes
  rw [parseString.eq_def]
  dsimp only
  rw [if_neg (by decide), if_neg (by decide), if_neg (by decide), if_neg notCode, escapes]

theorem parseString_code {first second third fourth : UInt8}
    (hex : [first, second, third, fourth].all isHexDigit = true) (out : Bytes) (last : Int)
    (rest : Bytes) :
    parseString out last
        (Json.backslash :: 0x75 :: first :: second :: third :: fourth :: rest) =
      if (0xd800 ≤ last ∧ last ≤ 0xdbff) ∧
          0xdc00 ≤ (hexNumber [first, second, third, fourth] : Int) ∧
          (hexNumber [first, second, third, fourth] : Int) ≤ 0xdfff then
        parseString (out ++ encodeUtf8 (((last - 0xd800).toNat <<< 10 |||
          ((hexNumber [first, second, third, fourth] : Int) - 0xdc00).toNat : Nat) + 0x10000))
          (-1) rest
      else
        parseString (out ++ encodeUtf8 last) (hexNumber [first, second, third, fourth]) rest := by
  rw [parseString.eq_def]
  dsimp only
  rw [if_neg (by decide), if_neg (by decide), if_neg (by decide), if_pos rfl, if_pos hex]

theorem parseString_items (items : List StringItem) (out : Bytes) (last : Int) (rest : Bytes) :
    parseString out last (items.flatMap StringItem.text ++ Json.quote :: rest) =
      .ok (out ++ unitsValue (pendingUnits last ++ items.map StringItem.unit), rest) := by
  induction items generalizing out last with
  | nil =>
      rw [List.flatMap_nil, List.nil_append, parseString_quote, List.map_nil, List.append_nil,
        unitsValue_pending]
  | cons item items induction =>
      rw [List.flatMap_cons, List.append_assoc, List.map_cons]
      cases item with
      | plain ch allowed =>
          rw [StringItem.text, StringItem.unit, unitsValue_pending_byte, List.singleton_append,
            parseString_plain allowed, induction]
          simp [pendingUnits_negative]
      | letter escape ch escapes =>
          rw [StringItem.text, StringItem.unit, unitsValue_pending_byte]
          change parseString out last (Json.backslash :: escape :: (_ ++ _)) = _
          rw [parseString_letter escapes, List.nil_append, induction]
          simp [pendingUnits_negative]
      | code digits length hex =>
          rcases List.length_eq_four.mp length with ⟨first, second, third, fourth, rfl⟩
          rw [StringItem.text, StringItem.unit]
          change parseString out last
            (Json.backslash :: 0x75 :: first :: second :: third :: fourth :: (_ ++ _)) = _
          rw [parseString_code hex]
          split
          · next pair =>
              rw [List.nil_append, induction, unitsValue_pending_code_of_pair pair]
              simp [pendingUnits_negative]
          · next noPair =>
              rw [List.nil_append, induction, unitsValue_pending_code noPair,
                pendingUnits_natCast, List.append_assoc]
              rfl

theorem parseString_eq_ok {out : Bytes} {last : Int} {text value rest : Bytes}
    (read : parseString out last text = .ok (value, rest)) :
    ∃ items : List StringItem, text = items.flatMap StringItem.text ++ Json.quote :: rest ∧
      value = out ++ unitsValue (pendingUnits last ++ items.map StringItem.unit) := by
  fun_induction parseString out last text with
  | case1 | case3 | case5 | case8 | case9 | case11 => cases read
  | case2 out last behind =>
      cases read
      exact ⟨[], rfl, by rw [List.map_nil, List.append_nil, unitsValue_pending]⟩
  | case4 out last ch behind notQuote visible notBackslash induction =>
      rcases induction read with ⟨items, split, same⟩
      refine ⟨.plain ch ⟨UInt8.not_le.mp visible, notQuote, notBackslash⟩ :: items, ?_, ?_⟩
      · rw [split]
        rfl
      · rw [same, List.map_cons, StringItem.unit, unitsValue_pending_byte]
        simp [pendingUnits]
  | case6 out last ch notQuote visible isBackslash first second third fourth behind digits hex
      codepoint pair induction =>
      rcases induction read with ⟨items, split, same⟩
      refine ⟨.code digits rfl hex :: items, ?_, ?_⟩
      · rw [split, not_not.mp isBackslash]
        rfl
      · rw [same, List.map_cons, StringItem.unit,
          unitsValue_pending_code_of_pair pair]
        simp [pendingUnits, codepoint]
  | case7 out last ch notQuote visible isBackslash first second third fourth behind digits hex
      codepoint noPair induction =>
      rcases induction read with ⟨items, split, same⟩
      refine ⟨.code digits rfl hex :: items, ?_, ?_⟩
      · rw [split, not_not.mp isBackslash]
        rfl
      · rw [same, List.map_cons, StringItem.unit,
          unitsValue_pending_code noPair, pendingUnits_natCast, List.append_assoc]
        rfl
  | case10 out last ch notQuote visible isBackslash escape behind notCode escaped escapes
      induction =>
      rcases induction read with ⟨items, split, same⟩
      refine ⟨.letter escape escaped escapes :: items, ?_, ?_⟩
      · rw [split, not_not.mp isBackslash]
        rfl
      · rw [same, List.map_cons, StringItem.unit, unitsValue_pending_byte]
        simp [pendingUnits]

theorem parseString_eq_ok_iff {text value rest : Bytes} :
    parseString [] (-1) text = .ok (value, rest) ↔ ∃ items : List StringItem,
      Json.quote :: text = stringText items ++ rest ∧ value = stringValue items := by
  constructor
  · intro read
    rcases parseString_eq_ok read with ⟨items, split, same⟩
    refine ⟨items, ?_, same⟩
    rw [split]
    simp [stringText]
  · intro found
    rcases found with ⟨items, split, rfl⟩
    have behind : text = items.flatMap StringItem.text ++ Json.quote :: rest := by
      simpa [stringText] using split
    rw [behind, parseString_items]
    rfl

end AIM.Json11
