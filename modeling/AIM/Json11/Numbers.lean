import AIM.Json11.Tokens

namespace AIM.Json11

open Decimal

/-! # Reading numbers

What `parseNumber` does, part by part. Every part takes as much of the text as belongs to
it, so that a condition on what is behind a part comes with it. -/

theorem forall_mem_none {property : α → Prop} : ∀ value ∈ (none : Option α), property value := by
  intro value some
  cases some

/-! ## Bytes and characters -/

theorem charOf_toNat (ch : UInt8) : (charOf ch).toNat = ch.toNat := by
  have valid : ch.toNat.isValidChar := .inl (by have := ch.toNat_lt; omega)
  rw [charOf, Char.ofNat, dif_pos valid]
  rfl

theorem charOf_injective : Function.Injective charOf := by
  intro first second same
  apply UInt8.toNat_inj.mp
  rw [← charOf_toNat, same, charOf_toNat]

theorem isDigit_charOf (ch : UInt8) : (charOf ch).isDigit = isDigit ch := by
  rw [Bool.eq_iff_iff, Char.isDigit_iff_toNat, charOf_toNat, isDigit, Bool.and_eq_true,
    decide_eq_true_iff, decide_eq_true_iff, UInt8.le_iff_toNat_le, UInt8.le_iff_toNat_le]
  rfl

theorem textOf_append (first second : Bytes) :
    textOf (first ++ second) = textOf first ++ textOf second := List.map_append

theorem digits_textOf {digits : Bytes} (all : digits.all isDigit = true) :
    Digits (textOf digits) := by
  intro char member
  rcases List.mem_map.mp member with ⟨ch, inside, rfl⟩
  rw [isDigit_charOf]
  exact List.all_eq_true.mp all ch inside

theorem digitsOf_textOf {rest : Bytes} (stop : isDigit (rest.headD 0) = false) :
    digitsOf (textOf rest) = [] := by
  cases rest with
  | nil => rfl
  | cons ch later =>
      apply List.takeWhile_cons_of_neg
      rw [isDigit_charOf]
      exact Bool.eq_false_iff.mp stop

theorem IsDigits.starts {digits : Bytes} (isDigits : IsDigits digits) (rest : Bytes) :
    isDigit ((digits ++ rest).headD 0) = true := by
  rcases List.exists_cons_of_ne_nil isDigits.1 with ⟨first, later, rfl⟩
  exact List.all_eq_true.mp isDigits.2 first List.mem_cons_self

/-! ## The parts of a number -/

theorem digits_eq_ok_iff {text rest err : Bytes} :
    (if isDigit (text.headD 0) then .ok (text.dropWhile isDigit) else fail err) =
        (.ok rest : Except Failure Bytes) ↔
      ∃ digits, IsDigits digits ∧ text = digits ++ rest ∧ isDigit (rest.headD 0) = false := by
  constructor
  · intro read
    split at read
    · next first =>
        cases read
        refine ⟨text.takeWhile isDigit, ⟨?_, List.all_takeWhile⟩,
          List.takeWhile_append_dropWhile.symm, ?_⟩
        · cases text with
          | nil => cases first
          | cons ch later =>
              rw [List.takeWhile_cons_of_pos (show isDigit ch = true from first)]
              exact List.cons_ne_nil ch _
        · cases behind : text.dropWhile isDigit with
          | nil => rfl
          | cons ch later =>
              have stops := List.head?_dropWhile_not isDigit text
              rw [behind] at stops
              simpa using stops
    · cases read
  · intro found
    rcases found with ⟨digits, isDigits, rfl, stop⟩
    rw [if_pos (isDigits.starts rest),
      List.dropWhile_append_of_pos (List.all_eq_true.mp isDigits.2)]
    cases rest with
    | nil => rfl
    | cons ch later =>
        exact congrArg _ (List.dropWhile_cons_of_neg (Bool.eq_false_iff.mp stop))

theorem integerPart_eq_ok_iff {text rest : Bytes} :
    integerPart text = .ok rest ↔
      ∃ digits, IsInteger digits ∧ text = digits ++ rest ∧ isDigit (rest.headD 0) = false := by
  unfold integerPart
  constructor
  · intro read
    split at read
    · next zero =>
        split at read
        · cases read
        · next stop =>
            cases read
            cases text with
            | nil => cases zero
            | cons ch later =>
                refine ⟨[0x30], ⟨⟨List.cons_ne_nil _ _, rfl⟩, fun _ => rfl⟩, ?_, ?_⟩
                · rw [← zero]
                  rfl
                · exact Bool.eq_false_iff.mpr stop
    · next nonzero =>
        rcases digits_eq_ok_iff.mp read with ⟨digits, isDigits, split, stop⟩
        refine ⟨digits, ⟨isDigits, ?_⟩, split, stop⟩
        intro zero
        rcases List.exists_cons_of_ne_nil isDigits.1 with ⟨ch, later, rfl⟩
        rw [split] at nonzero
        exact absurd zero nonzero
  · intro found
    rcases found with ⟨digits, ⟨isDigits, single⟩, rfl, stop⟩
    split
    · next zero =>
        have isZero : digits = [0x30] := by
          apply single
          rcases List.exists_cons_of_ne_nil isDigits.1 with ⟨ch, later, rfl⟩
          exact zero
        rw [isZero]
        exact if_neg (Bool.eq_false_iff.mp stop)
    · exact digits_eq_ok_iff.mpr ⟨digits, isDigits, rfl, stop⟩

theorem decimalPart_eq_ok_iff {text rest : Bytes} :
    decimalPart text = .ok rest ↔
      ∃ fraction : Option Bytes, (∀ digits ∈ fraction, IsDigits digits) ∧
        text = NumberToken.fractionText fraction ++ rest ∧
        (fraction = none → rest.headD 0 ≠ 0x2e) ∧
        (fraction ≠ none → isDigit (rest.headD 0) = false) := by
  unfold decimalPart
  constructor
  · intro read
    split at read
    · next point =>
        rcases digits_eq_ok_iff.mp read with ⟨digits, isDigits, split, stop⟩
        refine ⟨some digits, ?_, ?_, ?_, fun _ => stop⟩
        · intro other same
          cases same
          exact isDigits
        · cases text with
          | nil => cases point
          | cons ch later => exact congrArg₂ List.cons point split
        · intro none
          cases none
    · next noPoint =>
        cases read
        exact ⟨none, forall_mem_none, rfl, fun _ => noPoint, absurd rfl⟩
  · intro found
    rcases found with ⟨fraction, isDigits, rfl, noPoint, stop⟩
    cases fraction with
    | none => exact if_neg (noPoint rfl)
    | some digits =>
        exact (if_pos rfl).trans (digits_eq_ok_iff.mpr
          ⟨digits, isDigits digits rfl, rfl, stop (Option.some_ne_none digits)⟩)

theorem mem_exponentMarks_iff {mark : Bytes} :
    mark ∈ exponentMarks ↔ ∃ letter : UInt8, (letter = 0x65 ∨ letter = 0x45) ∧
      (mark = [letter] ∨ ∃ sign : UInt8, (sign = 0x2b ∨ sign = 0x2d) ∧ mark = [letter, sign]) := by
  constructor
  · intro member
    simp only [exponentMarks, List.mem_cons, List.not_mem_nil, or_false] at member
    rcases member with rfl | rfl | rfl | rfl | rfl | rfl
    · exact ⟨0x65, .inl rfl, .inl rfl⟩
    · exact ⟨0x65, .inl rfl, .inr ⟨0x2b, .inl rfl, rfl⟩⟩
    · exact ⟨0x65, .inl rfl, .inr ⟨0x2d, .inr rfl, rfl⟩⟩
    · exact ⟨0x45, .inr rfl, .inl rfl⟩
    · exact ⟨0x45, .inr rfl, .inr ⟨0x2b, .inl rfl, rfl⟩⟩
    · exact ⟨0x45, .inr rfl, .inr ⟨0x2d, .inr rfl, rfl⟩⟩
  · intro found
    rcases found with ⟨letter, rfl | rfl, rfl | ⟨sign, rfl | rfl, rfl⟩⟩ <;> decide

theorem exponentPart_letter {letter : UInt8} (isLetter : letter = 0x65 ∨ letter = 0x45)
    (behind : Bytes) :
    exponentPart (letter :: behind) =
      let digits := if behind.headD 0 = 0x2b ∨ behind.headD 0 = 0x2d then behind.tail else behind
      if isDigit (digits.headD 0) then .ok (digits.dropWhile isDigit)
      else fail (ascii "at least one digit required in exponent") :=
  if_pos isLetter

theorem exponentPart_mark {mark : Bytes} (member : mark ∈ exponentMarks) {digits : Bytes}
    (isDigits : IsDigits digits) {rest : Bytes} (stop : isDigit (rest.headD 0) = false) :
    exponentPart (mark ++ (digits ++ rest)) = .ok rest := by
  have read := (@digits_eq_ok_iff _ _ (ascii "at least one digit required in exponent")).mpr
    ⟨digits, isDigits, rfl, stop⟩
  rcases mem_exponentMarks_iff.mp member with ⟨letter, isLetter, rfl | ⟨sign, isSign, rfl⟩⟩
  · have noSign : ¬((digits ++ rest).headD 0 = 0x2b ∨ (digits ++ rest).headD 0 = 0x2d) := by
      intro sign
      have digit := isDigits.starts rest
      rcases sign with plus | minus
      · rw [plus] at digit
        cases digit
      · rw [minus] at digit
        cases digit
    rw [List.singleton_append, exponentPart_letter isLetter, if_neg noSign]
    exact read
  · have signed : (sign :: (digits ++ rest)).headD 0 = 0x2b ∨
        (sign :: (digits ++ rest)).headD 0 = 0x2d := isSign
    rw [List.cons_append, List.singleton_append, exponentPart_letter isLetter, if_pos signed]
    exact read

theorem exponentPart_split {letter : UInt8} (isLetter : letter = 0x65 ∨ letter = 0x45)
    {behind rest : Bytes} (read : exponentPart (letter :: behind) = .ok rest) :
    ∃ mark ∈ exponentMarks, ∃ digits, IsDigits digits ∧
      letter :: behind = mark ++ (digits ++ rest) ∧ isDigit (rest.headD 0) = false := by
  rw [exponentPart_letter isLetter] at read
  by_cases isSign : behind.headD 0 = 0x2b ∨ behind.headD 0 = 0x2d
  · rw [if_pos isSign] at read
    rcases digits_eq_ok_iff.mp read with ⟨digits, isDigits, split, stop⟩
    cases behind with
    | nil => rcases isSign with sign | sign <;> cases sign
    | cons sign later =>
        refine ⟨[letter, sign], mem_exponentMarks_iff.mpr ⟨letter, isLetter,
          .inr ⟨sign, isSign, rfl⟩⟩, digits, isDigits, ?_, stop⟩
        rw [List.tail_cons] at split
        rw [split]
        rfl
  · rw [if_neg isSign] at read
    rcases digits_eq_ok_iff.mp read with ⟨digits, isDigits, split, stop⟩
    refine ⟨[letter], mem_exponentMarks_iff.mpr ⟨letter, isLetter, .inl rfl⟩, digits, isDigits,
      ?_, stop⟩
    rw [split]
    rfl

theorem exponentPart_eq_ok_iff {text rest : Bytes} :
    exponentPart text = .ok rest ↔
      ∃ exponent : Option (Bytes × Bytes),
        (∀ mark ∈ exponent, mark.1 ∈ exponentMarks ∧ IsDigits mark.2) ∧
        text = NumberToken.exponentText exponent ++ rest ∧
        (exponent = none → rest.headD 0 ≠ 0x65 ∧ rest.headD 0 ≠ 0x45) ∧
        (exponent ≠ none → isDigit (rest.headD 0) = false) := by
  constructor
  · intro read
    by_cases isLetter : text.headD 0 = 0x65 ∨ text.headD 0 = 0x45
    · cases text with
      | nil => rcases isLetter with letter | letter <;> cases letter
      | cons letter behind =>
          rcases exponentPart_split isLetter read with
            ⟨mark, member, digits, isDigits, split, stop⟩
          refine ⟨some (mark, digits), ?_, ?_, ?_, fun _ => stop⟩
          · intro other same
            cases same
            exact ⟨member, isDigits⟩
          · exact split.trans (List.append_assoc _ _ _).symm
          · intro none
            cases none
    · cases (if_neg isLetter).symm.trans read
      exact ⟨none, forall_mem_none, rfl, fun _ => not_or.mp isLetter, absurd rfl⟩
  · intro found
    rcases found with ⟨exponent, marks, rfl, noLetter, stop⟩
    cases exponent with
    | none => exact if_neg (not_or.mpr (noLetter rfl))
    | some mark =>
        rcases marks mark rfl with ⟨member, isDigits⟩
        change exponentPart (mark.1 ++ mark.2 ++ rest) = _
        rw [List.append_assoc]
        exact exponentPart_mark member isDigits (stop (Option.some_ne_none mark))

/-! ## The value of a number -/

namespace NumberToken

variable (token : NumberToken)

structure EndsBefore (rest : Bytes) : Prop where
  digit : isDigit (rest.headD 0) = false
  point : token.fraction = none → token.exponent = none → rest.headD 0 ≠ 0x2e
  exponent : token.exponent = none → rest.headD 0 ≠ 0x65 ∧ rest.headD 0 ≠ 0x45

variable {token}

theorem textOf_text (rest : Bytes) :
    textOf (token.text ++ rest) = textOf (signText token.negative) ++ (textOf token.integer ++
      textOf (fractionText token.fraction ++ (exponentText token.exponent ++ rest))) := by
  simp [text, textOf, List.append_assoc]

theorem charOf_starts {digits : Bytes} (isDigits : IsDigits digits) :
    ∃ first later, textOf digits = first :: later ∧ first.isDigit = true := by
  rcases List.exists_cons_of_ne_nil isDigits.1 with ⟨first, later, rfl⟩
  refine ⟨charOf first, textOf later, rfl, ?_⟩
  rw [isDigit_charOf]
  exact List.all_eq_true.mp isDigits.2 first List.mem_cons_self

theorem signOf_textOf {digits : Bytes} (isDigits : IsDigits digits) (negative : Bool)
    (rest : Text) :
    signOf ((textOf (signText negative) ++ (textOf digits ++ rest)).dropWhile isSpace) =
      (if negative then -1 else 1, textOf digits ++ rest) := by
  cases negative with
  | true => rfl
  | false =>
      rcases charOf_starts isDigits with ⟨first, later, starts, digit⟩
      rw [starts]
      change signOf ((first :: (later ++ rest)).dropWhile isSpace) = _
      rw [List.dropWhile_cons_of_neg (Bool.eq_false_iff.mp (isSpace_of_isDigit digit)),
        signOf_of_isDigit digit]
      rfl

theorem readNat_textOf {digits : Bytes} (isDigits : IsDigits digits) {rest : Bytes}
    (stop : isDigit (rest.headD 0) = false) :
    readNat (textOf digits ++ textOf rest) = some (digitsValue digits) := by
  rw [readNat, digitsOf_append (digits_textOf isDigits.2) (digitsOf_textOf stop)]
  split
  · next empty => exact absurd (List.map_eq_nil_iff.mp empty) isDigits.1
  · rfl

/-! What is behind the integer. -/

theorem readExponent_letter {letter : UInt8} (isLetter : letter = 0x65 ∨ letter = 0x45)
    (rest : Text) :
    readExponent (charOf letter :: rest) =
      ((readNat (signOf rest).2).map
        fun number : Nat => (signOf rest).1 * (number : Int)).getD 0 := by
  rcases isLetter with rfl | rfl
  · rfl
  · rfl

theorem readExponent_mark {mark : Bytes} (member : mark ∈ exponentMarks) {digits : Bytes}
    (isDigits : IsDigits digits) {rest : Bytes} (stop : isDigit (rest.headD 0) = false) :
    readExponent (textOf (mark ++ (digits ++ rest))) =
      if 0x2d ∈ mark then -(digitsValue digits : Int) else digitsValue digits := by
  have read := readNat_textOf isDigits stop
  rcases charOf_starts isDigits with ⟨first, later, starts, digit⟩
  rw [textOf_append mark, textOf_append digits]
  rcases mem_exponentMarks_iff.mp member with ⟨letter, isLetter, rfl | ⟨sign, isSign, rfl⟩⟩
  · have noMinus : (0x2d : UInt8) ∉ [letter] := by
      rcases isLetter with rfl | rfl <;> decide
    have signless : signOf (textOf digits ++ textOf rest) = (1, textOf digits ++ textOf rest) := by
      rw [starts]
      exact signOf_of_isDigit digit _
    change readExponent (charOf letter :: (textOf digits ++ textOf rest)) = _
    rw [readExponent_letter isLetter, signless, read, if_neg noMinus]
    exact one_mul _
  · change readExponent (charOf letter :: charOf sign :: (textOf digits ++ textOf rest)) = _
    rw [readExponent_letter isLetter]
    rcases isSign with rfl | rfl
    · have noMinus : (0x2d : UInt8) ∉ [letter, 0x2b] := by
        rcases isLetter with rfl | rfl <;> decide
      rw [if_neg noMinus]
      change ((readNat (textOf digits ++ textOf rest)).map
        fun number : Nat => 1 * (number : Int)).getD 0 = _
      rw [read]
      exact one_mul _
    · rw [if_pos (List.mem_cons_of_mem letter List.mem_cons_self)]
      change ((readNat (textOf digits ++ textOf rest)).map
        fun number : Nat => -1 * (number : Int)).getD 0 = _
      rw [read]
      exact neg_one_mul _

theorem readExponent_of_noLetter {rest : Bytes}
    (noLetter : rest.headD 0 ≠ 0x65 ∧ rest.headD 0 ≠ 0x45) : readExponent (textOf rest) = 0 := by
  cases rest with
  | nil => rfl
  | cons ch later =>
      change readExponent (charOf ch :: textOf later) = 0
      unfold readExponent
      split
      · next same => exact absurd (charOf_injective (List.cons.inj same).1) noLetter.1
      · next same => exact absurd (charOf_injective (List.cons.inj same).1) noLetter.2
      · rfl

theorem readExponent_textOf {rest : Bytes} (ends : token.EndsBefore rest) :
    readExponent (textOf (exponentText token.exponent ++ rest)) = token.exponentValue := by
  unfold exponentValue
  cases same : token.exponent with
  | none => exact readExponent_of_noLetter (ends.exponent same)
  | some mark =>
      rcases token.exponentDigits mark same with ⟨member, isDigits⟩
      change readExponent (textOf (mark.1 ++ mark.2 ++ rest)) = _
      rw [List.append_assoc]
      exact readExponent_mark member isDigits ends.digit

theorem exponentText_letter {mark : Bytes × Bytes} (same : token.exponent = some mark)
    (rest : Bytes) :
    (exponentText (some mark) ++ rest).headD 0 = 0x65 ∨
      (exponentText (some mark) ++ rest).headD 0 = 0x45 := by
  rcases mem_exponentMarks_iff.mp (token.exponentDigits mark same).1 with
    ⟨letter, isLetter, marked⟩
  have starts : (mark.1 ++ mark.2 ++ rest).headD 0 = letter := by
    rcases marked with marked | ⟨sign, _, marked⟩
    · rw [marked]
      rfl
    · rw [marked]
      rfl
  change (mark.1 ++ mark.2 ++ rest).headD 0 = 0x65 ∨ (mark.1 ++ mark.2 ++ rest).headD 0 = 0x45
  rwa [starts]

theorem exponentText_starts {rest : Bytes} (ends : token.EndsBefore rest) :
    isDigit ((exponentText token.exponent ++ rest).headD 0) = false ∧
      (token.fraction = none → (exponentText token.exponent ++ rest).headD 0 ≠ 0x2e) := by
  cases same : token.exponent with
  | none => exact ⟨ends.digit, fun none => ends.point none same⟩
  | some mark =>
      rcases exponentText_letter same rest with letter | letter
      · rw [letter]
        exact ⟨rfl, fun _ => by decide⟩
      · rw [letter]
        exact ⟨rfl, fun _ => by decide⟩

theorem fractionOf_textOf {rest : Bytes} (ends : token.EndsBefore rest) :
    fractionOf (textOf (fractionText token.fraction ++ (exponentText token.exponent ++ rest))) =
      (textOf (token.fraction.getD []), textOf (exponentText token.exponent ++ rest)) := by
  rcases exponentText_starts ends with ⟨stop, noPoint⟩
  cases same : token.fraction with
  | none =>
      change fractionOf (textOf (exponentText token.exponent ++ rest)) = ([], _)
      cases behind : exponentText token.exponent ++ rest with
      | nil => rfl
      | cons ch later =>
          change fractionOf (charOf ch :: textOf later) = ([], charOf ch :: textOf later)
          unfold fractionOf
          split
          · next point =>
              have isPoint : ch = 0x2e := charOf_injective (List.cons.inj point).1
              rw [behind] at noPoint
              exact absurd isPoint (noPoint same)
          · rfl
  | some digits =>
      have all := digits_textOf (token.fractionDigits digits same).2
      change fractionOf ('.' :: textOf (digits ++ _)) = (textOf digits, _)
      rw [textOf_append, fractionOf, digitsOf_append all (digitsOf_textOf stop),
        afterDigits_append all (digitsOf_textOf stop)]

theorem fractionText_starts {rest : Bytes} (ends : token.EndsBefore rest) :
    isDigit ((fractionText token.fraction ++ (exponentText token.exponent ++ rest)).headD 0) =
      false := by
  cases token.fraction with
  | none => exact (exponentText_starts ends).1
  | some digits => rfl

theorem readDecimal_text {rest : Bytes} (ends : token.EndsBefore rest) :
    readDecimal (textOf (token.text ++ rest)) = some token.decimal := by
  have isDigits := token.integerDigits.1
  have all := digits_textOf isDigits.2
  have stop := digitsOf_textOf (fractionText_starts ends)
  have some : textOf token.integer ++ textOf (token.fraction.getD []) ≠ [] := fun empty =>
    isDigits.1 (List.map_eq_nil_iff.mp (List.append_eq_nil_iff.mp empty).1)
  rw [textOf_text, readDecimal, signOf_textOf isDigits]
  dsimp only
  rw [digitsOf_append all stop, afterDigits_append all stop, fractionOf_textOf ends]
  dsimp only
  rw [if_neg some, readExponent_textOf ends, decimal, digitsValue, textOf_append]
  simp [sign, textOf]

theorem strtod_text {rest : Bytes} (ends : token.EndsBefore rest) :
    strtod (token.text ++ rest) = token.double := by
  have negative : decide ((signOf ((textOf (token.text ++ rest)).dropWhile isSpace)).1 < 0) =
      token.negative := by
    rw [textOf_text, signOf_textOf token.integerDigits.1]
    cases token.negative with
    | false => rfl
    | true => rfl
  rw [strtod, negative, readDecimal_text ends, Option.getD_some, double]

theorem atoi_text {rest : Bytes} (ends : token.EndsBefore rest) :
    atoi (token.text ++ rest) = .ofInt (token.sign * digitsValue token.integer) := by
  have isDigits := token.integerDigits.1
  rw [atoi, textOf_text, readInt, signOf_textOf isDigits]
  dsimp only
  rw [readNat_textOf isDigits (fractionText_starts ends)]
  rfl

end NumberToken

/-! ## The number as a whole -/

theorem minus_starts {text rest : Bytes} (read : integerPart text = .ok rest) :
    text.headD 0 ≠ 0x2d := by
  rcases integerPart_eq_ok_iff.mp read with ⟨digits, isInteger, rfl, _⟩
  intro minus
  have digit := isInteger.1.starts rest
  rw [minus] at digit
  cases digit

theorem signed_integerPart {text rest : Bytes} :
    integerPart (if text.headD 0 = 0x2d then text.tail else text) = .ok rest ↔
      ∃ negative integer, text = NumberToken.signText negative ++ integer ∧
        integerPart integer = .ok rest := by
  constructor
  · intro read
    split at read
    · next minus =>
        cases text with
        | nil => cases minus
        | cons ch later =>
            refine ⟨true, later, ?_, read⟩
            exact congrArg (· :: later) minus
    · exact ⟨false, text, rfl, read⟩
  · intro found
    rcases found with ⟨negative, integer, rfl, read⟩
    cases negative with
    | true => exact read
    | false => exact (congrArg integerPart (if_neg (minus_starts read))).trans read

theorem NumberToken.point_or_letter_iff {token : NumberToken} {rest : Bytes}
    (ends : token.EndsBefore rest) {behind : Bytes}
    (split : behind = fractionText token.fraction ++ (exponentText token.exponent ++ rest)) :
    ¬(behind.headD 0 = 0x2e ∨ behind.headD 0 = 0x65 ∨ behind.headD 0 = 0x45) ↔
      token.fraction = none ∧ token.exponent = none := by
  constructor
  · intro neither
    cases same : token.fraction with
    | some digits =>
        rw [split, same] at neither
        exact absurd (.inl rfl) neither
    | none =>
        cases exponent : token.exponent with
        | none => exact ⟨rfl, rfl⟩
        | some mark =>
            rw [split, same, exponent] at neither
            exact absurd (.inr (NumberToken.exponentText_letter exponent rest)) neither
  · intro alone
    rw [split, alone.1, alone.2]
    intro either
    rcases either with point | letter | letter
    · exact ends.point alone.1 alone.2 point
    · exact (ends.exponent alone.2).1 letter
    · exact (ends.exponent alone.2).2 letter

theorem parseNumber_text {token : NumberToken} {rest : Bytes} (ends : token.EndsBefore rest) :
    parseNumber (token.text ++ rest) = .ok (token.value, rest) := by
  have length : (token.text ++ rest).length - rest.length = token.text.length := by
    rw [List.length_append, Nat.add_sub_cancel]
  have read : integerPart (if (token.text ++ rest).headD 0 = 0x2d then (token.text ++ rest).tail
      else token.text ++ rest) = .ok (NumberToken.fractionText token.fraction ++
        (NumberToken.exponentText token.exponent ++ rest)) := by
    refine signed_integerPart.mpr ⟨token.negative, _, ?_,
      integerPart_eq_ok_iff.mpr ⟨token.integer, token.integerDigits, rfl, ?_⟩⟩
    · simp [NumberToken.text]
    · exact NumberToken.fractionText_starts ends
  have behind : token.fraction = none → token.exponent = none →
      NumberToken.fractionText token.fraction ++
        (NumberToken.exponentText token.exponent ++ rest) = rest := by
    intro noFraction noExponent
    rw [noFraction, noExponent]
    rfl
  refine bind_eq_ok.mpr ⟨_, read, ?_⟩
  split
  · next alone =>
      rcases alone with ⟨unmarked, short⟩
      rcases (NumberToken.point_or_letter_iff ends rfl).mp unmarked with ⟨noFraction, noExponent⟩
      rw [behind noFraction noExponent, length] at short
      rw [behind noFraction noExponent, NumberToken.atoi_text ends, NumberToken.value,
        if_pos ⟨noFraction, noExponent, short⟩]
  · next notAlone =>
    have isDouble : token.value = .double token.double := by
      refine if_neg fun alone => notAlone
        ⟨(NumberToken.point_or_letter_iff ends rfl).mpr ⟨alone.1, alone.2.1⟩, ?_⟩
      rw [behind alone.1 alone.2.1, length]
      exact alone.2.2
    rw [NumberToken.strtod_text ends, isDouble]
    have starts := NumberToken.exponentText_starts ends
    refine bind_eq_ok.mpr ⟨NumberToken.exponentText token.exponent ++ rest,
      decimalPart_eq_ok_iff.mpr ⟨token.fraction, token.fractionDigits, rfl, starts.2,
        fun _ => starts.1⟩, bind_eq_ok.mpr ⟨rest, exponentPart_eq_ok_iff.mpr
          ⟨token.exponent, token.exponentDigits, rfl, ends.exponent, fun _ => ends.digit⟩, rfl⟩⟩

theorem parseNumber_split {text rest : Bytes} {value : Json}
    (read : parseNumber text = .ok (value, rest)) :
    ∃ token : NumberToken, text = token.text ++ rest ∧ token.EndsBefore rest := by
  rcases bind_eq_ok.mp read with ⟨behind, read, taken⟩
  rcases signed_integerPart.mp read with ⟨negative, whole, split, read⟩
  rcases integerPart_eq_ok_iff.mp read with ⟨integer, isInteger, rfl, stop⟩
  split at taken
  · next alone =>
      cases taken
      refine ⟨⟨negative, integer, none, none, isInteger, forall_mem_none, forall_mem_none⟩, ?_,
        stop,
        ?_, ?_⟩
      · rw [split]
        simp [NumberToken.text, NumberToken.fractionText, NumberToken.exponentText]
      · exact fun _ _ point => alone.1 (.inl point)
      · exact fun _ => ⟨fun letter => alone.1 (.inr (.inl letter)),
          fun letter => alone.1 (.inr (.inr letter))⟩
  · rcases bind_eq_ok.mp taken with ⟨later, readFraction, taken⟩
    rcases bind_eq_ok.mp taken with ⟨last, readExponent, taken⟩
    cases taken
    rcases decimalPart_eq_ok_iff.mp readFraction with
      ⟨fraction, fractionDigits, rfl, noPoint, stopFraction⟩
    rcases exponentPart_eq_ok_iff.mp readExponent with
      ⟨exponent, exponentDigits, rfl, noLetter, stopExponent⟩
    refine ⟨⟨negative, integer, fraction, exponent, isInteger, fractionDigits, exponentDigits⟩,
      ?_, ?_, ?_, noLetter⟩
    · rw [split]
      simp [NumberToken.text]
    · cases exponent with
      | some mark => exact stopExponent (Option.some_ne_none mark)
      | none =>
          cases fraction with
          | some digits => exact stopFraction (Option.some_ne_none digits)
          | none => exact stop
    · intro noFraction noExponent
      cases noExponent
      exact noPoint noFraction

theorem parseNumber_eq_ok_iff {text rest : Bytes} {value : Json} :
    parseNumber text = .ok (value, rest) ↔ ∃ token : NumberToken,
      text = token.text ++ rest ∧ value = token.value ∧ token.EndsBefore rest := by
  constructor
  · intro read
    rcases parseNumber_split read with ⟨token, rfl, ends⟩
    rw [parseNumber_text ends] at read
    cases read
    exact ⟨token, rfl, rfl, ends⟩
  · intro found
    rcases found with ⟨token, rfl, rfl, ends⟩
    exact parseNumber_text ends

end AIM.Json11
