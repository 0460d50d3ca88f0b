import AIM.Foundation.Decimal
import Mathlib.Tactic.FieldSimp
import Mathlib.Tactic.NormNum

namespace AIM.Decimal

/-! # Reading decimal texts back

A text that was rounded to a number of significant digits is read back as the rounded
number. -/

/-- A text that does not continue the number in front of it. An exponent may follow. -/
structure Ends (rest : Text) : Prop where
  digits : digitsOf rest = []
  point : fractionOf rest = ([], rest)

theorem ends_nil : Ends [] := ⟨rfl, rfl⟩

/-! ## Digits -/

def Digits (text : Text) : Prop := ∀ char ∈ text, char.isDigit = true

theorem digits_natText (number : Nat) : Digits (natText number) :=
  fun _ => isDigit_of_mem_natText

theorem digits_zeros (count : Nat) : Digits (List.replicate count '0') := by
  intro char member
  rw [List.eq_of_mem_replicate member]
  decide

theorem Digits.append {first second : Text} (left : Digits first) (right : Digits second) :
    Digits (first ++ second) := by
  intro char member
  rcases List.mem_append.mp member with inside | behind
  · exact left char inside
  · exact right char behind

theorem digitsOf_append {digits rest : Text} (all : Digits digits) (stop : digitsOf rest = []) :
    digitsOf (digits ++ rest) = digits := by
  rw [digitsOf, List.takeWhile_append_of_pos all]
  exact (congrArg _ stop).trans (List.append_nil _)

theorem afterDigits_append {digits rest : Text} (all : Digits digits)
    (stop : digitsOf rest = []) : afterDigits (digits ++ rest) = rest := by
  have split := List.takeWhile_append_dropWhile (p := Char.isDigit) (l := rest)
  rw [afterDigits, List.dropWhile_append_of_pos all]
  rwa [← digitsOf, stop, List.nil_append] at split

theorem ofDigitChars_natText (number : Nat) : Nat.ofDigitChars 10 (natText number) 0 = number :=
  Nat.ofDigitChars_ten_toDigits

theorem ofDigitChars_leftpad (width number : Nat) :
    Nat.ofDigitChars 10 (List.leftpad width '0' (natText number)) 0 = number := by
  rw [List.leftpad, Nat.ofDigitChars_append, Nat.ofDigitChars_replicate_zero, Nat.mul_zero,
    ofDigitChars_natText]

theorem digits_leftpad (width number : Nat) :
    Digits (List.leftpad width '0' (natText number)) :=
  (digits_zeros _).append (digits_natText number)

theorem ofDigitChars_lt {digits : Text} (all : Digits digits) :
    Nat.ofDigitChars 10 digits 0 < 10 ^ digits.length := by
  induction digits with
  | nil => exact Nat.one_pos
  | cons first later induction =>
      have rest := induction fun char member => all char (List.mem_cons_of_mem first member)
      have bounds := Char.isDigit_iff_toNat.mp (all first List.mem_cons_self)
      have digit : first.toNat - '0'.toNat ≤ 9 := Nat.sub_le_of_le_add bounds.2
      rw [Nat.ofDigitChars_cons, Nat.ofDigitChars_eq_ofDigitChars_zero, Nat.mul_zero, Nat.zero_add,
        List.length_cons, Nat.pow_succ]
      calc 10 ^ later.length * (first.toNat - '0'.toNat) + Nat.ofDigitChars 10 later 0
          < 10 ^ later.length * 9 + 10 ^ later.length :=
            Nat.add_lt_add_of_le_of_lt (Nat.mul_le_mul_left _ digit) rest
        _ = 10 ^ later.length * 10 := by ring

/-! ## Numbers with a point -/

theorem readDecimal_digits {integer rest : Text} (all : Digits integer) (nonempty : integer ≠ [])
    (stop : digitsOf rest = []) :
    readDecimal (integer ++ rest) =
      some ((Nat.ofDigitChars 10 (integer ++ (fractionOf rest).1) 0 : ℚ) *
        10 ^ (readExponent (fractionOf rest).2 - (fractionOf rest).1.length)) := by
  have integers := digitsOf_append all stop
  have behind := afterDigits_append all stop
  rcases List.exists_cons_of_ne_nil nonempty with ⟨first, later, rfl⟩
  have digit := all first List.mem_cons_self
  rw [List.cons_append] at integers behind ⊢
  rw [readDecimal, List.dropWhile_cons_of_neg (Bool.eq_false_iff.mp (isSpace_of_isDigit digit)),
    signOf_of_isDigit digit]
  dsimp only
  rw [integers, behind]
  simp

theorem readDecimal_negative {first : Char} (digit : first.isDigit = true) (later : Text) :
    readDecimal ('-' :: first :: later) = (readDecimal (first :: later)).map Neg.neg := by
  have negative : signOf (List.dropWhile isSpace ('-' :: first :: later)) =
      (-1, first :: later) := rfl
  rw [readDecimal, readDecimal, negative,
    List.dropWhile_cons_of_neg (Bool.eq_false_iff.mp (isSpace_of_isDigit digit)),
    signOf_of_isDigit digit]
  dsimp only
  split
  · rfl
  · simp

theorem readDecimal_natText_append (number : Nat) {rest : Text} (ends : Ends rest) :
    readDecimal (natText number ++ rest) = some ((number : ℚ) * 10 ^ readExponent rest) := by
  rw [readDecimal_digits (digits_natText number) (natText_ne_nil number) ends.digits, ends.point,
    List.append_nil, ofDigitChars_natText]
  simp

theorem leftpad_natText_mod_length {decimals : Nat} (positive : 0 < decimals) (number : Nat) :
    (List.leftpad decimals '0' (natText (number % 10 ^ decimals))).length = decimals := by
  have short : (natText (number % 10 ^ decimals)).length ≤ decimals :=
    (Nat.length_toDigits_le_iff (by decide) positive).mpr
      (Nat.mod_lt _ (Nat.pow_pos (by decide)))
  rw [List.length_leftpad]
  exact max_eq_left short

theorem ofDigitChars_rdropWhile (integer fraction : Text) :
    ∃ zeros, fraction.length = (fraction.rdropWhile (· == '0')).length + zeros ∧
      Nat.ofDigitChars 10 (integer ++ fraction) 0 =
        10 ^ zeros * Nat.ofDigitChars 10 (integer ++ fraction.rdropWhile (· == '0')) 0 := by
  have zeros : fraction.rtakeWhile (· == '0') =
      List.replicate (fraction.rtakeWhile (· == '0')).length '0' := by
    apply List.eq_replicate_length.mpr
    intro char member
    have isZero := List.mem_rtakeWhile_imp member
    exact beq_iff_eq.mp isZero
  have split := List.rdropWhile_append_rtakeWhile (p := (· == '0')) (l := fraction)
  refine ⟨(fraction.rtakeWhile (· == '0')).length, ?_, ?_⟩
  · rw [← List.length_append, split]
  · nth_rewrite 1 [← split]
    rw [← List.append_assoc, Nat.ofDigitChars_append, zeros, Nat.ofDigitChars_replicate_zero]
    simp

theorem ofDigitChars_fraction {decimals : Nat} (positive : 0 < decimals) (number : Nat) :
    Nat.ofDigitChars 10 (natText (number / 10 ^ decimals) ++
      List.leftpad decimals '0' (natText (number % 10 ^ decimals))) 0 = number := by
  rw [Nat.ofDigitChars_append, Nat.ofDigitChars_eq_ofDigitChars_zero, ofDigitChars_leftpad,
    leftpad_natText_mod_length positive, ofDigitChars_natText, Nat.div_add_mod]

theorem readDecimal_withDecimals_append (decimals number : Nat) {rest : Text}
    (ends : Ends rest) :
    readDecimal (withDecimals decimals number ++ rest) =
      some ((number : ℚ) / 10 ^ decimals * 10 ^ readExponent rest) := by
  rcases Nat.eq_zero_or_pos decimals with rfl | positive
  · have whole : withDecimals 0 number = natText number := by
      rw [withDecimals, Nat.pow_zero, Nat.mod_one, Nat.div_one]
      rfl
    rw [whole, readDecimal_natText_append number ends]
    simp
  · have length := leftpad_natText_mod_length positive number
    have value := ofDigitChars_fraction positive number
    have all := digits_leftpad decimals (number % 10 ^ decimals)
    rw [withDecimals]
    generalize List.leftpad decimals '0' (natText (number % 10 ^ decimals)) = fraction
      at length value all
    rcases ofDigitChars_rdropWhile (natText (number / 10 ^ decimals)) fraction with
      ⟨zeros, kept, dropped⟩
    rw [value] at dropped
    rw [length] at kept
    cases left : fraction.rdropWhile (· == '0') with
    | nil =>
        rw [left, List.append_nil, ofDigitChars_natText] at dropped
        rw [left, List.length_nil, Nat.zero_add] at kept
        have exact : (number : ℚ) = 10 ^ decimals * (number / 10 ^ decimals : Nat) := by
          rw [← kept] at dropped
          exact_mod_cast dropped
        dsimp only
        rw [readDecimal_natText_append _ ends, exact,
          mul_div_cancel_left₀ _ (pow_ne_zero _ (by norm_num))]
    | cons first later =>
        have digits : Digits (first :: later) := by
          intro char member
          rw [← left] at member
          exact all char ((List.rdropWhile_prefix _ _).subset member)
        have behind : fractionOf ('.' :: (first :: later) ++ rest) = (first :: later, rest) := by
          rw [List.cons_append, fractionOf, digitsOf_append digits ends.digits,
            afterDigits_append digits ends.digits]
        rw [left] at dropped kept
        dsimp only
        rw [List.append_assoc, readDecimal_digits (digits_natText _) (natText_ne_nil _) rfl,
          behind, Option.some.injEq]
        have exact : (number : ℚ) = 10 ^ zeros * (Nat.ofDigitChars 10
            (natText (number / 10 ^ decimals) ++ first :: later) 0 : Nat) := by
          exact_mod_cast dropped
        dsimp only
        rw [exact]
        generalize Nat.ofDigitChars 10 (natText (number / 10 ^ decimals) ++ first :: later) 0 =
          significant
        rw [kept, pow_add, zpow_sub₀ (by norm_num), zpow_natCast]
        field_simp

/-! ## Exponents -/

theorem leftpad_ne_nil (width number : Nat) :
    List.leftpad width '0' (natText number) ≠ [] := by
  intro empty
  exact natText_ne_nil number (List.append_eq_nil_iff.mp empty).2

theorem readExponent_exponentText (exponent : Int) {rest : Text} (stop : digitsOf rest = []) :
    readExponent ('e' :: exponentText exponent ++ rest) = exponent := by
  have digits := digitsOf_append (digits_leftpad 2 exponent.natAbs) stop
  have read : readNat (List.leftpad 2 '0' (natText exponent.natAbs) ++ rest) =
      some exponent.natAbs := by
    rw [readNat, digits]
    split
    · next empty => exact absurd empty (leftpad_ne_nil _ _)
    · rw [ofDigitChars_leftpad]
  rw [exponentText]
  split
  · next negative =>
      change ((readNat (List.leftpad 2 '0' (natText exponent.natAbs) ++ rest)).map
        fun number : Nat => (-1 : Int) * number).getD 0 = exponent
      rw [read, Option.map_some, Option.getD_some]
      omega
  · next positive =>
      change ((readNat (List.leftpad 2 '0' (natText exponent.natAbs) ++ rest)).map
        fun number : Nat => (1 : Int) * number).getD 0 = exponent
      rw [read, Option.map_some, Option.getD_some]
      omega

/-! ## Rounded numbers -/

def roundedPositive (precision : Nat) (value : ℚ) : ℚ :=
  (significand precision value).1 * 10 ^ ((significand precision value).2 + 1 - precision)

def rounded (precision : Nat) (value : ℚ) : ℚ :=
  if value = 0 then 0
  else if value < 0 then -roundedPositive precision (-value)
  else roundedPositive precision value

/-- A text behind a number, with nothing that belongs to it. -/
structure Stops (rest : Text) : Prop extends Ends rest where
  exponent : readExponent rest = 0

theorem stops_nil : Stops [] := ⟨ends_nil, rfl⟩

theorem readDecimal_positiveText_append {precision : Nat} (positive : 0 < precision) (value : ℚ)
    {rest : Text} (stops : Stops rest) :
    readDecimal (positiveText precision value ++ rest) =
      some (roundedPositive precision value) := by
  rw [positiveText, roundedPositive]
  rcases significand precision value with ⟨digits, exponent⟩
  dsimp only
  split
  · next fixed =>
      rw [readDecimal_withDecimals_append _ _ stops.toEnds, stops.exponent, zpow_zero, mul_one,
        div_eq_mul_inv, ← zpow_natCast, ← zpow_neg]
      congr 3
      omega
  · have ends : Ends ('e' :: exponentText exponent ++ rest) := ⟨rfl, rfl⟩
    rw [List.append_assoc, readDecimal_withDecimals_append _ _ ends,
      readExponent_exponentText exponent stops.digits, div_mul_eq_mul_div, mul_div_assoc,
      ← zpow_natCast, ← zpow_sub₀ (by norm_num)]
    congr 3
    omega

theorem positiveText_starts (precision : Nat) (value : ℚ) :
    ∃ first later, positiveText precision value = first :: later ∧ first.isDigit = true := by
  have starts : ∀ number (rest : Text), ∃ first later,
      natText number ++ rest = first :: later ∧ first.isDigit = true := by
    intro number rest
    rcases List.exists_cons_of_ne_nil (natText_ne_nil number) with ⟨first, later, digits⟩
    refine ⟨first, later ++ rest, by rw [digits, List.cons_append], ?_⟩
    apply digits_natText number
    rw [digits]
    exact List.mem_cons_self
  have decimals : ∀ decimals number (rest : Text), ∃ first later,
      withDecimals decimals number ++ rest = first :: later ∧ first.isDigit = true := by
    intro decimals number rest
    rw [withDecimals]
    split
    · exact starts _ _
    · rw [List.append_assoc]
      exact starts _ _
  rw [positiveText]
  dsimp only
  split
  · rw [← List.append_nil (withDecimals _ _)]
    exact decimals _ _ _
  · exact decimals _ _ _

theorem generalText_starts (precision : Nat) {value : ℚ} (nonneg : 0 ≤ value) :
    ∃ first later, generalText precision value = first :: later ∧ first.isDigit = true := by
  rw [generalText]
  split
  · exact ⟨'0', [], rfl, rfl⟩
  · rw [if_neg nonneg.not_gt]
    exact positiveText_starts precision value

theorem readDecimal_generalText_append {precision : Nat} (positive : 0 < precision) (value : ℚ)
    {rest : Text} (stops : Stops rest) :
    readDecimal (generalText precision value ++ rest) = some (rounded precision value) := by
  rw [generalText, rounded]
  split
  · rw [readDecimal_natText_append 0 stops.toEnds]
    simp
  · split
    · have read := readDecimal_positiveText_append positive (-value) stops
      rcases positiveText_starts precision (-value) with ⟨first, later, text, digit⟩
      rw [text, List.cons_append] at read ⊢
      rw [List.cons_append, readDecimal_negative digit, read]
      rfl
    · exact readDecimal_positiveText_append positive value stops

theorem readDecimal_intText_append (number : Int) {rest : Text} (stops : Stops rest) :
    readDecimal (intText number ++ rest) = some (number : ℚ) := by
  have read : ∀ number : Nat, readDecimal (natText number ++ rest) = some (number : ℚ) := by
    intro number
    rw [readDecimal_natText_append number stops.toEnds, stops.exponent, zpow_zero, mul_one]
  cases number with
  | ofNat number => exact read number
  | negSucc number =>
      rcases List.exists_cons_of_ne_nil (natText_ne_nil (number + 1)) with ⟨first, later, digits⟩
      have digit : first.isDigit = true := by
        apply digits_natText (number + 1)
        rw [digits]
        exact List.mem_cons_self
      have unsigned := read (number + 1)
      rw [intText, digits, List.cons_append, List.cons_append]
      rw [digits, List.cons_append] at unsigned
      rw [readDecimal_negative digit, unsigned]
      simp [Int.negSucc_eq]

theorem readInt_intText_append (number : Int) {rest : Text} (stop : digitsOf rest = []) :
    readInt (intText number ++ rest) = some number := by
  cases number with
  | ofNat number => exact readInt_natText_append number stop
  | negSucc number =>
      have unsigned : signOf (List.dropWhile isSpace (intText (.negSucc number) ++ rest)) =
          (-1, natText (number + 1) ++ rest) := rfl
      rw [readInt, unsigned]
      dsimp only
      rw [readNat_natText_append (number + 1) stop, Option.map_some, Option.some.injEq]
      omega

/-! ## Numbers that are not changed by rounding -/

theorem roundHalfEven_eq_iff (value : ℚ) :
    (roundHalfEven value : ℚ) = value ↔ ∃ integer : Int, value = integer := by
  constructor
  · intro same
    exact ⟨roundHalfEven value, same.symm⟩
  · rintro ⟨integer, rfl⟩
    simp [roundHalfEven]

theorem roundHalfEven_nonneg {value : ℚ} (nonneg : 0 ≤ value) : 0 ≤ roundHalfEven value := by
  have below : 0 ≤ ⌊value⌋ := Int.floor_nonneg.mpr nonneg
  rw [roundHalfEven]
  split
  · exact below
  · split
    · omega
    · split
      · exact below
      · omega

theorem roundedPositive_eq {precision : Nat} (positive : 0 < precision) {value : ℚ}
    (nonneg : 0 ≤ value) :
    roundedPositive precision value =
      roundHalfEven (value * 10 ^ ((precision : Int) - 1 - Int.log 10 value)) *
        10 ^ (Int.log 10 value + 1 - precision) := by
  have rounds := roundHalfEven_nonneg
    (mul_nonneg nonneg (zpow_nonneg (by norm_num : (0 : ℚ) ≤ 10)
      ((precision : Int) - 1 - Int.log 10 value)))
  rw [roundedPositive, significand]
  generalize roundHalfEven (value * 10 ^ ((precision : Int) - 1 - Int.log 10 value)) = digits
    at rounds ⊢
  generalize Int.log 10 value = exponent
  split
  · next carries =>
      have full : digits = (10 ^ precision : Nat) := by omega
      rw [full]
      push_cast
      rw [← zpow_natCast, ← zpow_natCast, ← zpow_add₀ (by norm_num), ← zpow_add₀ (by norm_num)]
      congr 1
      omega
  · have digitsCast : ((digits.toNat : Int) : ℚ) = digits := by rw [Int.toNat_of_nonneg rounds]
    rw [← digitsCast]
    rfl

def Significant (precision number : Nat) : Prop :=
  10 ^ (Nat.log 10 number + 1 - precision) ∣ number

instance (precision number : Nat) : Decidable (Significant precision number) :=
  inferInstanceAs (Decidable (_ ∣ _))

theorem significant_of_lt {precision number : Nat} (short : number < 10 ^ precision) :
    Significant precision number := by
  rcases Nat.eq_zero_or_pos number with rfl | positive
  · exact dvd_zero _
  · have log := Nat.log_lt_of_lt_pow positive.ne' short
    rw [Significant, Nat.sub_eq_zero_of_le log]
    exact one_dvd number

theorem significant_iff_dvd (precision : Nat) {digits number : Nat}
    (least : 10 ^ digits ≤ number) (most : number < 10 ^ (digits + 1)) :
    Significant precision number ↔ 10 ^ (digits + 1 - precision) ∣ number := by
  rw [Significant, Nat.log_eq_of_pow_le_of_lt_pow least most]

theorem log_div_pow {number : Nat} (positive : 0 < number) (decimals : Nat) :
    Int.log 10 ((number : ℚ) / 10 ^ decimals) = Nat.log 10 number - decimals := by
  have scale : (0 : ℚ) < 10 ^ decimals := by positivity
  have valuePositive : 0 < (number : ℚ) / 10 ^ decimals :=
    div_pos (Nat.cast_pos.mpr positive) scale
  have atLeast : (10 : ℚ) ^ Nat.log 10 number ≤ number := by
    exact_mod_cast Nat.pow_log_le_self 10 positive.ne'
  have below : (number : ℚ) < 10 ^ (Nat.log 10 number + 1) := by
    exact_mod_cast Nat.lt_pow_succ_log_self (by decide) number
  apply le_antisymm
  · apply Int.le_of_lt_add_one
    apply (Int.lt_zpow_iff_log_lt (by decide) valuePositive).mp
    rw [Nat.cast_ofNat, div_lt_iff₀ scale, ← zpow_natCast, ← zpow_add₀ (by norm_num),
      sub_add_eq_add_sub, sub_add_cancel]
    exact_mod_cast below
  · apply (Int.zpow_le_iff_le_log (by decide) valuePositive).mp
    rw [Nat.cast_ofNat, le_div_iff₀ scale, ← zpow_natCast, ← zpow_add₀ (by norm_num),
      sub_add_cancel]
    exact_mod_cast atLeast

theorem significant_iff_integer (precision number : Nat) :
    Significant precision number ↔
      ∃ integer : Int, (number : ℚ) * 10 ^ ((precision : Int) - 1 - Nat.log 10 number) =
        integer := by
  rw [Significant]
  rcases Nat.le_total (Nat.log 10 number + 1) precision with fits | long
  · rw [Nat.sub_eq_zero_of_le fits]
    have scale : (precision : Int) - 1 - Nat.log 10 number =
        (precision - (Nat.log 10 number + 1) : Nat) := by omega
    refine iff_of_true (one_dvd number)
      ⟨number * 10 ^ (precision - (Nat.log 10 number + 1)), ?_⟩
    rw [scale, zpow_natCast]
    push_cast
    rfl
  · have scale : (precision : Int) - 1 - Nat.log 10 number =
        -((Nat.log 10 number + 1 - precision : Nat) : Int) := by omega
    rw [scale, zpow_neg, zpow_natCast]
    generalize Nat.log 10 number + 1 - precision = cut
    constructor
    · rintro ⟨kept, rfl⟩
      refine ⟨kept, ?_⟩
      push_cast
      field_simp
    · rintro ⟨integer, cutOff⟩
      have whole : (number : ℚ) = 10 ^ cut * integer := by
        rw [← cutOff]
        field_simp
      apply Int.natCast_dvd_natCast.mp
      refine ⟨integer, ?_⟩
      push_cast
      exact_mod_cast whole

theorem roundedPositive_eq_self_iff {precision : Nat} (positive : 0 < precision)
    {number : Nat} (nonzero : 0 < number) (decimals : Nat) :
    roundedPositive precision ((number : ℚ) / 10 ^ decimals) = (number : ℚ) / 10 ^ decimals ↔
      Significant precision number := by
  have nonneg : 0 ≤ (number : ℚ) / 10 ^ decimals := by positivity
  have exponent := log_div_pow nonzero decimals
  have scaled : (number : ℚ) / 10 ^ decimals *
      10 ^ ((precision : Int) - 1 - (Nat.log 10 number - decimals)) =
        number * 10 ^ ((precision : Int) - 1 - Nat.log 10 number) := by
    rw [div_mul_eq_mul_div, mul_div_assoc, ← zpow_natCast, ← zpow_sub₀ (by norm_num)]
    congr 2
    omega
  have unscaled : (number : ℚ) / 10 ^ decimals =
      number * 10 ^ ((precision : Int) - 1 - Nat.log 10 number) *
        10 ^ ((Nat.log 10 number : Int) - decimals + 1 - precision) := by
    rw [mul_assoc, ← zpow_add₀ (by norm_num), div_eq_mul_inv, ← zpow_natCast, ← zpow_neg]
    congr 2
    omega
  rw [roundedPositive_eq positive nonneg, exponent, scaled, significant_iff_integer,
    unscaled, mul_left_inj' (zpow_ne_zero _ (by norm_num)), roundHalfEven_eq_iff]

theorem rounded_eq_self_iff {precision : Nat} (positive : 0 < precision) (number : Int)
    (decimals : Nat) :
    rounded precision ((number : ℚ) / 10 ^ decimals) = (number : ℚ) / 10 ^ decimals ↔
      Significant precision number.natAbs := by
  have scale : (0 : ℚ) < 10 ^ decimals := by positivity
  rcases lt_trichotomy number 0 with negative | rfl | above
  · have magnitude : -((number : ℚ) / 10 ^ decimals) = (number.natAbs : ℚ) / 10 ^ decimals := by
      rw [← neg_div, Nat.cast_natAbs, abs_of_neg negative, Int.cast_neg]
    have below : (number : ℚ) / 10 ^ decimals < 0 :=
      div_neg_of_neg_of_pos (Int.cast_lt_zero.mpr negative) scale
    rw [rounded, if_neg below.ne, if_pos below, neg_eq_iff_eq_neg, magnitude]
    exact roundedPositive_eq_self_iff positive (Int.natAbs_pos.mpr negative.ne) decimals
  · simp [rounded, Significant]
  · have magnitude : (number : ℚ) = number.natAbs := by
      rw [Nat.cast_natAbs, abs_of_pos above]
    have valuePositive : 0 < (number : ℚ) / 10 ^ decimals :=
      div_pos (Int.cast_pos.mpr above) scale
    rw [rounded, if_neg valuePositive.ne', if_neg valuePositive.not_gt, magnitude]
    exact roundedPositive_eq_self_iff positive (Int.natAbs_pos.mpr above.ne') decimals

end AIM.Decimal
