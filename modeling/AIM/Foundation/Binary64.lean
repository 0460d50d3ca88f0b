import AIM.Foundation.DecimalRoundTrip
import Mathlib.Algebra.Order.Field.Power
import Mathlib.Tactic.Positivity

namespace AIM.Binary64

open Decimal

/-! # Floating point numbers of 64 bits

Rational numbers rounded to the ones that a `double` holds, with at most 53 binary digits. All
of them are told by 17 decimal digits. -/

/-- The exponent of the last binary digit that is kept. -/
def lastPlace (magnitude : ℚ) : Int := max (Int.log 2 magnitude - 52) (-1074)

/-- The nearest multiple of the last place, the even one in the middle. -/
def nearest (magnitude : ℚ) : ℚ :=
  roundHalfEven (magnitude / 2 ^ lastPlace magnitude) * 2 ^ lastPlace magnitude

structure Magnitude where
  value : ℚ
  nonneg : 0 ≤ value
  rounded : nearest value = value
  small : value < 2 ^ 1024
  deriving DecidableEq

inductive Double
  | finite (negative : Bool) (magnitude : Magnitude)
  | infinite (negative : Bool)
  | nan
  deriving DecidableEq

/-! ## Places -/

section

variable {value : ℚ}

theorem lt_zpow_lastPlace (value : ℚ) : value < 2 ^ (lastPlace value + 53) := by
  refine lt_of_lt_of_le (Int.lt_zpow_succ_log_self one_lt_two value) ?_
  apply zpow_le_zpow_right₀ one_le_two
  rw [lastPlace]
  omega

theorem zpow_lastPlace_le (positive : 0 < value) (normal : -1074 < lastPlace value) :
    2 ^ (lastPlace value + 52) ≤ value := by
  refine le_trans ?_ (Int.zpow_log_le_self one_lt_two positive)
  apply zpow_le_zpow_right₀ one_le_two
  rw [lastPlace] at normal ⊢
  omega

theorem lastPlace_le {place : Int} (positive : 0 < value) (least : -1074 ≤ place)
    (below : value < 2 ^ (place + 53)) : lastPlace value ≤ place := by
  have log := (Int.lt_zpow_iff_log_lt one_lt_two positive).mp below
  rw [lastPlace]
  omega

theorem multiple_of_le {place less : Int} (below : less ≤ place) (number : Int) :
    ∃ more : Int, (number : ℚ) * 2 ^ place = more * 2 ^ less := by
  refine ⟨number * 2 ^ (place - less).toNat, ?_⟩
  push_cast
  rw [mul_assoc, ← zpow_natCast, Int.toNat_of_nonneg (by omega), ← zpow_add₀ two_ne_zero,
    sub_add_cancel]

end

/-! ## Rounding -/

section

variable {value : ℚ}

theorem abs_roundHalfEven_sub_le (value : ℚ) : |(roundHalfEven value : ℚ) - value| ≤ 1 / 2 := by
  have below := Int.floor_le value
  have above := Int.lt_floor_add_one value
  rw [roundHalfEven, abs_le]
  split
  · constructor <;> linarith
  · split
    · push_cast
      constructor <;> linarith
    · split
      · constructor <;> linarith
      · push_cast
        constructor <;> linarith

theorem roundHalfEven_of_close {number : Int} (close : |value - number| < 1 / 2) :
    roundHalfEven value = number := by
  have distance := abs_roundHalfEven_sub_le value
  rw [abs_lt] at close
  rw [abs_le] at distance
  have low : (number : ℚ) - 1 < roundHalfEven value := by linarith
  have high : (roundHalfEven value : ℚ) < number + 1 := by linarith
  have low : number - 1 < roundHalfEven value := by exact_mod_cast low
  have high : roundHalfEven value < number + 1 := by exact_mod_cast high
  omega

theorem nearest_of_close {number : Int}
    (close : |value - number * 2 ^ lastPlace value| < 2 ^ lastPlace value / 2) :
    nearest value = number * 2 ^ lastPlace value := by
  have positive : (0 : ℚ) < 2 ^ lastPlace value := zpow_pos two_pos _
  rw [nearest, roundHalfEven_of_close]
  have scaled : value / 2 ^ lastPlace value - number =
      (value - number * 2 ^ lastPlace value) / 2 ^ lastPlace value := by
    field_simp
  rw [scaled, abs_div, abs_of_pos positive, div_lt_iff₀ positive]
  linarith

theorem nearest_of_multiple {number : Int} (multiple : value = number * 2 ^ lastPlace value) :
    nearest value = value := by
  rw [nearest_of_close, ← multiple]
  rw [← multiple, sub_self, abs_zero]
  positivity

theorem nearest_nonneg (nonneg : 0 ≤ value) : 0 ≤ nearest value := by
  have scaled : 0 ≤ value / 2 ^ lastPlace value := by positivity
  have rounds : (0 : ℚ) ≤ roundHalfEven (value / 2 ^ lastPlace value) := by
    exact_mod_cast roundHalfEven_nonneg scaled
  exact mul_nonneg rounds (by positivity)

theorem nearest_of_few {number : Nat} {place : Int} (few : number < 2 ^ 53)
    (least : -1074 ≤ place) : nearest (number * 2 ^ place) = number * 2 ^ place := by
  rcases Nat.eq_zero_or_pos number with rfl | positive
  · simp [nearest, roundHalfEven]
  · have valuePositive : (0 : ℚ) < number * 2 ^ place := by positivity
    have below : (number : ℚ) * 2 ^ place < 2 ^ (place + 53) := by
      rw [zpow_add₀ two_ne_zero, mul_comm]
      apply mul_lt_mul_of_pos_left _ (zpow_pos two_pos _)
      exact_mod_cast few
    rcases multiple_of_le (lastPlace_le valuePositive least below) number with ⟨more, multiple⟩
    exact nearest_of_multiple multiple

theorem nearest_nearest (nonneg : 0 ≤ value) : nearest (nearest value) = nearest value := by
  have least : -1074 ≤ lastPlace value := le_max_right _ _
  have scaled : 0 ≤ value / 2 ^ lastPlace value := by positivity
  have digits := roundHalfEven_nonneg scaled
  have below : value / 2 ^ lastPlace value < 2 ^ 53 := by
    rw [div_lt_iff₀ (zpow_pos two_pos _), ← zpow_natCast, ← zpow_add₀ two_ne_zero, add_comm]
    exact lt_zpow_lastPlace value
  have close := (abs_le.mp (abs_roundHalfEven_sub_le (value / 2 ^ lastPlace value))).2
  have most : (roundHalfEven (value / 2 ^ lastPlace value) : ℚ) < 2 ^ 53 + 1 := by linarith
  have most : roundHalfEven (value / 2 ^ lastPlace value) < 2 ^ 53 + 1 := by exact_mod_cast most
  have rounded : nearest value =
      roundHalfEven (value / 2 ^ lastPlace value) * 2 ^ lastPlace value := rfl
  rw [rounded]
  generalize lastPlace value = place at *
  rcases Int.eq_ofNat_of_zero_le digits with ⟨number, same⟩
  rw [same] at most ⊢
  rw [Int.cast_natCast]
  rcases Nat.lt_or_ge number (2 ^ 53) with few | full
  · exact nearest_of_few few least
  · -- the rounding carries into one more binary digit
    have carried : (number : ℚ) * 2 ^ place = (2 ^ 52 : Nat) * 2 ^ (place + 1) := by
      rw [show number = 2 ^ 53 by omega, zpow_add₀ two_ne_zero]
      push_cast
      ring
    rw [carried]
    exact nearest_of_few (by decide) (by omega)

end

/-! ## Decimal digits -/

section

variable {value : ℚ} {precision : Nat}

theorem mul_zpow_mul_zpow (value : ℚ) (precision : Nat) (exponent : Int) :
    value * 10 ^ ((precision : Int) - 1 - exponent) * 10 ^ (exponent + 1 - precision) = value := by
  rw [mul_assoc, ← zpow_add₀ (by norm_num), show (precision : Int) - 1 - exponent +
    (exponent + 1 - precision) = 0 by omega, zpow_zero, mul_one]

theorem abs_roundedPositive_sub_le (positive : 0 < precision) (nonneg : 0 ≤ value) :
    |roundedPositive precision value - value| ≤
      10 ^ (Int.log 10 value + 1 - precision) / 2 := by
  have unit : (0 : ℚ) < 10 ^ (Int.log 10 value + 1 - precision) := by positivity
  have scale := mul_zpow_mul_zpow value precision (Int.log 10 value)
  have close := abs_roundHalfEven_sub_le (value * 10 ^ ((precision : Int) - 1 - Int.log 10 value))
  rw [roundedPositive_eq positive nonneg]
  generalize value * 10 ^ ((precision : Int) - 1 - Int.log 10 value) = scaled at scale close ⊢
  calc |roundHalfEven scaled * 10 ^ (Int.log 10 value + 1 - precision) - value|
      = |roundHalfEven scaled - scaled| * 10 ^ (Int.log 10 value + 1 - precision) := by
        rw [← abs_of_pos unit, ← abs_mul, abs_of_pos unit, sub_mul, scale]
    _ ≤ 1 / 2 * 10 ^ (Int.log 10 value + 1 - precision) :=
        mul_le_mul_of_nonneg_right close unit.le
    _ = 10 ^ (Int.log 10 value + 1 - precision) / 2 := by ring

theorem le_roundHalfEven {number : Int} (below : number ≤ value) :
    number ≤ roundHalfEven value := by
  have floor := Int.le_floor.mpr below
  rw [roundHalfEven]
  split
  · exact floor
  · split
    · omega
    · split
      · exact floor
      · omega

theorem zpow_log_le_roundedPositive (positive : 0 < precision) (above : 0 < value) :
    10 ^ Int.log 10 value ≤ roundedPositive precision value := by
  have first := Int.zpow_log_le_self (b := 10) (by decide) above
  rw [Nat.cast_ofNat] at first
  have scale := mul_zpow_mul_zpow (10 ^ Int.log 10 value) precision (Int.log 10 value)
  have whole : (10 : ℚ) ^ Int.log 10 value * 10 ^ ((precision : Int) - 1 - Int.log 10 value) =
      ((10 ^ (precision - 1) : Int) : ℚ) := by
    push_cast
    rw [← zpow_add₀ (by norm_num), ← zpow_natCast]
    congr 1
    omega
  have digits : (((10 ^ (precision - 1) : Int) : ℚ) ≤
      roundHalfEven (value * 10 ^ ((precision : Int) - 1 - Int.log 10 value))) := by
    apply Int.cast_le.mpr
    apply le_roundHalfEven
    rw [← whole]
    exact mul_le_mul_of_nonneg_right first (by positivity)
  rw [roundedPositive_eq positive above.le, ← scale, whole]
  exact mul_le_mul_of_nonneg_right digits (by positivity)

theorem digit_lt_lastPlace {exponent : Int} (least : 10 ^ exponent ≤ value) :
    10 ^ (exponent + 1 - (17 : Nat)) < (2 : ℚ) ^ lastPlace value := by
  have below := lt_zpow_lastPlace value
  rw [zpow_add₀ two_ne_zero] at below
  have split : (10 : ℚ) ^ exponent = 10 ^ (exponent + 1 - (17 : Nat)) * 10 ^ 16 := by
    rw [← zpow_natCast, ← zpow_add₀ (by norm_num)]
    congr 1
    omega
  have unit : (0 : ℚ) < 2 ^ lastPlace value := by positivity
  rw [split] at least
  by_contra larger
  have product := mul_le_mul_of_nonneg_right (not_lt.mp larger) (by norm_num : (0 : ℚ) ≤ 10 ^ 16)
  have digits : (2 : ℚ) ^ lastPlace value * 2 ^ (53 : Int) ≤ 2 ^ lastPlace value * 10 ^ 16 :=
    mul_le_mul_of_nonneg_left (by norm_num) unit.le
  linarith

theorem add_le_of_lt_zpow {place : Int} (finer : lastPlace value ≤ place)
    (rounded : nearest value = value) (below : value < 2 ^ place) :
    value + 2 ^ lastPlace value ≤ 2 ^ place := by
  rcases multiple_of_le finer 1 with ⟨number, multiple⟩
  rw [Int.cast_one, one_mul] at multiple
  have unit : (0 : ℚ) < 2 ^ lastPlace value := by positivity
  have exact : value = roundHalfEven (value / 2 ^ lastPlace value) * 2 ^ lastPlace value :=
    rounded.symm
  generalize roundHalfEven (value / 2 ^ lastPlace value) = digits at exact
  generalize (2 : ℚ) ^ lastPlace value = last at *
  rw [multiple, exact] at below
  have fewer : digits + 1 ≤ number := by
    have less := lt_of_mul_lt_mul_right below unit.le
    exact_mod_cast less
  calc value + last = ((digits + 1 : Int) : ℚ) * last := by
        rw [exact]
        push_cast
        ring
    _ ≤ number * last := mul_le_mul_of_nonneg_right (Int.cast_le.mpr fewer) unit.le
    _ = 2 ^ place := multiple.symm

theorem nearest_roundedPositive (above : 0 < value) (rounded : nearest value = value) :
    nearest (roundedPositive 17 value) = value := by
  have digits : 0 < 17 := by decide
  have error := abs_roundedPositive_sub_le digits above.le
  have least := zpow_log_le_roundedPositive digits above
  have first := Int.zpow_log_le_self (b := 10) (by decide) above
  rw [Nat.cast_ofNat] at first
  have digit := digit_lt_lastPlace first
  have textDigit := digit_lt_lastPlace least
  have textAbove : 0 < roundedPositive 17 value :=
    lt_of_lt_of_le (by positivity) least
  generalize roundedPositive 17 value = text at *
  generalize (10 : ℚ) ^ (Int.log 10 value + 1 - (17 : Nat)) = unit at *
  rcases le_or_gt (lastPlace text) (lastPlace value) with fine | coarse
  · rcases multiple_of_le fine (roundHalfEven (value / 2 ^ lastPlace value)) with ⟨number, multiple⟩
    have exact : value = number * 2 ^ lastPlace text := rounded.symm.trans multiple
    rw [exact]
    apply nearest_of_close
    rw [← exact]
    linarith
  · -- the text would be a whole binary digit above the number
    have normal : -1074 < lastPlace text := lt_of_le_of_lt (le_max_right _ _) coarse
    have power := zpow_lastPlace_le textAbove normal
    have below : value < 2 ^ (lastPlace text + 52) := by
      refine lt_of_lt_of_le (lt_zpow_lastPlace value) (zpow_le_zpow_right₀ one_le_two ?_)
      omega
    have apart := add_le_of_lt_zpow (show lastPlace value ≤ lastPlace text + 52 by omega)
      rounded below
    have close := (abs_le.mp error).2
    linarith

end

/-! ## Signed numbers -/

namespace Double

/-- The nearest number, which is infinite if it is too large. -/
def round (negative : Bool) (value : ℚ) : Double :=
  if small : nearest |value| < 2 ^ 1024 then
    .finite negative
      ⟨nearest |value|, nearest_nonneg (abs_nonneg value), nearest_nearest (abs_nonneg value),
        small⟩
  else .infinite negative

def ofRat (value : ℚ) : Double := round (decide (value < 0)) value

def value? : Double → Option ℚ
  | finite negative magnitude => some (if negative then -magnitude.value else magnitude.value)
  | _ => none

/-- `==`, which holds for both zeros, and never for what is not a number. -/
def equals : Double → Double → Bool
  | infinite first, infinite second => first == second
  | first, second => first.value?.any fun value => second.value? == some value

/-- `std::isfinite` -/
def isFinite (number : Double) : Bool := number.value?.isSome

variable {value : ℚ}

theorem value?_round (negative : Bool) (value : ℚ) :
    (round negative value).value? =
      if nearest |value| < 2 ^ 1024 then
        some (if negative then -nearest |value| else nearest |value|)
      else none := by
  rw [round]
  split
  · rfl
  · rfl

@[simp] theorem nearest_zero : nearest 0 = 0 := by simp [nearest, roundHalfEven]

theorem value?_round_eq {negative : Bool} (sign : value ≠ 0 → (negative = true ↔ value < 0)) :
    (round negative value).value? = (ofRat value).value? := by
  rw [ofRat, value?_round, value?_round]
  by_cases zero : value = 0
  · simp [zero]
  · simp only [decide_eq_true_eq, ← sign zero]

theorem value?_ofRat_neg (value : ℚ) :
    (ofRat (-value)).value? = (ofRat value).value?.map Neg.neg := by
  rcases lt_trichotomy value 0 with negative | rfl | positive
  · rw [ofRat, ofRat, value?_round, value?_round, abs_neg]
    split
    · simp [negative, negative.not_gt]
    · rfl
  · simp [ofRat, value?_round]
  · rw [ofRat, ofRat, value?_round, value?_round, abs_neg]
    split
    · simp [positive, positive.not_gt]
    · rfl

theorem nearest_lt {place : Int} (nonneg : 0 ≤ value) (least : -1074 ≤ place)
    (below : value < 2 ^ (place + 53)) : nearest value < 2 ^ (place + 54) := by
  rcases nonneg.eq_or_lt with rfl | positive
  · rw [nearest_zero]
    positivity
  · have last := lastPlace_le positive least below
    have unit : (0 : ℚ) < 2 ^ lastPlace value := by positivity
    have close := (abs_le.mp (abs_roundHalfEven_sub_le (value / 2 ^ lastPlace value))).2
    have scaled : nearest value ≤ value + 2 ^ lastPlace value := by
      have product := mul_le_mul_of_nonneg_right close unit.le
      rw [sub_mul, div_mul_cancel₀ _ unit.ne'] at product
      rw [nearest]
      linarith
    have larger : (2 : ℚ) ^ lastPlace value ≤ 2 ^ (place + 53) :=
      zpow_le_zpow_right₀ one_le_two (by omega)
    have double : (2 : ℚ) ^ (place + 54) = 2 ^ (place + 53) + 2 ^ (place + 53) := by
      rw [show place + 54 = place + 53 + 1 by omega, zpow_add_one₀ two_ne_zero]
      ring
    linarith

theorem value?_ofRat_isSome {number : Int} (word : number.natAbs < 2 ^ 64) :
    (ofRat number).value?.isSome = true := by
  have magnitude : |(number : ℚ)| = (number.natAbs : ℚ) := by
    rw [Nat.cast_natAbs, Int.cast_abs]
  have below : (number.natAbs : ℚ) < 2 ^ ((11 : Int) + 53) := by
    have cast : (number.natAbs : ℚ) < (2 ^ 64 : Nat) := Nat.cast_lt.mpr word
    norm_num at cast ⊢
    exact cast
  have small := nearest_lt (Nat.cast_nonneg _) (by decide) below
  have small : nearest |(number : ℚ)| < 2 ^ 1024 := by
    rw [magnitude]
    calc nearest (number.natAbs : ℚ) < 2 ^ ((11 : Int) + 54) := small
      _ = 2 ^ 65 := by norm_num
      _ ≤ 2 ^ 1024 := pow_le_pow_right₀ one_le_two (by decide)
  rw [ofRat, value?_round, if_pos small]
  rfl

theorem value?_ofRat_int {number : Int} (few : number.natAbs < 2 ^ 53) :
    (ofRat number).value? = some (number : ℚ) := by
  have magnitude : |(number : ℚ)| = (number.natAbs : ℚ) := by
    rw [Nat.cast_natAbs, Int.cast_abs]
  have exact := nearest_of_few few (show -1074 ≤ (0 : Int) by decide)
  rw [zpow_zero, mul_one, ← magnitude] at exact
  have isSome := value?_ofRat_isSome (few.trans (by decide))
  rw [ofRat, value?_round, exact] at isSome ⊢
  split at isSome
  · next small =>
      rw [if_pos small]
      rcases lt_or_ge (number : ℚ) 0 with negative | nonneg
      · simp [negative, abs_of_neg]
      · simp [nonneg.not_gt, abs_of_nonneg nonneg]
  · cases isSome

/-- A number is told by its 17 digits. -/
theorem value?_ofRat_rounded (negative : Bool) (magnitude : Magnitude) :
    (ofRat (if negative then -Decimal.rounded 17 magnitude.value
      else Decimal.rounded 17 magnitude.value)).value? =
      (finite negative magnitude).value? := by
  have positive : (ofRat (Decimal.rounded 17 magnitude.value)).value? = some magnitude.value := by
    rcases magnitude.nonneg.eq_or_lt with zero | above
    · rw [← zero]
      simp [Decimal.rounded, ofRat, value?_round]
    · have kept := nearest_roundedPositive above magnitude.rounded
      have least := zpow_log_le_roundedPositive (show 0 < 17 by decide) above
      have textAbove : 0 < roundedPositive 17 magnitude.value :=
        lt_of_lt_of_le (by positivity) least
      rw [Decimal.rounded, if_neg above.ne', if_neg above.not_gt, ofRat, value?_round,
        abs_of_pos textAbove, kept, if_pos magnitude.small]
      simp [textAbove.not_gt]
  cases negative with
  | false => exact positive
  | true => rw [if_pos rfl, value?_ofRat_neg, positive, value?, if_pos rfl, Option.map_some]

theorem equals_of_value? {first second : Double} (left : first.value? = some value)
    (right : second.value? = some value) : first.equals second = true := by
  cases first with
  | finite negative magnitude => simp [equals, left, right]
  | infinite negative => cases left
  | nan => cases left

theorem value?_of_equals {first second : Double} (same : first.equals second = true) :
    first.value? = second.value? := by
  cases first with
  | finite negative magnitude =>
      simp only [equals, value?, Option.any_some, beq_iff_eq] at same
      exact same.symm
  | infinite negative =>
      cases second with
      | infinite other => rfl
      | finite other magnitude => cases same
      | nan => cases same
  | nan => cases same

end Double

end AIM.Binary64
