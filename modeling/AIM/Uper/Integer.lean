import AIM.Uper.Lengths

namespace AIM.Uper

/-! # Integers

`INTEGER_t` keeps the bytes of a number in two's complement, most significant byte first. -/

def longMax : Nat := 2 ^ 63 - 1

/-- Leading bytes that only repeat the sign are left out. -/
def significant : List UInt8 → List UInt8
  | first :: second :: rest =>
      if (first = 0 ∧ second < 0x80) ∨ (first = 0xFF ∧ 0x80 ≤ second) then
        significant (second :: rest)
      else first :: second :: rest
  | short => short

def isNegative : List UInt8 → Bool
  | [] => false
  | first :: _ => 0x80 ≤ first

def wordBytes (value : Int) : List UInt8 := Bits.toBytes (Bits.ofNat 64 (value % 2 ^ 64).toNat)

def asnImax2Integer (value : Int) : List UInt8 := significant (wordBytes value)

/-- `asn__integer_convert` before the number is taken as a signed one. -/
def convertBytes (value : Nat) (bytes : List UInt8) : Nat :=
  bytes.foldl (fun value byte => (value <<< 8 ||| byte.toNat) % 2 ^ 64) value

def asnIntegerConvert (bytes : List UInt8) : Int :=
  (convertBytes (if isNegative bytes then 2 ^ 64 - 1 else 0) bytes : Int).bmod (2 ^ 64)

def asnInteger2Imax (buf : List UInt8) : Option Int :=
  let body := if 8 < buf.length then significant buf else buf
  if 8 < body.length then none
  else if body = [] then some 0
  else some (asnIntegerConvert body)

/-- Negative numbers are taken as large ones. -/
def asnInteger2Umax (buf : List UInt8) : Option Nat :=
  let extra := buf.length - 8
  if (buf.take extra).any (· ≠ 0) then none else some (convertBytes 0 (buf.drop extra))

/-- `long` is `intmax_t`. -/
def asnInteger2Long : List UInt8 → Option Int := asnInteger2Imax

def asnInteger2Ulong : List UInt8 → Option Nat := asnInteger2Umax

def asnLong2Integer : Int → List UInt8 := asnImax2Integer

/-- The number is passed as a signed one. -/
def asnUlong2Integer (value : Nat) : List UInt8 := asnImax2Integer ((value : Int).bmod (2 ^ 64))

/-! ## Ranges -/

def perLongRange (lb ub : Int) : Option Nat :=
  if (ub < 0) = (lb < 0) then some (ub - lb).toNat
  else if lb < 0 then some (1 + (ub.toNat + (-(lb + 1)).toNat))
  else none

def perLongRangeRebase (v lb ub : Int) : Option Nat :=
  if v < lb ∨ ub < v ∨ perLongRange lb ub = none then none
  else if (v < 0) = (lb < 0) then some (v - lb).toNat
  else if v < 0 then some (1 + (-(v + 1)).toNat + lb.toNat)
  else if lb < 0 then some (1 + (-(lb + 1)).toNat + v.toNat)
  else none

def perLongRangeUnrebase (inp : Nat) (lb ub : Int) : Option Int := do
  let range ← perLongRange lb ub
  if range < inp then none
  else if inp ≤ longMax then some (inp + lb)
  else some ((lb + longMax + 1) + (inp - longMax - 1 : Nat))

/-! ## Bytes and numbers -/

theorem mod_mul_add_mod (high factor low modulus : Nat) :
    (high % modulus * factor + low) % modulus = (high * factor + low) % modulus := by
  rw [Nat.add_mod, Nat.mod_mul_mod, ← Nat.add_mod]

theorem convertBytes_mod (value : Nat) (bytes : List UInt8) :
    convertBytes value bytes % 2 ^ 64 =
      (value * 2 ^ (8 * bytes.length) + Bits.toNat (Bits.ofBytes bytes)) % 2 ^ 64 := by
  induction bytes generalizing value with
  | nil => simp [convertBytes, Bits.toNat]
  | cons byte bytes hypothesis =>
      have next := hypothesis ((value <<< 8 ||| byte.toNat) % 2 ^ 64)
      rw [convertBytes, List.foldl_cons, ← convertBytes, next, Bits.ofBytes_cons, Bits.toNat_append,
        Bits.length_ofBytes, Bits.ofByte, Bits.toNat_ofNat, Nat.mod_eq_of_lt byte.toNat_lt,
        mod_mul_add_mod, Nat.or_comm, ByteOrder.or_shiftLeft_of_lt byte.toNat_lt,
        List.length_cons, Nat.mul_succ, Nat.pow_add, Nat.add_mul, Nat.mul_assoc,
        Nat.mul_comm (2 ^ 8), Nat.add_assoc]

theorem convertBytes_lt {value : Nat} (small : value < 2 ^ 64) (bytes : List UInt8) :
    convertBytes value bytes < 2 ^ 64 := by
  induction bytes generalizing value with
  | nil => exact small
  | cons byte bytes hypothesis => exact hypothesis (Nat.mod_lt _ (by decide))

/-! ## Leading bytes -/

theorem isNegative_significant (bytes : List UInt8) :
    isNegative (significant bytes) = isNegative bytes := by
  fun_induction significant bytes with
  | case1 first second rest repeats hypothesis =>
      rw [hypothesis]
      rcases repeats with ⟨rfl, positive⟩ | ⟨rfl, negative⟩
      · simp [isNegative, positive]
      · simp [isNegative, negative]
  | case2 => rfl
  | case3 => rfl

theorem convertBytes_significant (bytes : List UInt8) :
    convertBytes (if isNegative bytes then 2 ^ 64 - 1 else 0) (significant bytes) =
      convertBytes (if isNegative bytes then 2 ^ 64 - 1 else 0) bytes := by
  fun_induction significant bytes with
  | case1 first second rest repeats hypothesis =>
      rcases repeats with ⟨rfl, positive⟩ | ⟨rfl, negative⟩
      · have here : isNegative (0 :: second :: rest) = false := rfl
        have behind : isNegative (second :: rest) = false := by simp [isNegative, positive]
        rw [behind] at hypothesis
        rw [here]
        exact hypothesis
      · have here : isNegative (255 :: second :: rest) = true := rfl
        have behind : isNegative (second :: rest) = true := by simp [isNegative, negative]
        have same : ((2 ^ 64 - 1) <<< 8 ||| (255 : UInt8).toNat) % 2 ^ 64 = 2 ^ 64 - 1 := by decide
        rw [behind] at hypothesis
        rw [here, if_pos rfl, convertBytes, convertBytes, List.foldl_cons, same]
        exact hypothesis
  | case2 => rfl
  | case3 => rfl

theorem length_significant_le (bytes : List UInt8) :
    (significant bytes).length ≤ bytes.length := by
  fun_induction significant bytes with
  | case1 first second rest repeats hypothesis => exact Nat.le_succ_of_le hypothesis
  | case2 => exact Nat.le_refl _
  | case3 => exact Nat.le_refl _

theorem significant_ne_nil {bytes : List UInt8} (nonempty : bytes ≠ []) :
    significant bytes ≠ [] := by
  fun_induction significant bytes with
  | case1 first second rest repeats hypothesis => exact hypothesis (List.cons_ne_nil _ _)
  | case2 => exact nonempty
  | case3 => exact nonempty

/-! ## Numbers and bytes -/

@[simp] theorem length_wordBytes (value : Int) : (wordBytes value).length = 8 := by
  rw [wordBytes, Bits.length_toBytes, Bits.length_ofNat]

theorem wordBytes_ne_nil (value : Int) : wordBytes value ≠ [] :=
  List.ne_nil_of_length_eq_add_one (length_wordBytes value)

theorem ofBytes_wordBytes (value : Int) :
    Bits.ofBytes (wordBytes value) = Bits.ofNat 64 (value % 2 ^ 64).toNat := by
  rw [wordBytes, Bits.ofBytes_toBytes, Bits.length_ofNat]
  exact List.append_nil _

theorem toNat_wordBytes (value : Int) :
    Bits.toNat (Bits.ofBytes (wordBytes value)) = (value % 2 ^ 64).toNat := by
  have bound : (value % 2 ^ 64).toNat < 2 ^ 64 := by
    have below := Int.emod_lt_of_pos value (by decide : (0 : Int) < 2 ^ 64)
    omega
  rw [ofBytes_wordBytes, Bits.toNat_ofNat, Nat.mod_eq_of_lt bound]

theorem word_lt (value : Int) : (value % 2 ^ 64).toNat < 2 ^ 64 := by
  have below := Int.emod_lt_of_pos value (by decide : (0 : Int) < 2 ^ 64)
  omega

theorem convertBytes_wordBytes {first : Nat} (small : first < 2 ^ 64) (value : Int) :
    convertBytes first (wordBytes value) = (value % 2 ^ 64).toNat := by
  have modulo := convertBytes_mod first (wordBytes value)
  rwa [length_wordBytes, toNat_wordBytes, Nat.mul_add_mod_self_right,
    Nat.mod_eq_of_lt (convertBytes_lt small _), Nat.mod_eq_of_lt (word_lt value)] at modulo

theorem convert_first_lt (bytes : List UInt8) :
    (if isNegative bytes then 2 ^ 64 - 1 else 0) < 2 ^ 64 := by
  split
  · decide
  · decide

theorem bmod_word (value : Int) :
    (((value % 2 ^ 64).toNat : Nat) : Int).bmod (2 ^ 64) = value.bmod (2 ^ 64) := by
  have word : ((value % 2 ^ 64).toNat : Int) = value % ((2 ^ 64 : Nat) : Int) := by omega
  exact (congrArg (Int.bmod · (2 ^ 64)) word).trans (Int.emod_bmod ..)

theorem asnIntegerConvert_significant (value : Int) :
    asnIntegerConvert (significant (wordBytes value)) = value.bmod (2 ^ 64) := by
  have bytes := (convertBytes_significant (wordBytes value)).trans
    (convertBytes_wordBytes (convert_first_lt _) value)
  unfold asnIntegerConvert
  rw [isNegative_significant, bytes, bmod_word]

theorem significant_wordBytes_length (value : Int) : (significant (wordBytes value)).length ≤ 8 :=
  (length_significant_le _).trans_eq (length_wordBytes value)

theorem asnInteger2Imax_asnImax2Integer {value : Int} (lower : -2 ^ 63 ≤ value)
    (upper : value < 2 ^ 63) : asnInteger2Imax (asnImax2Integer value) = some value := by
  have short := significant_wordBytes_length value
  rw [asnImax2Integer, asnInteger2Imax, if_neg (Nat.not_lt.mpr short),
    if_neg (Nat.not_lt.mpr short), if_neg (significant_ne_nil (wordBytes_ne_nil value)),
    asnIntegerConvert_significant, Int.bmod_eq_of_le (by omega) (by omega)]

theorem isNegative_wordBytes {value : Int} (positive : 0 ≤ value) (upper : value < 2 ^ 63) :
    isNegative (wordBytes value) = false := by
  have word : (value % 2 ^ 64).toNat = value.toNat := by
    rw [Int.emod_eq_of_lt positive (by omega)]
  have bits := ofBytes_wordBytes value
  rw [word] at bits
  cases bytes : wordBytes value with
  | nil => rfl
  | cons first rest =>
      rw [bytes, Bits.ofBytes_cons, Bits.ofNat_add 8 56] at bits
      have same := (List.append_inj bits (by simp)).1
      have number := congrArg Bits.toNat same
      rw [Bits.ofByte, Bits.toNat_ofNat, Bits.toNat_ofNat,
        Nat.mod_eq_of_lt first.toNat_lt, Nat.mod_eq_of_lt (by omega)] at number
      apply decide_eq_false
      rw [UInt8.le_iff_toNat_le, number]
      change ¬ 128 ≤ value.toNat / 2 ^ 56
      omega

theorem asnInteger2Umax_asnImax2Integer {value : Int} (positive : 0 ≤ value)
    (upper : value < 2 ^ 63) : asnInteger2Umax (asnImax2Integer value) = some value.toNat := by
  have short := significant_wordBytes_length value
  have same := convertBytes_significant (wordBytes value)
  rw [isNegative_wordBytes positive upper] at same
  have word : (value % 2 ^ 64).toNat = value.toNat := by
    rw [Int.emod_eq_of_lt positive (by omega)]
  rw [asnImax2Integer, asnInteger2Umax, Nat.sub_eq_zero_of_le short,
    List.take_zero, List.any_nil, if_neg Bool.false_ne_true, List.drop_zero]
  exact congrArg some ((same.trans (convertBytes_wordBytes (by decide) value)).trans word)

end AIM.Uper
