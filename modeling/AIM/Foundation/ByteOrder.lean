import Mathlib.Data.Nat.Bitwise

namespace AIM.ByteOrder

/-! # Byte order

The bytes of a word in network order, most significant byte first, and what masks,
shifts and disjunctions of bytes are as numbers. -/

/-- The bytes of a 16-bit word in network order. -/
def encode16 (word : UInt16) : List UInt8 :=
  [(word >>> 8).toUInt8, word.toUInt8]

/-- The bytes of a 32-bit word in network order. -/
def encode32 (word : UInt32) : List UInt8 :=
  [(word >>> 24).toUInt8, (word >>> 16).toUInt8, (word >>> 8).toUInt8, word.toUInt8]

@[simp] theorem length_encode16 (word : UInt16) : (encode16 word).length = 2 := rfl

@[simp] theorem length_encode32 (word : UInt32) : (encode32 word).length = 4 := rfl

/-! ## Bytes as numbers -/

theorem or_shiftLeft_of_lt {low width : Nat} (small : low < 2 ^ width) (high : Nat) :
    low ||| high <<< width = high * 2 ^ width + low := by
  rw [Nat.or_comm, ← Nat.shiftLeft_add_eq_or_of_lt small, Nat.shiftLeft_eq]

theorem append_toNat (high : BitVec upper) (low : BitVec lower) :
    (high ++ low).toNat = high.toNat * 2 ^ lower + low.toNat := by
  rw [BitVec.toNat_append, ← Nat.shiftLeft_add_eq_or_of_lt low.isLt, Nat.shiftLeft_eq]

theorem or_bytes {first second third : Nat} (firstSmall : first < 2 ^ 8)
    (secondSmall : second < 2 ^ 8) (thirdSmall : third < 2 ^ 8) (fourth : Nat) :
    first ||| second <<< 8 ||| third <<< 16 ||| fourth <<< 24 =
      fourth * 2 ^ 24 + third * 2 ^ 16 + second * 2 ^ 8 + first := by
  have two := or_shiftLeft_of_lt firstSmall second
  have three := @or_shiftLeft_of_lt (second * 2 ^ 8 + first) 16
    (by omega) third
  have four := @or_shiftLeft_of_lt
    (third * 2 ^ 16 + (second * 2 ^ 8 + first)) 24 (by omega) fourth
  rw [two, three, four]
  omega

theorem digits_of_bytes {first second third : Nat} (firstSmall : first < 2 ^ 8)
    (secondSmall : second < 2 ^ 8) (thirdSmall : third < 2 ^ 8) {fourth number : Nat}
    (sum : number = fourth * 2 ^ 24 + third * 2 ^ 16 + second * 2 ^ 8 + first) :
    number % 2 ^ 8 = first ∧ number / 2 ^ 8 % 2 ^ 8 = second ∧
      number / 2 ^ 16 % 2 ^ 8 = third ∧ number / 2 ^ 24 = fourth := by
  refine ⟨?_, ?_, ?_, ?_⟩ <;> omega

theorem bytes_of_digits (number : Nat) :
    number / 2 ^ 24 * 2 ^ 24 + number / 2 ^ 16 % 2 ^ 8 * 2 ^ 16 +
      number / 2 ^ 8 % 2 ^ 8 * 2 ^ 8 + number % 2 ^ 8 = number := by
  omega

theorem and_byte (value position : Nat) :
    value &&& 0xFF <<< position = value / 2 ^ position % 2 ^ 8 * 2 ^ position := by
  have byte : (0xFF : Nat) = 2 ^ 8 - 1 := rfl
  rw [← Nat.shiftRight_eq_div_pow, ← Nat.shiftLeft_eq]
  apply Nat.eq_of_testBit_eq
  intro bit
  rw [byte, Nat.testBit_and, Nat.testBit_shiftLeft, Nat.testBit_shiftLeft,
    Nat.testBit_mod_two_pow, Nat.testBit_shiftRight, Nat.testBit_two_pow_sub_one]
  by_cases above : position ≤ bit
  · rw [Nat.add_sub_cancel' above]
    simp [above, Bool.and_comm]
  · simp [above]

theorem encode16_toNat (word : UInt16) :
    (encode16 word).map UInt8.toNat = [word.toNat / 2 ^ 8, word.toNat % 2 ^ 8] := by
  have bound := word.toNat_lt
  have high : word.toNat / 2 ^ 8 % 2 ^ 8 = word.toNat / 2 ^ 8 := by omega
  simp only [encode16, List.map_cons, List.map_nil, UInt16.toNat_toUInt8,
    UInt16.toNat_shiftRight, UInt16.reduceToNat, Nat.reduceMod, Nat.shiftRight_eq_div_pow,
    high]

theorem encode32_toNat (word : UInt32) :
    (encode32 word).map UInt8.toNat =
      [word.toNat / 2 ^ 24, word.toNat / 2 ^ 16 % 2 ^ 8, word.toNat / 2 ^ 8 % 2 ^ 8,
        word.toNat % 2 ^ 8] := by
  have bound := word.toNat_lt
  have high : word.toNat / 2 ^ 24 % 2 ^ 8 = word.toNat / 2 ^ 24 := by omega
  simp only [encode32, List.map_cons, List.map_nil, UInt32.toNat_toUInt8,
    UInt32.toNat_shiftRight, UInt32.reduceToNat, Nat.reduceMod, Nat.shiftRight_eq_div_pow,
    high]

end AIM.ByteOrder
