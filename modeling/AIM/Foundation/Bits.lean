import Mathlib.Data.Nat.Bitwise

namespace AIM.Bits

/-! # Bits

Lists of bits, most significant bit first, as numbers and as bytes. -/

/-- The low `width` bits of a number. -/
def ofNat : Nat → Nat → List Bool
  | 0, _ => []
  | width + 1, value => value.testBit width :: ofNat width value

def toNat : List Bool → Nat
  | [] => 0
  | bit :: rest => bit.toNat * 2 ^ rest.length + toNat rest

@[simp] theorem length_ofNat (width value : Nat) : (ofNat width value).length = width := by
  induction width with
  | zero => rfl
  | succ width hypothesis => simp [ofNat, hypothesis]

theorem toNat_lt (bits : List Bool) : toNat bits < 2 ^ bits.length := by
  induction bits with
  | nil => simp [toNat]
  | cons bit rest hypothesis =>
      cases bit <;> simp [toNat, Nat.pow_succ] <;> omega

@[simp] theorem toNat_ofNat (width value : Nat) :
    toNat (ofNat width value) = value % 2 ^ width := by
  induction width with
  | zero => simp [ofNat, toNat, Nat.mod_one]
  | succ width hypothesis =>
      rw [ofNat, toNat, hypothesis, length_ofNat, Nat.toNat_testBit, Nat.mod_pow_succ,
        Nat.add_comm, Nat.mul_comm]

theorem toNat_append (high low : List Bool) :
    toNat (high ++ low) = toNat high * 2 ^ low.length + toNat low := by
  induction high with
  | nil => simp [toNat]
  | cons bit rest hypothesis =>
      rw [List.cons_append, toNat, toNat, hypothesis, List.length_append, Nat.pow_add,
        Nat.add_mul, Nat.mul_assoc, Nat.add_assoc]

theorem toNat_injective {left right : List Bool} (sameLength : left.length = right.length)
    (same : toNat left = toNat right) : left = right := by
  induction left generalizing right with
  | nil => exact (List.length_eq_zero_iff.mp sameLength.symm).symm
  | cons bit rest hypothesis =>
      cases right with
      | nil => cases sameLength
      | cons other others =>
          have lengths : rest.length = others.length := Nat.succ.inj sameLength
          have restBound := toNat_lt rest
          have othersBound := toNat_lt others
          simp only [toNat, lengths] at same restBound
          cases bit <;> cases other <;> simp at same
          · rw [hypothesis lengths same]
          · omega
          · omega
          · rw [hypothesis lengths same]

@[simp] theorem ofNat_toNat (bits : List Bool) : ofNat bits.length (toNat bits) = bits := by
  apply toNat_injective (length_ofNat _ _)
  rw [toNat_ofNat, Nat.mod_eq_of_lt (toNat_lt bits)]

theorem ofNat_toNat_of_length {bits : List Bool} {width : Nat} (length : bits.length = width) :
    ofNat width (toNat bits) = bits := by
  rw [← length, ofNat_toNat]

theorem ofNat_eq_iff {width value : Nat} {bits : List Bool} (length : bits.length = width) :
    ofNat width value = bits ↔ value % 2 ^ width = toNat bits := by
  constructor
  · rintro rfl
    exact (toNat_ofNat width value).symm
  · intro same
    apply toNat_injective ((length_ofNat _ _).trans length.symm)
    rw [toNat_ofNat, same]

theorem ofNat_mod (width value : Nat) : ofNat width (value % 2 ^ width) = ofNat width value := by
  rw [ofNat_eq_iff (length_ofNat _ _), toNat_ofNat, Nat.mod_mod]

theorem ofNat_add (high low value : Nat) :
    ofNat (high + low) value = ofNat high (value / 2 ^ low) ++ ofNat low value := by
  rw [ofNat_eq_iff (by simp), toNat_append, toNat_ofNat, toNat_ofNat, length_ofNat]
  rw [Nat.add_comm high low, Nat.pow_add, Nat.mod_mul, Nat.mul_comm, Nat.add_comm]

@[simp] theorem toNat_replicate_false (count : Nat) : toNat (List.replicate count false) = 0 := by
  induction count with
  | zero => rfl
  | succ count hypothesis => simp [List.replicate_succ, toNat, hypothesis]

theorem ofNat_zero (width : Nat) : ofNat width 0 = List.replicate width false := by
  rw [ofNat_eq_iff (List.length_replicate ..)]
  simp

theorem toNat_take (bits : List Bool) (count : Nat) :
    toNat (bits.take count) = toNat bits / 2 ^ (bits.length - count) := by
  have split := toNat_append (bits.take count) (bits.drop count)
  have bound := toNat_lt (bits.drop count)
  rw [List.take_append_drop] at split
  rw [List.length_drop] at split bound
  rw [split, Nat.mul_comm, Nat.mul_add_div (Nat.two_pow_pos _), Nat.div_eq_of_lt bound,
    Nat.add_zero]

/-! ## Bytes -/

def ofByte (byte : UInt8) : List Bool := ofNat 8 byte.toNat

def ofBytes (bytes : List UInt8) : List Bool := bytes.flatMap ofByte

/-- The byte that begins with the bits, at most eight. -/
def byteOf (bits : List Bool) : UInt8 := .ofNat (toNat bits * 2 ^ (8 - bits.length))

def firstBytes : Nat → List Bool → List UInt8
  | 0, _ => []
  | count + 1, bits => byteOf (bits.take 8) :: firstBytes count (bits.drop 8)

/-- The bits in bytes, the last of them filled up with zeros. -/
def toBytes (bits : List Bool) : List UInt8 := firstBytes ((bits.length + 7) / 8) bits

@[simp] theorem length_ofByte (byte : UInt8) : (ofByte byte).length = 8 := length_ofNat _ _

@[simp] theorem ofNat_byte (byte : UInt8) : ofNat 8 byte.toNat = ofByte byte := rfl

@[simp] theorem ofBytes_nil : ofBytes [] = [] := rfl

@[simp] theorem ofBytes_cons (byte : UInt8) (bytes : List UInt8) :
    ofBytes (byte :: bytes) = ofByte byte ++ ofBytes bytes := rfl

@[simp] theorem ofBytes_append (left right : List UInt8) :
    ofBytes (left ++ right) = ofBytes left ++ ofBytes right := List.flatMap_append

@[simp] theorem length_ofBytes (bytes : List UInt8) :
    (ofBytes bytes).length = 8 * bytes.length := by
  induction bytes with
  | nil => rfl
  | cons byte bytes hypothesis => simp [hypothesis]; omega

theorem ofBytes_take (bytes : List UInt8) (count : Nat) :
    ofBytes (bytes.take count) = (ofBytes bytes).take (8 * count) := by
  induction bytes generalizing count with
  | nil => simp
  | cons byte bytes hypothesis =>
      cases count with
      | zero => rfl
      | succ count =>
          rw [List.take_succ_cons, ofBytes_cons, ofBytes_cons, hypothesis, Nat.mul_succ,
            Nat.add_comm, ← length_ofByte byte, List.take_length_add_append]

theorem ofBytes_drop (bytes : List UInt8) (count : Nat) :
    ofBytes (bytes.drop count) = (ofBytes bytes).drop (8 * count) := by
  induction bytes generalizing count with
  | nil => simp
  | cons byte bytes hypothesis =>
      cases count with
      | zero => rfl
      | succ count =>
          rw [List.drop_succ_cons, ofBytes_cons, hypothesis, Nat.mul_succ, Nat.add_comm,
            ← length_ofByte byte, List.drop_length_add_append]

theorem toNat_byteOf {bits : List Bool} (short : bits.length ≤ 8) :
    (byteOf bits).toNat = toNat bits * 2 ^ (8 - bits.length) := by
  have bound : toNat bits * 2 ^ (8 - bits.length) < 2 ^ bits.length * 2 ^ (8 - bits.length) :=
    Nat.mul_lt_mul_of_pos_right (toNat_lt bits) (Nat.two_pow_pos _)
  rw [← Nat.pow_add, Nat.add_sub_cancel' short] at bound
  exact UInt8.toNat_ofNat_of_lt' bound

theorem ofByte_byteOf {bits : List Bool} (short : bits.length ≤ 8) :
    ofByte (byteOf bits) = bits ++ List.replicate (8 - bits.length) false := by
  rw [ofByte, ofNat_eq_iff (by simp; omega), toNat_byteOf short, toNat_append]
  have bound := toNat_lt (bits ++ List.replicate (8 - bits.length) false)
  rw [toNat_append, List.length_append, List.length_replicate, Nat.add_sub_cancel' short] at bound
  rw [toNat_replicate_false, Nat.add_zero, List.length_replicate] at *
  exact Nat.mod_eq_of_lt bound

@[simp] theorem byteOf_ofByte (byte : UInt8) : byteOf (ofByte byte) = byte := by
  apply UInt8.toNat_inj.mp
  rw [toNat_byteOf (by simp), length_ofByte, ofByte, toNat_ofNat, Nat.sub_self, Nat.pow_zero,
    Nat.mul_one, Nat.mod_eq_of_lt byte.toNat_lt]

@[simp] theorem length_firstBytes (count : Nat) (bits : List Bool) :
    (firstBytes count bits).length = count := by
  induction count generalizing bits with
  | zero => rfl
  | succ count hypothesis => simp [firstBytes, hypothesis]

@[simp] theorem length_toBytes (bits : List Bool) :
    (toBytes bits).length = (bits.length + 7) / 8 := length_firstBytes _ _

theorem toBytes_append_byte {byte : List Bool} (whole : byte.length = 8) (rest : List Bool) :
    toBytes (byte ++ rest) = byteOf byte :: toBytes rest := by
  have count : ((byte ++ rest).length + 7) / 8 = (rest.length + 7) / 8 + 1 := by
    rw [List.length_append, whole]
    omega
  rw [toBytes, count, firstBytes, List.take_left' whole, List.drop_left' whole, toBytes]

theorem toBytes_append (bytes : List UInt8) (rest : List Bool) :
    toBytes (ofBytes bytes ++ rest) = bytes ++ toBytes rest := by
  induction bytes with
  | nil => rfl
  | cons byte bytes hypothesis =>
      rw [ofBytes_cons, List.append_assoc, toBytes_append_byte (length_ofByte byte), hypothesis,
        byteOf_ofByte, List.cons_append]

@[simp] theorem toBytes_nil : toBytes [] = [] := rfl

@[simp] theorem toBytes_ofBytes (bytes : List UInt8) : toBytes (ofBytes bytes) = bytes := by
  have whole := toBytes_append bytes []
  rwa [List.append_nil, toBytes_nil, List.append_nil] at whole

theorem ofBytes_injective : Function.Injective ofBytes :=
  Function.LeftInverse.injective toBytes_ofBytes

theorem ofByte_ofNat (value : Nat) : ofByte (.ofNat value) = ofNat 8 value := by
  rw [ofByte, UInt8.toNat_ofNat', ← ofNat_mod 8 value]

def padding (length : Nat) : Nat := (length + 7) / 8 * 8 - length

theorem padding_lt (length : Nat) : padding length < 8 := by
  rw [padding]
  omega

theorem ofBytes_toBytes (bits : List Bool) :
    ofBytes (toBytes bits) = bits ++ List.replicate (padding bits.length) false := by
  induction count : bits.length using Nat.strong_induction_on generalizing bits with
  | h length hypothesis =>
      subst count
      rcases Nat.lt_or_ge bits.length 8 with short | long
      · rcases Nat.eq_zero_or_pos bits.length with zero | positive
        · cases List.length_eq_zero_iff.mp zero
          rfl
        · have one : (bits.length + 7) / 8 = 1 := by omega
          have padded : padding bits.length = 8 - bits.length := by rw [padding, one]
          rw [toBytes, one, firstBytes, firstBytes, List.take_of_length_le (by omega),
            ofBytes_cons, ofBytes_nil, List.append_nil, ofByte_byteOf (by omega), padded]
      · have whole : (bits.take 8).length = 8 := by
          rw [List.length_take]
          omega
        have padded : padding (bits.drop 8).length = padding bits.length := by
          rw [padding, padding, List.length_drop]
          omega
        have split := toBytes_append_byte whole (bits.drop 8)
        rw [List.take_append_drop] at split
        rw [split, ofBytes_cons, hypothesis _ (by rw [List.length_drop]; omega) _ rfl,
          ofByte_byteOf (by omega), whole, padded, List.replicate_zero, List.append_nil,
          ← List.append_assoc, List.take_append_drop]

theorem toBytes_eq {bits : List Bool} {bytes : List UInt8} {zeros : Nat} (few : zeros < 8)
    (same : ofBytes bytes = bits ++ List.replicate zeros false) : toBytes bits = bytes := by
  have length := congrArg List.length same
  rw [length_ofBytes, List.length_append, List.length_replicate] at length
  have padded : padding bits.length = zeros := by
    rw [padding]
    omega
  apply ofBytes_injective
  rw [ofBytes_toBytes, padded, same]

theorem ofNat_shiftLeft (width zeros value : Nat) :
    ofNat (width + zeros) (value <<< zeros) = ofNat width value ++ List.replicate zeros false := by
  rw [ofNat_add, Nat.shiftLeft_eq, Nat.mul_div_cancel _ (Nat.two_pow_pos _), ← ofNat_mod zeros,
    Nat.mul_mod_left, ofNat_zero]

theorem ofNat_shiftRight (width zeros value : Nat) :
    ofNat width (value >>> zeros) = (ofNat (width + zeros) value).take width := by
  rw [ofNat_add, List.take_left' (length_ofNat ..), Nat.shiftRight_eq_div_pow]

theorem ofNat_or_byte (width value : Nat) (byte : UInt8) :
    ofNat (width + 8) (value <<< 8 ||| byte.toNat) = ofNat width value ++ ofByte byte := by
  rw [ofNat_add, ← Nat.shiftLeft_add_eq_or_of_lt byte.toNat_lt, Nat.shiftLeft_eq, Nat.mul_comm,
    Nat.mul_add_div (by decide), Nat.div_eq_of_lt byte.toNat_lt, Nat.add_zero,
    ← ofNat_mod 8, Nat.mul_add_mod, Nat.mod_eq_of_lt byte.toNat_lt, ofByte]

end AIM.Bits
