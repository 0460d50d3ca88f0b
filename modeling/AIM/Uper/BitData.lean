import AIM.Foundation.BitReader
import AIM.Foundation.ByteOrder

namespace AIM.Uper

/-! # The bits of a message

How the decoders get bits out of the bytes of a message. -/

/-- A position in a buffer: the number of the bit, and how many bits there are, are counted
from `buffer` on. It is never refilled. -/
structure AsnBitData where
  buffer : Nat
  nboff : Nat
  nbits : Nat
  moved : Nat
  deriving DecidableEq

namespace AsnBitData

def asnGetUndo (pd : AsnBitData) (nbits : Nat) : AsnBitData :=
  if pd.nboff < nbits then pd
  else { pd with nboff := pd.nboff - nbits, moved := pd.moved - nbits }

def normalize (pd : AsnBitData) : AsnBitData :=
  if 8 ≤ pd.nboff then
    { pd with
      buffer := pd.buffer + (pd.nboff >>> 3)
      nbits := pd.nbits - pd.nboff / 8 * 8
      nboff := pd.nboff % 8 }
  else pd

/-- `(buf[0] << 16) + (buf[1] << 8) + buf[2]` and the like. -/
def bytesFrom (buf : Nat) : Nat → LoggedReader UInt8 Nat
  | 0 => pure 0
  | count + 1 => do
      let byte ← LoggedReader.readCell buf
      let lower ← bytesFrom (buf + 1) count
      pure (byte.toNat <<< (8 * count) + lower)

/-- `accum` when at most 31 bits are used from `buf` on. -/
def firstBits (buf off nbits : Nat) : LoggedReader UInt8 Nat :=
  if off ≤ 8 then
    if nbits = 0 then pure 0
    else do
      let number ← bytesFrom buf 1
      pure (number >>> (8 - off))
  else if off ≤ 16 then do
    let number ← bytesFrom buf 2
    pure (number >>> (16 - off))
  else if off ≤ 24 then do
    let number ← bytesFrom buf 3
    pure (number >>> (24 - off))
  else do
    let number ← bytesFrom buf 4
    pure (number >>> (32 - off))

/-- `asn_get_few_bits` with the function that it calls for more than 31 bits from a byte on. -/
def getFewBitsBy (again : Nat → AsnBitData → LoggedReader UInt8 (Option Nat × AsnBitData))
    (nbits : Nat) (pd : AsnBitData) : LoggedReader UInt8 (Option Nat × AsnBitData) :=
  if pd.nbits - pd.nboff < nbits then pure (none, pd)
  else
    let start := pd.normalize
    let behind := { start with moved := start.moved + nbits, nboff := start.nboff + nbits }
    if behind.nboff ≤ 31 then do
      let accum ← firstBits behind.buffer behind.nboff nbits
      pure (some (accum &&& (1 <<< nbits - 1)), behind)
    else if nbits ≤ 31 then do
      let high ← again (nbits - 24) (behind.asnGetUndo nbits)
      let low ← again 24 high.2
      pure (some ((high.1.getD 0 <<< 24 ||| low.1.getD 0) &&& (1 <<< nbits - 1)), behind)
    else pure (none, behind.asnGetUndo nbits)

/-- The calls that it makes itself are for at most 24 bits, and make none. -/
def asnGetFewBits : Nat → AsnBitData → LoggedReader UInt8 (Option Nat × AsnBitData) :=
  getFewBitsBy (getFewBitsBy fun _ pd => pure (none, pd))

/-! ## The bits of memory -/

def bitAt (memory : Nat → UInt8) (index : Nat) : Bool :=
  (memory (index / 8)).toNat.testBit (7 - index % 8)

def bitsAt (memory : Nat → UInt8) (start count : Nat) : List Bool :=
  (List.range count).map fun index => bitAt memory (start + index)

def left (memory : Nat → UInt8) (pd : AsnBitData) : List Bool :=
  bitsAt memory (8 * pd.buffer + pd.nboff) (pd.nbits - pd.nboff)

/-- The position is in the first `size` bytes of the memory, and the bits in front of it are
the ones that were counted. -/
def Within (size : Nat) (pd : AsnBitData) : Prop :=
  pd.nboff ≤ pd.nbits ∧ 8 * pd.buffer + pd.nbits = 8 * size ∧
    8 * pd.buffer + pd.nboff = pd.moved

variable {memory : Nat → UInt8} {size : Nat} {pd : AsnBitData}

@[simp] theorem length_bitsAt (start count : Nat) : (bitsAt memory start count).length = count := by
  simp [bitsAt]

@[simp] theorem length_left : (pd.left memory).length = pd.nbits - pd.nboff := length_bitsAt ..

theorem bitsAt_add (start count more : Nat) :
    bitsAt memory start (count + more) =
      bitsAt memory start count ++ bitsAt memory (start + count) more := by
  simp [bitsAt, List.range_add, Nat.add_assoc]

theorem take_bitsAt {start count fewer : Nat} (less : fewer ≤ count) :
    (bitsAt memory start count).take fewer = bitsAt memory start fewer := by
  rw [← Nat.add_sub_cancel' less, bitsAt_add, List.take_left' (length_bitsAt ..)]

theorem drop_bitsAt {start count fewer : Nat} (less : fewer ≤ count) :
    (bitsAt memory start count).drop fewer = bitsAt memory (start + fewer) (count - fewer) := by
  conv_lhs => rw [← Nat.add_sub_cancel' less, bitsAt_add]
  exact List.drop_left' (length_bitsAt ..)

theorem bitsAt_byte (memory : Nat → UInt8) (buf : Nat) :
    bitsAt memory (8 * buf) 8 = Bits.ofByte (memory buf) := by
  have position (index : Nat) (small : index < 8) :
      bitAt memory (8 * buf + index) = (memory buf).toNat.testBit (7 - index) := by
    rw [bitAt, Nat.mul_add_div (by decide), Nat.div_eq_of_lt small, Nat.mul_add_mod,
      Nat.mod_eq_of_lt small, Nat.add_zero]
  have first := position 0 (by decide)
  rw [Nat.add_zero] at first
  simp [bitsAt, List.range_succ, Bits.ofByte, Bits.ofNat, position, first]

theorem bitsAt_byte_add (memory : Nat → UInt8) (buf more : Nat) :
    bitsAt memory (8 * buf) (8 + more) =
      Bits.ofByte (memory buf) ++ bitsAt memory (8 * (buf + 1)) more := by
  rw [bitsAt_add, bitsAt_byte, Nat.mul_succ]

theorem toNat_bitsAt_byte (memory : Nat → UInt8) (buf more : Nat) :
    Bits.toNat (bitsAt memory (8 * buf) (8 + more)) =
      (memory buf).toNat * 2 ^ more + Bits.toNat (bitsAt memory (8 * (buf + 1)) more) := by
  rw [bitsAt_byte_add, Bits.toNat_append, length_bitsAt, Bits.ofByte, Bits.toNat_ofNat,
    Nat.mod_eq_of_lt (memory buf).toNat_lt]

theorem toNat_bitsAt_shift (start : Nat) {fewer count : Nat} (less : fewer ≤ count) :
    Bits.toNat (bitsAt memory start count) >>> (count - fewer) =
      Bits.toNat (bitsAt memory start fewer) := by
  rw [← take_bitsAt less, Bits.toNat_take, length_bitsAt, Nat.shiftRight_eq_div_pow]

/-! ## Getting a few bits -/

theorem value_bytesFrom (buf count : Nat) :
    (bytesFrom buf count).value memory = Bits.toNat (bitsAt memory (8 * buf) (8 * count)) := by
  induction count generalizing buf with
  | zero => rfl
  | succ count hypothesis =>
      rw [bytesFrom, LoggedReader.value_bind, LoggedReader.value_bind, LoggedReader.value_pure,
        LoggedReader.value_readCell, hypothesis, Nat.shiftLeft_eq,
        show 8 * (count + 1) = 8 + 8 * count by omega, toNat_bitsAt_byte]

theorem inside_bytesFrom {buf count : Nat} (within : buf + count ≤ size) :
    (bytesFrom buf count).Inside memory size := by
  induction count generalizing buf with
  | zero => exact LoggedReader.inside_pure _ _ _
  | succ count hypothesis =>
      rw [bytesFrom, LoggedReader.inside_bind, LoggedReader.inside_bind,
        LoggedReader.inside_readCell]
      exact ⟨by omega, hypothesis (by omega), LoggedReader.inside_pure _ _ _⟩

theorem value_shifted (buf : Nat) {off count : Nat} (less : off ≤ 8 * count) :
    ((bytesFrom buf count >>= fun number => pure (number >>> (8 * count - off)) :
      LoggedReader UInt8 Nat)).value memory = Bits.toNat (bitsAt memory (8 * buf) off) := by
  rw [LoggedReader.value_bind, value_bytesFrom, LoggedReader.value_pure, toNat_bitsAt_shift _ less]

theorem inside_shifted {buf count : Nat} (within : buf + count ≤ size) (amount : Nat) :
    ((bytesFrom buf count >>= fun number => pure (number >>> amount) :
      LoggedReader UInt8 Nat)).Inside memory size := by
  rw [LoggedReader.inside_bind]
  exact ⟨inside_bytesFrom within, LoggedReader.inside_pure _ _ _⟩

theorem value_firstBits (buf : Nat) {off nbits : Nat} (some : nbits ≠ 0) (small : off ≤ 31) :
    (firstBits buf off nbits).value memory = Bits.toNat (bitsAt memory (8 * buf) off) := by
  rw [firstBits]
  split
  next one => exact value_shifted buf one
  next =>
    split
    next two => exact value_shifted buf two
    next =>
      split
      next three => exact value_shifted buf three
      next => exact value_shifted buf (by omega : off ≤ 8 * 4)

theorem inside_firstBits {buf off nbits : Nat} (covers : nbits ≤ off)
    (within : 8 * buf + off ≤ 8 * size) : (firstBits buf off nbits).Inside memory size := by
  rw [firstBits]
  split
  next =>
    split
    next => exact LoggedReader.inside_pure _ _ _
    next => exact inside_shifted (by omega) _
  next =>
    split
    next => exact inside_shifted (by omega) _
    next =>
      split
      next => exact inside_shifted (by omega) _
      next => exact inside_shifted (by omega) _

structure Normal (pd start : AsnBitData) : Prop where
  position : 8 * start.buffer + start.nboff = 8 * pd.buffer + pd.nboff
  ending : 8 * start.buffer + start.nbits = 8 * pd.buffer + pd.nbits
  small : start.nboff ≤ 7
  moved : start.moved = pd.moved

theorem normalize_normal (within : pd.Within size) : Normal pd pd.normalize := by
  rcases within with ⟨inside, _⟩
  rw [normalize]
  split
  next =>
    rw [Nat.shiftRight_eq_div_pow]
    constructor
    · dsimp only
      omega
    · dsimp only
      omega
    · dsimp only
      omega
    · rfl
  next =>
    constructor
    · rfl
    · rfl
    · omega
    · rfl

theorem Normal.left {start : AsnBitData} (normal : Normal pd start) :
    start.left memory = pd.left memory := by
  have count : start.nbits - start.nboff = pd.nbits - pd.nboff := by
    have position := normal.position
    have ending := normal.ending
    omega
  rw [AsnBitData.left, AsnBitData.left, normal.position, count]

theorem toNat_masked (start skip nbits : Nat) :
    Bits.toNat (bitsAt memory start (skip + nbits)) &&& (1 <<< nbits - 1) =
      Bits.toNat (bitsAt memory (start + skip) nbits) := by
  rw [Nat.one_shiftLeft, Nat.and_two_pow_sub_one_eq_mod, bitsAt_add, Bits.toNat_append,
    length_bitsAt, Nat.mul_comm, Nat.mul_add_mod]
  have bound := Bits.toNat_lt (bitsAt memory (start + skip) nbits)
  rw [length_bitsAt] at bound
  exact Nat.mod_eq_of_lt bound

/-- What getting a few bits does: it returns the number of the next ones and goes behind
them, or returns nothing. The bits that are left are the remaining ones. -/
structure GetsFewBits (memory : Nat → UInt8) (size nbits : Nat) (pd : AsnBitData)
    (reader : LoggedReader UInt8 (Option Nat × AsnBitData)) : Prop where
  inside : reader.Inside memory size
  within : (reader.value memory).2.Within size
  enough : nbits ≤ 31 → nbits ≤ (pd.left memory).length →
    (reader.value memory).1 = some (Bits.toNat ((pd.left memory).take nbits)) ∧
      (reader.value memory).2.left memory = (pd.left memory).drop nbits ∧
      (reader.value memory).2.moved = pd.moved + nbits
  short : 31 < nbits ∨ (pd.left memory).length < nbits →
    (reader.value memory).1 = none ∧ (reader.value memory).2.left memory = pd.left memory

section

variable {nbits : Nat}

theorem left_behind {start : AsnBitData} (normal : Normal pd start)
    (enough : nbits ≤ (pd.left memory).length) :
    { start with moved := start.moved + nbits, nboff := start.nboff + nbits }.left memory =
      (pd.left memory).drop nbits := by
  have position := normal.position
  rw [← normal.left] at enough ⊢
  rw [length_left] at enough
  rw [left, left, drop_bitsAt enough, ← Nat.add_assoc, Nat.sub_sub]

theorem within_behind {start : AsnBitData} (normal : Normal pd start) (within : pd.Within size)
    (enough : nbits ≤ pd.nbits - pd.nboff) :
    { start with moved := start.moved + nbits, nboff := start.nboff + nbits }.Within size := by
  have position := normal.position
  have ending := normal.ending
  have moved := normal.moved
  rcases within with ⟨inside, fits, counted⟩
  refine ⟨?_, ?_, ?_⟩
  · dsimp only
    omega
  · dsimp only
    omega
  · dsimp only
    omega

theorem undo_behind (start : AsnBitData) :
    { start with moved := start.moved + nbits, nboff := start.nboff + nbits }.asnGetUndo nbits =
      start := by
  rw [asnGetUndo, if_neg (by dsimp only; omega)]
  simp

theorem getsFewBits_short {again : Nat → AsnBitData → LoggedReader UInt8 (Option Nat × AsnBitData)}
    (within : pd.Within size) (short : pd.nbits - pd.nboff < nbits) :
    GetsFewBits memory size nbits pd (getFewBitsBy again nbits pd) := by
  rw [getFewBitsBy, if_pos short]
  constructor
  · exact LoggedReader.inside_pure _ _ _
  · exact within
  · intro _ enough
    rw [length_left] at enough
    omega
  · intro _
    exact ⟨rfl, rfl⟩

theorem getsFewBits_first {again : Nat → AsnBitData → LoggedReader UInt8 (Option Nat × AsnBitData)}
    (within : pd.Within size) (enough : nbits ≤ pd.nbits - pd.nboff)
    (first : pd.normalize.nboff + nbits ≤ 31) :
    GetsFewBits memory size nbits pd (getFewBitsBy again nbits pd) := by
  have normal := normalize_normal within
  have behind := within_behind normal within enough
  rw [getFewBitsBy, if_neg (by omega), if_pos first]
  constructor
  · rw [LoggedReader.inside_bind]
    refine ⟨inside_firstBits (Nat.le_add_left ..) ?_, LoggedReader.inside_pure _ _ _⟩
    have ending := behind.2.1
    have covered := behind.1
    dsimp only at ending covered ⊢
    omega
  · exact behind
  · intro _ long
    refine ⟨?_, left_behind normal long, congrArg (· + nbits) normal.moved⟩
    rw [LoggedReader.value_bind, LoggedReader.value_pure]
    dsimp only
    rcases Nat.eq_zero_or_pos nbits with rfl | positive
    · rw [Nat.shiftLeft_zero, Nat.sub_self, Nat.and_zero]
      rfl
    · rw [value_firstBits _ (Nat.ne_of_gt positive) first, toNat_masked, normal.position,
        AsnBitData.left, take_bitsAt enough]
  · intro short
    rw [length_left] at short
    omega

theorem toNat_twice {bits : List Bool} {low : Nat} (lower : low ≤ nbits)
    (long : nbits ≤ bits.length) :
    (Bits.toNat (bits.take (nbits - low)) <<< low |||
      Bits.toNat ((bits.drop (nbits - low)).take low)) &&& (1 <<< nbits - 1) =
      Bits.toNat (bits.take nbits) := by
  have split : bits.take nbits = bits.take (nbits - low) ++ (bits.drop (nbits - low)).take low := by
    rw [← List.take_add, Nat.sub_add_cancel lower]
  have lowLength : ((bits.drop (nbits - low)).take low).length = low := by
    rw [List.length_take, List.length_drop]
    omega
  have lowBound := Bits.toNat_lt ((bits.drop (nbits - low)).take low)
  have bound := Bits.toNat_lt (bits.take nbits)
  rw [lowLength] at lowBound
  rw [List.length_take_of_le long] at bound
  rw [Nat.or_comm, ByteOrder.or_shiftLeft_of_lt lowBound, Nat.one_shiftLeft,
    Nat.and_two_pow_sub_one_eq_mod, split, Bits.toNat_append, lowLength]
  rw [split, Bits.toNat_append, lowLength] at bound
  exact Nat.mod_eq_of_lt bound

theorem getsFewBits_twice {again : Nat → AsnBitData → LoggedReader UInt8 (Option Nat × AsnBitData)}
    (gets : ∀ fewer other, fewer ≤ 24 → other.Within size →
      GetsFewBits memory size fewer other (again fewer other))
    (within : pd.Within size) (enough : nbits ≤ pd.nbits - pd.nboff)
    (far : ¬pd.normalize.nboff + nbits ≤ 31) :
    GetsFewBits memory size nbits pd (getFewBitsBy again nbits pd) := by
  have normal := normalize_normal within
  have behind := within_behind normal within enough
  have startWithin : pd.normalize.Within size := by
    have start := @within_behind size pd 0 _ normal within (Nat.zero_le _)
    exact start
  rw [getFewBitsBy, if_neg (by omega), if_neg far]
  simp only [undo_behind]
  split
  next narrow =>
    have small := normal.small
    have high := gets (nbits - 24) pd.normalize (by omega) startWithin
    have low := gets 24 ((again (nbits - 24) pd.normalize).value memory).2 (Nat.le_refl _)
      high.within
    constructor
    · simp only [LoggedReader.inside_bind]
      exact ⟨high.inside, low.inside, LoggedReader.inside_pure _ _ _⟩
    · exact behind
    · intro _ long
      refine ⟨?_, left_behind normal long, congrArg (· + nbits) normal.moved⟩
      rw [← normal.left] at long ⊢
      rcases high.enough (by omega) (by omega) with ⟨highNumber, highLeft, _⟩
      have lowLong :
          24 ≤ (((again (nbits - 24) pd.normalize).value memory).2.left memory).length := by
        rw [highLeft, List.length_drop]
        omega
      rcases low.enough (by omega) lowLong with ⟨lowNumber, _, _⟩
      simp only [LoggedReader.value_bind, LoggedReader.value_pure, highNumber, lowNumber, highLeft,
        Option.getD_some]
      exact congrArg some (toNat_twice (by omega) long)
    · intro short
      rw [length_left] at short
      omega
  next wide =>
    constructor
    · exact LoggedReader.inside_pure _ _ _
    · exact startWithin
    · intro narrow
      exact absurd narrow wide
    · intro _
      exact ⟨rfl, normal.left⟩

/-- It gets the next bits, and only reads bytes of the buffer. -/
theorem asnGetFewBits_gets (nbits : Nat) (within : pd.Within size) :
    GetsFewBits memory size nbits pd (asnGetFewBits nbits pd) := by
  have few (fewer : Nat) (other : AsnBitData) (_ : fewer ≤ 24) (inside : other.Within size) :
      GetsFewBits memory size fewer other
        (getFewBitsBy (fun _ pd => pure (none, pd)) fewer other) := by
    rcases Nat.lt_or_ge (other.nbits - other.nboff) fewer with short | enough
    · exact getsFewBits_short inside short
    · have offset := (normalize_normal inside).small
      exact getsFewBits_first inside enough (by omega)
  rcases Nat.lt_or_ge (pd.nbits - pd.nboff) nbits with short | enough
  · exact getsFewBits_short within short
  · by_cases first : pd.normalize.nboff + nbits ≤ 31
    · exact getsFewBits_first within enough first
    · exact getsFewBits_twice few within enough first

end

def source (nbits : Fin 32) : AsnBitData → LoggedReader UInt8 (Option Nat × AsnBitData) :=
  asnGetFewBits nbits

theorem handsOut (memory : Nat → UInt8) (size : Nat) :
    BitReader.HandsOut source memory size (left memory) (Within size) where
  inside nbits _ within := (asnGetFewBits_gets nbits within).inside
  keeps nbits _ within := (asnGetFewBits_gets nbits within).within
  enough nbits _ within long := by
    rcases (asnGetFewBits_gets nbits within).enough (Nat.le_of_lt_succ nbits.isLt) long with
      ⟨number, rest, _⟩
    exact ⟨number, rest⟩
  short nbits _ within few := (asnGetFewBits_gets nbits within).short (.inr few)

end AsnBitData

end AIM.Uper
