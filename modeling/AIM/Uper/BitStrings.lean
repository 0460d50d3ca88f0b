import Mathlib.Data.List.DropRight
import AIM.Uper.Strings

namespace AIM.Uper

/-! # Bit strings

The encoder leaves out the zeros that a bit string ends with, and fills it up to its lower
bound again. -/

/-- `BIT_STRING_t` -/
structure BitString where
  buf : List UInt8
  bitsUnused : Nat
  deriving DecidableEq

namespace BitString

/-- The bits in bytes, the last of them filled up with zeros. -/
def ofBits (bits : List Bool) : BitString := ⟨Bits.toBytes bits, (8 - bits.length % 8) % 8⟩

def unusedOf (v : UInt8) : Nat :=
  let v := v &&& (0 - v)
  7 - (if v &&& 0x0F ≠ 0 then 4 else 0) - (if v &&& 0x33 ≠ 0 then 2 else 0) -
    if v &&& 0x55 ≠ 0 then 1 else 0

/-- `BIT_STRING__compactify` -/
def compactify (st : BitString) : BitString :=
  let buf := st.buf.rdropWhile (· == 0)
  match buf.getLast? with
  | none => ⟨[], 0⟩
  | some last => ⟨buf, unusedOf last⟩

def sizeInBits (st : BitString) : Nat := 8 * st.buf.length - st.bitsUnused

end BitString

def getBits (nbits : Nat) : Decoder (List Bool) := do
  let bytes ← orStarved (← asnGetManyBits nbits)
  pure ((Bits.ofBytes bytes).take nbits)

/-- Every fragment but the last one is of whole bytes. -/
def bitStringDecodeSized (fuel : Nat) (csiz : PerConstraint) : Decoder (BitString × Nat) := do
  if csiz.effectiveBits = some 0 then do
    let bits ← getBits csiz.upperBound.toNat
    pure (.ofBits bits, csiz.upperBound.toNat)
  else do
    let bits ← getFragments csiz.effectiveBits csiz.lowerBound.toNat getBits fuel
    pure (.ofBits bits, 0)

def bitStringDecodeUper (fuel : Nat) (constraints : Option PerConstraints) :
    Decoder (BitString × Nat) := do
  let root ← getRoot (some (sizeConstraint constraints))
  bitStringDecodeSized fuel (root.getD .anySize)

/-- Zeros, 16 bytes of them at once. -/
def putZeros : Nat → Nat → Puts
  | 0, _ => []
  | turns + 1, count =>
      if count = 0 then []
      else if 128 < count then
        asnPutManyBits (List.replicate 16 0) 128 ++ putZeros turns (count - 128)
      else asnPutManyBits (List.replicate 16 0) count

def putBits (buf : List UInt8) (position count : Nat) : Option Puts :=
  some (asnPutManyBits (buf.drop (position / 8)) count)

/-- A size below the lower bound is not outside. -/
def bitSizeOutside (size : Nat) (csiz : PerConstraint) : Bool :=
  csiz.effectiveBits.isSome && decide (csiz.upperBound < size)

def bitStringEncodeUper (constraints : Option PerConstraints) (st : BitString) : Option Puts :=
  if (st.buf = [] ∧ st.bitsUnused ≠ 0) ∨ 7 < st.bitsUnused then none
  else do
    let compact := st.compactify
    let size := compact.sizeInBits
    let lowerBound := (sizeConstraint constraints).lowerBound.toNat
    let trailer := lowerBound - size
    let (inext, root) ← putRoot (bitSizeOutside size) (some (sizeConstraint constraints))
    let string ← putSized root size (if size < lowerBound then 0 else size - lowerBound)
      (some (asnPutManyBits compact.buf size ++ putZeros (trailer + 1) trailer))
      (putBits compact.buf)
    some (inext ++ string)

/-! ## Trailing zeros -/

def stripZeros (bits : List Bool) : List Bool := bits.rdropWhile (!·)

theorem unusedOf_byte : ∀ value : Fin 256, value.val ≠ 0 →
    BitString.unusedOf (.ofNat value.val) ≤ 7 ∧
      Bits.ofNat 8 value.val =
        ((Bits.ofNat 8 value.val).take (7 - BitString.unusedOf (.ofNat value.val)) ++ [true]) ++
          List.replicate (BitString.unusedOf (.ofNat value.val)) false := by
  decide +kernel

theorem stripZeros_append_false (bits : List Bool) (zeros : Nat) :
    stripZeros (bits ++ List.replicate zeros false) = stripZeros bits := by
  induction zeros with
  | zero => simp
  | succ zeros hypothesis =>
      rw [List.replicate_succ', ← List.append_assoc, stripZeros,
        List.rdropWhile_concat_pos _ _ _ rfl]
      exact hypothesis

theorem stripZeros_append_true (bits : List Bool) : stripZeros (bits ++ [true]) = bits ++ [true] :=
  List.rdropWhile_concat_neg _ _ _ (by simp)

theorem compactify_bits (buf : List UInt8) (bitsUnused : Nat) :
    let compact := BitString.compactify ⟨buf, bitsUnused⟩
    compact.sizeInBits ≤ 8 * compact.buf.length ∧
      (Bits.ofBytes compact.buf).take compact.sizeInBits = stripZeros (Bits.ofBytes buf) := by
  induction buf using List.reverseRecOn with
  | nil => exact ⟨Nat.le_refl _, rfl⟩
  | append_singleton buf byte hypothesis =>
      by_cases zero : byte = 0
      · have dropped : BitString.compactify ⟨buf ++ [byte], bitsUnused⟩ =
            BitString.compactify ⟨buf, bitsUnused⟩ := by
          simp only [BitString.compactify]
          rw [List.rdropWhile_concat_pos _ _ _ (by simp [zero])]
        have zeros : Bits.ofBytes [byte] = List.replicate 8 false := by
          rw [zero]
          rfl
        rw [dropped, Bits.ofBytes_append, zeros, stripZeros_append_false]
        exact hypothesis
      · have kept : BitString.compactify ⟨buf ++ [byte], bitsUnused⟩ =
            ⟨buf ++ [byte], BitString.unusedOf byte⟩ := by
          simp only [BitString.compactify]
          rw [List.rdropWhile_concat_neg _ _ _ (by simp [zero])]
          simp
        have positive : byte.toNat ≠ 0 := by
          intro none
          exact zero (UInt8.toNat_inj.mp none)
        rcases unusedOf_byte ⟨byte.toNat, byte.toNat_lt⟩ positive with ⟨few, bits⟩
        dsimp only at few bits
        rw [UInt8.ofNat_toNat] at few bits
        have front : ((Bits.ofNat 8 byte.toNat).take (7 - BitString.unusedOf byte)).length =
            7 - BitString.unusedOf byte := by
          rw [List.length_take, Bits.length_ofNat]
          omega
        rw [kept]
        dsimp only [BitString.sizeInBits]
        constructor
        · omega
        · rw [Bits.ofBytes_append, Bits.ofBytes_cons, Bits.ofBytes_nil, List.append_nil,
            Bits.ofByte, bits, ← List.append_assoc, stripZeros_append_false, ← List.append_assoc,
            stripZeros_append_true]
          apply List.take_left'
          rw [List.length_append, List.length_append, front, Bits.length_ofBytes]
          simp
          omega

/-! ## Bits in fragments -/

theorem ofBytes_replicate_zero (count : Nat) :
    Bits.ofBytes (List.replicate count 0) = List.replicate (8 * count) false := by
  induction count with
  | zero => rfl
  | succ count hypothesis =>
      have byte : Bits.ofByte 0 = List.replicate 8 false := rfl
      rw [List.replicate_succ, Bits.ofBytes_cons, hypothesis, byte, List.replicate_append_replicate]
      congr 1
      omega

theorem bits_asnPutManyBits_zeros {count bytes : Nat} (enough : count ≤ 8 * bytes) :
    (asnPutManyBits (List.replicate bytes 0) count).bits = List.replicate count false := by
  rw [bits_asnPutManyBits (by rwa [List.length_replicate]), ofBytes_replicate_zero,
    List.take_replicate, Nat.min_eq_left enough]

theorem bits_putZeros {turns count : Nat} (enough : count ≤ 128 * turns) :
    (putZeros turns count).bits = List.replicate count false := by
  induction turns generalizing count with
  | zero =>
      rw [Nat.le_zero.mp enough]
      rfl
  | succ turns hypothesis =>
      rw [putZeros]
      split
      next none => rw [none, bits_nil, List.replicate_zero]
      next =>
        split
        next more =>
          rw [bits_append, bits_asnPutManyBits_zeros (by decide), hypothesis (by omega),
            List.replicate_append_replicate, Nat.add_sub_cancel' (Nat.le_of_lt more)]
        next => exact bits_asnPutManyBits_zeros (by omega)

section

variable {fuel : Nat} {constraints : Option PerConstraints} {puts : Puts} {rest : List Bool}

theorem run_getBits {front : List Bool} {nbits : Nat} (length : front.length = nbits)
    (rest : List Bool) :
    (getBits nbits).run (front ++ rest) = .ok (front, rest) := by
  rw [getBits, BitReader.run_bind_of_ok (run_asnGetManyBits length rest),
    BitReader.run_bind_of_ok (BitReader.run_orStop_some ..), BitReader.run_pure,
    Bits.ofBytes_toBytes, List.take_left' length]

theorem getsUnits_bits {buf : List UInt8} {size : Nat} (within : size ≤ 8 * buf.length)
    (limit : Nat) :
    GetsUnits (putBits buf) getBits
      (fun position count => (((Bits.ofBytes buf).take size).drop position).take count)
      size limit where
  units := by
    intro position count puts block covered put _ rest
    cases put
    have whole : 8 * (position / 8) = position := by omega
    have enough : count ≤ 8 * (buf.drop (position / 8)).length := by
      rw [List.length_drop]
      omega
    have part : (((Bits.ofBytes buf).take size).drop position).take count =
        ((Bits.ofBytes buf).drop position).take count := by
      rw [List.drop_take, List.take_take, Nat.min_eq_left (by omega)]
    rw [bits_asnPutManyBits enough, Bits.ofBytes_drop, whole, part]
    apply run_getBits
    rw [List.length_take, List.length_drop, Bits.length_ofBytes]
    omega
  none := @run_getBits [] 0 rfl
  join := by
    intro position covered remaining _ _ less
    rw [← List.drop_drop, ← List.take_add, Nat.add_sub_cancel' less]

/-! ## Bit strings that come back -/

def filledUp (csiz : PerConstraint) (bits : List Bool) : List Bool :=
  if csiz.effectiveBits.isSome then
    bits ++ List.replicate (csiz.lowerBound.toNat - bits.length) false
  else bits

/-- Zeros at the end come back up to the lower bound. -/
def bitStringReceived (constraints : Option PerConstraints) (st : BitString) : BitString :=
  let bits := stripZeros (Bits.ofBytes st.buf)
  let csiz := sizeConstraint constraints
  .ofBits (filledUp (if bitSizeOutside bits.length csiz then .anySize else csiz) bits)

theorem bits_filledUp {csiz : PerConstraint} {buf : List UInt8} {size bits : Nat}
    (effective : csiz.effectiveBits = some bits) (within : size ≤ 8 * buf.length) :
    Puts.bits (asnPutManyBits buf size ++
        putZeros (csiz.lowerBound.toNat - size + 1) (csiz.lowerBound.toNat - size)) =
      filledUp csiz ((Bits.ofBytes buf).take size) := by
  have length : ((Bits.ofBytes buf).take size).length = size := by
    rw [List.length_take, Bits.length_ofBytes, Nat.min_eq_left within]
  rw [bits_append, bits_asnPutManyBits within, bits_putZeros (by omega), filledUp, effective,
    length]
  rfl

theorem length_filledUp {csiz : PerConstraint} {bits : Nat} {string : List Bool}
    (effective : csiz.effectiveBits = some bits) :
    (filledUp csiz string).length = max string.length csiz.lowerBound.toNat := by
  rw [filledUp, effective, Option.isSome_some, if_pos rfl, List.length_append,
    List.length_replicate]
  omega

theorem run_bitStringDecodeSized (csiz : PerConstraint) {buf : List UInt8} {size : Nat}
    (wellFormed : sizeWellFormed csiz = true) (inside : bitSizeOutside size csiz = false)
    (within : size ≤ 8 * buf.length)
    (put : putSized (some csiz) size
      (if size < csiz.lowerBound.toNat then 0 else size - csiz.lowerBound.toNat)
      (some (asnPutManyBits buf size ++
        putZeros (csiz.lowerBound.toNat - size + 1) (csiz.lowerBound.toNat - size)))
      (putBits buf) = some puts)
    (enough : puts.bits.length < fuel) (rest : List Bool) :
    ∃ consumed, (bitStringDecodeSized fuel csiz).run (puts.bits ++ rest) =
      .ok ((.ofBits (filledUp csiz ((Bits.ofBytes buf).take size)), consumed), rest) := by
  rw [putSized, Option.bind_some] at put
  rw [bitStringDecodeSized]
  cases effective : csiz.effectiveBits with
  | none =>
      rw [effective] at put
      have got := run_getFragments (getsUnits_bits within _) rfl (Nat.zero_add _) put
        (Nat.le_of_lt enough) (Nat.le_refl _) rest
      rw [List.drop_zero, List.take_take, Nat.min_self] at got
      rw [if_neg (by simp), getFragments_none, filledUp, effective]
      exact ⟨0, by rw [BitReader.run_bind_of_ok got]; rfl⟩
  | some bits =>
      rw [effective] at put
      rcases Option.bind_eq_some_iff.mp put with ⟨offset, offsetPut, put⟩
      cases put
      have known := wellFormed
      simp only [sizeWellFormed, effective, Option.all_some, Bool.and_eq_true,
        decide_eq_true_eq] at known
      have below : (size : Int) ≤ csiz.upperBound := by
        simpa [bitSizeOutside, effective] using inside
      have length : ((Bits.ofBytes buf).take size).length = size := by
        rw [List.length_take, Bits.length_ofBytes, Nat.min_eq_left within]
      have filledLength := @length_filledUp _ _ ((Bits.ofBytes buf).take size) effective
      rw [length] at filledLength
      have offsetOf : (if size < csiz.lowerBound.toNat then 0
          else size - csiz.lowerBound.toNat) =
          max size csiz.lowerBound.toNat - csiz.lowerBound.toNat := by
        split
        · omega
        · omega
      rw [offsetOf] at offsetPut
      rw [bits_append, List.append_assoc, bits_filledUp effective within, ← effective]
      have bounded : csiz.lowerBound ≤ (max size csiz.lowerBound.toNat : Nat) ∧
          ((max size csiz.lowerBound.toNat : Nat) : Int) ≤ csiz.upperBound := by omega
      exact run_sized BitString.ofBits _ wellFormed effective bounded.1 bounded.2 offsetPut
        (by omega) (run_getBits filledLength rest)

theorem run_bitStringDecodeUper {st : BitString}
    (wellFormed : sizeWellFormed (sizeConstraint constraints) = true)
    (put : bitStringEncodeUper constraints st = some puts) (enough : puts.bits.length < fuel)
    (rest : List Bool) :
    ∃ consumed, (bitStringDecodeUper fuel constraints).run (puts.bits ++ rest) =
      .ok ((bitStringReceived constraints st, consumed), rest) := by
  rw [bitStringEncodeUper] at put
  split at put
  next => cases put
  next =>
    rcases Option.bind_eq_some_iff.mp put with ⟨⟨inext, root⟩, rootPut, put⟩
    rcases Option.bind_eq_some_iff.mp put with ⟨string, stringPut, put⟩
    cases put
    rcases compactify_bits st.buf st.bitsUnused with ⟨within, bits⟩
    have size : (stripZeros (Bits.ofBytes st.buf)).length = st.compactify.sizeInBits := by
      rw [← bits, List.length_take, Bits.length_ofBytes, Nat.min_eq_left within]
    rw [bits_append, List.length_append] at enough
    rw [bits_append, List.append_assoc, bitStringDecodeUper,
      BitReader.run_bind_of_ok (run_getRoot rootPut _), bitStringReceived, size, ← bits]
    rcases putRoot_eq_some rootPut with ⟨_, same, rfl, inside⟩ | ⟨rfl, outside⟩
    · cases same
      rw [inside]
      exact run_bitStringDecodeSized _ wellFormed inside within stringPut (by omega) rest
    · rw [(outside _ rfl).2]
      exact run_bitStringDecodeSized .anySize rfl rfl within stringPut (by omega) rest

end

end AIM.Uper
