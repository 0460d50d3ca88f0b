import AIM.Foundation.BitReader
import AIM.Foundation.ByteOrder

namespace AIM.Uper

/-! # PER support

Numbers, lengths and bytes in a stream of bits: what gets them and what puts them. -/

/-- `RC_WMORE` and `RC_FAIL`. `unfinished` is the bound of a loop, which is never reached. -/
inductive DecodeCode
  | wmore
  | fail
  | unfinished
  deriving DecidableEq

/-- A decoder gets its bits with `asn_get_few_bits`, at most 31 at once. -/
abbrev Decoder (α : Type) := BitReader 31 DecodeCode α

/-- `asn_get_few_bits`, which returns -1 when there are not enough bits. -/
abbrev getFewBits (nbits : Nat) : Decoder (Option Nat) := BitReader.take nbits

def failed : Decoder α := .stop .fail

abbrev orStarved (part : Option α) : Decoder α := .orStop .wmore part

abbrev orFailed (part : Option α) : Decoder α := .orStop .fail part

/-! ## Many bits -/

def threeBytes (value : Nat) : List UInt8 :=
  [.ofNat (value >>> 16), .ofNat (value >>> 8), .ofNat value]

def lastBytes (value nbits : Nat) : List UInt8 :=
  let aligned := if nbits % 8 = 0 then value else value <<< (8 - nbits % 8)
  let width := if nbits % 8 = 0 then nbits else nbits + (8 - nbits % 8)
  (if 16 < width then [.ofNat (aligned >>> 16)] else []) ++
    (if 8 < width then [.ofNat (aligned >>> 8)] else []) ++ [.ofNat aligned]

def getChunks : Nat → Decoder (Option (List UInt8))
  | 0 => pure (some [])
  | count + 1 => do
      let some value ← getFewBits 24 | pure none
      let some rest ← getChunks count | pure none
      pure (some (threeBytes value ++ rest))

def asnGetManyBits (nbits : Nat) : Decoder (Option (List UInt8)) := do
  let some bytes ← getChunks (nbits / 24) | pure none
  if nbits % 24 = 0 then pure (some bytes)
  else do
    let some value ← getFewBits (nbits % 24) | pure none
    pure (some (bytes ++ lastBytes value (nbits % 24)))

/-! ## Lengths and whole numbers -/

/-- A length, and whether another one follows behind what it is the length of. -/
def uperGetLength (ebits : Option Nat) (lowerBound : Nat) : Decoder (Option (Nat × Bool)) := do
  match ebits.filter (· ≤ 16) with
  | some ebits =>
      let some value ← getFewBits ebits | pure none
      pure (some (value + lowerBound, false))
  | none =>
      let some value ← getFewBits 8 | pure none
      if value &&& 0x80 = 0 then pure (some (value &&& 0x7F, false))
      else if value &&& 0x40 = 0 then do
        let some low ← getFewBits 8 | pure none
        pure (some ((value &&& 0x3F) <<< 8 ||| low, false))
      else
        let m := value &&& 0x3F
        pure (if m < 1 ∨ 4 < m then none else some (16384 * m, true))

/-- A bit that is missing counts as a one. -/
def uperGetNslength : Decoder (Option Nat) := do
  let long ← getFewBits 1
  if long = some 0 then do
    let some length ← getFewBits 6 | pure none
    pure (some (length + 1))
  else do
    let some (length, repeats) ← uperGetLength none 0 | pure none
    pure (if repeats then none else some length)

/-- A number of at least 64 is announced by a one and the number of its bytes. -/
def uperGetNsnnwn : Decoder (Option Nat) := do
  let some value ← getFewBits 7 | pure none
  if value &&& 64 = 0 then pure (some value)
  else do
    let some low ← getFewBits 2 | pure none
    let bytes := (value &&& 63) <<< 2 ||| low
    if bytes &&& 128 ≠ 0 then pure none
    else if bytes = 0 then pure (some 0)
    else if 3 ≤ bytes then pure none
    else getFewBits (8 * bytes)

def getWholeNumber : Nat → Nat → Decoder (Option Nat)
  | 0, _ => pure none
  | turns + 1, nbits =>
      if nbits ≤ 31 then getFewBits nbits
      else if 64 < nbits then pure none
      else do
        let some half ← getFewBits 31 | pure none
        let some lhalf ← getWholeNumber turns (nbits - 31) | pure none
        pure (some (half <<< (nbits - 31) ||| lhalf))

def uperGetConstrainedWholeNumber : Nat → Decoder (Option Nat) := getWholeNumber 3

/-! ## Putting -/

/-- Numbers with how many of their low bits are put, in the order of the calls. -/
abbrev Puts := List (Nat × Nat)

def Puts.bits (puts : Puts) : List Bool := puts.flatMap fun put => Bits.ofNat put.2 put.1

def asnPutFewBits (bits obits : Nat) : Option Puts :=
  if obits = 0 then some [] else if 32 ≤ obits then none else some [(bits, obits)]

def putChunks : Nat → List UInt8 → Puts
  | count + 1, first :: second :: third :: src =>
      (first.toNat <<< 16 ||| second.toNat <<< 8 ||| third.toNat, 24) :: putChunks count src
  | _, _ => []

def asnPutManyBits (src : List UInt8) (nbits : Nat) : Puts :=
  let last := src.drop (nbits / 24 * 3)
  let rest := nbits % 24
  putChunks (nbits / 24) src ++
    if rest = 0 then []
    else
      let one := (last.getD 0 0).toNat
      let two := if 8 < rest then one <<< 8 ||| (last.getD 1 0).toNat else one
      let three := if 16 < rest then two <<< 8 ||| (last.getD 2 0).toNat else two
      [(if rest % 8 = 0 then three else three >>> (8 - rest % 8), rest)]

/-- What is put, how much of the length it covers, and whether a length of zero is needed at
the end. -/
structure PutLength where
  puts : Puts
  covered : Nat
  needEom : Bool

def uperPutLength (length : Nat) : PutLength :=
  if length ≤ 127 then ⟨[(length, 8)], length, false⟩
  else if length < 16384 then ⟨[(length ||| 0x8000, 16)], length, false⟩
  else
    let blocks := length >>> 14
    if 4 < blocks then ⟨[(0xC0 ||| 4, 8)], 4 <<< 14, false⟩
    else ⟨[(0xC0 ||| blocks, 8)], blocks <<< 14, length &&& 16383 = 0⟩

def uperPutNslength (length : Nat) : Option Puts :=
  if length ≤ 64 then
    if length = 0 then none else asnPutFewBits (length - 1) 7
  else
    let put := uperPutLength length
    if put.covered ≠ length ∨ put.needEom then none else some put.puts

def uperPutNsnnwn (n : Int) : Option Puts :=
  if n ≤ 63 then
    if n < 0 then none else asnPutFewBits n.toNat 7
  else
    let put (bytes : Nat) : Option Puts :=
      return (← asnPutFewBits bytes 8) ++ (← asnPutFewBits n.toNat (8 * bytes))
    if n < 256 then put 1
    else if n < 65536 then put 2
    else if n < 256 * 65536 then put 3
    else none

def putWholeNumber : Nat → Nat → Nat → Option Puts
  | 0, _, _ => none
  | turns + 1, v, nbits =>
      if nbits ≤ 31 then asnPutFewBits v nbits
      else return (← putWholeNumber turns (v >>> 31) (nbits - 31)) ++ (← asnPutFewBits v 31)

def uperPutConstrainedWholeNumberU (v nbits : Nat) : Option Puts :=
  putWholeNumber (nbits / 31 + 1) v nbits

/-! ## What is got -/

theorem ofBytes_threeBytes (value : Nat) :
    Bits.ofBytes (threeBytes value) = Bits.ofNat 24 value := by
  rw [show (24 : Nat) = 8 + (8 + 8) from rfl, Bits.ofNat_add, Bits.ofNat_add]
  simp [threeBytes, Bits.ofByte_ofNat, Nat.shiftRight_eq_div_pow]

theorem toBytes_lastBytes {value nbits : Nat} (positive : 0 < nbits) (small : nbits < 24) :
    Bits.toBytes (Bits.ofNat nbits value) = lastBytes value nbits := by
  let zeros := if nbits % 8 = 0 then 0 else 8 - nbits % 8
  have aligned : (if nbits % 8 = 0 then value else value <<< (8 - nbits % 8)) =
      value <<< zeros := by
    dsimp only [zeros]
    split
    · rfl
    · rfl
  have width : (if nbits % 8 = 0 then nbits else nbits + (8 - nbits % 8)) = nbits + zeros := by
    dsimp only [zeros]
    split
    · rfl
    · rfl
  have few : zeros < 8 := by
    dsimp only [zeros]
    split
    · decide
    · omega
  have whole : nbits + zeros = 8 ∨ nbits + zeros = 16 ∨ nbits + zeros = 24 := by
    dsimp only [zeros]
    split
    · omega
    · omega
  apply Bits.toBytes_eq few
  rw [← Bits.ofNat_shiftLeft, lastBytes, aligned, width]
  rcases whole with one | two | three
  · simp [one, Bits.ofByte_ofNat]
  · simp [two, Bits.ofByte_ofNat, Nat.shiftRight_eq_div_pow, Bits.ofNat_add 8 8]
  · rw [three]
    exact ofBytes_threeBytes _

section

variable {rest front bits : List Bool} {nbits : Nat}

theorem run_getChunks {count : Nat} (length : front.length = 24 * count) (rest : List Bool) :
    (getChunks count).run (front ++ rest) = .ok (some (Bits.toBytes front), rest) := by
  induction count generalizing front with
  | zero =>
      cases List.length_eq_zero_iff.mp length
      rfl
  | succ count hypothesis =>
      have first : (front.take 24).length = 24 := by
        rw [List.length_take]
        omega
      have others : (front.drop 24).length = 24 * count := by
        rw [List.length_drop]
        omega
      have bytes : Bits.toBytes front =
          threeBytes (Bits.toNat (front.take 24)) ++ Bits.toBytes (front.drop 24) := by
        rw [← Bits.toBytes_append, ofBytes_threeBytes, Bits.ofNat_toNat_of_length first,
          List.take_append_drop]
      conv_lhs => rw [← List.take_append_drop 24 front, List.append_assoc]
      rw [getChunks, BitReader.run_bind, getFewBits, BitReader.run_take_append (by decide) first]
      change ((getChunks count >>= _).run _) = _
      rw [BitReader.run_bind, hypothesis others, bytes]
      rfl

theorem run_asnGetManyBits (length : front.length = nbits) (rest : List Bool) :
    (asnGetManyBits nbits).run (front ++ rest) = .ok (some (Bits.toBytes front), rest) := by
  have chunks : (front.take (24 * (nbits / 24))).length = 24 * (nbits / 24) := by
    rw [List.length_take]
    omega
  have others : (front.drop (24 * (nbits / 24))).length = nbits % 24 := by
    rw [List.length_drop, length]
    omega
  have whole : Bits.ofBytes (Bits.toBytes (front.take (24 * (nbits / 24)))) =
      front.take (24 * (nbits / 24)) := by
    have padded : Bits.padding (24 * (nbits / 24)) = 0 := by
      rw [Bits.padding]
      omega
    rw [Bits.ofBytes_toBytes, chunks, padded, List.replicate_zero, List.append_nil]
  have bytes : Bits.toBytes front = Bits.toBytes (front.take (24 * (nbits / 24))) ++
      Bits.toBytes (front.drop (24 * (nbits / 24))) := by
    rw [← Bits.toBytes_append, whole, List.take_append_drop]
  conv_lhs => rw [← List.take_append_drop (24 * (nbits / 24)) front, List.append_assoc]
  rw [asnGetManyBits, BitReader.run_bind, run_getChunks chunks, bytes]
  change (if nbits % 24 = 0 then _ else _ : Decoder _).run _ = _
  split
  next none =>
    rw [List.length_eq_zero_iff.mp (others.trans none)]
    simp
  next some =>
    rw [BitReader.run_bind, getFewBits, BitReader.run_take_append (by omega) others,
      ← Bits.ofNat_toNat_of_length others,
      toBytes_lastBytes (Nat.pos_of_ne_zero some) (Nat.mod_lt _ (by decide)),
      Bits.ofNat_toNat_of_length others]
    rfl

theorem run_getChunks_short {count : Nat} (short : bits.length < 24 * count) :
    ∃ rest, (getChunks count).run bits = .ok (none, rest) := by
  induction count generalizing bits with
  | zero => exact absurd short (Nat.not_lt_zero _)
  | succ count hypothesis =>
      rw [getChunks, BitReader.run_bind, getFewBits, BitReader.run_take]
      split
      next enough =>
        have fewer : (bits.drop 24).length < 24 * count := by
          rw [List.length_drop]
          omega
        rcases hypothesis fewer with ⟨rest, missing⟩
        refine ⟨rest, ?_⟩
        change ((getChunks count >>= _).run _) = _
        rw [BitReader.run_bind, missing]
        rfl
      next => exact ⟨bits, rfl⟩

theorem run_asnGetManyBits_short (short : bits.length < nbits) :
    ∃ rest, (asnGetManyBits nbits).run bits = .ok (none, rest) := by
  rw [asnGetManyBits, BitReader.run_bind]
  rcases Nat.lt_or_ge bits.length (24 * (nbits / 24)) with few | enough
  · rcases run_getChunks_short few with ⟨rest, missing⟩
    rw [missing]
    exact ⟨rest, rfl⟩
  · have chunks := List.length_take_of_le enough
    have whole := run_getChunks chunks (bits.drop (24 * (nbits / 24)))
    rw [List.take_append_drop] at whole
    rw [whole]
    change ∃ rest, (if nbits % 24 = 0 then _ else _ : Decoder _).run _ = _
    rw [if_neg (by omega), BitReader.run_bind, getFewBits, BitReader.run_take,
      if_neg (by rw [List.length_drop]; omega)]
    exact ⟨_, rfl⟩

theorem run_asnGetManyBits_eq_ok {bytes : List UInt8} :
    (asnGetManyBits nbits).run bits = .ok (some bytes, rest) ↔
      ∃ front, front.length = nbits ∧ bits = front ++ rest ∧ bytes = Bits.toBytes front := by
  constructor
  · intro success
    rcases Nat.lt_or_ge bits.length nbits with short | enough
    · rcases run_asnGetManyBits_short short with ⟨_, missing⟩
      rw [missing] at success
      cases success
    · have got := run_asnGetManyBits (List.length_take_of_le enough) (bits.drop nbits)
      rw [List.take_append_drop, success] at got
      cases got
      exact ⟨bits.take nbits, List.length_take_of_le enough, (List.take_append_drop ..).symm, rfl⟩
  · rintro ⟨front, length, rfl, rfl⟩
    exact run_asnGetManyBits length rest

end

/-! ## What is put -/

@[simp] theorem bits_nil : Puts.bits [] = [] := rfl

@[simp] theorem bits_singleton (value width : Nat) :
    Puts.bits [(value, width)] = Bits.ofNat width value := List.append_nil _

@[simp] theorem bits_append (first second : Puts) :
    Puts.bits (first ++ second) = first.bits ++ second.bits := List.flatMap_append

theorem bits_cons (value width : Nat) (puts : Puts) :
    Puts.bits ((value, width) :: puts) = Bits.ofNat width value ++ puts.bits := rfl

theorem bits_asnPutFewBits {value width : Nat} {puts : Puts}
    (put : asnPutFewBits value width = some puts) :
    width ≤ 31 ∧ puts.bits = Bits.ofNat width value := by
  rw [asnPutFewBits] at put
  split at put
  next none =>
    cases put
    rw [none]
    exact ⟨by decide, rfl⟩
  next =>
    split at put
    · cases put
    · cases put
      exact ⟨by omega, bits_singleton ..⟩

theorem bits_putChunks {count : Nat} {src : List UInt8} (enough : 3 * count ≤ src.length) :
    (putChunks count src).bits = Bits.ofBytes (src.take (3 * count)) := by
  induction count generalizing src with
  | zero => rfl
  | succ count hypothesis =>
      rcases src with _ | ⟨first, _ | ⟨second, _ | ⟨third, src⟩⟩⟩
      · simp at enough
      · simp at enough
        omega
      · simp at enough
        omega
      · have value : first.toNat <<< 16 ||| second.toNat <<< 8 ||| third.toNat =
            (first.toNat <<< 8 ||| second.toNat) <<< 8 ||| third.toNat := by
          rw [Nat.shiftLeft_or_distrib, ← Nat.shiftLeft_add]
        have shorter : 3 * count ≤ src.length := by
          simp only [List.length_cons] at enough
          omega
        rw [putChunks, bits_cons, hypothesis shorter, value, Bits.ofNat_or_byte 16,
          Bits.ofNat_or_byte 8, Nat.mul_succ, List.take_succ_cons, List.take_succ_cons,
          List.take_succ_cons, Bits.ofBytes_cons, Bits.ofBytes_cons, Bits.ofBytes_cons,
          Bits.ofNat_byte, List.append_assoc, List.append_assoc]

theorem ofNat_lastNumber {last : List UInt8} {nbits : Nat} (positive : 0 < nbits)
    (small : nbits < 24) (enough : nbits ≤ 8 * last.length) :
    let one := (last.getD 0 0).toNat
    let two := if 8 < nbits then one <<< 8 ||| (last.getD 1 0).toNat else one
    let three := if 16 < nbits then two <<< 8 ||| (last.getD 2 0).toNat else two
    Bits.ofNat ((nbits + 7) / 8 * 8) three = Bits.ofBytes (last.take ((nbits + 7) / 8)) := by
  rcases last with _ | ⟨first, last⟩
  · simp at enough
    omega
  · rcases Nat.lt_or_ge 8 nbits with more | less
    · rcases last with _ | ⟨second, last⟩
      · simp at enough
        omega
      · rcases Nat.lt_or_ge 16 nbits with most | fewer
        · rcases last with _ | ⟨third, last⟩
          · simp at enough
            omega
          · have count : (nbits + 7) / 8 = 3 := by omega
            simp [more, most, count, Bits.ofNat_or_byte 16, Bits.ofNat_or_byte 8]
        · have count : (nbits + 7) / 8 = 2 := by omega
          simp [more, Nat.not_lt_of_ge fewer, count, Bits.ofNat_or_byte 8]
    · have count : (nbits + 7) / 8 = 1 := by omega
      simp [Nat.not_lt_of_ge less, count,
        Nat.not_lt_of_ge (Nat.le_trans less (by decide : 8 ≤ 16))]

theorem bits_asnPutManyBits {src : List UInt8} {nbits : Nat} (enough : nbits ≤ 8 * src.length) :
    (asnPutManyBits src nbits).bits = (Bits.ofBytes src).take nbits := by
  have chunks : 3 * (nbits / 24) ≤ src.length := by omega
  have split : (Bits.ofBytes src).take nbits =
      Bits.ofBytes (src.take (3 * (nbits / 24))) ++
        (Bits.ofBytes (src.drop (3 * (nbits / 24)))).take (nbits % 24) := by
    rw [Bits.ofBytes_take, Bits.ofBytes_drop, ← List.take_add]
    congr 1
    omega
  rw [asnPutManyBits, bits_append, bits_putChunks chunks, split, Nat.mul_comm (nbits / 24)]
  congr 1
  split
  next none => rw [none, List.take_zero, bits_nil]
  next some =>
    have lastEnough : nbits % 24 ≤ 8 * (src.drop (3 * (nbits / 24))).length := by
      rw [List.length_drop]
      omega
    have number := ofNat_lastNumber (Nat.pos_of_ne_zero some) (Nat.mod_lt _ (by decide)) lastEnough
    have covered : (Bits.ofBytes (src.drop (3 * (nbits / 24)))).take (nbits % 24) =
        (Bits.ofBytes ((src.drop (3 * (nbits / 24))).take ((nbits % 24 + 7) / 8))).take
          (nbits % 24) := by
      rw [Bits.ofBytes_take, List.take_take, Nat.min_eq_left (by omega)]
    rw [bits_singleton, covered, ← number]
    split
    next whole =>
      rw [show (nbits % 24 + 7) / 8 * 8 = nbits % 24 by omega]
      exact (List.take_of_length_le (Nat.le_of_eq (Bits.length_ofNat ..))).symm
    next =>
      rw [Bits.ofNat_shiftRight]
      congr 2
      omega

end AIM.Uper
