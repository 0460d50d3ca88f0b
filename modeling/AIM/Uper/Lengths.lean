import AIM.Uper.Support

namespace AIM.Uper

/-! # Lengths and whole numbers

What is put is got again. From 16384 units on, units are put in fragments, each behind its
own length. -/

def putFragments (putUnits : Nat → Nat → Option Puts) : Nat → Nat → Nat → Option Puts
  | 0, _, _ => none
  | turns + 1, position, remaining => do
      let put := uperPutLength remaining
      let units ← putUnits position put.covered
      let eom := if put.needEom then (uperPutLength 0).puts else []
      if remaining - put.covered = 0 then some (put.puts ++ units ++ eom)
      else do
        let rest ← putFragments putUnits turns (position + put.covered) (remaining - put.covered)
        some (put.puts ++ units ++ eom ++ rest)

def getFragments (ebits : Option Nat) (lowerBound : Nat) (getUnits : Nat → Decoder (List α)) :
    Nat → Decoder (List α)
  | 0 => .stop .unfinished
  | turns + 1 => do
      let (length, repeats) ← orStarved (← uperGetLength ebits lowerBound)
      let units ← getUnits length
      if repeats then do
        let rest ← getFragments ebits lowerBound getUnits turns
        pure (units ++ rest)
      else pure units

/-! ## Whole numbers -/

section

variable {rest : List Bool}

theorem run_getFewBits {nbits value : Nat} (narrow : nbits ≤ 31) (small : value < 2 ^ nbits) :
    (getFewBits nbits).run (Bits.ofNat nbits value ++ rest) = .ok (some value, rest) :=
  BitReader.run_take_ofNat narrow small rest

theorem run_getWholeNumber {turns nbits value : Nat} (enough : nbits ≤ 31 * turns)
    (positive : 0 < turns) (bounded : nbits ≤ 64) (small : value < 2 ^ nbits) :
    (getWholeNumber turns nbits).run (Bits.ofNat nbits value ++ rest) = .ok (some value, rest) := by
  induction turns generalizing nbits value with
  | zero => cases positive
  | succ turns hypothesis =>
      rw [getWholeNumber]
      split
      next narrow => exact run_getFewBits narrow small
      next wide =>
        have split : nbits = 31 + (nbits - 31) := by omega
        have high : value / 2 ^ (nbits - 31) < 2 ^ 31 := by
          rw [Nat.div_lt_iff_lt_mul (Nat.two_pow_pos _), ← Nat.pow_add, ← split]
          exact small
        have low := Nat.mod_lt value (Nat.two_pow_pos (nbits - 31))
        have whole : (value / 2 ^ (nbits - 31)) <<< (nbits - 31) ||| value % 2 ^ (nbits - 31) =
            value := by
          rw [Nat.or_comm, ByteOrder.or_shiftLeft_of_lt low, Nat.div_add_mod']
        have bits : Bits.ofNat nbits value = Bits.ofNat 31 (value / 2 ^ (nbits - 31)) ++
            Bits.ofNat (nbits - 31) (value % 2 ^ (nbits - 31)) := by
          rw [Bits.ofNat_mod, ← Bits.ofNat_add, ← split]
        rw [if_neg (by omega), bits, List.append_assoc, BitReader.run_bind,
          run_getFewBits (by decide) high]
        change ((getWholeNumber turns (nbits - 31) >>= _).run _) = _
        rw [BitReader.run_bind, hypothesis (by omega) (by omega) (by omega) low]
        exact congrArg (fun number => Except.ok (some number, rest)) whole

theorem run_uperGetConstrainedWholeNumber {nbits value : Nat} (bounded : nbits ≤ 64)
    (small : value < 2 ^ nbits) :
    (uperGetConstrainedWholeNumber nbits).run (Bits.ofNat nbits value ++ rest) =
      .ok (some value, rest) :=
  run_getWholeNumber (by omega) (by decide) bounded small

theorem bits_putWholeNumber {turns v nbits : Nat} {puts : Puts}
    (put : putWholeNumber turns v nbits = some puts) : puts.bits = Bits.ofNat nbits v := by
  induction turns generalizing v nbits puts with
  | zero => cases put
  | succ turns hypothesis =>
      rw [putWholeNumber] at put
      split at put
      next => exact (bits_asnPutFewBits put).2
      next wide =>
        rcases Option.bind_eq_some_iff.mp put with ⟨high, highPut, put⟩
        rcases Option.bind_eq_some_iff.mp put with ⟨low, lowPut, put⟩
        cases put
        have split : nbits = nbits - 31 + 31 := by omega
        rw [bits_append, hypothesis highPut, (bits_asnPutFewBits lowPut).2,
          Nat.shiftRight_eq_div_pow, ← Bits.ofNat_add, ← split]

/-! ## Lengths -/

theorem lengthByte_bits : ∀ value : Fin 256,
    (value.val &&& 0x80 = 0 ↔ value.val < 128) ∧
      (value.val &&& 0x40 = 0 ↔ value.val % 128 < 64) := by
  decide +kernel

theorem and_63 (value : Nat) : value &&& 0x3F = value % 64 :=
  Nat.and_two_pow_sub_one_eq_mod value 6

theorem and_127 (value : Nat) : value &&& 0x7F = value % 128 :=
  Nat.and_two_pow_sub_one_eq_mod value 7

/-- What was put of a length: all of it, all of it with a length of zero behind the units, or
the first blocks. -/
inductive PutsLength (length : Nat) : PutLength → Prop
  | short {put : PutLength} (small : length < 16384) (all : put.covered = length)
      (last : put.needEom = false) : PutsLength length put
  | blocks {put : PutLength} (large : 16384 ≤ length) (all : put.covered = length)
      (last : put.needEom = true) : PutsLength length put
  | first {put : PutLength} (large : 16384 ≤ length) (less : put.covered < length)
      (whole : put.covered % 16384 = 0) (last : put.needEom = false) : PutsLength length put

theorem uperPutLength_cases (length : Nat) : PutsLength length (uperPutLength length) := by
  rw [uperPutLength]
  split
  next => exact .short (by omega) rfl rfl
  next =>
    split
    next => exact .short (by omega) rfl rfl
    next =>
      have shifted : length >>> 14 = length / 16384 := Nat.shiftRight_eq_div_pow length 14
      have masked : length &&& 16383 = length % 16384 := Nat.and_two_pow_sub_one_eq_mod length 14
      have large : 16384 ≤ length := by omega
      rw [shifted, masked]
      dsimp only
      split
      next more =>
        refine .first large ?_ rfl rfl
        change 65536 < length
        omega
      next few =>
        have covered : (length / 16384) <<< 14 = length / 16384 * 16384 := Nat.shiftLeft_eq ..
        by_cases whole : length % 16384 = 0
        · refine .blocks large ?_ (decide_eq_true whole)
          change (length / 16384) <<< 14 = length
          omega
        · refine .first large ?_ ?_ (decide_eq_false whole)
          · change (length / 16384) <<< 14 < length
            omega
          · change (length / 16384) <<< 14 % 16384 = 0
            omega

theorem run_uperGetLength_byte {value : Nat} (small : value < 256) :
    (uperGetLength none 0).run (Bits.ofNat 8 value ++ rest) =
      if value < 128 then .ok (some (value, false), rest)
      else if value % 128 < 64 then
        ((getFewBits 8).run rest).map fun low =>
          (low.1.map fun low => ((value % 64) <<< 8 ||| low, false), low.2)
      else
        .ok (if value % 64 < 1 ∨ 4 < value % 64 then none
          else some (16384 * (value % 64), true), rest) := by
  have highest := (lengthByte_bits ⟨value, small⟩).1
  have second := (lengthByte_bits ⟨value, small⟩).2
  dsimp only at highest second
  rw [uperGetLength]
  change ((getFewBits 8 >>= _).run _) = _
  rw [BitReader.run_bind, run_getFewBits (by decide) small]
  change (if value &&& 0x80 = 0 then _ else _ : Decoder _).run _ = _
  simp only [highest, second, and_63, and_127]
  split
  next below => rw [Nat.mod_eq_of_lt below, BitReader.run_pure]
  next =>
    split
    next =>
      rw [BitReader.run_bind]
      cases (getFewBits 8).run rest with
      | error code => rfl
      | ok low =>
          rcases low with ⟨low, rest⟩
          cases low with
          | none => rfl
          | some low => rfl
    next => rfl

theorem run_uperGetLength_put (length : Nat) :
    (uperGetLength none 0).run ((uperPutLength length).puts.bits ++ rest) =
      .ok (some ((uperPutLength length).covered, decide (16384 ≤ length)), rest) := by
  rw [uperPutLength]
  split
  next one =>
    rw [bits_singleton, run_uperGetLength_byte (by omega), if_pos (by omega),
      decide_eq_false (by omega)]
  next more =>
    split
    next two =>
      have number : length ||| 0x8000 = (length / 256 + 128) * 256 + length % 256 := by
        have small : length < 2 ^ 15 := by omega
        rw [show (0x8000 : Nat) = 1 <<< 15 from rfl, ByteOrder.or_shiftLeft_of_lt small]
        omega
      have bits : Bits.ofNat 16 (length ||| 0x8000) =
          Bits.ofNat 8 (length / 256 + 128) ++ Bits.ofNat 8 (length % 256) := by
        rw [Bits.ofNat_add 8 8, number, ← Bits.ofNat_mod 8 ((length / 256 + 128) * 256 + _)]
        congr 2
        · omega
        · omega
      have whole : ((length / 256 + 128) % 64) <<< 8 ||| length % 256 = length := by
        have small : length % 256 < 2 ^ 8 := Nat.mod_lt _ (by decide)
        rw [Nat.or_comm, ByteOrder.or_shiftLeft_of_lt small]
        omega
      rw [bits_singleton, bits, List.append_assoc, run_uperGetLength_byte (by omega),
        if_neg (by omega), if_pos (by omega), run_getFewBits (by decide) (by omega),
        decide_eq_false (by omega)]
      exact congrArg (fun number => Except.ok (some (number, false), rest)) whole
    next blocks =>
      have shifted : length >>> 14 = length / 16384 := Nat.shiftRight_eq_div_pow length 14
      have large : 16384 ≤ length := Nat.le_of_not_lt blocks
      rw [decide_eq_true large, shifted]
      dsimp only
      split
      next =>
        rw [bits_singleton, run_uperGetLength_byte (by decide)]
        simp
      next few =>
        have block : length / 16384 = 1 ∨ length / 16384 = 2 ∨ length / 16384 = 3 ∨
            length / 16384 = 4 := by omega
        rcases block with one | two | three | four
        · rw [one, bits_singleton, run_uperGetLength_byte (by decide)]
          simp
        · rw [two, bits_singleton, run_uperGetLength_byte (by decide)]
          simp
        · rw [three, bits_singleton, run_uperGetLength_byte (by decide)]
          simp
        · rw [four, bits_singleton, run_uperGetLength_byte (by decide)]
          simp

theorem run_uperGetLength_constrained {ebits lowerBound length : Nat} (narrow : ebits ≤ 16)
    (above : lowerBound ≤ length) (small : length - lowerBound < 2 ^ ebits) :
    (uperGetLength (some ebits) lowerBound).run (Bits.ofNat ebits (length - lowerBound) ++ rest) =
      .ok (some (length, false), rest) := by
  have filtered : (some ebits).filter (· ≤ 16) = some ebits :=
    Option.filter_eq_some_iff.mpr ⟨rfl, decide_eq_true narrow⟩
  rw [uperGetLength, filtered]
  change ((getFewBits ebits >>= _).run _) = _
  rw [BitReader.run_bind, run_getFewBits (by omega) small]
  exact congrArg (fun number => Except.ok (some (number, false), rest)) (Nat.sub_add_cancel above)

theorem length_uperPutLength_bits (length : Nat) : 8 ≤ (uperPutLength length).puts.bits.length := by
  rw [uperPutLength]
  split
  · simp
  · split
    · simp
    · dsimp only
      split
      · simp
      · simp

/-! ## Fragments -/

/-- Units that are got as they were put. `part` are the ones from a position on, and a
fragment in front of others is of whole blocks. -/
structure GetsUnits (putUnits : Nat → Nat → Option Puts) (getUnits : Nat → Decoder (List α))
    (part : Nat → Nat → List α) (total limit : Nat) : Prop where
  units : ∀ {position count : Nat} {puts : Puts}, position % 16384 = 0 →
    position + count ≤ total → putUnits position count = some puts → puts.bits.length ≤ limit →
    ∀ rest, (getUnits count).run (puts.bits ++ rest) = .ok (part position count, rest)
  none : ∀ rest, (getUnits 0).run rest = .ok ([], rest)
  join : ∀ {position covered remaining : Nat}, position % 16384 = 0 → covered % 16384 = 0 →
    covered ≤ remaining →
    part position covered ++ part (position + covered) (remaining - covered) =
      part position remaining

section

variable {α : Type} {putUnits : Nat → Nat → Option Puts} {getUnits : Nat → Decoder (List α)}
  {part : Nat → Nat → List α} {total limit : Nat}

theorem run_getFragments_put_succ (getUnits : Nat → Decoder (List α)) (turns length : Nat)
    (bits : List Bool) :
    (getFragments none 0 getUnits (turns + 1)).run ((uperPutLength length).puts.bits ++ bits) =
      (((getUnits (uperPutLength length).covered).run bits).bind fun units =>
        if 16384 ≤ length then
          ((getFragments none 0 getUnits turns).run units.2).map fun rest =>
            (units.1 ++ rest.1, rest.2)
        else .ok units) := by
  rw [getFragments, BitReader.run_bind, run_uperGetLength_put]
  change ((getUnits (uperPutLength length).covered >>= _).run bits) = _
  rw [BitReader.run_bind]
  congr 1
  funext units
  simp only [decide_eq_true_eq]
  split
  next =>
    rw [BitReader.run_bind]
    cases (getFragments none 0 getUnits turns).run units.2 with
    | error code => rfl
    | ok rest => rfl
  next => rfl

theorem putFragments_eq_some {turns position remaining : Nat} {puts : Puts}
    (put : putFragments putUnits turns position remaining = some puts) :
    ∃ units behind, putUnits position (uperPutLength remaining).covered = some units ∧
      puts.bits = (uperPutLength remaining).puts.bits ++ (units.bits ++ Puts.bits behind) ∧
      ((remaining ≤ (uperPutLength remaining).covered ∧
          behind = if (uperPutLength remaining).needEom then (uperPutLength 0).puts else []) ∨
        (uperPutLength remaining).covered < remaining ∧
          ∃ fewer, turns = fewer + 1 ∧ putFragments putUnits fewer
            (position + (uperPutLength remaining).covered)
            (remaining - (uperPutLength remaining).covered) = some behind) := by
  cases turns with
  | zero => cases put
  | succ turns =>
      rcases Option.bind_eq_some_iff.mp put with ⟨units, unitsPut, put⟩
      dsimp only at put
      split at put
      next all =>
        cases put
        refine ⟨units, _, unitsPut, ?_, .inl ⟨by omega, rfl⟩⟩
        rw [bits_append, bits_append, List.append_assoc]
      next some =>
        rcases Option.bind_eq_some_iff.mp put with ⟨behind, behindPut, put⟩
        cases put
        refine ⟨units, behind, unitsPut, ?_, .inr ⟨by omega, turns, rfl, behindPut⟩⟩
        rcases uperPutLength_cases remaining with ⟨_, _, last⟩ | ⟨_, all, _⟩ | ⟨_, _, _, last⟩
        · simp [last]
        · omega
        · simp [last]

theorem run_getFragments (gets : GetsUnits putUnits getUnits part total limit)
    {turns putTurns position remaining : Nat} {puts : Puts} (block : position % 16384 = 0)
    (covers : position + remaining = total)
    (put : putFragments putUnits putTurns position remaining = some puts)
    (enough : puts.bits.length ≤ turns) (fits : puts.bits.length ≤ limit) (rest : List Bool) :
    (getFragments none 0 getUnits turns).run (puts.bits ++ rest) =
      .ok (part position remaining, rest) := by
  induction turns generalizing putTurns position remaining puts with
  | zero =>
      rcases putFragments_eq_some put with ⟨_, _, _, bits, _⟩
      have byte := length_uperPutLength_bits remaining
      rw [bits, List.length_append] at enough
      omega
  | succ turns hypothesis =>
      rcases putFragments_eq_some put with ⟨units, behind, unitsPut, bits, following⟩
      have byte := length_uperPutLength_bits remaining
      have lengths := congrArg List.length bits
      simp only [List.length_append] at lengths
      have got (within : (uperPutLength remaining).covered ≤ remaining) (others : List Bool) :=
        gets.units block (by omega) unitsPut (by omega) others
      rw [bits, List.append_assoc, run_getFragments_put_succ, List.append_assoc]
      rcases uperPutLength_cases remaining with
        ⟨small, all, last⟩ | ⟨large, all, last⟩ | ⟨large, less, whole, last⟩
      · rcases following with ⟨_, rfl⟩ | ⟨more, _⟩
        · rw [got (Nat.le_of_eq all), last, all]
          simp [Except.bind, Nat.not_le_of_gt small]
        · omega
      · rcases following with ⟨_, rfl⟩ | ⟨more, _⟩
        · have zero := length_uperPutLength_bits 0
          rw [last, if_pos rfl] at lengths
          rcases turns with _ | turns
          · omega
          · have ending := run_getFragments_put_succ getUnits turns 0 rest
            rw [show (uperPutLength 0).covered = 0 from rfl, gets.none] at ending
            rw [got (Nat.le_of_eq all), last, all, if_pos rfl]
            simp only [Except.bind, if_pos large]
            rw [ending]
            simp [Except.bind, Except.map]
        · omega
      · rcases following with ⟨done, _⟩ | ⟨_, fewer, _, behindPut⟩
        · omega
        · rw [got (Nat.le_of_lt less)]
          have rest := hypothesis (by omega) (by omega) behindPut (by omega) (by omega)
          simp only [Except.bind, if_pos large]
          rw [rest]
          exact congrArg (fun list => Except.ok (list, _))
            (gets.join block whole (Nat.le_of_lt less))

end

theorem getFragments_none {getUnits : Nat → Decoder (List α)} (lowerBound turns : Nat) :
    getFragments none lowerBound getUnits turns = getFragments none 0 getUnits turns := by
  induction turns with
  | zero => rfl
  | succ turns hypothesis =>
      rw [getFragments, getFragments, hypothesis]
      rfl

/-! ## Bytes in fragments -/

def getBytes (count : Nat) : Decoder (List UInt8) := do
  orStarved (← asnGetManyBits (8 * count))

def putBytes (buf : List UInt8) (position count : Nat) : Option Puts :=
  some (asnPutManyBits (buf.drop position) (8 * count))

theorem run_getBytes {bytes : List UInt8} {count : Nat} (length : bytes.length = count)
    (rest : List Bool) :
    (getBytes count).run (Bits.ofBytes bytes ++ rest) = .ok (bytes, rest) := by
  have bits : (Bits.ofBytes bytes).length = 8 * count := by rw [Bits.length_ofBytes, length]
  rw [getBytes, BitReader.run_bind, run_asnGetManyBits bits, Bits.toBytes_ofBytes]
  rfl

theorem getsUnits_bytes (buf : List UInt8) (limit : Nat) :
    GetsUnits (putBytes buf) getBytes (fun position count => (buf.drop position).take count)
      buf.length limit where
  units := by
    intro position count puts _ within put _ rest
    cases put
    have enough : count ≤ (buf.drop position).length := by
      rw [List.length_drop]
      omega
    rw [bits_asnPutManyBits (by omega), ← Bits.ofBytes_take]
    exact run_getBytes (List.length_take_of_le enough) rest
  none := @run_getBytes [] 0 rfl
  join := by
    intro position covered remaining _ _ less
    rw [← List.drop_drop, ← List.take_add, Nat.add_sub_cancel' less]

theorem run_getFragments_bytes {buf : List UInt8} {turns putTurns : Nat} {puts : Puts}
    (put : putFragments (putBytes buf) putTurns 0 buf.length = some puts)
    (enough : puts.bits.length ≤ turns) :
    (getFragments none 0 getBytes turns).run (puts.bits ++ rest) = .ok (buf, rest) := by
  have got := run_getFragments (getsUnits_bytes buf puts.bits.length) rfl
    (Nat.zero_add _) put enough (Nat.le_refl _) rest
  rwa [List.drop_zero, List.take_length] at got

/-! ## Small numbers -/

theorem uperGetNsnnwn_small {value : Nat} (small : value < 64) :
    uperGetNsnnwn.run (Bits.ofNat 7 value ++ rest) = .ok (some value, rest) := by
  have highest : value &&& 64 = 0 := by
    rw [show (64 : Nat) = 2 ^ 6 from rfl, Nat.and_two_pow, Nat.testBit_lt_two_pow small]
    rfl
  rw [uperGetNsnnwn]
  change ((getFewBits 7 >>= _).run _) = _
  rw [BitReader.run_bind, run_getFewBits (by decide) (by omega)]
  change (if value &&& 64 = 0 then _ else _ : Decoder _).run _ = _
  rw [if_pos highest]
  rfl

theorem uperPutNsnnwn_nonneg {n : Int} {puts : Puts} (put : uperPutNsnnwn n = some puts) :
    0 ≤ n := by
  rw [uperPutNsnnwn] at put
  split at put
  next =>
    split at put
    next => cases put
    next positive => exact Int.not_lt.mp positive
  next => omega

theorem uperPutNsnnwn_large {n : Int} {puts : Puts} (large : 63 < n)
    (put : uperPutNsnnwn n = some puts) :
    ∃ bytes, bytes ≤ 3 ∧ puts.bits = Bits.ofNat 8 bytes ++ Bits.ofNat (8 * bytes) n.toNat := by
  have bits {bytes : Nat} {puts : Puts}
      (put : (do return (← asnPutFewBits bytes 8) ++ (← asnPutFewBits n.toNat (8 * bytes)) :
        Option Puts) = some puts) :
      puts.bits = Bits.ofNat 8 bytes ++ Bits.ofNat (8 * bytes) n.toNat := by
    rcases Option.bind_eq_some_iff.mp put with ⟨count, countPut, put⟩
    rcases Option.bind_eq_some_iff.mp put with ⟨number, numberPut, put⟩
    cases put
    rw [bits_append, (bits_asnPutFewBits countPut).2, (bits_asnPutFewBits numberPut).2]
  rw [uperPutNsnnwn, if_neg (by omega)] at put
  dsimp only at put
  split at put
  · exact ⟨1, by decide, bits put⟩
  · split at put
    · exact ⟨2, by decide, bits put⟩
    · split at put
      · exact ⟨3, by decide, bits put⟩
      · cases put

/-- A normally small number is got as it was put up to 63. A larger one is never got: the one
that announces the number of its bytes is not put. -/
theorem run_uperGetNsnnwn_iff {n : Int} {puts : Puts} (put : uperPutNsnnwn n = some puts) :
    (∀ rest, uperGetNsnnwn.run (puts.bits ++ rest) = .ok (some n.toNat, rest)) ↔ n ≤ 63 := by
  constructor
  · intro got
    apply Int.not_lt.mp
    intro large
    rcases uperPutNsnnwn_large large put with ⟨bytes, few, bits⟩
    have announced : Bits.ofNat 8 bytes = Bits.ofNat 7 (bytes / 2) ++ Bits.ofNat 1 bytes :=
      Bits.ofNat_add 7 1 bytes
    have number := got []
    rw [bits, announced, List.append_assoc, List.append_assoc,
      uperGetNsnnwn_small (by omega)] at number
    injection number with number
    injection number with number
    injection number with number
    omega
  · intro small rest
    rw [uperPutNsnnwn, if_pos small] at put
    split at put
    next => cases put
    next positive =>
      rw [(bits_asnPutFewBits put).2]
      exact uperGetNsnnwn_small (by omega)

theorem uperGetNslength_short {length : Nat} (positive : 0 < length) (short : length ≤ 64) :
    uperGetNslength.run (Bits.ofNat 7 (length - 1) ++ rest) = .ok (some length, rest) := by
  have bits : Bits.ofNat 7 (length - 1) = Bits.ofNat 1 0 ++ Bits.ofNat 6 (length - 1) := by
    rw [Bits.ofNat_add 1 6, Nat.div_eq_of_lt (by omega)]
  rw [bits, List.append_assoc, uperGetNslength, BitReader.run_bind,
    run_getFewBits (by decide) (by decide)]
  change (((getFewBits 6) >>= _).run _) = _
  rw [BitReader.run_bind, run_getFewBits (by decide) (by omega)]
  exact congrArg (fun number => Except.ok (some number, rest)) (Nat.sub_add_cancel positive)

theorem uperPutNslength_long {length : Nat} {puts : Puts} (long : 64 < length)
    (put : uperPutNslength length = some puts) :
    length < 16384 ∧ puts.bits = (uperPutLength length).puts.bits := by
  rw [uperPutNslength, if_neg (by omega)] at put
  dsimp only at put
  split at put
  next => cases put
  next whole =>
    cases put
    rcases uperPutLength_cases length with ⟨small, _, _⟩ | ⟨_, _, last⟩ | ⟨_, less, _, _⟩
    · exact ⟨small, rfl⟩
    · exact absurd (.inr last) whole
    · exact absurd (.inl (Nat.ne_of_lt less)) whole

/-- A long length is got as another one: the bit that tells it from a short one is not put. -/
theorem uperGetNslength_long {length : Nat} (long : 64 < length) (small : length < 16384) :
    ∃ other rest, uperGetNslength.run (uperPutLength length).puts.bits = .ok (some other, rest) ∧
      other ≠ length := by
  rw [uperPutLength]
  split
  next =>
    have bits : Bits.ofNat 8 length =
        Bits.ofNat 1 0 ++ (Bits.ofNat 6 (length / 2) ++ Bits.ofNat 1 length) := by
      rw [Bits.ofNat_add 1 7, Bits.ofNat_add 6 1, Nat.div_eq_of_lt (by omega), Nat.pow_one]
    refine ⟨length / 2 + 1, Bits.ofNat 1 length, ?_, by omega⟩
    rw [bits_singleton, bits, uperGetNslength, BitReader.run_bind,
      run_getFewBits (by decide) (by decide)]
    change (((getFewBits 6) >>= _).run _) = _
    rw [BitReader.run_bind, run_getFewBits (by decide) (by omega)]
    rfl
  next =>
    have number : length ||| 0x8000 = 2 ^ 15 + length := by
      rw [show (0x8000 : Nat) = 1 <<< 15 from rfl, ByteOrder.or_shiftLeft_of_lt (by omega)]
      omega
    have bits : Bits.ofNat 16 (length ||| 0x8000) =
        Bits.ofNat 1 1 ++ (Bits.ofNat 8 (length / 2 ^ 7) ++ Bits.ofNat 7 length) := by
      rw [number, Bits.ofNat_add 1 15, ← Bits.ofNat_add 8 7, ← Bits.ofNat_mod 15 (2 ^ 15 + length),
        Nat.add_mod_left, Bits.ofNat_mod]
      congr 2
      omega
    refine ⟨length / 2 ^ 7, Bits.ofNat 7 length, ?_, by omega⟩
    rw [bits_singleton, bits, uperGetNslength, BitReader.run_bind,
      run_getFewBits (by decide) (by decide)]
    change ((uperGetLength none 0 >>= _).run _) = _
    rw [BitReader.run_bind, run_uperGetLength_byte (by omega), if_pos (by omega)]
    rfl

/-- A normally small length is got as it was put up to 64, and never from 65 on. -/
theorem run_uperGetNslength_iff {length : Nat} {puts : Puts}
    (put : uperPutNslength length = some puts) :
    (∀ rest, uperGetNslength.run (puts.bits ++ rest) = .ok (some length, rest)) ↔
      length ≤ 64 := by
  constructor
  · intro got
    apply Nat.not_lt.mp
    intro long
    rcases uperPutNslength_long long put with ⟨small, bits⟩
    rcases uperGetNslength_long long small with ⟨other, rest, found, different⟩
    have number := got []
    rw [bits, List.append_nil, found] at number
    cases number
    exact different rfl
  · intro short rest
    rw [uperPutNslength, if_pos short] at put
    split at put
    next => cases put
    next positive =>
      rw [(bits_asnPutFewBits put).2]
      exact uperGetNslength_short (Nat.pos_of_ne_zero positive) short

end

end AIM.Uper
