import AIM.Uper.Lengths

namespace AIM.Uper

/-! # Open types

A value that is put as bytes behind its length, so that a receiver can skip it that does not
know its type. -/

/-- `uper_encode_to_new_buffer`: nothing is put as one zero byte. -/
def uperEncodeToNewBuffer (puts : Puts) : List UInt8 :=
  if puts.bits = [] then [0] else Bits.toBytes puts.bits

def uperOpenTypePut (encoded : Option Puts) : Option Puts := do
  let puts ← encoded
  let buf := uperEncodeToNewBuffer puts
  putFragments (putBytes buf) (buf.length + 1) 0 buf.length

/-- What is left of the bytes is zeros that fill up the last one, or the only one. -/
def validPadding (buf : List UInt8) (left : List Bool) : Bool :=
  (decide (left.length < 8) || decide (left.length = 8 ∧ buf.length = 1)) &&
    decide (Bits.toNat left = 0)

/-- The decoder is given the bytes alone. Bits that are missing there are not starved for. -/
def uperOpenTypeGet (fuel : Nat) (decoder : Decoder α) : Decoder α := do
  let buf ← getFragments none 0 getBytes fuel
  match decoder.run (Bits.ofBytes buf) with
  | .ok (value, left) => if validPadding buf left then pure value else failed
  | .error .unfinished => .stop .unfinished
  | .error _ => failed

/-- The decoder of unknown types takes 24 bits at once. -/
def uperSotSuck : Nat → Decoder Unit
  | 0 => .stop .unfinished
  | turns + 1 => do
      let some _ ← getFewBits 24 | pure ()
      uperSotSuck turns

/-- Whatever the reason is, what could not be skipped is starved for. -/
def uperOpenTypeSkip (fuel : Nat) : Decoder Unit :=
  (uperOpenTypeGet fuel (uperSotSuck fuel)).mapFault fun
    | .unfinished => .unfinished
    | _ => .wmore

/-! ## Types that are known -/

section

variable {α : Type} {fuel : Nat} {puts : Puts} {rest : List Bool}

theorem uperEncodeToNewBuffer_bits (puts : Puts) :
    ∃ zeros, Bits.ofBytes (uperEncodeToNewBuffer puts) =
        puts.bits ++ List.replicate zeros false ∧
      validPadding (uperEncodeToNewBuffer puts) (List.replicate zeros false) = true := by
  rw [uperEncodeToNewBuffer]
  split
  next none =>
    refine ⟨8, ?_, rfl⟩
    rw [none]
    rfl
  next =>
    refine ⟨Bits.padding puts.bits.length, Bits.ofBytes_toBytes _, ?_⟩
    simp [validPadding, Bits.padding_lt]

theorem length_putFragments_bytes {buf : List UInt8} {turns position remaining : Nat}
    (covers : position + remaining = buf.length)
    (put : putFragments (putBytes buf) turns position remaining = some puts) :
    8 * remaining ≤ puts.bits.length := by
  induction turns generalizing position remaining puts with
  | zero => cases put
  | succ turns hypothesis =>
      rcases putFragments_eq_some put with ⟨units, behind, unitsPut, bits, following⟩
      have within : (uperPutLength remaining).covered ≤ remaining := by
        rcases uperPutLength_cases remaining with ⟨_, all, _⟩ | ⟨_, all, _⟩ | ⟨_, less, _, _⟩
        · exact Nat.le_of_eq all
        · exact Nat.le_of_eq all
        · exact Nat.le_of_lt less
      have unitsLength : units.bits.length = 8 * (uperPutLength remaining).covered := by
        cases unitsPut
        have enough : 8 * (uperPutLength remaining).covered ≤ 8 * (buf.drop position).length := by
          rw [List.length_drop]
          omega
        rw [bits_asnPutManyBits enough, List.length_take, Bits.length_ofBytes,
          Nat.min_eq_left enough]
      rw [bits, List.length_append, List.length_append, unitsLength]
      rcases following with ⟨all, _⟩ | ⟨_, _, same, behindPut⟩
      · omega
      · cases same
        have others := hypothesis (by omega) behindPut
        omega

theorem length_uperEncodeToNewBuffer (puts : Puts) :
    puts.bits.length ≤ 8 * (uperEncodeToNewBuffer puts).length := by
  rcases uperEncodeToNewBuffer_bits puts with ⟨zeros, bits, _⟩
  rw [← Bits.length_ofBytes, bits, List.length_append]
  omega

theorem length_uperOpenTypePut {encoded : Puts}
    (put : uperOpenTypePut (some encoded) = some puts) :
    encoded.bits.length ≤ puts.bits.length :=
  (length_uperEncodeToNewBuffer encoded).trans
    (length_putFragments_bytes (Nat.zero_add _) put)

theorem run_uperOpenTypeGet (good : α → Prop) {decoder : Decoder α} {encoded : Puts}
    (got : ∀ rest, ∃ value, good value ∧
      decoder.run (encoded.bits ++ rest) = .ok (value, rest))
    (put : uperOpenTypePut (some encoded) = some puts) (enough : puts.bits.length ≤ fuel)
    (rest : List Bool) :
    ∃ value, good value ∧
      (uperOpenTypeGet fuel decoder).run (puts.bits ++ rest) = .ok (value, rest) := by
  rcases uperEncodeToNewBuffer_bits encoded with ⟨zeros, bits, valid⟩
  rcases got (List.replicate zeros false) with ⟨value, isGood, decoded⟩
  refine ⟨value, isGood, ?_⟩
  rw [uperOpenTypeGet, BitReader.run_bind_of_ok (run_getFragments_bytes put enough), bits, decoded]
  dsimp only
  rw [if_pos valid]
  rfl

/-! ## Types that are not known -/

theorem run_uperSotSuck {turns : Nat} {bits : List Bool} (enough : bits.length < 24 * turns) :
    (uperSotSuck turns).run bits = .ok ((), bits.drop (bits.length / 24 * 24)) := by
  induction turns generalizing bits with
  | zero => omega
  | succ turns hypothesis =>
      rw [uperSotSuck, BitReader.run_bind, getFewBits, BitReader.run_take]
      split
      next some =>
        have fewer : (bits.drop 24).length < 24 * turns := by
          rw [List.length_drop]
          omega
        have count : bits.length / 24 * 24 = 24 + (bits.length - 24) / 24 * 24 := by omega
        change (uperSotSuck turns).run (bits.drop 24) = _
        rw [hypothesis fewer, List.drop_drop, List.length_drop, count]
      next none =>
        have short : bits.length / 24 * 24 = 0 := by omega
        rw [short]
        rfl

/-- Bytes of an unknown type are only skipped when they are three, six and so on, or one zero. -/
def skippable (buf : List UInt8) : Prop := buf.length % 3 = 0 ∨ buf = [0]

instance (buf : List UInt8) : Decidable (skippable buf) :=
  inferInstanceAs (Decidable (_ ∨ _))

theorem validPadding_iff_skippable (buf : List UInt8) :
    validPadding buf ((Bits.ofBytes buf).drop ((Bits.ofBytes buf).length / 24 * 24)) = true ↔
      skippable buf := by
  have left : ((Bits.ofBytes buf).drop ((Bits.ofBytes buf).length / 24 * 24)).length =
      8 * (buf.length % 3) := by
    rw [List.length_drop, Bits.length_ofBytes]
    omega
  have remainder : buf.length % 3 = 0 ∨ buf.length % 3 = 1 ∨ buf.length % 3 = 2 := by omega
  rcases remainder with none | one | two
  · have all : (Bits.ofBytes buf).drop ((Bits.ofBytes buf).length / 24 * 24) = [] := by
      apply List.length_eq_zero_iff.mp
      omega
    rw [all]
    simp [validPadding, skippable, none, Bits.toNat]
  · rcases buf with _ | ⟨byte, _ | ⟨second, buf⟩⟩
    · cases one
    · have number : Bits.toNat (Bits.ofByte byte) = byte.toNat := by
        rw [Bits.ofByte, Bits.toNat_ofNat, Nat.mod_eq_of_lt byte.toNat_lt]
      simp [validPadding, skippable, number, ← UInt8.toNat_inj]
    · simp only [validPadding, skippable, left, one]
      simp
  · have other : buf ≠ [0] := by
      rintro rfl
      cases two
    simp only [validPadding, skippable, left, two, other]
    simp

theorem run_uperOpenTypeSkip {buf : List UInt8} {turns : Nat}
    (put : putFragments (putBytes buf) turns 0 buf.length = some puts)
    (enough : puts.bits.length < fuel) :
    (uperOpenTypeSkip fuel).run (puts.bits ++ rest) =
      if skippable buf then .ok ((), rest) else .error .wmore := by
  have bytes := length_putFragments_bytes (Nat.zero_add _) put
  have suck : (uperSotSuck fuel).run (Bits.ofBytes buf) =
      .ok ((), (Bits.ofBytes buf).drop ((Bits.ofBytes buf).length / 24 * 24)) := by
    apply run_uperSotSuck
    rw [Bits.length_ofBytes]
    omega
  rw [uperOpenTypeSkip, BitReader.run_mapFault, uperOpenTypeGet,
    BitReader.run_bind_of_ok (run_getFragments_bytes put (by omega)), suck]
  dsimp only
  by_cases valid : skippable buf
  · rw [if_pos ((validPadding_iff_skippable buf).mpr valid), if_pos valid]
    rfl
  · rw [if_neg (fun padding => valid ((validPadding_iff_skippable buf).mp padding)), if_neg valid]
    rfl

end

end AIM.Uper
