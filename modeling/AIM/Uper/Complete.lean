import AIM.Uper.BitData
import AIM.Uper.Endings
import AIM.Uper.RoundTrip

namespace AIM.Uper

/-! # Complete encodings

The decoder on the bytes of a buffer. -/

/-- What `uper_decode` returns: nothing when its assertion stops the program, and else a code
or the value and how many bits were taken. -/
abbrev Decoded := Option (Except DecodeCode (Value × Nat))

def uperDecode (descriptor : Descriptor) (size : Nat) : LoggedReader UInt8 Decoded := do
  let (result, pd) ← (decode (8 * size + 1) descriptor none).runOn AsnBitData.source
    ⟨0, 0, 8 * size, 0⟩
  match result with
  | .error code => pure (some (.error code))
  | .ok (value, _) =>
      let consumed := pd.buffer <<< 3 + pd.nboff
      if consumed = pd.moved then pure (some (.ok (value, consumed))) else pure none

/-- The bytes that were taken are counted, a zero one for a value without bits. -/
def uperDecodeComplete (descriptor : Descriptor) (size : Nat) : LoggedReader UInt8 Decoded := do
  let rval ← uperDecode descriptor size
  match rval with
  | some (.ok (value, consumed)) =>
      if consumed ≠ 0 then pure (some (.ok (value, (consumed + 7) >>> 3)))
      else if size = 0 then pure (some (.error .wmore))
      else do
        let first ← LoggedReader.readCell 0
        if first = 0 then pure (some (.ok (value, 1))) else pure (some (.error .fail))
  | other => pure other

/-! ## Bytes and bits -/

section

variable {memory : Nat → UInt8} {descriptor : Descriptor} {size : Nat}

def bufferOf (memory : Nat → UInt8) (size : Nat) : List UInt8 := (List.range size).map memory

@[simp] theorem length_bufferOf (memory : Nat → UInt8) (size : Nat) :
    (bufferOf memory size).length = size := by
  simp [bufferOf]

theorem bitsAt_bufferOf (memory : Nat → UInt8) (size : Nat) :
    AsnBitData.bitsAt memory 0 (8 * size) = Bits.ofBytes (bufferOf memory size) := by
  induction size with
  | zero => rfl
  | succ size hypothesis =>
      have byte := AsnBitData.bitsAt_byte memory size
      rw [Nat.mul_succ, AsnBitData.bitsAt_add, hypothesis, Nat.zero_add, byte, bufferOf, bufferOf,
        List.range_succ, List.map_append, Bits.ofBytes_append]
      simp

theorem within_start (size : Nat) : AsnBitData.Within size ⟨0, 0, 8 * size, 0⟩ :=
  ⟨Nat.zero_le _, by simp, rfl⟩

theorem left_start (memory : Nat → UInt8) (size : Nat) :
    AsnBitData.left memory ⟨0, 0, 8 * size, 0⟩ = Bits.ofBytes (bufferOf memory size) :=
  bitsAt_bufferOf memory size

theorem value_uperDecode (descriptor : Descriptor) (memory : Nat → UInt8) (size : Nat) :
    (uperDecode descriptor size).value memory =
      some (((decode (8 * size + 1) descriptor none).run
        (Bits.ofBytes (bufferOf memory size))).map fun result =>
          (result.1.1, 8 * size - result.2.length)) := by
  have hands := AsnBitData.handsOut memory size
  have same := hands.runOn_value (decode (8 * size + 1) descriptor none) (within_start size)
  have valid := hands.runOn_valid (decode (8 * size + 1) descriptor none) (within_start size)
  rw [left_start] at same
  dsimp only at same
  rw [same, uperDecode, LoggedReader.value_bind]
  generalize ((decode (8 * size + 1) descriptor none).runOn AsnBitData.source
    ⟨0, 0, 8 * size, 0⟩).value memory = final at valid ⊢
  rcases final with ⟨result, pd⟩
  rcases valid with ⟨ordered, ending, counted⟩
  cases result with
  | error code => rfl
  | ok result =>
      have consumed : pd.buffer <<< 3 + pd.nboff = 8 * pd.buffer + pd.nboff := by
        rw [Nat.shiftLeft_eq, Nat.mul_comm]
      have taken : 8 * size - (pd.left memory).length = 8 * pd.buffer + pd.nboff := by
        rw [AsnBitData.length_left]
        dsimp only at ordered ending
        omega
      have asserted : pd.buffer <<< 3 + pd.nboff = pd.moved := consumed.trans counted
      dsimp only [Except.map]
      rw [if_pos asserted, taken, consumed]
      rfl

theorem inside_uperDecode (descriptor : Descriptor) (memory : Nat → UInt8) (size : Nat) :
    (uperDecode descriptor size).Inside memory size := by
  rw [uperDecode, LoggedReader.inside_bind]
  refine ⟨(AsnBitData.handsOut memory size).runOn_inside _ (within_start size), ?_⟩
  rcases ((decode (8 * size + 1) descriptor none).runOn AsnBitData.source
    ⟨0, 0, 8 * size, 0⟩).value memory with ⟨result, pd⟩
  cases result with
  | error code => exact LoggedReader.inside_pure _ _ _
  | ok result =>
      dsimp only
      split
      · exact LoggedReader.inside_pure _ _ _
      · exact LoggedReader.inside_pure _ _ _

def decodeComplete (descriptor : Descriptor) (buffer : List UInt8) :
    Except DecodeCode (Value × Nat) :=
  match (decode (8 * buffer.length + 1) descriptor none).run (Bits.ofBytes buffer) with
  | .error code => .error code
  | .ok ((value, _), rest) =>
      if rest.length < 8 * buffer.length then
        .ok (value, (8 * buffer.length - rest.length + 7) / 8)
      else
        match buffer with
        | [] => .error .wmore
        | first :: _ => if first = 0 then .ok (value, 1) else .error .fail

/-- The decoder of complete encodings only reads its buffer, its assertion holds, and it
returns what the bits of the buffer tell. -/
theorem uperDecodeComplete_refines (descriptor : Descriptor) (memory : Nat → UInt8) (size : Nat) :
    (uperDecodeComplete descriptor size).Inside memory size ∧
      (uperDecodeComplete descriptor size).value memory =
        some (decodeComplete descriptor (bufferOf memory size)) := by
  have decoded := value_uperDecode descriptor memory size
  have inside := inside_uperDecode descriptor memory size
  rw [uperDecodeComplete, LoggedReader.inside_bind, LoggedReader.value_bind, decoded,
    decodeComplete, length_bufferOf]
  cases (decode (8 * size + 1) descriptor none).run (Bits.ofBytes (bufferOf memory size)) with
  | error code => exact ⟨⟨inside, LoggedReader.inside_pure _ _ _⟩, rfl⟩
  | ok result =>
      rcases result with ⟨⟨value, _⟩, rest⟩
      dsimp only [Except.map]
      by_cases taken : rest.length < 8 * size
      · have some : 8 * size - rest.length ≠ 0 := by omega
        rw [if_pos taken, if_pos some, Nat.shiftRight_eq_div_pow]
        exact ⟨⟨inside, LoggedReader.inside_pure _ _ _⟩, rfl⟩
      · have none : ¬8 * size - rest.length ≠ 0 := by omega
        rw [if_neg taken, if_neg none]
        cases size with
        | zero => exact ⟨⟨inside, LoggedReader.inside_pure _ _ _⟩, rfl⟩
        | succ size =>
            have first : bufferOf memory (size + 1) =
                memory 0 :: (List.range size).map (fun index => memory (index + 1)) := by
              rw [bufferOf, List.range_succ_eq_map, List.map_cons, List.map_map]
              rfl
            rw [if_neg (Nat.succ_ne_zero _), first]
            refine ⟨⟨inside, ?_⟩, ?_⟩
            · rw [LoggedReader.inside_bind, LoggedReader.inside_readCell]
              refine ⟨Nat.succ_pos _, ?_⟩
              split
              · exact LoggedReader.inside_pure _ _ _
              · exact LoggedReader.inside_pure _ _ _
            · rw [LoggedReader.value_bind, LoggedReader.value_readCell]
              dsimp only
              split
              · rfl
              · rfl

/-! ## Any bytes -/

theorem decodeComplete_ends (descriptor : Descriptor) (buffer : List UInt8) :
    decodeComplete descriptor buffer ≠ .error .unfinished := by
  have ends := ends_decode (Nat.le_refl _) descriptor none (Bits.ofBytes buffer)
    (by rw [Bits.length_ofBytes]; exact Nat.lt_succ_self _)
  rw [decodeComplete]
  cases decoded : (decode (8 * buffer.length + 1) descriptor none).run (Bits.ofBytes buffer) with
  | error code =>
      rintro ⟨⟩
      exact ends decoded
  | ok result =>
      rcases result with ⟨⟨value, _⟩, rest⟩
      dsimp only
      split
      · intro stops
        cases stops
      · cases buffer with
        | nil =>
            intro stops
            cases stops
        | cons first bytes =>
            dsimp only
            split
            · intro stops
              cases stops
            · intro stops
              cases stops

theorem decodeComplete_consumed {buffer : List UInt8} {value : Value} {consumed : Nat}
    (decoded : decodeComplete descriptor buffer = .ok (value, consumed)) :
    0 < consumed ∧ consumed ≤ buffer.length := by
  rw [decodeComplete] at decoded
  split at decoded
  next => cases decoded
  next =>
    split at decoded
    next some =>
      cases decoded
      omega
    next =>
      cases buffer with
      | nil => cases decoded
      | cons first bytes =>
          dsimp only at decoded
          split at decoded
          next =>
            cases decoded
            exact ⟨Nat.one_pos, Nat.succ_pos _⟩
          next => cases decoded

/-- Whatever the bytes are, the decoder stays inside of them, its assertion holds and it ends,
with a value or with a code. -/
theorem uperDecodeComplete_safe (descriptor : Descriptor) (memory : Nat → UInt8) (size : Nat) :
    (uperDecodeComplete descriptor size).Inside memory size ∧
      ∃ outcome, (uperDecodeComplete descriptor size).value memory = some outcome ∧
        outcome ≠ .error .unfinished ∧
        ∀ value consumed, outcome = .ok (value, consumed) → 0 < consumed ∧ consumed ≤ size := by
  rcases uperDecodeComplete_refines descriptor memory size with ⟨inside, refined⟩
  refine ⟨inside, _, refined, decodeComplete_ends descriptor _, ?_⟩
  intro value consumed decoded
  have counted := decodeComplete_consumed decoded
  rw [length_bufferOf] at counted
  exact counted

/-! ## What was encoded -/

end

end AIM.Uper
