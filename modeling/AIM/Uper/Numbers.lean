import AIM.Uper.Integer

namespace AIM.Uper

/-! # Constrained numbers

The constraints that PER encodings depend on, and INTEGER and ENUMERATED. -/

/-- `asn_per_constraint_t`. Bits that are -1 are none. -/
structure PerConstraint where
  semiConstrained : Bool
  constrained : Bool
  extensible : Bool
  rangeBits : Option Nat
  effectiveBits : Option Nat
  lowerBound : Int
  upperBound : Int
  deriving DecidableEq

namespace PerConstraint

/-- `{ APC_UNCONSTRAINED, -1, -1, 0, 0 }` -/
def unconstrained : PerConstraint := ⟨false, false, false, none, none, 0, 0⟩

/-- `{ APC_SEMI_CONSTRAINED, -1, -1, 0, 0 }` -/
def anySize : PerConstraint := ⟨true, false, false, none, none, 0, 0⟩

/-- `{ APC_CONSTRAINED, bits, bits, lb, ub }` -/
def range (bits : Nat) (lb ub : Int) : PerConstraint :=
  ⟨false, true, false, some bits, some bits, lb, ub⟩

/-- `{ APC_CONSTRAINED | APC_EXTENSIBLE, bits, bits, lb, ub }` -/
def extensibleRange (bits : Nat) (lb ub : Int) : PerConstraint :=
  ⟨false, true, true, some bits, some bits, lb, ub⟩

def hasFlags (ct : PerConstraint) : Bool := ct.semiConstrained || ct.constrained || ct.extensible

end PerConstraint

/-- Tables of a permitted alphabet: a character has its code, one higher, or zero. -/
structure CharMap where
  alphabetTable : List Nat
  code2value : List Nat
  deriving DecidableEq

/-- `asn_per_constraints_t` -/
structure PerConstraints where
  value : PerConstraint
  size : PerConstraint
  map : Option CharMap
  deriving DecidableEq

/-! ## Extensible constraints -/

/-- A one in front says that the constraint does not hold. -/
def getRoot : Option PerConstraint → Decoder (Option PerConstraint)
  | none => pure none
  | some ct =>
      if ct.extensible then do
        let inext ← orStarved (← getFewBits 1)
        pure (if inext = 0 then some ct else none)
      else pure (some ct)

def putRoot (outside : PerConstraint → Bool) :
    Option PerConstraint → Option (Puts × Option PerConstraint)
  | none => some ([], none)
  | some ct =>
      if ct.extensible then
        if outside ct then some ([(1, 1)], none) else some ([(0, 1)], some ct)
      else if outside ct then none
      else some ([], some ct)

theorem run_getRoot {outside : PerConstraint → Bool} {constraint root : Option PerConstraint}
    {puts : Puts} (put : putRoot outside constraint = some (puts, root)) (rest : List Bool) :
    (getRoot constraint).run (puts.bits ++ rest) = .ok (root, rest) := by
  have bit (ct : PerConstraint) (extensible : ct.extensible = true) {inext : Nat}
      (small : inext < 2) :
      (getRoot (some ct)).run (Puts.bits [(inext, 1)] ++ rest) =
        .ok (if inext = 0 then some ct else none, rest) := by
    rw [getRoot, if_pos extensible, BitReader.run_bind, bits_singleton,
      run_getFewBits (by decide) small]
    rfl
  cases constraint with
  | none =>
      cases put
      rfl
  | some ct =>
      rw [putRoot] at put
      split at put
      next extensible =>
        split at put
        next =>
          cases put
          exact bit ct extensible (by decide)
        next =>
          cases put
          exact bit ct extensible (by decide)
      next fixed =>
        split at put
        next => cases put
        next =>
          cases put
          rw [getRoot, if_neg fixed]
          rfl

theorem putRoot_eq_some {outside : PerConstraint → Bool} {constraint root : Option PerConstraint}
    {puts : Puts} (put : putRoot outside constraint = some (puts, root)) :
    (∃ ct, constraint = some ct ∧ root = some ct ∧ outside ct = false) ∨
      root = none ∧ ∀ ct, constraint = some ct → ct.extensible = true ∧ outside ct = true := by
  cases constraint with
  | none =>
      cases put
      exact .inr ⟨rfl, fun _ impossible => by cases impossible⟩
  | some ct =>
      rw [putRoot] at put
      split at put
      next extensible =>
        split at put
        next isOutside =>
          cases put
          exact .inr ⟨rfl, fun _ same => by cases same; exact ⟨extensible, isOutside⟩⟩
        next inside =>
          cases put
          exact .inl ⟨ct, rfl, rfl, Bool.eq_false_iff.mpr inside⟩
      next =>
        split at put
        next => cases put
        next inside =>
          cases put
          exact .inl ⟨ct, rfl, rfl, Bool.eq_false_iff.mpr inside⟩

/-! ## Integers -/

def unsigned (value : Int) : Nat := (value % 2 ^ 64).toNat

def signed (value : Nat) : Int := (value : Int).bmod (2 ^ 64)

def wholeNumberBits : Option PerConstraint → Option (PerConstraint × Nat)
  | none => none
  | some ct => if ct.hasFlags then ct.rangeBits.map (ct, ·) else none

def integerDecodeRange (ct : PerConstraint) (bits : Nat) (fieldUnsigned : Bool) :
    Decoder (List UInt8) := do
  if 64 < bits then failed
  else do
    let uvalue ← orStarved (← uperGetConstrainedWholeNumber bits)
    if fieldUnsigned then pure (asnUlong2Integer (unsigned (uvalue + ct.lowerBound)))
    else orFailed ((perLongRangeUnrebase uvalue ct.lowerBound ct.upperBound).map asnLong2Integer)

def integerDecodeBytes (fuel : Nat) (ct : Option PerConstraint) : Decoder (List UInt8) := do
  let bytes ← getFragments none 0 getBytes fuel
  match ct with
  | none => pure bytes
  | some ct =>
      let buf := if ct.semiConstrained then 0 :: bytes else bytes
      if ct.lowerBound = 0 then pure buf
      else
        orFailed ((asnInteger2Long buf).map fun value =>
          asnImax2Integer (signed (unsigned (value + ct.lowerBound))))

def integerDecodeUper (fuel : Nat) (constraint : Option PerConstraint) (fieldUnsigned : Bool) :
    Decoder (List UInt8) := do
  let ct ← getRoot constraint
  match wholeNumberBits ct with
  | some (ct, bits) => integerDecodeRange ct bits fieldUnsigned
  | none => integerDecodeBytes fuel ct

def integerValue (fieldUnsigned : Bool) (buf : List UInt8) : Option Int :=
  if fieldUnsigned then (asnInteger2Ulong buf).map signed else asnInteger2Long buf

def constrainedValue (constraint : Option PerConstraint) (fieldUnsigned : Bool)
    (buf : List UInt8) : Option Int :=
  if constraint.isSome then integerValue fieldUnsigned buf else some 0

/-- Unsigned numbers are compared as unsigned ones. -/
def integerOutside (fieldUnsigned : Bool) (value : Int) (ct : PerConstraint) : Bool :=
  let below :=
    if fieldUnsigned then decide (unsigned value < unsigned ct.lowerBound)
    else decide (value < ct.lowerBound)
  let above :=
    if fieldUnsigned then decide (unsigned ct.upperBound < unsigned value)
    else decide (ct.upperBound < value)
  if ct.semiConstrained then below
  else if ct.rangeBits.isSome then below || above
  else false

def integerPutNumber (ct : Option PerConstraint) (value : Int) (buf : List UInt8) : Option Puts :=
  match ct.bind fun ct => ct.rangeBits.map (ct, ·) with
  | some (ct, bits) => do
      let v ← perLongRangeRebase value ct.lowerBound ct.upperBound
      uperPutConstrainedWholeNumberU v bits
  | none =>
      if ct.any (·.lowerBound ≠ 0) then none
      else putFragments (putBytes buf) (buf.length + 1) 0 buf.length

def integerEncodeUper (constraint : Option PerConstraint) (fieldUnsigned : Bool)
    (buf : List UInt8) : Option Puts := do
  if buf = [] then none
  else do
    let value ← constrainedValue constraint fieldUnsigned buf
    let (inext, ct) ← putRoot (integerOutside fieldUnsigned value) constraint
    let number ← integerPutNumber ct value buf
    some (inext ++ number)

def nativeIntegerDecodeUper (fuel : Nat) (constraint : Option PerConstraint)
    (fieldUnsigned : Bool) : Decoder Int := do
  let buf ← integerDecodeUper fuel constraint fieldUnsigned
  orFailed (integerValue fieldUnsigned buf)

def nativeIntegerEncodeUper (constraint : Option PerConstraint) (fieldUnsigned : Bool)
    (native : Int) : Option Puts :=
  integerEncodeUper constraint fieldUnsigned
    (if fieldUnsigned then asnUlong2Integer (unsigned native) else asnLong2Integer native)

/-! ## Enumerations -/

/-- The numbers of the values in their order, and the position of the first additional value,
counted from one, or zero. -/
structure EnumeratedSpecs where
  value2enum : List Int
  extension : Nat

def EnumeratedSpecs.rootCount (specs : EnumeratedSpecs) : Nat :=
  if specs.extension ≠ 0 then specs.extension - 1 else specs.value2enum.length

def enumeratedGetIndex (specs : EnumeratedSpecs) (root : Option PerConstraint) : Decoder Nat :=
  match root.bind (·.rangeBits) with
  | some bits => do
      let value ← orStarved (← getFewBits bits)
      if specs.rootCount ≤ value then failed else pure value
  | none =>
      if specs.extension = 0 then failed
      else do
        let value ← orStarved (← uperGetNsnnwn)
        if specs.value2enum.length ≤ value + (specs.extension - 1) then failed
        else pure (value + (specs.extension - 1))

def nativeEnumeratedDecodeUper (constraint : Option PerConstraint) (specs : EnumeratedSpecs) :
    Decoder Int := do
  let ct ← orFailed constraint
  let root ← getRoot (some ct)
  let index ← enumeratedGetIndex specs root
  orFailed specs.value2enum[index]?

def enumeratedOutside (specs : EnumeratedSpecs) (value : Nat) (ct : PerConstraint) : Bool :=
  ct.rangeBits.isSome && decide (specs.rootCount ≤ value)

def enumeratedPutIndex (specs : EnumeratedSpecs) (value : Nat) (inext : Bool)
    (root : Option PerConstraint) : Option Puts :=
  match root.bind (·.rangeBits) with
  | some bits => asnPutFewBits value bits
  | none =>
      if specs.extension = 0 then none
      else uperPutNsnnwn ((value : Int) - if inext then specs.extension - 1 else 0)

def nativeEnumeratedEncodeUper (constraint : Option PerConstraint) (specs : EnumeratedSpecs)
    (native : Int) : Option Puts := do
  let ct ← constraint
  let value ← specs.value2enum.idxOf? native
  let (inext, root) ← putRoot (enumeratedOutside specs value) (some ct)
  let number ← enumeratedPutIndex specs value (enumeratedOutside specs value ct) root
  some (inext ++ number)

/-! ## Offsets in a range -/

section

variable {lb ub : Int}

theorem perLongRange_eq (ordered : lb ≤ ub) : perLongRange lb ub = some (ub - lb).toNat := by
  rw [perLongRange]
  split
  next => rfl
  next different =>
    simp only [eq_iff_iff] at different
    have negative : lb < 0 := by omega
    rw [if_pos negative]
    congr 1
    omega

theorem perLongRangeRebase_eq_some (ordered : lb ≤ ub) {v : Int} {offset : Nat} :
    perLongRangeRebase v lb ub = some offset ↔ lb ≤ v ∧ v ≤ ub ∧ offset = (v - lb).toNat := by
  rw [perLongRangeRebase, perLongRange_eq ordered]
  simp only [reduceCtorEq, or_false, eq_iff_iff]
  split
  next outside =>
    simp only [reduceCtorEq, false_iff]
    omega
  next inside =>
    have offset_eq (number : Nat) (same : number = (v - lb).toNat) :
        some number = some offset ↔ lb ≤ v ∧ v ≤ ub ∧ offset = (v - lb).toNat := by
      rw [Option.some.injEq]
      omega
    split
    next => exact offset_eq _ rfl
    next =>
      split
      next => omega
      next =>
        rw [if_pos (by omega)]
        exact offset_eq _ (by omega)

theorem perLongRangeUnrebase_eq_some (ordered : lb ≤ ub) {inp : Nat} {v : Int} :
    perLongRangeUnrebase inp lb ub = some v ↔ v = inp + lb ∧ v ≤ ub := by
  rw [perLongRangeUnrebase, perLongRange_eq ordered, longMax]
  change (if (ub - lb).toNat < inp then none else _) = some v ↔ _
  split
  next =>
    simp only [reduceCtorEq, false_iff]
    omega
  next =>
    split
    next =>
      rw [Option.some.injEq]
      omega
    next =>
      rw [Option.some.injEq]
      omega

end

/-! ## Numbers that come back -/

theorem signed_unsigned {value : Int} (lower : -2 ^ 63 ≤ value) (upper : value < 2 ^ 63) :
    signed (unsigned value) = value :=
  (bmod_word value).trans (Int.bmod_eq_of_le (by omega) (by omega))

theorem signed_toNat {value : Int} (positive : 0 ≤ value) (upper : value < 2 ^ 63) :
    signed value.toNat = value := by
  unfold signed
  rw [Int.toNat_of_nonneg positive, Int.bmod_eq_of_le (by omega) (by omega)]

/-- The numbers of the C type. Unsigned ones from 2^63 on are not kept. -/
def Native (fieldUnsigned : Bool) (value : Int) : Prop :=
  -2 ^ 63 ≤ value ∧ value < 2 ^ 63 ∧ (fieldUnsigned = true → 0 ≤ value)

instance (fieldUnsigned : Bool) (value : Int) : Decidable (Native fieldUnsigned value) :=
  inferInstanceAs (Decidable (_ ∧ _ ∧ _))

theorem asnUlong2Integer_unsigned {value : Int} (lower : -2 ^ 63 ≤ value)
    (upper : value < 2 ^ 63) : asnUlong2Integer (unsigned value) = asnImax2Integer value :=
  congrArg asnImax2Integer (signed_unsigned lower upper)

theorem integerValue_asnImax2Integer {fieldUnsigned : Bool} {value : Int}
    (native : Native fieldUnsigned value) :
    integerValue fieldUnsigned (asnImax2Integer value) = some value := by
  rcases native with ⟨lower, upper, positive⟩
  cases fieldUnsigned with
  | false => exact asnInteger2Imax_asnImax2Integer lower upper
  | true =>
      rw [integerValue, if_pos rfl, asnInteger2Ulong,
        asnInteger2Umax_asnImax2Integer (positive rfl) upper, Option.map_some,
        signed_toNat (positive rfl) upper]

theorem nativeBytes {fieldUnsigned : Bool} {value : Int} (native : Native fieldUnsigned value) :
    (if fieldUnsigned then asnUlong2Integer (unsigned value) else asnLong2Integer value) =
      asnImax2Integer value := by
  split
  · exact asnUlong2Integer_unsigned native.1 native.2.1
  · rfl

/-- The bounds are longs, and the bits hold every offset. -/
def PerConstraint.isRange (ct : PerConstraint) : Bool :=
  ct.constrained && !ct.semiConstrained && decide (-2 ^ 63 ≤ ct.lowerBound) &&
    decide (ct.lowerBound ≤ ct.upperBound) && decide (ct.upperBound < 2 ^ 63) &&
    ct.rangeBits.any fun bits =>
      decide (bits ≤ 64) && decide (ct.upperBound - ct.lowerBound < 2 ^ bits)

structure Range (ct : PerConstraint) (bits : Nat) : Prop where
  constrained : ct.constrained = true
  notSemi : ct.semiConstrained = false
  lower : -2 ^ 63 ≤ ct.lowerBound
  ordered : ct.lowerBound ≤ ct.upperBound
  upper : ct.upperBound < 2 ^ 63
  rangeBits : ct.rangeBits = some bits
  narrow : bits ≤ 64
  fits : ct.upperBound - ct.lowerBound < 2 ^ bits

theorem PerConstraint.range_of_isRange {ct : PerConstraint} (isRange : ct.isRange = true) :
    ∃ bits, Range ct bits := by
  simp only [PerConstraint.isRange, Bool.and_eq_true, Bool.not_eq_true', decide_eq_true_eq,
    Option.any_eq_true] at isRange
  rcases isRange with
    ⟨⟨⟨⟨⟨constrained, notSemi⟩, lower⟩, ordered⟩, upper⟩, bits, some, narrow, fits⟩
  exact ⟨bits, constrained, notSemi, lower, ordered, upper, some, narrow, fits⟩

def integerWellFormed (constraint : Option PerConstraint) : Bool :=
  constraint.all PerConstraint.isRange

def integerReceived (constraint : Option PerConstraint) (fieldUnsigned : Bool)
    (buf : List UInt8) : List UInt8 :=
  match integerValue fieldUnsigned buf with
  | none => buf
  | some value =>
      if constraint.any fun ct => !integerOutside fieldUnsigned value ct then
        asnImax2Integer value
      else buf

section

variable {fuel : Nat} {constraint : Option PerConstraint} {fieldUnsigned : Bool} {puts : Puts}

theorem run_integerDecodeRange {ct : PerConstraint} {bits offset : Nat} {value : Int}
    (range : Range ct bits)
    (rebased : perLongRangeRebase value ct.lowerBound ct.upperBound = some offset)
    (rest : List Bool) :
    (integerDecodeRange ct bits fieldUnsigned).run (Bits.ofNat bits offset ++ rest) =
      .ok (asnImax2Integer value, rest) := by
  rcases (perLongRangeRebase_eq_some range.ordered).mp rebased with ⟨above, below, offset_eq⟩
  have lower := range.lower
  have upper := range.upper
  have fits := range.fits
  have narrow := range.narrow
  have small : offset < 2 ^ bits := by
    have power : ((2 ^ bits : Nat) : Int) = 2 ^ bits := by norm_cast
    omega
  have number : (offset : Int) + ct.lowerBound = value := by omega
  rw [integerDecodeRange, if_neg (Nat.not_lt.mpr narrow),
    BitReader.run_bind_of_ok (run_uperGetConstrainedWholeNumber narrow small),
    BitReader.run_bind_of_ok (BitReader.run_orStop_some ..)]
  split
  next isUnsigned =>
    rw [number, asnUlong2Integer_unsigned (by omega) (by omega)]
    rfl
  next =>
    rw [(perLongRangeUnrebase_eq_some range.ordered).mpr ⟨number.symm, below⟩]
    rfl

theorem wholeNumberBits_range {ct : PerConstraint} {bits : Nat} (range : Range ct bits) :
    wholeNumberBits (some ct) = some (ct, bits) := by
  rw [wholeNumberBits, PerConstraint.hasFlags, range.constrained, range.rangeBits]
  simp

theorem run_integerDecodeUper {buf : List UInt8}
    (wellFormed : integerWellFormed constraint = true)
    (put : integerEncodeUper constraint fieldUnsigned buf = some puts)
    (enough : puts.bits.length ≤ fuel) (rest : List Bool) :
    (integerDecodeUper fuel constraint fieldUnsigned).run (puts.bits ++ rest) =
      .ok (integerReceived constraint fieldUnsigned buf, rest) := by
  rw [integerEncodeUper] at put
  split at put
  next => cases put
  next =>
    rcases Option.bind_eq_some_iff.mp put with ⟨value, valueOf, put⟩
    rcases Option.bind_eq_some_iff.mp put with ⟨⟨inext, root⟩, rootPut, put⟩
    rcases Option.bind_eq_some_iff.mp put with ⟨number, numberPut, put⟩
    cases put
    rw [bits_append, List.append_assoc, integerDecodeUper,
      BitReader.run_bind_of_ok (run_getRoot rootPut _)]
    rcases putRoot_eq_some rootPut with ⟨ct, rfl, rfl, inside⟩ | ⟨rfl, outside⟩
    · rcases PerConstraint.range_of_isRange wellFormed with ⟨bits, range⟩
      rw [integerPutNumber, Option.bind_some, range.rangeBits, Option.map_some] at numberPut
      rcases Option.bind_eq_some_iff.mp numberPut with ⟨offset, rebased, numberPut⟩
      have received : integerReceived (some ct) fieldUnsigned buf = asnImax2Integer value := by
        rw [integerReceived, show integerValue fieldUnsigned buf = some value from valueOf]
        simp [inside]
      rw [bits_putWholeNumber numberPut, received, wholeNumberBits_range range]
      exact run_integerDecodeRange range rebased rest
    · have received : integerReceived constraint fieldUnsigned buf = buf := by
        rw [integerReceived]
        split
        next => rfl
        next value' same =>
          cases constraint with
          | none => rfl
          | some ct =>
              have equal : value' = value := Option.some.inj (same.symm.trans valueOf)
              rw [Option.any_some, equal, (outside ct rfl).2]
              rfl
      rw [bits_append, List.length_append] at enough
      rw [received]
      change (integerDecodeBytes fuel none).run _ = _
      rw [integerDecodeBytes,
        BitReader.run_bind_of_ok (run_getFragments_bytes numberPut (by omega))]
      rfl

theorem run_nativeIntegerDecodeUper {native : Int} (isNative : Native fieldUnsigned native)
    (wellFormed : integerWellFormed constraint = true)
    (put : nativeIntegerEncodeUper constraint fieldUnsigned native = some puts)
    (enough : puts.bits.length ≤ fuel) (rest : List Bool) :
    (nativeIntegerDecodeUper fuel constraint fieldUnsigned).run (puts.bits ++ rest) =
      .ok (native, rest) := by
  have value := integerValue_asnImax2Integer isNative
  have received : integerReceived constraint fieldUnsigned (asnImax2Integer native) =
      asnImax2Integer native := by
    rw [integerReceived, value]
    exact ite_self _
  rw [nativeIntegerEncodeUper, nativeBytes isNative] at put
  rw [nativeIntegerDecodeUper,
    BitReader.run_bind_of_ok (run_integerDecodeUper wellFormed put enough rest), received, value]
  rfl

end

/-! ## Enumerations that come back -/

def enumeratedWellFormed (constraint : Option PerConstraint) (specs : EnumeratedSpecs) : Bool :=
  constraint.any fun ct => ct.rangeBits.any fun bits =>
    decide (bits ≤ 31) && decide (specs.rootCount ≤ 2 ^ bits) &&
      decide (specs.rootCount ≤ specs.value2enum.length) &&
      decide (specs.value2enum.length ≤ specs.rootCount + 64)

theorem getElem?_of_idxOf? {values : List Int} {value : Int} {index : Nat}
    (found : values.idxOf? value = some index) :
    index < values.length ∧ values[index]? = some value := by
  rcases List.findIdx?_eq_some_iff_getElem.mp found with ⟨within, same, _⟩
  exact ⟨within, List.getElem?_eq_some_iff.mpr ⟨within, eq_of_beq same⟩⟩

theorem run_nativeEnumeratedDecodeUper {constraint : Option PerConstraint}
    {specs : EnumeratedSpecs} {native : Int} {puts : Puts}
    (wellFormed : enumeratedWellFormed constraint specs = true)
    (put : nativeEnumeratedEncodeUper constraint specs native = some puts) (rest : List Bool) :
    (nativeEnumeratedDecodeUper constraint specs).run (puts.bits ++ rest) = .ok (native, rest) := by
  simp only [enumeratedWellFormed, Option.any_eq_true, Bool.and_eq_true, decide_eq_true_eq]
    at wellFormed
  rcases wellFormed with ⟨ct, rfl, bits, rangeBits, ⟨⟨narrow, roots⟩, known⟩, few⟩
  rw [nativeEnumeratedEncodeUper] at put
  rcases Option.bind_eq_some_iff.mp put with ⟨_, same, put⟩
  cases same
  rcases Option.bind_eq_some_iff.mp put with ⟨index, found, put⟩
  rcases Option.bind_eq_some_iff.mp put with ⟨⟨inext, root⟩, rootPut, put⟩
  rcases Option.bind_eq_some_iff.mp put with ⟨number, numberPut, put⟩
  cases put
  rcases getElem?_of_idxOf? found with ⟨within, value⟩
  rw [bits_append, List.append_assoc, nativeEnumeratedDecodeUper,
    BitReader.run_bind_of_ok (BitReader.run_orStop_some ..),
    BitReader.run_bind_of_ok (run_getRoot rootPut _)]
  have got : (enumeratedGetIndex specs root).run (number.bits ++ rest) = .ok (index, rest) := by
    rcases putRoot_eq_some rootPut with ⟨_, same, rfl, inside⟩ | ⟨rfl, outside⟩
    · cases same
      have below : index < specs.rootCount := by simpa [enumeratedOutside, rangeBits] using inside
      rw [enumeratedPutIndex, Option.bind_some, rangeBits] at numberPut
      rw [enumeratedGetIndex, Option.bind_some, rangeBits, (bits_asnPutFewBits numberPut).2]
      dsimp only
      rw [BitReader.run_bind_of_ok (run_getFewBits narrow (by omega)),
        BitReader.run_bind_of_ok (BitReader.run_orStop_some ..), if_neg (by omega)]
      rfl
    · have isOutside := (outside ct rfl).2
      have above : specs.rootCount ≤ index := by
        simpa [enumeratedOutside, rangeBits] using isOutside
      rw [enumeratedPutIndex, isOutside] at numberPut
      dsimp only [Option.bind_none] at numberPut
      split at numberPut
      next => cases numberPut
      next extensible =>
        have roots : specs.rootCount = specs.extension - 1 := if_pos extensible
        have small : (index : Int) - (specs.extension - 1 : Nat) ≤ 63 := by omega
        rw [if_pos rfl] at numberPut
        have gotNumber := (run_uperGetNsnnwn_iff numberPut).mpr small rest
        rw [enumeratedGetIndex]
        dsimp only [Option.bind_none]
        rw [if_neg extensible, BitReader.run_bind_of_ok gotNumber,
          BitReader.run_bind_of_ok (BitReader.run_orStop_some ..), if_neg (by omega),
          BitReader.run_pure]
        congr 2
        omega
  rw [BitReader.run_bind_of_ok got, value]
  rfl

end AIM.Uper
