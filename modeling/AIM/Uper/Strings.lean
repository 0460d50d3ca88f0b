import AIM.Uper.Numbers

namespace AIM.Uper

/-! # Strings

OCTET STRING, with the character strings that are one, and BIT STRING. -/

def sizeConstraint (constraints : Option PerConstraints) : PerConstraint :=
  (constraints.map (·.size)).getD .anySize

def valueConstraint (constraints : Option PerConstraints) : PerConstraint :=
  (constraints.map (·.value)).getD (.range 8 0 255)

/-! ## Characters -/

/-- Every character is put with as many bits as the upper bound has. -/
def encodesAsIs (unitBits : Nat) (ub : Int) : Bool :=
  decide (unsigned ub ≤ 2 <<< (unitBits - 1))

def CharMap.value2codeOf (map : CharMap) (value : UInt8) : Option Nat :=
  match map.alphabetTable[value.toNat]? with
  | none => none
  | some code => if code = 0 then none else some (code - 1)

def CharMap.code2valueOf (map : CharMap) (code : Nat) : Option UInt8 :=
  map.code2value[code]?.map UInt8.ofNat

def getCoded (unitBits : Nat) (character : Nat → Option UInt8) : Nat → Decoder (List UInt8)
  | 0 => pure []
  | units + 1 => do
      let code ← orStarved (← getFewBits unitBits)
      let first ← orFailed (character code)
      let others ← getCoded unitBits character units
      pure (first :: others)

def putCoded (unitBits : Nat) (code : UInt8 → Option Nat) : List UInt8 → Option Puts
  | [] => some []
  | byte :: buf => do
      let number ← code byte
      let first ← asnPutFewBits number unitBits
      let others ← putCoded unitBits code buf
      some (first ++ others)

def characterInRange (lb ub : Int) (code : Nat) : Option UInt8 :=
  if ub < code + lb then none else some (.ofInt (code + lb))

def codeInRange (lb ub : Int) (byte : UInt8) : Option Nat :=
  if byte.toNat - lb < 0 ∨ ub - lb < byte.toNat - lb then none else some (byte.toNat - lb).toNat

def getInRange (unitBits : Nat) (lb ub : Int) (units : Nat) : Decoder (List UInt8) :=
  if lb = 0 ∧ unitBits = 8 then getBytes units
  else getCoded unitBits (characterInRange lb ub) units

def putInRange (unitBits : Nat) (lb ub : Int) (buf : List UInt8) : Option Puts :=
  if lb = 0 ∧ unitBits = 8 then some (asnPutManyBits buf (unitBits * buf.length))
  else putCoded unitBits (codeInRange lb ub) buf

def octetStringPerGetCharacters (unitBits : Nat) (cval : PerConstraint) (map : Option CharMap)
    (units : Nat) : Decoder (List UInt8) :=
  if encodesAsIs unitBits cval.upperBound then getInRange unitBits 0 cval.upperBound units
  else
    match map with
    | some map =>
        if 16 < unitBits then failed else getCoded unitBits map.code2valueOf units
    | none => getInRange unitBits cval.lowerBound cval.upperBound units

def octetStringPerPutCharacters (unitBits : Nat) (cval : PerConstraint) (map : Option CharMap)
    (buf : List UInt8) : Option Puts :=
  if encodesAsIs unitBits cval.upperBound then putInRange unitBits 0 cval.upperBound buf
  else
    match map with
    | some map => putCoded unitBits map.value2codeOf buf
    | none => putInRange unitBits cval.lowerBound cval.upperBound buf

/-! ## Octet strings -/

def unitBits (cval : PerConstraint) : Nat :=
  if cval.constrained then cval.rangeBits.getD 0 else 8

/-- The size constraint that counts, and the bits of a character. -/
def octetStringGetRoot (constraints : Option PerConstraints) : Decoder (PerConstraint × Nat) := do
  let root ← getRoot (some (sizeConstraint constraints))
  match root with
  | some csiz => pure (csiz, unitBits (valueConstraint constraints))
  | none => pure (.anySize, 8)

def octetStringDecodeSized (fuel : Nat) (constraints : Option PerConstraints)
    (csiz : PerConstraint) (bits : Nat) : Decoder (List UInt8 × Nat) := do
  let getCharacters := octetStringPerGetCharacters bits (valueConstraint constraints)
    (constraints.bind (·.map))
  if csiz.effectiveBits = some 0 then do
    let buf ← getCharacters csiz.upperBound.toNat
    pure (buf, bits * csiz.upperBound.toNat)
  else do
    let buf ← getFragments csiz.effectiveBits csiz.lowerBound.toNat getCharacters fuel
    pure (buf, 0)

def octetStringDecodeUper (fuel : Nat) (constraints : Option PerConstraints) :
    Decoder (List UInt8 × Nat) := do
  let (csiz, bits) ← octetStringGetRoot constraints
  octetStringDecodeSized fuel constraints csiz bits

def sizeOutside (size : Nat) (csiz : PerConstraint) : Bool :=
  csiz.effectiveBits.isSome &&
    (decide (size < csiz.lowerBound) || decide (csiz.upperBound < size))

def putSized (root : Option PerConstraint) (size offset : Nat) (all : Option Puts)
    (putUnits : Nat → Nat → Option Puts) : Option Puts :=
  match root.bind (·.effectiveBits) with
  | some bits => do
      let length ← asnPutFewBits offset bits
      let units ← all
      some (length ++ units)
  | none => putFragments putUnits (size + 1) 0 size

def octetStringEncodeUper (constraints : Option PerConstraints) (buf : List UInt8) :
    Option Puts := do
  let (inext, root) ← putRoot (sizeOutside buf.length) (some (sizeConstraint constraints))
  let bits := if root.isSome then unitBits (valueConstraint constraints) else 8
  let putCharacters := octetStringPerPutCharacters bits (valueConstraint constraints)
    (constraints.bind (·.map))
  let string ← putSized root buf.length
    (buf.length - (sizeConstraint constraints).lowerBound.toNat) (putCharacters buf)
    fun position count => putCharacters ((buf.drop position).take count)
  some (inext ++ string)

/-! ## Characters that come back -/

section

variable {bits : Nat} {buf : List UInt8} {puts : Puts} {rest : List Bool}

theorem run_getCoded {code : UInt8 → Option Nat} {character : Nat → Option UInt8}
    (inverse : ∀ byte number, code byte = some number →
      number < 2 ^ bits ∧ character number = some byte)
    (put : putCoded bits code buf = some puts) :
    (getCoded bits character buf.length).run (puts.bits ++ rest) = .ok (buf, rest) := by
  induction buf generalizing puts with
  | nil =>
      cases put
      rfl
  | cons byte buf hypothesis =>
      rcases Option.bind_eq_some_iff.mp put with ⟨number, codeOf, put⟩
      rcases Option.bind_eq_some_iff.mp put with ⟨first, firstPut, put⟩
      rcases Option.bind_eq_some_iff.mp put with ⟨others, othersPut, put⟩
      cases put
      rcases inverse byte number codeOf with ⟨small, back⟩
      rcases bits_asnPutFewBits firstPut with ⟨narrow, firstBits⟩
      rw [List.length_cons, getCoded, bits_append, List.append_assoc, firstBits,
        BitReader.run_bind_of_ok (run_getFewBits narrow small),
        BitReader.run_bind_of_ok (BitReader.run_orStop_some ..), back,
        BitReader.run_bind_of_ok (BitReader.run_orStop_some ..),
        BitReader.run_bind_of_ok (hypothesis othersPut)]
      rfl

theorem codeInRange_inverse {lb ub : Int} (fits : ub - lb < 2 ^ bits) (byte : UInt8)
    (number : Nat) (code : codeInRange lb ub byte = some number) :
    number < 2 ^ bits ∧ characterInRange lb ub number = some byte := by
  rw [codeInRange] at code
  split at code
  next => cases code
  next inside =>
    cases code
    have power : ((2 ^ bits : Nat) : Int) = 2 ^ bits := by norm_cast
    have back : ((byte.toNat - lb).toNat : Int) + lb = byte.toNat := by omega
    refine ⟨by omega, ?_⟩
    rw [characterInRange, back, if_neg (by omega)]
    have small := byte.toNat_lt
    have same : UInt8.ofInt byte.toNat = byte := by
      apply UInt8.toNat_inj.mp
      simp only [UInt8.ofInt, UInt8.toNat_ofNat']
      omega
    rw [same]

theorem run_getInRange {lb ub : Int} (fits : ub - lb < 2 ^ bits)
    (put : putInRange bits lb ub buf = some puts) :
    (getInRange bits lb ub buf.length).run (puts.bits ++ rest) = .ok (buf, rest) := by
  rw [putInRange] at put
  rw [getInRange]
  split at put
  next whole =>
    cases put
    rw [if_pos whole, whole.2, bits_asnPutManyBits (Nat.le_refl _), ← Bits.length_ofBytes,
      List.take_length]
    exact run_getBytes rfl rest
  next coded =>
    rw [if_neg coded]
    exact run_getCoded (codeInRange_inverse fits) put

/-- The bits hold the characters, and the tables of an alphabet go with each other. -/
def charactersWellFormed (bits : Nat) (cval : PerConstraint) (map : Option CharMap) : Bool :=
  if encodesAsIs bits cval.upperBound then decide (cval.upperBound < 2 ^ bits)
  else
    match map with
    | some map =>
        decide (bits ≤ 16) && (List.range 256).all fun value =>
          (map.value2codeOf (.ofNat value)).all fun code =>
            decide (code < 2 ^ bits) && map.code2valueOf code == some (.ofNat value)
    | none => decide (cval.upperBound - cval.lowerBound < 2 ^ bits)

theorem run_octetStringPerGetCharacters {cval : PerConstraint} {map : Option CharMap}
    (wellFormed : charactersWellFormed bits cval map = true)
    (put : octetStringPerPutCharacters bits cval map buf = some puts) (rest : List Bool) :
    (octetStringPerGetCharacters bits cval map buf.length).run (puts.bits ++ rest) =
      .ok (buf, rest) := by
  unfold octetStringPerPutCharacters at put
  unfold charactersWellFormed at wellFormed
  unfold octetStringPerGetCharacters
  split at put
  next asIs =>
    rw [if_pos asIs] at wellFormed
    rw [if_pos asIs]
    exact run_getInRange (by simpa using wellFormed) put
  next coded =>
    rw [if_neg coded] at wellFormed
    rw [if_neg coded]
    cases map with
    | none => exact run_getInRange (by simpa using wellFormed) put
    | some map =>
        simp only [Bool.and_eq_true, decide_eq_true_eq, List.all_eq_true, List.mem_range,
          Option.all_eq_true, beq_iff_eq] at wellFormed
        dsimp only
        rw [if_neg (Nat.not_lt.mpr wellFormed.1)]
        apply run_getCoded _ put
        intro byte number code
        have known := wellFormed.2 byte.toNat byte.toNat_lt
        rw [UInt8.ofNat_toNat] at known
        exact known number code

theorem putInRange_nil (bits : Nat) (lb ub : Int) :
    ∃ puts, putInRange bits lb ub [] = some puts ∧ puts.bits = [] := by
  rw [putInRange]
  split
  · exact ⟨_, rfl, bits_asnPutManyBits (Nat.le_refl _)⟩
  · exact ⟨[], rfl, rfl⟩

theorem octetStringPerPutCharacters_nil (bits : Nat) (cval : PerConstraint)
    (map : Option CharMap) :
    ∃ puts, octetStringPerPutCharacters bits cval map [] = some puts ∧ puts.bits = [] := by
  unfold octetStringPerPutCharacters
  split
  · exact putInRange_nil ..
  · cases map with
    | none => exact putInRange_nil ..
    | some map => exact ⟨[], rfl, rfl⟩

theorem getsUnits_characters {cval : PerConstraint} {map : Option CharMap}
    (wellFormed : charactersWellFormed bits cval map = true) (limit : Nat) :
    GetsUnits (fun position count =>
        octetStringPerPutCharacters bits cval map ((buf.drop position).take count))
      (octetStringPerGetCharacters bits cval map)
      (fun position count => (buf.drop position).take count) buf.length limit where
  units := by
    intro position count puts _ within put _ rest
    have length : ((buf.drop position).take count).length = count := by
      rw [List.length_take, List.length_drop]
      omega
    have got := run_octetStringPerGetCharacters wellFormed put rest
    rwa [length] at got
  none := by
    intro rest
    rcases octetStringPerPutCharacters_nil bits cval map with ⟨puts, put, none⟩
    have got := run_octetStringPerGetCharacters wellFormed put rest
    rwa [none] at got
  join := by
    intro position covered remaining _ _ less
    rw [← List.drop_drop, ← List.take_add, Nat.add_sub_cancel' less]

end

/-! ## Sizes -/

def sizeWellFormed (csiz : PerConstraint) : Bool :=
  csiz.effectiveBits.all fun bits =>
    decide (bits ≤ 16) && decide (0 ≤ csiz.lowerBound) &&
      decide (csiz.lowerBound ≤ csiz.upperBound) &&
      decide (csiz.upperBound - csiz.lowerBound < 2 ^ bits)

theorem sizeWellFormed_anySize : sizeWellFormed .anySize = true := rfl

section

variable {α : Type} {putUnits : Nat → Nat → Option Puts} {getUnits : Nat → Decoder (List α)}
  {part : Nat → Nat → List α} {fuel size : Nat} {csiz : PerConstraint} {puts : Puts}
  {rest : List Bool}

theorem sizeWellFormed_fixed (wellFormed : sizeWellFormed csiz = true)
    (fixed : csiz.effectiveBits = some 0) (above : csiz.lowerBound ≤ size)
    (below : size ≤ csiz.upperBound) : csiz.upperBound.toNat = size := by
  simp only [sizeWellFormed, fixed, Option.all_some, Bool.and_eq_true, decide_eq_true_eq,
    pow_zero] at wellFormed
  omega

theorem run_getFragments_sized {bits : Nat} {units : List Bool} {all : List α}
    (wellFormed : sizeWellFormed csiz = true) (effective : csiz.effectiveBits = some bits)
    (above : csiz.lowerBound ≤ size) (below : size ≤ csiz.upperBound) {length : Puts}
    (lengthPut : asnPutFewBits (size - csiz.lowerBound.toNat) bits = some length)
    (positive : 0 < fuel)
    (got : (getUnits size).run (units ++ rest) = .ok (all, rest)) :
    (getFragments csiz.effectiveBits csiz.lowerBound.toNat getUnits fuel).run
        (length.bits ++ (units ++ rest)) = .ok (all, rest) := by
  simp only [sizeWellFormed, effective, Option.all_some, Bool.and_eq_true, decide_eq_true_eq]
    at wellFormed
  rcases wellFormed with ⟨⟨⟨narrow, lower⟩, _⟩, fits⟩
  have power : ((2 ^ bits : Nat) : Int) = 2 ^ bits := by norm_cast
  have small : size - csiz.lowerBound.toNat < 2 ^ bits := by omega
  rcases fuel with _ | fuel
  · cases positive
  · rw [getFragments, effective, (bits_asnPutFewBits lengthPut).2,
      BitReader.run_bind_of_ok (run_uperGetLength_constrained narrow (by omega) small),
      BitReader.run_bind_of_ok (BitReader.run_orStop_some ..)]
    dsimp only
    rw [BitReader.run_bind_of_ok got]
    rfl

/-- A size that is fixed is not put. -/
theorem run_sized {β : Type} (deliver : List α → β) (announced : Nat) {bits : Nat}
    {units : List Bool} {all : List α} (wellFormed : sizeWellFormed csiz = true)
    (effective : csiz.effectiveBits = some bits) (above : csiz.lowerBound ≤ size)
    (below : size ≤ csiz.upperBound) {length : Puts}
    (lengthPut : asnPutFewBits (size - csiz.lowerBound.toNat) bits = some length)
    (positive : 0 < fuel)
    (got : (getUnits size).run (units ++ rest) = .ok (all, rest)) :
    ∃ consumed, (if csiz.effectiveBits = some 0 then do
        let all ← getUnits csiz.upperBound.toNat
        pure (deliver all, announced)
      else do
        let all ← getFragments csiz.effectiveBits csiz.lowerBound.toNat getUnits fuel
        pure (deliver all, 0) : Decoder (β × Nat)).run (length.bits ++ (units ++ rest)) =
      .ok ((deliver all, consumed), rest) := by
  by_cases fixed : csiz.effectiveBits = some 0
  · have none : bits = 0 := Option.some.inj (effective.symm.trans fixed)
    have noLength : length.bits = [] := by
      rw [(bits_asnPutFewBits lengthPut).2, none]
      rfl
    have fixedSize := sizeWellFormed_fixed wellFormed fixed above below
    rw [if_pos fixed, noLength, List.nil_append, fixedSize, BitReader.run_bind_of_ok got]
    exact ⟨announced, rfl⟩
  · rw [if_neg fixed, BitReader.run_bind_of_ok
      (run_getFragments_sized wellFormed effective above below lengthPut positive got)]
    exact ⟨0, rfl⟩

end

/-! ## Octet strings that come back -/

def octetStringWellFormed (constraints : Option PerConstraints) : Bool :=
  let characters := fun bits =>
    charactersWellFormed bits (valueConstraint constraints) (constraints.bind (·.map))
  sizeWellFormed (sizeConstraint constraints) &&
    characters (unitBits (valueConstraint constraints)) &&
    (!(sizeConstraint constraints).extensible || characters 8)

section

variable {fuel bits : Nat} {constraints : Option PerConstraints} {buf : List UInt8}
  {csiz : PerConstraint} {puts : Puts} {rest : List Bool}

theorem sizeOutside_eq_false {size : Nat} {effective : Nat}
    (inside : sizeOutside size csiz = false) (isEffective : csiz.effectiveBits = some effective) :
    csiz.lowerBound ≤ size ∧ (size : Int) ≤ csiz.upperBound := by
  simpa [sizeOutside, isEffective] using inside

theorem run_octetStringDecodeSized (sizes : sizeWellFormed csiz = true)
    (characters : charactersWellFormed bits (valueConstraint constraints)
      (constraints.bind (·.map)) = true)
    (inside : sizeOutside buf.length csiz = false)
    (put : putSized (some csiz) buf.length (buf.length - csiz.lowerBound.toNat)
      (octetStringPerPutCharacters bits (valueConstraint constraints)
        (constraints.bind (·.map)) buf)
      (fun position count => octetStringPerPutCharacters bits (valueConstraint constraints)
        (constraints.bind (·.map)) ((buf.drop position).take count)) = some puts)
    (enough : puts.bits.length < fuel) (rest : List Bool) :
    ∃ consumed, (octetStringDecodeSized fuel constraints csiz bits).run (puts.bits ++ rest) =
      .ok ((buf, consumed), rest) := by
  rw [putSized, Option.bind_some] at put
  rw [octetStringDecodeSized]
  cases effective : csiz.effectiveBits with
  | none =>
      rw [effective] at put
      have got := run_getFragments (getsUnits_characters characters _) rfl (Nat.zero_add _) put
        (Nat.le_of_lt enough) (Nat.le_refl _) rest
      rw [List.drop_zero, List.take_length] at got
      rw [if_neg (by simp), getFragments_none]
      exact ⟨0, by rw [BitReader.run_bind_of_ok got, BitReader.run_pure]⟩
  | some effectiveBits =>
      rw [effective] at put
      rcases Option.bind_eq_some_iff.mp put with ⟨length, lengthPut, put⟩
      rcases Option.bind_eq_some_iff.mp put with ⟨units, unitsPut, put⟩
      cases put
      rcases sizeOutside_eq_false inside effective with ⟨above, below⟩
      have got := run_octetStringPerGetCharacters characters unitsPut rest
      rw [bits_append, List.append_assoc, ← effective]
      exact run_sized id _ sizes effective above below lengthPut (by omega) got

theorem run_octetStringDecodeUper (wellFormed : octetStringWellFormed constraints = true)
    (put : octetStringEncodeUper constraints buf = some puts) (enough : puts.bits.length < fuel)
    (rest : List Bool) :
    ∃ consumed, (octetStringDecodeUper fuel constraints).run (puts.bits ++ rest) =
      .ok ((buf, consumed), rest) := by
  simp only [octetStringWellFormed, Bool.and_eq_true, Bool.or_eq_true, Bool.not_eq_true']
    at wellFormed
  rcases wellFormed with ⟨⟨sizes, characters⟩, canonical⟩
  rcases Option.bind_eq_some_iff.mp put with ⟨⟨inext, root⟩, rootPut, put⟩
  rcases Option.bind_eq_some_iff.mp put with ⟨string, stringPut, put⟩
  cases put
  rw [bits_append, List.length_append] at enough
  rw [bits_append, List.append_assoc, octetStringDecodeUper]
  have gotRoot := run_getRoot rootPut (string.bits ++ rest)
  rcases putRoot_eq_some rootPut with ⟨_, same, rfl, inside⟩ | ⟨rfl, outside⟩
  · cases same
    have found : (octetStringGetRoot constraints).run (inext.bits ++ (string.bits ++ rest)) =
        .ok ((sizeConstraint constraints, unitBits (valueConstraint constraints)),
          string.bits ++ rest) := by
      rw [octetStringGetRoot, BitReader.run_bind_of_ok gotRoot]
      rfl
    rw [BitReader.run_bind_of_ok found]
    exact run_octetStringDecodeSized sizes characters inside stringPut (by omega) rest
  · have extensible := (outside _ rfl).1
    have found : (octetStringGetRoot constraints).run (inext.bits ++ (string.bits ++ rest)) =
        .ok ((.anySize, 8), string.bits ++ rest) := by
      rw [octetStringGetRoot, BitReader.run_bind_of_ok gotRoot]
      rfl
    rw [BitReader.run_bind_of_ok found]
    exact run_octetStringDecodeSized sizeWellFormed_anySize
      (canonical.resolve_left (by simp [extensible])) rfl stringPut (by omega) rest

end

end AIM.Uper
