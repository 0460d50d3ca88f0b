import AIM.Uper.Descriptor

namespace AIM.Uper

/-! # What is encoded is decoded

For well-formed tables the decoder gets the value back that the encoder was given, up to what
the encoding does not tell: the zeros at the end of a bit string, the bytes in front of a
number that only repeat its sign, and a default value. -/

/-! ## Well-formed tables -/

/-- The bits hold the root elements, and the additional ones are few. -/
def choiceWellFormed (constraint : Option PerConstraint) (extStart : Option Nat)
    (count : Nat) : Bool :=
  constraint.any fun ct =>
    ct.rangeBits.any (fun bits => decide (bits ≤ 31) && decide (ct.upperBound < 2 ^ bits)) &&
      extStart.all fun start => decide (count ≤ start + 64)

mutual

def Descriptor.wellFormed : Descriptor → Option PerConstraints → Bool
  | .nativeInteger own _, given => integerWellFormed (valueOf? given own)
  | .integer own _, given => integerWellFormed (valueOf? given own)
  | .nativeEnumerated own specs, given => enumeratedWellFormed (valueOf? given own) specs
  | .boolean, _ => true
  | .bitString own, given => sizeWellFormed (sizeConstraint (given <|> own))
  | .octetString own, given => octetStringWellFormed (given <|> own)
  | .sequence specs root additions, _ =>
      specs.oms == root.optionals 0 && (specs.extensible || additions.length == 0) &&
        decide (additions.length ≤ 64) && root.wellFormed && additions.wellFormed
  | .choice own extStart elements, given =>
      choiceWellFormed (valueOf? given own) extStart elements.length && elements.wellFormed
  | .sequenceOf own member element, given =>
      (sizeOf? given own).all sizeWellFormed && element.wellFormed member.constraints

/-- Only an optional member has a default. -/
def Elements.wellFormed : Elements → Bool
  | .nil => true
  | .cons member type others =>
      (member.optional || member.default.isNone) && type.wellFormed member.constraints &&
        others.wellFormed
end

/-! ## Values -/

mutual

/-- The value of the C structures: a number is one of its C type, and no list is longer
than 200. -/
def Descriptor.Fits : Descriptor → Value → Prop
  | .nativeInteger _ fieldUnsigned, .native value => Native fieldUnsigned value
  | .sequence _ root additions, .sequence members others =>
      root.Fits members ∧ additions.Fits others
  | .choice _ _ elements, .choice (present + 1) member => elements.FitsAt present member
  | .sequenceOf _ _ element, .sequenceOf elements =>
      elements.length ≤ 200 ∧ ∀ value ∈ elements, element.Fits value
  | _, _ => True

def Elements.Fits : Elements → List (Option Value) → Prop
  | .cons _ type others, value :: values =>
      (∀ member, value = some member → type.Fits member) ∧ others.Fits values
  | _, _ => True

def Elements.FitsAt : Elements → Nat → Value → Prop
  | .nil, _, _ => True
  | .cons _ type _, 0, value => type.Fits value
  | .cons _ _ others, position + 1, value => others.FitsAt position value
end

def Member.received (member : Member) (receive : Value → Value) : Option Value → Option Value
  | none => member.absent
  | some value => some (receive value)

mutual

/-- The value that comes back. -/
def Descriptor.received : Descriptor → Option PerConstraints → Value → Value
  | .integer own fieldUnsigned, given, .integer buf =>
      .integer (integerReceived (valueOf? given own) fieldUnsigned buf)
  | .bitString own, given, .bitString st => .bitString (bitStringReceived (given <|> own) st)
  | .sequence _ root additions, _, .sequence members others =>
      .sequence (root.received members) (additions.received others)
  | .choice _ _ elements, _, .choice (present + 1) member =>
      .choice (present + 1) (elements.receivedAt present member)
  | .sequenceOf _ member element, _, .sequenceOf elements =>
      .sequenceOf (elements.map (element.received member.constraints))
  | _, _, value => value

def Elements.received : Elements → List (Option Value) → List (Option Value)
  | .nil, _ => []
  | .cons member _ others, [] => member.absent :: others.received []
  | .cons member type others, value :: values =>
      member.received (type.received member.constraints) value :: others.received values

def Elements.receivedAt : Elements → Nat → Value → Value
  | .nil, _, value => value
  | .cons member type _, 0, value => type.received member.constraints value
  | .cons _ _ others, position + 1, value => others.receivedAt position value
end

/-! ## Presence -/

namespace Elements

def presence : Elements → List (Option Value) → List Bool
  | .cons member _ others, value :: values =>
      if member.optional then member.isPut value :: others.presence values
      else others.presence values
  | _, _ => []

theorem optionals_succ (elements : Elements) (position : Nat) :
    elements.optionals (position + 1) = (elements.optionals position).map (· + 1) := by
  induction elements generalizing position with
  | nil => rfl
  | cons member type others hypothesis =>
      rw [optionals, optionals]
      split
      · rw [hypothesis, List.map_cons]
      · exact hypothesis _

theorem map_putAt_optionals {elements : Elements} {values : List (Option Value)}
    (length : values.length = elements.length) :
    (elements.optionals 0).map (elements.putAt values) = elements.presence values := by
  induction elements generalizing values with
  | nil =>
      cases values with
      | nil => rfl
      | cons => cases length
  | cons member type others hypothesis =>
      cases values with
      | nil => cases length
      | cons value values =>
          have behind := hypothesis (Nat.succ.inj length)
          have shifted : ((others.optionals 0).map (· + 1)).map
              ((cons member type others).putAt (value :: values)) =
              (others.optionals 0).map (others.putAt values) := by
            rw [List.map_map]
            rfl
          rw [optionals, presence, optionals_succ]
          split
          · rw [List.map_cons, shifted, behind]
            rfl
          · rw [shifted, behind]

theorem length_presence {elements : Elements} {values : List (Option Value)}
    (length : values.length = elements.length) :
    (elements.presence values).length = (elements.optionals 0).length := by
  rw [← map_putAt_optionals length, List.length_map]

end Elements

theorem bits_putPresence (present : List Bool) : (putPresence present).bits = present := by
  induction present with
  | nil => rfl
  | cons bit present hypothesis =>
      rw [putPresence, List.map_cons, bits_cons, ← putPresence, hypothesis]
      cases bit with
      | false => rfl
      | true => rfl

theorem length_encodeRoot {elements : Elements} {values : List (Option Value)} {puts : Puts}
    (put : encodeRoot elements values = some puts) : values.length = elements.length := by
  induction elements generalizing values puts with
  | nil =>
      cases values with
      | nil => rfl
      | cons => cases put
  | cons member type others hypothesis =>
      cases values with
      | nil => cases put
      | cons value values =>
          rw [encodeRoot] at put
          rcases Option.bind_eq_some_iff.mp put with ⟨first, firstPut, put⟩
          rcases Option.bind_eq_some_iff.mp put with ⟨rest, restPut, put⟩
          rw [List.length_cons, hypothesis restPut, Elements.length]

/-! ## Parts -/

/-- The decoder gets a value from its bits, with any bits behind them. -/
def ComesBack (fuel : Nat) (decoder : Decoder (Value × Nat)) (encoded : Puts)
    (value : Value) : Prop :=
  encoded.bits.length < fuel → ∀ rest, ∃ consumed,
    decoder.run (encoded.bits ++ rest) = .ok ((value, consumed), rest)

section

variable {fuel : Nat} {constraint : Option PerConstraint} {decoder : Decoder (Value × Nat)}
  {encoder : Value → Option Puts} {received : Value → Value} {elements : List Value}
  {puts : Puts} {rest : List Bool}

theorem run_getElements (nelems : Nat) (few : nelems ≤ 200)
    (each : ∀ value ∈ elements, ∀ encoded, encoder value = some encoded →
      ComesBack fuel decoder encoded (received value))
    (put : putElements encoder elements = some puts) (enough : puts.bits.length < fuel)
    (rest : List Bool) :
    (getElements decoder nelems elements.length).run (puts.bits ++ rest) =
      .ok (elements.map received, rest) := by
  induction elements generalizing puts with
  | nil =>
      cases put
      rfl
  | cons element elements hypothesis =>
      rcases Option.bind_eq_some_iff.mp put with ⟨first, firstPut, put⟩
      rcases Option.bind_eq_some_iff.mp put with ⟨others, othersPut, put⟩
      cases put
      rw [bits_append, List.length_append] at enough
      rcases each element List.mem_cons_self first firstPut (by omega) (others.bits ++ rest)
        with ⟨consumed, got⟩
      have behind := hypothesis (fun value member => each value (List.mem_cons_of_mem _ member))
        othersPut (by omega)
      rw [bits_append, List.append_assoc, List.length_cons, getElements,
        BitReader.run_bind_of_ok got]
      dsimp only
      rw [if_neg (by omega), BitReader.run_bind_of_ok behind]
      rfl

theorem getsUnits_elements (few : elements.length ≤ 200) {limit : Nat} (enough : limit < fuel)
    (each : ∀ value ∈ elements, ∀ encoded, encoder value = some encoded →
      ComesBack fuel decoder encoded (received value)) :
    GetsUnits (fun position count => putElements encoder ((elements.drop position).take count))
      (fun nelems => getElements decoder nelems nelems)
      (fun position count => ((elements.drop position).take count).map received)
      elements.length limit where
  units := by
    intro position count puts _ within put short rest
    have length : ((elements.drop position).take count).length = count := by
      rw [List.length_take, List.length_drop]
      omega
    have got := run_getElements count (by omega)
      (fun value member => each value (List.mem_of_mem_drop (List.mem_of_mem_take member)))
      put (by omega) rest
    rwa [length] at got
  none := fun _ => rfl
  join := by
    intro position covered remaining _ _ less
    rw [← List.map_append, ← List.drop_drop, ← List.take_add, Nat.add_sub_cancel' less]

theorem run_setOfDecodeUper (wellFormed : constraint.all sizeWellFormed = true)
    (few : elements.length ≤ 200)
    (each : ∀ value ∈ elements, ∀ encoded, encoder value = some encoded →
      ComesBack fuel decoder encoded (received value))
    (put : sequenceOfEncodeUper constraint encoder elements = some puts)
    (enough : puts.bits.length < fuel) (rest : List Bool) :
    (setOfDecodeUper fuel constraint decoder).run (puts.bits ++ rest) =
      .ok (elements.map received, rest) := by
  rcases Option.bind_eq_some_iff.mp put with ⟨⟨inext, root⟩, rootPut, put⟩
  rcases Option.bind_eq_some_iff.mp put with ⟨list, listPut, put⟩
  cases put
  rw [bits_append, List.length_append] at enough
  rw [bits_append, List.append_assoc, setOfDecodeUper,
    BitReader.run_bind_of_ok (run_getRoot rootPut _)]
  cases effective : root.bind (·.effectiveBits) with
  | none =>
      have none : (root.bind fun ct => ct.effectiveBits.map (ct, ·)) = none := by
        cases root with
        | none => rfl
        | some ct => exact congrArg (Option.map (ct, ·)) effective
      rw [putSized, effective] at listPut
      have enoughTurns : list.bits.length ≤ fuel := by omega
      have got := run_getFragments
        (getsUnits_elements few (show list.bits.length < fuel by omega) each) rfl
        (Nat.zero_add _) listPut enoughTurns (Nat.le_refl _) rest
      rw [List.drop_zero, List.take_length] at got
      rw [none]
      exact got
  | some bits =>
      rcases Option.bind_eq_some_iff.mp effective with ⟨ct, rfl, isEffective⟩
      rw [putSized, effective] at listPut
      rcases Option.bind_eq_some_iff.mp listPut with ⟨offset, offsetPut, listPut⟩
      rcases Option.bind_eq_some_iff.mp listPut with ⟨units, unitsPut, listPut⟩
      cases listPut
      rcases putRoot_eq_some rootPut with ⟨_, rfl, same, inside⟩ | ⟨impossible, _⟩
      · cases same
        simp only [Option.all_some, sizeWellFormed, isEffective, Bool.and_eq_true,
          decide_eq_true_eq] at wellFormed
        rcases wellFormed with ⟨⟨⟨narrow, lower⟩, _⟩, fits⟩
        have between : ct.lowerBound ≤ elements.length ∧
            (elements.length : Int) ≤ ct.upperBound := by
          simpa [countOutside, isEffective] using inside
        have power : ((2 ^ bits : Nat) : Int) = 2 ^ bits := by norm_cast
        have small : elements.length - ct.lowerBound.toNat < 2 ^ bits := by omega
        have count : elements.length - ct.lowerBound.toNat + ct.lowerBound.toNat =
            elements.length := by omega
        rw [bits_append, List.length_append] at enough
        rw [Option.bind_some, isEffective, Option.map_some, bits_append, List.append_assoc,
          (bits_asnPutFewBits offsetPut).2]
        dsimp only [Option.map_some, Option.getD_some]
        rw [BitReader.run_bind_of_ok (run_getFewBits (by omega) small),
          BitReader.run_bind_of_ok (BitReader.run_orStop_some ..), count]
        exact run_getElements _ few each unitsPut (by omega) rest
      · cases impossible

theorem run_choiceGetIndex {extStart : Option Nat} {count present : Nat} {additional : Bool}
    (wellFormed : choiceWellFormed constraint extStart count = true) (known : present < count)
    (put : choicePutIndex constraint extStart present = some (puts, additional)) :
    (choiceGetIndex constraint extStart count).run (puts.bits ++ rest) =
      .ok ((present, additional), rest) := by
  simp only [choiceWellFormed, Option.any_eq_true, Bool.and_eq_true, decide_eq_true_eq]
    at wellFormed
  rcases wellFormed with ⟨ct, rfl, ⟨bits, rangeBits, narrow, fits⟩, few⟩
  rcases Option.bind_eq_some_iff.mp put with ⟨⟨inext, root⟩, rootPut, put⟩
  dsimp only at put
  have gotRoot (behind : List Bool) := run_getRoot rootPut behind
  rcases putRoot_eq_some rootPut with ⟨_, same, rfl, inside⟩ | ⟨rfl, outside⟩
  · cases same
    rw [Option.bind_some, rangeBits] at put
    rcases Option.bind_eq_some_iff.mp put with ⟨index, indexPut, put⟩
    cases put
    have between : ct.lowerBound ≤ present ∧ (present : Int) ≤ ct.upperBound := by
      simpa [choiceOutside, rangeBits] using inside
    have power : ((2 ^ bits : Nat) : Int) = 2 ^ bits := by norm_cast
    rw [bits_append, List.append_assoc, choiceGetIndex, BitReader.run_bind_of_ok (gotRoot _),
      Option.bind_some, rangeBits, Option.map_some, (bits_asnPutFewBits indexPut).2]
    dsimp only
    rw [BitReader.run_bind_of_ok (run_getFewBits narrow (by omega)),
      BitReader.run_bind_of_ok (BitReader.run_orStop_some ..), if_neg (by omega)]
    rfl
  · rw [Option.bind_none] at put
    rcases Option.bind_eq_some_iff.mp put with ⟨start, startOf, put⟩
    rcases Option.bind_eq_some_iff.mp put with ⟨index, indexPut, put⟩
    cases put
    cases startOf
    simp only [Option.all_some, decide_eq_true_eq] at few
    have small : (present : Int) - start ≤ 63 := by omega
    have positive := uperPutNsnnwn_nonneg indexPut
    have gotIndex := (run_uperGetNsnnwn_iff indexPut).mpr small rest
    have back : ((present : Int) - start).toNat + start = present := by omega
    rw [bits_append, List.append_assoc, choiceGetIndex, BitReader.run_bind_of_ok (gotRoot _),
      Option.bind_none]
    dsimp only
    rw [BitReader.run_bind_of_ok (BitReader.run_orStop_some ..),
      BitReader.run_bind_of_ok gotIndex,
      BitReader.run_bind_of_ok (BitReader.run_orStop_some ..), back, if_neg (by omega)]
    rfl

theorem run_getExtpresent {extensible extensions : Bool}
    (known : extensions = true → extensible = true) (rest : List Bool) :
    (getExtpresent extensible).run
        ((if extensible then putPresence [extensions] else []).bits ++ rest) =
      .ok (extensions, rest) := by
  cases extensible with
  | false =>
      cases extensions with
      | false => rfl
      | true => cases known rfl
  | true =>
      have small : extensions.toNat < 2 ^ 1 := Bool.toNat_lt extensions
      have bits : (putPresence [extensions]).bits = Bits.ofNat 1 extensions.toNat :=
        bits_singleton ..
      rw [if_pos rfl, bits, getExtpresent, if_pos rfl,
        BitReader.run_bind_of_ok (run_getFewBits (by decide) small),
        BitReader.run_bind_of_ok (BitReader.run_orStop_some ..), BitReader.run_pure]
      cases extensions with
      | false => rfl
      | true => rfl

theorem comesBack_decodeOpen {additional : Bool} {encoded : Option Puts} {value : Value}
    (back : ∀ puts, encoded = some puts → ComesBack fuel decoder puts value)
    (put : putOpen additional encoded = some puts) :
    ComesBack fuel (decodeOpen fuel additional decoder) puts value := by
  intro enough rest
  cases additional with
  | false => exact back puts put enough rest
  | true =>
      rcases Option.bind_eq_some_iff.mp put with ⟨inner, rfl, _⟩
      have inside := length_uperOpenTypePut put
      have got := run_uperOpenTypeGet (fun result => result.1 = value)
        (fun behind => (back inner rfl (by omega) behind).elim fun consumed found =>
          ⟨(value, consumed), rfl, found⟩) put (Nat.le_of_lt enough) rest
      rcases got with ⟨⟨_, consumed⟩, rfl, found⟩
      exact ⟨consumed, found⟩

theorem within_elements {types : Elements} {additional : Bool} {position : Nat} {value : Value}
    (put : putOpen additional (encodeElement types position value) = some puts) :
    position < types.length := by
  have encoded : ∃ inner, encodeElement types position value = some inner := by
    cases additional with
    | false => exact ⟨puts, put⟩
    | true =>
        rcases Option.bind_eq_some_iff.mp put with ⟨inner, innerPut, _⟩
        exact ⟨inner, innerPut⟩
  clear put
  induction types generalizing position with
  | nil =>
      rcases encoded with ⟨_, impossible⟩
      cases impossible
  | cons member type others hypothesis =>
      cases position with
      | zero => exact Nat.succ_pos _
      | succ position => exact Nat.succ_lt_succ (hypothesis encoded)

theorem received_absent {elements : Elements} {values : List (Option Value)}
    (none : values.any (·.isSome) = false) : elements.received values = elements.absent := by
  induction elements generalizing values with
  | nil => rfl
  | cons member type others hypothesis =>
      cases values with
      | nil => rw [Elements.received, Elements.absent, hypothesis rfl]
      | cons value values =>
          rw [List.any_cons, Bool.or_eq_false_iff] at none
          cases value with
          | none =>
              rw [Elements.received, Elements.absent, hypothesis none.2]
              rfl
          | some value => cases none.1

end

/-! ## Sequences -/

section

variable {fuel : Nat} {specs : SequenceSpecs} {root additions : Elements}
  {members others : List (Option Value)} {encoded : Puts}

theorem length_encodeAdditions {elements : Elements} {values : List (Option Value)} {puts : Puts}
    (put : encodeAdditions elements values = some puts) : values.length = elements.length := by
  induction elements generalizing values puts with
  | nil =>
      cases values with
      | nil => rfl
      | cons => cases put
  | cons member type others hypothesis =>
      cases values with
      | nil => cases put
      | cons value values =>
          rw [encodeAdditions] at put
          rcases Option.bind_eq_some_iff.mp put with ⟨first, firstPut, put⟩
          rcases Option.bind_eq_some_iff.mp put with ⟨rest, restPut, put⟩
          rw [List.length_cons, hypothesis restPut, Elements.length]

theorem run_extensions {length openTypes : Puts} (few : additions.length ≤ 64)
    (lengthPut : uperPutNslength additions.length = some length)
    (openTypesPut : encodeAdditions additions others = some openTypes)
    (gotAdditions : ∀ rest, (decodeAdditions fuel additions (others.map (·.isSome))).run
      (openTypes.bits ++ rest) = .ok ((additions.received others, []), rest))
    (values : List (Option Value)) (rest : List Bool) :
    ((do
      let bmlength ← orStarved (← uperGetNslength)
      let epmd ← getBits bmlength
      let (others, overflow) ← decodeAdditions fuel additions epmd
      skipAdditions fuel overflow
      pure (.sequence values others, 0)) : Decoder (Value × Nat)).run
        (length.bits ++ ((putPresence (others.map (·.isSome))).bits ++ (openTypes.bits ++ rest))) =
      .ok ((.sequence values (additions.received others), 0), rest) := by
  have bitmap : (others.map (·.isSome)).length = additions.length := by
    rw [List.length_map, length_encodeAdditions openTypesPut]
  rw [BitReader.run_bind_of_ok ((run_uperGetNslength_iff lengthPut).mpr few _),
    BitReader.run_bind_of_ok (BitReader.run_orStop_some ..), bits_putPresence,
    BitReader.run_bind_of_ok (run_getBits bitmap _), BitReader.run_bind_of_ok (gotAdditions rest)]
  rfl

theorem comesBack_sequence
    (wellFormed : (Descriptor.sequence specs root additions).wellFormed given = true)
    (gotRoot : ∀ puts, encodeRoot root members = some puts → puts.bits.length < fuel →
      ∀ rest, (decodeRoot fuel root (root.presence members)).run (puts.bits ++ rest) =
        .ok (root.received members, rest))
    (gotAdditions : ∀ puts, encodeAdditions additions others = some puts →
      puts.bits.length < fuel → ∀ rest,
        (decodeAdditions fuel additions (others.map (·.isSome))).run (puts.bits ++ rest) =
          .ok ((additions.received others, []), rest))
    (put : encode (.sequence specs root additions) given (.sequence members others) =
      some encoded) :
    ComesBack fuel (decode fuel (.sequence specs root additions) given) encoded
      (.sequence (root.received members) (additions.received others)) := by
  simp only [Descriptor.wellFormed, Bool.and_eq_true, beq_iff_eq, decide_eq_true_eq]
    at wellFormed
  rcases wellFormed with ⟨⟨⟨⟨oms, extensible⟩, few⟩, _⟩, _⟩
  intro enough rest
  rw [encode] at put
  rcases Option.bind_eq_some_iff.mp put with ⟨values, valuesPut, put⟩
  have presence : specs.oms.map (root.putAt members) = root.presence members := by
    rw [oms, Elements.map_putAt_optionals (length_encodeRoot valuesPut)]
  have bitmap : (root.presence members).length = specs.oms.length := by
    rw [oms, Elements.length_presence (length_encodeRoot valuesPut)]
  have known : (specs.extensible && others.any (·.isSome)) = true →
      specs.extensible = true := by
    intro extensions
    exact (Bool.and_eq_true _ _ ▸ extensions).1
  rw [presence] at put
  cases extensions : (specs.extensible && others.any (·.isSome)) with
  | true =>
      rw [extensions, if_pos rfl] at put
      rcases Option.bind_eq_some_iff.mp put with ⟨length, lengthPut, put⟩
      rcases Option.bind_eq_some_iff.mp put with ⟨openTypes, openTypesPut, put⟩
      cases put
      simp only [bits_append, List.length_append] at enough
      rw [extensions] at known
      refine ⟨0, ?_⟩
      simp only [bits_append, List.append_assoc]
      rw [decode, BitReader.run_bind_of_ok (run_getExtpresent known _), bits_putPresence,
        BitReader.run_bind_of_ok (run_getBits bitmap _),
        BitReader.run_bind_of_ok (gotRoot values valuesPut (by omega) _), if_pos rfl]
      exact run_extensions few lengthPut openTypesPut
        (gotAdditions openTypes openTypesPut (by omega)) _ rest
  | false =>
      rw [extensions, if_neg Bool.false_ne_true] at put
      cases put
      simp only [bits_append, List.length_append] at enough
      have absent : additions.received others = additions.absent := by
        cases isExtensible : specs.extensible with
        | true =>
            rw [isExtensible, Bool.true_and] at extensions
            exact received_absent extensions
        | false =>
            have none : additions.length = 0 := by simpa [isExtensible] using extensible
            cases additions with
            | nil => rfl
            | cons member type others => cases none
      rw [extensions] at known
      refine ⟨0, ?_⟩
      simp only [bits_append, List.append_assoc]
      rw [decode, BitReader.run_bind_of_ok (run_getExtpresent known _), bits_putPresence,
        BitReader.run_bind_of_ok (run_getBits bitmap _),
        BitReader.run_bind_of_ok (gotRoot values valuesPut (by omega) _),
        if_neg Bool.false_ne_true, absent]
      rfl

end

/-! ## All types -/

theorem received_native (descriptor : Descriptor) (given : Option PerConstraints) (value : Int) :
    descriptor.received given (.native value) = .native value := by
  cases descriptor <;> rfl

theorem default_of_isDefault {member : Member} {value : Value}
    (isDefault : member.isDefault value = true) : member.default.isSome = true := by
  cases value with
  | native value =>
      rw [show member.default = some value from eq_of_beq isDefault, Option.isSome_some]
  | _ => cases isDefault

theorem absent_of_isDefault {member : Member} {value : Value}
    (isDefault : member.isDefault value = true) (type : Descriptor) :
    member.absent = some (type.received member.constraints value) := by
  cases value with
  | native value =>
      have default : member.default = some value := eq_of_beq isDefault
      rw [received_native, Member.absent, default]
      rfl
  | _ => cases isDefault

section

variable {fuel : Nat} {member : Member} {type : Descriptor} {others : Elements}
  {value : Option Value} {values : List (Option Value)} {first behind : Puts} {rest : List Bool}

theorem run_decodeRoot_cons (defaults : member.optional = true ∨ member.default.isNone = true)
    (back : ∀ present, value = some present → ∀ encoded,
      encode type member.constraints present = some encoded →
      ComesBack fuel (decode fuel type member.constraints) encoded
        (type.received member.constraints present))
    (gotOthers : (decodeRoot fuel others (others.presence values)).run (behind.bits ++ rest) =
      .ok (others.received values, rest))
    (put : encodeMember member (encode type member.constraints) value = some first)
    (enough : first.bits.length < fuel) :
    (decodeRoot fuel (.cons member type others)
        ((Elements.cons member type others).presence (value :: values))).run
        (first.bits ++ (behind.bits ++ rest)) =
      .ok ((Elements.cons member type others).received (value :: values), rest) := by
  have leftOut (optional : member.optional = true) (notPut : member.isPut value = false)
      (none : first = [])
      (stored : member.absent = member.received (type.received member.constraints) value) :
      (decodeRoot fuel (.cons member type others)
          ((Elements.cons member type others).presence (value :: values))).run
          (first.bits ++ (behind.bits ++ rest)) =
        .ok ((Elements.cons member type others).received (value :: values), rest) := by
    rw [Elements.presence, if_pos optional, notPut, decodeRoot, if_pos ⟨optional, rfl⟩, none,
      Elements.received, ← stored]
    exact BitReader.run_bind_of_ok gotOthers _
  cases value with
  | none =>
      rw [encodeMember] at put
      split at put
      next optional =>
        cases put
        exact leftOut optional rfl rfl rfl
      next => cases put
  | some present =>
      rw [encodeMember] at put
      split at put
      next isDefault =>
        cases put
        have optional : member.optional = true := by
          apply defaults.resolve_right
          simp [Option.isNone_iff_eq_none,
            Option.isSome_iff_ne_none.mp (default_of_isDefault isDefault)]
        exact leftOut optional (by simp [Member.isPut, isDefault]) rfl
          (absent_of_isDefault isDefault type)
      next other =>
        rcases back present rfl first put enough (behind.bits ++ rest) with ⟨consumed, got⟩
        have isPut : member.isPut (some present) = true := by simp [Member.isPut, other]
        rw [Elements.presence, decodeRoot, isPut, Elements.received]
        cases member.optional with
        | true =>
            rw [if_pos rfl, if_neg (by simp), BitReader.run_bind_of_ok got]
            exact BitReader.run_bind_of_ok gotOthers _
        | false =>
            rw [if_neg Bool.false_ne_true, if_neg (by simp), BitReader.run_bind_of_ok got]
            exact BitReader.run_bind_of_ok gotOthers _

theorem run_decodeAdditions_cons
    (back : ∀ present, value = some present → ∀ encoded,
      encode type member.constraints present = some encoded →
      ComesBack fuel (decode fuel type member.constraints) encoded
        (type.received member.constraints present))
    (gotOthers : (decodeAdditions fuel others (values.map (·.isSome))).run (behind.bits ++ rest) =
      .ok ((others.received values, []), rest))
    (put : encodeAddition (encode type member.constraints) value = some first)
    (enough : first.bits.length < fuel) :
    (decodeAdditions fuel (.cons member type others) ((value :: values).map (·.isSome))).run
        (first.bits ++ (behind.bits ++ rest)) =
      .ok (((Elements.cons member type others).received (value :: values), []), rest) := by
  cases value with
  | none =>
      cases put
      rw [List.map_cons, decodeAdditions, decodeAddition, if_neg (by simp), Elements.received]
      exact BitReader.run_bind_of_ok gotOthers _
  | some present =>
      rcases Option.bind_eq_some_iff.mp put with ⟨encoded, encodedPut, _⟩
      rw [encodeAddition, encodedPut] at put
      have inside := length_uperOpenTypePut put
      have got := run_uperOpenTypeGet
        (fun result => result.1 = type.received member.constraints present)
        (fun tail => (back present rfl encoded encodedPut (by omega) tail).elim
          fun consumed found => ⟨(_, consumed), rfl, found⟩)
        put (Nat.le_of_lt enough) (behind.bits ++ rest)
      rcases got with ⟨⟨_, consumed⟩, rfl, found⟩
      have gotFirst : (decodeAddition fuel member (some true)
          (decode fuel type member.constraints)).run (first.bits ++ (behind.bits ++ rest)) =
          .ok (some (type.received member.constraints present), behind.bits ++ rest) := by
        rw [decodeAddition, if_pos rfl, BitReader.run_bind_of_ok found]
        rfl
      rw [List.map_cons, decodeAdditions, Elements.received]
      exact (BitReader.run_bind_of_ok gotFirst _).trans (BitReader.run_bind_of_ok gotOthers _)

end

mutual

theorem comesBack (fuel : Nat) : (descriptor : Descriptor) →
    ∀ {given : Option PerConstraints} {value : Value} {encoded : Puts},
      descriptor.wellFormed given = true → descriptor.Fits value →
      encode descriptor given value = some encoded →
      ComesBack fuel (decode fuel descriptor given) encoded (descriptor.received given value)
  | .nativeInteger own fieldUnsigned, given, value, encoded, wellFormed, fits, put => by
      cases value with
      | native value =>
          intro enough rest
          rw [received_native, decode, BitReader.run_bind_of_ok
            (run_nativeIntegerDecodeUper fits wellFormed put (Nat.le_of_lt enough) rest)]
          exact ⟨0, rfl⟩
      | _ => cases put
  | .integer own fieldUnsigned, given, value, encoded, wellFormed, fits, put => by
      cases value with
      | integer buf =>
          intro enough rest
          rw [decode, BitReader.run_bind_of_ok
            (run_integerDecodeUper wellFormed put (Nat.le_of_lt enough) rest)]
          exact ⟨0, rfl⟩
      | _ => cases put
  | .nativeEnumerated own specs, given, value, encoded, wellFormed, fits, put => by
      cases value with
      | native value =>
          intro enough rest
          rw [received_native, decode, BitReader.run_bind_of_ok
            (run_nativeEnumeratedDecodeUper wellFormed put rest)]
          exact ⟨0, rfl⟩
      | _ => cases put
  | .boolean, given, value, encoded, wellFormed, fits, put => by
      cases value with
      | boolean value =>
          intro enough rest
          cases put
          rw [bits_singleton, decode, BitReader.run_bind_of_ok
            (run_getFewBits (by decide) (Bool.toNat_lt value)),
            BitReader.run_bind_of_ok (BitReader.run_orStop_some ..)]
          cases value with
          | false => exact ⟨1, rfl⟩
          | true => exact ⟨1, rfl⟩
      | _ => cases put
  | .bitString own, given, value, encoded, wellFormed, fits, put => by
      cases value with
      | bitString st =>
          intro enough rest
          rcases run_bitStringDecodeUper wellFormed put enough rest with ⟨consumed, got⟩
          rw [decode, BitReader.run_bind_of_ok got]
          exact ⟨consumed, rfl⟩
      | _ => cases put
  | .octetString own, given, value, encoded, wellFormed, fits, put => by
      cases value with
      | octetString buf =>
          intro enough rest
          rcases run_octetStringDecodeUper wellFormed put enough rest with ⟨consumed, got⟩
          rw [decode, BitReader.run_bind_of_ok got]
          exact ⟨consumed, rfl⟩
      | _ => cases put
  | .sequence specs root additions, given, value, encoded, wellFormed, fits, put => by
      cases value with
      | sequence members others =>
          have parts := wellFormed
          simp only [Descriptor.wellFormed, Bool.and_eq_true] at parts
          exact comesBack_sequence wellFormed
            (fun puts rootPut enough rest =>
              run_decodeRoot fuel root parts.1.2 fits.1 rootPut enough rest)
            (fun puts additionsPut enough rest =>
              run_decodeAdditions fuel additions parts.2 fits.2 additionsPut enough rest) put
      | _ => cases put
  | .choice own extStart elements, given, value, encoded, wellFormed, fits, put => by
      cases value with
      | choice present member =>
          rcases present with _ | present
          · cases put
          · simp only [Descriptor.wellFormed, Bool.and_eq_true] at wellFormed
            rw [encode] at put
            rcases Option.bind_eq_some_iff.mp put with ⟨⟨index, additional⟩, indexPut, put⟩
            rcases Option.bind_eq_some_iff.mp put with ⟨chosen, chosenPut, put⟩
            cases put
            intro enough rest
            rw [bits_append, List.length_append] at enough
            have back := comesBack_decodeOpen
              (fun puts elementPut => comesBack_element fuel elements wellFormed.2 fits elementPut)
              chosenPut (by omega) rest
            rcases back with ⟨consumed, got⟩
            rw [bits_append, List.append_assoc, decode, BitReader.run_bind_of_ok
              (run_choiceGetIndex wellFormed.1 (within_elements chosenPut) indexPut)]
            dsimp only
            rw [BitReader.run_bind_of_ok got]
            exact ⟨consumed, rfl⟩
      | _ => cases put
  | .sequenceOf own member element, given, value, encoded, wellFormed, fits, put => by
      cases value with
      | sequenceOf elements =>
          simp only [Descriptor.wellFormed, Bool.and_eq_true] at wellFormed
          intro enough rest
          have got := run_setOfDecodeUper wellFormed.1 fits.1
            (fun value among puts elementPut =>
              comesBack fuel element wellFormed.2 (fits.2 value among) elementPut) put enough rest
          rw [decode, BitReader.run_bind_of_ok got]
          exact ⟨0, rfl⟩
      | _ => cases put

theorem run_decodeRoot (fuel : Nat) : (elements : Elements) →
    ∀ {values : List (Option Value)} {encoded : Puts}, elements.wellFormed = true →
      elements.Fits values → encodeRoot elements values = some encoded →
      encoded.bits.length < fuel → ∀ rest,
      (decodeRoot fuel elements (elements.presence values)).run (encoded.bits ++ rest) =
        .ok (elements.received values, rest)
  | .nil, values, encoded, wellFormed, fits, put, enough, rest => by
      cases values with
      | nil =>
          cases put
          rfl
      | cons => cases put
  | .cons member type others, values, encoded, wellFormed, fits, put, enough, rest => by
      cases values with
      | nil => cases put
      | cons value values =>
          simp only [Elements.wellFormed, Bool.and_eq_true, Bool.or_eq_true] at wellFormed
          rcases wellFormed with ⟨⟨defaults, typeWellFormed⟩, othersWellFormed⟩
          rw [encodeRoot] at put
          rcases Option.bind_eq_some_iff.mp put with ⟨first, firstPut, put⟩
          rcases Option.bind_eq_some_iff.mp put with ⟨behind, behindPut, put⟩
          cases put
          rw [bits_append, List.length_append] at enough
          rw [bits_append, List.append_assoc]
          exact run_decodeRoot_cons defaults
            (fun present same puts typePut =>
              comesBack fuel type typeWellFormed (fits.1 present same) typePut)
            (run_decodeRoot fuel others othersWellFormed fits.2 behindPut (by omega) rest)
            firstPut (by omega)

theorem run_decodeAdditions (fuel : Nat) : (elements : Elements) →
    ∀ {values : List (Option Value)} {encoded : Puts}, elements.wellFormed = true →
      elements.Fits values → encodeAdditions elements values = some encoded →
      encoded.bits.length < fuel → ∀ rest,
      (decodeAdditions fuel elements (values.map (·.isSome))).run (encoded.bits ++ rest) =
        .ok ((elements.received values, []), rest)
  | .nil, values, encoded, wellFormed, fits, put, enough, rest => by
      cases values with
      | nil =>
          cases put
          rfl
      | cons => cases put
  | .cons member type others, values, encoded, wellFormed, fits, put, enough, rest => by
      cases values with
      | nil => cases put
      | cons value values =>
          simp only [Elements.wellFormed, Bool.and_eq_true, Bool.or_eq_true] at wellFormed
          rcases wellFormed with ⟨⟨_, typeWellFormed⟩, othersWellFormed⟩
          rw [encodeAdditions] at put
          rcases Option.bind_eq_some_iff.mp put with ⟨first, firstPut, put⟩
          rcases Option.bind_eq_some_iff.mp put with ⟨behind, behindPut, put⟩
          cases put
          rw [bits_append, List.length_append] at enough
          rw [bits_append, List.append_assoc]
          exact run_decodeAdditions_cons
            (fun present same puts typePut =>
              comesBack fuel type typeWellFormed (fits.1 present same) typePut)
            (run_decodeAdditions fuel others othersWellFormed fits.2 behindPut (by omega) rest)
            firstPut (by omega)

theorem comesBack_element (fuel : Nat) : (elements : Elements) →
    ∀ {position : Nat} {value : Value} {encoded : Puts}, elements.wellFormed = true →
      elements.FitsAt position value → encodeElement elements position value = some encoded →
      ComesBack fuel (decodeElement fuel elements position) encoded
        (elements.receivedAt position value)
  | .nil, position, value, encoded, wellFormed, fits, put => by
      cases put
  | .cons member type others, position, value, encoded, wellFormed, fits, put => by
      simp only [Elements.wellFormed, Bool.and_eq_true] at wellFormed
      cases position with
      | zero => exact comesBack fuel type wellFormed.1.2 fits put
      | succ position => exact comesBack_element fuel others wellFormed.2 fits put
end

end AIM.Uper
