import AIM.Uper.BitStrings
import AIM.Uper.OpenType

namespace AIM.Uper

/-! # Types and their codec

The tables that describe an ASN.1 type, the values of the C structures, and the decoder and
the encoder that follow the tables. -/

/-- `asn_SEQUENCE_specifics_t`: the optional members without the additional ones, by their
position. -/
structure SequenceSpecs where
  extensible : Bool
  oms : List Nat

/-- `asn_TYPE_member_t`. The default is compared with numbers only. -/
structure Member where
  optional : Bool
  constraints : Option PerConstraints
  default : Option Int

mutual

/-- `asn_TYPE_descriptor_t`. The members from `first_extension` on are the additions. -/
inductive Descriptor
  | nativeInteger (constraints : Option PerConstraints) (fieldUnsigned : Bool)
  | integer (constraints : Option PerConstraints) (fieldUnsigned : Bool)
  | nativeEnumerated (constraints : Option PerConstraints) (specs : EnumeratedSpecs)
  | boolean
  | bitString (constraints : Option PerConstraints)
  | octetString (constraints : Option PerConstraints)
  | sequence (specs : SequenceSpecs) (root additions : Elements)
  | choice (constraints : Option PerConstraints) (extStart : Option Nat) (elements : Elements)
  | sequenceOf (constraints : Option PerConstraints) (member : Member) (element : Descriptor)

inductive Elements
  | nil
  | cons (member : Member) (type : Descriptor) (others : Elements)
end

/-- What a C structure holds. A member that is not there is a null pointer. -/
inductive Value
  | native (value : Int)
  | integer (buf : List UInt8)
  | boolean (value : Bool)
  | bitString (st : BitString)
  | octetString (buf : List UInt8)
  | sequence (members additions : List (Option Value))
  | choice (present : Nat) (member : Value)
  | sequenceOf (elements : List Value)

namespace Elements

def length : Elements → Nat
  | .nil => 0
  | .cons _ _ others => others.length + 1

@[elab_as_elim, induction_eliminator]
theorem induction {motive : Elements → Prop} (nil : motive .nil)
    (cons : ∀ member type others, motive others → motive (.cons member type others)) :
    ∀ elements, motive elements
  | .nil => nil
  | .cons member type others => cons member type others (induction nil cons others)

end Elements

/-! ## Members -/

def Member.isDefault (member : Member) : Value → Bool
  | .native value => member.default == some value
  | _ => false

/-- Default values are left out. -/
def Member.isPut (member : Member) (value : Option Value) : Bool :=
  value.any (!member.isDefault ·)

/-- What is stored for a member that is not there. -/
def Member.absent (member : Member) : Option Value := member.default.map .native

namespace Elements

def absent : Elements → List (Option Value)
  | .nil => []
  | .cons member _ others => member.absent :: others.absent

def putAt : Elements → List (Option Value) → Nat → Bool
  | .cons member _ _, value :: _, 0 => member.isPut value
  | .cons _ _ others, _ :: values, position + 1 => others.putAt values position
  | _, _, _ => false

def optionals : Elements → Nat → List Nat
  | .nil, _ => []
  | .cons member _ others, position =>
      if member.optional then position :: others.optionals (position + 1)
      else others.optionals (position + 1)

end Elements

/-! ## Decoding -/

def sizeOf? (given own : Option PerConstraints) : Option PerConstraint :=
  (given <|> own).map (·.size)

def valueOf? (given own : Option PerConstraints) : Option PerConstraint :=
  (given <|> own).map (·.value)

/-- More than 200 elements that consume nothing are taken for an attack. -/
def getElements (decoder : Decoder (Value × Nat)) (nelems : Nat) : Nat → Decoder (List Value)
  | 0 => pure []
  | count + 1 => do
      let (value, consumed) ← decoder
      if consumed = 0 ∧ 200 < nelems then failed
      else do
        let others ← getElements decoder nelems count
        pure (value :: others)

def setOfDecodeUper (fuel : Nat) (constraint : Option PerConstraint)
    (decoder : Decoder (Value × Nat)) : Decoder (List Value) := do
  let ct ← getRoot constraint
  match ct.bind fun ct => ct.effectiveBits.map (ct, ·) with
  | some (ct, bits) => do
      let nelems ← orStarved (← getFewBits bits)
      getElements decoder (nelems + ct.lowerBound.toNat) (nelems + ct.lowerBound.toNat)
  | none => getFragments none 0 (fun nelems => getElements decoder nelems nelems) fuel

/-- The position of the chosen element, and whether it is an additional one. -/
def choiceGetIndex (constraint : Option PerConstraint) (extStart : Option Nat) (count : Nat) :
    Decoder (Nat × Bool) := do
  let ct ← getRoot constraint
  match ct.bind fun ct => ct.rangeBits.map (ct, ·) with
  | some (ct, bits) => do
      let value ← orStarved (← getFewBits bits)
      if ct.upperBound < value then failed else pure (value, false)
  | none => do
      let start ← orFailed extStart
      let value ← orStarved (← uperGetNsnnwn)
      if count ≤ value + start then failed else pure (value + start, true)

def skipAdditions (fuel : Nat) : List Bool → Decoder Unit
  | [] => pure ()
  | present :: epmd => do
      if present then uperOpenTypeSkip fuel
      skipAdditions fuel epmd

def getExtpresent (extensible : Bool) : Decoder Bool :=
  if extensible then do
    let extpresent ← orStarved (← getFewBits 1)
    pure (extpresent ≠ 0)
  else pure false

def decodeOpen (fuel : Nat) (additional : Bool) (decoder : Decoder (Value × Nat)) :
    Decoder (Value × Nat) :=
  if additional then uperOpenTypeGet fuel decoder else decoder

def decodeAddition (fuel : Nat) (member : Member) (present : Option Bool)
    (decoder : Decoder (Value × Nat)) : Decoder (Option Value) :=
  if present = some true then do
    let (value, _) ← uperOpenTypeGet fuel decoder
    pure (some value)
  else pure member.absent

mutual

/-- The value, and how many bits are said to be consumed. `given` are the constraints of
the member, which replace those of its type. -/
def decode (fuel : Nat) : Descriptor → Option PerConstraints → Decoder (Value × Nat)
  | .nativeInteger own fieldUnsigned, given => do
      let value ← nativeIntegerDecodeUper fuel (valueOf? given own) fieldUnsigned
      pure (.native value, 0)
  | .integer own fieldUnsigned, given => do
      let buf ← integerDecodeUper fuel (valueOf? given own) fieldUnsigned
      pure (.integer buf, 0)
  | .nativeEnumerated own specs, given => do
      let value ← nativeEnumeratedDecodeUper (valueOf? given own) specs
      pure (.native value, 0)
  | .boolean, _ => do
      let value ← orStarved (← getFewBits 1)
      pure (.boolean (value ≠ 0), 1)
  | .bitString own, given => do
      let (st, consumed) ← bitStringDecodeUper fuel (given <|> own)
      pure (.bitString st, consumed)
  | .octetString own, given => do
      let (buf, consumed) ← octetStringDecodeUper fuel (given <|> own)
      pure (.octetString buf, consumed)
  | .sequence specs root additions, _ => do
      let extpresent ← getExtpresent specs.extensible
      let opmd ← getBits specs.oms.length
      let members ← decodeRoot fuel root opmd
      if extpresent then do
        let bmlength ← orStarved (← uperGetNslength)
        let epmd ← getBits bmlength
        let (others, overflow) ← decodeAdditions fuel additions epmd
        skipAdditions fuel overflow
        pure (.sequence members others, 0)
      else pure (.sequence members additions.absent, 0)
  | .choice own extStart elements, given => do
      let (value, additional) ← choiceGetIndex (valueOf? given own) extStart elements.length
      let (member, consumed) ← decodeOpen fuel additional (decodeElement fuel elements value)
      pure (.choice (value + 1) member, consumed)
  | .sequenceOf own member element, given => do
      let elements ← setOfDecodeUper fuel (sizeOf? given own)
        (decode fuel element member.constraints)
      pure (.sequenceOf elements, 0)

/-- An optional member whose bit is missing counts as present. -/
def decodeRoot (fuel : Nat) : Elements → List Bool → Decoder (List (Option Value))
  | .nil, _ => pure []
  | .cons member type others, opmd =>
      if member.optional = true ∧ opmd.head? = some false then do
        let values ← decodeRoot fuel others opmd.tail
        pure (member.absent :: values)
      else do
        let (value, _) ← decode fuel type member.constraints
        let values ← decodeRoot fuel others (if member.optional then opmd.tail else opmd)
        pure (some value :: values)

def decodeAdditions (fuel : Nat) :
    Elements → List Bool → Decoder (List (Option Value) × List Bool)
  | .nil, epmd => pure ([], epmd)
  | .cons member type others, epmd => do
      let value ← decodeAddition fuel member epmd.head? (decode fuel type member.constraints)
      let (values, overflow) ← decodeAdditions fuel others epmd.tail
      pure (value :: values, overflow)

def decodeElement (fuel : Nat) : Elements → Nat → Decoder (Value × Nat)
  | .nil, _ => failed
  | .cons member type _, 0 => decode fuel type member.constraints
  | .cons _ _ others, position + 1 => decodeElement fuel others position
end

/-! ## Encoding -/

def putElements (encoder : Value → Option Puts) : List Value → Option Puts
  | [] => some []
  | element :: elements => do
      let first ← encoder element
      let others ← putElements encoder elements
      some (first ++ others)

def countOutside (count : Nat) (ct : PerConstraint) : Bool :=
  (decide (count < ct.lowerBound) || decide (ct.upperBound < count)) &&
    (ct.extensible || ct.effectiveBits.isSome)

def sequenceOfEncodeUper (constraint : Option PerConstraint) (encoder : Value → Option Puts)
    (elements : List Value) : Option Puts := do
  let (inext, root) ← putRoot (countOutside elements.length) constraint
  let lowerBound := (root.map (·.lowerBound.toNat)).getD 0
  let list ← putSized root elements.length (elements.length - lowerBound)
    (putElements encoder elements)
    fun position count => putElements encoder ((elements.drop position).take count)
  some (inext ++ list)

def choiceOutside (present : Nat) (ct : PerConstraint) : Bool :=
  ct.rangeBits.isSome && (decide (present < ct.lowerBound) || decide (ct.upperBound < present))

def choicePutIndex (constraint : Option PerConstraint) (extStart : Option Nat) (present : Nat) :
    Option (Puts × Bool) := do
  let (inext, ct) ← putRoot (choiceOutside present) constraint
  match ct.bind (·.rangeBits) with
  | some bits => do
      let index ← asnPutFewBits present bits
      some (inext ++ index, false)
  | none => do
      let start ← extStart
      let index ← uperPutNsnnwn ((present : Int) - start)
      some (inext ++ index, true)

def putPresence (present : List Bool) : Puts := present.map fun bit => (bit.toNat, 1)

def putOpen (additional : Bool) (encoded : Option Puts) : Option Puts :=
  if additional then uperOpenTypePut encoded else encoded

def encodeMember (member : Member) (encoder : Value → Option Puts) : Option Value → Option Puts
  | none => if member.optional then some [] else none
  | some value => if member.isDefault value then some [] else encoder value

def encodeAddition (encoder : Value → Option Puts) : Option Value → Option Puts
  | none => some []
  | some value => uperOpenTypePut (encoder value)

mutual

def encode : Descriptor → Option PerConstraints → Value → Option Puts
  | .nativeInteger own fieldUnsigned, given, .native value =>
      nativeIntegerEncodeUper (valueOf? given own) fieldUnsigned value
  | .integer own fieldUnsigned, given, .integer buf =>
      integerEncodeUper (valueOf? given own) fieldUnsigned buf
  | .nativeEnumerated own specs, given, .native value =>
      nativeEnumeratedEncodeUper (valueOf? given own) specs value
  | .boolean, _, .boolean value => some [(value.toNat, 1)]
  | .bitString own, given, .bitString st => bitStringEncodeUper (given <|> own) st
  | .octetString own, given, .octetString buf => octetStringEncodeUper (given <|> own) buf
  | .sequence specs root additions, _, .sequence members others => do
      let extensions := specs.extensible && others.any (·.isSome)
      let extpresent := if specs.extensible then putPresence [extensions] else []
      let presence := putPresence (specs.oms.map (root.putAt members))
      let values ← encodeRoot root members
      if extensions then do
        let length ← uperPutNslength additions.length
        let openTypes ← encodeAdditions additions others
        some (extpresent ++ presence ++ values ++ length ++
          putPresence (others.map (·.isSome)) ++ openTypes)
      else some (extpresent ++ presence ++ values)
  | .choice own extStart elements, given, .choice (present + 1) member => do
      let (index, additional) ← choicePutIndex (valueOf? given own) extStart present
      let value ← putOpen additional (encodeElement elements present member)
      some (index ++ value)
  | .sequenceOf own member element, given, .sequenceOf elements =>
      sequenceOfEncodeUper (sizeOf? given own) (encode element member.constraints) elements
  | _, _, _ => none

def encodeRoot : Elements → List (Option Value) → Option Puts
  | .nil, [] => some []
  | .cons member type others, value :: values => do
      let first ← encodeMember member (encode type member.constraints) value
      let rest ← encodeRoot others values
      some (first ++ rest)
  | _, _ => none

def encodeAdditions : Elements → List (Option Value) → Option Puts
  | .nil, [] => some []
  | .cons member type others, value :: values => do
      let first ← encodeAddition (encode type member.constraints) value
      let rest ← encodeAdditions others values
      some (first ++ rest)
  | _, _ => none

def encodeElement : Elements → Nat → Value → Option Puts
  | .nil, _, _ => none
  | .cons member type _, 0, value => encode type member.constraints value
  | .cons _ _ others, position + 1, value => encodeElement others position value
end

end AIM.Uper
