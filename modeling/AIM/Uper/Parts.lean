import AIM.Uper.RoundTrip

namespace AIM.Uper

/-! # Parts of a value

A part is found by the way to it: the positions of the members, and the `present` of a
choice. -/

namespace Value

def part : Value → List Nat → Option Value
  | value, [] => some value
  | .sequence members _, position :: path => members[position]?.join.bind (·.part path)
  | .choice present member, step :: path => if present = step then member.part path else none
  | _, _ :: _ => none

def bitsAt (value : Value) (path : List Nat) : Option (List UInt8) :=
  match value.part path with
  | some (.bitString st) => some st.buf
  | _ => none

end Value

namespace Elements

def getAt : Elements → Nat → Option (Member × Descriptor)
  | .nil, _ => none
  | .cons member type _, 0 => some (member, type)
  | .cons _ _ others, position + 1 => others.getAt position

end Elements

/-- The type at the end of a way, with the constraints that count for it. -/
def Descriptor.part :
    Descriptor → Option PerConstraints → List Nat → Option (Descriptor × Option PerConstraints)
  | descriptor, given, [] => some (descriptor, given)
  | .sequence _ root _, _, position :: path =>
      (root.getAt position).bind fun element =>
        if element.1.default.isSome then none
        else element.2.part element.1.constraints path
  | .choice _ _ elements, _, (present + 1) :: path =>
      (elements.getAt present).bind fun element => element.2.part element.1.constraints path
  | _, _, _ :: _ => none

inductive Kind
  | number
  | octets
  | bits
  | choice
  deriving DecidableEq

def Descriptor.kind : Descriptor → Option Kind
  | .nativeInteger _ _ => some .number
  | .octetString _ => some .octets
  | .bitString _ => some .bits
  | .choice _ _ _ => some .choice
  | _ => none

section

variable {elements : Elements} {position : Nat} {element : Member × Descriptor}

end

section

variable {path : List Nat} {type : Descriptor} {given own : Option PerConstraints}
  {element : Member × Descriptor} {puts : Puts}

end

section

variable {path : List Nat} {descriptor : Descriptor} {given own constraints : Option PerConstraints}
  {fieldUnsigned : Bool} {value : Value} {puts : Puts}

end

end AIM.Uper
