import AIM.Json11.Parser

namespace AIM.Json11

open Binary64 Decimal

/-! # The grammar of JSON texts

The texts that denote a value, with a limit to the nesting of arrays and objects. Where a key
of an object occurs again, its last value counts. -/

def Blank (text : Bytes) : Prop := ∀ ch ∈ text, isBlank ch = true

/-! ## Strings -/

inductive StringItem
  | plain (ch : UInt8) (allowed : 0x1f < ch ∧ ch ≠ Json.quote ∧ ch ≠ Json.backslash)
  | letter (escape ch : UInt8) (escapes : unescaped escape = some ch)
  | code (digits : Bytes) (length : digits.length = 4) (hex : digits.all isHexDigit = true)

/-- A byte of a string, or the code point of an escape sequence. -/
inductive StringUnit
  | byte (ch : UInt8)
  | code (codepoint : Nat)

namespace StringItem

def text : StringItem → Bytes
  | plain ch _ => [ch]
  | letter escape _ _ => [Json.backslash, escape]
  | code digits _ _ => Json.backslash :: 0x75 :: digits

def unit : StringItem → StringUnit
  | plain ch _ => .byte ch
  | letter _ ch _ => .byte ch
  | code digits _ _ => .code (hexNumber digits)

end StringItem

def IsPair (lead trail : Nat) : Prop :=
  (0xd800 ≤ lead ∧ lead ≤ 0xdbff) ∧ 0xdc00 ≤ trail ∧ trail ≤ 0xdfff

instance (lead trail : Nat) : Decidable (IsPair lead trail) :=
  inferInstanceAs (Decidable (_ ∧ _))

def pairPoint (lead trail : Nat) : Nat := 0x10000 + (lead - 0xd800) * 0x400 + (trail - 0xdc00)

/-- The bytes of a string. A surrogate pair is one code point. -/
def unitsValue : List StringUnit → Bytes
  | [] => []
  | .byte ch :: rest => ch :: unitsValue rest
  | .code codepoint :: rest =>
      match rest with
      | .code trail :: later =>
          if IsPair codepoint trail then encodeUtf8 (pairPoint codepoint trail) ++ unitsValue later
          else encodeUtf8 codepoint ++ unitsValue (.code trail :: later)
      | .byte ch :: later => encodeUtf8 codepoint ++ unitsValue (.byte ch :: later)
      | [] => encodeUtf8 codepoint

def stringText (items : List StringItem) : Bytes :=
  Json.quote :: (items.flatMap StringItem.text ++ [Json.quote])

def stringValue (items : List StringItem) : Bytes := unitsValue (items.map StringItem.unit)

/-! ## Numbers -/

def IsDigits (digits : Bytes) : Prop := digits ≠ [] ∧ digits.all isDigit = true

/-- Only a zero starts with a zero. -/
def IsInteger (digits : Bytes) : Prop := IsDigits digits ∧ (digits.headD 0 = 0x30 → digits = [0x30])

def exponentMarks : List Bytes :=
  [ascii "e", ascii "e+", ascii "e-", ascii "E", ascii "E+", ascii "E-"]

structure NumberToken where
  negative : Bool
  integer : Bytes
  fraction : Option Bytes
  exponent : Option (Bytes × Bytes)
  integerDigits : IsInteger integer
  fractionDigits : ∀ digits ∈ fraction, IsDigits digits
  exponentDigits : ∀ mark ∈ exponent, mark.1 ∈ exponentMarks ∧ IsDigits mark.2

namespace NumberToken

def signText (negative : Bool) : Bytes := if negative then [0x2d] else []

def fractionText (fraction : Option Bytes) : Bytes := fraction.elim [] (0x2e :: ·)

def exponentText (exponent : Option (Bytes × Bytes)) : Bytes :=
  exponent.elim [] fun mark => mark.1 ++ mark.2

variable (token : NumberToken)

def text : Bytes :=
  signText token.negative ++ (token.integer ++
    (fractionText token.fraction ++ exponentText token.exponent))

def digitsValue (digits : Bytes) : Nat := Nat.ofDigitChars 10 (textOf digits) 0

def sign : Int := if token.negative then -1 else 1

def exponentValue : Int :=
  match token.exponent with
  | none => 0
  | some (mark, digits) => if 0x2d ∈ mark then -(digitsValue digits : Int) else digitsValue digits

/-- The digits, and how far the point is from their end. -/
def decimal : ℚ :=
  token.sign * digitsValue (token.integer ++ token.fraction.getD []) *
    10 ^ (token.exponentValue - (token.fraction.getD []).length)

def double : Double := .round token.negative token.decimal

/-- A number without point and exponent is an `int` if it is short enough for that. -/
def value : Json :=
  if token.fraction = none ∧ token.exponent = none ∧ token.text.length ≤ digits10 then
    .int (.ofInt (token.sign * digitsValue token.integer))
  else .double token.double

end NumberToken

/-! ## Values -/

structure Element where
  text : Bytes
  behind : Bytes
  value : Json

def Element.whole (element : Element) : Bytes := element.text ++ element.behind

structure Member where
  before : Bytes
  items : List StringItem
  behind : Bytes
  element : Element

def Member.whole (member : Member) : Bytes :=
  member.before ++ (stringText member.items ++ (member.behind ++ 0x3a :: member.element.whole))

def Member.assignment (member : Member) : Bytes × Json :=
  (stringValue member.items, member.element.value)

def commaSeparated (texts : List Bytes) : Bytes := [0x2c].intercalate texts

/-- The text denotes the value, and arrays and objects are nested in fewer levels than
given. -/
inductive IsJson : Nat → Bytes → Json → Prop
  | null {levels before} (blank : Blank before) :
      IsJson (levels + 1) (before ++ ascii "null") .null
  | bool {levels before} (blank : Blank before) (value : Bool) :
      IsJson (levels + 1) (before ++ if value then ascii "true" else ascii "false") (.bool value)
  | number {levels before} (blank : Blank before) (token : NumberToken) :
      IsJson (levels + 1) (before ++ token.text) token.value
  | string {levels before} (blank : Blank before) (items : List StringItem) :
      IsJson (levels + 1) (before ++ stringText items) (.string (stringValue items))
  | emptyArray {levels before inside} (blank : Blank before) (empty : Blank inside) :
      IsJson (levels + 1) (before ++ 0x5b :: (inside ++ [0x5d])) (.array [])
  | array {levels before} {elements : List Element} (blank : Blank before)
      (nonempty : elements ≠ [])
      (texts : ∀ element ∈ elements, IsJson levels element.text element.value)
      (blanks : ∀ element ∈ elements, Blank element.behind) :
      IsJson (levels + 1)
        (before ++ 0x5b :: (commaSeparated (elements.map Element.whole) ++ [0x5d]))
        (.array (elements.map Element.value))
  | emptyObject {levels before inside} (blank : Blank before) (empty : Blank inside) :
      IsJson (levels + 1) (before ++ 0x7b :: (inside ++ [0x7d])) (.object [])
  | object {levels before} {members : List Member} (blank : Blank before)
      (nonempty : members ≠ [])
      (texts : ∀ member ∈ members, IsJson levels member.element.text member.element.value)
      (blanks : ∀ member ∈ members,
        Blank member.before ∧ Blank member.behind ∧ Blank member.element.behind) :
      IsJson (levels + 1)
        (before ++ 0x7b :: (commaSeparated (members.map Member.whole) ++ [0x7d]))
        (.object (SortedMap.ofAssignments (members.map Member.assignment)))

/-- A value that may be nested as deeply as the parser allows, and blanks. -/
def IsDocument (text : Bytes) (value : Json) : Prop :=
  ∃ inside behind, text = inside ++ behind ∧ IsJson (maxDepth + 1) inside value ∧ Blank behind

end AIM.Json11
