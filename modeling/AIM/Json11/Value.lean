import AIM.Foundation.Binary64
import AIM.Foundation.SortedMap
import Mathlib.Data.List.Lex

namespace AIM.Json11

open Binary64 Decimal

/-! # JSON values and their texts

The values of `json11` and `dump`. A `std::string` is a list of bytes. -/

abbrev Bytes := List UInt8

/-- Bytes are compared as unsigned numbers, also in the keys of a `std::map`. -/
instance byteLinearOrder : LinearOrder UInt8 where
  le_refl := UInt8.le_refl
  le_trans _ _ _ := UInt8.le_trans
  le_antisymm _ _ := UInt8.le_antisymm
  lt_iff_le_not_ge first second := by
    rw [UInt8.lt_iff_toNat_lt, UInt8.le_iff_toNat_le, UInt8.le_iff_toNat_le]
    omega
  le_total := UInt8.le_total
  toDecidableLE := inferInstance
  toDecidableEq := inferInstance
  toDecidableLT := inferInstance

def byteOf (char : Char) : UInt8 := .ofNat char.toNat

def bytesOf (text : Text) : Bytes := text.map byteOf

def ascii (text : String) : Bytes := bytesOf text.toList

def charOf (byte : UInt8) : Char := .ofNat byte.toNat

def textOf (bytes : Bytes) : Text := bytes.map charOf

/-- A number is kept as the type it was made from. The members of an object are in the
order of their keys. -/
inductive Json
  | null
  | bool (value : Bool)
  | double (value : Double)
  | int (value : Int32)
  | uint64 (value : UInt64)
  | string (value : Bytes)
  | array (values : List Json)
  | object (values : List (Bytes × Json))

namespace Json

instance : Inhabited Json := ⟨null⟩

/-! ## Access -/

inductive JsonType
  | nul
  | number
  | bool
  | string
  | array
  | object
  deriving DecidableEq, Repr

def type : Json → JsonType
  | null => .nul
  | bool _ => .bool
  | double _ | int _ | uint64 _ => .number
  | string _ => .string
  | array _ => .array
  | object _ => .object

def numberValue : Json → Double
  | double value => value
  | int value => .ofRat value.toInt
  | uint64 value => .ofRat value.toNat
  | _ => .ofRat 0

def stringValue : Json → Bytes
  | string value => value
  | _ => []

def arrayItems : Json → List Json
  | array values => values
  | _ => []

def objectItems : Json → List (Bytes × Json)
  | object values => values
  | _ => []

/-- `operator[]`: null for a key that is not there. -/
def member (json : Json) (key : Bytes) : Json :=
  (SortedMap.find key json.objectItems).getD null

mutual

/-- `operator==`: numbers are compared as `double`. -/
def equals : Json → Json → Bool
  | null, null => true
  | bool first, bool second => first == second
  | double first, other => other.type == .number && first.equals other.numberValue
  | int first, other => other.type == .number && (Double.ofRat first.toInt).equals other.numberValue
  | uint64 first, other =>
      other.type == .number && (Double.ofRat first.toNat).equals other.numberValue
  | string first, string second => first == second
  | array first, array second => equalsArray first second
  | object first, object second => equalsObject first second
  | _, _ => false

def equalsArray : List Json → List Json → Bool
  | [], [] => true
  | first :: rest, second :: others => equals first second && equalsArray rest others
  | _, _ => false

def equalsObject : List (Bytes × Json) → List (Bytes × Json) → Bool
  | [], [] => true
  | (key, first) :: rest, (other, second) :: others =>
      key == other && equals first second && equalsObject rest others
  | _, _ => false

end

/-! ## Serialization -/

abbrev quote : UInt8 := 0x22
abbrev backslash : UInt8 := 0x5c

/-- `%04x` -/
def hexText (number : Nat) : Bytes :=
  [number / 4096 % 16, number / 256 % 16, number / 16 % 16, number % 16].map fun digit =>
    byteOf ("0123456789abcdef".toList.getD digit '0')

def dumpChars : Bytes → Bytes
  | [] => []
  | ch :: rest =>
      if ch = backslash then ascii "\\\\" ++ dumpChars rest
      else if ch = quote then ascii "\\\"" ++ dumpChars rest
      else if ch = 0x08 then ascii "\\b" ++ dumpChars rest
      else if ch = 0x0c then ascii "\\f" ++ dumpChars rest
      else if ch = 0x0a then ascii "\\n" ++ dumpChars rest
      else if ch = 0x0d then ascii "\\r" ++ dumpChars rest
      else if ch = 0x09 then ascii "\\t" ++ dumpChars rest
      else if ch ≤ 0x1f then ascii "\\u" ++ hexText ch.toNat ++ dumpChars rest
      else
        match rest with
        | second :: third :: later =>
            if ch = 0xe2 ∧ second = 0x80 ∧ third = 0xa8 then ascii "\\u2028" ++ dumpChars later
            else if ch = 0xe2 ∧ second = 0x80 ∧ third = 0xa9 then
              ascii "\\u2029" ++ dumpChars later
            else ch :: dumpChars (second :: third :: later)
        | [second] => ch :: dumpChars [second]
        | [] => [ch]

def dumpString (value : Bytes) : Bytes := quote :: (dumpChars value ++ [quote])

/-- `%.17g`, with the sign of a zero. -/
def doubleText (negative : Bool) (magnitude : Magnitude) : Text :=
  (if negative then ['-'] else []) ++ generalText 17 magnitude.value

/-- What is not finite is printed as null. -/
def dumpDouble : Double → Bytes
  | .finite negative magnitude => bytesOf (doubleText negative magnitude)
  | _ => ascii "null"

mutual

def dump : Json → Bytes
  | null => ascii "null"
  | bool value => if value then ascii "true" else ascii "false"
  | double value => dumpDouble value
  | int value => bytesOf (intText value.toInt)
  | uint64 value => bytesOf (natText value.toNat)
  | string value => dumpString value
  | array values => ascii "[" ++ dumpArray values ++ ascii "]"
  | object values => ascii "\x7b" ++ dumpObject values ++ ascii "\x7d"

def dumpArray : List Json → Bytes
  | [] => []
  | [value] => dump value
  | value :: rest => dump value ++ ascii ", " ++ dumpArray rest

def dumpObject : List (Bytes × Json) → Bytes
  | [] => []
  | [(key, value)] => dumpString key ++ ascii ": " ++ dump value
  | (key, value) :: rest => dumpString key ++ ascii ": " ++ dump value ++ ascii ", " ++
      dumpObject rest

end

example : dump (object [(ascii "lat", double (.ofRat (4506 / 100))),
      (ascii "v", array [int (-1), null, double (.infinite true)])]) =
    ascii "\x7b\"lat\": 45.060000000000002, \"v\": [-1, null, null]\x7d" := by decide +kernel

end Json

end AIM.Json11
