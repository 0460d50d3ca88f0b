import AIM.Json11.Value

namespace AIM.Json11

open Binary64 Decimal

/-! # The parser

`JsonParser` with the standard strategy, in which comments are not allowed. The position in
the text is what is left of it. After the first failure nothing changes the result any more,
so that the parser ends there. -/

/-- `err`, or a loop that has not ended after as many rounds as there are bytes. -/
inductive Failure
  | message (err : Bytes)
  | stuck
  deriving DecidableEq

def fail (err : Bytes) : Except Failure Value := .error (.message err)

/-- A character in an error message, with its number as a signed one. -/
def esc (ch : UInt8) : Bytes :=
  let number := ascii "(" ++ bytesOf (intText ch.toInt8.toInt) ++ ascii ")"
  if 0x20 ≤ ch ∧ ch ≤ 0x7f then ascii "\x27" ++ [ch] ++ ascii "\x27 " ++ number else number

/-! ## Tokens -/

def isBlank (ch : UInt8) : Bool := ch = 0x20 || ch = 0x0d || ch = 0x0a || ch = 0x09

def consumeWhitespace (rest : Bytes) : Bytes := rest.dropWhile isBlank

def getNextToken (rest : Bytes) : Except Failure (UInt8 × Bytes) :=
  match consumeWhitespace rest with
  | [] => fail (ascii "unexpected end of input")
  | ch :: rest => .ok (ch, rest)

def expect (expected : Bytes) (res : Json) (text : Bytes) : Except Failure (Json × Bytes) :=
  if text.take expected.length = expected then .ok (res, text.drop expected.length)
  else fail (ascii "parse error: expected " ++ expected ++ ascii ", got " ++
    text.take expected.length)

/-! ## Strings -/

def encodeUtf8 (pt : Int) : Bytes :=
  if pt < 0 then []
  else
    let pt := pt.toNat
    if pt < 0x80 then [.ofNat pt]
    else if pt < 0x800 then [.ofNat (pt >>> 6 ||| 0xc0), .ofNat (pt &&& 0x3f ||| 0x80)]
    else if pt < 0x10000 then
      [.ofNat (pt >>> 12 ||| 0xe0), .ofNat (pt >>> 6 &&& 0x3f ||| 0x80),
        .ofNat (pt &&& 0x3f ||| 0x80)]
    else
      [.ofNat (pt >>> 18 ||| 0xf0), .ofNat (pt >>> 12 &&& 0x3f ||| 0x80),
        .ofNat (pt >>> 6 &&& 0x3f ||| 0x80), .ofNat (pt &&& 0x3f ||| 0x80)]

def isHexDigit (ch : UInt8) : Bool :=
  0x61 ≤ ch && ch ≤ 0x66 || 0x41 ≤ ch && ch ≤ 0x46 || 0x30 ≤ ch && ch ≤ 0x39

def hexValue (ch : UInt8) : Nat :=
  if 0x61 ≤ ch then ch.toNat - 0x61 + 10
  else if 0x41 ≤ ch then ch.toNat - 0x41 + 10
  else ch.toNat - 0x30

/-- `strtol` with base 16, on hexadecimal digits. -/
def hexNumber (digits : Bytes) : Nat :=
  digits.foldl (fun number ch => 16 * number + hexValue ch) 0

def unescaped (ch : UInt8) : Option UInt8 :=
  if ch = 0x62 then some 0x08
  else if ch = 0x66 then some 0x0c
  else if ch = 0x6e then some 0x0a
  else if ch = 0x72 then some 0x0d
  else if ch = 0x74 then some 0x09
  else if ch = Json.quote ∨ ch = Json.backslash ∨ ch = 0x2f then some ch
  else none

/-- `last` is the code point of the escape sequence just read, which is not encoded yet. -/
def parseString (out : Bytes) (last : Int) : Bytes → Except Failure (Bytes × Bytes)
  | [] => fail (ascii "unexpected end of input in string")
  | ch :: rest =>
      if ch = Json.quote then .ok (out ++ encodeUtf8 last, rest)
      else if ch ≤ 0x1f then fail (ascii "unescaped " ++ esc ch ++ ascii " in string")
      else if ch ≠ Json.backslash then parseString (out ++ encodeUtf8 last ++ [ch]) (-1) rest
      else
        match rest with
        | [] => fail (ascii "unexpected end of input in string")
        | ch :: rest =>
            if ch = 0x75 then
              match rest with
              | first :: second :: third :: fourth :: rest =>
                  let digits := [first, second, third, fourth]
                  if digits.all isHexDigit then
                    let codepoint : Int := hexNumber digits
                    -- the trail of a surrogate pair, right behind its lead
                    if (0xd800 ≤ last ∧ last ≤ 0xdbff) ∧
                        0xdc00 ≤ codepoint ∧ codepoint ≤ 0xdfff then
                      parseString (out ++ encodeUtf8
                        (((last - 0xd800).toNat <<< 10 ||| (codepoint - 0xdc00).toNat : Nat) +
                          0x10000)) (-1) rest
                    else parseString (out ++ encodeUtf8 last) codepoint rest
                  else fail (ascii "bad \\u escape: " ++ digits)
              | short => fail (ascii "bad \\u escape: " ++ short)
            else
              match unescaped ch with
              | some ch => parseString (out ++ encodeUtf8 last ++ [ch]) (-1) rest
              | none => fail (ascii "invalid escape character " ++ esc ch)

/-! ## Numbers -/

def isDigit (ch : UInt8) : Bool := 0x30 ≤ ch && ch ≤ 0x39

/-- `std::numeric_limits<int>::digits10` -/
def digits10 : Nat := 9

def integerPart (rest : Bytes) : Except Failure Bytes :=
  if rest.headD 0 = 0x30 then
    if isDigit (rest.tail.headD 0) then fail (ascii "leading 0s not permitted in numbers")
    else .ok rest.tail
  else if isDigit (rest.headD 0) then .ok (rest.dropWhile isDigit)
  else fail (ascii "invalid " ++ esc (rest.headD 0) ++ ascii " in number")

def decimalPart (rest : Bytes) : Except Failure Bytes :=
  if rest.headD 0 = 0x2e then
    if isDigit (rest.tail.headD 0) then .ok (rest.tail.dropWhile isDigit)
    else fail (ascii "at least one digit required in fractional part")
  else .ok rest

def exponentPart (rest : Bytes) : Except Failure Bytes :=
  if rest.headD 0 = 0x65 ∨ rest.headD 0 = 0x45 then
    let digits := if rest.tail.headD 0 = 0x2b ∨ rest.tail.headD 0 = 0x2d then rest.tail.tail
      else rest.tail
    if isDigit (digits.headD 0) then .ok (digits.dropWhile isDigit)
    else fail (ascii "at least one digit required in exponent")
  else .ok rest

def atoi (text : Bytes) : Int32 := .ofInt ((readInt (textOf text)).getD 0)

def strtod (text : Bytes) : Double :=
  .round (decide ((signOf ((textOf text).dropWhile isSpace)).1 < 0))
    ((readDecimal (textOf text)).getD 0)

/-- A short number without point and exponent is an `int`. -/
def parseNumber (text : Bytes) : Except Failure (Json × Bytes) := do
  let rest ← integerPart (if text.headD 0 = 0x2d then text.tail else text)
  if ¬(rest.headD 0 = 0x2e ∨ rest.headD 0 = 0x65 ∨ rest.headD 0 = 0x45) ∧
      text.length - rest.length ≤ digits10 then
    .ok (.int (atoi text), rest)
  else
    let rest ← decimalPart rest
    let rest ← exponentPart rest
    .ok (.double (strtod text), rest)

/-! ## Values -/

/-- The loop over the elements of a list. The first character of an element has been read
as a token before the element is parsed. -/
def parseElements (parseValue : Bytes → Except Failure (Json × Bytes)) :
    Nat → Bytes → List Json → Except Failure (Json × Bytes)
  | 0, _, _ => .error .stuck
  | rounds + 1, rest, data => do
      let (value, rest) ← parseValue rest
      let (ch, rest) ← getNextToken rest
      if ch = 0x5d then .ok (.array (data ++ [value]), rest)
      else if ch ≠ 0x2c then fail (ascii "expected \x27,\x27 in list, got " ++ esc ch)
      else
        let (ch, rest) ← getNextToken rest
        parseElements parseValue rounds (ch :: rest) (data ++ [value])

def parseMembers (parseValue : Bytes → Except Failure (Json × Bytes)) :
    Nat → UInt8 → Bytes → List (Bytes × Json) → Except Failure (Json × Bytes)
  | 0, _, _, _ => .error .stuck
  | rounds + 1, ch, rest, data =>
      if ch ≠ Json.quote then fail (ascii "expected \x27\"\x27 in object, got " ++ esc ch)
      else do
        let (key, rest) ← parseString [] (-1) rest
        let (ch, rest) ← getNextToken rest
        if ch ≠ 0x3a then fail (ascii "expected \x27:\x27 in object, got " ++ esc ch)
        else
          let (value, rest) ← parseValue rest
          let (ch, rest) ← getNextToken rest
          if ch = 0x7d then .ok (.object (SortedMap.insert key value data), rest)
          else if ch ≠ 0x2c then fail (ascii "expected \x27,\x27 in object, got " ++ esc ch)
          else
            let (ch, rest) ← getNextToken rest
            parseMembers parseValue rounds ch rest (SortedMap.insert key value data)

def maxDepth : Nat := 200

/-- The first argument is how many more levels are allowed. -/
def parseJson : Nat → Bytes → Except Failure (Json × Bytes)
  | 0, _ => fail (ascii "exceeded maximum nesting depth")
  | levels + 1, rest => do
      let (ch, rest) ← getNextToken rest
      if ch = 0x2d ∨ isDigit ch then parseNumber (ch :: rest)
      else if ch = 0x74 then expect (ascii "true") (.bool true) (ch :: rest)
      else if ch = 0x66 then expect (ascii "false") (.bool false) (ch :: rest)
      else if ch = 0x6e then expect (ascii "null") .null (ch :: rest)
      else if ch = Json.quote then
        let (value, rest) ← parseString [] (-1) rest
        .ok (.string value, rest)
      else if ch = 0x7b then
        let (ch, rest) ← getNextToken rest
        if ch = 0x7d then .ok (.object [], rest)
        else parseMembers (parseJson levels) (rest.length + 1) ch rest []
      else if ch = 0x5b then
        let (ch, rest) ← getNextToken rest
        if ch = 0x5d then .ok (.array [], rest)
        else parseElements (parseJson levels) (rest.length + 1) (ch :: rest) []
      else fail (ascii "expected value, got " ++ esc ch)

def parse (text : Bytes) : Except Failure Json := do
  let (result, rest) ← parseJson (maxDepth + 1) text
  match consumeWhitespace rest with
  | [] => .ok result
  | ch :: _ => fail (ascii "unexpected trailing " ++ esc ch)

end AIM.Json11
