import Mathlib.Data.Int.Log
import Mathlib.Data.List.DropRight
import Mathlib.Data.Rat.Floor

namespace AIM.Decimal

/-! # Decimal texts

Numbers as texts: the digits of natural numbers, rational numbers rounded to a number of
significant digits, and the numbers at the start of a text. -/

abbrev Text := List Char

def natText (number : Nat) : Text := Nat.toDigits 10 number

def intText : Int → Text
  | .ofNat number => natText number
  | .negSucc number => '-' :: natText (number + 1)

/-! ## Rounding to significant digits -/

/-- Rounding to the nearest integer, and to the even one in the middle. -/
def roundHalfEven (value : ℚ) : Int :=
  let below := ⌊value⌋
  let excess := value - below
  if excess < 1 / 2 then below
  else if 1 / 2 < excess then below + 1
  else if below % 2 = 0 then below
  else below + 1

/-- The significand of the given number of digits and the decimal exponent of its first
digit, for a positive value. -/
def significand (precision : Nat) (value : ℚ) : Nat × Int :=
  let exponent := Int.log 10 value
  let rounded := (roundHalfEven (value * 10 ^ ((precision : Int) - 1 - exponent))).toNat
  if rounded = 10 ^ precision then (10 ^ (precision - 1), exponent + 1)
  else (rounded, exponent)

/-- A number and its decimals, without the zeros at their end. -/
def withDecimals (decimals number : Nat) : Text :=
  let fraction := List.leftpad decimals '0' (natText (number % 10 ^ decimals))
  match fraction.rdropWhile (· == '0') with
  | [] => natText (number / 10 ^ decimals)
  | kept => natText (number / 10 ^ decimals) ++ '.' :: kept

/-- An exponent has at least two digits. -/
def exponentText (exponent : Int) : Text :=
  (if exponent < 0 then '-' else '+') :: List.leftpad 2 '0' (natText exponent.natAbs)

def positiveText (precision : Nat) (value : ℚ) : Text :=
  let (digits, exponent) := significand precision value
  if -4 ≤ exponent ∧ exponent < precision then
    withDecimals ((precision : Int) - 1 - exponent).toNat digits
  else withDecimals (precision - 1) digits ++ 'e' :: exponentText exponent

/-- The shorter of fixed and scientific notation, without trailing zeros. -/
def generalText (precision : Nat) (value : ℚ) : Text :=
  if value = 0 then natText 0
  else if value < 0 then '-' :: positiveText precision (-value)
  else positiveText precision value

/-- A fixed number of decimals; the sign is kept where a number is rounded to zero. -/
def fixedText (decimals : Nat) (value : ℚ) : Text :=
  let magnitude := if value < 0 then -value else value
  let scaled := (roundHalfEven (magnitude * 10 ^ decimals)).toNat
  let digits := natText (scaled / 10 ^ decimals) ++
    '.' :: List.leftpad decimals '0' (natText (scaled % 10 ^ decimals))
  if value < 0 then '-' :: digits else digits

/-! ## Numbers at the start of a text -/

def digitsOf (text : Text) : Text := text.takeWhile Char.isDigit

def afterDigits (text : Text) : Text := text.dropWhile Char.isDigit

def isSpace (char : Char) : Bool := char.isWhitespace

def signOf : Text → Int × Text
  | '-' :: rest => (-1, rest)
  | '+' :: rest => (1, rest)
  | rest => (1, rest)

def readNat (text : Text) : Option Nat :=
  match digitsOf text with
  | [] => none
  | digits => some (Nat.ofDigitChars 10 digits 0)

def readInt (text : Text) : Option Int :=
  let (sign, rest) := signOf (text.dropWhile isSpace)
  (readNat rest).map fun number : Nat => sign * (number : Int)

def readExponent : Text → Int
  | 'e' :: rest | 'E' :: rest =>
      let (sign, digits) := signOf rest
      ((readNat digits).map fun number : Nat => sign * (number : Int)).getD 0
  | _ => 0

def fractionOf : Text → Text × Text
  | '.' :: rest => (digitsOf rest, afterDigits rest)
  | rest => ([], rest)

def readDecimal (text : Text) : Option ℚ :=
  let (sign, rest) := signOf (text.dropWhile isSpace)
  let integer := digitsOf rest
  let (fraction, behind) := fractionOf (afterDigits rest)
  if integer ++ fraction = [] then none
  else some (sign * Nat.ofDigitChars 10 (integer ++ fraction) 0 *
    10 ^ (readExponent behind - fraction.length))

example : generalText 7 (45062 / 1000) = "45.062".toList := by decide +kernel

example : fixedText 6 (-45062 / 1000) = "-45.062000".toList := by decide +kernel

example : readDecimal "-7.66e1,".toList = some (-766 / 10) := by decide +kernel

/-! ## The characters of numbers -/

def NumberChar (char : Char) : Prop :=
  char.isDigit = true ∨ char ∈ ['-', '+', '.', 'e']

theorem isDigit_of_mem_natText {number : Nat} {char : Char} (member : char ∈ natText number) :
    char.isDigit = true :=
  Nat.isDigit_of_mem_toDigits (by decide) (by decide) member

theorem natText_chars {number : Nat} {char : Char} (member : char ∈ natText number) :
    NumberChar char :=
  .inl (isDigit_of_mem_natText member)

theorem leftpad_chars {width number : Nat} {char : Char}
    (member : char ∈ List.leftpad width '0' (natText number)) : NumberChar char := by
  rcases List.mem_append.mp member with zeros | digits
  · rw [List.eq_of_mem_replicate zeros]
    exact .inl (by decide)
  · exact natText_chars digits

theorem intText_chars {number : Int} {char : Char} (member : char ∈ intText number) :
    NumberChar char := by
  cases number with
  | ofNat number => exact natText_chars member
  | negSucc number =>
      rcases List.mem_cons.mp member with rfl | digits
      · exact .inr (by decide)
      · exact natText_chars digits

theorem withDecimals_chars {decimals number : Nat} {char : Char}
    (member : char ∈ withDecimals decimals number) : NumberChar char := by
  dsimp only [withDecimals] at member
  cases kept : (List.leftpad decimals '0' (natText (number % 10 ^ decimals))).rdropWhile
      (· == '0') with
  | nil =>
      rw [kept] at member
      exact natText_chars member
  | cons first later =>
      rw [kept] at member
      rcases List.mem_append.mp member with integer | fraction
      · exact natText_chars integer
      · rcases List.mem_cons.mp fraction with rfl | digits
        · exact .inr (by decide)
        · rw [← kept] at digits
          exact leftpad_chars ((List.rdropWhile_prefix _ _).subset digits)

theorem exponentText_chars {exponent : Int} {char : Char}
    (member : char ∈ exponentText exponent) : NumberChar char := by
  rcases List.mem_cons.mp member with sign | digits
  · right
    split at sign <;> rw [sign] <;> decide
  · exact leftpad_chars digits

theorem positiveText_chars {precision : Nat} {value : ℚ} {char : Char}
    (member : char ∈ positiveText precision value) : NumberChar char := by
  dsimp only [positiveText] at member
  split at member
  · exact withDecimals_chars member
  · rcases List.mem_append.mp member with digits | exponent
    · exact withDecimals_chars digits
    · rcases List.mem_cons.mp exponent with rfl | exponent
      · exact .inr (by decide)
      · exact exponentText_chars exponent

theorem generalText_chars {precision : Nat} {value : ℚ} {char : Char}
    (member : char ∈ generalText precision value) : NumberChar char := by
  unfold generalText at member
  split at member
  · exact natText_chars member
  · split at member
    · rcases List.mem_cons.mp member with rfl | digits
      · exact .inr (by decide)
      · exact positiveText_chars digits
    · exact positiveText_chars member

/-! ## Reading a number back -/

theorem natText_ne_nil (number : Nat) : natText number ≠ [] := Nat.toDigits_ne_nil

theorem digitsOf_natText_append (number : Nat) {rest : Text} (stop : digitsOf rest = []) :
    digitsOf (natText number ++ rest) = natText number := by
  rw [digitsOf, List.takeWhile_append_of_pos fun _ member => isDigit_of_mem_natText member]
  exact (congrArg _ stop).trans (List.append_nil _)

theorem readNat_natText_append (number : Nat) {rest : Text} (stop : digitsOf rest = []) :
    readNat (natText number ++ rest) = some number := by
  rw [readNat, digitsOf_natText_append number stop]
  split
  · next empty => exact absurd empty (natText_ne_nil number)
  · rw [natText, Nat.ofDigitChars_ten_toDigits]

theorem isSpace_of_isDigit {char : Char} (digit : char.isDigit = true) :
    isSpace char = false := by
  rw [← Bool.not_eq_true]
  intro space
  simp only [isSpace, Char.isWhitespace, Bool.or_eq_true, decide_eq_true_eq] at space
  rcases space with ((rfl | rfl) | rfl) | rfl <;> cases digit

theorem signOf_of_isDigit {char : Char} (digit : char.isDigit = true) (rest : Text) :
    signOf (char :: rest) = (1, char :: rest) := by
  unfold signOf
  split
  · next equal =>
      cases equal
      cases digit
  · next equal =>
      cases equal
      cases digit
  · rfl

theorem readInt_natText_append (number : Nat) {rest : Text} (stop : digitsOf rest = []) :
    readInt (natText number ++ rest) = some (number : Int) := by
  have read := readNat_natText_append number stop
  rcases List.exists_cons_of_ne_nil (natText_ne_nil number) with ⟨first, later, digits⟩
  have digit : first.isDigit = true := by
    apply @isDigit_of_mem_natText number
    rw [digits]
    exact List.mem_cons_self
  rw [digits, List.cons_append] at read ⊢
  rw [readInt, List.dropWhile_cons_of_neg (Bool.eq_false_iff.mp (isSpace_of_isDigit digit)),
    signOf_of_isDigit digit]
  change (readNat (first :: (later ++ rest))).map _ = _
  rw [read, Option.map_some, one_mul]

end AIM.Decimal
