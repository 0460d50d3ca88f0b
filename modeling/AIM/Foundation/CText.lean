import Mathlib.Data.List.Infix

namespace AIM.CText

/-! # Lines and tokens of C

`fgets`, `strtok` and `strstr` on texts without a zero byte. -/

abbrev Text := List Char

/-- The characters up to the end of the line, or as many as there is room for, and what
follows them. -/
def readLine : Nat → Text → Text × Text
  | 0, stream => ([], stream)
  | _ + 1, [] => ([], [])
  | room + 1, char :: rest =>
      if char = '\n' then ([char], rest)
      else
        let (line, later) := readLine room rest
        (char :: line, later)

/-- `fgets` leaves room for the end of the string, and has no line at the end of the
stream. -/
def fgets (size : Nat) (stream : Text) : Option (Text × Text) :=
  if stream = [] then none else some (readLine (size - 1) stream)

/-- `strtok`: the first token of a text, and the position that is kept for the next call,
behind the delimiter that ends the token. -/
def strtok (delimiters text : Text) : Option (Text × Text) :=
  match text.dropWhile (· ∈ delimiters) with
  | [] => none
  | char :: rest =>
      some ((char :: rest).takeWhile (· ∉ delimiters),
        ((char :: rest).dropWhile (· ∉ delimiters)).drop 1)

def strstr (text pattern : Text) : Bool := decide (pattern <:+: text)

theorem readLine_append {line : Text} (oneLine : '\n' ∉ line) {room : Nat}
    (fits : line.length < room) (rest : Text) :
    readLine room (line ++ '\n' :: rest) = (line ++ ['\n'], rest) := by
  induction line generalizing room with
  | nil =>
      cases room with
      | zero => exact absurd fits (Nat.not_lt_zero _)
      | succ room => rfl
  | cons char later induction =>
      cases room with
      | zero => exact absurd fits (Nat.not_lt_zero _)
      | succ room =>
          have other : char ≠ '\n' := fun same => oneLine (same ▸ List.mem_cons_self)
          have inside : '\n' ∉ later := fun member => oneLine (List.mem_cons_of_mem _ member)
          rw [List.cons_append, readLine, if_neg other,
            induction inside (Nat.lt_of_succ_lt_succ fits)]
          rfl

theorem fgets_append {line : Text} (oneLine : '\n' ∉ line) {size : Nat}
    (fits : line.length + 1 < size) (rest : Text) :
    fgets size (line ++ '\n' :: rest) = some (line ++ ['\n'], rest) := by
  rw [fgets, if_neg (by simp), readLine_append oneLine (by omega)]

theorem strtok_append {delimiters token : Text} (nonempty : token ≠ [])
    (inside : ∀ char ∈ token, char ∉ delimiters) {delimiter : Char}
    (ends : delimiter ∈ delimiters) (rest : Text) :
    strtok delimiters (token ++ delimiter :: rest) = some (token, rest) := by
  rcases List.exists_cons_of_ne_nil nonempty with ⟨first, later, rfl⟩
  have starts : (first :: later ++ delimiter :: rest).dropWhile (· ∈ delimiters) =
      first :: (later ++ delimiter :: rest) :=
    List.dropWhile_cons_of_neg (by simpa using inside first List.mem_cons_self)
  rw [strtok, starts]
  dsimp only
  rw [← List.cons_append, List.takeWhile_append_of_pos (by simpa using inside),
    List.dropWhile_append_of_pos (by simpa using inside),
    List.takeWhile_cons_of_neg (by simpa using ends),
    List.dropWhile_cons_of_neg (by simpa using ends), List.append_nil]
  rfl

end AIM.CText
