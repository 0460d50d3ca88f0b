import AIM.Json11.Acceptance

namespace AIM.Json11

/-! # What the parser rejects

Every text that is not a document is rejected, and it is said why. -/

def Failure.Explained : Failure → Prop
  | message err => err ≠ []
  | stuck => False

/-- What is wrong is said whenever there is no result. -/
def Explains (result : Except Failure Value) : Prop :=
  ∀ failure, result = .error failure → failure.Explained

theorem explains_ok (value : Value) : Explains (.ok value) := by
  intro failure failed
  cases failed

theorem explains_fail {err : Bytes} (nonempty : err ≠ []) :
    Explains (fail err : Except Failure Value) := by
  intro failure failed
  cases failed
  exact nonempty

theorem Explains.bind {action : Except Failure First} {next : First → Except Failure Second}
    (first : Explains action) (second : ∀ value, action = .ok value → Explains (next value)) :
    Explains (action >>= next) := by
  cases action with
  | error failure =>
      intro other failed
      cases failed
      exact first failure rfl
  | ok value => exact second value rfl

theorem explains_append {err : Bytes} (explains : Explains (fail err : Except Failure Value))
    (rest : Bytes) : Explains (fail (err ++ rest) : Except Failure Value) :=
  explains_fail fun empty => explains (.message err) rfl (List.append_eq_nil_iff.mp empty).1

theorem getNextToken_explains (text : Bytes) : Explains (getNextToken text) := by
  unfold getNextToken
  split
  · exact explains_fail (by decide)
  · exact explains_ok _

theorem expect_explains (expected : Bytes) (res : Json) (text : Bytes) :
    Explains (expect expected res text) := by
  unfold expect
  split
  · exact explains_ok _
  · exact explains_append (explains_append (explains_append (explains_fail (by decide)) _) _) _

theorem parseString_explains (out : Bytes) (last : Int) (text : Bytes) :
    Explains (parseString out last text) := by
  fun_induction parseString out last text with
  | case1 | case5 => exact explains_fail (by decide)
  | case2 => exact explains_ok _
  | case3 => exact explains_append (explains_append (explains_fail (by decide)) _) _
  | case4 _ _ _ _ _ _ _ induction => exact induction
  | case6 => assumption
  | case7 => assumption
  | case8 => exact explains_append (explains_fail (by decide)) _
  | case9 => exact explains_append (explains_fail (by decide)) _
  | case10 => assumption
  | case11 => exact explains_append (explains_fail (by decide)) _

theorem digits_explains {err : Bytes} (explains : Explains (fail err : Except Failure Bytes))
    (text : Bytes) :
    Explains (if isDigit (text.headD 0) then .ok (text.dropWhile isDigit) else fail err) := by
  split
  · exact explains_ok _
  · exact explains

theorem integerPart_explains (text : Bytes) : Explains (integerPart text) := by
  unfold integerPart
  split
  · split
    · exact explains_fail (by decide)
    · exact explains_ok _
  · exact digits_explains (explains_append (explains_append (explains_fail (by decide)) _) _) _

theorem decimalPart_explains (text : Bytes) : Explains (decimalPart text) := by
  unfold decimalPart
  split
  · exact digits_explains (explains_fail (by decide)) _
  · exact explains_ok _

theorem exponentPart_explains (text : Bytes) : Explains (exponentPart text) := by
  unfold exponentPart
  split
  · exact digits_explains (explains_fail (by decide)) _
  · exact explains_ok _

theorem parseNumber_explains (text : Bytes) : Explains (parseNumber text) := by
  refine (integerPart_explains _).bind fun rest _ => ?_
  split
  · exact explains_ok _
  · exact (decimalPart_explains _).bind fun rest _ =>
      (exponentPart_explains _).bind fun rest _ => explains_ok _

/-- The loop ends before its rounds do, as every value takes at least one character. -/
theorem parseElements_explains (explains : ∀ text, Explains (parseValue text))
    (progress : ∀ {text value rest}, parseValue text = .ok (value, rest) →
      rest.length < text.length)
    {rounds : Nat} {ch : UInt8} {text : Bytes} (enough : text.length < rounds)
    (data : List Json) : Explains (parseElements parseValue rounds (ch :: text) data) := by
  induction rounds generalizing ch text data with
  | zero => exact absurd enough (Nat.not_lt_zero _)
  | succ rounds induction =>
      refine (explains _).bind fun first readValue => ?_
      refine (getNextToken_explains _).bind fun token readToken => ?_
      rcases getNextToken_eq_ok readToken with ⟨_, blanks, split, _⟩
      have shorter := progress readValue
      dsimp only
      split
      · exact explains_ok _
      · split
        · exact explains_append (explains_fail (by decide)) _
        · refine (getNextToken_explains _).bind fun next readNext => ?_
          rcases getNextToken_eq_ok readNext with ⟨_, before, splitNext, _⟩
          refine induction ?_ _
          rw [split, splitNext] at shorter
          simp only [List.length_append, List.length_cons] at shorter
          omega

theorem parseMembers_explains (explains : ∀ text, Explains (parseValue text))
    (progress : ∀ {text value rest}, parseValue text = .ok (value, rest) →
      rest.length < text.length)
    {rounds : Nat} {ch : UInt8} {text : Bytes} (enough : text.length < rounds)
    (data : List (Bytes × Json)) : Explains (parseMembers parseValue rounds ch text data) := by
  induction rounds generalizing ch text data with
  | zero => exact absurd enough (Nat.not_lt_zero _)
  | succ rounds induction =>
      unfold parseMembers
      split
      · exact explains_append (explains_fail (by decide)) _
      · refine (parseString_explains _ _ _).bind fun key readKey => ?_
        refine (getNextToken_explains _).bind fun colon readColon => ?_
        dsimp only
        split
        · exact explains_append (explains_fail (by decide)) _
        · refine (explains _).bind fun first readValue => ?_
          refine (getNextToken_explains _).bind fun token readToken => ?_
          split
          · exact explains_ok _
          · split
            · exact explains_append (explains_fail (by decide)) _
            · refine (getNextToken_explains _).bind fun next readNext => ?_
              refine induction ?_ _
              rcases parseString_eq_ok_iff.mp readKey with ⟨items, splitKey, _⟩
              rcases getNextToken_eq_ok readColon with ⟨_, behind, splitColon, _⟩
              rcases getNextToken_eq_ok readToken with ⟨_, blanks, splitToken, _⟩
              rcases getNextToken_eq_ok readNext with ⟨_, before, splitNext, _⟩
              have shorter := progress readValue
              have lengths := congrArg List.length splitKey
              rw [splitColon] at lengths
              rw [splitToken, splitNext] at shorter
              simp only [stringText, List.length_append, List.length_cons, List.length_nil]
                at lengths shorter
              omega

theorem parseJson_progress {levels : Nat} {text rest : Bytes} {value : Json}
    (read : parseJson levels text = .ok (value, rest)) : rest.length < text.length := by
  rcases parseJson_sound levels read with ⟨inside, rfl, isJson⟩
  rcases isJson.starts with ⟨ch, later, _, _, consumed⟩
  have visible := consumeWhitespace_length_le (inside ++ rest)
  rw [consumed, List.length_cons, List.length_append] at visible
  omega

theorem parseJson_explains (levels : Nat) (text : Bytes) : Explains (parseJson levels text) := by
  induction levels generalizing text with
  | zero => exact explains_fail (by decide)
  | succ levels induction =>
      refine (getNextToken_explains _).bind fun token _ => ?_
      dsimp only
      split_ifs with number isTrue isFalse isNull quoted brace bracket
      · exact parseNumber_explains _
      · exact expect_explains _ _ _
      · exact expect_explains _ _ _
      · exact expect_explains _ _ _
      · exact (parseString_explains _ _ _).bind fun value _ => explains_ok _
      · refine (getNextToken_explains _).bind fun first _ => ?_
        split
        · exact explains_ok _
        · exact parseMembers_explains induction parseJson_progress (Nat.lt_succ_self _) _
      · refine (getNextToken_explains _).bind fun first _ => ?_
        split
        · exact explains_ok _
        · exact parseElements_explains induction parseJson_progress (Nat.lt_succ_self _) _
      · exact explains_append (explains_fail (by decide)) _

theorem parse_explains (text : Bytes) : Explains (parse text) := by
  refine (parseJson_explains _ _).bind fun result _ => ?_
  dsimp only
  split
  · exact explains_ok _
  · exact explains_append (explains_fail (by decide)) _

/-- The texts that are read are the documents, each with its value; any other text is rejected
with a message that is not empty, and nesting and loops always come to an end. -/
theorem parse_accepts_documents (text : Bytes) :
    (∀ value, parse text = .ok value ↔ IsDocument text value) ∧
      ((¬∃ value, IsDocument text value) →
        ∃ err, err ≠ [] ∧ parse text = .error (.message err)) := by
  refine ⟨fun value => parse_eq_ok_iff, fun noDocument => ?_⟩
  cases read : parse text with
  | ok value => exact absurd ⟨value, parse_eq_ok_iff.mp read⟩ noDocument
  | error failure =>
      have explained := parse_explains text failure read
      cases failure with
      | message err => exact ⟨err, explained, rfl⟩
      | stuck => exact explained.elim

end AIM.Json11
