import AIM.Json11.Numbers

namespace AIM.Json11

/-! # What the parser accepts

The parser reads exactly the texts of the grammar: `Sound` is about what it reads, `Complete`
about what it can read. -/

/-! ## Values in their texts -/

theorem Blank.append {first second : Bytes} (left : Blank first) (right : Blank second) :
    Blank (first ++ second) := by
  intro ch member
  rcases List.mem_append.mp member with inside | behind
  · exact left ch inside
  · exact right ch behind

theorem IsJson.blanks {levels : Nat} {text blanks : Bytes} {value : Json}
    (isJson : IsJson levels text value) (blank : Blank blanks) :
    IsJson levels (blanks ++ text) value := by
  cases isJson with
  | null before => exact (List.append_assoc blanks _ _).symm ▸ .null (blank.append before)
  | bool before value =>
      exact (List.append_assoc blanks _ _).symm ▸ .bool (blank.append before) value
  | number before token =>
      exact (List.append_assoc blanks _ _).symm ▸ .number (blank.append before) token
  | string before items =>
      exact (List.append_assoc blanks _ _).symm ▸ .string (blank.append before) items
  | emptyArray before empty =>
      exact (List.append_assoc blanks _ _).symm ▸ .emptyArray (blank.append before) empty
  | array before nonempty texts behind =>
      exact (List.append_assoc blanks _ _).symm ▸
        .array (blank.append before) nonempty texts behind
  | emptyObject before empty =>
      exact (List.append_assoc blanks _ _).symm ▸ .emptyObject (blank.append before) empty
  | object before nonempty texts behind =>
      exact (List.append_assoc blanks _ _).symm ▸
        .object (blank.append before) nonempty texts behind

theorem commaSeparated_singleton (text : Bytes) : commaSeparated [text] = text := by
  simp [commaSeparated]

theorem commaSeparated_cons_cons (first second : Bytes) (texts : List Bytes) :
    commaSeparated (first :: second :: texts) =
      first ++ 0x2c :: commaSeparated (second :: texts) := by
  simp [commaSeparated, List.intercalate, List.intersperse]

theorem commaSeparated_cons (text : Bytes) {texts : List Bytes} (nonempty : texts ≠ []) :
    commaSeparated (text :: texts) = text ++ 0x2c :: commaSeparated texts := by
  rcases List.exists_cons_of_ne_nil nonempty with ⟨second, later, rfl⟩
  exact commaSeparated_cons_cons text second later

/-! ## Lists -/

def Sound (levels : Nat) (parseValue : Bytes → Except Failure (Json × Bytes)) : Prop :=
  ∀ {text value rest}, parseValue text = .ok (value, rest) →
    ∃ inside, text = inside ++ rest ∧ IsJson levels inside value

variable {levels : Nat} {parseValue : Bytes → Except Failure (Json × Bytes)}

theorem parseElements_sound (sound : Sound levels parseValue) {rounds : Nat}
    {before text rest : Bytes} (blankBefore : Blank before) {data : List Json} {value : Json}
    (read : parseElements parseValue rounds text data = .ok (value, rest)) :
    ∃ elements : List Element, elements ≠ [] ∧
      (∀ element ∈ elements, IsJson levels element.text element.value) ∧
      (∀ element ∈ elements, Blank element.behind) ∧
      before ++ text = commaSeparated (elements.map Element.whole) ++ 0x5d :: rest ∧
      value = .array (data ++ elements.map Element.value) := by
  induction rounds generalizing before text data with
  | zero => cases read
  | succ rounds induction =>
      rcases bind_eq_ok.mp read with ⟨⟨first, afterValue⟩, readValue, tokenNext⟩
      rcases bind_eq_ok.mp tokenNext with ⟨⟨ch, behind⟩, readToken, taken⟩
      rcases sound readValue with ⟨inside, rfl, isJson⟩
      rcases getNextToken_eq_ok readToken with ⟨_, blanks, rfl, blank⟩
      have firstJson := isJson.blanks blankBefore
      dsimp only at taken
      split at taken
      · next closed =>
          cases taken
          refine ⟨[⟨before ++ inside, blanks, first⟩], List.cons_ne_nil _ _, ?_, ?_, ?_, rfl⟩
          · exact List.forall_mem_singleton.mpr firstJson
          · exact List.forall_mem_singleton.mpr blank
          · simp [commaSeparated_singleton, Element.whole, closed]
      · split at taken
        · cases taken
        · next comma =>
            rcases bind_eq_ok.mp taken with ⟨⟨next, later⟩, readNext, goesOn⟩
            rcases getNextToken_eq_ok readNext with ⟨_, blanksNext, rfl, blankNext⟩
            rcases induction blankNext goesOn with
              ⟨elements, nonempty, texts, blanked, split, rfl⟩
            refine ⟨⟨before ++ inside, blanks, first⟩ :: elements, List.cons_ne_nil _ _, ?_, ?_,
              ?_, ?_⟩
            · exact List.forall_mem_cons.mpr ⟨firstJson, texts⟩
            · exact List.forall_mem_cons.mpr ⟨blank, blanked⟩
            · rw [split, List.map_cons,
                commaSeparated_cons _ (List.map_eq_nil_iff.not.mpr nonempty),
                not_not.mp comma]
              simp [Element.whole]
            · simp

theorem parseMembers_sound (sound : Sound levels parseValue) {rounds : Nat}
    {before text rest : Bytes} {ch : UInt8} (blankBefore : Blank before)
    {data : List (Bytes × Json)} {value : Json}
    (read : parseMembers parseValue rounds ch text data = .ok (value, rest)) :
    ∃ members : List Member, members ≠ [] ∧
      (∀ member ∈ members, IsJson levels member.element.text member.element.value) ∧
      (∀ member ∈ members,
        Blank member.before ∧ Blank member.behind ∧ Blank member.element.behind) ∧
      before ++ ch :: text = commaSeparated (members.map Member.whole) ++ 0x7d :: rest ∧
      value = .object ((members.map Member.assignment).foldl
        (fun entries assignment => SortedMap.insert assignment.1 assignment.2 entries) data) := by
  induction rounds generalizing before ch text data with
  | zero => cases read
  | succ rounds induction =>
      unfold parseMembers at read
      split at read
      · cases read
      · next quoted =>
          rcases bind_eq_ok.mp read with ⟨⟨key, afterKey⟩, readKey, colonNext⟩
          rcases bind_eq_ok.mp colonNext with ⟨⟨colon, afterColon⟩, readColon, valueNext⟩
          dsimp only at valueNext
          split at valueNext
          · cases valueNext
          · next isColon =>
              rcases bind_eq_ok.mp valueNext with ⟨⟨first, afterValue⟩, readValue, tokenNext⟩
              rcases bind_eq_ok.mp tokenNext with ⟨⟨token, afterToken⟩, readToken, taken⟩
              rcases parseString_eq_ok_iff.mp readKey with ⟨items, splitKey, rfl⟩
              rcases getNextToken_eq_ok readColon with ⟨_, behind, rfl, blankBehind⟩
              rcases sound readValue with ⟨inside, rfl, isJson⟩
              rcases getNextToken_eq_ok readToken with ⟨_, blanks, rfl, blank⟩
              have firstWhole : before ++ ch :: text =
                  (Member.mk before items behind ⟨inside, blanks, first⟩).whole ++
                    token :: afterToken := by
                rw [not_not.mp quoted, splitKey, not_not.mp isColon]
                simp [Member.whole, Element.whole]
              dsimp only at taken
              split at taken
              · next closed =>
                  cases taken
                  refine ⟨[⟨before, items, behind, ⟨inside, blanks, first⟩⟩],
                    List.cons_ne_nil _ _, ?_, ?_, ?_, rfl⟩
                  · exact List.forall_mem_singleton.mpr isJson
                  · exact List.forall_mem_singleton.mpr ⟨blankBefore, blankBehind, blank⟩
                  · rw [firstWhole, closed, List.map_singleton, commaSeparated_singleton]
              · split at taken
                · cases taken
                · next comma =>
                    rcases bind_eq_ok.mp taken with ⟨⟨next, later⟩, readNext, goesOn⟩
                    rcases getNextToken_eq_ok readNext with ⟨_, blanksNext, rfl, blankNext⟩
                    rcases induction blankNext goesOn with
                      ⟨members, nonempty, texts, blanked, split, rfl⟩
                    refine ⟨⟨before, items, behind, ⟨inside, blanks, first⟩⟩ :: members,
                      List.cons_ne_nil _ _, ?_, ?_, ?_, rfl⟩
                    · exact List.forall_mem_cons.mpr ⟨isJson, texts⟩
                    · exact List.forall_mem_cons.mpr ⟨⟨blankBefore, blankBehind, blank⟩, blanked⟩
                    · rw [firstWhole, not_not.mp comma, split, List.map_cons,
                        commaSeparated_cons _ (List.map_eq_nil_iff.not.mpr nonempty),
                        List.append_assoc, List.cons_append]

theorem parseJson_sound (levels : Nat) : Sound levels (parseJson levels) := by
  induction levels with
  | zero =>
      intro text value rest read
      cases read
  | succ levels induction =>
      intro text value rest read
      rcases bind_eq_ok.mp read with ⟨⟨ch, behind⟩, readToken, taken⟩
      rcases getNextToken_eq_ok readToken with ⟨_, blanks, rfl, blank⟩
      dsimp only at taken
      split_ifs at taken with number isTrue isFalse isNull quoted brace bracket
      · rcases parseNumber_eq_ok_iff.mp taken with ⟨token, split, rfl, _⟩
        exact ⟨blanks ++ token.text, by rw [split, List.append_assoc], .number blank token⟩
      · rcases expect_eq_ok_iff.mp taken with ⟨rfl, split⟩
        exact ⟨blanks ++ ascii "true", by rw [split, List.append_assoc], .bool blank true⟩
      · rcases expect_eq_ok_iff.mp taken with ⟨rfl, split⟩
        exact ⟨blanks ++ ascii "false", by rw [split, List.append_assoc], .bool blank false⟩
      · rcases expect_eq_ok_iff.mp taken with ⟨rfl, split⟩
        exact ⟨blanks ++ ascii "null", by rw [split, List.append_assoc], .null blank⟩
      · rcases bind_eq_ok.mp taken with ⟨⟨value, later⟩, readString, same⟩
        rcases parseString_eq_ok_iff.mp readString with ⟨items, split, rfl⟩
        cases same
        exact ⟨blanks ++ stringText items, by rw [quoted, split, List.append_assoc],
          .string blank items⟩
      · rcases bind_eq_ok.mp taken with ⟨⟨first, later⟩, readFirst, inside⟩
        rcases getNextToken_eq_ok readFirst with ⟨_, before, rfl, blankBefore⟩
        dsimp only at inside
        split at inside
        · next closed =>
            cases inside
            exact ⟨blanks ++ 0x7b :: (before ++ [0x7d]), by simp [brace, closed],
              .emptyObject blank blankBefore⟩
        · rcases parseMembers_sound induction blankBefore inside with
            ⟨members, nonempty, texts, blanked, split, rfl⟩
          exact ⟨blanks ++ 0x7b :: (commaSeparated (members.map Member.whole) ++ [0x7d]),
            by simp [brace, split], .object blank nonempty texts blanked⟩
      · rcases bind_eq_ok.mp taken with ⟨⟨first, later⟩, readFirst, inside⟩
        rcases getNextToken_eq_ok readFirst with ⟨_, before, rfl, blankBefore⟩
        dsimp only at inside
        split at inside
        · next closed =>
            cases inside
            exact ⟨blanks ++ 0x5b :: (before ++ [0x5d]), by simp [bracket, closed],
              .emptyArray blank blankBefore⟩
        · rcases parseElements_sound induction blankBefore inside with
            ⟨elements, nonempty, texts, blanked, split, rfl⟩
          exact ⟨blanks ++ 0x5b :: (commaSeparated (elements.map Element.whole) ++ [0x5d]),
            by simp [bracket, split], .array blank nonempty texts blanked⟩
      · cases taken

/-! ## Texts of the grammar are read -/

def Delimits (rest : Bytes) : Prop :=
  isBlank (rest.headD 0x20) = true ∨ rest.headD 0x20 ∈ ([0x2c, 0x5d, 0x7d] : Bytes)

theorem isBlank_eq_true_iff {ch : UInt8} :
    isBlank ch = true ↔ ch = 0x20 ∨ ch = 0x0d ∨ ch = 0x0a ∨ ch = 0x09 := by
  simp [isBlank, or_assoc]

theorem Delimits.endsBefore {rest : Bytes} (delimits : Delimits rest) (token : NumberToken) :
    token.EndsBefore rest := by
  have different : isDigit (rest.headD 0) = false ∧ rest.headD 0 ≠ 0x2e ∧
      rest.headD 0 ≠ 0x65 ∧ rest.headD 0 ≠ 0x45 := by
    cases rest with
    | nil => decide
    | cons ch later =>
        rw [Delimits, isBlank_eq_true_iff] at delimits
        simp only [List.headD_cons, List.mem_cons, List.not_mem_nil, or_false] at delimits ⊢
        rcases delimits with (rfl | rfl | rfl | rfl) | rfl | rfl | rfl <;> decide
  exact ⟨different.1, fun _ _ => different.2.1, fun _ => different.2.2⟩

theorem delimits_cons {ch : UInt8} (separator : ch ∈ ([0x2c, 0x5d, 0x7d] : Bytes)) (rest : Bytes) :
    Delimits (ch :: rest) := .inr separator

theorem delimits_blanks {blanks : Bytes} (blank : Blank blanks) {rest : Bytes}
    (delimits : Delimits rest) : Delimits (blanks ++ rest) := by
  cases blanks with
  | nil => exact delimits
  | cons ch later => exact .inl (blank ch List.mem_cons_self)

theorem isBlank_of_isDigit {ch : UInt8} (digit : isDigit ch = true) : isBlank ch = false := by
  rw [← Bool.not_eq_true, isBlank_eq_true_iff]
  intro blank
  rcases blank with rfl | rfl | rfl | rfl <;> cases digit

theorem NumberToken.text_starts (token : NumberToken) :
    ∃ ch later, token.text = ch :: later ∧ (ch = 0x2d ∨ isDigit ch = true) := by
  have starts := token.integerDigits.1.starts (fractionText token.fraction ++
    exponentText token.exponent)
  rcases List.exists_cons_of_ne_nil token.integerDigits.1.1 with ⟨first, later, integer⟩
  rw [integer] at starts
  cases negative : token.negative with
  | true =>
      rw [text, negative]
      exact ⟨0x2d, _, rfl, .inl rfl⟩
  | false =>
      rw [text, negative, integer]
      exact ⟨first, _, rfl, .inr starts⟩

theorem IsJson.starts {text : Bytes} {value : Json} (isJson : IsJson levels text value) :
    ∃ ch later, isBlank ch = false ∧ ch ≠ 0x5d ∧
      ∀ rest, consumeWhitespace (text ++ rest) = ch :: (later ++ rest) := by
  have visible : ∀ {before : Bytes}, Blank before → ∀ {ch : UInt8} {later : Bytes},
      isBlank ch = false → ch ≠ 0x5d → ∃ ch' later', isBlank ch' = false ∧ ch' ≠ 0x5d ∧
        ∀ rest, consumeWhitespace (before ++ ch :: later ++ rest) = ch' :: (later' ++ rest) := by
    intro before blank ch later notBlank notEnd
    refine ⟨ch, later, notBlank, notEnd, fun rest => ?_⟩
    rw [List.append_assoc, consumeWhitespace_append blank]
    exact List.dropWhile_cons_of_neg (Bool.eq_false_iff.mp notBlank)
  cases isJson with
  | null blank => exact visible blank rfl (by decide)
  | bool blank value =>
      cases value with
      | true => exact visible blank rfl (by decide)
      | false => exact visible blank rfl (by decide)
  | number blank token =>
      rcases token.text_starts with ⟨ch, later, starts, minus | digit⟩
      · rw [starts]
        exact visible blank (minus ▸ rfl) (minus ▸ by decide)
      · rw [starts]
        refine visible blank (isBlank_of_isDigit digit) fun closed => ?_
        rw [closed] at digit
        cases digit
  | string blank items => exact visible blank rfl (by decide)
  | emptyArray blank empty => exact visible blank rfl (by decide)
  | array blank nonempty texts behind => exact visible blank rfl (by decide)
  | emptyObject blank empty => exact visible blank rfl (by decide)
  | object blank nonempty texts behind => exact visible blank rfl (by decide)

/-- Values in front of something that does not belong to them are read. -/
structure Complete (levels : Nat) (parseValue : Bytes → Except Failure (Json × Bytes)) : Prop where
  skips : ∀ text, parseValue (consumeWhitespace text) = parseValue text
  reads : ∀ {text value rest}, IsJson levels text value → Delimits rest →
    parseValue (text ++ rest) = .ok (value, rest)

theorem getNextToken_of_consume {text rest : Bytes} {ch : UInt8}
    (consumed : consumeWhitespace text = ch :: rest) : getNextToken text = .ok (ch, rest) := by
  rw [getNextToken, consumed]

theorem Complete.reads_element (complete : Complete levels parseValue) {element : Element}
    (isJson : IsJson levels element.text element.value) (blank : Blank element.behind)
    {rest : Bytes} (delimits : Delimits rest) :
    parseValue (element.whole ++ rest) = .ok (element.value, element.behind ++ rest) := by
  rw [Element.whole, List.append_assoc]
  exact complete.reads isJson (delimits_blanks blank delimits)

theorem Element.length_lt {element : Element} (isJson : IsJson levels element.text element.value)
    (rest : Bytes) : rest.length < (consumeWhitespace (element.whole ++ rest)).length := by
  rcases isJson.starts with ⟨ch, later, _, _, consumed⟩
  rw [Element.whole, List.append_assoc, consumed]
  simp only [List.length_cons, List.length_append]
  omega

theorem consumeWhitespace_length_le (text : Bytes) :
    (consumeWhitespace text).length ≤ text.length :=
  (List.dropWhile_suffix _).length_le

theorem elements_start {element : Element} (isJson : IsJson levels element.text element.value)
    (elements : List Element) (rest : Bytes) :
    ∃ ch later, ch ≠ 0x5d ∧ consumeWhitespace
      (commaSeparated ((element :: elements).map Element.whole) ++ rest) = ch :: later := by
  rcases isJson.starts with ⟨ch, later, _, notEnd, consumed⟩
  have split : ∃ tail, commaSeparated ((element :: elements).map Element.whole) ++ rest =
      element.text ++ tail := by
    cases elements with
    | nil =>
        rw [List.map_singleton, commaSeparated_singleton, Element.whole, List.append_assoc]
        exact ⟨_, rfl⟩
    | cons second others =>
        rw [List.map_cons, List.map_cons, commaSeparated_cons_cons, Element.whole,
          List.append_assoc, List.append_assoc]
        exact ⟨_, rfl⟩
  rcases split with ⟨tail, split⟩
  exact ⟨ch, later ++ tail, notEnd, split ▸ consumed tail⟩

/-- The number of rounds is enough as each of them reads at least one character. -/
theorem parseElements_complete (complete : Complete levels parseValue) {element : Element}
    {elements : List Element}
    (texts : ∀ other ∈ element :: elements, IsJson levels other.text other.value)
    (blanked : ∀ other ∈ element :: elements, Blank other.behind) (rest : Bytes) {rounds : Nat}
    {text : Bytes} (start : text = consumeWhitespace
      (commaSeparated ((element :: elements).map Element.whole) ++ 0x5d :: rest))
    (enough : text.length ≤ rounds) (data : List Json) :
    parseElements parseValue rounds text data =
      .ok (.array (data ++ (element :: elements).map Element.value), rest) := by
  induction elements generalizing element rounds text data with
  | nil =>
      have isJson := texts element List.mem_cons_self
      have blank := blanked element List.mem_cons_self
      rw [List.map_singleton, commaSeparated_singleton] at start
      have longer := Element.length_lt isJson (0x5d :: rest)
      rw [← start] at longer
      rcases Nat.exists_eq_add_one_of_ne_zero (show rounds ≠ 0 by omega) with ⟨rounds, rfl⟩
      have read : parseValue text = .ok (element.value, element.behind ++ 0x5d :: rest) := by
        rw [start, complete.skips]
        exact complete.reads_element isJson blank (delimits_cons (by decide) rest)
      exact bind_eq_ok.mpr ⟨_, read, bind_eq_ok.mpr ⟨_, getNextToken_append blank rfl rest, rfl⟩⟩
  | cons second later induction =>
      rcases List.forall_mem_cons.mp texts with ⟨isJson, laterTexts⟩
      rcases List.forall_mem_cons.mp blanked with ⟨blank, laterBlanked⟩
      have split : commaSeparated ((element :: second :: later).map Element.whole) ++
          0x5d :: rest = element.whole ++ 0x2c ::
            (commaSeparated ((second :: later).map Element.whole) ++ 0x5d :: rest) := by
        rw [List.map_cons, List.map_cons, commaSeparated_cons_cons, List.append_assoc]
        rfl
      have next := @induction second laterTexts laterBlanked
      rcases elements_start (laterTexts second List.mem_cons_self) later (0x5d :: rest) with
        ⟨ch, behind, _, consumed⟩
      rw [split] at start
      generalize commaSeparated ((second :: later).map Element.whole) ++ 0x5d :: rest = others at *
      have longer := Element.length_lt isJson (0x2c :: others)
      have shorter := consumeWhitespace_length_le others
      rw [← start, List.length_cons] at longer
      rw [consumed] at shorter
      rcases Nat.exists_eq_add_one_of_ne_zero (show rounds ≠ 0 by omega) with ⟨rounds, rfl⟩
      have read : parseValue text = .ok (element.value, element.behind ++ 0x2c :: others) := by
        rw [start, complete.skips]
        exact complete.reads_element isJson blank (delimits_cons (by decide) others)
      refine bind_eq_ok.mpr ⟨_, read, bind_eq_ok.mpr ⟨_, getNextToken_append blank rfl _,
        bind_eq_ok.mpr ⟨_, getNextToken_of_consume consumed, ?_⟩⟩⟩
      dsimp only
      rw [next consumed.symm (by omega), List.append_assoc]
      rfl

def Member.behindQuote (member : Member) (rest : Bytes) : Bytes :=
  member.items.flatMap StringItem.text ++ Json.quote ::
    (member.behind ++ 0x3a :: (member.element.whole ++ rest))

theorem Member.consumed {member : Member} (blank : Blank member.before) (rest : Bytes) :
    consumeWhitespace (member.whole ++ rest) = Json.quote :: member.behindQuote rest := by
  rw [Member.whole, List.append_assoc, consumeWhitespace_append blank]
  refine (List.dropWhile_cons_of_neg (by decide)).trans ?_
  simp [behindQuote]

theorem Member.key_read (member : Member) (rest : Bytes) :
    parseString [] (-1) (member.behindQuote rest) =
      .ok (stringValue member.items, member.behind ++ 0x3a :: (member.element.whole ++ rest)) := by
  refine parseString_eq_ok_iff.mpr ⟨member.items, ?_, rfl⟩
  simp [behindQuote, stringText]

theorem members_start {member : Member} (blank : Blank member.before) (members : List Member)
    (rest : Bytes) :
    ∃ later, consumeWhitespace
      (commaSeparated ((member :: members).map Member.whole) ++ rest) = Json.quote :: later := by
  cases members with
  | nil =>
      rw [List.map_singleton, commaSeparated_singleton, Member.consumed blank]
      exact ⟨_, rfl⟩
  | cons second others =>
      rw [List.map_cons, List.map_cons, commaSeparated_cons_cons, List.append_assoc,
        Member.consumed blank]
      exact ⟨_, rfl⟩

theorem parseMembers_complete (complete : Complete levels parseValue) {member : Member}
    {members : List Member}
    (texts : ∀ other ∈ member :: members, IsJson levels other.element.text other.element.value)
    (blanked : ∀ other ∈ member :: members,
      Blank other.before ∧ Blank other.behind ∧ Blank other.element.behind)
    (rest : Bytes) {rounds : Nat} {text : Bytes} (start : Json.quote :: text = consumeWhitespace
      (commaSeparated ((member :: members).map Member.whole) ++ 0x7d :: rest))
    (enough : text.length < rounds) (data : List (Bytes × Json)) :
    parseMembers parseValue rounds Json.quote text data =
      .ok (.object (((member :: members).map Member.assignment).foldl
        (fun entries assignment => SortedMap.insert assignment.1 assignment.2 entries) data),
        rest) := by
  induction members generalizing member rounds text data with
  | nil =>
      have isJson := texts member List.mem_cons_self
      rcases blanked member List.mem_cons_self with ⟨blankBefore, blankBehind, blank⟩
      rw [List.map_singleton, commaSeparated_singleton, Member.consumed blankBefore] at start
      rcases Nat.exists_eq_add_one_of_ne_zero (show rounds ≠ 0 by omega) with ⟨rounds, rfl⟩
      rw [(List.cons.inj start).2, parseMembers, if_neg (not_not.mpr rfl)]
      exact bind_eq_ok.mpr ⟨_, member.key_read _, bind_eq_ok.mpr
        ⟨_, getNextToken_append blankBehind rfl _, bind_eq_ok.mpr
          ⟨_, complete.reads_element isJson blank (delimits_cons (by decide) rest),
            bind_eq_ok.mpr ⟨_, getNextToken_append blank rfl rest, rfl⟩⟩⟩⟩
  | cons second later induction =>
      rcases List.forall_mem_cons.mp texts with ⟨isJson, laterTexts⟩
      rcases List.forall_mem_cons.mp blanked with ⟨⟨blankBefore, blankBehind, blank⟩, laterBlanked⟩
      have split : commaSeparated ((member :: second :: later).map Member.whole) ++
          0x7d :: rest = member.whole ++ 0x2c ::
            (commaSeparated ((second :: later).map Member.whole) ++ 0x7d :: rest) := by
        rw [List.map_cons, List.map_cons, commaSeparated_cons_cons, List.append_assoc]
        rfl
      have next := @induction second laterTexts laterBlanked
      rcases members_start (laterBlanked second List.mem_cons_self).1 later (0x7d :: rest) with
        ⟨behind, consumed⟩
      rw [split, Member.consumed blankBefore] at start
      generalize commaSeparated ((second :: later).map Member.whole) ++ 0x7d :: rest = others at *
      have shorter := consumeWhitespace_length_le others
      have longer : others.length + 2 ≤ text.length := by
        rw [(List.cons.inj start).2]
        simp only [Member.behindQuote, List.length_append, List.length_cons]
        omega
      rw [consumed] at shorter
      rcases Nat.exists_eq_add_one_of_ne_zero (show rounds ≠ 0 by omega) with ⟨rounds, rfl⟩
      have goesOn := next consumed.symm (show behind.length < rounds by
        rw [List.length_cons] at shorter
        omega) (SortedMap.insert (stringValue member.items) member.element.value data)
      rw [(List.cons.inj start).2, parseMembers, if_neg (not_not.mpr rfl)]
      exact bind_eq_ok.mpr ⟨_, member.key_read _, bind_eq_ok.mpr
        ⟨_, getNextToken_append blankBehind rfl _, bind_eq_ok.mpr
          ⟨_, complete.reads_element isJson blank (delimits_cons (by decide) others),
            bind_eq_ok.mpr ⟨_, getNextToken_append blank rfl others, bind_eq_ok.mpr
              ⟨_, getNextToken_of_consume consumed, goesOn⟩⟩⟩⟩⟩

theorem getNextToken_consumeWhitespace (text : Bytes) :
    getNextToken (consumeWhitespace text) = getNextToken text := by
  have again : consumeWhitespace (consumeWhitespace text) = consumeWhitespace text :=
    List.dropWhile_idempotent isBlank text
  rw [getNextToken, getNextToken, again]

theorem parseJson_skips (levels : Nat) (text : Bytes) :
    parseJson levels (consumeWhitespace text) = parseJson levels text := by
  cases levels with
  | zero => rfl
  | succ levels => rw [parseJson, parseJson, getNextToken_consumeWhitespace]

theorem parseJson_complete (levels : Nat) : Complete levels (parseJson levels) := by
  induction levels with
  | zero => exact ⟨parseJson_skips 0, fun isJson => by cases isJson⟩
  | succ levels induction =>
      refine ⟨parseJson_skips (levels + 1), ?_⟩
      intro text value rest isJson delimits
      cases isJson with
      | null blank =>
          have word : ascii "null" ++ rest = 0x6e :: (ascii "ull" ++ rest) := rfl
          rw [List.append_assoc, word]
          refine bind_eq_ok.mpr ⟨_, getNextToken_append blank rfl _, ?_⟩
          exact expect_eq_ok_iff.mpr ⟨rfl, word.symm⟩
      | bool blank value =>
          rw [List.append_assoc]
          cases value with
          | true =>
              have word : ascii "true" ++ rest = 0x74 :: (ascii "rue" ++ rest) := rfl
              refine bind_eq_ok.mpr ⟨_, getNextToken_append blank rfl _, ?_⟩
              exact expect_eq_ok_iff.mpr ⟨rfl, word.symm⟩
          | false =>
              have word : ascii "false" ++ rest = 0x66 :: (ascii "alse" ++ rest) := rfl
              refine bind_eq_ok.mpr ⟨_, getNextToken_append blank rfl _, ?_⟩
              exact expect_eq_ok_iff.mpr ⟨rfl, word.symm⟩
      | number blank token =>
          have read := parseNumber_text (delimits.endsBefore token)
          rcases token.text_starts with ⟨ch, later, starts, number⟩
          rw [starts] at read ⊢
          rw [List.append_assoc]
          have visible : isBlank ch = false := by
            rcases number with rfl | digit
            · rfl
            · exact isBlank_of_isDigit digit
          exact bind_eq_ok.mpr ⟨_, getNextToken_append blank visible _,
            (if_pos number).trans read⟩
      | string blank items =>
          rw [List.append_assoc]
          refine bind_eq_ok.mpr ⟨_, getNextToken_append blank rfl _, ?_⟩
          exact bind_eq_ok.mpr ⟨_, parseString_eq_ok_iff.mpr ⟨items, rfl, rfl⟩, rfl⟩
      | emptyArray blank empty =>
          rw [List.append_assoc, List.cons_append, List.append_assoc]
          exact bind_eq_ok.mpr ⟨_, getNextToken_append blank rfl _,
            bind_eq_ok.mpr ⟨_, getNextToken_append empty rfl rest, rfl⟩⟩
      | emptyObject blank empty =>
          rw [List.append_assoc, List.cons_append, List.append_assoc]
          exact bind_eq_ok.mpr ⟨_, getNextToken_append blank rfl _,
            bind_eq_ok.mpr ⟨_, getNextToken_append empty rfl rest, rfl⟩⟩
      | @array _ _ elements blank nonempty texts blanked =>
          rcases List.exists_cons_of_ne_nil nonempty with ⟨element, others, rfl⟩
          rcases elements_start (texts element List.mem_cons_self) others (0x5d :: rest) with
            ⟨ch, later, notEnd, consumed⟩
          rw [List.append_assoc, List.cons_append, List.append_assoc, List.singleton_append]
          refine bind_eq_ok.mpr ⟨_, getNextToken_append blank rfl _, ?_⟩
          refine bind_eq_ok.mpr ⟨_, getNextToken_of_consume consumed, ?_⟩
          refine (if_neg notEnd).trans ?_
          exact parseElements_complete induction texts blanked rest consumed.symm
            (Nat.le_refl _) []
      | @object _ _ members blank nonempty texts blanked =>
          rcases List.exists_cons_of_ne_nil nonempty with ⟨member, others, rfl⟩
          rcases members_start (blanked member List.mem_cons_self).1 others (0x7d :: rest) with
            ⟨later, consumed⟩
          rw [List.append_assoc, List.cons_append, List.append_assoc, List.singleton_append]
          refine bind_eq_ok.mpr ⟨_, getNextToken_append blank rfl _, ?_⟩
          refine bind_eq_ok.mpr ⟨_, getNextToken_of_consume consumed, ?_⟩
          exact parseMembers_complete induction texts blanked rest consumed.symm
            (Nat.lt_succ_self _) []

theorem parse_eq_ok_iff {text : Bytes} {value : Json} :
    parse text = .ok value ↔ IsDocument text value := by
  constructor
  · intro read
    rcases bind_eq_ok.mp read with ⟨⟨result, rest⟩, readValue, atEnd⟩
    rcases parseJson_sound (maxDepth + 1) readValue with ⟨inside, rfl, isJson⟩
    rcases consumeWhitespace_split rest with ⟨blanks, split, blank⟩
    dsimp only at atEnd
    split at atEnd
    · next consumed =>
        cases atEnd
        rw [consumed, List.append_nil] at split
        exact ⟨inside, rest, rfl, isJson, split ▸ blank⟩
    · cases atEnd
  · intro document
    rcases document with ⟨inside, behind, rfl, isJson, blank⟩
    have consumed : consumeWhitespace behind = [] := List.dropWhile_eq_nil_iff.mpr blank
    have delimits : Delimits behind := by
      have ended := delimits_blanks blank (show Delimits [] from .inl rfl)
      rwa [List.append_nil] at ended
    refine bind_eq_ok.mpr ⟨_, (parseJson_complete (maxDepth + 1)).reads isJson delimits, ?_⟩
    dsimp only
    rw [consumed]

end AIM.Json11
