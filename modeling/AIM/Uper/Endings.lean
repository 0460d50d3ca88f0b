import AIM.Uper.Descriptor

namespace AIM.Uper

open BitReader

/-! # The decoder ends

The loops of the decoder that are not counted take bits in every turn, so that as many turns
as there are bits are enough for them. -/

/-- No loop reaches its bound on fewer than `limit` bits. -/
abbrev Ends (limit : Nat) (decoder : Decoder α) : Prop := decoder.Avoids .unfinished limit

section

variable {α : Type} {limit fuel : Nat}

theorem ends_failed : Ends limit (failed : Decoder α) := avoids_stop DecodeCode.noConfusion

theorem ends_orStarved (part : Option α) : Ends limit (orStarved part) :=
  avoids_orStop DecodeCode.noConfusion part

theorem ends_orFailed (part : Option α) : Ends limit (orFailed part) :=
  avoids_orStop DecodeCode.noConfusion part

/-! ## Counted parts -/

theorem ends_getChunks (count : Nat) : Ends limit (getChunks count) := by
  induction count with
  | zero => exact avoids_pure _
  | succ count hypothesis =>
      rw [getChunks]
      apply avoids_bind (avoids_take 24)
      intro value
      cases value with
      | none => exact avoids_pure _
      | some value =>
          apply avoids_bind hypothesis
          intro rest
          cases rest with
          | none => exact avoids_pure _
          | some rest => exact avoids_pure _

theorem ends_asnGetManyBits (nbits : Nat) : Ends limit (asnGetManyBits nbits) := by
  rw [asnGetManyBits]
  apply avoids_bind (ends_getChunks _)
  intro bytes
  cases bytes with
  | none => exact avoids_pure _
  | some bytes =>
      dsimp only
      split
      · exact avoids_pure _
      · apply avoids_bind (avoids_take _)
        intro value
        cases value with
        | none => exact avoids_pure _
        | some value => exact avoids_pure _

theorem ends_getBytes (count : Nat) : Ends limit (getBytes count) :=
  avoids_bind (ends_asnGetManyBits _) ends_orStarved

theorem ends_getBits (nbits : Nat) : Ends limit (getBits nbits) := by
  apply avoids_bind (ends_asnGetManyBits _)
  intro bytes
  exact avoids_bind (ends_orStarved _) fun _ => avoids_pure _

theorem ends_uperGetLength (ebits : Option Nat) (lowerBound : Nat) :
    Ends limit (uperGetLength ebits lowerBound) := by
  rw [uperGetLength]
  cases ebits.filter (· ≤ 16) with
  | some ebits =>
      apply avoids_bind (avoids_take _)
      intro value
      cases value with
      | none => exact avoids_pure _
      | some value => exact avoids_pure _
  | none =>
      apply avoids_bind (avoids_take _)
      intro value
      cases value with
      | none => exact avoids_pure _
      | some value =>
          dsimp only
          split
          · exact avoids_pure _
          · split
            · apply avoids_bind (avoids_take _)
              intro low
              cases low with
              | none => exact avoids_pure _
              | some low => exact avoids_pure _
            · exact avoids_pure _

theorem ends_uperGetNslength : Ends limit uperGetNslength := by
  apply avoids_bind (avoids_take _)
  intro long
  split
  · apply avoids_bind (avoids_take _)
    intro length
    cases length with
    | none => exact avoids_pure _
    | some length => exact avoids_pure _
  · apply avoids_bind (ends_uperGetLength _ _)
    intro length
    cases length with
    | none => exact avoids_pure _
    | some length => exact avoids_pure _

theorem ends_uperGetNsnnwn : Ends limit uperGetNsnnwn := by
  apply avoids_bind (avoids_take _)
  intro value
  cases value with
  | none => exact avoids_pure _
  | some value =>
      dsimp only
      split
      · exact avoids_pure _
      · apply avoids_bind (avoids_take _)
        intro low
        cases low with
        | none => exact avoids_pure _
        | some low =>
            dsimp only
            split
            · exact avoids_pure _
            · split
              · exact avoids_pure _
              · split
                · exact avoids_pure _
                · exact avoids_take _

theorem ends_getWholeNumber (turns nbits : Nat) : Ends limit (getWholeNumber turns nbits) := by
  induction turns generalizing nbits with
  | zero => exact avoids_pure _
  | succ turns hypothesis =>
      rw [getWholeNumber]
      split
      · exact avoids_take _
      · split
        · exact avoids_pure _
        · apply avoids_bind (avoids_take _)
          intro half
          cases half with
          | none => exact avoids_pure _
          | some half =>
              apply avoids_bind (hypothesis _)
              intro lhalf
              cases lhalf with
              | none => exact avoids_pure _
              | some lhalf => exact avoids_pure _

theorem ends_getRoot (constraint : Option PerConstraint) : Ends limit (getRoot constraint) := by
  cases constraint with
  | none => exact avoids_pure _
  | some ct =>
      rw [getRoot]
      split
      · apply avoids_bind (avoids_take _)
        intro inext
        exact avoids_bind (ends_orStarved _) fun _ => avoids_pure _
      · exact avoids_pure _

/-! ## Fragments -/

theorem uperGetLength_takes {ebits : Option Nat} {lowerBound length : Nat}
    {bits rest : List Bool}
    (got : (uperGetLength ebits lowerBound).run bits = .ok (some (length, true), rest)) :
    rest.length < bits.length := by
  rw [uperGetLength] at got
  cases few : ebits.filter (· ≤ 16) with
  | some ebits =>
      rw [few] at got
      rcases run_bind_eq_ok.mp got with ⟨value, _, _, following⟩
      cases value with
      | none => cases following
      | some value => cases following
  | none =>
      rw [few] at got
      rcases run_bind_eq_ok.mp got with ⟨value, behind, taken, following⟩
      cases value with
      | none => cases following
      | some value =>
          have shorter := (run_suffix following).length_le
          rcases run_take_eq_ok.mp taken with ⟨_, _, rfl⟩
          rw [List.length_append, Bits.length_ofNat]
          omega

theorem ends_getFragments {ebits : Option Nat} {lowerBound : Nat}
    {getUnits : Nat → Decoder (List α)} (units : ∀ length, Ends limit (getUnits length))
    (enough : limit ≤ fuel) : Ends limit (getFragments ebits lowerBound getUnits fuel) := by
  intro bits short
  have turns : bits.length < fuel := Nat.lt_of_lt_of_le short enough
  clear enough
  induction fuel generalizing bits with
  | zero => cases turns
  | succ fuel hypothesis =>
      rw [getFragments]
      apply run_bind_ne_error (ends_uperGetLength _ _ bits short)
      intro length behind got
      have behindShort := (run_suffix got).length_le
      cases length with
      | none =>
          intro stops
          cases stops
      | some length =>
          rcases length with ⟨count, repeats⟩
          apply run_bind_ne_error (ends_orStarved _ behind (Nat.lt_of_le_of_lt behindShort short))
          rintro _ _ ⟨⟩
          apply run_bind_ne_error (units count behind (by omega))
          intro first rest taken
          have restShort := (run_suffix taken).length_le
          cases repeats with
          | false =>
              intro stops
              cases stops
          | true =>
              have shorter := uperGetLength_takes got
              apply run_bind_ne_error (hypothesis rest (by omega) (by omega))
              intro _ _ _ stops
              cases stops

/-! ## Numbers and strings -/

theorem ends_integerDecodeUper (constraint : Option PerConstraint) (fieldUnsigned : Bool)
    (enough : limit ≤ fuel) :
    Ends limit (integerDecodeUper fuel constraint fieldUnsigned) := by
  apply avoids_bind (ends_getRoot _)
  intro ct
  split
  · rw [integerDecodeRange]
    split
    · exact ends_failed
    · apply avoids_bind (ends_getWholeNumber _ _)
      intro uvalue
      apply avoids_bind (ends_orStarved _)
      intro uvalue
      split
      · exact avoids_pure _
      · exact ends_orFailed _
  · apply avoids_bind (ends_getFragments ends_getBytes enough)
    intro bytes
    cases ct with
    | none => exact avoids_pure _
    | some ct =>
        dsimp only
        split
        · exact avoids_pure _
        · exact ends_orFailed _

theorem ends_nativeIntegerDecodeUper (constraint : Option PerConstraint) (fieldUnsigned : Bool)
    (enough : limit ≤ fuel) :
    Ends limit (nativeIntegerDecodeUper fuel constraint fieldUnsigned) :=
  avoids_bind (ends_integerDecodeUper constraint fieldUnsigned enough) fun _ => ends_orFailed _

theorem ends_nativeEnumeratedDecodeUper (constraint : Option PerConstraint)
    (specs : EnumeratedSpecs) : Ends limit (nativeEnumeratedDecodeUper constraint specs) := by
  apply avoids_bind (ends_orFailed _)
  intro ct
  apply avoids_bind (ends_getRoot _)
  intro root
  apply avoids_bind
  · rw [enumeratedGetIndex]
    split
    · apply avoids_bind (avoids_take _)
      intro value
      apply avoids_bind (ends_orStarved _)
      intro value
      split
      · exact ends_failed
      · exact avoids_pure _
    · split
      · exact ends_failed
      · apply avoids_bind ends_uperGetNsnnwn
        intro value
        apply avoids_bind (ends_orStarved _)
        intro value
        split
        · exact ends_failed
        · exact avoids_pure _
  · intro index
    exact ends_orFailed _

theorem ends_bitStringDecodeUper (constraints : Option PerConstraints)
    (enough : limit ≤ fuel) : Ends limit (bitStringDecodeUper fuel constraints) := by
  apply avoids_bind (ends_getRoot _)
  intro root
  rw [bitStringDecodeSized]
  split
  · exact avoids_bind (ends_getBits _) fun _ => avoids_pure _
  · exact avoids_bind (ends_getFragments ends_getBits enough) fun _ => avoids_pure _

theorem ends_getCoded (unitBits : Nat) (character : Nat → Option UInt8) (units : Nat) :
    Ends limit (getCoded unitBits character units) := by
  induction units with
  | zero => exact avoids_pure _
  | succ units hypothesis =>
      apply avoids_bind (avoids_take _)
      intro code
      apply avoids_bind (ends_orStarved _)
      intro code
      apply avoids_bind (ends_orFailed _)
      intro first
      exact avoids_bind hypothesis fun _ => avoids_pure _

theorem ends_getInRange (unitBits : Nat) (lb ub : Int) (units : Nat) :
    Ends limit (getInRange unitBits lb ub units) := by
  rw [getInRange]
  split
  · exact ends_getBytes _
  · exact ends_getCoded _ _ _

theorem ends_octetStringPerGetCharacters (unitBits : Nat) (cval : PerConstraint)
    (map : Option CharMap) (units : Nat) :
    Ends limit (octetStringPerGetCharacters unitBits cval map units) := by
  unfold octetStringPerGetCharacters
  split
  · exact ends_getInRange _ _ _ _
  · cases map with
    | none => exact ends_getInRange _ _ _ _
    | some map =>
        dsimp only
        split
        · exact ends_failed
        · exact ends_getCoded _ _ _

theorem ends_octetStringDecodeUper (constraints : Option PerConstraints)
    (enough : limit ≤ fuel) : Ends limit (octetStringDecodeUper fuel constraints) := by
  apply avoids_bind
  · apply avoids_bind (ends_getRoot _)
    intro root
    cases root with
    | none => exact avoids_pure _
    | some csiz => exact avoids_pure _
  · intro size
    have characters (units : Nat) : Ends limit (octetStringPerGetCharacters size.2
        (valueConstraint constraints) (constraints.bind (·.map)) units) :=
      ends_octetStringPerGetCharacters size.2 _ _ units
    unfold octetStringDecodeSized
    dsimp only
    split
    · exact avoids_bind (characters _) fun _ => avoids_pure _
    · exact avoids_bind (ends_getFragments characters enough) fun _ => avoids_pure _

/-! ## Open types -/

theorem getFragments_bytes {ebits : Option Nat} {lowerBound turns : Nat} {bits rest : List Bool}
    {buf : List UInt8}
    (got : (getFragments ebits lowerBound getBytes turns).run bits = .ok (buf, rest)) :
    8 * buf.length ≤ bits.length := by
  induction turns generalizing bits buf with
  | zero => cases got
  | succ turns hypothesis =>
      rcases run_bind_eq_ok.mp got with ⟨length, behind, lengthGot, following⟩
      rcases run_bind_eq_ok.mp following with ⟨⟨count, repeats⟩, _, isLength, following⟩
      rcases run_orStop_eq_ok.mp isLength with ⟨_, rfl⟩
      rcases run_bind_eq_ok.mp following with ⟨units, others, unitsGot, following⟩
      rcases run_bind_eq_ok.mp unitsGot with ⟨bytes, _, bytesGot, isBytes⟩
      rcases run_orStop_eq_ok.mp isBytes with ⟨rfl, rfl⟩
      rcases run_asnGetManyBits_eq_ok.mp bytesGot with ⟨front, frontLength, rfl, rfl⟩
      have shorter := (run_suffix lengthGot).length_le
      have bytesLength : 8 * (Bits.toBytes front).length = front.length := by
        rw [Bits.length_toBytes, frontLength]
        omega
      rw [List.length_append] at shorter
      cases repeats with
      | false =>
          cases following
          omega
      | true =>
          rcases run_bind_eq_ok.mp following with ⟨behindUnits, _, behindGot, same⟩
          cases same
          have fewer := hypothesis behindGot
          rw [List.length_append]
          omega

theorem ends_uperOpenTypeGet {decoder : Decoder α} (inner : Ends limit decoder)
    (enough : limit ≤ fuel) : Ends limit (uperOpenTypeGet fuel decoder) := by
  intro bits short
  apply run_bind_ne_error (ends_getFragments ends_getBytes enough bits short)
  intro buf rest got
  have within := getFragments_bytes got
  have innerEnds := inner (Bits.ofBytes buf) (by rw [Bits.length_ofBytes]; omega)
  cases result : decoder.run (Bits.ofBytes buf) with
  | error code =>
      cases code with
      | unfinished => exact absurd result innerEnds
      | wmore =>
          intro stops
          cases stops
      | fail =>
          intro stops
          cases stops
  | ok result =>
      dsimp only
      split
      · intro stops
        cases stops
      · intro stops
        cases stops

theorem ends_uperOpenTypeSkip (enough : limit ≤ fuel) : Ends limit (uperOpenTypeSkip fuel) := by
  have inner : Ends limit (uperSotSuck fuel) := by
    intro bits short
    rw [run_uperSotSuck (by omega)]
    intro stops
    cases stops
  have skipped := ends_uperOpenTypeGet inner enough
  intro bits short
  rw [uperOpenTypeSkip, run_mapFault]
  cases result : (uperOpenTypeGet fuel (uperSotSuck fuel)).run bits with
  | error code =>
      cases code with
      | unfinished => exact absurd result (skipped bits short)
      | wmore =>
          intro stops
          cases stops
      | fail =>
          intro stops
          cases stops
  | ok result =>
      intro stops
      cases stops

theorem ends_skipAdditions (enough : limit ≤ fuel) (epmd : List Bool) :
    Ends limit (skipAdditions fuel epmd) := by
  induction epmd with
  | nil => exact avoids_pure _
  | cons present epmd hypothesis =>
      cases present with
      | true => exact avoids_bind (ends_uperOpenTypeSkip enough) fun _ => hypothesis
      | false => exact hypothesis

/-! ## Types -/

theorem ends_getElements {decoder : Decoder (Value × Nat)} (each : Ends limit decoder)
    (nelems count : Nat) : Ends limit (getElements decoder nelems count) := by
  induction count with
  | zero => exact avoids_pure _
  | succ count hypothesis =>
      apply avoids_bind each
      intro element
      dsimp only
      split
      · exact ends_failed
      · exact avoids_bind hypothesis fun _ => avoids_pure _

theorem ends_setOfDecodeUper {decoder : Decoder (Value × Nat)} (each : Ends limit decoder)
    (constraint : Option PerConstraint) (enough : limit ≤ fuel) :
    Ends limit (setOfDecodeUper fuel constraint decoder) := by
  apply avoids_bind (ends_getRoot _)
  intro ct
  split
  · apply avoids_bind (avoids_take _)
    intro nelems
    exact avoids_bind (ends_orStarved _) fun _ => ends_getElements each _ _
  · exact ends_getFragments (fun _ => ends_getElements each _ _) enough

theorem ends_choiceGetIndex (constraint : Option PerConstraint) (extStart : Option Nat)
    (count : Nat) : Ends limit (choiceGetIndex constraint extStart count) := by
  apply avoids_bind (ends_getRoot _)
  intro ct
  split
  · apply avoids_bind (avoids_take _)
    intro value
    apply avoids_bind (ends_orStarved _)
    intro value
    split
    · exact ends_failed
    · exact avoids_pure _
  · apply avoids_bind (ends_orFailed _)
    intro start
    apply avoids_bind ends_uperGetNsnnwn
    intro value
    apply avoids_bind (ends_orStarved _)
    intro value
    split
    · exact ends_failed
    · exact avoids_pure _

theorem ends_getExtpresent (extensible : Bool) : Ends limit (getExtpresent extensible) := by
  cases extensible with
  | false => exact avoids_pure _
  | true =>
      apply avoids_bind (avoids_take _)
      intro extpresent
      exact avoids_bind (ends_orStarved _) fun _ => avoids_pure _

mutual

theorem ends_decode (enough : limit ≤ fuel) : (descriptor : Descriptor) →
    (given : Option PerConstraints) → Ends limit (decode fuel descriptor given)
  | .nativeInteger own fieldUnsigned, given => by
      exact avoids_bind (ends_nativeIntegerDecodeUper _ _ enough) fun _ => avoids_pure _
  | .integer own fieldUnsigned, given => by
      exact avoids_bind (ends_integerDecodeUper _ _ enough) fun _ => avoids_pure _
  | .nativeEnumerated own specs, given => by
      exact avoids_bind (ends_nativeEnumeratedDecodeUper _ _) fun _ => avoids_pure _
  | .boolean, given => by
      apply avoids_bind (avoids_take _)
      intro value
      exact avoids_bind (ends_orStarved _) fun _ => avoids_pure _
  | .bitString own, given => by
      exact avoids_bind (ends_bitStringDecodeUper _ enough) fun _ => avoids_pure _
  | .octetString own, given => by
      exact avoids_bind (ends_octetStringDecodeUper _ enough) fun _ => avoids_pure _
  | .sequence specs root additions, given => by
      rw [decode]
      apply avoids_bind (ends_getExtpresent _)
      intro extpresent
      apply avoids_bind (ends_getBits _)
      intro opmd
      apply avoids_bind (ends_decodeRoot enough root opmd)
      intro members
      split
      · apply avoids_bind ends_uperGetNslength
        intro bmlength
        apply avoids_bind (ends_orStarved _)
        intro bmlength
        apply avoids_bind (ends_getBits _)
        intro epmd
        apply avoids_bind (ends_decodeAdditions enough additions epmd)
        intro others
        exact avoids_bind (ends_skipAdditions enough _) fun _ => avoids_pure _
      · exact avoids_pure _
  | .choice own extStart elements, given => by
      rw [decode]
      apply avoids_bind (ends_choiceGetIndex _ _ _)
      intro index
      apply avoids_bind
      · have element := ends_decodeElement enough elements index.1
        rw [decodeOpen]
        split
        · exact ends_uperOpenTypeGet element enough
        · exact element
      · intro member
        exact avoids_pure _
  | .sequenceOf own member element, given => by
      exact avoids_bind (ends_setOfDecodeUper
        (ends_decode enough element member.constraints) _ enough) fun _ => avoids_pure _

theorem ends_decodeRoot (enough : limit ≤ fuel) : (elements : Elements) →
    (opmd : List Bool) → Ends limit (decodeRoot fuel elements opmd)
  | .nil, opmd => avoids_pure _
  | .cons member type others, opmd => by
      rw [decodeRoot]
      split
      · exact avoids_bind (ends_decodeRoot enough others _) fun _ => avoids_pure _
      · apply avoids_bind (ends_decode enough type member.constraints)
        intro value
        exact avoids_bind (ends_decodeRoot enough others _) fun _ => avoids_pure _

theorem ends_decodeAdditions (enough : limit ≤ fuel) : (elements : Elements) →
    (epmd : List Bool) → Ends limit (decodeAdditions fuel elements epmd)
  | .nil, epmd => avoids_pure _
  | .cons member type others, epmd => by
      rw [decodeAdditions]
      apply avoids_bind
      · rw [decodeAddition]
        split
        · exact avoids_bind (ends_uperOpenTypeGet
            (ends_decode enough type member.constraints) enough) fun _ => avoids_pure _
        · exact avoids_pure _
      · intro value
        exact avoids_bind (ends_decodeAdditions enough others _) fun _ => avoids_pure _

theorem ends_decodeElement (enough : limit ≤ fuel) : (elements : Elements) →
    (position : Nat) → Ends limit (decodeElement fuel elements position)
  | .nil, _ => ends_failed
  | .cons member type _, 0 => ends_decode enough type member.constraints
  | .cons _ _ others, position + 1 => ends_decodeElement enough others position
end

end

end AIM.Uper
