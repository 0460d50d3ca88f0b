import AIM.Decoder.Contract

namespace AIM.Decoder

open LoggedReader DecoderFrontend

/-! # The acceptance checks

The checks that the GeoNetworking and BTP headers of a packet have to pass, and the error
codes that the decoder returns for them. -/

inductive HeaderCheck
  | version
  | basicNextHeader
  | hopLimit
  | headerType
  | commonNextHeader
  | destinationPort
  deriving DecidableEq, Repr

/-- What the two layers return: an error of the first one, or the code of the second. -/
inductive HeadersRetval
  | gn (error : GnError)
  | btp (code : BtpError)
  deriving DecidableEq, Repr

namespace HeaderCheck

def all : List HeaderCheck :=
  [.version, .basicNextHeader, .hopLimit, .headerType, .commonNextHeader, .destinationPort]

/-- The comment in `decodeGN` names the two next headers with which processing goes on. -/
def Passes (packet : Nat → UInt8) : HeaderCheck → Prop
  | .version => (basicHeaderOf packet).version = 0 ∨ (basicHeaderOf packet).version = 1
  | .basicNextHeader =>
      (basicHeaderOf packet).nextHeader = 0 ∨ (basicHeaderOf packet).nextHeader = 1
  | .hopLimit =>
      (basicHeaderOf packet).remainingHopLimit ≤ (commonHeaderOf packet).maxHopLimit
  | .headerType => (commonHeaderOf packet).headerType = gbc ∨
      ((commonHeaderOf packet).headerType = tsb ∧ (commonHeaderOf packet).headerSubType = 0)
  | .commonNextHeader =>
      (commonHeaderOf packet).nextHeader = btpA ∨ (commonHeaderOf packet).nextHeader = btpB
  | .destinationPort => (btpHeaderOf packet).destinationPort = caPort ∨
      (btpHeaderOf packet).destinationPort = denPort

instance (packet : Nat → UInt8) (check : HeaderCheck) : Decidable (check.Passes packet) := by
  cases check <;> unfold Passes <;> infer_instance

def error : HeaderCheck → HeadersRetval
  | .version => .gn .gnVersionError
  | .basicNextHeader => .gn .gnSecuredError
  | .hopLimit => .gn .gnHopLimitError
  | .headerType => .gn .gnTypeError
  | .commonNextHeader => .btp .btpError
  | .destinationPort => .btp .btpError

def firstFailing (packet : Nat → UInt8) : Option HeaderCheck :=
  all.find? fun check => !decide (check.Passes packet)

end HeaderCheck

def headersRetval (locals : DecoderLocals) (packet : Nat → UInt8) : HeadersRetval :=
  if (gnStage locals packet).1 ≠ .gnOk then .gn (gnStage locals packet).1
  else .btp (btpStage locals packet).1

/-- A packet is accepted if it passes all checks, and otherwise the first one that it
fails decides the error code. -/
structure MeetsChecks (locals : DecoderLocals) (packet : Nat → UInt8) : Prop where
  accepted : headersRetval locals packet = .btp .btpOk ↔
    ∀ check : HeaderCheck, check.Passes packet
  rejected : ∀ check, HeaderCheck.firstFailing packet = some check →
    headersRetval locals packet = check.error

variable {packet : Nat → UInt8} (locals : DecoderLocals)

theorem processHeaderType_error (commonH : CommonHeader) (dataIndication : GNDataIndication) :
    ((GeoNet.processHeaderType commonH dataIndication).value packet).1 =
      if dataIndication.gnType = gbc ∨
        (dataIndication.gnType = tsb ∧ commonH.headerSubType = 0) then .gnOk
      else .gnTypeError := by
  simp only [GeoNet.processHeaderType, value_ite, value_bind, value_pure]
  by_cases isGbc : dataIndication.gnType = gbc
  · simp [isGbc]
  · by_cases isTsb : dataIndication.gnType = tsb
    · by_cases single : commonH.headerSubType = 0 <;>
        simp [isTsb, single, show tsb ≠ gbc by decide]
    · simp [isGbc, isTsb]

theorem gnStage_error :
    (gnStage locals packet).1 =
      if HeaderCheck.version.Passes packet then
        if (basicHeaderOf packet).nextHeader ≠ 2 then
          if HeaderCheck.hopLimit.Passes packet then
            if HeaderCheck.headerType.Passes packet then .gnOk else .gnTypeError
          else .gnHopLimitError
        else .gnSecuredError
      else .gnVersionError := by
  rcases GeoNet.decodeLT_isSome (basicHeaderOf packet).lifeTime with ⟨seconds, lifeTime⟩
  have version : (basicHeaderOf packet).version ≠ GeoNet.gnProtocolVersion ∧
      (basicHeaderOf packet).version ≠ 0 ↔ ¬HeaderCheck.version.Passes packet :=
    and_comm.trans not_or.symm
  have hopLimit : (commonHeaderOf packet).maxHopLimit <
      (basicHeaderOf packet).remainingHopLimit ↔ ¬HeaderCheck.hopLimit.Passes packet :=
    UInt8.not_le.symm
  simp only [gnStage, GeoNet.decodeGN, value_bind, value_ite, value_pure,
    ← basicHeaderOf.eq_def, lifeTime, version, hopLimit, GeoNet.processCommonHeader,
    Nat.zero_add, ← commonHeaderOf.eq_def, apply_ite Prod.fst, processHeaderType_error,
    ite_not]
  rfl

theorem btpStage_error (accepted : (gnStage locals packet).1 = .gnOk) :
    (btpStage locals packet).1 =
      if HeaderCheck.commonNextHeader.Passes packet ∧
          HeaderCheck.destinationPort.Passes packet then .btpOk
      else .btpError := by
  rcases GeoNet.decodeGN_value packet locals.gndataIndication with ⟨_, delivered⟩
  rcases delivered accepted with ⟨offset, _, protocol⟩
  have ok := (decodeBTP_value packet _ locals.btpDataIndication offset protocol).1
  have same : BTPAccepts packet ↔ HeaderCheck.commonNextHeader.Passes packet ∧
      HeaderCheck.destinationPort.Passes packet := and_comm
  rw [same] at ok
  split
  · next passes => exact ok.mpr passes
  · next fails =>
      have failed := mt ok.mp fails
      change (btpStage locals packet).1 ≠ .btpOk at failed
      cases code : (btpStage locals packet).1 with
      | btpOk => exact absurd code failed
      | btpError => rfl

theorem headersRetval_of_error {error : GnError} (failed : (gnStage locals packet).1 = error)
    (isError : error ≠ .gnOk) : headersRetval locals packet = .gn error := by
  rw [headersRetval, failed, if_pos isError]

theorem headersRetval_error :
    headersRetval locals packet =
      if HeaderCheck.version.Passes packet then
        if (basicHeaderOf packet).nextHeader ≠ 2 then
          if HeaderCheck.hopLimit.Passes packet then
            if HeaderCheck.headerType.Passes packet then
              if HeaderCheck.commonNextHeader.Passes packet ∧
                HeaderCheck.destinationPort.Passes packet then .btp .btpOk
              else .btp .btpError
            else .gn .gnTypeError
          else .gn .gnHopLimitError
        else .gn .gnSecuredError
      else .gn .gnVersionError := by
  have first := @gnStage_error packet locals
  by_cases version : HeaderCheck.version.Passes packet
  · rw [if_pos version] at first ⊢
    by_cases unsecured : (basicHeaderOf packet).nextHeader ≠ 2
    · rw [if_pos unsecured] at first ⊢
      by_cases hopLimit : HeaderCheck.hopLimit.Passes packet
      · rw [if_pos hopLimit] at first ⊢
        by_cases headerType : HeaderCheck.headerType.Passes packet
        · rw [if_pos headerType] at first ⊢
          rw [headersRetval, if_neg (not_not.mpr first), btpStage_error locals first,
            apply_ite HeadersRetval.btp]
        · rw [if_neg headerType] at first ⊢
          exact headersRetval_of_error locals first (by decide)
      · rw [if_neg hopLimit] at first ⊢
        exact headersRetval_of_error locals first (by decide)
    · rw [if_neg unsecured] at first ⊢
      exact headersRetval_of_error locals first (by decide)
  · rw [if_neg version] at first ⊢
    exact headersRetval_of_error locals first (by decide)

namespace HeaderCheck

def retval (packet : Nat → UInt8) (checks : List HeaderCheck) : HeadersRetval :=
  (checks.find? fun check => !decide (check.Passes packet)).elim (.btp .btpOk) error

theorem retval_cons (check : HeaderCheck) (checks : List HeaderCheck) :
    retval packet (check :: checks) =
      if check.Passes packet then retval packet checks else check.error := by
  by_cases passes : check.Passes packet
  · simp [retval, passes]
  · simp [retval, passes]

theorem mem_all (check : HeaderCheck) : check ∈ all := by
  cases check <;> decide

theorem firstFailing_eq_none_iff :
    firstFailing packet = none ↔ ∀ check : HeaderCheck, check.Passes packet := by
  simp [firstFailing, mem_all]

theorem error_ne_ok (check : HeaderCheck) : check.error ≠ .btp .btpOk := by
  cases check <;> decide

end HeaderCheck

theorem headersRetval_eq_retval
    (known : HeaderCheck.version.Passes packet → (basicHeaderOf packet).nextHeader ≤ 2) :
    headersRetval locals packet = HeaderCheck.retval packet HeaderCheck.all := by
  have last : HeaderCheck.retval packet [.commonNextHeader, .destinationPort] =
      if HeaderCheck.commonNextHeader.Passes packet ∧
        HeaderCheck.destinationPort.Passes packet then .btp .btpOk else .btp .btpError := by
    rw [HeaderCheck.retval_cons, HeaderCheck.retval_cons, ite_and]
    rfl
  rw [headersRetval_error, HeaderCheck.all, HeaderCheck.retval_cons, HeaderCheck.retval_cons,
    HeaderCheck.retval_cons, HeaderCheck.retval_cons, last]
  by_cases version : HeaderCheck.version.Passes packet
  · have unsecured : (basicHeaderOf packet).nextHeader ≠ 2 ↔
        HeaderCheck.basicNextHeader.Passes packet := by
      have bound := known version
      simp only [HeaderCheck.Passes, ne_eq, ← UInt8.toNat_inj, UInt8.le_iff_toNat_le] at bound ⊢
      simp only [UInt8.toNat_ofNat] at bound ⊢
      omega
    simp only [unsecured]
    rfl
  · rw [if_neg version, if_neg version]
    rfl

theorem meetsChecks_of_eq_retval
    (same : headersRetval locals packet = HeaderCheck.retval packet HeaderCheck.all) :
    MeetsChecks locals packet := by
  change headersRetval locals packet =
    (HeaderCheck.firstFailing packet).elim (.btp .btpOk) HeaderCheck.error at same
  constructor
  · rw [← HeaderCheck.firstFailing_eq_none_iff, same]
    cases HeaderCheck.firstFailing packet with
    | none => exact iff_of_true rfl rfl
    | some check => exact iff_of_false check.error_ne_ok (Option.some_ne_none check)
  · intro check fails
    rw [same, fails]
    rfl

/-- All packets are accepted and rejected as the checks say, except those with a next
header that is neither secured nor one of the two that are allowed. -/
theorem meetsChecks_iff (packet : Nat → UInt8) :
    MeetsChecks locals packet ↔
      (HeaderCheck.version.Passes packet → (basicHeaderOf packet).nextHeader ≤ 2) := by
  constructor
  · intro meets version
    by_contra unassigned
    have large : ¬HeaderCheck.basicNextHeader.Passes packet ∧
        (basicHeaderOf packet).nextHeader ≠ 2 := by
      simp only [HeaderCheck.Passes, ne_eq, ← UInt8.toNat_inj, UInt8.le_iff_toNat_le]
        at unassigned ⊢
      simp only [UInt8.toNat_ofNat] at unassigned ⊢
      omega
    have fails : HeaderCheck.firstFailing packet = some .basicNextHeader := by
      simp [HeaderCheck.firstFailing, HeaderCheck.all, version, large.1]
    have returned := meets.rejected _ fails
    -- The code goes on with the next checks instead.
    rw [headersRetval_error, if_pos version, if_pos large.2] at returned
    repeat' split at returned
    all_goals cases returned
  · intro known
    exact meetsChecks_of_eq_retval locals (headersRetval_eq_retval locals known)

/-- A packet with an unassigned next header is accepted. -/
theorem not_meetsChecks_of_unassigned :
    ¬MeetsChecks default fun address =>
      if address = 0 then 0x13 else shbCamPacket 0 36 address := by
  intro meets
  have passes := meets.accepted.mp (by decide +kernel) .basicNextHeader
  exact absurd passes (by decide +kernel)

end AIM.Decoder
