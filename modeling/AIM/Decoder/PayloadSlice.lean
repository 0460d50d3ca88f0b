import AIM.Decoder.Contract

namespace AIM.Decoder

open LoggedReader

/-! # The bytes handed to the ASN.1 decoder

`asn_decode` reads the bytes it is given without knowing the received length,
so the slice that `decodeEtsi` computes has to lie inside the packet. -/

namespace DecoderFrontend

@[simp] def asnCalls : List DecoderEvent → List AsnCall
  | [] => []
  | .asnDecode call _ _ :: rest => call :: asnCalls rest
  | .free _ :: rest => asnCalls rest

theorem asnCalls_append_free (events : List DecoderEvent) (object : AsnObject) :
    asnCalls (events ++ [.free object]) = asnCalls events := by
  induction events with
  | nil => rfl
  | cons event rest induction => cases event <;> simp [induction]

/-- Every slice handed to `asn_decode` lies inside the received bytes, and on
the full ITS path its length is the payload length without the BTP header. -/
def PayloadSliceSafe (packet : Nat → UInt8) (buflen : Nat) (isGeoNet : Bool)
    (result : EtsiDecoderResult) : Prop :=
  ∀ call ∈ asnCalls result.events, call.data + call.size ≤ buflen ∧
    (isGeoNet = true → call.size + 4 = (commonHeaderOf packet).payload.toNat)

@[simp] theorem asnCalls_checkDecoded (decodedData : EtsiDecodedData)
    (events : List DecoderEvent) (code : AsnCode) (decoded : Option AsnObject) :
    asnCalls (checkDecoded decodedData events code decoded).events =
      asnCalls events := by
  cases decoded with
  | none => rfl
  | some object =>
      by_cases success : code = .rcOk
      · simp [checkDecoded, success]
      · simp [checkDecoded, success, asnCalls_append_free]

@[simp] theorem asnCalls_decodeOnce (oracle : AsnOracle)
    (decodedData : EtsiDecodedData) (call : AsnCall) :
    asnCalls (decodeOnce oracle decodedData call).events = [call] := by
  simp only [decodeOnce, asnCalls_checkDecoded]
  rfl

theorem asnCalls_decodePayload (frontend : DecoderFrontend) (oracle : AsnOracle)
    (gndataIndication : GNDataIndication) (btpDataIndication : BTPDataIndication)
    (decodedData : EtsiDecodedData)
    (port : btpDataIndication.destPort = caPort ∨
      btpDataIndication.destPort = denPort) :
    ∃ descriptor, asnCalls (frontend.decodePayload oracle gndataIndication
      btpDataIndication decodedData).events =
        [⟨descriptor, none, btpDataIndication.data,
          btpDataIndication.lenght.toNat⟩] := by
  unfold decodePayload
  split
  · exact ⟨_, asnCalls_decodeOnce _ _ _⟩
  · next notCa =>
      rw [if_pos (port.resolve_left notCa)]
      exact ⟨_, asnCalls_decodeOnce _ _ _⟩

theorem asnCalls_decodeFacility (frontend : DecoderFrontend) (oracle : AsnOracle)
    (buflen : Nat) (decodedData : EtsiDecodedData) (packet : Nat → UInt8)
    (call : AsnCall)
    (member : call ∈ asnCalls ((frontend.decodeFacility oracle buflen
      decodedData).value packet).events) :
    call.data = 0 ∧ call.size = buflen := by
  simp only [decodeFacility, value_bind, value_ite, value_pure] at member
  split at member
  · split at member
    · simp only [decodeBareCam, asnCalls_checkDecoded] at member
      simp only [asnCalls, List.mem_cons, List.not_mem_nil, or_false] at member
      rcases member with equal | equal <;> subst equal <;> exact ⟨rfl, rfl⟩
    · split at member
      · simp only [asnCalls_decodeOnce, List.mem_singleton] at member
        subst member
        exact ⟨rfl, rfl⟩
      · simp [asnCalls] at member
  · simp [asnCalls] at member

/-! ## The bounds of the slice -/

/-- The unsigned subtraction of the BTP header length does not wrap exactly when
the payload holds at least that header. -/
theorem payloadLength_sub_four (payload : UInt16) :
    (payload.toUInt32 - 4).toNat + 4 = payload.toNat ↔ 4 ≤ payload.toNat := by
  have bound := payload.toNat_lt
  rw [UInt32.toNat_sub, UInt16.toNat_toUInt32]
  have four : (4 : UInt32).toNat = 4 := rfl
  rw [four]
  omega

/-- The slice lies inside the packet unless an accepted header announces less
than a BTP header or more bytes than were received. -/
theorem payloadSlice_safe_iff (frontend : DecoderFrontend) (oracle : AsnOracle)
    (locals : DecoderLocals) (packet : Nat → UInt8) (buflen : Nat)
    (decodedData : EtsiDecodedData) (msgtype : MsgType) :
    PayloadSliceSafe packet buflen ((detectGeoNet buflen msgtype).value packet)
        ((frontend.decodeEtsi oracle locals buflen decodedData msgtype).value packet) ↔
      (1 ≤ buflen → (detectGeoNet buflen msgtype).value packet = true →
        GNAccepts packet ∧ BTPAccepts packet →
        4 ≤ (commonHeaderOf packet).payload.toNat ∧
          btpOffset packet + (commonHeaderOf packet).payload.toNat ≤ buflen) := by
  by_cases nonempty : 1 ≤ buflen
  · have notEmpty : ¬buflen ≤ 0 := by omega
    simp only [nonempty, true_implies]
    cases path : (detectGeoNet buflen msgtype).value packet with
    | false =>
        refine iff_of_true (fun call member => ?_) (fun impossible => nomatch impossible)
        simp only [decodeEtsi, if_neg notEmpty, value_bind, path, Bool.false_eq_true,
          if_false] at member
        have whole := asnCalls_decodeFacility _ _ _ _ _ call member
        exact ⟨by omega, fun impossible => nomatch impossible⟩
    | true =>
        simp only [true_implies]
        by_cases accepted : GNAccepts packet ∧ BTPAccepts packet
        · have succeed := (headerStagesSucceed_iff locals packet).mpr accepted
          rcases btpStage_payload locals packet succeed with ⟨data, size, port⟩
          rcases asnCalls_decodePayload frontend oracle (gnStage locals packet).2
            (btpStage locals packet).2 decodedData
            (by rw [port]; exact accepted.2.1) with ⟨descriptor, calls⟩
          have wraps := payloadLength_sub_four (commonHeaderOf packet).payload
          simp only [PayloadSliceSafe, decodeEtsi, if_neg notEmpty, value_bind, path,
            if_true, decodeGeoNet_of_accepted _ _ _ _ _ succeed, calls,
            List.mem_singleton, forall_eq, data, size, true_implies,
            iff_true_intro accepted]
          omega
        · refine iff_of_true (fun call member => ?_)
            (fun isAccepted => absurd isAccepted accepted)
          rw [decodeEtsi_of_rejected _ _ _ _ _ nonempty _ _ path accepted] at member
          exact absurd member (List.not_mem_nil)
  · refine iff_of_true (fun call member => ?_) (fun positive => absurd positive nonempty)
    have empty : buflen ≤ 0 := by omega
    simp only [decodeEtsi, if_pos empty, value_pure] at member
    exact absurd member (List.not_mem_nil)

/-- A CAM header that announces a payload of 65535 bytes makes the ASN.1 decoder
read far behind the 76 bytes received. -/
theorem payloadSlice_unsafe_on_long_length :
    ¬PayloadSliceSafe (shbCamPacket 0xFF 0xFF) 76
      ((detectGeoNet 76 .msgtypeAuto).value (shbCamPacket 0xFF 0xFF))
      ((decodeEtsi ⟨false⟩ ⟨fun _ _ => (.rcFail, none)⟩ default 76 default
        .msgtypeAuto).value (shbCamPacket 0xFF 0xFF)) := by
  intro safe
  have inside := (safe ⟨.cam, none, 44, 65531⟩ (List.mem_singleton.mpr rfl)).1
  exact absurd inside (by decide)

end DecoderFrontend

end AIM.Decoder
