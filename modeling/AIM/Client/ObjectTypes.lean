import AIM.Client.UninitializedMemory
import AIM.Database.Operations

namespace AIM.Client

open Decoder Database LoggedReader

/-! # The types of decoded objects

A decoded object is decoded into, read and freed under an ASN.1 type that is chosen anew
each time. -/

/-- A use of an object, and the type it is used as. -/
inductive ObjectUse
  | decodeInto (object : AsnObject) (descriptor : AsnType)
  | read (object : AsnObject) (descriptor : AsnType)
  | structFree (object : AsnObject) (descriptor : AsnType)

def ObjectUse.Typed : ObjectUse → Prop
  | .decodeInto object descriptor | .read object descriptor | .structFree object descriptor =>
      object.allocatedAs = descriptor

/-! ## Uses while a packet is decoded -/

/-- A null target is not used, and `free` does not look at the type. -/
def decodingUse : DecoderEvent → Option ObjectUse
  | .asnDecode call _ _ => call.target.map fun object => .decodeInto object call.descriptor
  | .free _ => none

def decodingUses (result : EtsiDecoderResult) : List ObjectUse :=
  result.events.filterMap decodingUse

def descriptorOf (frontend : DecoderFrontend) : EtsiDecodedType → Option AsnType
  | .etsiDecodedCam | .etsiDecodedCamNogn => some frontend.camDescriptor
  | .etsiDecodedDenm | .etsiDecodedDenmNogn => some .denm
  | _ => none

/-- The bare CAM branch decodes a second time, as another type, into the object that the
first call has left. -/
structure DecodesTwice (client : SocketClient) (reception : Reception) : Prop where
  nonempty : 1 ≤ reception.bufsize
  path : (DecoderFrontend.detectGeoNet reception.bufsize .msgtypeAuto).value
    reception.packet = false
  messageID : reception.packet 1 = messageCam
  enhanced : client.options.enableEnhancedCAMs = true
  left : (reception.oracle.decode 0 ⟨.cam, none, 0, reception.bufsize⟩).2.isSome

/-- All uses are typed, and a message that is handed on is what its type says. -/
structure DecodesTyped (frontend : DecoderFrontend) (result : EtsiDecoderResult) : Prop where
  uses : ∀ use ∈ decodingUses result, use.Typed
  decoded : result.retval = etsiDecoderOk →
    ∃ object, result.decodedData.decodedMsg = some object ∧
      descriptorOf frontend result.decodedData.type = some object.allocatedAs

theorem error_ne_ok : etsiDecoderError ≠ etsiDecoderOk := by decide

theorem decodesTyped_of_error (frontend : DecoderFrontend) (decodedData : EtsiDecodedData) :
    DecodesTyped frontend ⟨etsiDecoderError, decodedData, []⟩ where
  uses _ member := absurd member List.not_mem_nil
  decoded ok := absurd ok error_ne_ok

theorem decode_allocatedAs {oracle : AsnOracle} {index : Nat} {call : AsnCall}
    {object : AsnObject} (decoded : (oracle.decode index call).2 = some object) :
    object.allocatedAs = (call.target.map AsnObject.allocatedAs).getD call.descriptor := by
  rw [AsnOracle.decode] at decoded
  cases written : (oracle.outcome index call).2 with
  | none =>
      simp only [written] at decoded
      rw [decoded]
      rfl
  | some content =>
      cases target : call.target with
      | none =>
          simp only [written, target] at decoded
          cases decoded
          rfl
      | some earlier =>
          simp only [written, target] at decoded
          cases decoded
          rfl

theorem decodesTyped_checkDecoded {frontend : DecoderFrontend} {decodedData : EtsiDecodedData}
    {events : List DecoderEvent} {code : AsnCode} {decoded : Option AsnObject}
    (uses : ∀ use ∈ events.filterMap decodingUse, use.Typed)
    (allocated : ∀ object, decoded = some object →
      descriptorOf frontend decodedData.type = some object.allocatedAs) :
    DecodesTyped frontend (DecoderFrontend.checkDecoded decodedData events code decoded) := by
  cases decoded with
  | none => exact ⟨uses, fun ok => absurd ok error_ne_ok⟩
  | some object =>
      by_cases success : code = .rcOk
      · rw [DecoderFrontend.checkDecoded, if_pos success]
        exact ⟨uses, fun _ => ⟨object, rfl, allocated object rfl⟩⟩
      · rw [DecoderFrontend.checkDecoded, if_neg success]
        refine ⟨?_, fun ok => absurd ok error_ne_ok⟩
        rw [decodingUses, List.filterMap_append]
        simpa [decodingUse] using uses

theorem decodesTyped_decodeOnce {frontend : DecoderFrontend} (oracle : AsnOracle)
    {decodedData : EtsiDecodedData} {call : AsnCall} (null : call.target = none)
    (type : descriptorOf frontend decodedData.type = some call.descriptor) :
    DecodesTyped frontend (DecoderFrontend.decodeOnce oracle decodedData call) := by
  apply decodesTyped_checkDecoded
  · simp [decodingUse, null]
  · intro object decoded
    rw [type, decode_allocatedAs decoded, null]
    rfl

theorem decodesTyped_second {frontend : DecoderFrontend} {oracle : AsnOracle} {buflen : Nat}
    {decodedData : EtsiDecodedData} (isCam : decodedData.type = .etsiDecodedCamNogn)
    (firstCode : AsnCode) {target : Option AsnObject}
    (allocated : ∀ object, target = some object →
      object.allocatedAs = frontend.camDescriptor) :
    let second : AsnCall := ⟨frontend.camDescriptor, target, 0, buflen⟩
    DecodesTyped frontend (DecoderFrontend.checkDecoded decodedData
      [.asnDecode ⟨.cam, none, 0, buflen⟩ firstCode target,
        .asnDecode second (oracle.decode 1 second).1 (oracle.decode 1 second).2]
      (oracle.decode 1 second).1 (oracle.decode 1 second).2) := by
  apply decodesTyped_checkDecoded
  · cases target with
    | none => simp [decodingUse]
    | some object => simpa [decodingUse, ObjectUse.Typed] using allocated object rfl
  · intro object decoded
    rw [isCam, decode_allocatedAs decoded]
    cases target with
    | none => rfl
    | some earlier => exact congrArg some (allocated earlier rfl).symm

theorem decodesTyped_decodeBareCam {frontend : DecoderFrontend} {oracle : AsnOracle}
    {buflen : Nat} (decodedData : EtsiDecodedData)
    (once : frontend.enhancedCAMs = true → (oracle.decode 0 ⟨.cam, none, 0, buflen⟩).2 = none) :
    DecodesTyped frontend (frontend.decodeBareCam oracle buflen decodedData) := by
  have allocated : ∀ object, (oracle.decode 0 ⟨.cam, none, 0, buflen⟩).2 = some object →
      object.allocatedAs = frontend.camDescriptor := by
    intro object decoded
    cases enhanced : frontend.enhancedCAMs with
    | true =>
        rw [once enhanced] at decoded
        cases decoded
    | false =>
        rw [decode_allocatedAs decoded, DecoderFrontend.camDescriptor, enhanced]
        rfl
  exact decodesTyped_second rfl _ allocated

variable {client : SocketClient} {map : LDMMap} {reception : Reception}

theorem decode_rule {motive : EtsiDecoderResult → Prop} (accepted : ¬RejectsHeaders reception)
    (error : ∀ decodedData, motive ⟨etsiDecoderError, decodedData, []⟩)
    (once : ∀ (decodedData : EtsiDecodedData) (call : AsnCall), call.target = none →
      descriptorOf client.decodeFrontend decodedData.type = some call.descriptor →
        motive (DecoderFrontend.decodeOnce reception.oracle decodedData call))
    (bareCam : ∀ decodedData, 1 ≤ reception.bufsize →
      (DecoderFrontend.detectGeoNet reception.bufsize .msgtypeAuto).value reception.packet =
        false →
      reception.packet 1 = messageCam →
        motive (client.decodeFrontend.decodeBareCam reception.oracle reception.bufsize
          decodedData))
    (locals : Locals) : motive (decode client reception locals) := by
  rcases locals with ⟨decodedData, decoder, vehdata⟩
  rcases decode_paths client accepted decoder with
    empty | ⟨nonempty, path, facility⟩ | ⟨gndataIndication, btpDataIndication, payload⟩
  · rw [empty]
    exact error _
  · rw [facility]
    simp only [DecoderFrontend.decodeFacility, value_bind, value_ite, value_pure]
    split
    · split
      · next isCam => exact bareCam _ nonempty path isCam
      · split
        · exact once _ _ rfl rfl
        · exact error _
    · exact error _
  · rw [payload, DecoderFrontend.decodePayload]
    split
    · exact once _ _ rfl rfl
    · split
      · exact once _ _ rfl rfl
      · exact error _

theorem decodesTyped_decode (accepted : ¬RejectsHeaders reception)
    (once : ¬DecodesTwice client reception) (locals : Locals) :
    DecodesTyped client.decodeFrontend (decode client reception locals) := by
  apply decode_rule accepted
  · exact decodesTyped_of_error client.decodeFrontend
  · intro decodedData call null type
    exact decodesTyped_decodeOnce reception.oracle null type
  · intro decodedData nonempty path isCam
    apply decodesTyped_decodeBareCam
    intro enhanced
    by_contra left
    exact once ⟨nonempty, path, isCam, enhanced, Option.isSome_iff_ne_none.mpr left⟩

/-! ## Uses while a message is processed -/

/-- The type that the members of a message are read as, if they are read at all. -/
def readAs (client : SocketClient) : EtsiDecodedType → Option AsnType
  | .etsiDecodedCam | .etsiDecodedCamNogn =>
      some (if client.options.enableEnhancedCAMs then .camEnhanced else .cam)
  | .etsiDecodedDenm | .etsiDecodedDenmNogn =>
      if client.denmDecodingEnabled then some .denm else none
  | _ => none

section

variable (haversineDist : ℚ → ℚ → ℚ → ℚ → ℚ)

/-- After a successful decoding the object is read, and freed if the database was updated or
a DENM was reported. -/
def processingUses (client : SocketClient) (map : LDMMap) (reception : Reception)
    (locals : Locals) : List ObjectUse :=
  let result := decode client reception locals
  if result.retval ≠ etsiDecoderOk then []
  else
    match result.decodedData.decodedMsg, readAs client result.decodedData.type with
    | some object, some descriptor =>
        .read object descriptor ::
          match manageMessage haversineDist client map reception locals with
          | some (_, .stored _ _ freedAs) => [.structFree object freedAs]
          | some (_, .denm _) => [.structFree object .denm]
          | _ => []
    | _, _ => []

/-- Every use of a decoded object is typed, whatever the local variables held before. -/
def KeepsTypes (client : SocketClient) (map : LDMMap) (reception : Reception)
    (decoder : DecoderLocals) : Prop :=
  ∀ (decodedData : EtsiDecodedData) (vehdata : VehicleData),
    ∀ use ∈ decodingUses (decode client reception ⟨decodedData, decoder, vehdata⟩) ++
        processingUses haversineDist client map reception ⟨decodedData, decoder, vehdata⟩,
      use.Typed

end

/-- The headers are not rejected, no bare CAM is decoded twice, and no CAM is used for an
update of the database. -/
structure Unconfused (client : SocketClient) (map : LDMMap) (reception : Reception)
    (decoder : DecoderLocals) : Prop where
  headers : ¬RejectsHeaders reception
  once : ¬DecodesTwice client reception
  unused : ∀ decodedCam,
    ¬UsesCam client map reception ⟨default, decoder, default⟩ decodedCam

theorem descriptorOf_of_readAs {type : EtsiDecodedType} {descriptor : AsnType}
    (reads : readAs client type = some descriptor) :
    descriptorOf client.decodeFrontend type = some descriptor := by
  cases type with
  | etsiDecodedCam | etsiDecodedCamNogn => exact reads
  | etsiDecodedDenm | etsiDecodedDenmNogn =>
      simp only [readAs] at reads
      split at reads
      · exact reads
      · cases reads
  | etsiDecodedError | etsiDecodedIvim | etsiDecodedCpm | etsiDecodedIvimNogn |
      etsiDecodedCpmNogn => cases reads

variable {haversineDist : ℚ → ℚ → ℚ → ℚ → ℚ} {decoder : DecoderLocals}

theorem insertedRecord_isSome_of_stored {locals : Locals} {next : LDMMap}
    {vehdata : VehicleData} {dbRetval : LDMMapError} {freedAs : AsnType}
    (managed : manageMessage haversineDist client map reception locals =
      some (next, .stored vehdata dbRetval freedAs)) :
    ∃ record, insertedRecord client map reception locals = some record := by
  cases record : insertedRecord client map reception locals with
  | none => exact absurd rfl ((manageMessage_of_none record managed).2 vehdata dbRetval freedAs)
  | some vehdata => exact ⟨vehdata, rfl⟩

theorem readAs_of_denm {locals : Locals} {next : LDMMap} {report : DenmReport}
    (managed : manageMessage haversineDist client map reception locals =
      some (next, .denm report)) :
    readAs client (decode client reception locals).decodedData.type = some .denm := by
  have reports := reportsDenm_of_denm managed
  rcases reports.type with type | type
  · rw [type, readAs, if_pos reports.enabled]
  · rw [type, readAs, if_pos reports.enabled]

theorem keepsTypes_of_unconfused (unconfused : Unconfused client map reception decoder) :
    KeepsTypes haversineDist client map reception decoder := by
  intro decodedData vehdata use member
  have typed := decodesTyped_decode unconfused.headers unconfused.once
    ⟨decodedData, decoder, vehdata⟩
  rcases List.mem_append.mp member with member | member
  · exact typed.uses use member
  · simp only [processingUses] at member
    split at member
    · cases member
    · next ok =>
        rcases typed.decoded (not_not.mp ok) with ⟨object, decodedMsg, type⟩
        split at member
        · next read descriptor found reads =>
            cases decodedMsg.symm.trans found
            have allocated : object.allocatedAs = descriptor :=
              Option.some.inj (type.symm.trans (descriptorOf_of_readAs reads))
            rcases List.mem_cons.mp member with rfl | member
            · exact allocated
            · split at member
              · next managed =>
                  rcases insertedRecord_isSome_of_stored managed with ⟨record, inserts⟩
                  rcases usesCam_of_insertedRecord inserts with ⟨decodedCam, uses, _⟩
                  have same := sameMessage_decode client unconfused.headers decoder
                    decodedData default vehdata default
                  exact absurd (uses.of_sameMessage same) (unconfused.unused decodedCam)
              · next managed =>
                  rw [List.mem_singleton.mp member]
                  cases reads.symm.trans (readAs_of_denm managed)
                  exact allocated
              · cases member
        · cases member

/-- A message in memory that no decoder has written, with the pointer to a DENM. -/
def staleDenm : EtsiDecodedData :=
  { (default : EtsiDecodedData) with
    type := .etsiDecodedCam
    decodedMsg := some ⟨.denm, .denm, ⟨0, 0, 0⟩⟩ }

theorem not_rejectsHeaders_of_keepsTypes
    (keeps : KeepsTypes haversineDist client map reception decoder) :
    ¬RejectsHeaders reception := by
  intro rejected
  have decoded := @decode_of_rejected client reception rejected ⟨staleDenm, decoder, default⟩
  have typed := keeps staleDenm default
    (.read ⟨.denm, .denm, ⟨0, 0, 0⟩⟩
      (if client.options.enableEnhancedCAMs then .camEnhanced else .cam)) (by
        apply List.mem_append_right
        simp only [processingUses, decoded]
        exact List.mem_cons_self)
  cases enhanced : client.options.enableEnhancedCAMs <;>
    simp [ObjectUse.Typed, enhanced] at typed

theorem events_subset_checkDecoded (decodedData : EtsiDecodedData)
    (events : List DecoderEvent) (code : AsnCode) (decoded : Option AsnObject) :
    events ⊆ (DecoderFrontend.checkDecoded decodedData events code decoded).events := by
  cases decoded with
  | none => exact List.Subset.refl _
  | some object =>
      by_cases success : code = .rcOk
      · rw [DecoderFrontend.checkDecoded, if_pos success]
        exact List.Subset.refl _
      · rw [DecoderFrontend.checkDecoded, if_neg success]
        exact List.subset_append_left _ _

theorem DecodesTwice.decode_eq (twice : DecodesTwice client reception) (locals : Locals) :
    decode client reception locals = client.decodeFrontend.decodeBareCam reception.oracle
      reception.bufsize locals.decodedData := by
  have nonempty : ¬reception.bufsize ≤ 0 := by
    have positive := twice.nonempty
    omega
  have known : isEnumValidEtsiMessage messageCam ≠ 0 := by decide
  simp only [decode, DecoderFrontend.decodeEtsi, if_neg nonempty, value_bind, twice.path,
    Bool.false_eq_true, if_false, DecoderFrontend.decodeFacility, value_readCell,
    twice.messageID, if_pos known, if_true, value_pure]

theorem not_decodesTwice_of_keepsTypes
    (keeps : KeepsTypes haversineDist client map reception decoder) :
    ¬DecodesTwice client reception := by
  intro twice
  rcases Option.isSome_iff_exists.mp twice.left with ⟨object, first⟩
  have into : ObjectUse.decodeInto object client.decodeFrontend.camDescriptor ∈
      decodingUses (decode client reception ⟨default, decoder, default⟩) := by
    rw [twice.decode_eq, decodingUses, List.mem_filterMap]
    refine ⟨_, events_subset_checkDecoded _ _ _ _
      (List.mem_cons_of_mem _ (List.mem_singleton.mpr rfl)), ?_⟩
    change Option.map _ (reception.oracle.decode 0 ⟨.cam, none, 0, reception.bufsize⟩).2 = _
    rw [first]
    rfl
  have typed := keeps default default _ (List.mem_append_left _ into)
  have allocated : object.allocatedAs = .cam := decode_allocatedAs first
  have enhanced : client.decodeFrontend.camDescriptor = .camEnhanced := if_pos twice.enhanced
  cases allocated.symm.trans (typed.trans enhanced)

theorem structFree_mem_of_usesCam (linked : map.Linked) {locals : Locals}
    {decodedCam : DecodedCam} (uses : UsesCam client map reception locals decodedCam)
    {object : AsnObject}
    (decodedMsg : (decode client reception locals).decodedData.decodedMsg = some object) :
    ObjectUse.structFree object
        (if client.options.enableEnhancedCAMs then .cam else .camEnhanced) ∈
      processingUses haversineDist client map reception locals := by
  have managed := manageMessage_of_some haversineDist (insertedRecord_of_usesCam uses)
  rcases linked.perform_isSome haversineDist (.insert (vehdataOf map reception
    locals.vehdata (decode client reception locals).decodedData decodedCam)) with
    ⟨_, _, performed⟩
  rcases Option.map_eq_some_iff.mp performed with ⟨result, inserted, _⟩
  rw [inserted, Option.map_some] at managed
  have reads : readAs client (decode client reception locals).decodedData.type =
      some (if client.options.enableEnhancedCAMs then .camEnhanced else .cam) := by
    rcases uses.type with type | type
    · rw [type]
      rfl
    · rw [type]
      rfl
  simp only [processingUses, uses.ok, ne_eq, not_true_eq_false, if_false, decodedMsg, reads,
    managed]
  exact List.mem_cons_of_mem _ (List.mem_singleton.mpr rfl)

theorem not_usesCam_of_keepsTypes (linked : map.Linked)
    (keeps : KeepsTypes haversineDist client map reception decoder) (decodedCam : DecodedCam) :
    ¬UsesCam client map reception ⟨default, decoder, default⟩ decodedCam := by
  intro uses
  have decodes := decodesTyped_decode (not_rejectsHeaders_of_keepsTypes keeps)
    (not_decodesTwice_of_keepsTypes keeps) ⟨default, decoder, default⟩
  rcases decodes.decoded uses.ok with ⟨object, decodedMsg, type⟩
  have freed := keeps default default _
    (List.mem_append_right _ (structFree_mem_of_usesCam linked uses decodedMsg))
  have allocated : object.allocatedAs = client.decodeFrontend.camDescriptor := by
    rcases uses.type with isGn | isNogn
    · rw [isGn] at type
      exact (Option.some.inj type).symm
    · rw [isNogn] at type
      exact (Option.some.inj type).symm
  have swapped := allocated.symm.trans freed
  cases enhanced : client.options.enableEnhancedCAMs <;>
    simp [DecoderFrontend.camDescriptor, SocketClient.decodeFrontend, enhanced] at swapped

theorem keepsTypes_iff_unconfused (haversineDist : ℚ → ℚ → ℚ → ℚ → ℚ) (linked : map.Linked) :
    KeepsTypes haversineDist client map reception decoder ↔
      Unconfused client map reception decoder := by
  constructor
  · intro keeps
    exact ⟨not_rejectsHeaders_of_keepsTypes keeps, not_decodesTwice_of_keepsTypes keeps,
      not_usesCam_of_keepsTypes linked keeps⟩
  · exact keepsTypes_of_unconfused

/-! ## Runs -/

/-- A received message, or an operation of another part of the program on the database. -/
inductive DatabaseEvent
  | message (reception : Reception) (locals : Locals)
  | perform (operation : MapOperation)

namespace DatabaseEvent

section

variable (haversineDist : ℚ → ℚ → ℚ → ℚ → ℚ) (client : SocketClient)

def step (map : LDMMap) : DatabaseEvent → Option LDMMap
  | .message reception locals =>
      (manageMessage haversineDist client map reception locals).map Prod.fst
  | .perform operation => map.step haversineDist operation

def KeepsTypes (map : LDMMap) : DatabaseEvent → Prop
  | .message reception locals =>
      Client.KeepsTypes haversineDist client map reception locals.decoder
  | .perform _ => True

def Unconfused (map : LDMMap) : DatabaseEvent → Prop
  | .message reception locals => Client.Unconfused client map reception locals.decoder
  | .perform _ => True

end

theorem step_linked {map next : LDMMap} (linked : map.Linked) {event : DatabaseEvent}
    (stepped : step haversineDist client map event = some next) : next.Linked := by
  cases event with
  | message reception locals =>
      rcases Option.map_eq_some_iff.mp stepped with ⟨⟨after, outcome⟩, managed, rfl⟩
      cases record : insertedRecord client map reception locals with
      | none =>
          rcases manageMessage_of_none record managed with ⟨rfl, _⟩
          exact linked
      | some vehdata =>
          rw [manageMessage_of_some haversineDist record] at managed
          rcases Option.map_eq_some_iff.mp managed with ⟨result, inserted, equal⟩
          cases equal
          exact linked.insert haversineDist inserted
  | perform operation => exact linked.step haversineDist stepped

/-- In a run from an empty database every use of a decoded object is typed exactly if no
message has its headers rejected, is decoded twice as a bare CAM, or updates the database. -/
theorem run_keepsTypes_iff (haversineDist : ℚ → ℚ → ℚ → ℚ → ℚ) (client : SocketClient)
    (memory : Nat → UninitializedPHpoints) (events : List DatabaseEvent) :
    Execution.Always (step haversineDist client) (KeepsTypes haversineDist client)
        (.empty memory) events ↔
      Execution.Always (step haversineDist client) (Unconfused client) (.empty memory)
        events := by
  apply Execution.Always.iff_of_invariant LDMMap.Linked (fun _ => True)
  · intro map event next linked _ _ stepped
    exact step_linked linked stepped
  · intro map event linked _
    cases event with
    | message reception locals => exact keepsTypes_iff_unconfused haversineDist linked
    | perform operation => exact Iff.rfl
  · exact (LDMMap.wellFormed_empty _).linked
  · exact fun _ _ => trivial

/-- A plain CAM is freed as an enhanced one. -/
theorem not_keepsTypes_of_cam :
    ¬Execution.Always (step LDMMap.noDist ⟨⟨false, true⟩, "", false⟩)
      (KeepsTypes LDMMap.noDist ⟨⟨false, true⟩, "", false⟩) (.empty default)
      [.message (camReception 100) default] := by
  intro always
  have linked := (LDMMap.wellFormed_empty (.empty default)).linked
  apply not_usesCam_of_keepsTypes linked always.1 (.cam standingCam)
  constructor
  · decide +kernel
  · exact .inl (by decide +kernel)
  · rfl
  · decide +kernel

end DatabaseEvent

end AIM.Client
