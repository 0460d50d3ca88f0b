import AIM.Client.ManageMessage
import AIM.Database.Operations

namespace AIM.Client

open Decoder Database

/-! # Logging and the database

Two clients that differ in the log file name process the same packets, with the same
clock and signal readings and the same contents of uninitialised memory. -/

structure PacketInput where
  reception : Reception
  locals : Locals

structure TwoRuns where
  first : LDMMap
  second : LDMMap

section

variable (haversineDist : ℚ → ℚ → ℚ → ℚ → ℚ) (client : SocketClient)

def SocketClient.withLogfile (logfileName : String) : SocketClient :=
  { client with logfileName := logfileName }

/-- The database after a packet, unless the client crashes. -/
def updated (map : LDMMap) (input : PacketInput) : Option LDMMap :=
  (manageMessage haversineDist client map input.reception input.locals).map Prod.fst

/-- The packet is a decoded CAM that meets the condition of the age check. -/
def MeetsDiscard (map : LDMMap) (input : PacketInput) : Prop :=
  let result := decode client input.reception input.locals
  result.retval = etsiDecoderOk ∧
    (result.decodedData.type = .etsiDecodedCam ∨
      result.decodedData.type = .etsiDecodedCamNogn) ∧
    ∃ decodedCam ∈ castCam client.options.enableEnhancedCAMs result.decodedData.decodedMsg,
      outdated client.options map decodedCam.base.stationID.toUInt64
        (gnTimestamp result.decodedData) = true

instance (map : LDMMap) (input : PacketInput) :
    Decidable (MeetsDiscard client map input) :=
  inferInstanceAs (Decidable (_ ∧ _ ∧ _))

variable (firstLogfile secondLogfile : String)

def TwoRuns.step (runs : TwoRuns) (input : PacketInput) : Option TwoRuns :=
  match updated haversineDist (client.withLogfile firstLogfile) runs.first input,
      updated haversineDist (client.withLogfile secondLogfile) runs.second input with
  | some first, some second => some ⟨first, second⟩
  | _, _ => none

/-- Both clients have the same database after the packet, or both crash. -/
def TwoRuns.Agree (runs : TwoRuns) (input : PacketInput) : Prop :=
  updated haversineDist (client.withLogfile firstLogfile) runs.first input =
    updated haversineDist (client.withLogfile secondLogfile) runs.second input

end

variable {haversineDist : ℚ → ℚ → ℚ → ℚ → ℚ} {client : SocketClient} {map : LDMMap}
  {input : PacketInput}

theorem camUpdate_withLogfile {reception : Reception} {memory : VehicleData}
    {decodedData : EtsiDecodedData}
    (upToDate : ∀ decodedCam,
      castCam client.options.enableEnhancedCAMs decodedData.decodedMsg = some decodedCam →
        outdated client.options map decodedCam.base.stationID.toUInt64
          (gnTimestamp decodedData) = false) (logfileName : String) :
    camUpdate (client.withLogfile logfileName) map reception memory decodedData =
      (castCam client.options.enableEnhancedCAMs decodedData.decodedMsg).map
        fun decodedCam => .insert (vehdataOf map reception memory decodedData decodedCam) := by
  have options : (client.withLogfile logfileName).options = client.options := rfl
  rw [camUpdate, options]
  cases cast : castCam client.options.enableEnhancedCAMs decodedData.decodedMsg with
  | none => rfl
  | some decodedCam =>
      apply if_neg
      rintro ⟨outdated, _⟩
      have fresh := upToDate decodedCam cast
      rw [outdated] at fresh
      cases fresh

theorem updated_withLogfile (haversineDist : ℚ → ℚ → ℚ → ℚ → ℚ)
    (kept : ¬MeetsDiscard client map input) (firstLogfile secondLogfile : String) :
    updated haversineDist (client.withLogfile firstLogfile) map input =
      updated haversineDist (client.withLogfile secondLogfile) map input := by
  rcases input with ⟨reception, locals⟩
  have decodes : ∀ logfileName, decode (client.withLogfile logfileName) reception locals =
      decode client reception locals := fun _ => rfl
  have denm : ∀ logfileName, (client.withLogfile logfileName).denmDecodingEnabled =
      client.denmDecodingEnabled := fun _ => rfl
  simp only [updated, manageMessage, decodes, denm]
  by_cases ok : (decode client reception locals).retval = etsiDecoderOk
  · by_cases type : (decode client reception locals).decodedData.type = .etsiDecodedCam ∨
        (decode client reception locals).decodedData.type = .etsiDecodedCamNogn
    · have upToDate : ∀ decodedCam, castCam client.options.enableEnhancedCAMs
          (decode client reception locals).decodedData.decodedMsg = some decodedCam →
          outdated client.options map decodedCam.base.stationID.toUInt64
            (gnTimestamp (decode client reception locals).decodedData) = false := by
        intro decodedCam cast
        exact Bool.eq_false_iff.mpr fun old => kept ⟨ok, type, decodedCam, cast, old⟩
      simp only [ok, ne_eq, not_true_eq_false, if_false, if_pos type, manageCam,
        camUpdate_withLogfile upToDate]
      rfl
    · simp only [if_neg type]
  · simp only [ne_eq, ok, not_false_eq_true, if_true]

/-- The databases stay equal throughout two runs as long as no packet meets the
condition of the age check. -/
theorem runs_agree (haversineDist : ℚ → ℚ → ℚ → ℚ → ℚ) (client : SocketClient)
    (firstLogfile secondLogfile : String) (map : LDMMap) (inputs : List PacketInput)
    (kept : Execution.Always
      (TwoRuns.step haversineDist client firstLogfile secondLogfile)
      (fun runs input => ¬MeetsDiscard client runs.first input) ⟨map, map⟩ inputs) :
    Execution.Always (TwoRuns.step haversineDist client firstLogfile secondLogfile)
      (TwoRuns.Agree haversineDist client firstLogfile secondLogfile) ⟨map, map⟩
      inputs := by
  refine Execution.Always.of_invariant (fun runs => runs.first = runs.second)
    (fun _ => True) ?_ ?_ rfl (fun _ _ => trivial) kept
  · intro runs input next same _ kept stepped
    rcases runs with ⟨first, second⟩
    cases show first = second from same
    have equal := updated_withLogfile haversineDist kept firstLogfile secondLogfile
    dsimp only [TwoRuns.step] at stepped
    split at stepped
    · next firstNext secondNext firstUpdated secondUpdated =>
        cases stepped
        rw [firstUpdated, secondUpdated] at equal
        exact Option.some.inj equal
    · cases stepped
  · intro runs input same _ kept
    rcases runs with ⟨first, second⟩
    cases show first = second from same
    exact updated_withLogfile haversineDist kept firstLogfile secondLogfile

theorem updated_of_meetsDiscard (haversineDist : ℚ → ℚ → ℚ → ℚ → ℚ)
    (discards : MeetsDiscard client map input) {logfileName : String}
    (logs : logfileName ≠ "") :
    updated haversineDist (client.withLogfile logfileName) map input = some map := by
  rcases discards with ⟨ok, type, decodedCam, cast, old⟩
  have update : camUpdate (client.withLogfile logfileName) map input.reception
      input.locals.vehdata (decode client input.reception input.locals).decodedData =
        some .discard := by
    unfold camUpdate
    rw [show castCam (client.withLogfile logfileName).options.enableEnhancedCAMs _ =
      some decodedCam from cast]
    exact if_pos ⟨old, logs⟩
  have decodes : decode (client.withLogfile logfileName) input.reception input.locals =
      decode client input.reception input.locals := rfl
  simp only [updated, manageMessage, decodes, ok, ne_eq, not_true_eq_false, if_false,
    if_pos type, manageCam, update, Option.map_some]

theorem tooOld_ne {received stored : UInt64} (old : tooOld received stored = true) :
    received ≠ stored := by
  rintro rfl
  simp [tooOld] at old

theorem not_agree_of_meetsDiscard (haversineDist : ℚ → ℚ → ℚ → ℚ → ℚ)
    (wellFormed : map.WellFormed) (discards : MeetsDiscard client map input)
    {logfileName : String} (logs : logfileName ≠ "") :
    ¬TwoRuns.Agree haversineDist client "" logfileName ⟨map, map⟩ input := by
  intro agree
  unfold TwoRuns.Agree at agree
  rw [updated_of_meetsDiscard haversineDist discards logs] at agree
  rcases discards with ⟨ok, type, decodedCam, cast, old⟩
  have record : insertedRecord (client.withLogfile "") map input.reception input.locals =
      some (vehdataOf map input.reception input.locals.vehdata
        (decode client input.reception input.locals).decodedData decodedCam) :=
    insertedRecord_eq_some_iff.mpr
      ⟨ok, type, decodedCam, cast, fun logged => logged.2 rfl, rfl⟩
  rcases manageMessage_stores haversineDist wellFormed record with
    ⟨next, dbRetval, freedAs, managed, _, replaces⟩
  simp only [updated, managed, Option.map_some, Option.some.injEq] at agree
  subst agree
  rcases replaces.entry with ⟨address, entry⟩
  rcases outdated_iff.mp old with ⟨_, _, stored, found, older⟩
  rw [vehdataOf_stationID] at entry
  cases entry.symm.trans found
  rw [vehdataOf_gnTimestamp] at older
  exact tooOld_ne older rfl

theorem updated_wellFormed {next : LDMMap} (wellFormed : map.WellFormed)
    (stepped : updated haversineDist client map input = some next) : next.WellFormed := by
  rcases Option.map_eq_some_iff.mp stepped with ⟨⟨after, outcome⟩, managed, rfl⟩
  rcases manageMessage_keeps_or_stores wellFormed managed with
    ⟨rfl, _⟩ | ⟨vehdata, dbRetval, freedAs, _, _, _, replaces⟩
  · exact wellFormed
  · exact replaces.wellFormed

theorem runs_agree_iff (haversineDist : ℚ → ℚ → ℚ → ℚ → ℚ) (client : SocketClient)
    {logfileName : String} (logs : logfileName ≠ "") (wellFormed : map.WellFormed)
    (inputs : List PacketInput) :
    Execution.Always (TwoRuns.step haversineDist client "" logfileName)
        (TwoRuns.Agree haversineDist client "" logfileName) ⟨map, map⟩ inputs ↔
      Execution.Always (TwoRuns.step haversineDist client "" logfileName)
        (fun runs input => ¬MeetsDiscard client runs.first input) ⟨map, map⟩ inputs := by
  apply Execution.Always.iff_of_invariant
    (fun runs => runs.first = runs.second ∧ runs.first.WellFormed) (fun _ => True)
  · intro runs input next invariant _ kept stepped
    rcases runs with ⟨first, second⟩
    rcases invariant with ⟨same, firstWellFormed⟩
    cases show first = second from same
    have equal := updated_withLogfile haversineDist kept "" logfileName
    dsimp only [TwoRuns.step] at stepped
    split at stepped
    · next firstNext secondNext firstUpdated secondUpdated =>
        cases stepped
        rw [firstUpdated, secondUpdated] at equal
        exact ⟨Option.some.inj equal, updated_wellFormed firstWellFormed firstUpdated⟩
    · cases stepped
  · intro runs input invariant _
    rcases runs with ⟨first, second⟩
    rcases invariant with ⟨same, firstWellFormed⟩
    cases show first = second from same
    constructor
    · intro agree discards
      exact not_agree_of_meetsDiscard haversineDist firstWellFormed discards logs agree
    · intro kept
      exact updated_withLogfile haversineDist kept "" logfileName
  · exact ⟨rfl, wellFormed⟩
  · exact fun _ _ => trivial

/-! The two CAMs of one station that arrive in the wrong order. -/

def swappedInputs : List PacketInput :=
  [⟨camReception 200, default⟩, ⟨camReception 100, default⟩]

def silentClient : SocketClient := ⟨⟨false, true⟩, "", false⟩

theorem runs_agree_in_order :
    Execution.Always (TwoRuns.step LDMMap.noDist silentClient "" "log")
      (TwoRuns.Agree LDMMap.noDist silentClient "" "log") ⟨.empty default, .empty default⟩
      swappedInputs.reverse :=
  runs_agree LDMMap.noDist silentClient "" "log" (.empty default) swappedInputs.reverse
    (by decide +kernel)

/-- With a log file the second CAM is discarded, without one it replaces the first. -/
theorem not_runs_agree_of_swapped :
    ¬Execution.Always (TwoRuns.step LDMMap.noDist silentClient "" "log")
      (TwoRuns.Agree LDMMap.noDist silentClient "" "log") ⟨.empty default, .empty default⟩
      swappedInputs := by
  intro always
  have second := always.after [PacketInput.mk (camReception 200) default]
    (Option.some_get (by decide +kernel)).symm
  have timestamps := congrArg
    (Option.map fun map => (map.entry 12).map (·.vehData.gnTimestamp)) second.1
  exact absurd timestamps (by decide +kernel)

end AIM.Client
