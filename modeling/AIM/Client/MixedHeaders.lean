import AIM.Client.AgeCheck

namespace AIM.Client

open Decoder Database

/-! # CAMs with and without GeoNetworking header

A CAM without a header is stored with a timestamp that no header can have, and the next
CAM of its station is compared with it. -/

theorem tooOld_uint64Max {received : UInt64} (receivedRange : received.toNat < 2 ^ 32) :
    tooOld received uint64Max = true := by
  have receivedCast : received.toInt64.toInt = received.toNat :=
    BitVec.toInt_eq_toNat_of_lt (by change 2 * received.toNat < 2 ^ 64; omega)
  have below : received < uint64Max := by
    rw [UInt64.lt_iff_toNat_lt]
    exact Nat.lt_trans receivedRange (by decide)
  have storedCast : uint64Max.toInt64.toInt = -1 := by decide
  have gap : -300000 < (received.toNat : Int) - -1 := by omega
  simp only [tooOld, receivedCast, storedCast, below, gap, decide_true, Bool.and_self,
    Bool.or_true]

theorem not_tooOld_self (timestamp : UInt64) : tooOld timestamp timestamp = false := by
  simp [tooOld]

/-! ## One CAM -/

def recordOf (client : SocketClient) (map : LDMMap) (reception : Reception)
    (locals : Locals) : Option VehicleData :=
  let decodedData := (decode client reception locals).decodedData
  (castCam client.options.enableEnhancedCAMs decodedData.decodedMsg).map
    (vehdataOf map reception locals.vehdata decodedData)

def timestampOf (client : SocketClient) (reception : Reception) (locals : Locals) : UInt64 :=
  gnTimestamp (decode client reception locals).decodedData

def IsCam (client : SocketClient) (reception : Reception) (locals : Locals) :
    Option Nat → Prop
  | some time => IsGnCam client reception locals time ∧
      (stationOf client reception locals).isSome
  | none => (decode client reception locals).retval = etsiDecoderOk ∧
      (decode client reception locals).decodedData.type = .etsiDecodedCamNogn ∧
      (stationOf client reception locals).isSome

instance (client : SocketClient) (reception : Reception) (locals : Locals) :
    (trueTime : Option Nat) → Decidable (IsCam client reception locals trueTime)
  | some _ => inferInstanceAs (Decidable (_ ∧ _))
  | none => inferInstanceAs (Decidable (_ ∧ _))

section

variable {client : SocketClient} {reception : Reception} {locals : Locals}
  {trueTime : Option Nat}

theorem IsCam.kind (isCam : IsCam client reception locals trueTime) :
    (decode client reception locals).retval = etsiDecoderOk ∧
      ((decode client reception locals).decodedData.type = .etsiDecodedCam ∨
        (decode client reception locals).decodedData.type = .etsiDecodedCamNogn) := by
  cases trueTime with
  | some time => exact ⟨isCam.1.1, .inl isCam.1.2.1⟩
  | none => exact ⟨isCam.1, .inr isCam.2.1⟩

theorem IsCam.station (isCam : IsCam client reception locals trueTime) :
    ∃ stationID, stationOf client reception locals = some stationID := by
  cases trueTime with
  | some time => exact Option.isSome_iff_exists.mp isCam.2
  | none => exact Option.isSome_iff_exists.mp isCam.2.2

theorem IsCam.timestamp (isCam : IsCam client reception locals trueTime) :
    match trueTime with
    | some time => (timestampOf client reception locals).toNat = time % 2 ^ 32
    | none => timestampOf client reception locals = uint64Max := by
  cases trueTime with
  | some time =>
      change UInt64.toNat (gnTimestamp _) = _
      rw [gnTimestamp, if_pos isCam.1.2.1, UInt32.toNat_toUInt64]
      exact isCam.1.2.2
  | none =>
      change gnTimestamp _ = _
      rw [gnTimestamp, if_neg]
      rw [isCam.2.1]
      decide

theorem recordOf_gnTimestamp {map : LDMMap} {vehdata : VehicleData}
    (record : recordOf client map reception locals = some vehdata) :
    vehdata.gnTimestamp = timestampOf client reception locals := by
  rcases Option.map_eq_some_iff.mp record with ⟨decodedCam, _, rfl⟩
  exact vehdataOf_gnTimestamp _ _ _

theorem manageMessage_cases (haversineDist : ℚ → ℚ → ℚ → ℚ → ℚ) {map : LDMMap}
    (wellFormed : map.WellFormed) (isCam : IsCam client reception locals trueTime)
    {stationID : UInt64} (station : stationOf client reception locals = some stationID) :
    ((outdated client.options map stationID (timestampOf client reception locals) ∧
        client.logfileName ≠ "") ∧
      manageMessage haversineDist client map reception locals = some (map, .discarded)) ∨
    (¬(outdated client.options map stationID (timestampOf client reception locals) ∧
        client.logfileName ≠ "") ∧
      ∃ vehdata next dbRetval freedAs,
        recordOf client map reception locals = some vehdata ∧
        vehdata.stationID = stationID ∧
        manageMessage haversineDist client map reception locals =
          some (next, .stored vehdata dbRetval freedAs) ∧
        dbRetval ≠ .ldmmapMapFull ∧ Replaces map next vehdata) := by
  rcases isCam.kind with ⟨ok, type⟩
  rcases Option.map_eq_some_iff.mp station with ⟨decodedCam, cast, same⟩
  by_cases discards : outdated client.options map stationID
      (timestampOf client reception locals) ∧ client.logfileName ≠ ""
  · left
    refine ⟨discards, ?_⟩
    rw [← same] at discards
    have update : camUpdate client map reception locals.vehdata
        (decode client reception locals).decodedData = some .discard := by
      rw [camUpdate, cast]
      exact if_pos discards
    simp only [manageMessage, ok, ne_eq, not_true_eq_false, if_false, if_pos type, manageCam,
      update]
  · right
    refine ⟨discards, ?_⟩
    rw [← same] at discards
    have inserts := insertedRecord_eq_some_iff.mpr ⟨ok, type, decodedCam, cast, discards, rfl⟩
    rcases manageMessage_stores haversineDist wellFormed inserts with
      ⟨next, dbRetval, freedAs, managed, notFull, replaces⟩
    refine ⟨_, next, dbRetval, freedAs, ?_, ?_, managed, notFull, replaces⟩
    · rw [recordOf, cast, Option.map_some]
    · rw [vehdataOf_stationID, same]

end

/-! ## Runs of CAMs of both kinds -/

/-- A received CAM, with its true time if it has a header, or a cleanup. -/
inductive MixedEvent
  | receive (reception : Reception) (locals : Locals) (trueTime : Option Nat)
  | cleanup (operation : MapOperation)

def MixedEvent.IsValid (client : SocketClient) : MixedEvent → Prop
  | .receive reception locals trueTime => IsCam client reception locals trueTime
  | .cleanup operation => IsCleanup operation

instance (client : SocketClient) : (event : MixedEvent) → Decidable (event.IsValid client)
  | .receive reception locals trueTime =>
      inferInstanceAs (Decidable (IsCam client reception locals trueTime))
  | .cleanup operation => inferInstanceAs (Decidable (IsCleanup operation))

/-- The database, the true times of the headers that were processed for every station, the
last one first, and the true time of the header that its record comes from. -/
structure MixedDatabase where
  map : LDMMap
  processed : UInt64 → List Nat
  storedTime : UInt64 → Option Nat

namespace MixedDatabase

def start (memory : Nat → UninitializedPHpoints) : MixedDatabase :=
  ⟨.empty memory, fun _ => [], fun _ => none⟩

def processedAfter (state : MixedDatabase) :
    Option UInt64 → Option Nat → UInt64 → List Nat
  | some stationID, some time =>
      Function.update state.processed stationID (time :: state.processed stationID)
  | _, _ => state.processed

def storedTimeAfter (state : MixedDatabase) (trueTime : Option Nat) :
    Outcome → UInt64 → Option Nat
  | .stored vehdata dbRetval _ =>
      if dbRetval = .ldmmapMapFull then state.storedTime
      else Function.update state.storedTime vehdata.stationID trueTime
  | _ => state.storedTime

/-- The last header that was processed for the station is less than five minutes older, and
no header that was processed for it is as new. -/
def Newer (state : MixedDatabase) (stationID : UInt64) (time : Nat) : Prop :=
  (∀ earlier ∈ state.processed stationID, earlier < time) ∧
    ∀ last ∈ (state.processed stationID).head?, time - last < 300000

instance (state : MixedDatabase) (stationID : UInt64) (time : Nat) :
    Decidable (state.Newer stationID time) :=
  @instDecidableAnd _ _ inferInstance (Option.decidableForallMem _)

section

variable (haversineDist : ℚ → ℚ → ℚ → ℚ → ℚ) (client : SocketClient)

def step (state : MixedDatabase) : MixedEvent → Option MixedDatabase
  | .receive reception locals trueTime =>
      (manageMessage haversineDist client state.map reception locals).map fun result =>
        ⟨result.1, state.processedAfter (stationOf client reception locals) trueTime,
          state.storedTimeAfter trueTime result.2⟩
  | .cleanup operation =>
      (state.map.step haversineDist operation).map fun next =>
        { state with map := next }

/-- A CAM whose header is newer than the ones processed for its station is stored. -/
def StoresNewer (state : MixedDatabase) : MixedEvent → Prop
  | .receive reception locals (some time) =>
      ∀ stationID ∈ stationOf client reception locals, state.Newer stationID time →
        ∃ next, state.step haversineDist client (.receive reception locals (some time)) =
            some next ∧
          (next.map.entry stationID).map ReturnedVehicleData.vehData =
            recordOf client state.map reception locals
  | _ => True

/-- What is stored for the station, if anything, has a header that is not newer as far as
the wrapped timestamps tell, unless the client does not log. -/
def Comparable (state : MixedDatabase) : MixedEvent → Prop
  | .receive reception locals (some time) =>
      ∀ stationID ∈ stationOf client reception locals, state.Newer stationID time →
        client.logfileName = "" ∨ state.map.entry stationID = none ∨
          ∃ stored, state.storedTime stationID = some stored ∧
            ¬SerialNumber.Older 300000 (time % 2 ^ 32 : Nat) (stored % 2 ^ 32 : Nat)
  | _ => True

end

/-- What a stored record says about its header. -/
def Stamps (vehdata : VehicleData) : Option Nat → Prop
  | some time => vehdata.gnTimestamp.toNat = time % 2 ^ 32
  | none => vehdata.gnTimestamp = uint64Max

structure Tracks (state : MixedDatabase) : Prop where
  wellFormed : state.map.WellFormed
  stamps : ∀ {stationID stored}, InRange stationID →
    state.map.entry stationID = some stored →
      Stamps stored.vehData (state.storedTime stationID)

theorem tracks_start (memory : Nat → UninitializedPHpoints) : (start memory).Tracks where
  wellFormed := LDMMap.wellFormed_empty _
  stamps _ found := nomatch found

section

variable {haversineDist : ℚ → ℚ → ℚ → ℚ → ℚ} {client : SocketClient}
  {state next : MixedDatabase} {reception : Reception} {locals : Locals}
  {trueTime : Option Nat} {stationID : UInt64}

def Discards (client : SocketClient) (state : MixedDatabase) (reception : Reception)
    (locals : Locals) (stationID : UInt64) : Prop :=
  outdated client.options state.map stationID (timestampOf client reception locals) ∧
    client.logfileName ≠ ""

theorem receive_cases (haversineDist : ℚ → ℚ → ℚ → ℚ → ℚ) (tracks : state.Tracks)
    (isCam : IsCam client reception locals trueTime)
    (station : stationOf client reception locals = some stationID) :
    ∃ next, state.step haversineDist client (.receive reception locals trueTime) = some next ∧
      ((Discards client state reception locals stationID ∧ next.map = state.map ∧
          next.storedTime = state.storedTime) ∨
        (¬Discards client state reception locals stationID ∧
          ∃ vehdata, recordOf client state.map reception locals = some vehdata ∧
            vehdata.stationID = stationID ∧ Replaces state.map next.map vehdata ∧
            next.storedTime = Function.update state.storedTime stationID trueTime)) := by
  rcases manageMessage_cases haversineDist tracks.wellFormed isCam station with
    ⟨discards, managed⟩ |
    ⟨keeps, vehdata, map, dbRetval, freedAs, record, same, managed, notFull, replaces⟩
  · refine ⟨_, congrArg (Option.map _) managed, ?_⟩
    exact .inl ⟨discards, rfl, rfl⟩
  · refine ⟨_, congrArg (Option.map _) managed, ?_⟩
    refine .inr ⟨keeps, vehdata, record, same, replaces, ?_⟩
    rw [← same]
    exact if_neg notFull

theorem Tracks.step (tracks : state.Tracks) {event : MixedEvent} (valid : event.IsValid client)
    (stepped : state.step haversineDist client event = some next) : next.Tracks := by
  cases event with
  | receive reception locals trueTime =>
      rcases IsCam.station valid with ⟨stationID, station⟩
      rcases receive_cases haversineDist tracks valid station with ⟨after, taken, cases⟩
      cases taken.symm.trans stepped
      rcases cases with ⟨_, map, storedTime⟩ |
        ⟨_, vehdata, record, same, replaces, storedTime⟩
      · constructor
        · rw [map]
          exact tracks.wellFormed
        · rw [map, storedTime]
          exact tracks.stamps
      · refine ⟨replaces.wellFormed, ?_⟩
        intro other stored inRange found
        rw [storedTime]
        subst same
        by_cases same : other = vehdata.stationID
        · subst same
          rcases replaces.entry with ⟨address, entry⟩
          cases entry.symm.trans found
          have timestamp := IsCam.timestamp valid
          rw [Function.update_self]
          rw [← recordOf_gnTimestamp record] at timestamp
          cases trueTime with
          | some time => exact timestamp
          | none => exact timestamp
        · rw [replaces.others other inRange same] at found
          rw [Function.update_of_ne same]
          exact tracks.stamps inRange found
  | cleanup operation =>
      rcases Option.map_eq_some_iff.mp stepped with ⟨map, cleaned, rfl⟩
      rcases IsCleanup.fewer valid tracks.wellFormed cleaned with ⟨wellFormed, fewer⟩
      refine ⟨wellFormed, ?_⟩
      intro stationID stored inRange found
      exact tracks.stamps inRange (fewer found)

theorem Tracks.outdated_iff (tracks : state.Tracks)
    (ageCheck : client.options.ageCheckEnabled = true) (inRange : InRange stationID)
    {time : Nat} (isCam : IsCam client reception locals (some time)) :
    outdated client.options state.map stationID (timestampOf client reception locals) = false ↔
      state.map.entry stationID = none ∨
        ∃ stored, state.storedTime stationID = some stored ∧
          ¬SerialNumber.Older 300000 (time % 2 ^ 32 : Nat) (stored % 2 ^ 32 : Nat) := by
  have received : (timestampOf client reception locals).toNat = time % 2 ^ 32 := isCam.timestamp
  have receivedRange : (timestampOf client reception locals).toNat < 2 ^ 32 := by omega
  have fromHeader : timestampOf client reception locals ≠ uint64Max := by
    intro equal
    rw [equal] at receivedRange
    exact absurd receivedRange (by decide)
  rw [← Bool.not_eq_true, Client.outdated_iff]
  cases entry : state.map.entry stationID with
  | none => simp
  | some stored =>
      have stamps := tracks.stamps inRange entry
      cases storedTime : state.storedTime stationID with
      | none =>
          rw [storedTime] at stamps
          have blocked := tooOld_uint64Max receivedRange
          rw [← show stored.vehData.gnTimestamp = uint64Max from stamps] at blocked
          simp [ageCheck, fromHeader, blocked]
      | some time =>
          rw [storedTime] at stamps
          have stampRange : stored.vehData.gnTimestamp.toNat = time % 2 ^ 32 := stamps
          have older := tooOld_iff_older receivedRange
            (show stored.vehData.gnTimestamp.toNat < 2 ^ 32 by omega)
          rw [received, stampRange] at older
          simp [ageCheck, fromHeader, older]

theorem Tracks.stored_iff (haversineDist : ℚ → ℚ → ℚ → ℚ → ℚ) (tracks : state.Tracks)
    {time : Nat} (isCam : IsCam client reception locals (some time))
    (station : stationOf client reception locals = some stationID) :
    (∃ next, state.step haversineDist client (.receive reception locals (some time)) =
          some next ∧
        (next.map.entry stationID).map ReturnedVehicleData.vehData =
          recordOf client state.map reception locals) ↔
      ¬Discards client state reception locals stationID := by
  rcases receive_cases haversineDist tracks isCam station with ⟨after, taken, cases⟩
  constructor
  · rintro ⟨next, stepped, record⟩ discards
    cases taken.symm.trans stepped
    rcases cases with ⟨_, map, _⟩ | ⟨keeps, _⟩
    · rcases Client.outdated_iff.mp discards.1 with ⟨_, _, stored, entry, old⟩
      rw [map, entry] at record
      rw [recordOf_gnTimestamp record.symm, not_tooOld_self] at old
      cases old
    · exact keeps discards
  · intro keeps
    refine ⟨after, taken, ?_⟩
    rcases cases with ⟨discards, _⟩ | ⟨_, vehdata, record, same, replaces, _⟩
    · exact absurd discards keeps
    · rcases replaces.entry with ⟨address, entry⟩
      rw [← same, entry, record]
      rfl

theorem Tracks.storesNewer_iff (haversineDist : ℚ → ℚ → ℚ → ℚ → ℚ) (tracks : state.Tracks)
    (ageCheck : client.options.ageCheckEnabled = true) {event : MixedEvent}
    (valid : event.IsValid client) :
    state.StoresNewer haversineDist client event ↔ state.Comparable client event := by
  cases event with
  | receive reception locals trueTime =>
      cases trueTime with
      | none => exact Iff.rfl
      | some time =>
          have isCam : IsCam client reception locals (some time) := valid
          rcases isCam.station with ⟨stationID, station⟩
          rcases Option.map_eq_some_iff.mp station with ⟨decodedCam, _, same⟩
          have range := inRange_toUInt64 decodedCam.base.stationID
          rw [same] at range
          have stored := tracks.stored_iff haversineDist isCam station
          have passes := tracks.outdated_iff ageCheck range isCam
          simp only [StoresNewer, Comparable, station, Option.mem_def, Option.some.injEq,
            forall_eq']
          rw [stored, Discards, not_and_or, Bool.not_eq_true, passes, not_not, or_comm]
  | cleanup operation => exact Iff.rfl

end

/-- With the age check enabled, every newer CAM with a header is stored in a run exactly if
each of them meets a comparable record, or none, or the client does not log. -/
theorem run_storesNewer_iff (haversineDist : ℚ → ℚ → ℚ → ℚ → ℚ) (client : SocketClient)
    (ageCheck : client.options.ageCheckEnabled = true)
    (memory : Nat → UninitializedPHpoints) (events : List MixedEvent)
    (valid : ∀ event ∈ events, event.IsValid client) :
    Execution.Always (step haversineDist client) (StoresNewer haversineDist client)
        (start memory) events ↔
      Execution.Always (step haversineDist client) (Comparable client) (start memory)
        events := by
  apply Execution.Always.iff_of_invariant Tracks (MixedEvent.IsValid client)
  · intro state event next tracks isValid _ stepped
    exact tracks.step isValid stepped
  · intro state event tracks isValid
    exact tracks.storesNewer_iff haversineDist ageCheck isValid
  · exact tracks_start memory
  · exact valid

/-! A CAM without header between two CAMs with headers. -/

def bareCamReception : Reception where
  packet address := if address = 1 then messageCam else 0
  bufsize := 30
  oracle := camOracle
  timestampUs := 0
  rssiFromIw _ := rssiUnavailable

def bareBetween : List MixedEvent :=
  [.receive (camReception 100) default (some 100), .receive bareCamReception default none,
    .receive (camReception 200) default (some 200)]

def loggingClient : SocketClient := TimedDatabase.ageCheckingClient "log"

theorem run_storesNewer_iff_bareBetween :
    Execution.Always (step LDMMap.noDist loggingClient)
        (StoresNewer LDMMap.noDist loggingClient) (start default) bareBetween ↔
      Execution.Always (step LDMMap.noDist loggingClient) (Comparable loggingClient)
        (start default) bareBetween :=
  run_storesNewer_iff LDMMap.noDist loggingClient rfl default bareBetween
    (by decide +kernel)

/-- The second CAM with a header is discarded, although it is newer than the first. -/
theorem not_storesNewer_of_bareBetween :
    (∀ event ∈ bareBetween, event.IsValid loggingClient) ∧
    ¬Execution.Always (step LDMMap.noDist loggingClient)
      (StoresNewer LDMMap.noDist loggingClient) (start default) bareBetween := by
  refine ⟨by decide +kernel, fun always => ?_⟩
  have third := always.after [MixedEvent.receive (camReception 100) default (some 100),
    MixedEvent.receive bareCamReception default none]
    (Option.some_get (by decide +kernel)).symm
  rcases third.1 12 (by decide +kernel) (by decide +kernel) with ⟨next, taken, record⟩
  have stamp := congrArg (Option.map VehicleData.gnTimestamp) record
  cases (Option.some_get (by decide +kernel)).trans taken
  exact absurd stamp (by decide +kernel)

end MixedDatabase

end AIM.Client
