import AIM.Client.ManageMessage
import AIM.Database.Operations
import AIM.Foundation.SerialNumber

namespace AIM.Client

open Decoder Database

/-! # The age check

GeoNetworking timestamps are true times modulo `2 ^ 32`. The true time of the record
stored last for every station is tracked beside the database. -/

theorem tooOld_iff_older {received stored : UInt64} (receivedRange : received.toNat < 2 ^ 32)
    (storedRange : stored.toNat < 2 ^ 32) :
    tooOld received stored = true ↔
      SerialNumber.Older 300000 received.toNat stored.toNat := by
  have receivedCast : received.toInt64.toInt = received.toNat :=
    BitVec.toInt_eq_toNat_of_lt (by change 2 * received.toNat < 2 ^ 64; omega)
  have storedCast : stored.toInt64.toInt = stored.toNat :=
    BitVec.toInt_eq_toNat_of_lt (by change 2 * stored.toNat < 2 ^ 64; omega)
  simp only [tooOld, receivedCast, storedCast, SerialNumber.Older, Bool.or_eq_true,
    Bool.and_eq_true, decide_eq_true_eq, UInt64.lt_iff_toNat_lt]
  omega

theorem tooOld_iff_lt {received stored : UInt64} {receivedTime storedTime : Nat}
    (receivedWraps : received.toNat = receivedTime % 2 ^ 32)
    (storedWraps : stored.toNat = storedTime % 2 ^ 32)
    (close : |(receivedTime : Int) - storedTime| < 300000) :
    tooOld received stored = true ↔ receivedTime < storedTime := by
  rw [tooOld_iff_older (by omega) (by omega), receivedWraps, storedWraps]
  push_cast
  rw [SerialNumber.older_emod_iff (by decide) (by decide) close]
  omega

/-- The condition on times below five minutes apart, whatever number of times the
timestamps have wrapped around. -/
theorem tooOld_wraps_iff (rxTime storedTime : Nat)
    (close : |(rxTime : Int) - storedTime| < 300000) :
    tooOld (.ofNat (rxTime % 2 ^ 32)) (.ofNat (storedTime % 2 ^ 32)) = true ↔
      rxTime < storedTime := by
  have wraps (time : Nat) : (UInt64.ofNat (time % 2 ^ 32)).toNat = time % 2 ^ 32 :=
    UInt64.toNat_ofNat_of_lt' ((Nat.mod_lt _ (by decide)).trans (by decide))
  exact tooOld_iff_lt (wraps rxTime) (wraps storedTime) close

/-- The timestamp has just been reset. -/
theorem tooOld_wraps_iff_reset :
    tooOld (.ofNat ((2 ^ 32 + 3) % 2 ^ 32)) (.ofNat ((2 ^ 32 - 5) % 2 ^ 32)) = true ↔
      2 ^ 32 + 3 < 2 ^ 32 - 5 :=
  tooOld_wraps_iff (2 ^ 32 + 3) (2 ^ 32 - 5) (by decide)

/-! ## Runs of messages and cleanups -/

structure TimedDatabase where
  map : LDMMap
  trueTime : UInt64 → Nat

/-- A received CAM with its true time, or a cleanup of the database. -/
inductive TimedEvent
  | receive (reception : Reception) (locals : Locals) (trueTime : Nat)
  | cleanup (operation : MapOperation)

def stationOf (client : SocketClient) (reception : Reception) (locals : Locals) :
    Option UInt64 :=
  (castCam client.options.enableEnhancedCAMs
    (decode client reception locals).decodedData.decodedMsg).map
      fun decodedCam => decodedCam.base.stationID.toUInt64

/-- The message is a CAM with a GeoNetworking header, sent at the true time. -/
def IsGnCam (client : SocketClient) (reception : Reception) (locals : Locals)
    (trueTime : Nat) : Prop :=
  let result := decode client reception locals
  result.retval = etsiDecoderOk ∧ result.decodedData.type = .etsiDecodedCam ∧
    result.decodedData.gnTimestamp.toNat = trueTime % 2 ^ 32

instance (client : SocketClient) (reception : Reception) (locals : Locals)
    (trueTime : Nat) : Decidable (IsGnCam client reception locals trueTime) :=
  inferInstanceAs (Decidable (_ ∧ _))

def IsCleanup : MapOperation → Prop
  | .deleteOlderThan _ _ => True
  | .deleteOlderThanAndExecute _ _ => True
  | .clear => True
  | _ => False

instance : (operation : MapOperation) → Decidable (IsCleanup operation)
  | .deleteOlderThan _ _ | .deleteOlderThanAndExecute _ _ | .clear => isTrue trivial
  | .insert _ | .remove _ | .lookup _ => isFalse id

theorem IsCleanup.fewer {haversineDist : ℚ → ℚ → ℚ → ℚ → ℚ} {map next : LDMMap}
    {operation : MapOperation} (cleanup : IsCleanup operation) (wellFormed : map.WellFormed)
    (stepped : map.step haversineDist operation = some next) :
    next.WellFormed ∧ ∀ {stationID stored}, next.entry stationID = some stored →
      map.entry stationID = some stored := by
  cases operation with
  | deleteOlderThan now timeMilliseconds =>
      rw [LDMMap.step_deleteOlderThan] at stepped
      cases stepped
      exact ⟨wellFormed.deleteOlderThanAndExecute now timeMilliseconds,
        LDMMap.deleteOlderThanAndExecute_fewer now timeMilliseconds map⟩
  | deleteOlderThanAndExecute now timeMilliseconds =>
      cases stepped
      exact ⟨wellFormed.deleteOlderThanAndExecute now timeMilliseconds,
        LDMMap.deleteOlderThanAndExecute_fewer now timeMilliseconds map⟩
  | clear =>
      rcases wellFormed.clear with ⟨heap, cleared⟩
      simp only [LDMMap.step, LDMMap.perform, cleared, Option.map_some,
        Option.some.injEq] at stepped
      subst stepped
      refine ⟨LDMMap.wellFormed_empty heap, ?_⟩
      intro stationID stored found
      cases found
  | insert | remove | lookup => exact cleanup.elim

def ValidEvent (client : SocketClient) : TimedEvent → Prop
  | .receive reception locals trueTime => IsGnCam client reception locals trueTime
  | .cleanup operation => IsCleanup operation

instance (client : SocketClient) (event : TimedEvent) :
    Decidable (ValidEvent client event) := by
  cases event <;> unfold ValidEvent <;> infer_instance

namespace TimedDatabase

def start (memory : Nat → UninitializedPHpoints) : TimedDatabase :=
  ⟨.empty memory, fun _ => 0⟩

def record (state : TimedDatabase) (time : Nat) : LDMMap × Outcome → TimedDatabase
  | (next, .stored vehdata dbRetval _) =>
      if dbRetval = .ldmmapMapFull then ⟨next, state.trueTime⟩
      else ⟨next, Function.update state.trueTime vehdata.stationID time⟩
  | (next, _) => ⟨next, state.trueTime⟩

section

variable (haversineDist : ℚ → ℚ → ℚ → ℚ → ℚ) (client : SocketClient)

def step (state : TimedDatabase) : TimedEvent → Option TimedDatabase
  | .receive reception locals time =>
      (manageMessage haversineDist client state.map reception locals).map
        (state.record time)
  | .cleanup operation =>
      (state.map.step haversineDist operation).map fun next => ⟨next, state.trueTime⟩

def Close (state : TimedDatabase) : TimedEvent → Prop
  | .receive reception locals time =>
      ∀ stationID ∈ stationOf client reception locals,
        (state.map.entry stationID).isSome →
          |(time : Int) - state.trueTime stationID| < 300000
  | .cleanup _ => True

def IsOlder (state : TimedDatabase) : TimedEvent → Prop
  | .receive reception locals time =>
      ∃ stationID ∈ stationOf client reception locals,
        (state.map.entry stationID).isSome ∧ time < state.trueTime stationID
  | .cleanup _ => False

instance (state : TimedDatabase) : (event : TimedEvent) →
    Decidable (state.Close client event)
  | .receive _ _ _ => Option.decidableForallMem _
  | .cleanup _ => isTrue trivial

instance (state : TimedDatabase) : (event : TimedEvent) →
    Decidable (state.IsOlder client event)
  | .receive _ _ _ => Option.decidableExistsMem _
  | .cleanup _ => isFalse id

/-- A step does not take the time of a stored record back, and a message that is
older than the stored record leaves the database unchanged. -/
structure KeepsOrder (state : TimedDatabase) (event : TimedEvent) : Prop where
  monotone : ∀ {next}, state.step haversineDist client event = some next →
    ∀ stationID, InRange stationID → (state.map.entry stationID).isSome →
      (next.map.entry stationID).isSome →
        state.trueTime stationID ≤ next.trueTime stationID
  unchanged : ∀ {next}, state.step haversineDist client event = some next →
    state.IsOlder client event → next.map = state.map

end

/-- The stored timestamps are the true times modulo `2 ^ 32`. -/
structure Tracks (state : TimedDatabase) : Prop where
  wellFormed : state.map.WellFormed
  wraps : ∀ {stationID stored}, InRange stationID →
    state.map.entry stationID = some stored →
      stored.vehData.gnTimestamp.toNat = state.trueTime stationID % 2 ^ 32

theorem tracks_start (memory : Nat → UninitializedPHpoints) : (start memory).Tracks :=
  ⟨LDMMap.wellFormed_empty _, fun _ found => nomatch found⟩

variable {haversineDist : ℚ → ℚ → ℚ → ℚ → ℚ} {client : SocketClient}
  {state next : TimedDatabase}

structure Stores (client : SocketClient) (state next : TimedDatabase)
    (reception : Reception) (locals : Locals) (time : Nat) (stationID : UInt64) : Prop where
  station : stationOf client reception locals = some stationID
  inRange : InRange stationID
  kept : ¬(outdated client.options state.map stationID
      (gnTimestamp (decode client reception locals).decodedData) ∧
    client.logfileName ≠ "")
  wellFormed : next.map.WellFormed
  entry : ∃ stored, next.map.entry stationID = some stored ∧
    stored.vehData.gnTimestamp.toNat = time % 2 ^ 32
  others : ∀ other, InRange other → other ≠ stationID →
    next.map.entry other = state.map.entry other
  trueTime : next.trueTime = Function.update state.trueTime stationID time

theorem receive_cases (tracks : state.Tracks) {reception : Reception} {locals : Locals}
    {time : Nat} (isCam : IsGnCam client reception locals time)
    (stepped : state.step haversineDist client (.receive reception locals time) =
      some next) :
    next = state ∨ ∃ stationID, Stores client state next reception locals time stationID := by
  rcases Option.map_eq_some_iff.mp stepped with ⟨⟨map, outcome⟩, managed, rfl⟩
  rcases manageMessage_keeps_or_stores tracks.wellFormed managed with
    ⟨rfl, noRecord⟩ | ⟨vehdata, dbRetval, freedAs, recorded, rfl, notFull, replaces⟩
  · left
    cases outcome with
    | stored vehdata dbRetval freedAs => exact absurd rfl (noRecord _ _ _)
    | undecodable | discarded | denm | ignored => rfl
  · right
    have inRange := inRange_of_insertedRecord recorded
    rcases replaces with ⟨wellFormed, ⟨address, entry⟩, others⟩
    simp only [record, if_neg notFull]
    rcases insertedRecord_eq_some_iff.mp recorded with ⟨_, _, decodedCam, cast, keeps, rfl⟩
    rw [vehdataOf_stationID] at inRange entry others
    refine ⟨decodedCam.base.stationID.toUInt64, ?_⟩
    constructor
    case station =>
      rw [stationOf, cast]
      rfl
    case inRange => exact inRange
    case kept => exact keeps
    case wellFormed => exact wellFormed
    case entry =>
      refine ⟨_, entry, ?_⟩
      rw [vehdataOf_gnTimestamp, gnTimestamp, if_pos isCam.2.1, UInt32.toNat_toUInt64]
      exact isCam.2.2
    case others => exact others
    case trueTime => rw [vehdataOf_stationID]

theorem not_older_of_checked (ageCheck : client.options.ageCheckEnabled = true)
    (tracks : state.Tracks) {reception : Reception} {locals : Locals} {time : Nat}
    (isCam : IsGnCam client reception locals time) {stationID : UInt64}
    (station : stationOf client reception locals = some stationID)
    (inRange : InRange stationID)
    (close : state.Close client (.receive reception locals time))
    (upToDate : outdated client.options state.map stationID
      (gnTimestamp (decode client reception locals).decodedData) = false)
    (present : (state.map.entry stationID).isSome) :
    state.trueTime stationID ≤ time := by
  rcases Option.isSome_iff_exists.mp present with ⟨stored, entry⟩
  have received : gnTimestamp (decode client reception locals).decodedData =
      (decode client reception locals).decodedData.gnTimestamp.toUInt64 :=
    if_pos isCam.2.1
  have bound := (decode client reception locals).decodedData.gnTimestamp.toNat_lt
  have receivedWraps : (gnTimestamp (decode client reception locals).decodedData).toNat =
      time % 2 ^ 32 := by
    rw [received, UInt32.toNat_toUInt64]
    exact isCam.2.2
  have fromHeader : gnTimestamp (decode client reception locals).decodedData ≠
      uint64Max := by
    intro equal
    have values := congrArg UInt64.toNat equal
    rw [receivedWraps] at values
    change time % 2 ^ 32 = 0xFFFFFFFFFFFFFFFF at values
    omega
  by_contra older
  have old := (tooOld_iff_lt receivedWraps (tracks.wraps inRange entry)
    (close stationID station present)).mpr (Nat.lt_of_not_le older)
  rw [outdated_iff.mpr ⟨ageCheck, fromHeader, stored, entry, old⟩] at upToDate
  cases upToDate

theorem cleanup_cases (tracks : state.Tracks) {operation : MapOperation}
    (cleanup : IsCleanup operation)
    (stepped : state.step haversineDist client (.cleanup operation) = some next) :
    next.map.WellFormed ∧ next.trueTime = state.trueTime ∧
      ∀ {stationID stored}, next.map.entry stationID = some stored →
        state.map.entry stationID = some stored := by
  rcases Option.map_eq_some_iff.mp stepped with ⟨map, cleaned, rfl⟩
  rcases cleanup.fewer tracks.wellFormed cleaned with ⟨wellFormed, fewer⟩
  exact ⟨wellFormed, rfl, fewer⟩

theorem Tracks.step (tracks : state.Tracks) {event : TimedEvent}
    (valid : ValidEvent client event)
    (stepped : state.step haversineDist client event = some next) : next.Tracks := by
  cases event with
  | receive reception locals time =>
      rcases receive_cases tracks valid stepped with rfl | ⟨stationID, stores⟩
      · exact tracks
      · refine ⟨stores.wellFormed, ?_⟩
        intro other otherStored otherRange found
        rw [stores.trueTime]
        by_cases same : other = stationID
        · subst same
          rcases stores.entry with ⟨stored, entry, wraps⟩
          cases entry.symm.trans found
          rw [Function.update_self]
          exact wraps
        · rw [stores.others other otherRange same] at found
          rw [Function.update_of_ne same]
          exact tracks.wraps otherRange found
  | cleanup operation =>
      rcases cleanup_cases tracks valid stepped with ⟨wellFormed, times, fewer⟩
      refine ⟨wellFormed, ?_⟩
      intro stationID stored inRange found
      rw [times]
      exact tracks.wraps inRange (fewer found)

theorem Tracks.keepsOrder (tracks : state.Tracks) {event : TimedEvent}
    (ageCheck : client.options.ageCheckEnabled = true) (valid : ValidEvent client event)
    (close : state.Close client event)
    (guarded : client.logfileName ≠ "" ∨ ¬state.IsOlder client event) :
    state.KeepsOrder haversineDist client event := by
  cases event with
  | receive reception locals time =>
      have notOlder : ∀ {next stationID},
          Stores client state next reception locals time stationID →
            (state.map.entry stationID).isSome → state.trueTime stationID ≤ time := by
        intro next stationID stores present
        rcases guarded with logs | upToDate
        · apply not_older_of_checked ageCheck tracks valid stores.station stores.inRange close
          · exact Bool.eq_false_iff.mpr fun outdated => stores.kept ⟨outdated, logs⟩
          · exact present
        · apply Nat.le_of_not_lt
          exact fun older => upToDate ⟨stationID, stores.station, present, older⟩
      constructor
      · intro next stepped stationID inRange present _
        rcases receive_cases tracks valid stepped with rfl | ⟨received, stores⟩
        · exact Nat.le_refl _
        · rw [stores.trueTime]
          by_cases same : stationID = received
          · subst same
            rw [Function.update_self]
            exact notOlder stores present
          · rw [Function.update_of_ne same]
      · rintro next stepped ⟨stationID, station, present, older⟩
        rcases receive_cases tracks valid stepped with rfl | ⟨received, stores⟩
        · rfl
        · cases station.symm.trans stores.station
          exact absurd older (Nat.not_lt_of_le (notOlder stores present))
  | cleanup operation =>
      constructor
      · intro next stepped stationID _ _ _
        rw [(cleanup_cases tracks valid stepped).2.1]
      · intro next _ older
        exact older.elim

/-- With the age check enabled the store never goes backwards in a run of close
messages, as long as the client logs or receives no older message. -/
theorem run_keepsOrder (haversineDist : ℚ → ℚ → ℚ → ℚ → ℚ) (client : SocketClient)
    (ageCheck : client.options.ageCheckEnabled = true)
    (memory : Nat → UninitializedPHpoints) (events : List TimedEvent)
    (valid : ∀ event ∈ events, ValidEvent client event)
    (close : Execution.Always (step haversineDist client) (Close client) (start memory)
      events)
    (guarded : Execution.Always (step haversineDist client)
      (fun state event => client.logfileName ≠ "" ∨ ¬state.IsOlder client event)
      (start memory) events) :
    Execution.Always (step haversineDist client) (KeepsOrder haversineDist client)
      (start memory) events := by
  refine Execution.Always.of_invariant Tracks (ValidEvent client) ?_ ?_
    (tracks_start memory) valid (close.and guarded)
  · intro state event next tracks isValid _ stepped
    exact tracks.step isValid stepped
  · intro state event tracks isValid conditions
    exact tracks.keepsOrder ageCheck isValid conditions.1 conditions.2

/-! Two CAMs of the same station that arrive in the wrong order. -/

def swappedCams : List TimedEvent :=
  [.receive (camReception 200) default 200, .receive (camReception 100) default 100]

def ageCheckingClient (logfileName : String) : SocketClient :=
  ⟨⟨false, true⟩, logfileName, false⟩

theorem run_keepsOrder_swapped :
    Execution.Always (step LDMMap.noDist (ageCheckingClient "log"))
      (KeepsOrder LDMMap.noDist (ageCheckingClient "log")) (start default) swappedCams :=
  run_keepsOrder LDMMap.noDist (ageCheckingClient "log") rfl default swappedCams
    (by decide +kernel) (by decide +kernel) (by decide +kernel)

/-- Without a log file name the older CAM replaces the newer one. -/
theorem not_keepsOrder_of_swapped :
    (∀ event ∈ swappedCams, ValidEvent (ageCheckingClient "") event) ∧
    Execution.Always (step LDMMap.noDist (ageCheckingClient "")) (Close (ageCheckingClient ""))
      (start default) swappedCams ∧
    ¬Execution.Always (step LDMMap.noDist (ageCheckingClient ""))
      (KeepsOrder LDMMap.noDist (ageCheckingClient "")) (start default) swappedCams := by
  refine ⟨by decide +kernel, by decide +kernel, fun always => ?_⟩
  have second := always.after [TimedEvent.receive (camReception 200) default 200]
    (Option.some_get (by decide +kernel)).symm
  have order := second.1.monotone (Option.some_get (by decide +kernel)).symm 12
    (by decide) (by decide +kernel) (by decide +kernel)
  exact absurd order (by decide +kernel)

end TimedDatabase

end AIM.Client
