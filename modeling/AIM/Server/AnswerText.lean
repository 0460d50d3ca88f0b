import AIM.Json11.Members
import AIM.Server.AimJson
import AIM.Server.JsonRequests

namespace AIM.Server

open Binary64 Database Decimal Json11

/-! # The text of an answer

What is sent for a request: the object of `make_AIM_json` as `json11` prints it. The type of
an argument selects the constructor of `json11::Json`. -/

/-- The members that are made from a `uint64_t`. -/
def uint64Members : List String :=
  ["stationID", "GN_tstamp", "time_since_generation_tstamp"]

/-- The members that are made from an `int`, or from something that is promoted to it. -/
def intMembers : List String := ["CAM_tstamp", "stationType", "car_len_mm", "car_wid_mm"]

def utf8 (text : Text) : Bytes := text.flatMap String.utf8EncodeChar

/-- The value of a member with the type that the constructor gives it. -/
def typed (key : String) : Json → Json11.Json
  | .number value =>
      if key ∈ uint64Members then .uint64 (.ofNat value.num.toNat)
      else if key ∈ intMembers then .int (.ofInt value.num)
      else .double (.ofRat value)
  | .string text => .string (utf8 text)
  | .array values => .array (values.map fun value =>
      match value with
      | .string text => .string (utf8 text)
      | _ => .null)

def typedObject (members : List (String × Json11.Json)) : Json11.Json :=
  .ofMembers (members.map fun member => (ascii member.1, member.2))

def vehicleJson (vehicle : JsonObject) : Json11.Json :=
  typedObject (vehicle.map fun member => (member.1, typed member.1 member.2))

def answerMembers (generationTstamp : UInt64) (lat lon : Double) (vehicles : List JsonObject) :
    List (String × Json11.Json) := [
  ("generation_tstamp", .uint64 generationTstamp),
  ("reference_lat", .double lat),
  ("reference_lon", .double lon),
  ("error", .string (ascii "ok")),
  ("vehicles", .array (vehicles.map vehicleJson))]

def answerText (generationTstamp : UInt64) (lat lon : Double) (vehicles : List JsonObject) :
    Bytes :=
  (typedObject (answerMembers generationTstamp lat lon vehicles)).dump

def parseRequest (rxStr : Bytes) : Except Bytes (Double × Double) :=
  match Json11.parse rxStr with
  | .ok request =>
      .ok ((request.member (ascii "lat")).numberValue, (request.member (ascii "lon")).numberValue)
  | .error (.message err) => .error err
  | .error .stuck => .error []

/-- What is sent for a request, nothing for one that cannot be parsed. -/
def JsonServer.sends (server : JsonServer) (map : LDMMap) (nowUs : UInt64) :
    Except Bytes (Double × Double) → Option Bytes
  | .ok (lat, lon) =>
      match lat.value?, lon.value? with
      | some exactLat, some exactLon =>
          (server.makeAimJson map nowUs exactLat exactLon).map fun json =>
            answerText json.generationTstamp lat lon json.vehicles
      -- the sine of an infinite angle, and so every distance, is not a number and in no range
      | _, _ => some (answerText nowUs lat lon [])
  | .error _ => none

/-! ## The members of a vehicle -/

inductive Json.Flat : Json → Prop
  | number (value : ℚ) : Flat (.number value)
  | string (text : Text) : Flat (.string text)
  | texts (texts : List Text) : Flat (.array (texts.map .string))

theorem typed_fits {levels : Nat} (key : String) {value : Json} (flat : value.Flat) :
    Fits (levels + 2) (typed key value) := by
  cases flat with
  | number value =>
      rw [typed]
      split
      · exact .uint64 _
      · split
        · exact .int _
        · exact .double _
  | string text => exact .string _
  | texts texts =>
      refine .array fun value member => ?_
      rw [List.map_map] at member
      rcases List.mem_map.mp member with ⟨text, _, rfl⟩
      exact .string _

structure IsVehicle (vehicle : JsonObject) : Prop where
  keys : (vehicle.map fun member => ascii member.1).Nodup
  flat : ∀ member ∈ vehicle, member.2.Flat

theorem flat_makeOptional (value : Option Int) : (makeOptional value).Flat := by
  cases value with
  | none => exact .string _
  | some value => exact .number _

theorem isVehicle_makeVehicleEnhanced (vehicle : EnhancedVehicle) :
    IsVehicle (makeVehicleEnhanced vehicle) := by
  constructor
  · simp only [makeVehicleEnhanced, List.map_cons, List.map_nil]
    decide +kernel
  · simp [makeVehicleEnhanced, Json.Flat.number, Json.Flat.string, flat_makeOptional]

theorem phPointsLoop_texts {pathHistory : PHpoints} {calls : Nat} {phDataIter : PHDataIter}
    {lats lons : List Text} {phPoints : List Json × List Json}
    (found : phPointsLoop pathHistory calls phDataIter (lats.map .string) (lons.map .string) =
      some phPoints) :
    ∃ lats lons : List Text, phPoints = (lats.map .string, lons.map .string) := by
  induction calls generalizing phDataIter lats lons with
  | zero => cases found
  | succ calls induction =>
      rw [phPointsLoop] at found
      split at found
      · apply induction
        rw [← found, makeDecimal, makeDecimal, ← List.map_singleton (f := Json.string),
          ← List.map_singleton (f := Json.string), ← List.map_append, ← List.map_append]
      · cases found
        exact ⟨lats, lons, rfl⟩

theorem isVehicle_makeVehicleStandard {calls : Nat} {vehicle : StandardVehicle}
    {members : JsonObject} (made : makeVehicleStandard calls vehicle = some members) :
    IsVehicle members := by
  dsimp only [makeVehicleStandard] at made
  split at made
  · cases made
    constructor
    · simp only [List.map_cons, List.map_nil]
      decide +kernel
    · simp [Json.Flat.number, Json.Flat.string, flat_makeOptional]
  · rcases Option.map_eq_some_iff.mp made with ⟨phPoints, found, rfl⟩
    rcases @phPointsLoop_texts _ _ _ [] [] _ found with ⟨lats, lons, rfl⟩
    constructor
    · simp only [List.cons_append, List.nil_append, List.map_cons, List.map_nil]
      decide +kernel
    · simp [Json.Flat.number, Json.Flat.string, Json.Flat.texts, flat_makeOptional]

theorem JsonServer.isVehicle_makeVehicle {server : JsonServer} {heap : PHpointsHeap}
    {lat lon : ℚ} {nowUs : UInt64} {vehdata : ReturnedVehicleData} {vehicle : JsonObject}
    (made : server.makeVehicle heap lat lon nowUs vehdata = some vehicle) : IsVehicle vehicle := by
  dsimp only [makeVehicle] at made
  split at made
  · split at made
    · exact isVehicle_makeVehicleStandard made
    · split at made
      · cases made
      · exact isVehicle_makeVehicleStandard made
  · cases made
    exact isVehicle_makeVehicleEnhanced _

/-! ## What a client reads -/

theorem member_typedObject {members : List (String × Json11.Json)}
    (keys : (members.map fun member => ascii member.1).Nodup) {key : String} {value : Json11.Json}
    (assigned : (key, value) ∈ members) : (typedObject members).member (ascii key) = value := by
  have distinct : ((members.map fun member => (ascii member.1, member.2)).map Prod.fst).Nodup := by
    rw [List.map_map]
    exact keys
  have found := SortedMap.find_ofAssignments distinct (List.mem_map.mpr ⟨_, assigned, rfl⟩)
  exact congrArg (Option.getD · .null) found

theorem typedObject_fits {levels : Nat} {members : List (String × Json11.Json)}
    (each : ∀ member ∈ members, Fits levels member.2) :
    Fits (levels + 1) (typedObject members) := by
  refine .object (SortedMap.sorted_ofAssignments _) fun entry stored => ?_
  rcases List.mem_map.mp (SortedMap.mem_ofAssignments stored) with ⟨member, inside, rfl⟩
  exact each member inside

namespace JsonServer

variable (server : JsonServer)

/-- The members of the object hold what is made from the stored data. -/
def Shows (heap : PHpointsHeap) (lat lon : ℚ) (nowUs : UInt64) (vehicle : Json11.Json)
    (stored : ReturnedVehicleData) : Prop :=
  ∃ members, server.makeVehicle heap lat lon nowUs stored = some members ∧
    ∀ member ∈ members,
      Json11.Json.equals (vehicle.member (ascii member.1)) (typed member.1 member.2).printed = true

/-- The object that is read shows the position, and the stations around it, each once. -/
structure Delivers (map : LDMMap) (lat lon : Double) (nowUs : UInt64) (result : Json11.Json) :
    Prop where
  generation :
    Json11.Json.equals (result.member (ascii "generation_tstamp")) (.uint64 nowUs) = true
  referenceLat : Json11.Json.equals (result.member (ascii "reference_lat"))
    (Json11.Json.double lat).printed = true
  referenceLon : Json11.Json.equals (result.member (ascii "reference_lon"))
    (Json11.Json.double lon).printed = true
  error : (result.member (ascii "error")).stringValue = ascii "ok"
  selects : ∀ {exactLat exactLon}, lat.value? = some exactLat → lon.value? = some exactLon →
    ∃ selected, map.Selects server.haversineDist server.rangeM exactLat exactLon selected ∧
      List.Forall₂ (server.Shows map.heap exactLat exactLon nowUs)
        (result.member (ascii "vehicles")).arrayItems selected ∧
      ((result.member (ascii "vehicles")).arrayItems.map fun vehicle =>
        (vehicle.member (ascii "stationID")).numberValue.value?) =
          selected.map fun stored => some (stored.vehData.stationID.toNat : ℚ)
  nowhere : lat.value? = none ∨ lon.value? = none →
    (result.member (ascii "vehicles")).arrayItems = []

variable {server}

theorem makeVehicles_forall₂ {heap : PHpointsHeap} {lat lon : ℚ} {nowUs : UInt64}
    {returnedvehs : List ReturnedVehicleData} {vehicles : List JsonObject}
    (made : server.makeVehicles heap lat lon nowUs returnedvehs = some vehicles) :
    List.Forall₂ (fun vehicle stored =>
      server.makeVehicle heap lat lon nowUs stored = some vehicle) vehicles returnedvehs := by
  induction returnedvehs generalizing vehicles with
  | nil =>
      cases made
      exact .nil
  | cons stored rest induction =>
      rw [makeVehicles] at made
      split at made
      · cases made
      · next vehicle first =>
          rcases Option.map_eq_some_iff.mp made with ⟨later, found, rfl⟩
          exact .cons first (induction found)

theorem shows_of_equals {heap : PHpointsHeap} {lat lon : ℚ} {nowUs : UInt64}
    {stored : ReturnedVehicleData} {members : JsonObject}
    (made : server.makeVehicle heap lat lon nowUs stored = some members) {vehicle : Json11.Json}
    (equal : Json11.Json.equals vehicle (vehicleJson members).printed = true) :
    server.Shows heap lat lon nowUs vehicle stored := by
  refine ⟨members, made, fun member assigned => ?_⟩
  have keys := (isVehicle_makeVehicle made).keys
  have found : (vehicleJson members).member (ascii member.1) = typed member.1 member.2 := by
    apply member_typedObject
    · rw [List.map_map]
      exact keys
    · exact List.mem_map.mpr ⟨member, assigned, rfl⟩
  have members := Json11.Json.equals_member equal (ascii member.1)
  rwa [found] at members

theorem stationID_mem_makeVehicleStandard {calls : Nat} {vehicle : StandardVehicle}
    {members : JsonObject} (made : makeVehicleStandard calls vehicle = some members) :
    ("stationID", Json.number vehicle.stationID.toNat) ∈ members := by
  dsimp only [makeVehicleStandard] at made
  split at made
  · cases made
    exact List.mem_cons_self
  · rcases Option.map_eq_some_iff.mp made with ⟨_, _, rfl⟩
    exact List.mem_cons_self

theorem stationID_mem_makeVehicle {heap : PHpointsHeap} {lat lon : ℚ} {nowUs : UInt64}
    {stored : ReturnedVehicleData} {members : JsonObject}
    (made : server.makeVehicle heap lat lon nowUs stored = some members) :
    ("stationID", Json.number stored.vehData.stationID.toNat) ∈ members := by
  dsimp only [makeVehicle] at made
  split at made
  · split at made
    · exact stationID_mem_makeVehicleStandard made
    · split at made
      · cases made
      · exact stationID_mem_makeVehicleStandard made
  · cases made
    exact List.mem_cons_self

theorem typed_uint64 {key : String} (member : key ∈ uint64Members) (value : UInt64) :
    typed key (.number value.toNat) = .uint64 value := by
  have same : UInt64.ofNat (value.toNat : ℚ).num.toNat = value := by
    rw [Rat.num_natCast, Int.toNat_natCast, UInt64.ofNat_toNat]
  rw [typed, if_pos member, same]

theorem Shows.stationID {heap : PHpointsHeap} {lat lon : ℚ} {nowUs : UInt64}
    {vehicle : Json11.Json} {stored : ReturnedVehicleData}
    (shown : server.Shows heap lat lon nowUs vehicle stored)
    (inRange : InRange stored.vehData.stationID) :
    (vehicle.member (ascii "stationID")).numberValue.value? =
      some (stored.vehData.stationID.toNat : ℚ) := by
  rcases shown with ⟨members, made, each⟩
  have equal := each _ (stationID_mem_makeVehicle made)
  have exactly := typed_uint64 (show "stationID" ∈ uint64Members by decide)
    stored.vehData.stationID
  dsimp only at equal
  rw [exactly] at equal
  have value := Double.value?_of_equals (Json11.Json.numberValue_of_equals rfl equal)
  have few : (stored.vehData.stationID.toNat : Int).natAbs < 2 ^ 53 :=
    lt_trans inRange (by decide)
  exact value.trans (Double.value?_ofRat_int few)

theorem makeVehicle_isSome {heap : PHpointsHeap} {lat lon : ℚ} {nowUs : UInt64}
    {stored : ReturnedVehicleData} {address : Nat} {object : PHpoints}
    (pointer : stored.phData = some address) (live : heap.objects address = some object)
    (fits : object.Fits) (enough : object.phPointsSize < server.calls) :
    ∃ members, server.makeVehicle heap lat lon nowUs stored = some members := by
  simp only [makeVehicle, pointer, live]
  split
  · have arrays := @phPointsLoop_fresh object .initializer fits rfl _ enough
    simp only [makeVehicleStandard, arrays]
    exact ⟨_, rfl⟩
  · exact ⟨_, rfl⟩

theorem makeVehicles_isSome {heap : PHpointsHeap} {lat lon : ℚ} {nowUs : UInt64}
    {returnedvehs : List ReturnedVehicleData}
    (each : ∀ stored ∈ returnedvehs, ∃ members,
      server.makeVehicle heap lat lon nowUs stored = some members) :
    ∃ vehicles, server.makeVehicles heap lat lon nowUs returnedvehs = some vehicles := by
  induction returnedvehs with
  | nil => exact ⟨[], rfl⟩
  | cons stored rest induction =>
      rcases List.forall_mem_cons.mp each with ⟨⟨members, made⟩, later⟩
      rcases induction later with ⟨vehicles, found⟩
      rw [makeVehicles, made, found]
      exact ⟨members :: vehicles, rfl⟩

theorem vehicleJson_fits {levels : Nat} {vehicle : JsonObject} (isVehicle : IsVehicle vehicle) :
    Fits (levels + 3) (vehicleJson vehicle) := by
  refine typedObject_fits fun member inside => ?_
  rcases List.mem_map.mp inside with ⟨other, assigned, rfl⟩
  exact typed_fits other.1 (isVehicle.flat other assigned)

theorem answer_fits {levels : Nat} (generationTstamp : UInt64) (lat lon : Double)
    {vehicles : List JsonObject} (each : ∀ vehicle ∈ vehicles, IsVehicle vehicle) :
    Fits (levels + 5) (typedObject (answerMembers generationTstamp lat lon vehicles)) := by
  refine typedObject_fits fun member inside => ?_
  simp only [answerMembers, List.mem_cons, List.not_mem_nil, or_false] at inside
  rcases inside with rfl | rfl | rfl | rfl | rfl
  · exact .uint64 _
  · exact .double _
  · exact .double _
  · exact .string _
  · refine .array fun value member => ?_
    rcases List.mem_map.mp member with ⟨vehicle, made, rfl⟩
    exact vehicleJson_fits (each vehicle made)

theorem parse_answerText (generationTstamp : UInt64) (lat lon : Double)
    {vehicles : List JsonObject} (each : ∀ vehicle ∈ vehicles, IsVehicle vehicle) :
    ∃ result, Json11.parse (answerText generationTstamp lat lon vehicles) = .ok result ∧
      ∀ member ∈ answerMembers generationTstamp lat lon vehicles,
        Json11.Json.equals (result.member (ascii member.1)) member.2.printed = true := by
  have fits : Fits (maxDepth + 1)
      (typedObject (answerMembers generationTstamp lat lon vehicles)) :=
    answer_fits generationTstamp lat lon each
  rcases parse_dump fits with ⟨result, read, equal⟩
  refine ⟨result, read, fun member assigned => ?_⟩
  have found := Json11.Json.equals_member equal (ascii member.1)
  have keys : ((answerMembers generationTstamp lat lon vehicles).map
      fun member => ascii member.1).Nodup := by
    simp only [answerMembers, List.map_cons, List.map_nil]
    decide +kernel
  rwa [member_typedObject keys assigned] at found

theorem isVehicle_makeVehicles {heap : PHpointsHeap} {lat lon : ℚ} {nowUs : UInt64}
    {returnedvehs : List ReturnedVehicleData} {vehicles : List JsonObject}
    (made : List.Forall₂ (fun vehicle stored =>
      server.makeVehicle heap lat lon nowUs stored = some vehicle) vehicles returnedvehs) :
    ∀ vehicle ∈ vehicles, IsVehicle vehicle := by
  induction made with
  | nil => exact List.forall_mem_nil _
  | cons first _ induction =>
      exact List.forall_mem_cons.mpr ⟨isVehicle_makeVehicle first, induction⟩

theorem shows_of_arrayItems {heap : PHpointsHeap} {lat lon : ℚ} {nowUs : UInt64}
    {items : List Json11.Json} {vehicles : List JsonObject}
    {returnedvehs : List ReturnedVehicleData}
    (equal : List.Forall₂ (fun item vehicle =>
      Json11.Json.equals item (vehicleJson vehicle).printed = true) items vehicles)
    (made : List.Forall₂ (fun vehicle stored =>
      server.makeVehicle heap lat lon nowUs stored = some vehicle) vehicles returnedvehs) :
    List.Forall₂ (server.Shows heap lat lon nowUs) items returnedvehs := by
  induction equal generalizing returnedvehs with
  | nil =>
      cases made
      exact .nil
  | cons first _ induction =>
      cases made with
      | cons madeFirst later => exact .cons (shows_of_equals madeFirst first) (induction later)

theorem stationIDs_of_shows {heap : PHpointsHeap} {lat lon : ℚ} {nowUs : UInt64}
    {items : List Json11.Json} {returnedvehs : List ReturnedVehicleData}
    (shown : List.Forall₂ (server.Shows heap lat lon nowUs) items returnedvehs)
    (inRange : ∀ stored ∈ returnedvehs, InRange stored.vehData.stationID) :
    (items.map fun vehicle => (vehicle.member (ascii "stationID")).numberValue.value?) =
      returnedvehs.map fun stored => some (stored.vehData.stationID.toNat : ℚ) := by
  induction shown with
  | nil => rfl
  | cons first _ induction =>
      rcases List.forall_mem_cons.mp inRange with ⟨firstRange, later⟩
      rw [List.map_cons, List.map_cons, first.stationID firstRange, induction later]

theorem delivers_of_answer {map : LDMMap} (isKeyed : map.Keyed) {lat lon : Double}
    {exactLat exactLon : ℚ} (isLat : lat.value? = some exactLat)
    (isLon : lon.value? = some exactLon) {nowUs : UInt64} {json : AimJson}
    (answered : server.makeAimJson map nowUs exactLat exactLon = some json) :
    ∃ result, Json11.parse (answerText json.generationTstamp lat lon json.vehicles) = .ok result ∧
      server.Delivers map lat lon nowUs result := by
  rw [makeAimJson, LDMMap.rangeSelect_eq, List.nil_append] at answered
  rcases Option.map_eq_some_iff.mp answered with ⟨vehicles, madeVehicles, rfl⟩
  have made := makeVehicles_forall₂ madeVehicles
  rcases parse_answerText nowUs lat lon (isVehicle_makeVehicles made) with ⟨result, read, found⟩
  have items := Json11.Json.arrayItems_of_equals
    (found ("vehicles", .array (vehicles.map vehicleJson)) (by simp [answerMembers]))
  have shown := shows_of_arrayItems (List.forall₂_map_right_iff.mp items) made
  have selects := isKeyed.selects server.haversineDist server.rangeM exactLat exactLon
  refine ⟨result, read, ?_, ?_, ?_, ?_, ?_, ?_⟩
  · exact found ("generation_tstamp", .uint64 nowUs) (by simp [answerMembers])
  · exact found ("reference_lat", .double lat) (by simp [answerMembers])
  · exact found ("reference_lon", .double lon) (by simp [answerMembers])
  · exact Json11.Json.stringValue_of_equals
      (found ("error", .string (ascii "ok")) (by simp [answerMembers]))
  · intro otherLat otherLon sameLat sameLon
    cases isLat.symm.trans sameLat
    cases isLon.symm.trans sameLon
    exact ⟨_, selects, shown, stationIDs_of_shows shown fun stored member =>
      (selects.sound stored member).1⟩
  · intro infinite
    rw [isLat, isLon] at infinite
    rcases infinite with none | none
    · cases none
    · cases none

theorem delivers_of_infinite (map : LDMMap) {lat lon : Double}
    (infinite : lat.value? = none ∨ lon.value? = none) (nowUs : UInt64) :
    ∃ result, Json11.parse (answerText nowUs lat lon []) = .ok result ∧
      server.Delivers map lat lon nowUs result := by
  rcases parse_answerText nowUs lat lon (List.forall_mem_nil IsVehicle) with ⟨result, read, found⟩
  have items := Json11.Json.arrayItems_of_equals
    (found ("vehicles", .array []) (by simp [answerMembers]))
  refine ⟨result, read, ?_, ?_, ?_, ?_, ?_, ?_⟩
  · exact found ("generation_tstamp", .uint64 nowUs) (by simp [answerMembers])
  · exact found ("reference_lat", .double lat) (by simp [answerMembers])
  · exact found ("reference_lon", .double lon) (by simp [answerMembers])
  · exact Json11.Json.stringValue_of_equals
      (found ("error", .string (ascii "ok")) (by simp [answerMembers]))
  · intro exactLat exactLon isLat isLon
    rw [isLat, isLon] at infinite
    rcases infinite with none | none
    · cases none
    · cases none
  · intro _
    exact List.forall₂_nil_right_iff.mp items

end JsonServer

/-! ## Runs -/

/-- A path history of the database, which keeps the slots that it was constructed with. -/
structure OfDatabase (pathHistory : PHpoints) : Prop where
  standard : pathHistory.Standard
  slots : pathHistory.vectorReservedSize = 300

theorem OfDatabase.insert {pathHistory : PHpoints} (ofDatabase : OfDatabase pathHistory)
    (haversineDist : ℚ → ℚ → ℚ → ℚ → ℚ) (newVehicleData : VehicleData) :
    OfDatabase (pathHistory.insert haversineDist newVehicleData).1 := by
  refine ⟨ofDatabase.standard.insert haversineDist newVehicleData, ?_⟩
  rcases pathHistory.insert_cases haversineDist newVehicleData with
    ⟨_, equal⟩ | ⟨_, _, equal⟩ | ⟨_, _, removed, removal, equal⟩
  · rw [equal]
    exact ofDatabase.slots
  · rw [equal]
    exact ofDatabase.slots
  · rw [equal]
    exact removal.vectorReservedSize.trans ofDatabase.slots

/-- A request is answered if it is a document, and else only an error is printed. -/
structure JsonServer.AnswersRequest (server : JsonServer) (map : LDMMap) (nowUs : UInt64)
    (request : Bytes) : Prop where
  accepted : ∀ {document}, IsDocument request document →
    ∃ text result, server.sends map nowUs (parseRequest request) = some text ∧
      Json11.parse text = .ok result ∧
      server.Delivers map (document.member (ascii "lat")).numberValue
        (document.member (ascii "lon")).numberValue nowUs result
  rejected : (¬∃ document, IsDocument request document) →
    server.sends map nowUs (parseRequest request) = none

theorem JsonServer.makeAimJson_isSome {server : JsonServer} {map : LDMMap} (linked : map.Linked)
    (histories : map.HistoriesSatisfy OfDatabase) (enough : 300 < server.calls) (nowUs : UInt64)
    (lat lon : ℚ) : ∃ json, server.makeAimJson map nowUs lat lon = some json := by
  have vehicles : ∃ vehicles, server.makeVehicles map.heap lat lon nowUs
      (map.selection server.haversineDist server.rangeM lat lon) = some vehicles := by
    apply makeVehicles_isSome
    intro stored member
    rcases (LDMMap.mem_selection_iff _ _ _ _ _ _).mp member with ⟨⟨upper, lower, found⟩, _⟩
    rcases linked.allocated found with ⟨address, object, pointer, _, live⟩
    have ofDatabase := histories _ _ _ _ _ found pointer live
    have fits := ofDatabase.standard.fits
    have few := fits.size_le
    rw [ofDatabase.slots] at few
    exact makeVehicle_isSome pointer live fits (lt_of_le_of_lt few enough)
  rcases vehicles with ⟨vehicles, made⟩
  refine ⟨⟨nowUs, lat, lon, vehicles⟩, ?_⟩
  rw [makeAimJson, LDMMap.rangeSelect_eq, List.nil_append, answer, made]
  rfl

theorem JsonServer.answersRequest {server : JsonServer} {map : LDMMap} (linked : map.Linked)
    (isKeyed : map.Keyed) (histories : map.HistoriesSatisfy OfDatabase)
    (enough : 300 < server.calls) (nowUs : UInt64) (request : Bytes) :
    server.AnswersRequest map nowUs request := by
  constructor
  · intro document isDocument
    rw [parseRequest, parse_eq_ok_iff.mpr isDocument]
    dsimp only
    generalize (document.member (ascii "lat")).numberValue = lat
    generalize (document.member (ascii "lon")).numberValue = lon
    cases isLat : lat.value? with
    | none =>
        rcases delivers_of_infinite map (.inl isLat) nowUs with ⟨result, read, delivers⟩
        exact ⟨_, result, by simp only [sends, isLat], read, delivers⟩
    | some exactLat =>
        cases isLon : lon.value? with
        | none =>
            rcases delivers_of_infinite map (.inr isLon) nowUs with ⟨result, read, delivers⟩
            exact ⟨_, result, by simp only [sends, isLat, isLon], read, delivers⟩
        | some exactLon =>
            rcases makeAimJson_isSome linked histories enough nowUs exactLat exactLon with
              ⟨json, answered⟩
            rcases delivers_of_answer isKeyed isLat isLon answered with ⟨result, read, delivers⟩
            refine ⟨_, result, ?_, read, delivers⟩
            simp only [sends, isLat, isLon, answered, Option.map_some]
  · intro noDocument
    cases read : Json11.parse request with
    | ok document => exact absurd ⟨document, parse_eq_ok_iff.mp read⟩ noDocument
    | error failure =>
        rw [parseRequest, read]
        cases failure <;> rfl

/-- Whatever happened to the database, a client that sends a document receives one, and reads
from it the stations around its position as they were stored last. -/
theorem run_answersRequest (haversineDist : ℚ → ℚ → ℚ → ℚ → ℚ)
    (memory : Nat → UninitializedPHpoints) (operations : List MapOperation)
    (inRange : ∀ operation ∈ operations, operation.InRange) :
    ∃ map, Execution.run (LDMMap.step haversineDist) (.empty memory) operations = some map ∧
      ∀ server : JsonServer, 300 < server.calls →
        ∀ nowUs request, server.AnswersRequest map nowUs request := by
  have start : (LDMMap.empty memory).Linked ∧ (LDMMap.empty memory).Keyed ∧
      (LDMMap.empty memory).HistoriesSatisfy OfDatabase := by
    refine ⟨(LDMMap.wellFormed_empty _).linked, (LDMMap.wellFormed_empty _).isKeyed, ?_⟩
    intro upper lower stored address object found
    cases found
  generalize LDMMap.empty memory = map at start
  induction operations generalizing map with
  | nil =>
      exact ⟨map, rfl, fun server enough nowUs request =>
        JsonServer.answersRequest start.1 start.2.1 start.2.2 enough nowUs request⟩
  | cons operation rest induction =>
      rcases start with ⟨linked, isKeyed, histories⟩
      rcases linked.step_isSome haversineDist operation with ⟨next, taken⟩
      rw [Execution.run, taken]
      apply induction
      · intro other member
        exact inRange other (List.mem_cons_of_mem operation member)
      · exact ⟨linked.step haversineDist taken,
          isKeyed.step haversineDist linked (inRange operation List.mem_cons_self) taken,
          histories.step haversineDist linked
            (fun memory => ⟨PHpoints.new_standard memory, rfl⟩)
            (fun _ newVehicleData ofDatabase => ofDatabase.insert haversineDist newVehicleData)
            taken⟩

theorem run_answersRequest_station : ∃ map,
    Execution.run (LDMMap.step LDMMap.noDist) (.empty default)
      [.insert (LDMMap.station 7), .insert (LDMMap.station 9), .remove 7] = some map ∧
      ∀ server : JsonServer, 300 < server.calls →
        ∀ nowUs request, server.AnswersRequest map nowUs request :=
  run_answersRequest LDMMap.noDist default _ (by decide)

end AIM.Server
