import AIM.Server.AimJson
import AIM.Threads.CleanerClock

namespace AIM.Threads

open Database Server

/-! # The clock of the JSON server

The receiver reads the clock for its record before it inserts the record, and
`make_AIM_json` reads it before it selects the vehicles. Between the reading and its use
the other thread may run, and the clock may go on. -/

structure JsonRequest where
  nowUs : UInt64
  lat : ℚ
  lon : ℚ

inductive AnsweringThread
  | idle
  | stamped (request : JsonRequest)
  | selecting (request : JsonRequest) (uppers : List UInt32)
      (returnedvehs : List ReturnedVehicleData)
  | selected (request : JsonRequest) (returnedvehs : List ReturnedVehicleData)

structure Answer where
  json : AimJson
  returnedvehs : List ReturnedVehicleData

/-- `stampedLater` lists the records that the receiver has stamped since the clock went on
from the reading of the request. -/
structure JsonClock where
  clock : UInt64
  map : LDMMap
  receiver : StampingReceiver
  json : AnsweringThread
  stampedLater : List VehicleData
  answers : List Answer

inductive JsonStep
  | tick (later : UInt64)
  | stamp (vehdata : VehicleData)
  | insert
  | readNow (lat lon : ℚ)
  | beginSelect (uppers : List UInt32)
  | selectLower
  | endSelect
  | makeVehicles

def AnsweringThread.reading : AnsweringThread → Option UInt64
  | .idle => none
  | .stamped request => some request.nowUs
  | .selecting request _ _ => some request.nowUs
  | .selected request _ => some request.nowUs

def AnsweringThread.returnedvehs : AnsweringThread → List ReturnedVehicleData
  | .idle => []
  | .stamped _ => []
  | .selecting _ _ returnedvehs => returnedvehs
  | .selected _ returnedvehs => returnedvehs

/-- No vehicle that is selected is newer than the reading. -/
def AnsweringThread.SelectedEarlier (json : AnsweringThread) : Prop :=
  ∀ nowUs ∈ json.reading, ∀ vehdata ∈ json.returnedvehs, vehdata.vehData.timestampUs ≤ nowUs

def StampingReceiver.pending : StampingReceiver → Option VehicleData
  | .idle => none
  | .stamped vehdata => some vehdata

namespace JsonClock

def start (clock : UInt64) (map : LDMMap) : JsonClock :=
  ⟨clock, map, .idle, .idle, [], []⟩

section

variable (server : JsonServer) (state : JsonClock)

def tick (later : UInt64) : Option JsonClock :=
  if state.clock ≤ later then some { state with clock := later } else none

def hasGoneOn : Bool := state.json.reading.any fun nowUs => nowUs < state.clock

def stamp (vehdata : VehicleData) : Option JsonClock :=
  match state.receiver with
  | .idle =>
      let stamped := { vehdata with timestampUs := state.clock }
      some { state with
        receiver := .stamped stamped
        stampedLater :=
          if state.hasGoneOn then stamped :: state.stampedLater else state.stampedLater }
  | .stamped _ => none

/-- A new lower map waits for the end of a selection. -/
def insertWaits (vehdata : VehicleData) : Bool :=
  match state.json with
  | .selecting _ _ _ => (state.map.ldmmap.lookup (keyUpper vehdata.stationID)).isNone
  | _ => false

def insert : Option JsonClock :=
  match state.receiver with
  | .idle => none
  | .stamped vehdata =>
      if state.insertWaits vehdata then none
      else (state.map.insert server.haversineDist vehdata).map fun inserted =>
        { state with map := inserted.1, receiver := .idle }

def readNow (lat lon : ℚ) : Option JsonClock :=
  match state.json with
  | .idle => some { state with
      json := .stamped ⟨state.clock, lat, lon⟩
      stampedLater := [] }
  | _ => none

def beginSelect (uppers : List UInt32) : Option JsonClock :=
  match state.json with
  | .stamped request =>
      if uppers.Perm state.map.ldmmap.keys then
        some { state with json := .selecting request uppers [] }
      else none
  | _ => none

/-- The loop over one lower map, under its lock. -/
def selection (map : LDMMap) (lat lon : ℚ) (upper : UInt32) : List ReturnedVehicleData :=
  match map.ldmmap.lookup upper with
  | none => []
  | some lowerMap => (lowerMap.entries.map Sigma.snd).filter fun stored =>
      LDMMap.Within server.haversineDist server.rangeM lat lon stored

def selectLower : Option JsonClock :=
  match state.json with
  | .selecting request (upper :: rest) returnedvehs =>
      some { state with
        json := .selecting request rest
          (returnedvehs ++ selection server state.map request.lat request.lon upper) }
  | _ => none

def endSelect : Option JsonClock :=
  match state.json with
  | .selecting request [] returnedvehs =>
      some { state with json := .selected request returnedvehs }
  | _ => none

def makeVehicles : Option JsonClock :=
  match state.json with
  | .selected request returnedvehs =>
      (server.answer state.map.heap request.lat request.lon request.nowUs returnedvehs).map
        fun json => { state with json := .idle, answers := ⟨json, returnedvehs⟩ :: state.answers }
  | _ => none

def step : JsonStep → Option JsonClock
  | .tick later => state.tick later
  | .stamp vehdata => state.stamp vehdata
  | .insert => state.insert server
  | .readNow lat lon => state.readNow lat lon
  | .beginSelect uppers => state.beginSelect uppers
  | .selectLower => state.selectLower server
  | .endSelect => state.endSelect
  | .makeVehicles => state.makeVehicles server

/-- In the lower map that is selected next, no record within the range was stamped after the
clock had gone on from the reading of the request. -/
def SelectsNoLater : JsonStep → Prop
  | .selectLower =>
      match state.json with
      | .selecting request (upper :: _) _ =>
          ∀ lower stored, state.map.ldmmap.find upper lower = some stored →
            LDMMap.Within server.haversineDist server.rangeM request.lat request.lon stored →
            stored.vehData ∉ state.stampedLater
      | _ => True
  | _ => True

end

variable {server : JsonServer} {state next : JsonClock}

/-! ## What a step does -/

theorem tick_cases {later : UInt64} (ticked : state.tick later = some next) :
    state.clock ≤ later ∧ next = { state with clock := later } := by
  unfold JsonClock.tick at ticked
  split at ticked
  · next goesOn =>
      cases ticked
      exact ⟨goesOn, rfl⟩
  · cases ticked

theorem stamp_cases {vehdata : VehicleData} (stamps : state.stamp vehdata = some next) :
    ∃ stamped, stamped = { vehdata with timestampUs := state.clock } ∧
      next = { state with
        receiver := .stamped stamped
        stampedLater :=
          if state.hasGoneOn then stamped :: state.stampedLater else state.stampedLater } := by
  unfold JsonClock.stamp at stamps
  split at stamps
  · cases stamps
    exact ⟨_, rfl, rfl⟩
  · cases stamps

theorem insert_cases (inserts : state.insert server = some next) :
    ∃ vehdata inserted, state.receiver = .stamped vehdata ∧
      state.map.insert server.haversineDist vehdata = some inserted ∧
      next = { state with map := inserted.1, receiver := .idle } := by
  unfold JsonClock.insert at inserts
  split at inserts
  · cases inserts
  · next vehdata receiver =>
      split at inserts
      · cases inserts
      · rcases Option.map_eq_some_iff.mp inserts with ⟨inserted, written, rfl⟩
        exact ⟨vehdata, inserted, receiver, written, rfl⟩

theorem readNow_cases {lat lon : ℚ} (reads : state.readNow lat lon = some next) :
    state.json = .idle ∧ next = { state with
      json := .stamped ⟨state.clock, lat, lon⟩
      stampedLater := [] } := by
  unfold JsonClock.readNow at reads
  split at reads
  · next idle =>
      cases reads
      exact ⟨idle, rfl⟩
  · cases reads

theorem beginSelect_cases {uppers : List UInt32}
    (begins : state.beginSelect uppers = some next) :
    ∃ request, state.json = .stamped request ∧
      next = { state with json := .selecting request uppers [] } := by
  unfold JsonClock.beginSelect at begins
  split at begins
  · next request stamped =>
      split at begins
      · cases begins
        exact ⟨request, stamped, rfl⟩
      · cases begins
  · cases begins

theorem selectLower_cases (selects : state.selectLower server = some next) :
    ∃ request upper rest returnedvehs,
      state.json = .selecting request (upper :: rest) returnedvehs ∧
      next = { state with
        json := .selecting request rest
          (returnedvehs ++ selection server state.map request.lat request.lon upper) } := by
  unfold JsonClock.selectLower at selects
  split at selects
  · next request upper rest returnedvehs selecting =>
      cases selects
      exact ⟨request, upper, rest, returnedvehs, selecting, rfl⟩
  · cases selects

theorem endSelect_cases (ends : state.endSelect = some next) :
    ∃ request returnedvehs, state.json = .selecting request [] returnedvehs ∧
      next = { state with json := .selected request returnedvehs } := by
  unfold JsonClock.endSelect at ends
  split at ends
  · next request returnedvehs selecting =>
      cases ends
      exact ⟨request, returnedvehs, selecting, rfl⟩
  · cases ends

theorem makeVehicles_cases (makes : state.makeVehicles server = some next) :
    ∃ request returnedvehs json, state.json = .selected request returnedvehs ∧
      server.answer state.map.heap request.lat request.lon request.nowUs returnedvehs =
        some json ∧
      next = { state with json := .idle, answers := ⟨json, returnedvehs⟩ :: state.answers } := by
  unfold JsonClock.makeVehicles at makes
  split at makes
  · next request returnedvehs selected =>
      rcases Option.map_eq_some_iff.mp makes with ⟨json, answered, rfl⟩
      exact ⟨request, returnedvehs, json, selected, answered, rfl⟩
  · cases makes

/-! ## The order of the clock readings -/

/-- A record is not newer than the clock, and than the reading of a request only if it was
stamped later. -/
def Known (state : JsonClock) (vehdata : VehicleData) : Prop :=
  vehdata.timestampUs ≤ state.clock ∧
    ∀ nowUs ∈ state.json.reading, vehdata.timestampUs ≤ nowUs ∨ vehdata ∈ state.stampedLater

structure Ordered (state : JsonClock) : Prop where
  stored : ∀ upper lower stored, state.map.ldmmap.find upper lower = some stored →
    state.Known stored.vehData
  pending : ∀ vehdata ∈ state.receiver.pending, state.Known vehdata
  reading : ∀ nowUs ∈ state.json.reading, nowUs ≤ state.clock
  later : ∀ nowUs ∈ state.json.reading, ∀ vehdata ∈ state.stampedLater,
    nowUs < vehdata.timestampUs

theorem ordered_start {clock : UInt64} {map : LDMMap}
    (earlier : ∀ upper lower stored, map.ldmmap.find upper lower = some stored →
      stored.vehData.timestampUs ≤ clock) : (start clock map).Ordered where
  stored upper lower stored found := ⟨earlier upper lower stored found, fun _ reading => by
    cases reading⟩
  pending _ pending := by cases pending
  reading _ reading := by cases reading
  later _ reading := by cases reading

theorem Ordered.answering (ordered : state.Ordered) {json : AnsweringThread}
    (same : ∀ nowUs ∈ json.reading, nowUs ∈ state.json.reading) (answers : List Answer) :
    Ordered { state with json := json, answers := answers } where
  stored upper lower stored found :=
    have known := ordered.stored upper lower stored found
    ⟨known.1, fun nowUs reading => known.2 nowUs (same nowUs reading)⟩
  pending vehdata pending :=
    have known := ordered.pending vehdata pending
    ⟨known.1, fun nowUs reading => known.2 nowUs (same nowUs reading)⟩
  reading nowUs reading := ordered.reading nowUs (same nowUs reading)
  later nowUs reading := ordered.later nowUs (same nowUs reading)

theorem Ordered.tick (ordered : state.Ordered) {later : UInt64}
    (ticked : state.tick later = some next) : next.Ordered := by
  rcases tick_cases ticked with ⟨goesOn, rfl⟩
  have known : ∀ vehdata, state.Known vehdata → Known { state with clock := later } vehdata :=
    fun _ known => ⟨UInt64.le_trans known.1 goesOn, known.2⟩
  exact {
    stored := fun upper lower stored found => known _ (ordered.stored upper lower stored found)
    pending := fun vehdata pending => known _ (ordered.pending vehdata pending)
    reading := fun nowUs reading => UInt64.le_trans (ordered.reading nowUs reading) goesOn
    later := ordered.later }

theorem Ordered.stamp (ordered : state.Ordered) {vehdata : VehicleData}
    (stamps : state.stamp vehdata = some next) : next.Ordered := by
  rcases stamp_cases stamps with ⟨stamped, isStamped, rfl⟩
  have time : stamped.timestampUs = state.clock := by rw [isStamped]
  cases goneOn : state.hasGoneOn with
  | true =>
      have after : ∀ nowUs ∈ state.json.reading, nowUs < state.clock := by
        intro nowUs reading
        rw [hasGoneOn, reading] at goneOn
        exact of_decide_eq_true goneOn
      constructor
      · intro upper lower stored found
        have known := ordered.stored upper lower stored found
        exact ⟨known.1, fun nowUs reading =>
          (known.2 nowUs reading).imp_right (List.mem_cons_of_mem _)⟩
      · intro other pending
        cases pending
        exact ⟨UInt64.le_of_eq time, fun _ _ => .inr List.mem_cons_self⟩
      · exact ordered.reading
      · intro nowUs reading other member
        rcases List.mem_cons.mp member with rfl | before
        · rw [time]
          exact after nowUs reading
        · exact ordered.later nowUs reading other before
  | false =>
      constructor
      · exact ordered.stored
      · intro other pending
        cases pending
        refine ⟨UInt64.le_of_eq time, fun nowUs reading => .inl ?_⟩
        rw [hasGoneOn, reading] at goneOn
        rw [time]
        exact UInt64.not_lt.mp (of_decide_eq_false goneOn)
      · exact ordered.reading
      · exact ordered.later

theorem Ordered.insert (ordered : state.Ordered)
    (inserts : state.insert server = some next) : next.Ordered := by
  rcases insert_cases inserts with ⟨vehdata, inserted, receiver, written, rfl⟩
  have new : state.Known vehdata := by
    apply ordered.pending
    rw [receiver]
    rfl
  constructor
  · intro upper lower stored found
    rcases LDMMap.insert_find_cases written found with before | rfl
    · exact ordered.stored upper lower stored before
    · exact new
  · intro _ pending
    cases pending
  · exact ordered.reading
  · exact ordered.later

theorem Ordered.readNow (ordered : state.Ordered) {lat lon : ℚ}
    (reads : state.readNow lat lon = some next) : next.Ordered := by
  rcases readNow_cases reads with ⟨_, rfl⟩
  have known : ∀ vehdata, state.Known vehdata → Known { state with
      json := .stamped ⟨state.clock, lat, lon⟩
      stampedLater := [] } vehdata := by
    intro vehdata known
    refine ⟨known.1, fun nowUs reading => ?_⟩
    cases reading
    exact .inl known.1
  constructor
  · exact fun upper lower stored found => known _ (ordered.stored upper lower stored found)
  · exact fun vehdata pending => known _ (ordered.pending vehdata pending)
  · intro nowUs reading
    cases reading
    exact UInt64.le_refl _
  · exact fun _ _ _ member => absurd member List.not_mem_nil

theorem Ordered.step (ordered : state.Ordered) {jsonStep : JsonStep}
    (stepped : state.step server jsonStep = some next) : next.Ordered := by
  cases jsonStep with
  | tick later => exact ordered.tick stepped
  | stamp vehdata => exact ordered.stamp stepped
  | insert => exact ordered.insert stepped
  | readNow lat lon => exact ordered.readNow stepped
  | beginSelect uppers =>
      rcases beginSelect_cases stepped with ⟨request, json, rfl⟩
      exact ordered.answering (by rw [json]; exact fun _ => id) _
  | selectLower =>
      rcases selectLower_cases stepped with ⟨request, upper, rest, returnedvehs, json, rfl⟩
      exact ordered.answering (by rw [json]; exact fun _ => id) _
  | endSelect =>
      rcases endSelect_cases stepped with ⟨request, returnedvehs, json, rfl⟩
      exact ordered.answering (by rw [json]; exact fun _ => id) _
  | makeVehicles =>
      rcases makeVehicles_cases stepped with ⟨request, returnedvehs, json, _, _, rfl⟩
      exact ordered.answering (fun _ reading => by cases reading) _

/-! ## The selected vehicles -/

theorem mem_selection_iff {map : LDMMap} {lat lon : ℚ} {upper : UInt32}
    {stored : ReturnedVehicleData} :
    stored ∈ selection server map lat lon upper ↔
      (∃ lower, map.ldmmap.find upper lower = some stored) ∧
        LDMMap.Within server.haversineDist server.rangeM lat lon stored := by
  rw [selection]
  cases found : map.ldmmap.lookup upper with
  | none =>
      have absent : ∀ lower, map.ldmmap.find upper lower = none := by
        intro lower
        rw [NestedMap.find, found]
        rfl
      simp [absent]
  | some lowerMap =>
      simp only [NestedMap.find_of_lookup found]
      rw [List.mem_filter, decide_eq_true_iff, List.mem_map]
      apply and_congr_left
      intro _
      constructor
      · intro listed
        rcases listed with ⟨⟨lower, stored⟩, member, rfl⟩
        exact ⟨lower, AList.mem_lookup_iff.mpr member⟩
      · intro mapped
        rcases mapped with ⟨lower, member⟩
        exact ⟨⟨lower, stored⟩, AList.mem_lookup_iff.mp member, rfl⟩

/-- Every answer has correct ages, and so will the one that is being made. -/
def Correct (state : JsonClock) : Prop :=
  (∀ answer ∈ state.answers, JsonServer.AgesCorrect answer.json answer.returnedvehs) ∧
    state.json.SelectedEarlier

theorem Ordered.known_iff (ordered : state.Ordered) {nowUs : UInt64}
    (reading : nowUs ∈ state.json.reading) {vehdata : VehicleData}
    (known : state.Known vehdata) :
    vehdata.timestampUs ≤ nowUs ↔ vehdata ∉ state.stampedLater := by
  constructor
  · intro earlier member
    exact UInt64.not_lt.mpr earlier (ordered.later nowUs reading vehdata member)
  · exact (known.2 nowUs reading).resolve_right

theorem selectedEarlier_empty {json : AnsweringThread} (empty : json.returnedvehs = []) :
    json.SelectedEarlier := by
  intro _ _ vehdata member
  rw [empty] at member
  exact absurd member List.not_mem_nil

theorem correct_congr (answers : next.answers = state.answers)
    (json : next.json.SelectedEarlier ↔ state.json.SelectedEarlier) :
    next.Correct ↔ state.Correct ∧ True := by
  rw [Correct, Correct, answers, json, and_true]

theorem Ordered.selectLower_correct_iff (ordered : state.Ordered)
    (selects : state.selectLower server = some next) :
    next.Correct ↔ state.Correct ∧ state.SelectsNoLater server .selectLower := by
  rcases selectLower_cases selects with ⟨request, upper, rest, returnedvehs, json, rfl⟩
  have reading : request.nowUs ∈ state.json.reading := by
    rw [json]
    rfl
  rw [Correct, Correct, and_assoc, SelectsNoLater, json]
  apply and_congr_right
  intro _
  constructor
  · intro earlier
    constructor
    · intro nowUs isReading vehdata member
      exact earlier nowUs isReading vehdata (List.mem_append_left _ member)
    · intro lower stored found within
      have known := ordered.stored upper lower stored found
      apply (ordered.known_iff reading known).mp
      apply earlier _ rfl stored
      exact List.mem_append_right _ (mem_selection_iff.mpr ⟨⟨lower, found⟩, within⟩)
  · intro both nowUs isReading vehdata member
    rcases both with ⟨earlier, noLater⟩
    cases isReading
    rcases List.mem_append.mp member with before | new
    · exact earlier _ rfl vehdata before
    · rcases mem_selection_iff.mp new with ⟨⟨lower, found⟩, within⟩
      have known := ordered.stored upper lower vehdata found
      exact (ordered.known_iff reading known).mpr (noLater lower vehdata found within)

theorem makeVehicles_correct_iff (makes : state.makeVehicles server = some next) :
    next.Correct ↔ state.Correct ∧ True := by
  rcases makeVehicles_cases makes with ⟨request, returnedvehs, json, selected, answered, rfl⟩
  have ages := JsonServer.agesCorrect_iff answered
  have idle : AnsweringThread.idle.SelectedEarlier := selectedEarlier_empty rfl
  rw [Correct, Correct, selected, and_true, List.forall_mem_cons, ages, and_iff_left idle,
    and_comm]
  apply and_congr_right
  intro _
  constructor
  · intro earlier nowUs isReading
    cases isReading
    exact earlier
  · exact fun earlier => earlier _ rfl

theorem Ordered.correct_iff (ordered : state.Ordered) {jsonStep : JsonStep}
    (stepped : state.step server jsonStep = some next) :
    next.Correct ↔ state.Correct ∧ state.SelectsNoLater server jsonStep := by
  cases jsonStep with
  | tick later =>
      rcases tick_cases stepped with ⟨_, rfl⟩
      exact correct_congr rfl Iff.rfl
  | stamp vehdata =>
      rcases stamp_cases stepped with ⟨_, _, rfl⟩
      exact correct_congr rfl Iff.rfl
  | insert =>
      rcases insert_cases stepped with ⟨_, _, _, _, rfl⟩
      exact correct_congr rfl Iff.rfl
  | readNow lat lon =>
      rcases readNow_cases stepped with ⟨json, rfl⟩
      exact correct_congr rfl (iff_of_true (selectedEarlier_empty rfl)
        (selectedEarlier_empty (by rw [json]; rfl)))
  | beginSelect uppers =>
      rcases beginSelect_cases stepped with ⟨request, json, rfl⟩
      exact correct_congr rfl (iff_of_true (selectedEarlier_empty rfl)
        (selectedEarlier_empty (by rw [json]; rfl)))
  | selectLower => exact ordered.selectLower_correct_iff stepped
  | endSelect =>
      rcases endSelect_cases stepped with ⟨request, returnedvehs, json, rfl⟩
      exact correct_congr rfl (by rw [json]; exact Iff.rfl)
  | makeVehicles => exact makeVehicles_correct_iff stepped

/-! ## Runs -/

/-- In every interleaving the ages in all answers are correct if no lower map was selected
with a record within the range that was stamped later, and only then if no request is left
open. -/
theorem answers_correct_iff (server : JsonServer) {clock : UInt64} {map : LDMMap}
    (earlier : ∀ upper lower stored, map.ldmmap.find upper lower = some stored →
      stored.vehData.timestampUs ≤ clock) {steps : List JsonStep} {final : JsonClock}
    (reached : Execution.run (step server) (start clock map) steps = some final) :
    (Execution.Always (step server) (SelectsNoLater server) (start clock map) steps →
      ∀ answer ∈ final.answers, JsonServer.AgesCorrect answer.json answer.returnedvehs) ∧
    (final.json = .idle →
      (∀ answer ∈ final.answers, JsonServer.AgesCorrect answer.json answer.returnedvehs) →
        Execution.Always (step server) (SelectsNoLater server) (start clock map) steps) := by
  have correct := Execution.Always.run_iff Ordered Correct
    (fun _ _ _ ordered stepped => ordered.step stepped)
    (fun _ _ _ ordered stepped => ordered.correct_iff stepped)
    (ordered_start earlier) reached
  have started : (start clock map).Correct :=
    ⟨fun _ member => absurd member List.not_mem_nil, selectedEarlier_empty rfl⟩
  rw [and_iff_right started] at correct
  constructor
  · exact fun noLater => (correct.mpr noLater).1
  · intro idle answers
    exact correct.mp ⟨answers, selectedEarlier_empty (by rw [idle]; rfl)⟩

/-! ## An answer without interruption -/

theorem flatMap_selection (server : JsonServer) (map : LDMMap) (lat lon : ℚ) :
    map.ldmmap.keys.flatMap (selection server map lat lon) =
      map.selection server.haversineDist server.rangeM lat lon := by
  rw [LDMMap.selection, NestedMap.toList, AList.keys, List.keys, List.flatMap_map,
    List.map_flatMap, List.filter_flatMap]
  apply List.flatMap_congr
  intro entry member
  have found : map.ldmmap.lookup entry.1 = some entry.2 := AList.mem_lookup_iff.mpr member
  rw [selection, found]
  simp [Function.comp_def]

theorem run_selectLowers (request : JsonRequest) (uppers : List UInt32)
    (returnedvehs : List ReturnedVehicleData) (later : List JsonStep) :
    Execution.run (step server)
        { state with json := .selecting request uppers returnedvehs }
        (List.replicate uppers.length .selectLower ++ later) =
      Execution.run (step server)
        { state with json := .selecting request [] (returnedvehs ++
          uppers.flatMap (selection server state.map request.lat request.lon)) } later := by
  induction uppers generalizing returnedvehs with
  | nil => simp
  | cons upper rest induction =>
      rw [List.length_cons, List.replicate_succ, List.cons_append, Execution.run]
      simp only [step, selectLower]
      rw [induction, List.flatMap_cons, List.append_assoc]

theorem run_makeAimJson (lat lon : ℚ) (idle : state.json = .idle) {json : AimJson}
    (made : server.makeAimJson state.map state.clock lat lon = some json) :
    ∃ final, Execution.run (step server) state
        (.readNow lat lon :: .beginSelect state.map.ldmmap.keys ::
          (List.replicate state.map.ldmmap.keys.length .selectLower ++
            [.endSelect, .makeVehicles])) = some final ∧
      final.answers.map Answer.json = json :: state.answers.map Answer.json := by
  rw [JsonServer.makeAimJson, LDMMap.rangeSelect_eq, List.nil_append] at made
  have selected := @run_selectLowers server { state with stampedLater := [] }
    ⟨state.clock, lat, lon⟩ state.map.ldmmap.keys [] [.endSelect, .makeVehicles]
  rw [flatMap_selection] at selected
  simp only [Execution.run, step, readNow, idle, beginSelect, List.Perm.refl, if_true]
  rw [selected]
  simp only [Execution.run, step, endSelect, makeVehicles, List.nil_append, made,
    Option.map_some]
  exact ⟨_, rfl, rfl⟩

/-! ## An interrupted answer -/

def nearServer : JsonServer := ⟨LDMMap.noDist, 1000, false, 20⟩

/-- The record is inserted before the request reads the clock. -/
def refreshedBefore : List JsonStep :=
  [.stamp (LDMMap.station 12), .insert, .tick 2000, .readNow 45 7, .beginSelect [0],
    .selectLower, .endSelect, .makeVehicles]

/-- The receiver stamps and inserts its record after the request has read the clock. -/
def refreshedBetween : List JsonStep :=
  [.readNow 45 7, .tick 2000, .stamp (LDMMap.station 12), .insert, .beginSelect [0],
    .selectLower, .endSelect, .makeVehicles]

theorem answers_correct_iff_refreshedBefore :
    ∃ final, Execution.run (step nearServer) (start 1000 (.empty default)) refreshedBefore =
        some final ∧ final.answers.length = 1 ∧
      (Execution.Always (step nearServer) (SelectsNoLater nearServer)
          (start 1000 (.empty default)) refreshedBefore →
        ∀ answer ∈ final.answers, JsonServer.AgesCorrect answer.json answer.returnedvehs) ∧
      (final.json = .idle →
        (∀ answer ∈ final.answers, JsonServer.AgesCorrect answer.json answer.returnedvehs) →
          Execution.Always (step nearServer) (SelectsNoLater nearServer)
            (start 1000 (.empty default)) refreshedBefore) := by
  have reached := (Option.some_get (show (Execution.run (step nearServer)
    (start 1000 (.empty default)) refreshedBefore).isSome by decide +kernel)).symm
  refine ⟨_, reached, by decide +kernel, ?_⟩
  exact answers_correct_iff nearServer (fun _ _ _ found => by cases found) reached

/-- The vehicle is a thousand microseconds newer than the answer, and its age wraps around. -/
theorem not_agesCorrect_refreshedBetween :
    ∃ final, Execution.run (step nearServer) (start 1000 (.empty default)) refreshedBetween =
        some final ∧
      (final.answers.map fun answer =>
        answer.json.vehicles.map fun vehicle => (ageMember vehicle).bind Json.number?) =
        [[some (2 ^ 64 - 1000)]] ∧
      ¬∀ answer ∈ final.answers, JsonServer.AgesCorrect answer.json answer.returnedvehs := by
  have reached := (Option.some_get (show (Execution.run (step nearServer)
    (start 1000 (.empty default)) refreshedBetween).isSome by decide +kernel)).symm
  refine ⟨_, reached, by decide +kernel, fun correct => ?_⟩
  have notNewer := fun answer member => (correct answer member).not_newer
  exact absurd notNewer (by decide +kernel)

end JsonClock

end AIM.Threads
