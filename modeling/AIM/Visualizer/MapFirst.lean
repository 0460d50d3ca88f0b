import AIM.Foundation.Execution
import AIM.Foundation.Precedence
import AIM.Visualizer.Server

namespace AIM.Visualizer

open Decimal

/-! # The map comes first

AIM, the server and any number of browsers. Datagrams and messages are delivered in
order. -/

/-- A connected browser: the messages on their way to it and those that were delivered. A
null message says that the server has no map. -/
structure Client where
  messages : List (Option Text)
  delivered : List (Option Text)
  page : Page

def Client.new : Client := ⟨[], [], .new⟩

def Client.enqueue (message : Option Text) (client : Client) : Client :=
  { client with messages := client.messages ++ [message] }

/-- Whether a client has connected since the server has a map is kept beside the state. -/
structure VisualizerSystem where
  visualizer : VehicleVisualizer
  datagrams : List Text
  server : Server
  clients : Nat → Option Client
  announced : Bool

inductive VisualizerCall
  | sendMapDraw (lat lon : ℚ)
  | sendMapDrawAreas (lat lon minlat minlon maxlat maxlon latExtFactor lonExtFactor : ℚ)
  | sendObjectUpdate (objID : Text) (lat lon : ℚ) (stationType : Int) (heading : ℚ)
  | sendObjectClean (objID : Text)
  | terminateServer

inductive VisualizerStep
  | call (visualizerCall : VisualizerCall)
  | receive
  | connect (client : Nat)
  | disconnect (client : Nat)
  | deliver (client : Nat)

def VisualizerCall.perform (visualizer : VehicleVisualizer) :
    VisualizerCall → Option (VehicleVisualizer × Text)
  | .sendMapDraw lat lon => visualizer.sendMapDraw lat lon
  | .sendMapDrawAreas lat lon minlat minlon maxlat maxlon latExtFactor lonExtFactor =>
      visualizer.sendMapDrawAreas lat lon minlat minlon maxlat maxlon latExtFactor
        lonExtFactor
  | .sendObjectUpdate objID lat lon stationType heading =>
      visualizer.sendObjectUpdate objID lat lon stationType heading
  | .sendObjectClean objID => visualizer.sendObjectClean objID
  | .terminateServer => visualizer.terminateServer

namespace VisualizerSystem

def start (mapboxToken : Text) : VisualizerSystem where
  visualizer := VehicleVisualizer.new.connectToServer
  datagrams := []
  server := ⟨mapboxToken, none⟩
  clients _ := none
  announced := false

variable (system : VisualizerSystem)

/-- `io.sockets.send` -/
def broadcast (message : Option Text) : VisualizerSystem :=
  { system with clients := fun client => (system.clients client).map (.enqueue message) }

def call (visualizerCall : VisualizerCall) : Option VisualizerSystem :=
  (visualizerCall.perform system.visualizer).map fun sent =>
    { system with
      visualizer := sent.1
      datagrams := system.datagrams ++ [sent.2] }

def receive : Option VisualizerSystem :=
  match system.datagrams with
  | [] => none
  | datagram :: rest =>
      match system.server.onDatagram datagram with
      | none => none
      | some (server, none) => some { system with datagrams := rest, server := server }
      | some (server, some message) =>
          some ({ system with datagrams := rest, server := server }.broadcast (some message))

/-- The map message is sent to all clients whenever one of them connects. -/
def connect (client : Nat) : Option VisualizerSystem :=
  match system.clients client with
  | some _ => none
  | none =>
      some ({ system with
        clients := Function.update system.clients client (some .new)
        announced := system.server.mapmsg.isSome }.broadcast system.server.mapmsg)

def disconnect (client : Nat) : Option VisualizerSystem :=
  match system.clients client with
  | none => none
  | some _ => some { system with clients := Function.update system.clients client none }

def deliver (client : Nat) : Option VisualizerSystem :=
  match system.clients client with
  | none => none
  | some ⟨[], _, _⟩ => none
  | some ⟨message :: rest, delivered, page⟩ =>
      some { system with
        clients := Function.update system.clients client
          (some ⟨rest, delivered ++ [message], page.onMessage message⟩) }

def step : VisualizerStep → Option VisualizerSystem
  | .call visualizerCall => system.call visualizerCall
  | .receive => system.receive
  | .connect client => system.connect client
  | .disconnect client => system.disconnect client
  | .deliver client => system.deliver client

/-! ## The property -/

def HasMap (client : Client) : Prop :=
  (∃ text, some text ∈ client.delivered ∧ IsMap text) ∧ client.page.leafletmap.isSome

def MapBeforeObjects : VisualizerStep → Prop
  | .deliver client =>
      ∀ {receiver text rest}, system.clients client = some receiver →
        receiver.messages = some text :: rest → IsObject text → HasMap receiver
  | _ => True

/-- Objects are forwarded when no client is connected, or after a client has connected to
the server with its map, and the token of that map is a single field. -/
def Announces : VisualizerStep → Prop
  | .receive =>
      ∀ {datagram rest}, system.datagrams = datagram :: rest →
        (IsMap datagram → ',' ∉ system.server.mapboxToken) ∧
        (IsObject datagram → system.announced = true ∨ ∀ client, system.clients client = none)
  | _ => True

/-! ## The invariant -/

def EarlyMessage (message : Option Text) : Prop :=
  ∃ text, message = some text ∧ IsMap text

def LateMessage (message : Option Text) : Prop :=
  ∃ text, message = some text ∧ IsObject text

structure ClientOrdered (client : Client) : Prop where
  ready : client.page.mapRx = true → client.page.leafletmap.isSome
  drawn : client.page.leafletmap.isSome → HasMap client
  drawable : ∀ {text}, some text ∈ client.messages → IsMap text → Page.Drawable text
  precedes : Precedes EarlyMessage LateMessage (HasMap client) client.messages

def Informed (client : Client) : Prop :=
  HasMap client ∨ ∃ message ∈ client.messages, EarlyMessage message

structure Ordered (system : VisualizerSystem) : Prop where
  sent : system.visualizer.isMapSent = true →
    system.server.mapmsg.isSome = true ∨ ∃ datagram ∈ system.datagrams, IsMap datagram
  datagrams : Precedes IsMap IsObject (system.server.mapmsg.isSome = true) system.datagrams
  mapmsg : ∀ {text}, system.server.mapmsg = some text → Page.Drawable text
  announced : system.announced = true → system.server.mapmsg.isSome = true
  clients : ∀ {client receiver}, system.clients client = some receiver → ClientOrdered receiver
  informed : system.announced = true →
    ∀ {client receiver}, system.clients client = some receiver → Informed receiver

theorem ordered_start (mapboxToken : Text) : (start mapboxToken).Ordered where
  sent isSent := by cases isSent
  datagrams := trivial
  mapmsg found := by cases found
  announced isAnnounced := by cases isAnnounced
  clients found := by cases found
  informed isAnnounced := by cases isAnnounced

/-! ## Clients -/

theorem clientOrdered_new : ClientOrdered .new where
  ready received := by cases received
  drawn isDrawn := by cases isDrawn
  drawable member := by cases member
  precedes := trivial

theorem ClientOrdered.enqueue {client : Client} (ordered : ClientOrdered client)
    {message : Option Text}
    (drawable : ∀ {text}, message = some text → IsMap text → Page.Drawable text)
    (prepared : LateMessage message → Informed client) :
    ClientOrdered (client.enqueue message) where
  ready := ordered.ready
  drawn := ordered.drawn
  drawable := by
    intro text member isMap
    rcases List.mem_append.mp member with earlier | last
    · exact ordered.drawable earlier isMap
    · exact drawable (List.mem_singleton.mp last).symm isMap
  precedes := ordered.precedes.append prepared

theorem Informed.enqueue {client : Client} (informed : Informed client)
    (message : Option Text) : Informed (client.enqueue message) := by
  rcases informed with hasMap | ⟨earlier, member, isEarly⟩
  · exact .inl hasMap
  · exact .inr ⟨earlier, List.mem_append_left _ member, isEarly⟩

section

variable {message : Option Text} {rest delivered : List (Option Text)} {page : Page}

def handled (message : Option Text) (rest delivered : List (Option Text)) (page : Page) :
    Client :=
  ⟨rest, delivered ++ [message], page.onMessage message⟩

theorem hasMap_handled (ordered : ClientOrdered ⟨message :: rest, delivered, page⟩)
    (has : HasMap ⟨message :: rest, delivered, page⟩ ∨ EarlyMessage message) :
    HasMap (handled message rest delivered page) := by
  rcases has with ⟨⟨text, member, isMap⟩, isDrawn⟩ | ⟨text, rfl, isMap⟩
  · refine ⟨⟨text, List.mem_append_left _ member, isMap⟩, ?_⟩
    rcases page.onMessage_cases message with after | ⟨same, _⟩
    · exact after
    · exact (congrArg Option.isSome same).trans isDrawn
  · refine ⟨⟨text, List.mem_append_right _ (List.mem_singleton.mpr rfl), isMap⟩, ?_⟩
    exact page.onMessage_of_drawable (ordered.drawable List.mem_cons_self isMap) ordered.ready

theorem early_of_drawn (undrawn : ¬page.leafletmap.isSome)
    (after : (page.onMessage message).leafletmap.isSome) : EarlyMessage message := by
  cases message with
  | none => exact absurd after undrawn
  | some text =>
      refine ⟨text, rfl, ?_⟩
      by_contra notMap
      rw [(page.onMessage_of_not_isMap notMap).1] at after
      exact undrawn after

theorem clientOrdered_handled (ordered : ClientOrdered ⟨message :: rest, delivered, page⟩) :
    ClientOrdered (handled message rest delivered page) where
  ready := by
    intro received
    rcases page.onMessage_cases message with after | ⟨same, sameRx⟩
    · exact after
    · exact (congrArg Option.isSome same).trans (ordered.ready (sameRx.symm.trans received))
  drawn := by
    intro after
    apply hasMap_handled ordered
    by_cases before : page.leafletmap.isSome
    · exact .inl (ordered.drawn before)
    · exact .inr (early_of_drawn before after)
  drawable member := ordered.drawable (List.mem_cons_of_mem _ member)
  precedes := ordered.precedes.2.mono (hasMap_handled ordered)

theorem informed_handled (ordered : ClientOrdered ⟨message :: rest, delivered, page⟩)
    (informed : Informed ⟨message :: rest, delivered, page⟩) :
    Informed (handled message rest delivered page) := by
  rcases informed with hasMap | ⟨sent, member, isEarly⟩
  · exact .inl (hasMap_handled ordered (.inl hasMap))
  · rcases List.mem_cons.mp member with rfl | later
    · exact .inl (hasMap_handled ordered (.inr isEarly))
    · exact .inr ⟨sent, later, isEarly⟩

end

/-! ## Steps -/

variable {system} {next : VisualizerSystem}

theorem sendMap_cases {visualizer after : VehicleVisualizer} {text sent : Text}
    (sending : visualizer.sendMap text = some (after, sent)) :
    sent = text ∧ after.isMapSent = true := by
  unfold VehicleVisualizer.sendMap at sending
  split at sending
  · cases sending
  · split at sending
    · cases sending
    · cases sending
      exact ⟨rfl, rfl⟩

theorem sendObject_cases {visualizer after : VehicleVisualizer} {text sent : Text}
    (sending : visualizer.sendObject text = some (after, sent)) :
    sent = text ∧ after = visualizer ∧ visualizer.isMapSent = true := by
  unfold VehicleVisualizer.sendObject at sending
  split at sending
  · cases sending
  · split at sending
    · cases sending
    · next isSent =>
        cases sending
        exact ⟨rfl, rfl, Bool.not_eq_false _ ▸ isSent⟩

theorem perform_cases {visualizer after : VehicleVisualizer} {text : Text}
    {visualizerCall : VisualizerCall}
    (performed : visualizerCall.perform visualizer = some (after, text)) :
    (IsMap text ∧ after.isMapSent = true) ∨
      (visualizer.isMapSent = true ∧ after = visualizer) ∨
      (¬IsObject text ∧ after.isMapSent = visualizer.isMapSent) := by
  cases visualizerCall with
  | sendMapDraw lat lon =>
      rcases sendMap_cases performed with ⟨rfl, isSent⟩
      exact .inl ⟨isMap_mapText lat lon, isSent⟩
  | sendMapDrawAreas lat lon minlat minlon maxlat maxlon latExtFactor lonExtFactor =>
      rcases sendMap_cases performed with ⟨rfl, isSent⟩
      exact .inl ⟨isMap_mapAreasText lat lon minlat minlon maxlat maxlon latExtFactor
        lonExtFactor, isSent⟩
  | sendObjectUpdate objID lat lon stationType heading =>
      rcases sendObject_cases performed with ⟨_, same, isSent⟩
      exact .inr (.inl ⟨isSent, same⟩)
  | sendObjectClean objID =>
      rcases sendObject_cases performed with ⟨_, same, isSent⟩
      exact .inr (.inl ⟨isSent, same⟩)
  | terminateServer =>
      simp only [VisualizerCall.perform, VehicleVisualizer.terminateServer] at performed
      split at performed
      · cases performed
      · cases performed
        exact .inr (.inr ⟨by decide, rfl⟩)

theorem call_ordered (ordered : system.Ordered) {visualizerCall : VisualizerCall}
    (stepped : system.call visualizerCall = some next) : next.Ordered := by
  rcases Option.map_eq_some_iff.mp stepped with ⟨⟨after, text⟩, performed, rfl⟩
  have cases := perform_cases performed
  constructor
  case sent =>
    intro isSent
    rcases cases with ⟨isMap, _⟩ | ⟨wasSent, _⟩ | ⟨_, same⟩
    · exact .inr ⟨text, List.mem_append_right _ (List.mem_singleton.mpr rfl), isMap⟩
    · rcases ordered.sent wasSent with kept | ⟨datagram, member, isMap⟩
      · exact .inl kept
      · exact .inr ⟨datagram, List.mem_append_left _ member, isMap⟩
    · rcases ordered.sent (same.symm.trans isSent) with kept | ⟨datagram, member, isMap⟩
      · exact .inl kept
      · exact .inr ⟨datagram, List.mem_append_left _ member, isMap⟩
  case datagrams =>
    apply ordered.datagrams.append
    intro isObject
    rcases cases with ⟨isMap, _⟩ | ⟨wasSent, _⟩ | ⟨notObject, _⟩
    · exact absurd isMap (not_isMap_of_isObject isObject)
    · exact ordered.sent wasSent
    · exact absurd isObject notObject
  case mapmsg => exact ordered.mapmsg
  case announced => exact ordered.announced
  case clients => exact ordered.clients
  case informed => exact ordered.informed

theorem broadcast_client {message : Option Text} {client : Nat} {receiver : Client}
    (found : (system.broadcast message).clients client = some receiver) :
    ∃ before, system.clients client = some before ∧ receiver = before.enqueue message := by
  rcases Option.map_eq_some_iff.mp found with ⟨before, present, rfl⟩
  exact ⟨before, present, rfl⟩

theorem receive_cases (stepped : system.receive = some next) :
    ∃ datagram rest, system.datagrams = datagram :: rest ∧
      ((IsMap datagram ∧
          (splitComma datagram).length = (if kindOf datagram = "map".toList then 3 else 9) ∧
          next = { system with
            datagrams := rest
            server := system.server.keepMap datagram }) ∨
        (¬IsMap datagram ∧
          next = { system with datagrams := rest }.broadcast (some datagram))) := by
  rcases system with ⟨visualizer, datagrams, server, clients, announced⟩
  cases datagrams with
  | nil => cases stepped
  | cons datagram rest =>
      refine ⟨datagram, rest, rfl, ?_⟩
      simp only [receive] at stepped
      cases handled : server.onDatagram datagram with
      | none => simp [handled] at stepped
      | some result =>
          rcases result with ⟨after, forwarded⟩
          rcases Server.onDatagram_cases handled with
            ⟨isMap, length, _, rfl, rfl⟩ | ⟨notMap, rfl, rfl⟩
          · simp only [handled, Option.some.injEq] at stepped
            exact .inl ⟨isMap, length, stepped.symm⟩
          · simp only [handled, Option.some.injEq] at stepped
            exact .inr ⟨notMap, stepped.symm⟩

theorem keepMap_ordered (ordered : system.Ordered) {datagram : Text} {rest : List Text}
    (waiting : system.datagrams = datagram :: rest) (isMap : IsMap datagram)
    (length : (splitComma datagram).length =
      if kindOf datagram = "map".toList then 3 else 9)
    (single : ',' ∉ system.server.mapboxToken) :
    { system with
      datagrams := rest
      server := system.server.keepMap datagram }.Ordered := by
  have datagrams := ordered.datagrams
  rw [waiting] at datagrams
  constructor
  case sent => exact fun _ => .inl rfl
  case datagrams => exact datagrams.2.mono fun _ => rfl
  case mapmsg => exact Server.drawable_keepMap isMap length single
  case announced => exact fun _ => rfl
  case clients => exact ordered.clients
  case informed => exact ordered.informed

theorem forward_ordered (ordered : system.Ordered) {datagram : Text} {rest : List Text}
    (waiting : system.datagrams = datagram :: rest) (notMap : ¬IsMap datagram)
    (prepared : IsObject datagram →
      system.announced = true ∨ ∀ client, system.clients client = none) :
    ({ system with datagrams := rest }.broadcast (some datagram)).Ordered := by
  have datagrams := ordered.datagrams
  have sent := ordered.sent
  rw [waiting] at datagrams sent
  constructor
  case sent =>
    intro isSent
    rcases sent isSent with kept | ⟨other, member, isMap⟩
    · exact .inl kept
    · rcases List.mem_cons.mp member with rfl | behind
      · exact absurd isMap notMap
      · exact .inr ⟨other, behind, isMap⟩
  case datagrams => exact datagrams.2.mono fun seen => seen.resolve_right notMap
  case mapmsg => exact ordered.mapmsg
  case announced => exact ordered.announced
  case clients =>
    intro client receiver found
    rcases broadcast_client found with ⟨before, present, rfl⟩
    apply (ordered.clients present).enqueue
    · intro text equal isMap
      cases equal
      exact absurd isMap notMap
    · rintro ⟨text, equal, isObject⟩
      cases equal
      rcases prepared isObject with isAnnounced | unconnected
      · exact ordered.informed isAnnounced present
      · cases (unconnected client).symm.trans present
  case informed =>
    intro isAnnounced client receiver found
    rcases broadcast_client found with ⟨before, present, rfl⟩
    exact (ordered.informed isAnnounced present).enqueue _

theorem receive_ordered (ordered : system.Ordered) (announces : system.Announces .receive)
    (stepped : system.receive = some next) : next.Ordered := by
  rcases receive_cases stepped with ⟨datagram, rest, waiting, map | forwarded⟩
  · rcases map with ⟨isMap, length, rfl⟩
    exact keepMap_ordered ordered waiting isMap length ((announces waiting).1 isMap)
  · rcases forwarded with ⟨notMap, rfl⟩
    exact forward_ordered ordered waiting notMap (announces waiting).2

theorem connect_ordered (ordered : system.Ordered) {client : Nat}
    (stepped : system.connect client = some next) : next.Ordered := by
  rcases system with ⟨visualizer, datagrams, server, clients, announced⟩
  have isClient : ∀ {other receiver},
      Function.update clients client (some Client.new) other = some receiver →
        ClientOrdered receiver := by
    intro other receiver found
    by_cases same : other = client
    · subst same
      rw [Function.update_self] at found
      cases found
      exact clientOrdered_new
    · rw [Function.update_of_ne same] at found
      exact ordered.clients found
  cases present : clients client with
  | some receiver => simp [connect, present] at stepped
  | none =>
      simp only [connect, present, Option.some.injEq] at stepped
      subst stepped
      constructor
      case sent => exact ordered.sent
      case datagrams => exact ordered.datagrams
      case mapmsg => exact ordered.mapmsg
      case announced => exact fun isAnnounced => isAnnounced
      case clients =>
        intro other receiver found
        rcases broadcast_client found with ⟨before, connected, rfl⟩
        apply (isClient connected).enqueue
        · exact fun kept _ => ordered.mapmsg kept
        · rintro ⟨text, kept, isObject⟩
          exact absurd (ordered.mapmsg kept).1 (not_isMap_of_isObject isObject)
      case informed =>
        intro isAnnounced other receiver found
        rcases broadcast_client found with ⟨before, _, rfl⟩
        rcases Option.isSome_iff_exists.mp isAnnounced with ⟨text, kept⟩
        exact .inr ⟨_, List.mem_append_right _ (List.mem_singleton.mpr rfl), text, kept,
          (ordered.mapmsg kept).1⟩

theorem disconnect_ordered (ordered : system.Ordered) {client : Nat}
    (stepped : system.disconnect client = some next) : next.Ordered := by
  have fewer : ∀ {other receiver},
      Function.update system.clients client none other = some receiver →
        system.clients other = some receiver := by
    intro other receiver found
    by_cases same : other = client
    · subst same
      rw [Function.update_self] at found
      cases found
    · rwa [Function.update_of_ne same] at found
  unfold disconnect at stepped
  split at stepped
  · cases stepped
  · cases stepped
    exact ⟨ordered.sent, ordered.datagrams, ordered.mapmsg, ordered.announced,
      fun found => ordered.clients (fewer found),
      fun isAnnounced _ _ found => ordered.informed isAnnounced (fewer found)⟩

theorem deliver_cases {client : Nat} (stepped : system.deliver client = some next) :
    ∃ message rest delivered page,
      system.clients client = some ⟨message :: rest, delivered, page⟩ ∧
      next = { system with
        clients := Function.update system.clients client
          (some (handled message rest delivered page)) } := by
  unfold deliver at stepped
  split at stepped
  · cases stepped
  · cases stepped
  · next message rest delivered page found =>
      cases stepped
      exact ⟨message, rest, delivered, page, found, rfl⟩

theorem deliver_ordered (ordered : system.Ordered) {client : Nat}
    (stepped : system.deliver client = some next) : next.Ordered := by
  rcases deliver_cases stepped with ⟨message, rest, delivered, page, present, rfl⟩
  constructor
  case sent => exact ordered.sent
  case datagrams => exact ordered.datagrams
  case mapmsg => exact ordered.mapmsg
  case announced => exact ordered.announced
  case clients =>
    intro other receiver found
    by_cases same : other = client
    · subst same
      cases (Function.update_self other _ _).symm.trans found
      exact clientOrdered_handled (ordered.clients present)
    · exact ordered.clients ((Function.update_of_ne same _ _).symm.trans found)
  case informed =>
    intro isAnnounced other receiver found
    by_cases same : other = client
    · subst same
      cases (Function.update_self other _ _).symm.trans found
      exact informed_handled (ordered.clients present) (ordered.informed isAnnounced present)
    · exact ordered.informed isAnnounced ((Function.update_of_ne same _ _).symm.trans found)

theorem Ordered.step (ordered : system.Ordered) {visualizerStep : VisualizerStep}
    (announces : system.Announces visualizerStep)
    (stepped : system.step visualizerStep = some next) : next.Ordered := by
  cases visualizerStep with
  | call visualizerCall => exact call_ordered ordered stepped
  | receive => exact receive_ordered ordered announces stepped
  | connect client => exact connect_ordered ordered stepped
  | disconnect client => exact disconnect_ordered ordered stepped
  | deliver client => exact deliver_ordered ordered stepped

theorem Ordered.mapBeforeObjects (ordered : system.Ordered)
    (visualizerStep : VisualizerStep) : system.MapBeforeObjects visualizerStep := by
  cases visualizerStep with
  | deliver client =>
      intro receiver text rest present messages isObject
      have precedes := (ordered.clients present).precedes
      rw [messages] at precedes
      exact precedes.1 ⟨text, rfl, isObject⟩
  | call | receive | connect | disconnect => trivial

/-- Every client gets a map before its first object, as long as objects are forwarded only
after some client has connected to a server that has the map. -/
theorem run_mapBeforeObjects (mapboxToken : Text) (steps : List VisualizerStep)
    (announces : Execution.Always step Announces (start mapboxToken) steps) :
    Execution.Always step MapBeforeObjects (start mapboxToken) steps := by
  apply Execution.Always.of_invariant Ordered (fun _ => True)
  · intro system visualizerStep next ordered _ announces stepped
    exact ordered.step announces stepped
  · intro system visualizerStep ordered _ _
    exact ordered.mapBeforeObjects visualizerStep
  · exact ordered_start mapboxToken
  · exact fun _ _ => trivial
  · exact announces

theorem receive_mapText {lat lon : ℚ} {rest : List Text}
    (waiting : system.datagrams = mapText lat lon :: rest)
    (first : system.server.mapmsg = none) :
    system.receive = some { system with
      datagrams := rest
      server := system.server.keepMap (mapText lat lon) } := by
  rw [receive, waiting]
  simp only [Server.onDatagram_mapText first]

theorem receive_of_isObject {datagram : Text} {rest : List Text}
    (waiting : system.datagrams = datagram :: rest) (isObject : IsObject datagram) :
    system.receive = some ({ system with datagrams := rest }.broadcast (some datagram)) := by
  rw [receive, waiting]
  simp only [Server.onDatagram_of_isObject _ isObject]

/-! A browser that connects after the server has the map, and one that connects earlier. -/

def waitingMap : VisualizerSystem :=
  { start "none".toList with
    visualizer := ⟨true, true⟩
    datagrams := [mapText 45 7] }

def keptMap : VisualizerSystem :=
  { waitingMap with
    datagrams := []
    server := waitingMap.server.keepMap (mapText 45 7) }

def waitingObject : VisualizerSystem :=
  { ({ keptMap with
      clients := Function.update keptMap.clients 0 (some .new)
      announced := true }.broadcast keptMap.server.mapmsg) with
    datagrams := [objcleanText "12".toList] }

theorem run_mapBeforeObjects_lateClient :
    Execution.Always step MapBeforeObjects (start "none".toList)
      [.call (.sendMapDraw 45 7), .receive, .connect 0,
        .call (.sendObjectClean "12".toList), .receive, .deliver 0, .deliver 0] := by
  apply run_mapBeforeObjects
  have mapKept : receive waitingMap = some keptMap := receive_mapText rfl rfl
  have objectSent := receive_of_isObject (show waitingObject.datagrams = _ from rfl)
    (isObject_objcleanText "12".toList)
  have announcesMap : Announces waitingMap .receive := by
    intro datagram rest waiting
    cases waiting
    refine ⟨fun _ => by decide, fun isObject => ?_⟩
    exact absurd (isMap_mapText 45 7) (not_isMap_of_isObject isObject)
  have announcesObject : Announces waitingObject .receive := by
    intro datagram rest waiting
    cases waiting
    exact ⟨fun _ => by decide, fun _ => .inl rfl⟩
  apply Execution.Always.cons trivial rfl
  apply Execution.Always.cons @announcesMap mapKept
  apply Execution.Always.cons trivial rfl
  apply Execution.Always.cons trivial rfl
  apply Execution.Always.cons @announcesObject objectSent
  apply Execution.Always.cons trivial rfl
  apply Execution.Always.cons trivial rfl
  trivial

/-- The early browser is sent nothing when the map arrives, and draws no map before it is
delivered an object. -/
theorem not_mapBeforeObjects_of_earlyClient :
    ¬Execution.Always step MapBeforeObjects (start "none".toList)
      [.connect 0, .call (.sendMapDraw 45 7), .receive,
        .call (.sendObjectUpdate "12".toList 45 7 5 90), .receive, .deliver 0, .deliver 0] := by
  intro always
  have last := always.after [VisualizerStep.connect 0, .call (.sendMapDraw 45 7), .receive,
    .call (.sendObjectUpdate "12".toList 45 7 5 90), .receive, .deliver 0]
    (Option.some_get (by decide +kernel)).symm
  have hasMap := last.1 (Option.some_get (by decide +kernel)).symm
    (show _ = [some (objectText "12".toList 45 7 5 90)] by decide +kernel)
    (isObject_objectText _ _ _ _ _)
  exact absurd hasMap.2 (by decide +kernel)

end VisualizerSystem

end AIM.Visualizer
