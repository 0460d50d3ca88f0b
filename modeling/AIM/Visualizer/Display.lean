import AIM.Visualizer.Server

namespace AIM.Visualizer

open Database Decimal

/-! # What a client shows

AIM, the server and one client, with every message delivered at once: the markers of the
page are the result of all messages so far. -/

structure Display where
  visualizer : VehicleVisualizer
  server : Server
  page : Page

/-- `std::to_string` of a stationID, the name of its marker. -/
def objectID (stationID : UInt64) : Text := natText stationID.toNat

namespace Display

/-- AIM has sent the map, and the client has drawn the one that the server keeps. -/
def start (lat lon : ℚ) (mapboxToken : Text) : Display :=
  let server := (Server.mk mapboxToken none).keepMap (mapText lat lon)
  ⟨⟨true, true⟩, server, Page.new.onMessage server.mapmsg⟩

/-- Send a text, forward it and handle it; there is no result when AIM or the server
exits. -/
def send (display : Display)
    (sending : VehicleVisualizer → Option (VehicleVisualizer × Text)) : Option Display :=
  match sending display.visualizer with
  | none => none
  | some (visualizer, text) =>
      match display.server.onDatagram text with
      | none => none
      | some (server, none) => some ⟨visualizer, server, display.page⟩
      | some (server, some forwarded) =>
          some ⟨visualizer, server, display.page.onMessage (some forwarded)⟩

def clearObjects (display : Display) (ids : List UInt64) : Option Display :=
  ids.foldlM (fun current id => current.send (clearVisualizerObject · id)) display

def updateObjects (display : Display) (contents : List VehicleData) : Option Display :=
  contents.foldlM (fun current vehdata => current.send (updateVisualizer · vehdata)) display

/-- A page that is loaded anew is sent the map that the server keeps. -/
def reload (display : Display) : Display :=
  { display with page := Page.new.onMessage display.server.mapmsg }

structure Drawn (display : Display) : Prop where
  sent : display.visualizer = ⟨true, true⟩
  kept : ∃ text, display.server.mapmsg = some text ∧ Page.Drawable text
  drawn : display.page.leafletmap.isSome

variable {display : Display}

theorem Drawn.reload (drawn : display.Drawn) :
    display.reload.Drawn ∧ display.reload.page.shown = ∅ := by
  rcases drawn.kept with ⟨text, kept, drawable⟩
  rw [Display.reload, kept]
  constructor
  · exact ⟨drawn.sent, ⟨text, kept, drawable⟩, Page.onMessage_new_of_drawable drawable⟩
  · exact (Page.shown_onMessage_of_isMap _ drawable.1).trans Page.shown_new

theorem drawn_start (lat lon : ℚ) {mapboxToken : Text} (single : ',' ∉ mapboxToken) :
    (start lat lon mapboxToken).Drawn := by
  have length : (splitComma (mapText lat lon)).length =
      if kindOf (mapText lat lon) = "map".toList then 3 else 9 := by
    rw [kindOf, splitComma_mapText]
    rfl
  have drawable := @Server.drawable_keepMap ⟨mapboxToken, none⟩ _ (isMap_mapText lat lon) length
    single _ rfl
  exact ⟨rfl, ⟨_, rfl, drawable⟩, Page.onMessage_new_of_drawable drawable⟩

theorem shown_start (lat lon : ℚ) {mapboxToken : Text} (single : ',' ∉ mapboxToken) :
    (start lat lon mapboxToken).page.shown = ∅ :=
  (drawn_start lat lon single).reload.2

theorem send_eq (drawn : display.Drawn) {text : Text} (isObject : IsObject text)
    {sending : VehicleVisualizer → Option (VehicleVisualizer × Text)}
    (sends : sending ⟨true, true⟩ = some (⟨true, true⟩, text)) :
    display.send sending =
      some { display with page := display.page.onMessage (some text) } := by
  rcases display with ⟨visualizer, server, page⟩
  cases drawn.sent
  simp only [send, sends, Server.onDatagram_of_isObject server isObject]

theorem Drawn.onMessage (drawn : display.Drawn) {text : Text} (isObject : IsObject text) :
    { display with page := display.page.onMessage (some text) }.Drawn where
  sent := drawn.sent
  kept := drawn.kept
  drawn := by
    have same := Page.onMessage_of_not_isMap display.page (not_isMap_of_isObject isObject)
    rw [same.1]
    exact drawn.drawn

theorem send_clearVisualizerObject (drawn : display.Drawn) (id : UInt64) :
    ∃ next, display.send (clearVisualizerObject · id) = some next ∧ next.Drawn ∧
      next.page.shown = display.page.shown \ {objectID id} := by
  have isObject := isObject_objcleanText (natText id.toNat)
  refine ⟨_, send_eq drawn isObject rfl, drawn.onMessage isObject, ?_⟩
  exact display.page.shown_onMessage_objcleanText id.toNat

theorem send_updateVisualizer (drawn : display.Drawn) (vehdata : VehicleData) :
    ∃ next, display.send (updateVisualizer · vehdata) = some next ∧ next.Drawn ∧
      next.page.shown = insert (objectID vehdata.stationID) display.page.shown := by
  have isObject := isObject_objectText (natText vehdata.stationID.toNat) vehdata.lat
    vehdata.lon vehdata.stationType vehdata.heading
  refine ⟨_, send_eq drawn isObject rfl, drawn.onMessage isObject, ?_⟩
  dsimp only
  rw [Page.onMessage_objectText display.page (comma_not_mem_nat _)]
  exact (Page.shown_updateMarker drawn.drawn _ _ _ _).1

theorem clearObjects_spec (drawn : display.Drawn) (ids : List UInt64) :
    ∃ next, display.clearObjects ids = some next ∧ next.Drawn ∧
      next.page.shown = display.page.shown \ objectID '' { id | id ∈ ids } := by
  induction ids generalizing display with
  | nil => exact ⟨display, rfl, drawn, by simp⟩
  | cons id rest induction =>
      rcases send_clearVisualizerObject drawn id with ⟨middle, first, middleDrawn, cleared⟩
      rcases induction middleDrawn with ⟨next, later, nextDrawn, shown⟩
      refine ⟨next, ?_, nextDrawn, ?_⟩
      · rw [clearObjects, List.foldlM_cons, first]
        exact later
      · rw [shown, cleared, Set.sdiff_sdiff, Set.singleton_union, ← Set.image_insert_eq]
        congr 2
        ext other
        exact List.mem_cons.symm

theorem updateObjects_spec (drawn : display.Drawn) (contents : List VehicleData) :
    ∃ next, display.updateObjects contents = some next ∧ next.Drawn ∧
      next.page.shown = display.page.shown ∪
        objectID '' { id | ∃ vehdata ∈ contents, vehdata.stationID = id } := by
  induction contents generalizing display with
  | nil => exact ⟨display, rfl, drawn, by simp⟩
  | cons vehdata rest induction =>
      rcases send_updateVisualizer drawn vehdata with ⟨middle, first, middleDrawn, added⟩
      rcases induction middleDrawn with ⟨next, later, nextDrawn, shown⟩
      refine ⟨next, ?_, nextDrawn, ?_⟩
      · rw [updateObjects, List.foldlM_cons, first]
        exact later
      · rw [shown, added]
        ext text
        simp only [Set.mem_union, Set.mem_insert_iff, Set.mem_image, Set.mem_ofPred_eq,
          List.exists_mem_cons_iff]
        constructor
        · rintro ((isFirst | before) | ⟨id, member, equal⟩)
          · exact .inr ⟨_, .inl rfl, isFirst.symm⟩
          · exact .inl before
          · exact .inr ⟨id, .inr member, equal⟩
        · rintro (before | ⟨id, isFirst | member, equal⟩)
          · exact .inl (.inr before)
          · exact .inl (.inl (isFirst ▸ equal.symm))
          · exact .inr ⟨id, member, equal⟩

end Display

end AIM.Visualizer
