import AIM.Visualizer.MarkerUpdate
import AIM.Visualizer.TextRoundTrip

namespace AIM.Visualizer

open Database Decimal

/-! # Markers of records

What a page shows of the records that AIM sends. A marker has the position, the heading and
the icon of the last record of its station, whatever it showed before. Its popup may be older:
it stays when the heading is lost by a marker without the car icon. -/

def HeadingLost (vehdata : VehicleData) : Prop :=
  visHeadingInvalid ≤ rounded 3 vehdata.heading

instance (vehdata : VehicleData) : Decidable (HeadingLost vehdata) :=
  inferInstanceAs (Decidable (_ ≤ _))

def recordPopup (vehdata : VehicleData) : Popup where
  id := objectID vehdata.stationID
  heading := if HeadingLost vehdata then none else some (rounded 3 vehdata.heading)

/-- The popup that the loss of a heading left behind is the one of a record of station type
zero. -/
structure Marker.KeepsPopup (marker : Marker) (vehdata previous : VehicleData) : Prop where
  lost : HeadingLost vehdata
  available : ¬HeadingLost previous
  unknown : previous.stationType = 0
  station : previous.stationID = vehdata.stationID
  popup : marker.popup = recordPopup previous

/-- The marker is the one of the record, with the digits that are sent, and the popup is its
own or was left behind by one of the records that were held. -/
structure Marker.ShowsRecord (marker : Marker) (held : Set VehicleData) (vehdata : VehicleData) :
    Prop where
  lat : marker.lat = some (rounded 7 vehdata.lat)
  lon : marker.lon = some (rounded 7 vehdata.lon)
  rotationAngle : marker.rotationAngle = some (rounded 3 vehdata.heading)
  icon : marker.icon =
    Page.initialIcon (some vehdata.stationType) (some (rounded 3 vehdata.heading))
  popup : marker.popup = recordPopup vehdata ∨
    ∃ previous ∈ held, marker.KeepsPopup vehdata previous

theorem natText_injective {first second : Nat} (same : natText first = natText second) :
    first = second := by
  have digits := congrArg (fun text => Nat.ofDigitChars 10 text 0) same
  rwa [ofDigitChars_natText, ofDigitChars_natText] at digits

theorem objectID_injective : Function.Injective objectID := by
  intro first second same
  exact UInt64.toNat_inj.mp (natText_injective same)

theorem recordPopup_of_lost {first second : VehicleData} (firstLost : HeadingLost first)
    (secondLost : HeadingLost second) (station : first.stationID = second.stationID) :
    recordPopup first = recordPopup second := by
  rw [recordPopup, recordPopup, if_pos firstLost, if_pos secondLost, station]

theorem Marker.ShowsRecord.mono {marker : Marker} {held later : Set VehicleData}
    {vehdata : VehicleData} (shows : marker.ShowsRecord held vehdata) (subset : held ⊆ later) :
    marker.ShowsRecord later vehdata where
  lat := shows.lat
  lon := shows.lon
  rotationAngle := shows.rotationAngle
  icon := shows.icon
  popup := shows.popup.imp_right fun ⟨previous, isHeld, keeps⟩ => ⟨previous, subset isHeld, keeps⟩

namespace Page

theorem atLeast_iff_lost (vehdata : VehicleData) :
    atLeast (some (rounded 3 vehdata.heading)) visHeadingInvalid = true ↔ HeadingLost vehdata :=
  decide_eq_true_iff

theorem below_iff_not_lost (vehdata : VehicleData) :
    below (some (rounded 3 vehdata.heading)) visHeadingInvalid = true ↔ ¬HeadingLost vehdata :=
  decide_eq_true_iff.trans not_le.symm

theorem newMarker_popup (vehdata : VehicleData) (lat lon : Number) :
    (newMarker (objectID vehdata.stationID) lat lon (some vehdata.stationType)
      (some (rounded 3 vehdata.heading))).popup = recordPopup vehdata := by
  have available := below_iff_not_lost vehdata
  by_cases lost : HeadingLost vehdata
  · rw [newMarker, recordPopup, if_pos lost, if_neg (fun below => available.mp below lost)]
  · rw [newMarker, recordPopup, if_neg lost, if_pos (available.mpr lost)]

theorem newMarker_showsRecord (held : Set VehicleData) (vehdata : VehicleData) :
    (newMarker (objectID vehdata.stationID) (some (rounded 7 vehdata.lat))
      (some (rounded 7 vehdata.lon)) (some vehdata.stationType)
      (some (rounded 3 vehdata.heading))).ShowsRecord held vehdata :=
  ⟨rfl, rfl, rfl, rfl, .inl (newMarker_popup vehdata _ _)⟩

theorem unknown_of_ne_carIcon {vehdata : VehicleData} (available : ¬HeadingLost vehdata)
    (icon : initialIcon (some vehdata.stationType) (some (rounded 3 vehdata.heading)) ≠ .carIcon) :
    vehdata.stationType = 0 := by
  by_contra known
  refine icon ?_
  rw [initialIcon, if_neg (fun same => known (Option.some.inj same)),
    if_neg (mt (atLeast_iff_lost vehdata).mp available)]

theorem nextPopup_record {marker : Marker} {held : Set VehicleData}
    {shown vehdata : VehicleData} (isHeld : shown ∈ held) (shows : marker.ShowsRecord held shown)
    (station : shown.stationID = vehdata.stationID) (next : Marker)
    (popup : next.popup = nextPopup marker (some marker.icon) (objectID vehdata.stationID)
      (some (rounded 3 vehdata.heading))) :
    next.popup = recordPopup vehdata ∨ ∃ previous ∈ held, next.KeepsPopup vehdata previous := by
  have unavailable := atLeast_iff_lost vehdata
  have available := below_iff_not_lost vehdata
  by_cases lost : HeadingLost vehdata
  · by_cases car : marker.icon = .carIcon
    · left
      rw [popup, recordPopup, if_pos lost, nextPopup,
        if_pos ⟨unavailable.mpr lost, congrArg some car⟩]
    · have kept : next.popup = marker.popup := by
        rw [popup, nextPopup, if_neg (fun both => car (Option.some.inj both.2)),
          if_neg (fun below => available.mp below lost)]
      rcases shows.popup with own | ⟨previous, earlier, keeps⟩
      · by_cases lostBefore : HeadingLost shown
        · exact .inl ((kept.trans own).trans (recordPopup_of_lost lostBefore lost station))
        · have unknown := unknown_of_ne_carIcon lostBefore (shows.icon ▸ car)
          exact .inr ⟨shown, isHeld, lost, lostBefore, unknown, station, kept.trans own⟩
      · exact .inr ⟨previous, earlier, lost, keeps.available, keeps.unknown,
          keeps.station.trans station, kept.trans keeps.popup⟩
  · left
    rw [popup, recordPopup, if_neg lost, nextPopup,
      if_neg (fun both => lost (unavailable.mp both.1)),
      if_pos (available.mpr lost)]

/-- The map is drawn, the icons that are kept are those of the markers, and every marker shows
a record that was held of its station. -/
structure Tidy (page : Page) (held : Set VehicleData) : Prop where
  drawn : page.leafletmap.isSome
  keepsIcons : page.KeepsIcons
  shows : ∀ id marker, page.markers id = some marker →
    ∃ vehdata ∈ held, objectID vehdata.stationID = id ∧ marker.ShowsRecord held vehdata

variable {page : Page} {held : Set VehicleData}

theorem Tidy.mono (tidy : page.Tidy held) {later : Set VehicleData} (subset : held ⊆ later) :
    page.Tidy later where
  drawn := tidy.drawn
  keepsIcons := tidy.keepsIcons
  shows id marker found := by
    rcases tidy.shows id marker found with ⟨vehdata, isHeld, station, shows⟩
    exact ⟨vehdata, subset isHeld, station, shows.mono subset⟩

theorem tidy_of_bare (drawn : page.leafletmap.isSome) (bare : page.shown = ∅)
    (held : Set VehicleData) : page.Tidy held := by
  have none : ∀ id, page.markers id = none := by
    intro id
    have hidden : id ∉ page.shown := bare ▸ Set.notMem_empty id
    exact Option.not_isSome_iff_eq_none.mp hidden
  refine ⟨drawn, ?_, ?_⟩
  · intro id marker found
    cases (none id).symm.trans found
  · intro id marker found
    cases (none id).symm.trans found

theorem Tidy.setMarker (tidy : page.Tidy held) {vehdata : VehicleData} (isHeld : vehdata ∈ held)
    {marker : Marker} (shows : marker.ShowsRecord held vehdata) :
    (page.setMarker (objectID vehdata.stationID) marker (some marker.icon)).Tidy held where
  drawn := tidy.drawn
  keepsIcons := tidy.keepsIcons.setMarker _ marker
  shows := by
    intro other shown found
    dsimp only [Page.setMarker] at found
    by_cases same : other = objectID vehdata.stationID
    · subst same
      rw [Function.update_self] at found
      cases found
      exact ⟨vehdata, isHeld, rfl, shows⟩
    · rw [Function.update_of_ne same] at found
      exact tidy.shows other shown found

theorem markers_of_removed {markers : Text → Option Marker} {id other : Text} {marker : Marker}
    (found : Function.update markers id none other = some marker) :
    markers other = some marker := by
  by_cases same : other = id
  · subst same
    rw [Function.update_self] at found
    cases found
  · rwa [Function.update_of_ne same] at found

theorem Tidy.remove (tidy : page.Tidy held) (id : Text) :
    { page with markers := Function.update page.markers id none }.Tidy held where
  drawn := tidy.drawn
  keepsIcons other marker found := tidy.keepsIcons other marker (markers_of_removed found)
  shows other marker found := tidy.shows other marker (markers_of_removed found)

theorem Tidy.onMessage_objectText (tidy : page.Tidy held) (vehdata : VehicleData) :
    ∃ marker : Marker, marker.ShowsRecord held vehdata ∧
      page.onMessage (some (objectText (objectID vehdata.stationID) vehdata.lat vehdata.lon
        vehdata.stationType vehdata.heading)) =
          page.setMarker (objectID vehdata.stationID) marker (some marker.icon) := by
  have absent : ',' ∉ objectID vehdata.stationID := comma_not_mem_nat vehdata.stationID.toNat
  rw [onMessage_objectText_rounded page absent]
  cases found : page.markers (objectID vehdata.stationID) with
  | none =>
      exact ⟨_, newMarker_showsRecord held vehdata,
        updateMarker_of_not_shown tidy.drawn found _ _ _ _⟩
  | some marker =>
      let object : ObjectUpdate := ⟨some (rounded 7 vehdata.lat), some (rounded 7 vehdata.lon),
        some vehdata.stationType, some (rounded 3 vehdata.heading)⟩
      rcases tidy.shows _ _ found with ⟨shown, isHeld, same, shows⟩
      have station : shown.stationID = vehdata.stationID := objectID_injective same
      refine ⟨changedMarker marker (objectID vehdata.stationID) object,
        ⟨rfl, rfl, rfl, nextIcon_getD _ _ _, ?_⟩,
        updateMarker_of_shown tidy.drawn tidy.keepsIcons found object⟩
      exact nextPopup_record isHeld shows station _ rfl

end Page

namespace Display

variable {display next : Display} {held : Set VehicleData}

def ShowsRecords (before after : Display) (held : Set VehicleData)
    (contents : List VehicleData) (id : Text) : Prop :=
  (∃ vehdata ∈ contents, objectID vehdata.stationID = id ∧
      ∃ marker ∈ after.page.markers id, marker.ShowsRecord held vehdata) ∨
    ((∀ vehdata ∈ contents, objectID vehdata.stationID ≠ id) ∧
      after.page.markers id = before.page.markers id)

theorem ShowsRecords.trans {before middle after : Display} {first second : List VehicleData}
    {id : Text} (early : ShowsRecords before middle held first id)
    (late : ShowsRecords middle after held second id) :
    ShowsRecords before after held (first ++ second) id := by
  rcases late with ⟨vehdata, member, shown⟩ | ⟨absent, kept⟩
  · exact .inl ⟨vehdata, List.mem_append_right first member, shown⟩
  · rcases early with ⟨vehdata, member, same, shown⟩ | ⟨absentFirst, keptFirst⟩
    · exact .inl ⟨vehdata, List.mem_append_left second member, same, kept ▸ shown⟩
    · refine .inr ⟨?_, kept.trans keptFirst⟩
      intro vehdata member
      rcases List.mem_append.mp member with inFirst | inSecond
      · exact absentFirst vehdata inFirst
      · exact absent vehdata inSecond

theorem send_updateVisualizer_record (drawn : display.Drawn) (tidy : display.page.Tidy held)
    {vehdata : VehicleData} (isHeld : vehdata ∈ held)
    (sent : display.send (updateVisualizer · vehdata) = some next) :
    next.Drawn ∧ next.page.Tidy held ∧ ∀ id, ShowsRecords display next held [vehdata] id := by
  have isObject := isObject_objectText (objectID vehdata.stationID) vehdata.lat vehdata.lon
    vehdata.stationType vehdata.heading
  cases (send_eq drawn isObject rfl).symm.trans sent
  rcases tidy.onMessage_objectText vehdata with ⟨marker, shows, set⟩
  refine ⟨drawn.onMessage isObject, ?_, ?_⟩
  · dsimp only
    rw [set]
    exact tidy.setMarker isHeld shows
  · intro id
    dsimp only [ShowsRecords]
    rw [set]
    by_cases same : objectID vehdata.stationID = id
    · subst same
      exact .inl ⟨vehdata, List.mem_singleton_self vehdata, rfl, marker,
        Function.update_self _ _ _, shows⟩
    · refine .inr ⟨?_, Function.update_of_ne (Ne.symm same) _ _⟩
      intro other member
      rw [List.mem_singleton.mp member]
      exact same

theorem updateObjects_records (drawn : display.Drawn) (tidy : display.page.Tidy held)
    {contents : List VehicleData} (areHeld : ∀ vehdata ∈ contents, vehdata ∈ held)
    (updated : display.updateObjects contents = some next) :
    next.Drawn ∧ next.page.Tidy held ∧ ∀ id, ShowsRecords display next held contents id := by
  induction contents generalizing display with
  | nil =>
      cases updated
      exact ⟨drawn, tidy, fun id => .inr ⟨List.forall_mem_nil _, rfl⟩⟩
  | cons vehdata rest induction =>
      rcases List.forall_mem_cons.mp areHeld with ⟨isHeld, restHeld⟩
      rw [updateObjects, List.foldlM_cons] at updated
      rcases Option.bind_eq_some_iff.mp updated with ⟨middle, sent, later⟩
      rcases send_updateVisualizer_record drawn tidy isHeld sent with
        ⟨middleDrawn, middleTidy, first⟩
      rcases induction middleDrawn middleTidy restHeld later with ⟨nextDrawn, nextTidy, second⟩
      exact ⟨nextDrawn, nextTidy, fun id => (first id).trans (second id)⟩

theorem clearObjects_records (drawn : display.Drawn) (tidy : display.page.Tidy held)
    {ids : List UInt64} (cleared : display.clearObjects ids = some next) :
    next.Drawn ∧ next.page.Tidy held := by
  induction ids generalizing display with
  | nil =>
      cases cleared
      exact ⟨drawn, tidy⟩
  | cons id rest induction =>
      rw [clearObjects, List.foldlM_cons] at cleared
      rcases Option.bind_eq_some_iff.mp cleared with ⟨middle, sent, later⟩
      have isObject := isObject_objcleanText (objectID id)
      cases (send_eq drawn isObject rfl).symm.trans sent
      have removed := display.page.onMessage_objcleanText id.toNat
      have middleTidy : (display.page.onMessage (some (objcleanText (objectID id)))).Tidy held := by
        rw [objectID, removed]
        exact tidy.remove _
      exact induction (drawn.onMessage isObject) middleTidy later

theorem Drawn.tidy_reload (drawn : display.Drawn) (held : Set VehicleData) :
    display.reload.page.Tidy held :=
  Page.tidy_of_bare drawn.reload.1.drawn drawn.reload.2 held

end Display

end AIM.Visualizer
