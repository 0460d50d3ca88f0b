import AIM.Foundation.Execution
import AIM.Visualizer.Page

namespace AIM.Visualizer

open Decimal

/-! # Changing a marker

A marker that is on the map is changed by every message about its object. The values of the
last message about every object are tracked beside the page. -/

structure ObjectUpdate where
  lat : Number
  lon : Number
  stationtype : Option Int
  heading : Number

def objectOf (text : Text) : Option (Text × ObjectUpdate) :=
  match splitComma text with
  | [kind, id, lat, lon, stationtype, heading] =>
      if kind = "object".toList then
        some (id, ⟨parseFloat lat, parseFloat lon, parseInt stationtype, parseFloat heading⟩)
      else none
  | _ => none

def isNumeric (text : Text) : Bool :=
  match splitComma text with
  | [kind, id, lat, lon, stationtype, heading] =>
      kind = "object".toList && (parseInt id).isSome && (parseFloat lat).isSome &&
        (parseFloat lon).isSome && (parseInt stationtype).isSome && (parseFloat heading).isSome
  | [kind, id] => kind = "objclean".toList && (parseInt id).isSome
  | _ => false

def ObjectUpdate.created (object : ObjectUpdate) (leafletmap : Option LeafletMap) (id : Text) :
    Option Marker :=
  ((Page.mk true leafletmap (fun _ => none) fun _ => none).updateMarker id object.lat object.lon
    object.stationtype object.heading).markers id

/-- A station type of zero with a heading, and then no heading any more. -/
def ObjectUpdate.LosesHeading (previous object : ObjectUpdate) : Prop :=
  previous.stationtype = some 0 ∧ below previous.heading visHeadingInvalid ∧
    atLeast object.heading visHeadingInvalid

structure WatchedPage where
  page : Page
  last : Text → Option ObjectUpdate

namespace WatchedPage

def step (state : WatchedPage) (text : Text) : Option WatchedPage :=
  some {
    page := state.page.onMessage (some text)
    last := match objectOf text with
      | none => state.last
      | some (id, object) => Function.update state.last id (some object) }

/-- Every marker is the one that would be created for the last message about its object. -/
def ShowsLast (state : WatchedPage) : Prop :=
  ∀ id ∈ state.page.shown, ∃ object ∈ state.last id,
    state.page.markers id = object.created state.page.leafletmap id

def ShowsLastNext (state : WatchedPage) (text : Text) : Prop :=
  ∀ next ∈ state.step text, next.ShowsLast

def LosesHeading (state : WatchedPage) (text : Text) : Prop :=
  ∃ id object, objectOf text = some (id, object) ∧ id ∈ state.page.shown ∧
    ∃ previous ∈ state.last id, previous.LosesHeading object

end WatchedPage

/-! ## A marker and its icon -/

namespace Page

@[simp] theorem atLeast_some (value bound : ℚ) :
    atLeast (some value) bound = decide (bound ≤ value) :=
  rfl

@[simp] theorem below_some (value bound : ℚ) : below (some value) bound = decide (value < bound) :=
  rfl

theorem nextIcon_getD (icon : Icon) (stationtype : Option Int) (heading : ℚ) :
    (nextIcon (some icon) stationtype (some heading)).getD icon =
      initialIcon stationtype (some heading) := by
  unfold nextIcon initialIcon
  by_cases unknown : stationtype = some 0
  · cases icon <;> simp [unknown]
  · rcases le_or_gt visHeadingInvalid heading with invalid | valid
    · cases icon <;> simp [unknown, invalid, not_lt.mpr invalid]
    · cases icon <;> simp [unknown, valid, not_le.mpr valid]

theorem nextIcon_or (icon : Icon) (stationtype : Option Int) (heading : Number) :
    (nextIcon (some icon) stationtype heading).or (some icon) =
      some ((nextIcon (some icon) stationtype heading).getD icon) := by
  cases nextIcon (some icon) stationtype heading with
  | none => rfl
  | some changed => rfl

theorem nextPopup_eq_iff (id : Text) (previous : ObjectUpdate) (lat lon : Number)
    (stationtype : Option Int) (heading : ℚ) :
    nextPopup (newMarker id previous.lat previous.lon previous.stationtype previous.heading)
        (some (initialIcon previous.stationtype previous.heading)) id (some heading) =
        (newMarker id lat lon stationtype (some heading)).popup ↔
      ¬previous.LosesHeading ⟨lat, lon, stationtype, some heading⟩ := by
  unfold ObjectUpdate.LosesHeading
  rcases previous with ⟨_, _, previousType, previousHeading⟩
  rcases le_or_gt visHeadingInvalid heading with invalid | valid
  · cases available : below previousHeading visHeadingInvalid with
    | false => simp [nextPopup, newMarker, invalid, not_lt.mpr invalid, available]
    | true =>
        rcases previousHeading with _ | before
        · cases available
        · have beforeValid : before < visHeadingInvalid := of_decide_eq_true available
          by_cases unknown : previousType = some 0
          · simp [nextPopup, newMarker, initialIcon, invalid, not_lt.mpr invalid, unknown,
              beforeValid]
          · simp [nextPopup, newMarker, initialIcon, invalid, not_lt.mpr invalid, unknown,
              not_le.mpr beforeValid]
  · simp [nextPopup, newMarker, valid, not_le.mpr valid]

/-- The icon that is kept for a marker on the map is the one that it has. -/
def KeepsIcons (page : Page) : Prop :=
  ∀ id marker, page.markers id = some marker → page.markersicons id = some marker.icon

theorem KeepsIcons.setMarker {page : Page} (keeps : page.KeepsIcons) (id : Text)
    (marker : Marker) : (page.setMarker id marker (some marker.icon)).KeepsIcons := by
  intro other shown found
  by_cases same : other = id
  · subst same
    simp only [Page.setMarker, Function.update_self, Option.some.injEq] at found ⊢
    rw [found]
  · simp only [Page.setMarker, Function.update_of_ne same] at found ⊢
    exact keeps other shown found

variable {page : Page} {id : Text}

theorem updateMarker_of_not_shown (drawn : page.leafletmap.isSome)
    (absent : page.markers id = none) (lat lon : Number) (stationtype : Option Int)
    (heading : Number) :
    page.updateMarker id lat lon stationtype heading =
      page.setMarker id (newMarker id lat lon stationtype heading)
        (some (newMarker id lat lon stationtype heading).icon) := by
  rcases Option.isSome_iff_exists.mp drawn with ⟨map, isDrawn⟩
  rw [updateMarker, isDrawn]
  dsimp only
  rw [absent]
  rfl

def changedMarker (marker : Marker) (id : Text) (object : ObjectUpdate) : Marker where
  lat := object.lat
  lon := object.lon
  rotationAngle := object.heading
  icon := (nextIcon (some marker.icon) object.stationtype object.heading).getD marker.icon
  popup := nextPopup marker (some marker.icon) id object.heading

theorem updateMarker_of_shown (drawn : page.leafletmap.isSome) (keeps : page.KeepsIcons)
    {marker : Marker} (shown : page.markers id = some marker) (object : ObjectUpdate) :
    page.updateMarker id object.lat object.lon object.stationtype object.heading =
      page.setMarker id (changedMarker marker id object)
        (some (changedMarker marker id object).icon) := by
  rcases Option.isSome_iff_exists.mp drawn with ⟨map, isDrawn⟩
  rw [updateMarker, isDrawn]
  dsimp only
  rw [shown]
  dsimp only
  rw [keeps id marker shown, nextIcon_or]
  rfl

theorem changedMarker_eq_iff (id : Text) (previous object : ObjectUpdate)
    (number : object.heading.isSome) :
    changedMarker (newMarker id previous.lat previous.lon previous.stationtype previous.heading)
        id object =
        newMarker id object.lat object.lon object.stationtype object.heading ↔
      ¬previous.LosesHeading object := by
  rcases object with ⟨lat, lon, stationtype, heading⟩
  rcases Option.isSome_iff_exists.mp number with ⟨value, rfl⟩
  have icon := nextIcon_getD (initialIcon previous.stationtype previous.heading) stationtype value
  rw [← nextPopup_eq_iff id previous lat lon stationtype value]
  constructor
  · exact fun same => congrArg Marker.popup same
  · intro popup
    simp only [changedMarker, newMarker, Marker.mk.injEq, true_and]
    exact ⟨icon, popup⟩

end Page

theorem ObjectUpdate.created_eq (object : ObjectUpdate) {leafletmap : Option LeafletMap}
    (drawn : leafletmap.isSome) (id : Text) :
    object.created leafletmap id =
      some (Page.newMarker id object.lat object.lon object.stationtype object.heading) := by
  rw [created, Page.updateMarker_of_not_shown drawn rfl]
  exact Function.update_self _ _ _

theorem onMessage_of_isNumeric (page : Page) {text : Text} (numeric : isNumeric text = true) :
    (∃ id object, objectOf text = some (id, object) ∧ object.heading.isSome ∧
      page.onMessage (some text) =
        page.updateMarker id object.lat object.lon object.stationtype object.heading) ∨
    (∃ id, objectOf text = none ∧ page.onMessage (some text) =
      { page with markers := Function.update page.markers id none }) := by
  unfold isNumeric at numeric
  rw [Page.onMessage]
  unfold objectOf
  split at numeric
  · next kind id lat lon stationtype heading fields =>
      simp only [Bool.and_eq_true, decide_eq_true_eq] at numeric
      rcases numeric with ⟨⟨⟨⟨⟨rfl, _⟩, _⟩, _⟩, _⟩, number⟩
      left
      rw [fields]
      exact ⟨id, _, if_pos rfl, number, rfl⟩
  · next kind id fields =>
      simp only [Bool.and_eq_true, decide_eq_true_eq] at numeric
      rcases numeric with ⟨rfl, _⟩
      right
      rw [fields]
      exact ⟨_, rfl, rfl⟩
  · cases numeric

namespace WatchedPage

/-! ## A message -/

/-- The map is drawn, and every marker is as a new one, with its icon kept. -/
structure Current (state : WatchedPage) : Prop where
  drawn : state.page.leafletmap.isSome
  keepsIcons : state.page.KeepsIcons
  showsLast : state.ShowsLast

variable {state next : WatchedPage} {text : Text}

theorem ShowsLast.setMarker_iff (showsLast : state.ShowsLast)
    (drawn : state.page.leafletmap.isSome) (id : Text) (marker : Marker) (icon : Option Icon)
    (object : ObjectUpdate) :
    ShowsLast ⟨state.page.setMarker id marker icon,
        Function.update state.last id (some object)⟩ ↔
      marker = Page.newMarker id object.lat object.lon object.stationtype object.heading := by
  have created := object.created_eq drawn id
  constructor
  · intro shows
    rcases shows id (by simp [Page.shown, Page.setMarker]) with ⟨last, isLast, same⟩
    simp only [Function.update_self, Option.mem_some_iff] at isLast
    subst isLast
    simp only [Page.setMarker, Function.update_self, created, Option.some.injEq] at same
    exact same
  · rintro rfl other isShown
    by_cases same : other = id
    · subst same
      refine ⟨object, Function.update_self _ _ _, ?_⟩
      simp only [Page.setMarker, Function.update_self, created]
    · simp only [Page.shown, Page.setMarker, Set.mem_ofPred_eq,
        Function.update_of_ne same] at isShown ⊢
      exact showsLast other isShown

theorem ShowsLast.remove (showsLast : state.ShowsLast) (id : Text) :
    ShowsLast ⟨{ state.page with markers := Function.update state.page.markers id none },
      state.last⟩ := by
  intro other isShown
  by_cases same : other = id
  · subst same
    simp [Page.shown] at isShown
  · simp only [Page.shown, Set.mem_ofPred_eq, Function.update_of_ne same] at isShown ⊢
    exact showsLast other isShown

theorem losesHeading_iff {id : Text} {object : ObjectUpdate}
    (about : objectOf text = some (id, object)) :
    state.LosesHeading text ↔
      id ∈ state.page.shown ∧ ∃ previous ∈ state.last id, previous.LosesHeading object := by
  constructor
  · rintro ⟨_, _, same, loses⟩
    cases about.symm.trans same
    exact loses
  · exact fun loses => ⟨id, object, about, loses⟩

theorem Current.onMessage (current : state.Current) (numeric : isNumeric text = true)
    (taken : state.step text = some next) :
    next.page.leafletmap.isSome ∧ next.page.KeepsIcons ∧
      (next.ShowsLast ↔ ¬state.LosesHeading text) := by
  cases taken
  rcases onMessage_of_isNumeric state.page numeric with
    ⟨id, object, about, number, handled⟩ | ⟨id, about, handled⟩
  · rw [handled, losesHeading_iff about, about]
    dsimp only
    cases found : state.page.markers id with
    | none =>
        have hidden : id ∉ state.page.shown := by simp [Page.shown, found]
        rw [Page.updateMarker_of_not_shown current.drawn found]
        refine ⟨current.drawn, current.keepsIcons.setMarker id _, ?_⟩
        rw [current.showsLast.setMarker_iff current.drawn]
        exact iff_of_true rfl fun loses => hidden loses.1
    | some marker =>
        have shown : id ∈ state.page.shown := by simp [Page.shown, found]
        rcases current.showsLast id shown with ⟨previous, isLast, created⟩
        rw [found, previous.created_eq current.drawn, Option.some.injEq] at created
        rw [Page.updateMarker_of_shown current.drawn current.keepsIcons found]
        refine ⟨current.drawn, current.keepsIcons.setMarker id _, ?_⟩
        rw [current.showsLast.setMarker_iff current.drawn, created,
          Page.changedMarker_eq_iff id previous object number, not_iff_not]
        constructor
        · exact fun loses => ⟨shown, previous, isLast, loses⟩
        · rintro ⟨_, other, isOther, loses⟩
          cases isLast.symm.trans isOther
          exact loses
  · rw [handled, about]
    refine ⟨current.drawn, ?_, iff_of_true (current.showsLast.remove id) ?_⟩
    · intro other marker found
      by_cases same : other = id
      · subst same
        simp at found
      · simp only [Function.update_of_ne same] at found
        exact current.keepsIcons other marker found
    · rintro ⟨_, _, isObject, _⟩
      cases about.symm.trans isObject

/-! ## Runs of messages -/

def start (page : Page) : WatchedPage := ⟨page, fun _ => none⟩

theorem current_start {page : Page} (drawn : page.leafletmap.isSome) (empty : page.shown = ∅) :
    (start page).Current where
  drawn := drawn
  keepsIcons id marker found := by
    have isShown : id ∈ page.shown := Option.isSome_iff_exists.mpr ⟨marker, found⟩
    rw [empty] at isShown
    exact isShown.elim
  showsLast id isShown := by
    rw [show (start page).page.shown = ∅ from empty] at isShown
    exact isShown.elim

/-- In a run every marker is as a new one exactly if no message takes a heading away from
an object that is shown with station type zero. -/
theorem showsLast_run_iff {page : Page} (drawn : page.leafletmap.isSome)
    (empty : page.shown = ∅) {messages : List Text}
    (numeric : ∀ text ∈ messages, isNumeric text = true) :
    Execution.Always step ShowsLastNext (start page) messages ↔
      Execution.Always step (fun state text => ¬state.LosesHeading text) (start page)
        messages := by
  apply Execution.Always.iff_of_invariant Current fun text => isNumeric text = true
  · intro state text next current isNumeric keeps taken
    rcases current.onMessage isNumeric taken with ⟨drawn, keepsIcons, shows⟩
    exact ⟨drawn, keepsIcons, shows.mpr keeps⟩
  · intro state text current isNumeric
    constructor
    · intro shows
      exact (current.onMessage isNumeric rfl).2.2.mp (shows _ rfl)
    · intro keeps next taken
      exact (current.onMessage isNumeric taken).2.2.mpr keeps
  · exact current_start drawn empty
  · exact numeric

/-! ## A heading that becomes unavailable -/

def turinPage : Page := Page.new.onMessage (some "map,45,7,none".toList)

theorem turinPage_drawn : turinPage.leafletmap.isSome :=
  Page.onMessage_new_of_drawable ⟨.inl rfl, rfl⟩

theorem turinPage_empty : turinPage.shown = ∅ :=
  (Page.shown_onMessage_of_isMap _ (.inl rfl)).trans Page.shown_new

def carMessages : List Text :=
  ["object,1,45,7,5,90".toList, "object,1,45,7,5,361".toList, "objclean,1".toList]

theorem showsLast_run_iff_carMessages :
    Execution.Always step ShowsLastNext (start turinPage) carMessages ↔
      Execution.Always step (fun state text => ¬state.LosesHeading text) (start turinPage)
        carMessages :=
  showsLast_run_iff turinPage_drawn turinPage_empty (by decide)

def unknownMessages : List Text :=
  ["object,1,45,7,0,90".toList, "object,1,45,7,0,361".toList]

/-- The popup keeps the heading that the object had before. -/
theorem not_showsLast_unknownMessages :
    (∀ text ∈ unknownMessages, isNumeric text = true) ∧
      ∃ final, Execution.run step (start turinPage) unknownMessages = some final ∧
        (final.page.markers "1".toList).map (·.popup) = some ⟨"1".toList, some 90⟩ ∧
        ¬final.ShowsLast := by
  refine ⟨by decide, _, rfl, by decide +kernel, fun shows => ?_⟩
  rcases shows "1".toList (Option.isSome_iff_ne_none.mpr (by decide +kernel)) with
    ⟨object, isLast, same⟩
  cases isLast
  revert same
  decide +kernel

end WatchedPage

end AIM.Visualizer
