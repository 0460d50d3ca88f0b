import AIM.Visualizer.Messages

namespace AIM.Visualizer

open Decimal

/-! # The page in the browser

`map_render.js`: the map, the markers on it and the handler of the messages from the
server. What Leaflet draws is kept as the values it was given last. -/

/-- A number is exact, or it is not a number. -/
abbrev Number := Option ℚ

def parseFloat (text : Text) : Number := readDecimal text

/-- The script keeps a `double`, which is this number up to 2^53. -/
def parseInt (text : Text) : Option Int := readInt text

/-- A comparison with what is not a number is false. -/
def atLeast (number : Number) (bound : ℚ) : Bool :=
  number.any fun value => bound ≤ value

def below (number : Number) (bound : ℚ) : Bool :=
  number.any fun value => value < bound

def visLonlatInvalid : Number := some (-80000)

def visHeadingInvalid : ℚ := 361

/-! ## Markers -/

inductive Icon
  | carIcon
  | circleIcon
  | greenCircleIcon
  deriving DecidableEq, Repr

/-- The text of a popup names the id and the heading, unless that is unavailable. -/
structure Popup where
  id : Text
  heading : Option ℚ
  deriving DecidableEq

structure Marker where
  lat : Number
  lon : Number
  rotationAngle : Number
  icon : Icon
  popup : Popup
  deriving DecidableEq

structure LeafletMap where
  lat : Number
  lon : Number
  minlat : Number
  minlon : Number
  maxlat : Number
  maxlon : Number
  latExtFactor : Number
  lonExtFactor : Number
  mapboxToken : Option Text
  deriving DecidableEq

/-- The variables of the script. Both arrays are indexed by property names. -/
structure Page where
  mapRx : Bool
  leafletmap : Option LeafletMap
  markers : Text → Option Marker
  markersicons : Text → Option Icon

namespace Page

def new : Page := ⟨false, none, fun _ => none, fun _ => none⟩

def shown (page : Page) : Set Text := { id | (page.markers id).isSome }

def initialIcon (stationtype : Option Int) (heading : Number) : Icon :=
  if stationtype = some 0 then .greenCircleIcon
  else if atLeast heading visHeadingInvalid then .circleIcon
  else .carIcon

def newMarker (id : Text) (lat lon : Number) (stationtype : Option Int) (heading : Number) :
    Marker where
  lat := lat
  lon := lon
  rotationAngle := heading
  icon := initialIcon stationtype heading
  popup := ⟨id, if below heading visHeadingInvalid then heading else none⟩

def nextPopup (marker : Marker) (kept : Option Icon) (id : Text) (heading : Number) : Popup :=
  if atLeast heading visHeadingInvalid ∧ kept = some .carIcon then ⟨id, none⟩
  else if below heading visHeadingInvalid then ⟨id, heading⟩
  else marker.popup

def nextIcon (kept : Option Icon) (stationtype : Option Int) (heading : Number) : Option Icon :=
  if stationtype ≠ some 0 then
    if atLeast heading visHeadingInvalid ∧
        (kept = some .carIcon ∨ kept = some .greenCircleIcon) then some .circleIcon
    else if below heading visHeadingInvalid ∧
        (kept = some .circleIcon ∨ kept = some .greenCircleIcon) then some .carIcon
    else none
  else if kept = some .carIcon ∨ kept = some .circleIcon then some .greenCircleIcon
  else none

def setMarker (page : Page) (id : Text) (marker : Marker) (icon : Option Icon) : Page :=
  { page with
    markers := Function.update page.markers id (some marker)
    markersicons := Function.update page.markersicons id icon }

def updateMarker (page : Page) (id : Text) (lat lon : Number) (stationtype : Option Int)
    (heading : Number) : Page :=
  match page.leafletmap with
  | none => page
  | some _ =>
      match page.markers id with
      | none =>
          page.setMarker id (newMarker id lat lon stationtype heading)
            (some (initialIcon stationtype heading))
      | some marker =>
          let kept := page.markersicons id
          let changed := nextIcon kept stationtype heading
          page.setMarker id {
            lat := lat
            lon := lon
            rotationAngle := heading
            icon := changed.getD marker.icon
            popup := nextPopup marker kept id heading } (changed.or kept)

/-! ## Messages -/

/-- The name of the property that a number selects. It has all digits of the number below
2^53, as the ids of stations are. -/
def propertyName : Option Int → Text
  | some number => intText number
  | none => "NaN".toList

def mapboxTokenOf (field : Text) : Option Text :=
  if field ≠ "none".toList then some field else none

def onMapAreas (page : Page) : List Text → Page
  | [lat, lon, minlat, minlon, maxlat, maxlon, latExtFactor, lonExtFactor, token] =>
      { page with
        mapRx := true
        leafletmap := some {
          lat := parseFloat lat
          lon := parseFloat lon
          minlat := parseFloat minlat
          minlon := parseFloat minlon
          maxlat := parseFloat maxlat
          maxlon := parseFloat maxlon
          latExtFactor := parseFloat latExtFactor
          lonExtFactor := parseFloat lonExtFactor
          mapboxToken := mapboxTokenOf token } }
  | _ => page

def onMap (page : Page) : List Text → Page
  | [lat, lon, token] =>
      { page with
        mapRx := true
        leafletmap := some {
          lat := parseFloat lat
          lon := parseFloat lon
          minlat := visLonlatInvalid
          minlon := visLonlatInvalid
          maxlat := visLonlatInvalid
          maxlon := visLonlatInvalid
          latExtFactor := visLonlatInvalid
          lonExtFactor := visLonlatInvalid
          mapboxToken := mapboxTokenOf token } }
  | _ => page

def onObject (page : Page) : List Text → Page
  | [id, lat, lon, stationtype, heading] =>
      page.updateMarker id (parseFloat lat) (parseFloat lon) (parseInt stationtype)
        (parseFloat heading)
  | _ => page

def onObjclean (page : Page) : List Text → Page
  | [id] => { page with
      markers := Function.update page.markers (propertyName (parseInt id)) none }
  | _ => page

/-- The handler of the messages from the server. A map is drawn once; the message is null
when the server has no map yet. -/
def onMessage (page : Page) : Option Text → Page
  | none => page
  | some text =>
      match splitComma text with
      | [] => page
      | kind :: fields =>
          if kind = "map_areas".toList then
            if page.mapRx then page else page.onMapAreas fields
          else if kind = "map".toList then
            if page.mapRx then page else page.onMap fields
          else if kind = "object".toList then page.onObject fields
          else if kind = "objclean".toList then page.onObjclean fields
          else page

/-! ## What the messages do -/

theorem shown_new : new.shown = ∅ :=
  Set.eq_empty_of_forall_notMem fun _ isShown => Bool.false_ne_true isShown

variable (page : Page) {id : Text}

theorem shown_updateMarker {page : Page} (drawn : page.leafletmap.isSome) (lat lon : Number)
    (stationtype : Option Int) (heading : Number) :
    (page.updateMarker id lat lon stationtype heading).shown = insert id page.shown ∧
      (page.updateMarker id lat lon stationtype heading).leafletmap = page.leafletmap := by
  rcases Option.isSome_iff_exists.mp drawn with ⟨map, isDrawn⟩
  have set : ∀ (marker : Marker) (icon : Option Icon),
      (page.setMarker id marker icon).shown = insert id page.shown := by
    intro marker icon
    ext other
    by_cases same : other = id
    · subst same
      simp [shown, setMarker]
    · simp [shown, setMarker, same]
  unfold updateMarker
  rw [isDrawn]
  cases page.markers id with
  | none => exact ⟨set _ _, isDrawn⟩
  | some marker => exact ⟨set _ _, isDrawn⟩

theorem onMessage_objectText (absent : ',' ∉ id) (lat lon : ℚ) (stationType : Int)
    (heading : ℚ) :
    page.onMessage (some (objectText id lat lon stationType heading)) =
      page.updateMarker id (parseFloat (generalText 7 lat)) (parseFloat (generalText 7 lon))
        (parseInt (intText stationType)) (parseFloat (generalText 3 heading ++ [nul])) := by
  rw [onMessage, splitComma_objectText lat lon absent stationType heading]
  dsimp only
  rw [if_neg (by decide), if_neg (by decide), if_pos rfl]
  rfl

theorem propertyName_parseInt (number : Nat) :
    propertyName (parseInt (natText number ++ [nul])) = natText number := by
  have stop : digitsOf [nul] = [] := by decide
  rw [parseInt, readInt_natText_append number stop]
  rfl

theorem onMessage_objcleanText (number : Nat) :
    page.onMessage (some (objcleanText (natText number))) =
      { page with markers := Function.update page.markers (natText number) none } := by
  rw [onMessage, splitComma_objcleanText (comma_not_mem_nat number)]
  dsimp only
  rw [if_neg (by decide), if_neg (by decide), if_neg (by decide), if_pos rfl, onObjclean,
    propertyName_parseInt]

theorem shown_onMessage_objcleanText (number : Nat) :
    (page.onMessage (some (objcleanText (natText number)))).shown =
      page.shown \ {natText number} := by
  rw [onMessage_objcleanText]
  ext other
  by_cases same : other = natText number
  · subst same
    simp [shown]
  · simp [shown, same]

/-! ## Drawing the map -/

/-- A map message with all its fields. -/
def Drawable (text : Text) : Prop :=
  IsMap text ∧ (splitComma text).length = if kindOf text = "map".toList then 4 else 10

theorem onMessage_of_not_isMap {text : Text} (notMap : ¬IsMap text) :
    (page.onMessage (some text)).leafletmap = page.leafletmap ∧
      (page.onMessage (some text)).mapRx = page.mapRx := by
  unfold IsMap kindOf at notMap
  rw [onMessage]
  cases fields : splitComma text with
  | nil => exact ⟨rfl, rfl⟩
  | cons kind rest =>
      rw [fields, List.headD_cons] at notMap
      dsimp only
      rw [if_neg fun areas => notMap (.inr areas), if_neg fun map => notMap (.inl map)]
      split
      · unfold onObject
        split
        · unfold updateMarker
          split
          · exact ⟨rfl, rfl⟩
          · split
            · exact ⟨rfl, rfl⟩
            · exact ⟨rfl, rfl⟩
        · exact ⟨rfl, rfl⟩
      · split
        · unfold onObjclean
          split
          · exact ⟨rfl, rfl⟩
          · exact ⟨rfl, rfl⟩
        · exact ⟨rfl, rfl⟩

theorem onMessage_of_isMap {text : Text} (isMap : IsMap text) :
    ∃ fields, (splitComma text).length = fields.length + 1 ∧
      ((page.mapRx = true ∧ page.onMessage (some text) = page) ∨
        (page.mapRx = false ∧ kindOf text = "map".toList ∧
          page.onMessage (some text) = page.onMap fields) ∨
        (page.mapRx = false ∧ kindOf text = "map_areas".toList ∧
          page.onMessage (some text) = page.onMapAreas fields)) := by
  unfold IsMap kindOf at isMap
  unfold kindOf
  rw [onMessage]
  cases split : splitComma text with
  | nil => exact absurd split (List.splitOn_ne_nil ',' text)
  | cons kind fields =>
      refine ⟨fields, rfl, ?_⟩
      rw [split, List.headD_cons] at isMap
      rw [List.headD_cons]
      dsimp only
      cases page.mapRx with
      | true =>
          left
          rcases isMap with rfl | rfl
          · exact ⟨rfl, rfl⟩
          · exact ⟨rfl, rfl⟩
      | false =>
          right
          rcases isMap with rfl | rfl
          · exact .inl ⟨rfl, rfl, rfl⟩
          · exact .inr ⟨rfl, rfl, rfl⟩

theorem onMap_drawn {fields : List Text} (complete : fields.length = 3) :
    (page.onMap fields).leafletmap.isSome := by
  match fields, complete with
  | [lat, lon, token], _ => rfl

theorem onMapAreas_drawn {fields : List Text} (complete : fields.length = 9) :
    (page.onMapAreas fields).leafletmap.isSome := by
  match fields, complete with
  | [lat, lon, minlat, minlon, maxlat, maxlon, latExtFactor, lonExtFactor, token], _ => rfl

theorem onMessage_of_drawable {text : Text} (drawable : Drawable text)
    (drawn : page.mapRx = true → page.leafletmap.isSome) :
    (page.onMessage (some text)).leafletmap.isSome := by
  rcases drawable with ⟨isMap, complete⟩
  rcases page.onMessage_of_isMap isMap with ⟨fields, length, cases⟩
  rw [length] at complete
  rcases cases with ⟨received, same⟩ | ⟨_, kind, equal⟩ | ⟨_, kind, equal⟩
  · rw [same]
    exact drawn received
  · rw [kind] at complete
    rw [equal]
    exact page.onMap_drawn (Nat.succ.inj complete)
  · rw [kind] at complete
    rw [equal]
    exact page.onMapAreas_drawn (Nat.succ.inj complete)

theorem onMessage_new_of_drawable {text : Text} (drawable : Drawable text) :
    (new.onMessage (some text)).leafletmap.isSome :=
  onMessage_of_drawable new drawable fun received => absurd received Bool.false_ne_true

theorem onMap_cases (fields : List Text) :
    (page.onMap fields).markers = page.markers ∧
      (page.onMap fields = page ∨ (page.onMap fields).leafletmap.isSome) := by
  unfold onMap
  split
  · exact ⟨rfl, .inr rfl⟩
  · exact ⟨rfl, .inl rfl⟩

theorem onMapAreas_cases (fields : List Text) :
    (page.onMapAreas fields).markers = page.markers ∧
      (page.onMapAreas fields = page ∨ (page.onMapAreas fields).leafletmap.isSome) := by
  unfold onMapAreas
  split
  · exact ⟨rfl, .inr rfl⟩
  · exact ⟨rfl, .inl rfl⟩

theorem shown_onMessage_of_isMap {text : Text} (isMap : IsMap text) :
    (page.onMessage (some text)).shown = page.shown := by
  have markers : (page.onMessage (some text)).markers = page.markers := by
    rcases page.onMessage_of_isMap isMap with
      ⟨fields, _, ⟨_, equal⟩ | ⟨_, _, equal⟩ | ⟨_, _, equal⟩⟩
    · rw [equal]
    · rw [equal]
      exact (page.onMap_cases fields).1
    · rw [equal]
      exact (page.onMapAreas_cases fields).1
  rw [shown, markers, shown]

theorem onMessage_cases (message : Option Text) :
    (page.onMessage message).leafletmap.isSome ∨
      ((page.onMessage message).leafletmap = page.leafletmap ∧
        (page.onMessage message).mapRx = page.mapRx) := by
  cases message with
  | none => exact .inr ⟨rfl, rfl⟩
  | some text =>
      by_cases isMap : IsMap text
      · rcases page.onMessage_of_isMap isMap with
          ⟨fields, _, ⟨_, equal⟩ | ⟨_, _, equal⟩ | ⟨_, _, equal⟩⟩
        · rw [equal]
          exact .inr ⟨rfl, rfl⟩
        · rw [equal]
          rcases (page.onMap_cases fields).2 with same | drawn
          · exact .inr ⟨congrArg leafletmap same, congrArg mapRx same⟩
          · exact .inl drawn
        · rw [equal]
          rcases (page.onMapAreas_cases fields).2 with same | drawn
          · exact .inr ⟨congrArg leafletmap same, congrArg mapRx same⟩
          · exact .inl drawn
      · exact .inr (onMessage_of_not_isMap page isMap)

end Page

end AIM.Visualizer
