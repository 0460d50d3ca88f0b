import AIM.Foundation.DecimalRoundTrip
import AIM.Visualizer.Display

namespace AIM.Visualizer

open Database Decimal

/-! # From a record to its marker

The texts about an object, from the record that AIM sends to the marker that the page
changes: what the page reads are the numbers of the record, rounded to a number of
significant digits. -/

/-- What is sent about a record reaches the page as it was: the marker of the station is
changed to its values, and taken away under the same name. -/
structure RoundTrip (vehdata : VehicleData) : Prop where
  update : ∀ (server : Server) (page : Page), ∃ text,
    updateVisualizer ⟨true, true⟩ vehdata = some (⟨true, true⟩, text) ∧
    server.onDatagram text = some (server, some text) ∧
    page.onMessage (some text) =
      page.updateMarker (objectID vehdata.stationID) (some vehdata.lat) (some vehdata.lon)
        (some vehdata.stationType) (some vehdata.heading)
  clean : ∀ (server : Server) (page : Page), ∃ text,
    clearVisualizerObject ⟨true, true⟩ vehdata.stationID = some (⟨true, true⟩, text) ∧
    server.onDatagram text = some (server, some text) ∧
    page.onMessage (some text) =
      { page with
        markers := Function.update page.markers (objectID vehdata.stationID) none }

theorem stops_nul : Stops [nul] := ⟨⟨by decide, by decide⟩, by decide⟩

theorem parseFloat_generalText (precision : Nat) (positive : 0 < precision) (value : ℚ) :
    parseFloat (generalText precision value) = some (rounded precision value) := by
  rw [parseFloat, ← List.append_nil (generalText precision value)]
  exact readDecimal_generalText_append positive value stops_nil

theorem parseInt_intText (number : Int) : parseInt (intText number) = some number := by
  rw [parseInt, ← List.append_nil (intText number)]
  exact readInt_intText_append number rfl

theorem onMessage_objectText_rounded (page : Page) {id : Text} (absent : ',' ∉ id)
    (lat lon : ℚ) (stationType : Int) (heading : ℚ) :
    page.onMessage (some (objectText id lat lon stationType heading)) =
      page.updateMarker id (some (rounded 7 lat)) (some (rounded 7 lon)) (some stationType)
        (some (rounded 3 heading)) := by
  rw [Page.onMessage_objectText page absent, parseFloat_generalText 7 (by decide),
    parseFloat_generalText 7 (by decide), parseInt_intText, parseFloat,
    readDecimal_generalText_append (by decide) heading stops_nul]

theorem updateMarker_injective {id : Text} {lat lon heading lat' lon' heading' : Number}
    {stationtype : Option Int}
    (same : ∀ page : Page, page.updateMarker id lat lon stationtype heading =
      page.updateMarker id lat' lon' stationtype heading') :
    lat = lat' ∧ lon = lon' ∧ heading = heading' := by
  let drawn : Page := ⟨true, some ⟨none, none, none, none, none, none, none, none, none⟩,
    fun _ => none, fun _ => none⟩
  have created : ∀ lat lon heading,
      (drawn.updateMarker id lat lon stationtype heading).markers id =
        some (Page.newMarker id lat lon stationtype heading) := by
    intro lat lon heading
    exact Function.update_self _ _ _
  have marker := congrArg (fun page => page.markers id) (same drawn)
  simp only [created, Option.some.injEq, Page.newMarker, Marker.mk.injEq] at marker
  exact ⟨marker.1, marker.2.1, marker.2.2.1⟩

theorem roundTrip_iff_rounded (vehdata : VehicleData) :
    RoundTrip vehdata ↔ rounded 7 vehdata.lat = vehdata.lat ∧
      rounded 7 vehdata.lon = vehdata.lon ∧ rounded 3 vehdata.heading = vehdata.heading := by
  have absent := comma_not_mem_nat vehdata.stationID.toNat
  constructor
  · intro trip
    have read : ∀ page : Page,
        page.updateMarker (objectID vehdata.stationID) (some (rounded 7 vehdata.lat))
            (some (rounded 7 vehdata.lon)) (some vehdata.stationType)
            (some (rounded 3 vehdata.heading)) =
          page.updateMarker (objectID vehdata.stationID) (some vehdata.lat) (some vehdata.lon)
            (some vehdata.stationType) (some vehdata.heading) := by
      intro page
      rcases trip.update ⟨[], none⟩ page with ⟨_, ⟨⟩, _, handled⟩
      rw [onMessage_objectText_rounded page absent] at handled
      exact handled
    rcases updateMarker_injective read with ⟨lat, lon, heading⟩
    exact ⟨Option.some.inj lat, Option.some.inj lon, Option.some.inj heading⟩
  · rintro ⟨lat, lon, heading⟩
    constructor
    · intro server page
      refine ⟨_, rfl, Server.onDatagram_of_isObject server (isObject_objectText _ _ _ _ _), ?_⟩
      rw [onMessage_objectText_rounded page absent, lat, lon, heading]
      rfl
    · intro server page
      exact ⟨_, rfl, Server.onDatagram_of_isObject server (isObject_objcleanText _),
        page.onMessage_objcleanText vehdata.stationID.toNat⟩

/-- Coordinates keep seven digits, and headings keep three. -/
theorem roundTrip_iff_significant {vehdata : VehicleData} {lat lon heading : Int}
    (isLat : vehdata.lat = lat / 10 ^ 7) (isLon : vehdata.lon = lon / 10 ^ 7)
    (isHeading : vehdata.heading = heading / 10) :
    RoundTrip vehdata ↔ Significant 7 lat.natAbs ∧ Significant 7 lon.natAbs ∧
      Significant 3 heading.natAbs := by
  have heading_iff := rounded_eq_self_iff (by decide : 0 < 3) heading 1
  rw [pow_one] at heading_iff
  rw [roundTrip_iff_rounded, isLat, isLon, isHeading, rounded_eq_self_iff (by decide),
    rounded_eq_self_iff (by decide), heading_iff]

theorem significant_heading_iff {heading : Nat} (range : heading < 10 ^ 4) :
    Significant 3 heading ↔ heading < 10 ^ 3 ∨ 10 ∣ heading := by
  rcases Nat.lt_or_ge heading (10 ^ 3) with short | long
  · exact iff_of_true (significant_of_lt short) (.inl short)
  · rw [significant_iff_dvd 3 long range]
    exact (or_iff_right (Nat.not_lt.mpr long)).symm

theorem significant_coordinate_iff {coordinate : Nat} (range : coordinate < 10 ^ 10) :
    Significant 7 coordinate ↔ coordinate < 10 ^ 7 ∨
      coordinate < 10 ^ 8 ∧ 10 ∣ coordinate ∨
      coordinate < 10 ^ 9 ∧ 100 ∣ coordinate ∨ 1000 ∣ coordinate := by
  rcases Nat.lt_or_ge coordinate (10 ^ 7) with short | long
  · exact iff_of_true (significant_of_lt short) (.inl short)
  · rcases Nat.lt_or_ge coordinate (10 ^ 8) with eight | nine
    · rw [significant_iff_dvd 7 long eight]
      omega
    · rcases Nat.lt_or_ge coordinate (10 ^ 9) with below | ten
      · rw [significant_iff_dvd 7 nine below]
        omega
      · rw [significant_iff_dvd 7 ten range]
        omega

/-! ## Two vehicles -/

/-- A vehicle with a latitude of five decimals and a heading of whole degrees. -/
def coarseVehicle : VehicleData :=
  { (default : VehicleData) with
    stationID := 12
    lat := 450624000 / 10 ^ 7
    lon := -76600000 / 10 ^ 7
    stationType := 5
    heading := 3600 / 10 }

theorem roundTrip_iff_significant_coarseVehicle :
    RoundTrip coarseVehicle ↔ Significant 7 450624000 ∧ Significant 7 76600000 ∧
      Significant 3 3600 :=
  @roundTrip_iff_significant coarseVehicle 450624000 (-76600000) 3600 rfl rfl rfl

/-- A vehicle with all the decimals that a CAM gives. -/
def fineVehicle : VehicleData :=
  { coarseVehicle with lat := 450624012 / 10 ^ 7, heading := 1234 / 10 }

/-- The latitude is sent as `45.0624`, and the heading as `123`. -/
theorem not_roundTrip_fineVehicle :
    updateVisualizer ⟨true, true⟩ fineVehicle =
        some (⟨true, true⟩, "object,12,45.0624,-7.66,5,123".toList ++ [nul]) ∧
      ¬RoundTrip fineVehicle := by
  constructor
  · decide +kernel
  · intro trip
    have lat := ((roundTrip_iff_rounded fineVehicle).mp trip).1
    revert lat
    decide +kernel

end AIM.Visualizer
