import AIM.Database.VehicleData
import AIM.Foundation.Decimal

namespace AIM.Visualizer

open Database Decimal

/-! # Messages to the visualizer

`vehicleVisualizer`: the texts that are sent to the Node.js server, and the checks before
them. A check that fails ends the program. -/

def commaSeparated (fields : List Text) : Text := [','].intercalate fields

/-- The character that ends a C string, which is sent with it. -/
def nul : Char := Char.ofNat 0

def mapText (lat lon : ℚ) : Text :=
  commaSeparated ["map".toList, generalText 7 lat, generalText 7 lon] ++ [nul]

def mapAreasText (lat lon minlat minlon maxlat maxlon latExtFactor lonExtFactor : ℚ) : Text :=
  commaSeparated ["map_areas".toList, generalText 7 lat, generalText 7 lon,
    generalText 7 minlat, generalText 7 minlon, generalText 7 maxlat, generalText 7 maxlon,
    generalText 7 latExtFactor, generalText 7 lonExtFactor] ++ [nul]

/-- The heading has a precision of its own. -/
def objectText (objID : Text) (lat lon : ℚ) (stationType : Int) (heading : ℚ) : Text :=
  commaSeparated ["object".toList, objID, generalText 7 lat, generalText 7 lon,
    intText stationType, generalText 3 heading] ++ [nul]

def objcleanText (objID : Text) : Text :=
  commaSeparated ["objclean".toList, objID] ++ [nul]

/-- The only text that is sent without its last character. -/
def terminateText : Text := "terminate".toList

structure VehicleVisualizer where
  isConnected : Bool
  isMapSent : Bool
  deriving DecidableEq, Repr

namespace VehicleVisualizer

def new : VehicleVisualizer := ⟨false, false⟩

def connectToServer (visualizer : VehicleVisualizer) : VehicleVisualizer :=
  { visualizer with isConnected := true }

def sendMap (visualizer : VehicleVisualizer) (text : Text) :
    Option (VehicleVisualizer × Text) :=
  if visualizer.isConnected = false then none
  else if visualizer.isMapSent = true then none
  else some ({ visualizer with isMapSent := true }, text)

def sendObject (visualizer : VehicleVisualizer) (text : Text) :
    Option (VehicleVisualizer × Text) :=
  if visualizer.isConnected = false then none
  else if visualizer.isMapSent = false then none
  else some (visualizer, text)

def sendMapDraw (visualizer : VehicleVisualizer) (lat lon : ℚ) :
    Option (VehicleVisualizer × Text) :=
  visualizer.sendMap (mapText lat lon)

def sendMapDrawAreas (visualizer : VehicleVisualizer)
    (lat lon minlat minlon maxlat maxlon latExtFactor lonExtFactor : ℚ) :
    Option (VehicleVisualizer × Text) :=
  visualizer.sendMap
    (mapAreasText lat lon minlat minlon maxlat maxlon latExtFactor lonExtFactor)

def sendObjectUpdate (visualizer : VehicleVisualizer) (objID : Text) (lat lon : ℚ)
    (stationType : Int) (heading : ℚ) : Option (VehicleVisualizer × Text) :=
  visualizer.sendObject (objectText objID lat lon stationType heading)

def sendObjectClean (visualizer : VehicleVisualizer) (objID : Text) :
    Option (VehicleVisualizer × Text) :=
  visualizer.sendObject (objcleanText objID)

def terminateServer (visualizer : VehicleVisualizer) : Option (VehicleVisualizer × Text) :=
  if visualizer.isConnected = false then none
  else some ({ visualizer with isConnected := false }, terminateText)

end VehicleVisualizer

/-! ## The callbacks of the database -/

def clearVisualizerObject (visualizer : VehicleVisualizer) (id : UInt64) :
    Option (VehicleVisualizer × Text) :=
  visualizer.sendObjectClean (natText id.toNat)

def updateVisualizer (visualizer : VehicleVisualizer) (vehdata : VehicleData) :
    Option (VehicleVisualizer × Text) :=
  visualizer.sendObjectUpdate (natText vehdata.stationID.toNat) vehdata.lat vehdata.lon
    vehdata.stationType vehdata.heading

/-! ## Splitting at commas -/

/-- `split(",")` -/
def splitComma (text : Text) : List Text := text.splitOn ','

def kindOf (text : Text) : Text := (splitComma text).headD []

def IsMap (text : Text) : Prop :=
  kindOf text = "map".toList ∨ kindOf text = "map_areas".toList

def IsObject (text : Text) : Prop :=
  kindOf text = "object".toList ∨ kindOf text = "objclean".toList

instance (text : Text) : Decidable (IsMap text) := inferInstanceAs (Decidable (_ ∨ _))

instance (text : Text) : Decidable (IsObject text) := inferInstanceAs (Decidable (_ ∨ _))

theorem not_isMap_of_isObject {text : Text} (isObject : IsObject text) : ¬IsMap text := by
  intro isMap
  rcases isMap with map | map <;> rcases isObject with object | object <;>
    exact absurd (map.symm.trans object) (by decide)

theorem kindOf_append {kind : Text} (absent : ',' ∉ kind) (rest : Text) :
    kindOf (kind ++ ',' :: rest) = kind := by
  rw [kindOf, splitComma, List.splitOn_append_cons_self_of_not_mem absent, List.headD_cons]

theorem kindOf_commaSeparated {kind : Text} (absent : ',' ∉ kind) (field : Text)
    (fields : List Text) (suffix : Text) :
    kindOf (commaSeparated (kind :: field :: fields) ++ suffix) = kind := by
  rw [commaSeparated, List.intercalate_cons_cons, List.append_assoc, List.append_assoc]
  exact kindOf_append absent _

theorem isMap_mapText (lat lon : ℚ) : IsMap (mapText lat lon) :=
  .inl (kindOf_commaSeparated (by decide) _ _ _)

theorem isMap_mapAreasText
    (lat lon minlat minlon maxlat maxlon latExtFactor lonExtFactor : ℚ) :
    IsMap (mapAreasText lat lon minlat minlon maxlat maxlon latExtFactor lonExtFactor) :=
  .inr (kindOf_commaSeparated (by decide) _ _ _)

theorem isObject_objectText (objID : Text) (lat lon : ℚ) (stationType : Int) (heading : ℚ) :
    IsObject (objectText objID lat lon stationType heading) :=
  .inl (kindOf_commaSeparated (by decide) _ _ _)

theorem isObject_objcleanText (objID : Text) : IsObject (objcleanText objID) :=
  .inr (kindOf_commaSeparated (by decide) _ _ _)

theorem splitComma_append (text field : Text) (absent : ',' ∉ field) :
    splitComma (text ++ ',' :: field) = splitComma text ++ [field] := by
  rw [splitComma, List.splitOn_append_cons_self, List.splitOn_eq_singleton absent]
  rfl

theorem kindOf_append_field (text field : Text) (absent : ',' ∉ field) :
    kindOf (text ++ ',' :: field) = kindOf text := by
  rw [kindOf, splitComma_append text field absent]
  cases fields : splitComma text with
  | nil => exact absurd fields (List.splitOn_ne_nil ',' text)
  | cons kind rest =>
      rw [kindOf, fields]
      rfl

theorem comma_not_mem {text : Text} (chars : ∀ {char}, char ∈ text → NumberChar char) :
    ',' ∉ text := by
  intro member
  rcases chars member with digit | other
  · cases digit
  · exact absurd other (by decide)

theorem comma_not_mem_general (precision : Nat) (value : ℚ) :
    ',' ∉ generalText precision value :=
  comma_not_mem generalText_chars

theorem comma_not_mem_int (number : Int) : ',' ∉ intText number :=
  comma_not_mem intText_chars

theorem comma_not_mem_nat (number : Nat) : ',' ∉ natText number :=
  comma_not_mem natText_chars

theorem comma_not_mem_terminated {text : Text} (absent : ',' ∉ text) : ',' ∉ text ++ [nul] := by
  intro member
  rcases List.mem_append.mp member with inside | last
  · exact absent inside
  · exact absurd last (by decide)

theorem commaSeparated_append (fields : List Text) (last suffix : Text) :
    commaSeparated (fields ++ [last]) ++ suffix = commaSeparated (fields ++ [last ++ suffix]) := by
  induction fields with
  | nil => simp [commaSeparated]
  | cons first rest induction =>
      cases rest with
      | nil => simp [commaSeparated, List.intercalate]
      | cons second later =>
          simp only [commaSeparated, List.cons_append, List.intercalate_cons_cons,
            List.append_assoc, List.append_cancel_left_eq, List.nil_append, List.cons.injEq,
            true_and] at induction ⊢
          exact induction

theorem splitComma_commaSeparated {fields : List Text} (nonempty : fields ≠ [])
    (absent : ∀ field ∈ fields, ',' ∉ field) : splitComma (commaSeparated fields) = fields :=
  List.splitOn_intercalate ',' absent nonempty

theorem splitComma_terminated (fields : List Text) (last : Text)
    (absent : ∀ field ∈ fields, ',' ∉ field) (absentLast : ',' ∉ last) :
    splitComma (commaSeparated (fields ++ [last]) ++ [nul]) = fields ++ [last ++ [nul]] := by
  rw [commaSeparated_append]
  apply splitComma_commaSeparated
  · simp
  · intro field member
    rcases List.mem_append.mp member with inside | isLast
    · exact absent field inside
    · rw [List.mem_singleton.mp isLast]
      exact comma_not_mem_terminated absentLast

variable (lat lon : ℚ)

theorem splitComma_mapText :
    splitComma (mapText lat lon) =
      ["map".toList, generalText 7 lat, generalText 7 lon ++ [nul]] := by
  apply splitComma_terminated ["map".toList, generalText 7 lat]
  · simp only [List.mem_cons, List.not_mem_nil, or_false, forall_eq_or_imp, forall_eq]
    exact ⟨by decide, comma_not_mem_general 7 lat⟩
  · exact comma_not_mem_general 7 lon

theorem splitComma_objectText {objID : Text} (absent : ',' ∉ objID) (stationType : Int)
    (heading : ℚ) :
    splitComma (objectText objID lat lon stationType heading) =
      ["object".toList, objID, generalText 7 lat, generalText 7 lon, intText stationType,
        generalText 3 heading ++ [nul]] := by
  apply splitComma_terminated ["object".toList, objID, generalText 7 lat, generalText 7 lon,
    intText stationType]
  · simp only [List.mem_cons, List.not_mem_nil, or_false, forall_eq_or_imp, forall_eq]
    exact ⟨by decide, absent, comma_not_mem_general 7 lat, comma_not_mem_general 7 lon,
      comma_not_mem_int stationType⟩
  · exact comma_not_mem_general 3 heading

theorem splitComma_objcleanText {objID : Text} (absent : ',' ∉ objID) :
    splitComma (objcleanText objID) = ["objclean".toList, objID ++ [nul]] := by
  apply splitComma_terminated ["objclean".toList]
  · simp only [List.mem_cons, List.not_mem_nil, or_false, forall_eq]
    decide
  · exact absent

end AIM.Visualizer
