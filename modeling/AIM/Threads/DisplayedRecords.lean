import AIM.Threads.VisualizerUpdater
import AIM.Visualizer.RecordMarkers

namespace AIM.Threads

open Database Visualizer

/-! # The displayed records

What the markers of the client have to do with the records of the database, while the
receiver, the cleaner and the updater run. -/

namespace VisualizedMap

def Stores (state : VisualizedMap) (vehdata : VehicleData) : Prop :=
  ∃ stored, state.threads.map.entry vehdata.stationID = some stored ∧ stored.vehData = vehdata

def storedDuring (haversineDist : ℚ → ℚ → ℚ → ℚ → ℚ) (start : VisualizedMap)
    (steps : List VisualizedStep) : Set VehicleData :=
  { vehdata | ∃ past earlier, past <+: steps ∧
    Execution.run (step haversineDist) start past = some earlier ∧ earlier.Stores vehdata }

variable {haversineDist : ℚ → ℚ → ℚ → ℚ → ℚ} {start state next : VisualizedMap}
  {steps : List VisualizedStep} {held : Set VehicleData}

theorem stores_of_mem_lowerContents (isKeyed : state.threads.map.Keyed) {upper : UInt32}
    {vehdata : VehicleData} (member : vehdata ∈ state.threads.map.lowerContents upper) :
    state.Stores vehdata := by
  rcases (LDMMap.mem_lowerContents_iff upper vehdata).mp member with ⟨lower, stored, found, rfl⟩
  rcases isKeyed.keyed found with ⟨_, rfl, rfl⟩
  exact ⟨stored, found, rfl⟩

theorem storedDuring_append (label : VisualizedStep) :
    storedDuring haversineDist start steps ⊆
      storedDuring haversineDist start (steps ++ [label]) := by
  rintro vehdata ⟨past, earlier, isPrefix, stored⟩
  exact ⟨past, earlier, isPrefix.trans (List.prefix_append steps [label]), stored⟩

theorem Stores.mem_storedDuring {vehdata : VehicleData} (stores : state.Stores vehdata)
    (reached : Execution.run (step haversineDist) start steps = some state) :
    vehdata ∈ storedDuring haversineDist start steps :=
  ⟨steps, state, List.prefix_rfl, reached, stores⟩

/-! ## The steps -/

structure Shown (haversineDist : ℚ → ℚ → ℚ → ℚ → ℚ) (start : VisualizedMap)
    (steps : List VisualizedStep) (state : VisualizedMap) : Prop where
  faithful : state.Faithful
  tidy : state.display.page.Tidy (storedDuring haversineDist start steps)

theorem Shown.step (shown : Shown haversineDist start steps state)
    (reached : Execution.run (VisualizedMap.step haversineDist) start steps = some state)
    {label : VisualizedStep} (inRange : label.InRange)
    (stepped : state.step haversineDist label = some next) :
    Shown haversineDist start (steps ++ [label]) next := by
  have faithful := shown.faithful.step inRange stepped
  refine ⟨faithful, Page.Tidy.mono ?_ (storedDuring_append label)⟩
  cases label with
  | updateLower =>
      rcases updateLower_cases stepped with ⟨upper, rest, display, _, updated, rfl⟩
      have stored : ∀ vehdata ∈ state.threads.map.lowerContents upper,
          vehdata ∈ storedDuring haversineDist start steps := by
        intro vehdata member
        exact (stores_of_mem_lowerContents shown.faithful.keyed member).mem_storedDuring reached
      exact (Display.updateObjects_records shown.faithful.drawn shown.tidy stored updated).2.1
  | thread threadStep =>
      rcases thread_cases stepped with ⟨threads, display, _, cleared, rfl⟩
      exact (Display.clearObjects_records shown.faithful.drawn shown.tidy cleared).2
  | beginUpdate uppers =>
      simp only [VisualizedMap.step, beginUpdate] at stepped
      split at stepped
      · split at stepped
        · cases stepped
          exact shown.tidy
        · cases stepped
      · cases stepped
  | endUpdate =>
      simp only [VisualizedMap.step, endUpdate] at stepped
      split at stepped
      · cases stepped
        exact shown.tidy
      · cases stepped
  | reload =>
      cases stepped
      exact shown.faithful.drawn.tidy_reload _

/-! ## An update without interruption -/

end VisualizedMap

end AIM.Threads
