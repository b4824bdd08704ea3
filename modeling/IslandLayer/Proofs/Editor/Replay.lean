import IslandLayer.Proofs.Editor.Independence
import IslandLayer.Proofs.Editor.Staging
import IslandLayer.Proofs.Layer.Columns

set_option autoImplicit false

namespace IslandLayer

open Script

namespace Layer

theorem placeAll_placeAll (layer : Layer) {ps : List Placement} (fit : ∀ p ∈ ps, p.Fits) :
    (layer.placeAll ps).placeAll ps = layer.placeAll ps :=
  ext_get (get_placeAll_placeAll layer fit)

end Layer

namespace Editor

theorem eq_of_parts {one two : Editor} (layer : one.layer = two.layer)
    (sizes : one.sizes = two.sizes) (pen : one.pen = two.pen) : one = two := by
  cases one
  cases two
  cases layer
  cases sizes
  cases pen
  rfl

/-- A run on what the same run has left, be it complete or broken off, ends in the same way and in
the same state. -/
theorem run_again (layer : Layer) (sizes : StackSizes) (sources : List Source) :
    run sources { layer := (run sources { layer, sizes }).1.layer, sizes } =
      run sources { layer, sizes } := by
  cases sources with
  | nil => rfl
  | cons first rest =>
    let start : Editor := { layer, sizes }
    let drawn : Editor := { layer := (start.run (first :: rest)).1.layer, sizes }
    change drawn.run (first :: rest) = start.run (first :: rest)
    obtain ⟨alike, results⟩ := Recorder.alike_ofRun first rest drawn start rfl
    have once := Recorder.layer_ofRun (first :: rest) start
    have twice := Recorder.layer_ofRun (first :: rest) drawn
    have fit := (Recorder.accounts_ofRun (first :: rest) start).fit
    refine Prod.ext (eq_of_parts ?_ ?_ ?_) results
    -- The second run makes the placements of the first, on a layer that shows them all.
    · calc (drawn.run (first :: rest)).1.layer
        _ = (start.run (first :: rest)).1.layer.placeAll _ := twice
        _ = (start.layer.placeAll _).placeAll _ := by rw [alike.taken, once]
        _ = start.layer.placeAll _ := start.layer.placeAll_placeAll fit
        _ = (start.run (first :: rest)).1.layer := once.symm
    · rw [sizes_run, sizes_run]
    · have pens := alike.pen
      rwa [← Recorder.toEditor_ofRun, ← Recorder.toEditor_ofRun]

end Editor

end IslandLayer
