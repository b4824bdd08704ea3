import IslandLayer.Proofs.Editor.History

set_option autoImplicit false

namespace IslandLayer

open Script

namespace Recorder

/-- Two recorders that differ in nothing but the layer under them. -/
structure Alike (r s : Recorder) : Prop where
  sizes : r.sizes = s.sizes
  pen : r.pen = s.pen
  taken : r.taken = s.taken

/-- No line asks the layer for anything but room, and every layer has the same room. -/
theorem related_alike : Machine.Related machine machine Alike where
  reset := fun alike => ⟨alike.sizes, rfl, alike.taken⟩
  apply := by
    intro r s alike words
    change Alike (r.apply words).1 (s.apply words).1 ∧ (r.apply words).2 = (s.apply words).2
    rw [apply_eq, apply_eq, alike.pen, alike.sizes]
    exact ⟨⟨alike.sizes, rfl, congrArg (· ++ _) alike.taken⟩, rfl⟩

/-- The recorder of a run that starts with the editor. -/
def ofRun (sources : List Source) (editor : Editor) : Recorder :=
  (run sources { editor with taken := [] }).1

theorem accounts_ofRun (sources : List Source) (editor : Editor) :
    Accounts editor.layer (ofRun sources editor) :=
  accounts_acts editor [.run sources]

theorem toEditor_ofRun (sources : List Source) (editor : Editor) :
    (ofRun sources editor).toEditor = (editor.run sources).1 :=
  toEditor_acts editor [.run sources]

theorem layer_ofRun (sources : List Source) (editor : Editor) :
    (editor.run sources).1.layer = editor.layer.placeAll (ofRun sources editor).taken :=
  layer_acts editor [.run sources]

theorem alike_ofRun (first : Source) (rest : List Source) (one two : Editor)
    (sizes : one.sizes = two.sizes) :
    Alike (ofRun (first :: rest) one) (ofRun (first :: rest) two) ∧
      (one.run (first :: rest)).2 = (two.run (first :: rest)).2 := by
  -- The pen of the state it starts in is gone before the first line of a script.
  have fresh (editor : Editor) : run (first :: rest) { editor with taken := [] } =
      run (first :: rest) { editor with pen := {}, taken := [] } :=
    machine.run_cons_of_reset_eq rfl first rest
  have start : Alike { one with pen := {}, taken := [] } { two with pen := {}, taken := [] } :=
    ⟨sizes, rfl, rfl⟩
  obtain ⟨states, results⟩ := related_alike.run (first :: rest) start
  have drawn (editor : Editor) := (run_eq (first :: rest) { editor with taken := [] }).2
  rw [ofRun, ofRun, ← drawn one, ← drawn two, fresh one, fresh two]
  exact ⟨states, results⟩

end Recorder

namespace Editor

/-- Runs of the same scripts on two layers, with the same stack sizes and after whatever was done
before, end in the same way with the same pen and make the same placements. A square that one of
these covers shows the same word on both layers, and any other square what it showed before. -/
theorem run_independent (sizes : StackSizes) (first : Source) (rest : List Source)
    (layer layer' : Layer) (pen pen' : Pen) :
    let one := run (first :: rest) { layer, sizes, pen }
    let two := run (first :: rest) { layer := layer', sizes, pen := pen' }
    let placed := (Recorder.ofRun (first :: rest) { layer, sizes, pen }).taken
    one.2 = two.2 ∧ one.1.pen = two.1.pen ∧
    (Recorder.ofRun (first :: rest) { layer := layer', sizes, pen := pen' }).taken = placed ∧
    ∀ x y,
      (∃ p ∈ placed, p.Covers x y) ∧ one.1.layer.get x y = two.1.layer.get x y ∨
      (∀ p ∈ placed, ¬ p.Covers x y) ∧
        one.1.layer.get x y = layer.get x y ∧ two.1.layer.get x y = layer'.get x y := by
  intro one two placed
  obtain ⟨alike, results⟩ := Recorder.alike_ofRun first rest { layer, sizes, pen }
    { layer := layer', sizes, pen := pen' } rfl
  have accounts := Recorder.accounts_ofRun (first :: rest) { layer, sizes, pen }
  have left : _ = one.1 := Recorder.toEditor_ofRun (first :: rest) { layer, sizes, pen }
  have right : _ = two.1 :=
    Recorder.toEditor_ofRun (first :: rest) { layer := layer', sizes, pen := pen' }
  refine ⟨results, ?_, alike.taken.symm, ?_⟩
  · rw [← left, ← right]
    exact alike.pen
  · intro x y
    have drawn : one.1.layer = layer.placeAll placed := Recorder.layer_ofRun _ _
    have drawn' : two.1.layer = layer'.placeAll placed := by
      change two.1.layer = layer'.placeAll (Recorder.ofRun _ { layer, sizes, pen }).taken
      rw [alike.taken]
      exact Recorder.layer_ofRun _ _
    rw [drawn, drawn', Layer.get_placeAll _ accounts.fit, Layer.get_placeAll _ accounts.fit]
    cases last : Layer.lastOn placed x y with
    | none => exact Or.inr ⟨(Layer.lastOn_eq_none_iff placed x y).mp last, rfl, rfl⟩
    | some cell => exact Or.inl ⟨Layer.exists_covers_of_lastOn last, rfl⟩

end Editor

end IslandLayer
