import IslandLayer.Proofs.Editor.History
import IslandLayer.Proofs.Pen.LowerHalf

set_option autoImplicit false

namespace IslandLayer

namespace Recorder

/-- Recorders that agree on all but stack sizes and what comes from them. -/
structure SameLower (r s : Recorder) : Prop where
  pen : r.pen.SameLower s.pen
  layer : r.layer.SameLower s.layer
  taken : List.Forall₂ Placement.SameLower r.taken s.taken

theorem related_sameLower : Machine.Related machine machine SameLower where
  reset := fun same => ⟨.refl {}, same.layer, same.taken⟩
  apply := by
    intro r s same words
    change SameLower (r.apply words).1 (s.apply words).1 ∧ (r.apply words).2 = (s.apply words).2
    -- The tables of the two sides need not be related.
    have stroke := same.pen.follow r.sizes s.sizes words
    rw [apply_eq, apply_eq]
    exact ⟨⟨stroke.pen, same.layer.placeAll stroke.placed,
      List.rel_append same.taken stroke.placed⟩, stroke.result⟩

end Recorder

namespace Editor

/-- A stack size changes the upper half of words and nothing else: no answer, no context, no place,
and neither how many items are placed nor which. -/
theorem acts_with_other_sizes (layer : Layer) (pen : Pen) (sizes sizes' : StackSizes)
    (actions : List Action) :
    let start : Recorder := { layer, sizes, pen }
    let start' : Recorder := { layer, sizes := sizes', pen }
    let record := Recorder.machine.acts actions start
    let record' := Recorder.machine.acts actions start'
    let final := machine.acts actions start.toEditor
    let final' := machine.acts actions start'.toEditor
    record.toEditor = final ∧ record'.toEditor = final' ∧
    machine.answers actions start.toEditor = machine.answers actions start'.toEditor ∧
    final.pen.context = final'.pen.context ∧
    record.taken.map (fun p => (p.x, p.y)) = record'.taken.map (fun p => (p.x, p.y)) ∧
    final.layer.cells.map UInt64.toUInt32 = final'.layer.cells.map UInt64.toUInt32 ∧
    final.layer.placedCount = final'.layer.placedCount ∧
    final.layer.items false = final'.layer.items false := by
  intro start start' record record' final final'
  have begun : start.SameLower start' := ⟨.refl pen, rfl, .nil⟩
  have same : record.SameLower record' := Recorder.related_sameLower.acts actions begun
  have drawn : record.toEditor = final := Recorder.related_editor.acts actions rfl
  have drawn' : record'.toEditor = final' := Recorder.related_editor.acts actions rfl
  have answers : machine.answers actions start.toEditor =
      machine.answers actions start'.toEditor := by
    rw [← Recorder.related_editor.answers actions (rfl : start.toEditor = _),
      ← Recorder.related_editor.answers actions (rfl : start'.toEditor = _)]
    exact Recorder.related_sameLower.answers actions begun
  obtain ⟨count, ids⟩ := same.layer.inventory
  rw [← drawn, ← drawn']
  exact ⟨rfl, rfl, answers, same.pen.context, Placement.map_coordinates_eq same.taken, same.layer,
    count, ids⟩

end Editor

end IslandLayer
