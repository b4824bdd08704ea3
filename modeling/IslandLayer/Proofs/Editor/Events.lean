import IslandLayer.Proofs.Editor.History

set_option autoImplicit false

namespace IslandLayer

open Script

/-- What one use of an editor shows. -/
structure Event where
  answer : Answer
  context : Context
  /-- The placements that the layer has accepted. -/
  placed : List Placement

namespace Editor

def event (editor : Editor) (action : Action) : Event where
  answer := machine.answer editor action
  context := (machine.act editor action).pen.context
  placed := (Recorder.machine.act { editor with taken := [] } action).taken

def events : List Action → Editor → List Event
  | [], _ => []
  | action :: rest, editor => editor.event action :: events rest (machine.act editor action)

theorem length_events (actions : List Action) (editor : Editor) :
    (events actions editor).length = actions.length := by
  induction actions generalizing editor with
  | nil => rfl
  | cons action rest ih => rw [events, List.length_cons, List.length_cons, ih]

theorem events_append (front back : List Action) (editor : Editor) :
    events (front ++ back) editor =
      events front editor ++ events back (machine.acts front editor) := by
  induction front generalizing editor with
  | nil => rfl
  | cons action rest ih =>
    rw [List.cons_append, events, events, ih]
    rfl

/-- One line shows what the pen does on it. -/
theorem event_apply (editor : Editor) (words : List String) :
    let stroke := editor.pen.follow editor.sizes words
    editor.event (.apply words) = ⟨.apply stroke.result, stroke.pen.context, stroke.placed⟩ := by
  intro stroke
  rw [show stroke.placed = _ from (Recorder.taken_apply editor words).symm]
  rfl

theorem fits_of_mem_events {actions : List Action} {editor : Editor} :
    ∀ event ∈ events actions editor, ∀ p ∈ event.placed, p.Fits := by
  induction actions generalizing editor with
  | nil => exact fun _ mem => absurd mem List.not_mem_nil
  | cons action rest ih =>
    have first : ∀ p ∈ (editor.event action).placed, p.Fits :=
      (Recorder.accounts_acts editor [action]).fit
    exact List.forall_mem_cons.mpr ⟨first, ih⟩

theorem layer_act (editor : Editor) (action : Action) :
    (machine.act editor action).layer = editor.layer.placeAll (editor.event action).placed :=
  Recorder.layer_acts editor [action]

/-- The layer in the end has everything on it that the events show. -/
theorem layer_eq_events (actions : List Action) (editor : Editor) :
    (machine.acts actions editor).layer =
      editor.layer.placeAll ((events actions editor).flatMap (·.placed)) := by
  induction actions generalizing editor with
  | nil => rfl
  | cons action rest ih =>
    have step : (machine.acts (action :: rest) editor).layer =
        (machine.acts rest (machine.act editor action)).layer := rfl
    rw [step, ih, layer_act, events, List.flatMap_cons, Layer.placeAll_append]

/-- What a line in the middle of a history shows, and what it leaves for the uses after it. -/
theorem events_around (front back : List Action) (words : List String) (editor : Editor) :
    let start := machine.acts front editor
    let stroke := start.pen.follow start.sizes words
    let after := events back (start.apply words).1
    events (front ++ .apply words :: back) editor =
      events front editor ++ ⟨.apply stroke.result, stroke.pen.context, stroke.placed⟩ :: after ∧
    (machine.acts (front ++ .apply words :: back) editor).layer =
      (start.layer.placeAll stroke.placed).placeAll (after.flatMap (·.placed)) := by
  intro start stroke after
  constructor
  · rw [events_append, events, event_apply]
    rfl
  · rw [machine.acts_append]
    exact layer_eq_events back (start.apply words).1

end Editor

namespace Recorder

/-- Recorders with related pens, the same stack sizes and the same record. -/
structure Mirrors (R : Pen → Pen → Prop) (r s : Recorder) : Prop where
  sizes : r.sizes = s.sizes
  pen : R r.pen s.pen
  taken : r.taken = s.taken

theorem related_mirrors {R : Pen → Pen → Prop} (bisimulation : Pen.Bisimulation R) :
    Machine.Related machine machine (Mirrors R) where
  reset := fun mirrors => ⟨mirrors.sizes, bisimulation.new, mirrors.taken⟩
  apply := by
    intro r s mirrors words
    change Mirrors R (r.apply words).1 (s.apply words).1 ∧ (r.apply words).2 = (s.apply words).2
    have strokes := bisimulation.follow mirrors.pen r.sizes words
    rw [apply_eq, apply_eq, ← mirrors.sizes]
    refine ⟨⟨mirrors.sizes, strokes.pen, ?_⟩, strokes.result⟩
    change r.taken ++ _ = s.taken ++ _
    rw [mirrors.taken, strokes.placed]

end Recorder

namespace Pen.Bisimulation

variable {R : Pen → Pen → Prop} (bisimulation : Bisimulation R)

include bisimulation

theorem event_eq {one two : Editor} (sizes : one.sizes = two.sizes) (pens : R one.pen two.pen)
    (action : Action) :
    one.event action = two.event action ∧
      (Editor.machine.act one action).sizes = (Editor.machine.act two action).sizes ∧
      R (Editor.machine.act one action).pen (Editor.machine.act two action).pen := by
  let recorder (editor : Editor) : Recorder := { editor with taken := [] }
  have start : Recorder.Mirrors R (recorder one) (recorder two) := ⟨sizes, pens, rfl⟩
  obtain ⟨mirrors, answers⟩ := (Recorder.related_mirrors bisimulation).act action start
  have same (editor : Editor) :=
    Recorder.related_editor.act action (rfl : (recorder editor).toEditor = editor)
  have state := mirrors.sizes
  have related := mirrors.pen
  rw [(same one).1, (same two).1] at state related
  refine ⟨?_, state, related⟩
  rw [Editor.event, Editor.event, ← (same one).2, ← (same two).2, answers,
    bisimulation.context related, mirrors.taken]

/-- Editors with related pens show the same in every history. -/
theorem events_eq (actions : List Action) {one two : Editor} (sizes : one.sizes = two.sizes)
    (pens : R one.pen two.pen) : Editor.events actions one = Editor.events actions two := by
  induction actions generalizing one two with
  | nil => rfl
  | cons action rest ih =>
    obtain ⟨first, sizes, pens⟩ := bisimulation.event_eq sizes pens action
    rw [Editor.events, Editor.events, first, ih sizes pens]

end Pen.Bisimulation

end IslandLayer
