import IslandLayer.Proofs.Editor.Events
import IslandLayer.Proofs.Editor.Fields
import IslandLayer.Proofs.Editor.StackSizes
import IslandLayer.Proofs.Pen.Variants

set_option autoImplicit false

namespace IslandLayer

open Script

theorem Placement.exists_covers_iff {ps ps' : List Placement}
    (same : List.Forall₂ Placement.SameLower ps ps') (x y : UInt32) :
    (∃ p ∈ ps, p.Covers x y) ↔ ∃ p ∈ ps', p.Covers x y := by
  induction same with
  | nil => exact Iff.rfl
  | cons first _ ih =>
    rw [List.exists_mem_cons_iff, List.exists_mem_cons_iff, ih, Covers, Covers, first.x, first.y]

/-- Placements with the same lower halves leave the same on every square that they do not cover, or
that is covered again afterwards. -/
theorem Layer.get_placeAll_congr (layer : Layer) {own own' later : List Placement}
    (same : List.Forall₂ Placement.SameLower own own') (fit : ∀ p ∈ own, p.Fits)
    (fit' : ∀ p ∈ own', p.Fits) (fits : ∀ p ∈ later, p.Fits) {x y : UInt32}
    (hidden : (∃ p ∈ later, p.Covers x y) ∨ ¬ ∃ p ∈ own, p.Covers x y) :
    ((layer.placeAll own).placeAll later).get x y =
      ((layer.placeAll own').placeAll later).get x y := by
  by_cases covered : ∃ p ∈ later, p.Covers x y
  · obtain ⟨cell, shown⟩ := exists_cell_of_covers fits covered
    rw [shown, shown]
  · have apart := hidden.resolve_left covered
    have apart' := (Placement.exists_covers_iff same x y).not.mp apart
    rw [get_placeAll_of_apart _ fits covered, get_placeAll_of_apart _ fits covered,
      get_placeAll_of_apart layer fit apart, get_placeAll_of_apart layer fit' apart']

/-- Uses that show the same but for the upper halves of what they place. -/
structure Event.SameLower (event event' : Event) : Prop where
  answer : event.answer = event'.answer
  context : event.context = event'.context
  placed : List.Forall₂ Placement.SameLower event.placed event'.placed

namespace Editor

/-- Between two uses of an editor no variant is announced. Writing `NA` in place of the variant of a
line, anywhere in a history, changes no answer, no context and nothing that any other use places;
what the line itself places stands on the same squares with the same lower halves. So in the end
only squares that the line was the last to cover can differ, and these in their upper halves. -/
theorem variant_confined {editor : Editor} (reachable : editor.Reachable) (front back : List Action)
    {words : List String} {variant : Variant} {item : Item}
    (read : Command.read words = .ok (.variantItem variant item)) :
    let spoken := front ++ .apply words :: back
    let muted := front ++ .apply (Command.mute words) :: back
    let final := machine.acts spoken editor
    let final' := machine.acts muted editor
    editor.pen.pending = none ∧
    Command.read (Command.mute words) = .ok (.variantItem .absent item) ∧
    (∃ before own own' after, before.length = front.length ∧
      events spoken editor = before ++ own :: after ∧
      events muted editor = before ++ own' :: after ∧
      own.SameLower own' ∧
      ∀ x y, (∃ event ∈ after, ∃ p ∈ event.placed, p.Covers x y) ∨
          (¬ ∃ p ∈ own.placed, p.Covers x y) →
        final.layer.get x y = final'.layer.get x y) ∧
    final.layer.SameLower final'.layer := by
  intro spoken muted final final'
  let start := machine.acts front editor
  let stroke := start.pen.follow start.sizes words
  let stroke' := start.pen.follow start.sizes (Command.mute words)
  have strokes : stroke.SameLower stroke' :=
    Pen.follow_mute (pending_of_reachable (reachable.acts front)) read start.sizes
  obtain ⟨shown, layer⟩ := events_around front back words editor
  obtain ⟨shown', layer'⟩ := events_around front back (Command.mute words) editor
  -- The uses after the line begin with pens that differ in the upper half of a word at most.
  have after : events back (start.apply words).1 =
      events back (start.apply (Command.mute words)).1 :=
    Pen.bisimulation_sameLower.events_eq back rfl strokes.pen
  rw [← after] at shown' layer'
  refine ⟨pending_of_reachable reachable, Command.read_mute read, ⟨_, _, _, _,
    length_events front editor, shown, shown',
    ⟨congrArg Answer.apply strokes.result, strokes.pen.context, strokes.placed⟩, ?_⟩, ?_⟩
  · intro x y hidden
    have fits : ∀ p ∈ (events back (start.apply words).1).flatMap (·.placed), p.Fits := by
      intro p mem
      obtain ⟨event, listed, placed⟩ := List.mem_flatMap.mp mem
      exact fits_of_mem_events event listed p placed
    rw [layer, layer']
    refine Layer.get_placeAll_congr start.layer strokes.placed
      (start.pen.fits_of_mem_follow _ _) (start.pen.fits_of_mem_follow _ _) fits ?_
    refine hidden.imp_left ?_
    rintro ⟨event, listed, p, placed, covers⟩
    exact ⟨p, List.mem_flatMap.mpr ⟨event, listed, placed⟩, covers⟩
  · rw [layer, layer']
    have line : (start.layer.placeAll stroke.placed).SameLower
        (start.layer.placeAll stroke'.placed) := Layer.SameLower.placeAll rfl strokes.placed
    exact line.placeAll (List.forall₂_same.mpr fun _ _ => ⟨rfl, rfl, rfl⟩)

/-- Repeats of a chair with a variant, of which the first repeat is drawn by the line itself and the
second by the next one. -/
theorem variant_confined_of_chairs :
    let editor := machine.acts [.apply ["@0,0,16,0,0,20,variants"]]
      { layer := Layer.empty, sizes := .empty }
    let words := ["0", "2_3", "2000*2", "chair"]
    let muted := ["0", "NA", "2000*2", "chair"]
    let item : Item := { token := "2000*2", digits := "2000", count := 2 }
    editor.Reachable ∧ Command.read words = .ok (.variantItem (.code 2 3) item) ∧
    Command.mute words = muted ∧
    ∃ before own own' after,
      events [.apply ["7"], .apply words, .apply ["2000"]] editor = before ++ own :: after ∧
      events [.apply ["7"], .apply muted, .apply ["2000"]] editor = before ++ own' :: after ∧
      before.length = 1 ∧ own.SameLower own' := by
  intro editor words muted item
  have reachable : editor.Reachable := ⟨_, _, _, rfl⟩
  have read : Command.read words = .ok (.variantItem (.code 2 3) item) := by decide
  obtain ⟨-, -, ⟨before, own, own', after, length, shown, shown', same, -⟩, -⟩ :=
    variant_confined reachable [.apply ["7"]] [.apply ["2000"]] read
  exact ⟨reachable, read, by decide, before, own, own', after, shown, shown', length, same⟩

end Editor

end IslandLayer
