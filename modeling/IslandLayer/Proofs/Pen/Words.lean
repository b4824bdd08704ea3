import IslandLayer.Proofs.Cell
import IslandLayer.Proofs.Pen.Placing

set_option autoImplicit false

namespace IslandLayer

open Script

/-- Every word that is placed, or remembered at the end, has the property. -/
structure Stroke.Writes (stroke : Stroke) (P : Cell → Prop) : Prop where
  placed : ∀ p ∈ stroke.placed, P p.cell
  last : ∀ cell ∈ stroke.pen.last, P cell

theorem Stroke.Writes.idle {P : Cell → Prop} {pen : Pen} (before : ∀ last ∈ pen.last, P last)
    (result : Except EditError Unit) : Stroke.Writes ⟨pen, [], result⟩ P :=
  ⟨List.forall_mem_nil _, before⟩

namespace Pen

section

variable {P : Cell → Prop} {base : UInt16}
  (repeats : ∀ last, P last → last.itemId = base → P (Cell.repeated base last))

include repeats

theorem next_of_repeats {pen : Pen} (before : ∀ last ∈ pen.last, P last) {cell : Cell}
    (word : P cell) : P (pen.next base cell) := by
  unfold next
  split
  · next last remembered =>
    split
    · next again =>
      rw [Bool.and_eq_true, beq_iff_eq] at again
      exact repeats last (before last remembered) again.2
    · exact word
  · exact word

/-- The word of each placement is made from the word before it. -/
theorem writes_placeFrom (count : Nat) {cell : Cell} (word : P cell) {pen : Pen}
    (before : ∀ last ∈ pen.last, P last) : (placeFrom base count cell pen []).Writes P := by
  induction count generalizing cell pen with
  | zero => exact .idle before _
  | succ count ih =>
    have written := next_of_repeats repeats before word
    have remembered : ∀ last ∈ some (pen.next base cell), P last := by
      rintro last ⟨⟩
      exact written
    cases answer : (pen.target base cell).footprint.refusal? with
    | some e =>
      rw [placeFrom_of_refused answer]
      exact .idle remembered _
    | none =>
      rw [placeFrom_of_accepted answer]
      have rest : (placeFrom base count (pen.next base cell)
          (pen.moved (pen.next base cell)) []).Writes P := ih written remembered
      exact ⟨List.forall_mem_cons.mpr ⟨written, rest.placed⟩, rest.last⟩

end

/-- The id zero is packed as a free square, and any other id stays in the word. -/
theorem itemId_pack_ne_zero (pen : Pen) (sizes : StackSizes) (id : UInt64) (extra : UInt32) :
    (pen.pack sizes id extra).itemId ≠ 0 := by
  unfold pack
  dsimp only
  by_cases zero : id.toUInt16 = 0
  · rw [if_pos zero]
    decide
  · have packed : (if pen.context.modes.diy then Cell.recipe id.toUInt16
        else Cell.pack id pen.context.flags extra ||| pen.pending.getD 0).itemId ≠ 0 := by
      split
      · rw [Cell.itemId_recipe]
        decide
      · exact Cell.itemId_or_ne_zero (Cell.itemId_pack_ne_zero zero _ _) _
    rw [if_neg zero]
    generalize (if pen.context.modes.diy then _ else _ : Cell) = word at packed ⊢
    split
    · exact packed
    · split
      · exact Cell.itemId_or_ne_zero packed _
      · exact packed

section

variable {pen : Pen} (before : ∀ last ∈ pen.last, last.itemId ≠ 0)

include before

theorem writes_drawItem (sizes : StackSizes) (variant : Variant) (item : Item) :
    (pen.drawItem sizes variant item).Writes (·.itemId ≠ 0) := by
  unfold drawItem
  split
  · next id _ =>
    apply writes_placeFrom
    -- A repeat has the id of the word that it repeats.
    · intro last named same
      rwa [Cell.itemId_repeated, ← same]
    · exact itemId_pack_ne_zero _ sizes id _
    · simpa using before
  · exact .idle before _

theorem writes_follow (sizes : StackSizes) (words : List String) :
    (pen.follow sizes words).Writes (·.itemId ≠ 0) :=
  pen.follow_cases sizes words (P := fun stroke => stroke.Writes (·.itemId ≠ 0)) (.idle before)
    (fun _ => .idle nofun _) (writes_drawItem before sizes)

end

end Pen

end IslandLayer
