import IslandLayer.Proofs.Pen.Counts
import IslandLayer.Proofs.Pen.Items

set_option autoImplicit false

namespace IslandLayer

open Script

/-- After what the first stroke does, the layer refuses the next placement of the packed word
`cell`, and the second stroke ends there. -/
structure Stroke.CutShort (part whole : Stroke) (base : UInt16) (cell : Cell) (e : LayerError) :
    Prop where
  result : part.result = .ok ()
  refused : (part.pen.target base cell).footprint.refusal? = some e
  whole : whole =
    ⟨{ part.pen with last := some (part.pen.target base cell).cell }, part.placed, .error (.layer e)⟩

theorem Stroke.CutShort.behind {part whole : Stroke} {base : UInt16} {cell : Cell} {e : LayerError}
    (cut : part.CutShort whole base cell e) (p : Placement) :
    (part.behind p).CutShort (whole.behind p) base cell e where
  result := cut.result
  refused := cut.refused
  whole := by
    rw [cut.whole]
    rfl

namespace Pen

/-- The placements before the refused one are those of a smaller count. -/
theorem placeFrom_of_error {base : UInt16} {count : Nat} {cell : Cell} {pen : Pen}
    {cause : EditError} (failed : (placeFrom base count cell pen []).result = .error cause) :
    ∃ e, cause = .layer e ∧ ∃ fewer < count,
      (placeFrom base fewer cell pen []).CutShort (placeFrom base count cell pen [])
        base cell e := by
  induction count generalizing pen with
  | zero => cases failed
  | succ count ih =>
    cases answer : (pen.target base cell).footprint.refusal? with
    | some e =>
      rw [placeFrom_of_refused answer] at failed ⊢
      cases failed
      exact ⟨e, rfl, 0, Nat.succ_pos count, rfl, answer, rfl⟩
    | none =>
      rw [placeFrom_restarted answer] at failed ⊢
      obtain ⟨e, layer, fewer, less, part⟩ := ih failed
      refine ⟨e, layer, fewer + 1, Nat.succ_lt_succ less, ?_⟩
      rw [placeFrom_restarted answer]
      exact part.behind _

/-- An item without an id leaves the pen as it is; one that is cut short has run a smaller count. -/
theorem drawItem_of_error {pen : Pen} {sizes : StackSizes} {variant : Variant} {item : Item}
    {cause : EditError} (failed : (pen.drawItem sizes variant item).result = .error cause) :
    pen.drawItem sizes variant item = ⟨pen, [], .error cause⟩ ∧ (∃ e, cause = .command e) ∨
      ∃ e, cause = .layer e ∧ ∃ id, item.id? pen.context.modes.hex = some id ∧
        ∃ fewer < item.count,
          (pen.drawItem sizes variant (item.recounted fewer)).CutShort
            (pen.drawItem sizes variant item) id.toUInt16
            ((pen.announce variant).pack sizes id item.extra) e := by
  cases known : item.id? pen.context.modes.hex with
  | none =>
    have idle : pen.drawItem sizes variant item =
        ⟨pen, [], .error (.command (.item item.token))⟩ := by
      simp only [drawItem, known]
    rw [idle] at failed ⊢
    cases failed
    exact Or.inl ⟨rfl, _, rfl⟩
  | some id =>
    have drawn := drawItem_recounted known sizes variant
    have whole : pen.drawItem sizes variant item =
        pen.drawItem sizes variant (item.recounted item.count) := by
      rw [drawn, drawItem_of_id known]
      rfl
    rw [whole, drawn] at failed ⊢
    obtain ⟨e, layer, fewer, less, part⟩ := placeFrom_of_error failed
    have small : (UInt32.ofNat fewer).toNat = fewer :=
      UInt32.toNat_ofNat_of_lt' (Nat.lt_trans less item.count.toNat_lt)
    refine Or.inr ⟨e, layer, id, rfl, UInt32.ofNat fewer, ?_, ?_⟩
    · rw [UInt32.lt_iff_toNat_lt, small]
      exact less
    · rwa [drawn, small]

theorem draw_of_error {pen : Pen} {sizes : StackSizes} {command : Command} {cause : EditError}
    (failed : (pen.draw sizes command).result = .error cause) :
    ∃ item, command.item? = some item := by
  cases command with
  | empty => cases failed
  | context context => cases failed
  | item item => exact ⟨item, rfl⟩
  | variantItem variant item => exact ⟨item, rfl⟩

/-- A line that is no command, or has an item without an id, does nothing at all, and one that the
layer cuts short has done what the same line with a smaller count does. -/
theorem follow_of_error {pen : Pen} {sizes : StackSizes} {words : List String} {cause : EditError}
    (failed : (pen.follow sizes words).result = .error cause) :
    pen.follow sizes words = ⟨pen, [], .error cause⟩ ∧ (∃ e, cause = .command e) ∨
      ∃ e, cause = .layer e ∧ ∃ command item id, Command.read words = .ok command ∧
        command.item? = some item ∧ item.id? pen.context.modes.hex = some id ∧
        ∃ fewer < item.count,
          (pen.follow sizes (Command.recount fewer words)).CutShort (pen.follow sizes words)
            id.toUInt16 ((pen.announce command.variant).pack sizes id item.extra) e := by
  cases read : Command.read words with
  | error e =>
    have idle : pen.follow sizes words = ⟨pen, [], .error (.command e)⟩ := by rw [follow, read]
    rw [idle] at failed ⊢
    cases failed
    exact Or.inl ⟨rfl, e, rfl⟩
  | ok command =>
    rw [follow_of_read pen sizes read] at failed ⊢
    obtain ⟨item, has⟩ := draw_of_error failed
    rw [draw_of_item? has] at failed ⊢
    rcases drawItem_of_error failed with idle | ⟨e, layer, id, known, fewer, less, part⟩
    · exact Or.inl idle
    · refine Or.inr ⟨e, layer, command, item, id, rfl, has, known, fewer, less, ?_⟩
      rwa [follow_of_read pen sizes (Command.read_recount read has fewer),
        draw_of_item? (Command.item?_recounted has fewer), Command.variant_recounted]

end Pen

end IslandLayer
