import IslandLayer.Proofs.DropReport
import IslandLayer.Proofs.Pen.Placing

set_option autoImplicit false

namespace IslandLayer

open Script

theorem Cell.pack_zero (id : UInt64) : Cell.pack id 0 0 = id := by
  simp [Cell.pack]

namespace Pen

/-- Ids are hexadecimal, and there is no other mode, no flag and no variant. -/
structure Copies (pen : Pen) : Prop where
  modes : pen.context.modes = { hex := true }
  flags : pen.context.flags = 0
  pending : pen.pending = none

namespace Copies

variable {pen : Pen} (copies : pen.Copies)

include copies

theorem pack {item : Cell} (named : item.itemId ≠ 0) : pen.pack StackSizes.empty item 0 = item := by
  have unlisted (id : UInt16) : StackSizes.empty.defaultExtra? id = none := by
    simp [StackSizes.defaultExtra?]
  have zero : ¬ UInt64.toUInt16 item = 0 := named
  simp [Pen.pack, copies.modes, copies.flags, copies.pending, Cell.pack_zero, unlisted, zero]

theorem next (base : UInt16) (cell : Cell) : pen.next base cell = cell := by
  unfold Pen.next
  split
  · rw [copies.modes]
    rfl
  · rfl

/-- The word of an item with an id is placed as it is, if the slot is on the layer. -/
theorem follow {item : Cell} (named : item.itemId ≠ 0)
    (fits : (⟨pen.context.cursor.1, pen.context.cursor.2, item⟩ : Placement).Fits) :
    pen.follow StackSizes.empty [DropReport.word item] =
      ⟨pen.moved item, [⟨pen.context.cursor.1, pen.context.cursor.2, item⟩], .ok ()⟩ := by
  let copied : Item := { token := DropReport.word item, digits := DropReport.word item }
  have id : copied.id? pen.context.modes.hex = some item := by
    simp [copied, copies.modes]
  have extra : (if copied.stack = 0 then 0 else copied.stack - 1) = 0 := by simp [copied]
  have once : copied.count.toNat = 1 := rfl
  have used : { pen with pending := none } = pen := by rw [← copies.pending]
  have target (base : UInt16) : pen.target base item =
      ⟨pen.context.cursor.1, pen.context.cursor.2, item⟩ := by
    rw [Pen.target, copies.next]
  have accepted (base : UInt16) : (pen.target base item).footprint.refusal? = none := by
    rwa [Placement.refusal?_eq_none_iff, target]
  calc pen.follow StackSizes.empty [DropReport.word item]
    _ = pen.drawItem StackSizes.empty .absent copied :=
      pen.follow_of_read StackSizes.empty (DropReport.read_word item)
    _ = pen.place StackSizes.empty item copied := by
      rw [drawItem, id]
      rfl
    _ = placeFrom (UInt64.toUInt16 item) 1 item pen [] := by
      simp only [place, extra, once, used, copies.pack named]
    _ = ⟨pen.moved item, [⟨pen.context.cursor.1, pen.context.cursor.2, item⟩], .ok ()⟩ := by
      rw [placeFrom_of_accepted (accepted _), target, copies.next]
      rfl

end Copies

end Pen

end IslandLayer
