import IslandLayer.Proofs.Pen.Placing
import IslandLayer.Proofs.Script.Item

set_option autoImplicit false

namespace IslandLayer

open Script

/-- The stack size less one; no stack at all counts as a stack of one. -/
def Script.Item.extra (item : Item) : UInt32 := if item.stack = 0 then 0 else item.stack - 1

namespace Script.Command

/-- The words of a line are a command for that item. -/
def Asks (words : List String) (item : Item) : Prop :=
  ∃ command, Command.read words = .ok command ∧ command.item? = some item

/-- What is announced before the item; nothing where it stands alone. -/
def variant : Command → Variant
  | .variantItem variant _ => variant
  | _ => .absent

theorem variant_recounted (command : Command) (count : UInt32) :
    (command.recounted count).variant = command.variant := by
  cases command <;> rfl

theorem item?_recounted {command : Command} {item : Item} (has : command.item? = some item)
    (count : UInt32) : (command.recounted count).item? = some (item.recounted count) := by
  cases command with
  | empty => cases has
  | context context => cases has
  | item found =>
    cases has
    rfl
  | variantItem variant found =>
    cases has
    rfl

end Script.Command

namespace Pen

theorem draw_of_item? {command : Command} {item : Item} (has : command.item? = some item)
    (pen : Pen) (sizes : StackSizes) :
    pen.draw sizes command = pen.drawItem sizes command.variant item := by
  cases command with
  | empty => cases has
  | context context => cases has
  | item found =>
    cases has
    rfl
  | variantItem variant found =>
    cases has
    rfl

theorem follow_of_asks {words : List String} {item : Item} (asks : Command.Asks words item)
    (pen : Pen) (sizes : StackSizes) :
    ∃ variant, pen.follow sizes words = pen.drawItem sizes variant item := by
  obtain ⟨command, read, has⟩ := asks
  rw [follow_of_read pen sizes read]
  exact ⟨command.variant, draw_of_item? has pen sizes⟩

theorem drawItem_of_id {pen : Pen} {item : Item} {id : UInt64}
    (known : item.id? pen.context.modes.hex = some id) (sizes : StackSizes) (variant : Variant) :
    pen.drawItem sizes variant item = (pen.announce variant).place sizes id item := by
  rw [drawItem, known]

/-- With another count the same word is placed another number of times. -/
theorem drawItem_recounted {pen : Pen} {item : Item} {id : UInt64}
    (known : item.id? pen.context.modes.hex = some id) (sizes : StackSizes) (variant : Variant)
    (count : UInt32) :
    pen.drawItem sizes variant (item.recounted count) =
      placeFrom id.toUInt16 count.toNat ((pen.announce variant).pack sizes id item.extra)
        { pen.announce variant with pending := none } [] := by
  have same : (item.recounted count).id? pen.context.modes.hex = some id := known
  rw [drawItem_of_id same]
  rfl

end Pen

end IslandLayer
