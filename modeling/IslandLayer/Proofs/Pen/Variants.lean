import IslandLayer.Proofs.Pen.LowerHalf
import IslandLayer.Proofs.Pen.Packing

set_option autoImplicit false

namespace IslandLayer

open Script

namespace Script

namespace Command

/-- The words of a command with `NA` in place of its variant, which is the first of two words, or
the last but two. -/
def mute : List String → List String
  | [_, second] => ["NA", second]
  | [_, second, last] => ["NA", second, last]
  | first :: second :: third :: fourth :: rest => first :: mute (second :: third :: fourth :: rest)
  | words => words

@[simp] theorem length_mute (words : List String) : (mute words).length = words.length := by
  fun_induction mute words with
  | case3 first second third fourth rest ih => exact congrArg (· + 1) ih
  | _ => rfl

theorem read_mute {words : List String} {variant : Variant} {item : Item}
    (read : Command.read words = .ok (.variantItem variant item)) :
    Command.read (mute words) = .ok (.variantItem .absent item) := by
  have absent : Variant.read? "NA" = some .absent := by decide
  fun_induction Command.read words with
  | case1 | case2 | case3 | case4 | case5 | case7 | case8 | case9 => cases read
  | case6 first second variant found parsed announced =>
    cases read
    rw [mute, Command.read, absent, parsed]
  | case10 first second last variant found parsed announced =>
    cases read
    rw [mute, Command.read, Variant.readLong?, absent, parsed]
    rfl
  | case11 first second third fourth rest ih =>
    rw [mute, read_cons (by simp), ih read]

end Command

theorem Variant.toUInt32_bits (variant : Variant) : variant.bits.toUInt32 = 0 := by
  cases variant with
  | code variant texture => simp [bits]
  | absent => rfl
  | plain => rfl

end Script

namespace Pen

section

variable {pen : Pen} (unannounced : pen.pending = none) (variant : Variant)

include unannounced

/-- The variant of a line is only seen in the upper half of the word that it packs. -/
theorem toUInt32_pack_announce (sizes : StackSizes) (id : UInt64) (extra : UInt32) :
    ((pen.announce variant).pack sizes id extra).toUInt32 = (pen.pack sizes id extra).toUInt32 := by
  rw [toUInt32_pack, toUInt32_pack, context_announce, pending_announce unannounced, unannounced,
    UInt64.toUInt32_or, UInt64.toUInt32_or, variant.toUInt32_bits]
  rfl

theorem drawItem_sameLower (sizes : StackSizes) (item : Item) :
    (pen.drawItem sizes variant item).SameLower (pen.drawItem sizes .absent item) := by
  cases known : item.id? pen.context.modes.hex with
  | none =>
    rw [drawItem, drawItem, known]
    exact (SameLower.refl pen).idle _
  | some id =>
    rw [drawItem_of_id known, drawItem_of_id known, place, place, forget_announce unannounced,
      forget_announce unannounced]
    exact (SameLower.refl pen).placeFrom _ _ (toUInt32_pack_announce unannounced variant sizes id _)

end

theorem follow_mute {pen : Pen} (unannounced : pen.pending = none) {words : List String}
    {variant : Variant} {item : Item}
    (read : Command.read words = .ok (.variantItem variant item)) (sizes : StackSizes) :
    (pen.follow sizes words).SameLower (pen.follow sizes (Command.mute words)) := by
  rw [follow_of_read pen sizes read, follow_of_read pen sizes (Command.read_mute read)]
  exact drawItem_sameLower unannounced variant sizes item

end Pen

end IslandLayer
