import IslandLayer.Proofs.Pen.Recipes
import IslandLayer.Proofs.Pen.Variants

set_option autoImplicit false

namespace IslandLayer

open Script

namespace Cell

theorem itemId_pack (id : UInt64) (flags : UInt16) (stack : UInt32) :
    (pack id flags stack).itemId = id.toUInt16 := by
  apply UInt16.eq_of_toBitVec_eq
  ext i bound
  simp [itemId, pack]

/-- Whatever is packed with an id, no square of its block has the id zero. -/
theorem itemId_part_ne_zero {item : Cell} (named : item.itemId ≠ 0) (dx dy : UInt8) :
    (item.part dx dy).itemId ≠ 0 := by
  unfold part
  split
  · exact named
  · by_cases free : item.itemId = emptyId
    · rwa [extension_of_empty dx dy free]
    · rw [itemId_extension dx dy free]
      decide

end Cell

namespace Pen

theorem itemId_next {pen : Pen} {base : UInt16} {cell : Cell} (same : cell.itemId = base) :
    (pen.next base cell).itemId = base := by
  by_cases again : pen.Repeats base
  · obtain ⟨on, last, before, rfl⟩ := again
    rw [next_of_repeats_of_mem on before, Cell.itemId_repeated]
  · rwa [next_of_not_repeats again]

theorem pack_of_zero (pen : Pen) (sizes : StackSizes) {id : UInt64} (zero : id.toUInt16 = 0)
    (extra : UInt32) : pen.pack sizes id extra = Cell.empty := if_pos zero

/-- Everything that is laid over an id lies above it. -/
theorem itemId_pack_of_plain {pen : Pen} (plain : pen.context.modes.diy = false)
    (above : (pen.pending.getD 0).itemId = 0) (sizes : StackSizes) {id : UInt64}
    (named : id.toUInt16 ≠ 0) (extra : UInt32) :
    (pen.pack sizes id extra).itemId = id.toUInt16 := by
  have lower : (pen.pack sizes id extra).toUInt32 =
      (Cell.pack id pen.context.flags extra ||| pen.pending.getD 0).toUInt32 := by
    rw [toUInt32_pack, if_neg named, plain, if_neg Bool.false_ne_true]
  rw [Cell.itemId_congr lower, Cell.itemId_or, above, UInt16.or_zero, Cell.itemId_pack]

theorem itemId_pack_announce {pen : Pen} (unannounced : pen.pending = none)
    (plain : pen.context.modes.diy = false) (variant : Variant) (sizes : StackSizes) {id : UInt64}
    (named : id.toUInt16 ≠ 0) (extra : UInt32) :
    ((pen.announce variant).pack sizes id extra).itemId = id.toUInt16 := by
  have announced : (pen.announce variant).context.modes.diy = false := by simpa
  have above : ((pen.announce variant).pending.getD 0).itemId = 0 := by
    rw [pending_announce unannounced, Cell.itemId_eq_toUInt16, variant.toUInt32_bits]
    rfl
  exact itemId_pack_of_plain announced above sizes named extra

section

variable {pen : Pen} {sizes : StackSizes} {variant : Variant} {id : UInt64} {item : Item}

/-- The id zero frees a square, unless the pen remembers a word that has it as its id. -/
theorem cell_of_zero (named : ∀ last ∈ pen.last, last.itemId ≠ 0) (zero : id.toUInt16 = 0) :
    ∀ p ∈ ((pen.announce variant).place sizes id item).placed, p.cell = Cell.empty := by
  rw [place, pack_of_zero _ sizes zero, zero]
  apply cell_of_mem_placeFrom
  · decide
  · simpa using named

theorem itemId_of_plain (unannounced : pen.pending = none)
    (plain : pen.context.modes.diy = false) (named : id.toUInt16 ≠ 0) :
    ∀ p ∈ ((pen.announce variant).place sizes id item).placed, p.cell.itemId = id.toUInt16 := by
  intro p mem
  obtain ⟨front, back, split⟩ := List.append_of_mem mem
  rw [cell_of_place split]
  exact itemId_next (itemId_pack_announce unannounced plain variant sizes named item.extra)

/-- In `diy` mode only a recipe or a free square can be repeated, each by a command for its own id.
-/
theorem itemId_of_diy (teaches : pen.Teaches) (diy : pen.context.modes.diy = true)
    (named : id.toUInt16 ≠ 0) (covered : id.toUInt16 ≠ Cell.emptyId) :
    ∀ p ∈ ((pen.announce variant).place sizes id item).placed,
      p.cell.itemId = Cell.recipeId := by
  have announced : (pen.announce variant).context.modes.diy = true := by simpa
  have packed := pack_of_diy announced sizes id item.extra named
  let used : Pen := { pen.announce variant with pending := none }
  have remembered : ∀ last ∈ used.last, last.OfDiy := by
    show ∀ last ∈ (pen.announce variant).last, last.OfDiy
    rw [last_announce]
    exact teaches diy
  have left : ∀ p ∈ ((pen.announce variant).place sizes id item).placed, p.cell.OfDiy :=
    (writes_placeFrom Cell.OfDiy.repeated item.count.toNat (ofDiy_pack announced sizes id _)
      remembered).placed
  intro p mem
  obtain ⟨front, back, split⟩ := List.append_of_mem mem
  by_cases again : (pen.past front).Repeats id.toUInt16
  · have same : p.cell.itemId = id.toUInt16 := by
      obtain ⟨on, last, before, equal⟩ := again
      rw [cell_of_place split, ← equal, next_of_repeats_of_mem on before, Cell.itemId_repeated]
    exact (left p mem).resolve_left fun free => covered (same.symm.trans free)
  · rw [cell_of_place split, next_of_not_repeats again]
    exact (congrArg Cell.itemId packed).trans (sizes.itemId_recipe id.toUInt16)

end

end Pen

end IslandLayer
