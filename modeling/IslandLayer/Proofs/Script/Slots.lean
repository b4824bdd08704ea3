import IslandLayer.Layer.Basic
import IslandLayer.Proofs.Script.Cursor
import Mathlib.Data.List.Nodup

set_option autoImplicit false

namespace IslandLayer.Script.Context

/-- The context after `count` more placements. -/
def advancedBy (context : Context) (count : Nat) : Context :=
  { context with offset := Saturating.clip (context.offset.toNat + count) }

theorem toNat_offset_advancedBy (context : Context) (count : Nat) :
    (context.advancedBy count).offset.toNat =
      min (context.offset.toNat + count) Saturating.limit :=
  Saturating.toNat_clip _

@[simp] theorem advancedBy_zero (context : Context) : context.advancedBy 0 = context := by
  have same : Saturating.clip (context.offset.toNat + 0) = context.offset :=
    Saturating.add_zero context.offset
  rw [advancedBy, same]

theorem advancedBy_one (context : Context) : context.advancedBy 1 = context.advance := rfl

theorem advancedBy_advancedBy (context : Context) (first second : Nat) :
    (context.advancedBy first).advancedBy second = context.advancedBy (first + second) := by
  have same : ((context.advancedBy first).advancedBy second).offset =
      (context.advancedBy (first + second)).offset := by
    simp only [← UInt32.toNat_inj, toNat_offset_advancedBy]
    omega
  calc (context.advancedBy first).advancedBy second
    _ = { context with offset := ((context.advancedBy first).advancedBy second).offset } := rfl
    _ = context.advancedBy (first + second) := by
      rw [same]
      rfl

/-- The slot that lies `count` placements ahead, in numbers without a bound but for the counter of
slots, which stops at the last word. -/
def slotAt (context : Context) (count : Nat) : Nat × Nat :=
  let width := max context.width.toNat 1
  let offset := min (context.offset.toNat + count) Saturating.limit
  (context.x.toNat + 2 * (offset % width), context.y.toNat + 2 * (offset / width))

theorem slot_advancedBy (context : Context) (count : Nat) :
    (context.advancedBy count).slot = context.slotAt count := by
  rw [slot, toNat_offset_advancedBy]
  rfl

theorem slot_of_onGrid {context : Context}
    (onGrid : Layer.OnGrid context.cursor.1 context.cursor.2) :
    context.slot = (context.cursor.1.toNat, context.cursor.2.toNat) := by
  simp only [cursor_eq, Layer.OnGrid, Saturating.toNat_clip, Saturating.limit, UInt32.size,
    Layer.width, Layer.height] at onGrid ⊢
  apply Prod.ext
  · dsimp only
    omega
  · dsimp only
    omega

/-- Row and column of a slot give back its number. -/
theorem offset_eq_of_cursor_eq {context : Context} {j k : Nat}
    (onGrid : Layer.OnGrid (context.advancedBy j).cursor.1 (context.advancedBy j).cursor.2)
    (same : (context.advancedBy j).cursor = (context.advancedBy k).cursor) :
    (context.advancedBy j).offset = (context.advancedBy k).offset := by
  have slots : (context.advancedBy j).slot = (context.advancedBy k).slot := by
    rw [slot_of_onGrid onGrid, slot_of_onGrid (same ▸ onGrid), same]
  have column : (context.advancedBy j).offset.toNat % max context.width.toNat 1 =
      (context.advancedBy k).offset.toNat % max context.width.toNat 1 := by
    have sums := congrArg Prod.fst slots
    simp only [slot, advancedBy] at sums ⊢
    omega
  have row : (context.advancedBy j).offset.toNat / max context.width.toNat 1 =
      (context.advancedBy k).offset.toNat / max context.width.toNat 1 := by
    have sums := congrArg Prod.snd slots
    simp only [slot, advancedBy] at sums ⊢
    omega
  rw [← UInt32.toNat_inj, ← Nat.div_add_mod (context.advancedBy j).offset.toNat, column, row,
    Nat.div_add_mod]

def cursors (context : Context) (count : Nat) : List (UInt32 × UInt32) :=
  (List.range count).map fun k => (context.advancedBy k).cursor

theorem cursors_one (context : Context) : context.cursors 1 = [context.cursor] := by
  simp [cursors]

@[simp] theorem length_cursors (context : Context) (count : Nat) :
    (context.cursors count).length = count := by
  simp [cursors]

theorem cursors_add (context : Context) (first second : Nat) :
    context.cursors (first + second) =
      context.cursors first ++ (context.advancedBy first).cursors second := by
  simp only [cursors, List.range_add, List.map_append, List.map_map, Function.comp_def,
    advancedBy_advancedBy]

/-- Slots on the grid are different as long as the counter has not stopped before the last one. -/
theorem nodup_cursors_iff {context : Context} {count : Nat}
    (onGrid : ∀ spot ∈ context.cursors count, Layer.OnGrid spot.1 spot.2) :
    (context.cursors count).Nodup ↔ context.offset.toNat + count ≤ UInt32.size := by
  have bound := context.offset.toNat_lt
  rw [cursors, List.nodup_map_iff_inj_on List.nodup_range]
  simp only [List.mem_range]
  constructor
  · intro injective
    -- Two slots at the last word would be the same.
    by_contra beyond
    have limit : Saturating.limit + 1 = UInt32.size := rfl
    have size : UInt32.size = 4294967296 := rfl
    have stopped (k : Nat) (late : count ≤ k + 2) :
        (context.advancedBy k).offset.toNat = Saturating.limit := by
      rw [toNat_offset_advancedBy]
      omega
    have same : context.advancedBy (count - 2) = context.advancedBy (count - 1) := by
      have offsets : (context.advancedBy (count - 2)).offset =
          (context.advancedBy (count - 1)).offset := by
        rw [← UInt32.toNat_inj, stopped _ (by omega), stopped _ (by omega)]
      exact congrArg (fun offset => { context with offset }) offsets
    have equal := injective (count - 2) (by omega) (count - 1) (by omega)
      (congrArg cursor same)
    omega
  · intro small j listed k listed' same
    have offsets := offset_eq_of_cursor_eq
      (onGrid _ (List.mem_map_of_mem (List.mem_range.mpr listed))) same
    rw [← UInt32.toNat_inj, toNat_offset_advancedBy, toNat_offset_advancedBy, Saturating.limit]
      at offsets
    omega

end IslandLayer.Script.Context
