import IslandLayer.Script.Context
import Mathlib.Data.List.Basic

set_option autoImplicit false

namespace IslandLayer.Script.Context

/-- The coordinate of the current slot in numbers without a bound. -/
def slot (context : Context) : Nat × Nat :=
  let width := max context.width.toNat 1
  (context.x.toNat + 2 * (context.offset.toNat % width),
    context.y.toNat + 2 * (context.offset.toNat / width))

theorem toNat_max_width (context : Context) :
    (max context.width 1).toNat = max context.width.toNat 1 := UInt32.toNat_max context.width 1

/-- Clipping a row or a column before the coordinate makes no difference to it. -/
theorem cursor_eq (context : Context) :
    context.cursor = (Saturating.clip context.slot.1, Saturating.clip context.slot.2) := by
  have two : (2 : UInt32).toNat = 2 := rfl
  apply Prod.ext
  · simp only [cursor, slot, ← UInt32.toNat_inj, Saturating.toNat_add, Saturating.toNat_mul,
      Saturating.toNat_clip, UInt32.toNat_mod, toNat_max_width, two]
    omega
  · simp only [cursor, slot, ← UInt32.toNat_inj, Saturating.toNat_add, Saturating.toNat_mul,
      Saturating.toNat_clip, UInt32.toNat_div, toNat_max_width, two]
    omega

/-- Hexadecimal items, as they are, in rows that take the whole width of a layer. -/
def sheet (offset : Nat) : Context :=
  { width := 112, offset := UInt32.ofNat offset, modes := { hex := true } }

theorem toNat_offset_sheet {k : Nat} (inside : k < 10752) : (sheet k).offset.toNat = k :=
  UInt32.toNat_ofNat_of_lt' (by simp only [UInt32.size]; omega)

theorem slot_sheet {k : Nat} (inside : k < 10752) :
    (sheet k).slot = (2 * (k % 112), 2 * (k / 112)) := by
  have width : max (sheet k).width.toNat 1 = 112 := rfl
  have corner : (sheet k).x.toNat = 0 ∧ (sheet k).y.toNat = 0 := ⟨rfl, rfl⟩
  simp only [slot, width, corner, toNat_offset_sheet inside, Nat.zero_add]

theorem cursor_sheet {k : Nat} (inside : k < 10752) :
    (sheet k).cursor = (UInt32.ofNat (2 * (k % 112)), UInt32.ofNat (2 * (k / 112))) := by
  have column : 2 * (k % 112) ≤ Saturating.limit := by
    simp only [Saturating.limit, UInt32.size]
    omega
  have row : 2 * (k / 112) ≤ Saturating.limit := by
    simp only [Saturating.limit, UInt32.size]
    omega
  rw [cursor_eq, slot_sheet inside, Saturating.clip_of_le column, Saturating.clip_of_le row]

theorem advance_sheet {k : Nat} (inside : k < 10752) : (sheet k).advance = sheet (k + 1) := by
  have offset : (sheet k).advance.offset = UInt32.ofNat (k + 1) := by
    rw [← UInt32.toNat_inj, toNat_offset_advance, toNat_offset_sheet inside, UInt32.toNat_ofNat',
      Saturating.limit, UInt32.size]
    omega
  calc (sheet k).advance
    _ = { (sheet k) with offset := (sheet k).advance.offset } := rfl
    _ = sheet (k + 1) := by rw [offset, sheet, sheet]

end IslandLayer.Script.Context
