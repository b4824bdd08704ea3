import IslandLayer.Proofs.Layer.Inventory

set_option autoImplicit false

namespace IslandLayer.Layer

/-- An item in the slot of that number. -/
def slot (k : Nat) (item : Cell) : Placement :=
  ⟨UInt32.ofNat (2 * (k % 112)), UInt32.ofNat (2 * (k / 112)), item⟩

/-- The items in slots that follow one another. -/
def raster (first : Nat) : List Cell → List Placement
  | [] => []
  | item :: rest => slot first item :: raster (first + 1) rest

section

variable {k : Nat} (inside : k < 10752) (item : Cell)

include inside

theorem toNat_slot :
    (slot k item).x.toNat = 2 * (k % 112) ∧ (slot k item).y.toNat = 2 * (k / 112) := by
  constructor
  · exact UInt32.toNat_ofNat_of_lt' (by simp only [UInt32.size]; omega)
  · exact UInt32.toNat_ofNat_of_lt' (by simp only [UInt32.size]; omega)

theorem fits_slot : (slot k item).Fits := by
  obtain ⟨column, row⟩ := toNat_slot inside item
  simp only [Placement.Fits, OnGrid, ← UInt32.toNat_inj, toNat_mod_two, UInt32.toNat_zero, column,
    row, width, height]
  omega

theorem covers_slot_iff {x y : UInt32} (onGrid : OnGrid x y) :
    (slot k item).Covers x y ↔ k = x.toNat / 2 + 112 * (y.toNat / 2) := by
  obtain ⟨column, row⟩ := toNat_slot inside item
  obtain ⟨hx, hy⟩ := onGrid
  simp only [Placement.Covers, ← UInt32.toNat_inj, toNat_corner, column, row, width, height] at *
  omega

end

theorem fits_raster {first : Nat} {items : List Cell} (inside : first + items.length ≤ 10752) :
    ∀ p ∈ raster first items, p.Fits := by
  induction items generalizing first with
  | nil => exact fun _ mem => absurd mem List.not_mem_nil
  | cons item rest ih =>
    rw [List.length_cons] at inside
    exact List.forall_mem_cons.mpr ⟨fits_slot (by omega) item, ih (by omega)⟩

theorem lastOn_raster {x y : UInt32} (onGrid : OnGrid x y) {first : Nat} {items : List Cell}
    (inside : first + items.length ≤ 10752) :
    let k := x.toNat / 2 + 112 * (y.toNat / 2)
    lastOn (raster first items) x y = if first ≤ k then items[k - first]? else none := by
  intro k
  induction items generalizing first with
  | nil => simp [raster, lastOn]
  | cons item rest ih =>
    rw [List.length_cons] at inside
    rw [raster, lastOn_cons, ih (by omega)]
    simp only [covers_slot_iff (by omega : first < 10752) item onGrid]
    -- The slot is one of the rest, or the one of the first item, or in front of them all.
    rcases Nat.lt_trichotomy first k with before | here | after
    · rw [if_pos (by omega), if_neg (by omega), if_pos (by omega), Option.or_none,
        show k - first = (k - (first + 1)) + 1 by omega, List.getElem?_cons_succ]
    · rw [if_neg (by omega), if_pos here, if_pos (by omega), show k - first = 0 by omega]
      rfl
    · rw [if_neg (by omega), if_neg (by omega), if_neg (by omega)]
      rfl

theorem get_raster (layer : Layer) {items : List Cell} (inside : items.length ≤ 10752)
    {x y : UInt32} (onGrid : OnGrid x y) :
    (layer.placeAll (raster 0 items)).get x y =
      match items[x.toNat / 2 + 112 * (y.toNat / 2)]? with
      | some item => .ok (item.part (x % 2).toUInt8 (y % 2).toUInt8)
      | none => layer.get x y := by
  have fit : 0 + items.length ≤ 10752 := by rwa [Nat.zero_add]
  have shown := get_placeAll layer (fits_raster fit) x y
  rw [lastOn_raster onGrid fit, if_pos (Nat.zero_le _), Nat.sub_zero] at shown
  exact shown

theorem get_raster_slot (layer : Layer) {items : List Cell} (inside : items.length ≤ 10752)
    {k : Nat} (listed : k < items.length) :
    (layer.placeAll (raster 0 items)).get (UInt32.ofNat (2 * (k % 112)))
      (UInt32.ofNat (2 * (k / 112))) = .ok items[k] := by
  have room : k < 10752 := Nat.lt_of_lt_of_le listed inside
  obtain ⟨evenX, evenY, onGrid⟩ := fits_slot room items[k]
  obtain ⟨column, row⟩ := toNat_slot room items[k]
  have number : (slot k items[k]).x.toNat / 2 + 112 * ((slot k items[k]).y.toNat / 2) = k := by
    omega
  have shown := layer.get_raster inside onGrid
  rw [number, List.getElem?_eq_getElem listed, evenX, evenY] at shown
  exact shown

end IslandLayer.Layer
