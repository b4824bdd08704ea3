import IslandLayer.Proofs.Layer.Footprint

set_option autoImplicit false

namespace IslandLayer

namespace Layer

/-- The even coordinate at or below `n`, where the block around it has its anchor. -/
def corner (n : UInt32) : UInt32 := n - n % 2

theorem toNat_mod_two (n : UInt32) : (n % 2).toNat = n.toNat % 2 := UInt32.toNat_mod n 2

theorem toNat_toUInt8_mod_two (n : UInt32) : (n % 2).toUInt8.toNat = n.toNat % 2 := by
  rw [UInt32.toNat_toUInt8, toNat_mod_two]
  omega

theorem mod_two_cases (n : UInt32) : n % 2 = 0 ∨ n % 2 = 1 := by
  simp only [← UInt32.toNat_inj, toNat_mod_two, UInt32.toNat_zero, UInt32.toNat_one]
  omega

theorem toNat_corner (n : UInt32) : (corner n).toNat = n.toNat - n.toNat % 2 := by
  have small : n % 2 ≤ n := by
    rw [UInt32.le_iff_toNat_le, toNat_mod_two]
    exact Nat.mod_le _ _
  rw [corner, UInt32.toNat_sub_of_le _ _ small, toNat_mod_two]

@[simp] theorem corner_corner (n : UInt32) : corner (corner n) = corner n := by
  simp only [← UInt32.toNat_inj, toNat_corner]
  omega

theorem eq_corner_iff (n : UInt32) : n = corner n ↔ (n % 2).toUInt8 = 0 := by
  simp only [← UInt32.toNat_inj, ← UInt8.toNat_inj, toNat_corner, toNat_toUInt8_mod_two,
    UInt8.toNat_zero]
  omega

/-- The sides of the grid are even, so no block reaches over its edge. -/
@[simp] theorem onGrid_corner_iff (x y : UInt32) : OnGrid (corner x) (corner y) ↔ OnGrid x y := by
  simp only [OnGrid, toNat_corner, width, height]
  omega

theorem get_of_not_onGrid (layer : Layer) {x y : UInt32} (off : ¬ OnGrid x y) :
    layer.get x y = .error (.outOfBounds x y) := dif_neg off

end Layer

namespace Placement

/-- The anchor is an even square of the grid. -/
def Fits (p : Placement) : Prop := p.x % 2 = 0 ∧ p.y % 2 = 0 ∧ Layer.OnGrid p.x p.y

/-- The square lies in the block anchored at the placement. -/
def Covers (p : Placement) (x y : UInt32) : Prop :=
  p.x = Layer.corner x ∧ p.y = Layer.corner y

instance (p : Placement) (x y : UInt32) : Decidable (p.Covers x y) :=
  inferInstanceAs (Decidable (_ ∧ _))

theorem fits_footprint_iff (p : Placement) : p.footprint.Fits ↔ p.Fits := by
  constructor
  · intro fits
    exact ⟨fits.aligned.1, fits.aligned.2, fits.onGrid⟩
  · rintro ⟨evenX, evenY, onGrid⟩
    refine ⟨⟨evenX, evenY⟩, onGrid, Or.inr (Or.inr ?_)⟩
    have two : (2 : UInt8).toNat = 2 := rfl
    simp only [← UInt32.toNat_inj, Layer.toNat_mod_two, UInt32.toNat_zero] at evenX evenY
    simp only [Layer.OnGrid, footprint, two, Layer.width, Layer.height] at onGrid ⊢
    omega

theorem refusal?_eq_none_iff (p : Placement) : p.footprint.refusal? = none ↔ p.Fits :=
  p.footprint.refusal?_eq_none_iff.trans p.fits_footprint_iff

/-- Which square of its block a square is shows in its own coordinates. -/
theorem square_of_covers {p : Placement} {x y : UInt32} (covers : p.Covers x y) :
    let d := ((x % 2).toUInt8, (y % 2).toUInt8)
    p.footprint.Has d ∧ x.toNat = p.footprint.column d ∧ y.toNat = p.footprint.row d := by
  have two : (2 : UInt8).toNat = 2 := rfl
  simp only [Covers, ← UInt32.toNat_inj, Layer.toNat_corner] at covers
  simp only [Footprint.Has, Footprint.column, Footprint.row, footprint, UInt8.lt_iff_toNat_lt, two,
    Layer.toNat_toUInt8_mod_two]
  omega

theorem Fits.covers_of_footprint {p : Placement} (fits : p.Fits) {x y : UInt32}
    (covers : p.footprint.Covers x y) : p.Covers x y := by
  obtain ⟨evenX, evenY, -⟩ := fits
  have two : (2 : UInt8).toNat = 2 := rfl
  obtain ⟨d, has, columns, rows⟩ := covers
  have near : d.1.toNat < 2 ∧ d.2.toNat < 2 := by
    rcases has with rfl | inside
    · decide
    · simpa only [footprint, UInt8.lt_iff_toNat_lt, two] using inside
  simp only [← UInt32.toNat_inj, Layer.toNat_mod_two, UInt32.toNat_zero] at evenX evenY
  simp only [Footprint.column, Footprint.row, footprint] at columns rows
  simp only [Covers, ← UInt32.toNat_inj, Layer.toNat_corner]
  omega

/-- Whether the anchor is even is asked before whether it is on the grid. -/
theorem refusal?_of_odd {p : Placement} (odd : ¬ (p.x % 2 = 0 ∧ p.y % 2 = 0)) :
    p.footprint.refusal? = some (.unaligned p.x p.y) := if_neg odd

/-- The square below the anchor is the first that is looked at, and it is off the grid if the
anchor is. -/
theorem refusal?_of_off_grid {p : Placement} (even : p.x % 2 = 0 ∧ p.y % 2 = 0)
    (off : ¬ Layer.OnGrid p.x p.y) :
    p.footprint.refusal? = some (.outOfBounds p.x (Saturating.add p.y 1)) := by
  have below : ¬ p.footprint.Inside (0, 1) := by
    have one : (1 : UInt8).toNat = 1 := rfl
    simp only [Layer.OnGrid, Footprint.Inside, Footprint.column, Footprint.row, footprint, one,
      UInt8.toNat_zero] at off ⊢
    omega
  have first (d : UInt8 × UInt8) : ¬ Footprint.Before d (0, 1) := by
    rintro ⟨other, anchor | earlier | ⟨same, above⟩⟩
    · exact absurd anchor (by decide)
    · exact absurd earlier UInt8.not_lt_zero
    · exact other (Prod.ext same (UInt8.lt_one_iff.mp above))
  have has : p.footprint.Has (0, 1) := Or.inr (show (0 : UInt8) < 2 ∧ (1 : UInt8) < 2 by decide)
  exact (p.footprint.refusal?_eq_some_iff _).mpr ⟨even, (0, 1), has, below,
    fun d _ before => absurd before (first d), (Footprint.clip_toNat p.x).symm, rfl⟩

end Placement

namespace Layer

/-- A placement writes its whole block and nothing else. -/
theorem get_place (layer : Layer) {p : Placement} (fits : p.Fits) (x y : UInt32) :
    (layer.place p).get x y =
      if p.Covers x y then .ok (p.cell.part (x % 2).toUInt8 (y % 2).toUInt8)
      else layer.get x y := by
  have laid := p.fits_footprint_iff.mpr fits
  by_cases covers : p.Covers x y
  · obtain ⟨has, columns, rows⟩ := Placement.square_of_covers covers
    rw [if_pos covers]
    exact laid.get_lay layer p.cell has columns rows
  · rw [if_neg covers]
    exact laid.get_lay_of_not_covers layer p.cell fun other =>
      covers (fits.covers_of_footprint other)

/-- The last word laid on the block that the square lies in. -/
def lastOn (ps : List Placement) (x y : UInt32) : Option Cell :=
  (ps.filter (·.Covers x y)).getLast?.map (·.cell)

theorem lastOn_cons (p : Placement) (rest : List Placement) (x y : UInt32) :
    lastOn (p :: rest) x y =
      (lastOn rest x y).or (if p.Covers x y then some p.cell else none) := by
  unfold lastOn
  by_cases covers : p.Covers x y
  · rw [List.filter_cons_of_pos (by simpa using covers), List.getLast?_cons, if_pos covers]
    cases (rest.filter (·.Covers x y)).getLast? <;> rfl
  · rw [List.filter_cons_of_neg (by simpa using covers), if_neg covers, Option.or_none]

theorem lastOn_eq_none_iff (ps : List Placement) (x y : UInt32) :
    lastOn ps x y = none ↔ ∀ p ∈ ps, ¬ p.Covers x y := by
  simp [lastOn]

theorem lastOn_corner (ps : List Placement) (x y : UInt32) :
    lastOn ps (corner x) (corner y) = lastOn ps x y := by
  have same (p : Placement) : p.Covers (corner x) (corner y) ↔ p.Covers x y := by
    simp [Placement.Covers]
  simp only [lastOn, same]

theorem exists_of_lastOn {ps : List Placement} {x y : UInt32} {cell : Cell}
    (last : lastOn ps x y = some cell) : ∃ p ∈ ps, p.Covers x y ∧ p.cell = cell := by
  unfold lastOn at last
  obtain ⟨p, found, rfl⟩ := Option.map_eq_some_iff.mp last
  obtain ⟨mem, covers⟩ := List.mem_filter.mp (List.mem_of_getLast? found)
  exact ⟨p, mem, by simpa using covers, rfl⟩

theorem exists_covers_of_lastOn {ps : List Placement} {x y : UInt32} {cell : Cell}
    (last : lastOn ps x y = some cell) : ∃ p ∈ ps, p.Covers x y := by
  obtain ⟨p, mem, covers, -⟩ := exists_of_lastOn last
  exact ⟨p, mem, covers⟩

/-- After any placements a block shows the last one made there, or what it held before them. -/
theorem get_placeAll (layer : Layer) {ps : List Placement} (fit : ∀ p ∈ ps, p.Fits)
    (x y : UInt32) :
    (layer.placeAll ps).get x y =
      match lastOn ps x y with
      | some cell => .ok (cell.part (x % 2).toUInt8 (y % 2).toUInt8)
      | none => layer.get x y := by
  induction ps generalizing layer with
  | nil => rfl
  | cons p rest ih =>
    have first := fit p (by simp)
    have others : ∀ q ∈ rest, q.Fits := fun q mem => fit q (List.mem_cons_of_mem _ mem)
    change ((layer.place p).placeAll rest).get x y = _
    rw [ih _ others, lastOn_cons, get_place layer first]
    cases lastOn rest x y with
    | some cell => rfl
    | none => by_cases covers : p.Covers x y <;> simp [covers]

theorem exists_cell_of_covers {ps : List Placement} (fit : ∀ p ∈ ps, p.Fits) {x y : UInt32}
    (covered : ∃ p ∈ ps, p.Covers x y) :
    ∃ cell, ∀ layer : Layer, (layer.placeAll ps).get x y = .ok cell := by
  cases last : lastOn ps x y with
  | none =>
    obtain ⟨p, mem, covers⟩ := covered
    exact absurd covers ((lastOn_eq_none_iff ps x y).mp last p mem)
  | some item =>
    refine ⟨item.part (x % 2).toUInt8 (y % 2).toUInt8, fun layer => ?_⟩
    rw [get_placeAll layer fit, last]

/-- A square that is not covered shows what it showed before. -/
theorem get_placeAll_of_apart (layer : Layer) {ps : List Placement} (fit : ∀ p ∈ ps, p.Fits)
    {x y : UInt32} (apart : ¬ ∃ p ∈ ps, p.Covers x y) :
    (layer.placeAll ps).get x y = layer.get x y := by
  have last : lastOn ps x y = none := by
    rw [lastOn_eq_none_iff]
    exact fun p mem covers => apart ⟨p, mem, covers⟩
  rw [get_placeAll layer fit, last]

/-- Every block shows what it showed before, or all of one item. -/
def WrittenInBlocks (before after : Layer) : Prop :=
  ∀ x y,
    (∀ i j, corner i = corner x → corner j = corner y → after.get i j = before.get i j) ∨
    ∃ item : Cell, ∀ i j, corner i = corner x → corner j = corner y →
      after.get i j = .ok (item.part (i % 2).toUInt8 (j % 2).toUInt8)

theorem writtenInBlocks_placeAll (layer : Layer) {ps : List Placement} (fit : ∀ p ∈ ps, p.Fits) :
    WrittenInBlocks layer (layer.placeAll ps) := by
  intro x y
  have same (i j : UInt32) (column : corner i = corner x) (row : corner j = corner y) :
      lastOn ps i j = lastOn ps x y := by
    rw [← lastOn_corner, column, row, lastOn_corner]
  cases last : lastOn ps x y with
  | none =>
    refine Or.inl fun i j column row => ?_
    rw [get_placeAll layer fit, same i j column row, last]
  | some item =>
    refine Or.inr ⟨item, fun i j column row => ?_⟩
    rw [get_placeAll layer fit, same i j column row, last]

/-- Placing everything once more shows nothing new: a block that is covered already shows the last
word for it, and any other block is left alone both times. -/
theorem get_placeAll_placeAll (layer : Layer) {ps : List Placement} (fit : ∀ p ∈ ps, p.Fits)
    (x y : UInt32) : ((layer.placeAll ps).placeAll ps).get x y = (layer.placeAll ps).get x y := by
  rw [get_placeAll _ fit, get_placeAll _ fit]
  cases lastOn ps x y <;> rfl

end Layer

end IslandLayer
