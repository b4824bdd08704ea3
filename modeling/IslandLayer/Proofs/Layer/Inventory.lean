import IslandLayer.Layer.Basic
import IslandLayer.Proofs.Cell
import IslandLayer.Proofs.Layer.Blocks
import IslandLayer.Proofs.Layer.Columns
import Mathlib.Data.List.Basic

set_option autoImplicit false

namespace IslandLayer

/-- Only the anchor of a block can count as placed, and it shows the item itself. -/
theorem Cell.part_of_isPlaced {item : Cell} {dx dy : UInt8} (placed : (item.part dx dy).isPlaced) :
    item.part dx dy = item := by
  unfold part at placed ⊢
  split
  · rfl
  · next beside =>
    simp [beside] at placed

namespace Layer

/-- Every even square of the grid has its own continuations on the three squares beside it. -/
def BlockConsistent (layer : Layer) : Prop :=
  ∀ x y : UInt32, x % 2 = 0 → y % 2 = 0 → OnGrid x y → ∀ a, layer.get x y = .ok a →
    layer.get (x + 1) y = .ok (a.extension 1 0) ∧
    layer.get x (y + 1) = .ok (a.extension 0 1) ∧
    layer.get (x + 1) (y + 1) = .ok (a.extension 1 1)

/-- The even squares of the grid, column after column. -/
def evenSquares : List (UInt32 × UInt32) :=
  (List.range (width / 2)).flatMap fun i =>
    (List.range (height / 2)).map fun j => (UInt32.ofNat (2 * i), UInt32.ofNat (2 * j))

/-- The words of the even squares that are neither free nor continue a neighbour. -/
def anchors (layer : Layer) : List Cell :=
  (evenSquares.filterMap fun (x, y) => (layer.get x y).toOption).filter fun cell =>
    cell.itemId ≠ Cell.emptyId ∧ cell.itemId ≠ Cell.extensionId

theorem corner_of_even {n : UInt32} (even : n % 2 = 0) : corner n = n := by
  simp [corner, even]

theorem corner_mod_two (n : UInt32) : corner n % 2 = 0 := by
  simp only [← UInt32.toNat_inj, toNat_mod_two, toNat_corner, UInt32.toNat_zero]
  omega

theorem corner_add_mod_two (n : UInt32) : corner n + n % 2 = n := UInt32.sub_add_cancel n (n % 2)

theorem corner_add_one {n : UInt32} (even : n % 2 = 0) : corner (n + 1) = n := by
  have bound := n.toNat_lt
  simp only [← UInt32.toNat_inj, toNat_mod_two, toNat_corner, UInt32.toNat_add, UInt32.toNat_one,
    UInt32.toNat_zero] at even ⊢
  omega

theorem add_one_mod_two {n : UInt32} (even : n % 2 = 0) : (n + 1) % 2 = 1 := by
  simp only [← UInt32.toNat_inj, toNat_mod_two, UInt32.toNat_add, UInt32.toNat_one,
    UInt32.toNat_zero] at even ⊢
  omega

theorem get_of_onGrid (layer : Layer) {x y : UInt32} (onGrid : OnGrid x y) :
    ∃ cell, layer.get x y = .ok cell := ⟨_, dif_pos onGrid⟩

theorem onGrid_of_get {layer : Layer} {x y : UInt32} {cell : Cell}
    (found : layer.get x y = .ok cell) : OnGrid x y := by
  by_cases here : OnGrid x y
  · exact here
  · rw [get_of_not_onGrid layer here] at found
    cases found

/-- The same condition said of every square: it shows its part of what stands on its corner. -/
theorem blockConsistent_iff (layer : Layer) :
    layer.BlockConsistent ↔ ∀ x y a, layer.get (corner x) (corner y) = .ok a →
      layer.get x y = .ok (a.part (x % 2).toUInt8 (y % 2).toUInt8) := by
  constructor
  · intro consistent x y a found
    obtain ⟨right, below, across⟩ := consistent (corner x) (corner y) (corner_mod_two x)
      (corner_mod_two y) (onGrid_of_get found) a found
    have column := corner_add_mod_two x
    have row := corner_add_mod_two y
    rcases mod_two_cases x with hx | hx <;> rcases mod_two_cases y with hy | hy <;>
      rw [hx] at column ⊢ <;> rw [hy] at row ⊢
    · rw [UInt32.add_zero] at column row
      rwa [column, row] at found
    · rw [UInt32.add_zero] at column
      rwa [column, row] at below
    · rw [UInt32.add_zero] at row
      rwa [column, row] at right
    · rwa [column, row] at across
  · intro parts x y evenX evenY onGrid a found
    have column := corner_of_even evenX
    have row := corner_of_even evenY
    have right := parts (x + 1) y a
    have below := parts x (y + 1) a
    have across := parts (x + 1) (y + 1) a
    simp only [corner_add_one, corner_of_even, add_one_mod_two, evenX, evenY, found,
      true_imp_iff] at right below across
    exact ⟨right, below, across⟩

theorem get_empty {x y : UInt32} (onGrid : OnGrid x y) : empty.get x y = .ok Cell.empty := by
  simp [get, onGrid, empty]

theorem blockConsistent_empty : empty.BlockConsistent := by
  rw [blockConsistent_iff]
  intro x y a found
  have onGrid := onGrid_of_get found
  rw [get_empty onGrid] at found
  cases found
  rw [get_empty (by simpa using onGrid), Cell.part,
    Cell.extension_of_empty _ _ (by decide), ite_self]

/-- A block that is laid is whole, and one that is not laid stays as it was. -/
theorem BlockConsistent.placeAll {layer : Layer} (consistent : layer.BlockConsistent)
    {ps : List Placement} (fit : ∀ p ∈ ps, p.Fits) : (layer.placeAll ps).BlockConsistent := by
  rw [blockConsistent_iff] at consistent ⊢
  intro x y a found
  rw [get_placeAll _ fit, lastOn_corner, corner_mod_two, corner_mod_two] at found
  rw [get_placeAll _ fit]
  cases last : lastOn ps x y with
  | none =>
    rw [last] at found
    exact consistent x y a found
  | some cell =>
    rw [last] at found
    cases found
    rfl

/-- Of a block only the corner can count as placed. -/
theorem BlockConsistent.even_of_isPlaced {layer : Layer} (consistent : layer.BlockConsistent)
    {x y : UInt32} {cell : Cell} (found : layer.get x y = .ok cell) (placed : cell.isPlaced) :
    x % 2 = 0 ∧ y % 2 = 0 := by
  rw [blockConsistent_iff] at consistent
  have onGrid := (onGrid_corner_iff x y).mpr (onGrid_of_get found)
  obtain ⟨a, corner⟩ := layer.get_of_onGrid onGrid
  have shown := consistent x y a corner
  rw [found, Except.ok.injEq] at shown
  by_cases even : x = Layer.corner x ∧ y = Layer.corner y
  · exact ⟨even.1 ▸ corner_mod_two x, even.2 ▸ corner_mod_two y⟩
  · have beside : ¬ ((x % 2).toUInt8 = 0 ∧ (y % 2).toUInt8 = 0) := by
      rwa [← eq_corner_iff, ← eq_corner_iff]
    simp [shown, Cell.part, beside] at placed

theorem flatMap_range_even {α : Type} (f : Nat → List α) (n : Nat)
    (odd : ∀ i < n, f (2 * i + 1) = []) :
    (List.range (2 * n)).flatMap f = (List.range n).flatMap fun i => f (2 * i) := by
  induction n with
  | zero => rfl
  | succ n ih =>
    have before : ∀ i < n, f (2 * i + 1) = [] := fun i small => odd i (by omega)
    rw [show 2 * (n + 1) = 2 * n + 1 + 1 by omega, List.range_succ, List.range_succ,
      List.range_succ, List.flatMap_append, List.flatMap_append, List.flatMap_append, ih before]
    simp [odd n (by omega)]

theorem words_evenSquares (layer : Layer) :
    (evenSquares.filterMap fun (x, y) => (layer.get x y).toOption) =
      (List.range (width / 2)).flatMap fun i =>
        (List.range (height / 2)).map fun j => layer.word (2 * i) (2 * j) := by
  rw [evenSquares, List.filterMap_flatMap]
  apply List.flatMap_congr
  intro i column
  rw [List.filterMap_map, ← List.filterMap_eq_map]
  apply List.filterMap_congr
  intro j row
  have found : layer.get (UInt32.ofNat (2 * i)) (UInt32.ofNat (2 * j)) =
      .ok (layer.word (2 * i) (2 * j)) := by
    apply get_ofNat layer
    · simp only [List.mem_range, width] at column ⊢
      omega
    · simp only [List.mem_range, height] at row ⊢
      omega
  simp only [Function.comp, found]
  rfl

theorem not_isPlaced_word {layer : Layer} (consistent : layer.BlockConsistent) {i j : Nat}
    (hi : i < width) (hj : j < height) (odd : i % 2 = 1 ∨ j % 2 = 1) :
    (layer.word i j).isPlaced = false := by
  cases placed : (layer.word i j).isPlaced with
  | false => rfl
  | true =>
    -- Of a block only the corner can count as placed.
    have even := consistent.even_of_isPlaced (layer.get_ofNat hi hj) placed
    simp only [← UInt32.toNat_inj, toNat_mod_two, UInt32.toNat_zero,
      UInt32.toNat_ofNat_of_lt' (Nat.lt_trans hi (by decide)),
      UInt32.toNat_ofNat_of_lt' (Nat.lt_trans hj (by decide))] at even
    omega

theorem filter_map_range_even {α : Type} (p : α → Bool) (f : Nat → α) (n : Nat)
    (odd : ∀ i < n, p (f (2 * i + 1)) = false) :
    ((List.range (2 * n)).map f).filter p = ((List.range n).map fun i => f (2 * i)).filter p := by
  simp only [List.map_eq_flatMap, List.filter_flatMap]
  apply flatMap_range_even
  intro i small
  rw [List.filter_singleton, odd i small]
  rfl

theorem mem_items_iff (layer : Layer) (cell : Cell) :
    cell ∈ layer.items true ↔ cell.isPlaced ∧ ∃ x y, layer.get x y = .ok cell := by
  rw [items_true, List.mem_filter, mem_cells_iff, and_comm]

theorem items_empty : empty.items true = [] := by
  rw [List.eq_nil_iff_forall_not_mem]
  intro cell mem
  obtain ⟨placed, x, y, found⟩ := (mem_items_iff _ _).mp mem
  rw [get_empty (onGrid_of_get found)] at found
  cases found
  simp at placed

theorem mem_items_placeAll {layer : Layer} {ps : List Placement} (fit : ∀ p ∈ ps, p.Fits)
    {cell : Cell} (mem : cell ∈ (layer.placeAll ps).items true) :
    cell ∈ layer.items true ∨ ∃ p ∈ ps, p.cell = cell := by
  obtain ⟨placed, x, y, found⟩ := (mem_items_iff _ _).mp mem
  rw [get_placeAll _ fit] at found
  cases last : lastOn ps x y with
  | none =>
    rw [last] at found
    exact Or.inl ((mem_items_iff _ _).mpr ⟨placed, x, y, found⟩)
  | some word =>
    rw [last] at found
    cases found
    obtain ⟨p, mem, -, written⟩ := exists_of_lastOn last
    exact Or.inr ⟨p, mem, written.trans (Cell.part_of_isPlaced placed).symm⟩

/-- The inventory of a layer of whole blocks lists exactly the anchors. -/
theorem BlockConsistent.items_eq_anchors {layer : Layer} (consistent : layer.BlockConsistent) :
    layer.items true = layer.anchors := by
  have columns : layer.items true = (List.range (2 * (width / 2))).flatMap fun i =>
      ((List.range (2 * (height / 2))).map fun j => layer.word i j).filter Cell.isPlaced := by
    rw [items_true, toList_cells, List.filter_flatMap]
    rfl
  have anchors : layer.anchors = (List.range (width / 2)).flatMap fun i =>
      ((List.range (height / 2)).map fun j => layer.word (2 * i) (2 * j)).filter
        Cell.isPlaced := by
    rw [Layer.anchors, words_evenSquares, List.filter_flatMap]
    simp only [← Cell.isPlaced_iff, Bool.decide_eq_true]
  rw [columns, anchors, flatMap_range_even]
  · apply List.flatMap_congr
    intro i column
    rw [List.mem_range] at column
    apply filter_map_range_even
    intro j row
    apply not_isPlaced_word consistent
    · simp only [width] at *; omega
    · simp only [height] at *; omega
    · omega
  · intro i column
    rw [List.filter_eq_nil_iff]
    intro cell mem
    obtain ⟨j, row, rfl⟩ := List.mem_map.mp mem
    rw [List.mem_range] at row
    rw [not_isPlaced_word consistent (by simp only [width] at *; omega)
      (by simp only [height] at *; omega) (by omega)]
    exact Bool.false_ne_true

theorem length_evenSquares : evenSquares.length = 10752 := by
  simp [evenSquares, width, height]

/-- A layer of whole blocks has room for no more items than it has blocks. -/
theorem BlockConsistent.length_items_le {layer : Layer} (consistent : layer.BlockConsistent) :
    (layer.items true).length ≤ 10752 := by
  rw [consistent.items_eq_anchors, ← length_evenSquares]
  exact Nat.le_trans (List.length_filter_le _ _) (List.length_filterMap_le _ _)

end Layer

end IslandLayer
