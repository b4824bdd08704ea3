import IslandLayer.Layer.Basic
import Mathlib.Data.List.Basic

set_option autoImplicit false

namespace IslandLayer.Layer

theorem range_mul (a b : Nat) :
    List.range (a * b) = (List.range a).flatMap fun i => (List.range b).map fun j => i * b + j := by
  induction a with
  | zero => simp
  | succ a ih =>
    rw [Nat.succ_mul, List.range_add, ih, List.range_succ, List.flatMap_append,
      List.flatMap_singleton]

/-- The word in row `j` of column `i`. -/
def word (layer : Layer) (i j : Nat) : Cell := layer.cells.toList.getD (i * height + j) 0

theorem toList_cells (layer : Layer) :
    layer.cells.toList =
      (List.range width).flatMap fun i => (List.range height).map fun j => layer.word i j := by
  have stored : layer.cells.toList =
      (List.range total).map fun k => layer.cells.toList.getD k 0 := by
    apply List.ext_getElem
    · simp
    · intro k inside _
      rw [List.getElem_map, List.getElem_range, List.getD_eq_getElem?_getD,
        List.getElem?_eq_getElem inside, Option.getD_some]
  have columns : List.range total = _ := range_mul width height
  rw [stored, columns, List.map_flatMap]
  simp only [List.map_map]
  rfl

theorem get_ofNat (layer : Layer) {i j : Nat} (hi : i < width) (hj : j < height) :
    layer.get (UInt32.ofNat i) (UInt32.ofNat j) = .ok (layer.word i j) := by
  have column : (UInt32.ofNat i).toNat = i :=
    UInt32.toNat_ofNat_of_lt' (Nat.lt_trans hi (by decide))
  have row : (UInt32.ofNat j).toNat = j := UInt32.toNat_ofNat_of_lt' (Nat.lt_trans hj (by decide))
  have onGrid : OnGrid (UInt32.ofNat i) (UInt32.ofNat j) := by
    rw [OnGrid, column, row]
    exact ⟨hi, hj⟩
  have inside : i * height + j < total := by
    simp only [total, width, height] at *
    omega
  simp [get, onGrid, word, index, column, row, inside]

theorem mem_cells_iff (layer : Layer) (cell : Cell) :
    cell ∈ layer.cells.toList ↔ ∃ x y, layer.get x y = .ok cell := by
  constructor
  · intro mem
    rw [toList_cells] at mem
    obtain ⟨i, column, inside⟩ := List.mem_flatMap.mp mem
    obtain ⟨j, row, rfl⟩ := List.mem_map.mp inside
    exact ⟨_, _, layer.get_ofNat (List.mem_range.mp column) (List.mem_range.mp row)⟩
  · rintro ⟨x, y, found⟩
    unfold get at found
    split at found
    · cases found
      exact Vector.mem_toList_iff.mpr (Vector.getElem_mem _)
    · cases found

/-- A layer holds nothing but what its squares show. -/
theorem ext_get {layer layer' : Layer} (same : ∀ x y, layer.get x y = layer'.get x y) :
    layer = layer' := by
  have words : ∀ i < width, ∀ j < height, layer.word i j = layer'.word i j := by
    intro i hi j hj
    have shown := same (UInt32.ofNat i) (UInt32.ofNat j)
    rwa [get_ofNat layer hi hj, get_ofNat layer' hi hj, Except.ok.injEq] at shown
  have stored : layer.cells.toList = layer'.cells.toList := by
    rw [toList_cells, toList_cells]
    apply List.flatMap_congr
    intro i column
    apply List.map_congr_left
    intro j row
    exact words i (List.mem_range.mp column) j (List.mem_range.mp row)
  exact Layer.ext (Vector.toList_inj.mp stored)

end IslandLayer.Layer
