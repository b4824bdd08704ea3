import IslandLayer.Layer.Footprint
import IslandLayer.Layer.Basic
import IslandLayer.Proofs.Cell
import Mathlib.Data.List.Forall2

set_option autoImplicit false

namespace IslandLayer

structure Write.SameLower (w w' : Write) : Prop where
  x : w.x = w'.x
  y : w.y = w'.y
  cell : w.cell.toUInt32 = w'.cell.toUInt32

structure Placement.SameLower (p p' : Placement) : Prop where
  x : p.x = p'.x
  y : p.y = p'.y
  cell : p.cell.toUInt32 = p'.cell.toUInt32

theorem Placement.map_coordinates_eq {ps ps' : List Placement}
    (same : List.Forall₂ SameLower ps ps') :
    ps.map (fun p => (p.x, p.y)) = ps'.map (fun p => (p.x, p.y)) := by
  induction same with
  | nil => rfl
  | cons first _ ih => rw [List.map_cons, List.map_cons, first.x, first.y, ih]

namespace Layer

/-- Every square shows the same lower half on both layers. -/
def SameLower (layer layer' : Layer) : Prop :=
  layer.cells.map UInt64.toUInt32 = layer'.cells.map UInt64.toUInt32

theorem SameLower.write {layer layer' : Layer} (same : layer.SameLower layer') {w w' : Write}
    (words : w.SameLower w') : (layer.write w).SameLower (layer'.write w') := by
  obtain ⟨x, y, cell⟩ := w
  obtain ⟨x', y', cell'⟩ := w'
  obtain ⟨rfl, rfl, lower⟩ : x = x' ∧ y = y' ∧ cell.toUInt32 = cell'.toUInt32 :=
    ⟨words.x, words.y, words.cell⟩
  by_cases onGrid : OnGrid x y
  · simp only [SameLower] at same
    simp only [SameLower, Layer.write, onGrid, dif_pos, Vector.map_set, same, lower]
  · simpa only [Layer.write, onGrid, dif_neg, not_false_eq_true] using same

theorem writes_sameLower (f : Footprint) {cell cell' : Cell}
    (lower : cell.toUInt32 = cell'.toUInt32) :
    List.Forall₂ Write.SameLower (f.writes cell) (f.writes cell') := by
  apply List.rel_append
  · rw [List.forall₂_map_left_iff, List.forall₂_map_right_iff, List.forall₂_same]
    exact fun (dx, dy) _ => ⟨rfl, rfl, Cell.toUInt32_extension_congr lower dx dy⟩
  · exact .cons ⟨rfl, rfl, lower⟩ .nil

theorem SameLower.place {layer layer' : Layer} (same : layer.SameLower layer') {p p' : Placement}
    (items : p.SameLower p') : (layer.place p).SameLower (layer'.place p') := by
  have footprint : p.footprint = p'.footprint := by
    rw [Placement.footprint, Placement.footprint, items.x, items.y]
  rw [Layer.place, Layer.place, ← footprint]
  exact List.rel_foldl (fun _ _ layers _ _ words => layers.write words) same
    (writes_sameLower p.footprint items.cell)

theorem SameLower.placeAll {layer layer' : Layer} (same : layer.SameLower layer')
    {ps ps' : List Placement} (items : List.Forall₂ Placement.SameLower ps ps') :
    (layer.placeAll ps).SameLower (layer'.placeAll ps') :=
  List.rel_foldl (fun _ _ layers _ _ placed => layers.place placed) same items

theorem SameLower.forall₂ {layer layer' : Layer} (same : layer.SameLower layer') :
    List.Forall₂ (fun cell cell' : Cell => cell.toUInt32 = cell'.toUInt32)
      layer.cells.toList layer'.cells.toList := by
  have lists := congrArg Vector.toList same
  rw [Vector.toList_map, Vector.toList_map] at lists
  rw [← List.forall₂_eq_eq_eq, List.forall₂_map_left_iff, List.forall₂_map_right_iff] at lists
  exact lists

/-- The lower halves say which squares are placed, and with which id. -/
theorem SameLower.inventory {layer layer' : Layer} (same : layer.SameLower layer') :
    layer.placedCount = layer'.placedCount ∧ layer.items false = layer'.items false := by
  have ids : layer.items false = layer'.items false := by
    have cells := same.forall₂
    simp only [items, Bool.false_eq_true, if_false]
    generalize layer.cells.toList = words, layer'.cells.toList = words' at cells ⊢
    induction cells with
    | nil => rfl
    | @cons cell cell' _ _ first _ ih =>
      have placed := Cell.isPlaced_congr first
      by_cases here : cell'.isPlaced
      · rw [List.filter_cons_of_pos (placed.trans here), List.filter_cons_of_pos here, List.map_cons,
          List.map_cons, ih, Cell.itemId_congr first]
      · rwa [List.filter_cons_of_neg (placed ▸ here), List.filter_cons_of_neg here]
  refine ⟨?_, ids⟩
  rw [← layer.length_items false, ← layer'.length_items false, ids]

end Layer

end IslandLayer
