import IslandLayer.Proofs.Cell
import IslandLayer.Proofs.Layer.Columns
import IslandLayer.Proofs.Layer.Footprint

set_option autoImplicit false

namespace IslandLayer

namespace Cell

/-- The id of the item that a word beside an anchor continues. -/
def continuedId (cell : Cell) : UInt16 := (cell >>> 32).toUInt16

/-- How many columns such a word lies from its anchor. -/
def columnsBack (cell : Cell) : UInt8 := (cell >>> 48).toUInt8

/-- How many rows such a word lies from its anchor. -/
def rowsBack (cell : Cell) : UInt8 := (cell >>> 56).toUInt8

section

variable {item : Cell} (kept : item.itemId ≠ emptyId) (dx dy : UInt8)

include kept

theorem continuedId_extension : (item.extension dx dy).continuedId = item.itemId := by
  rw [extension, if_neg kept]
  apply UInt16.eq_of_toBitVec_eq
  ext i bound
  have inside : 32 + i < 48 ∧ 32 + i < 56 ∧ 32 + i < 64 ∧ ¬ 32 + i < 32 := by omega
  have mark : extensionId.toBitVec.getLsbD (32 + i) = false :=
    BitVec.getLsbD_of_ge _ _ (by omega)
  simp [continuedId, inside, mark, bound, Nat.lt_trans bound, BitVec.getLsbD_eq_getElem]

theorem columnsBack_extension : (item.extension dx dy).columnsBack = dx := by
  rw [extension, if_neg kept]
  apply UInt8.eq_of_toBitVec_eq
  ext i bound
  have inside : 48 + i < 56 ∧ 48 + i < 64 ∧ ¬ 48 + i < 48 := by omega
  have id : item.itemId.toBitVec.getLsbD (48 + i - 32) = false :=
    BitVec.getLsbD_of_ge _ _ (by omega)
  have mark : extensionId.toBitVec.getLsbD (48 + i) = false :=
    BitVec.getLsbD_of_ge _ _ (by omega)
  simp [columnsBack, inside, id, mark, bound, Nat.lt_trans bound, BitVec.getLsbD_eq_getElem]

theorem rowsBack_extension : (item.extension dx dy).rowsBack = dy := by
  rw [extension, if_neg kept]
  apply UInt8.eq_of_toBitVec_eq
  ext i bound
  have inside : 56 + i < 64 ∧ ¬ 56 + i < 56 := by omega
  have column : dx.toBitVec.getLsbD (56 + i - 48) = false :=
    BitVec.getLsbD_of_ge _ _ (by omega)
  have id : item.itemId.toBitVec.getLsbD (56 + i - 32) = false :=
    BitVec.getLsbD_of_ge _ _ (by omega)
  have mark : extensionId.toBitVec.getLsbD (56 + i) = false :=
    BitVec.getLsbD_of_ge _ _ (by omega)
  simp [rowsBack, inside, column, id, mark, bound, Nat.lt_trans bound, BitVec.getLsbD_eq_getElem]

end

end Cell

namespace Footprint

/-- What a layer shows after an item is laid on a footprint of it. -/
structure Laid (f : Footprint) (item : Cell) (before after : Layer) : Prop where
  anchor : after.get f.x f.y = .ok item
  beside : ∀ dx dy, (dx, dy) ≠ (0, 0) → dx < f.width → dy < f.height →
    after.get (f.x + dx.toUInt32) (f.y + dy.toUInt32) = .ok (item.extension dx dy)
  frame : ∀ x y, ¬ f.Covers x y → after.get x y = before.get x y
  pointing : item.itemId ≠ Cell.emptyId → ∀ x y, f.Covers x y → ¬ (x = f.x ∧ y = f.y) →
    ∃ cell, after.get x y = .ok cell ∧ cell.itemId = Cell.extensionId ∧
      cell.continuedId = item.itemId ∧ x - cell.columnsBack.toUInt32 = f.x ∧
      y - cell.rowsBack.toUInt32 = f.y

section

variable {f : Footprint} (fits : f.Fits)

include fits

theorem Fits.covers_cases {x y : UInt32} (covers : f.Covers x y) :
    x = f.x ∧ y = f.y ∨ ∃ dx dy, (dx, dy) ≠ (0, 0) ∧ dx < f.width ∧ dy < f.height ∧
      x = f.x + dx.toUInt32 ∧ y = f.y + dy.toUInt32 := by
  obtain ⟨d, has, square⟩ := covers
  have sums := (fits.eq_add has x y).mp square
  by_cases anchor : d = (0, 0)
  · subst anchor
    simpa using Or.inl sums
  · obtain ⟨dx, dy⟩ := has.resolve_left anchor
    exact Or.inr ⟨d.1, d.2, anchor, dx, dy, sums⟩

variable (layer : Layer) (item : Cell)

theorem Fits.get_lay_beside {dx dy : UInt8} (beside : (dx, dy) ≠ (0, 0)) (inWidth : dx < f.width)
    (inHeight : dy < f.height) :
    (layer.lay f item).get (f.x + dx.toUInt32) (f.y + dy.toUInt32) =
      .ok (item.extension dx dy) := by
  have has : f.Has (dx, dy) := Or.inr ⟨inWidth, inHeight⟩
  have apart : ¬ (dx = 0 ∧ dy = 0) := fun anchor => beside (Prod.ext anchor.1 anchor.2)
  obtain ⟨columns, rows⟩ := (fits.eq_add has _ _).mpr ⟨rfl, rfl⟩
  rw [fits.get_lay layer item has columns rows, Cell.part, if_neg apart]

theorem Fits.laid_lay : f.Laid item layer (layer.lay f item) where
  anchor := fits.get_lay layer item (d := (0, 0)) (Or.inl rfl) rfl rfl
  beside _ _ := fits.get_lay_beside layer item
  frame _ _ := fits.get_lay_of_not_covers layer item
  pointing kept x y covers apart := by
    obtain ⟨dx, dy, beside, inWidth, inHeight, rfl, rfl⟩ :=
      (fits.covers_cases covers).resolve_left apart
    refine ⟨_, fits.get_lay_beside layer item beside inWidth inHeight,
      Cell.itemId_extension dx dy kept, Cell.continuedId_extension kept dx dy, ?_, ?_⟩
    · rw [Cell.columnsBack_extension kept, UInt32.add_sub_cancel]
    · rw [Cell.rowsBack_extension kept, UInt32.add_sub_cancel]

/-- Nothing is left open about a layer that an item is laid on. -/
theorem Laid.eq_lay {after : Layer} (laid : f.Laid item layer after) :
    after = layer.lay f item := by
  have other := fits.laid_lay layer item
  refine Layer.ext_get fun x y => ?_
  by_cases covers : f.Covers x y
  · rcases fits.covers_cases covers with ⟨rfl, rfl⟩ | ⟨dx, dy, beside, inWidth, inHeight, rfl, rfl⟩
    · rw [laid.anchor, other.anchor]
    · rw [laid.beside dx dy beside inWidth inHeight, other.beside dx dy beside inWidth inHeight]
  · rw [laid.frame x y covers, other.frame x y covers]

end

end Footprint

/-- A program that works on a layer in place. If it fails, what it has done to the layer stays. -/
abbrev Laying := ExceptT LayerError (StateM Layer)

namespace Laying

/-- Makes sure that a word has a square to be written to. -/
def locate (w : Write) : Laying Unit :=
  if Layer.OnGrid w.x w.y then pure () else throw (.outOfBounds w.x w.y)

/-- Locates every square of the footprint, and then writes them in the same order. -/
def lay (f : Footprint) (item : Cell) : Laying Unit :=
  if f.Aligned then do
    (f.writes item).forM locate
    (f.writes item).forM fun w => modify (·.write w)
  else throw (.unaligned f.x f.y)

section

variable {first next : Laying Unit} {layer after : Layer}

theorem run_bind_of_ok (ran : first.run.run layer = (.ok (), after)) :
    (first >>= fun _ => next).run.run layer = next.run.run after := by
  rw [ExceptT.run_bind, StateT.run_bind, ran]
  rfl

theorem run_bind_of_error {e : LayerError} (ran : first.run.run layer = (.error e, after)) :
    (first >>= fun _ => next).run.run layer = (.error e, after) := by
  rw [ExceptT.run_bind, StateT.run_bind, ran]
  rfl

end

theorem run_locate_of_onGrid {w : Write} (onGrid : Layer.OnGrid w.x w.y) (layer : Layer) :
    (locate w).run.run layer = (.ok (), layer) := by
  rw [locate, if_pos onGrid]
  rfl

theorem run_locate_of_not_onGrid {w : Write} (off : ¬ Layer.OnGrid w.x w.y) (layer : Layer) :
    (locate w).run.run layer = (.error (.outOfBounds w.x w.y), layer) := by
  rw [locate, if_neg off]
  rfl

/-- Locating changes nothing, and stops at the first square off the grid. -/
theorem run_forM_locate (writes : List Write) (layer : Layer) :
    (writes.forM locate).run.run layer =
      ((writes.find? fun w => ¬ Layer.OnGrid w.x w.y).elim (.ok ()) fun w =>
        .error (.outOfBounds w.x w.y), layer) := by
  induction writes with
  | nil => rfl
  | cons w rest ih =>
    change (locate w >>= fun _ => rest.forM locate).run.run layer = _
    by_cases onGrid : Layer.OnGrid w.x w.y
    · rw [List.find?_cons_of_neg (by simpa using onGrid), ← ih]
      exact run_bind_of_ok (run_locate_of_onGrid onGrid layer)
    · rw [List.find?_cons_of_pos (by simpa using onGrid)]
      exact run_bind_of_error (run_locate_of_not_onGrid onGrid layer)

theorem run_forM_write (writes : List Write) (layer : Layer) :
    (writes.forM fun w => (modify (·.write w) : Laying Unit)).run.run layer =
      (.ok (), writes.foldl Layer.write layer) := by
  induction writes generalizing layer with
  | nil => rfl
  | cons w rest ih => exact ih (layer.write w)

/-- Nothing is written before everything is located, so a layer is changed as a whole or not at
all. -/
theorem run_lay (f : Footprint) (item : Cell) (layer : Layer) :
    (lay f item).run.run layer = ((layer.setFootprint f item).map fun _ => (),
      (layer.setFootprint f item).toOption.getD layer) := by
  by_cases aligned : f.Aligned
  · have located := run_forM_locate (f.writes item) layer
    rw [lay, if_pos aligned, Layer.setFootprint, Footprint.refusal?_of_aligned aligned item]
    cases found : (f.writes item).find? fun w => ¬ Layer.OnGrid w.x w.y with
    | some w =>
      rw [found] at located
      exact run_bind_of_error located
    | none =>
      rw [found] at located
      rw [run_bind_of_ok located, run_forM_write]
      rfl
  · rw [lay, if_neg aligned, Layer.setFootprint, Footprint.refusal?, if_neg aligned]
    rfl

end Laying

namespace Layer

theorem setFootprint_eq_ok_iff (layer : Layer) (f : Footprint) (item : Cell) (after : Layer) :
    layer.setFootprint f item = .ok after ↔ f.Fits ∧ layer.lay f item = after := by
  rw [setFootprint, ← f.refusal?_eq_none_iff]
  cases f.refusal? <;> simp

theorem setFootprint_eq_error_iff (layer : Layer) (f : Footprint) (item : Cell) (e : LayerError) :
    layer.setFootprint f item = .error e ↔ f.Refuses e := by
  rw [setFootprint, ← f.refusal?_eq_some_iff]
  cases f.refusal? <;> simp

/-- Laying an item succeeds exactly on the footprints that fit, and shows its words there and
nothing new anywhere else. On any other it names the first fault, and the layer stays as it is. -/
theorem setFootprint_exact (layer : Layer) (f : Footprint) (item : Cell) :
    ((∃ after, layer.setFootprint f item = .ok after) ↔ f.Fits) ∧
    (∀ after, layer.setFootprint f item = .ok after ↔ f.Fits ∧ f.Laid item layer after) ∧
    (∀ e, layer.setFootprint f item = .error e ↔ f.Refuses e) ∧
    (Laying.lay f item).run.run layer = ((layer.setFootprint f item).map fun _ => (),
      (layer.setFootprint f item).toOption.getD layer) := by
  refine ⟨?_, fun after => ?_, setFootprint_eq_error_iff layer f item, Laying.run_lay f item layer⟩
  · simp only [setFootprint_eq_ok_iff, exists_and_left, exists_eq', and_true]
  · rw [setFootprint_eq_ok_iff]
    refine and_congr_right fun fits => ⟨?_, fun laid => (laid.eq_lay fits layer item).symm⟩
    rintro rfl
    exact fits.laid_lay layer item

/-- A footprint of four columns, of which only two are on the grid. -/
example : Layer.empty.setFootprint ⟨222, 0, 4, 1⟩ 9 = .error (.outOfBounds 224 0) := rfl

end Layer

end IslandLayer
