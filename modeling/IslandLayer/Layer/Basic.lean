import IslandLayer.Cell

set_option autoImplicit false

namespace IslandLayer

namespace Saturating

def limit : Nat := UInt32.size - 1

/-- The word nearest to `n`. -/
def clip (n : Nat) : UInt32 := UInt32.ofNat (min n limit)

def add (a b : UInt32) : UInt32 := clip (a.toNat + b.toNat)

def mul (a b : UInt32) : UInt32 := clip (a.toNat * b.toNat)

@[simp] theorem toNat_clip (n : Nat) : (clip n).toNat = min n limit := by
  have bound : min n limit < UInt32.size :=
    Nat.lt_of_le_of_lt (Nat.min_le_right n limit) (by decide)
  exact UInt32.toNat_ofNat_of_lt bound

theorem clip_of_le {n : Nat} (small : n ≤ limit) : clip n = UInt32.ofNat n := by
  rw [clip, Nat.min_eq_left small]

@[simp] theorem toNat_add (a b : UInt32) : (add a b).toNat = min (a.toNat + b.toNat) limit :=
  toNat_clip _

@[simp] theorem add_zero (a : UInt32) : add a 0 = a := by
  have bound := a.toNat_lt
  apply UInt32.toNat_inj.mp
  rw [toNat_add]
  simp only [UInt32.toNat_zero, Nat.add_zero, limit, UInt32.size]
  omega

@[simp] theorem toNat_mul (a b : UInt32) : (mul a b).toNat = min (a.toNat * b.toNat) limit :=
  toNat_clip _

end Saturating

/-- Why a layer refuses an access, or a set of cells. -/
inductive LayerError where
  | outOfBounds (x y : UInt32)
  | unaligned (x y : UInt32)
  | cellCount (actual : Nat)
  deriving Repr, DecidableEq

namespace Layer

/-- Columns of an acre times acres in a row. -/
def width : Nat := 32 * 7

/-- Rows of an acre times acres in a column. -/
def height : Nat := 32 * 6

def total : Nat := width * height

def OnGrid (x y : UInt32) : Prop := x.toNat < width ∧ y.toNat < height

instance (x y : UInt32) : Decidable (OnGrid x y) := inferInstanceAs (Decidable (_ ∧ _))

def index (x y : UInt32) : Nat := x.toNat * height + y.toNat

theorem index_lt {x y : UInt32} (onGrid : OnGrid x y) : index x y < total := by
  obtain ⟨hx, hy⟩ := onGrid
  simp only [index, total, width, height] at *
  omega

theorem index_injective {x y x' y' : UInt32} (here : OnGrid x y) (there : OnGrid x' y')
    (same : index x y = index x' y') : x = x' ∧ y = y' := by
  obtain ⟨hx, hy⟩ := here
  obtain ⟨hx', hy'⟩ := there
  simp only [index, width, height, ← UInt32.toNat_inj] at *
  omega

end Layer

/-- All squares of the grid, in stored order. -/
@[ext] structure Layer where
  cells : Vector Cell Layer.total
  deriving DecidableEq

/-- A word for one square. -/
structure Write where
  x : UInt32
  y : UInt32
  cell : Cell
  deriving Repr, DecidableEq

namespace Layer

/-- Nothing placed anywhere. -/
def empty : Layer := ⟨Vector.replicate total Cell.empty⟩

/-- The layer of a full set of cells in stored order. -/
def ofCells (cells : Array Cell) : Except LayerError Layer :=
  if h : cells.size = total then .ok ⟨⟨cells, h⟩⟩ else .error (.cellCount cells.size)

def get (layer : Layer) (x y : UInt32) : Except LayerError Cell :=
  if onGrid : OnGrid x y then
    have inside : index x y < total := index_lt onGrid
    .ok layer.cells[index x y]
  else .error (.outOfBounds x y)

/-- Stores one word; outside the grid there is nothing to store it in. -/
def write (layer : Layer) (w : Write) : Layer :=
  if h : OnGrid w.x w.y then ⟨layer.cells.set (index w.x w.y) w.cell (index_lt h)⟩ else layer

@[simp] theorem get_write_self (layer : Layer) {w : Write} (onGrid : OnGrid w.x w.y) :
    (layer.write w).get w.x w.y = .ok w.cell := by
  simp [write, get, onGrid]

theorem get_write_of_ne (layer : Layer) (w : Write) {x y : UInt32}
    (apart : ¬ (x = w.x ∧ y = w.y)) : (layer.write w).get x y = layer.get x y := by
  by_cases target : OnGrid w.x w.y
  · by_cases here : OnGrid x y
    · have other : index w.x w.y ≠ index x y :=
        fun same => apart ((index_injective target here same).imp Eq.symm Eq.symm)
      simp [write, get, target, here, Vector.getElem_set_ne _ _ other]
    · simp [get, here]
  · simp [write, target]

theorem get_write (layer : Layer) (w : Write) (x y : UInt32) (onGrid : OnGrid x y) :
    (layer.write w).get x y = if x = w.x ∧ y = w.y then .ok w.cell else layer.get x y := by
  split
  · next here =>
    obtain ⟨rfl, rfl⟩ := here
    simp [onGrid]
  · next apart => exact get_write_of_ne layer w apart

/-- The words of the placed items. Without variants only the ids are kept. -/
def items (layer : Layer) (variants : Bool) : List Cell :=
  (layer.cells.toList.filter Cell.isPlaced).map fun cell =>
    if variants then cell else cell.itemId.toUInt64

def placedCount (layer : Layer) : Nat := layer.cells.toList.countP Cell.isPlaced

theorem items_true (layer : Layer) :
    layer.items true = layer.cells.toList.filter Cell.isPlaced := by
  simp [items]

@[simp] theorem length_items (layer : Layer) (variants : Bool) :
    (layer.items variants).length = layer.placedCount := by
  simp [items, placedCount, List.countP_eq_length_filter]

end Layer

namespace LayerError

def message : LayerError → String
  | outOfBounds x y => s!"coordinate ({x}, {y}) is outside the item layer"
  | unaligned x y => s!"cannot anchor an item at ({x}, {y}): coordinates must be even"
  | cellCount actual => s!"layer needs {Layer.total} cells, got {actual}"

end LayerError

end IslandLayer
