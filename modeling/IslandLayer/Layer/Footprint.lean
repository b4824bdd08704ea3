import IslandLayer.Layer.Basic

set_option autoImplicit false

namespace IslandLayer

/-- A rectangle of squares with its anchor at the corner of least coordinates. -/
structure Footprint where
  x : UInt32
  y : UInt32
  width : UInt8
  height : UInt8
  deriving Repr, DecidableEq

namespace Footprint

/-- The distances from the anchor to the other squares, column after column. -/
def offsets (width height : UInt8) : List (UInt8 × UInt8) :=
  ((List.range width.toNat).flatMap fun dx =>
    (List.range height.toNat).map fun dy => (UInt8.ofNat dx, UInt8.ofNat dy)).filter (· ≠ (0, 0))

/-- The words that lay `item` on the footprint, the anchor's own last. -/
def writes (f : Footprint) (item : Cell) : List Write :=
  (offsets f.width f.height).map (fun (dx, dy) =>
    ⟨Saturating.add f.x dx.toUInt32, Saturating.add f.y dy.toUInt32, item.extension dx dy⟩) ++
  [⟨f.x, f.y, item⟩]

def Aligned (f : Footprint) : Prop := f.x % 2 = 0 ∧ f.y % 2 = 0

instance (f : Footprint) : Decidable f.Aligned := inferInstanceAs (Decidable (_ ∧ _))

/-- Why nothing can be laid on the footprint: its anchor is not on the even squares, or some
square, the first in the order of writing, is off the grid. -/
def refusal? (f : Footprint) : Option LayerError :=
  if f.Aligned then
    ((f.writes Cell.empty).find? fun w => ¬ Layer.OnGrid w.x w.y).map fun w =>
      .outOfBounds w.x w.y
  else some (.unaligned f.x f.y)

end Footprint

namespace Layer

def lay (layer : Layer) (f : Footprint) (item : Cell) : Layer := (f.writes item).foldl write layer

def setFootprint (layer : Layer) (f : Footprint) (item : Cell) : Except LayerError Layer :=
  match f.refusal? with
  | some error => .error error
  | none => .ok (layer.lay f item)

end Layer

/-- An item with the two by two squares that every item of a script takes. -/
structure Placement where
  x : UInt32
  y : UInt32
  cell : Cell
  deriving Repr, DecidableEq

namespace Placement

def footprint (p : Placement) : Footprint := ⟨p.x, p.y, 2, 2⟩

end Placement

namespace Layer

def place (layer : Layer) (p : Placement) : Layer := layer.lay p.footprint p.cell

def placeAll (layer : Layer) (ps : List Placement) : Layer := ps.foldl place layer

/-- Places an item at an even coordinate whose two by two squares are on the grid. -/
def set (layer : Layer) (x y : UInt32) (item : Cell) : Except LayerError Layer :=
  layer.setFootprint (Placement.footprint ⟨x, y, item⟩) item

theorem set_eq_ok_iff (layer : Layer) (p : Placement) (after : Layer) :
    layer.set p.x p.y p.cell = .ok after ↔ p.footprint.refusal? = none ∧ layer.place p = after := by
  unfold set setFootprint
  split <;> simp_all [place]

@[simp] theorem placeAll_append (layer : Layer) (ps qs : List Placement) :
    layer.placeAll (ps ++ qs) = (layer.placeAll ps).placeAll qs := List.foldl_append

end Layer

end IslandLayer
