import IslandLayer.Proofs.Editor.Machine
import IslandLayer.Proofs.Pen.Placing

set_option autoImplicit false

namespace IslandLayer

open Script

/-- An editor with the placements that its layer has accepted, in order. It asks the layer each
time, where a pen decides without any layer what is placed. -/
structure Recorder extends Editor where
  taken : List Placement := []

namespace Recorder

/-- Places an item `count` times, or until the layer refuses. -/
def placeFrom (base : UInt16) (count : Nat) (cell : Cell) (r : Recorder) :
    Recorder × Except EditError Unit :=
  match count with
  | 0 => (r, .ok ())
  | count + 1 =>
    let cell := r.pen.next base cell
    let (x, y) := r.pen.context.cursor
    match r.layer.set x y cell with
    | .error e => ({ r with pen := { r.pen with last := some cell } }, .error (.layer e))
    | .ok layer =>
      placeFrom base count cell
        { r with
          layer
          pen := { r.pen with context := r.pen.context.advance, last := some cell }
          taken := r.taken ++ [⟨x, y, cell⟩] }

def drawItem (r : Recorder) (variant : Variant) (item : Item) : Recorder × Except EditError Unit :=
  match item.id? r.pen.context.modes.hex with
  | some id =>
    let pen := r.pen.announce variant
    placeFrom id.toUInt16 item.count.toNat
      (pen.pack r.sizes id (if item.stack = 0 then 0 else item.stack - 1))
      { r with pen := { pen with pending := none } }
  | none => (r, .error (.command (.item item.token)))

def apply (r : Recorder) (words : List String) : Recorder × Except EditError Unit :=
  match Command.read words with
  | .ok .empty => (r, .ok ())
  | .ok (.context context) => ({ r with pen := { context } }, .ok ())
  | .ok (.item item) => r.drawItem .absent item
  | .ok (.variantItem variant item) => r.drawItem variant item
  | .error cause => (r, .error (.command cause))

def reset (r : Recorder) : Recorder := { r with pen := {} }

def machine : Machine Recorder where
  reset := reset
  apply := apply

def run (sources : List Source) (r : Recorder) : Recorder × Except RunError Summary :=
  machine.run sources r

/-- The recorder once a pen has done what the stroke says. -/
def after (r : Recorder) (stroke : Stroke) : Recorder :=
  { r with
    layer := r.layer.placeAll stroke.placed
    pen := stroke.pen
    taken := r.taken ++ stroke.placed }

theorem set_of_refused (layer : Layer) {p : Placement} {e : LayerError}
    (refused : p.footprint.refusal? = some e) : layer.set p.x p.y p.cell = .error e := by
  change layer.setFootprint p.footprint p.cell = _
  rw [Layer.setFootprint, refused]

theorem set_of_accepted (layer : Layer) {p : Placement} (accepted : p.footprint.refusal? = none) :
    layer.set p.x p.y p.cell = .ok (layer.place p) :=
  (layer.set_eq_ok_iff p _).mpr ⟨accepted, rfl⟩

theorem placeFrom_of_error {r : Recorder} {base : UInt16} {cell : Cell} {e : LayerError}
    (refused : (r.pen.target base cell).footprint.refusal? = some e) (count : Nat) :
    r.placeFrom base (count + 1) cell =
      ({ r with pen := { r.pen with last := some (r.pen.next base cell) } },
        .error (.layer e)) := by
  have set := set_of_refused r.layer refused
  simp only [Pen.target] at set
  simp only [placeFrom, set]

theorem placeFrom_of_ok {r : Recorder} {base : UInt16} {cell : Cell}
    (accepted : (r.pen.target base cell).footprint.refusal? = none) (count : Nat) :
    r.placeFrom base (count + 1) cell =
      placeFrom base count (r.pen.next base cell)
        { r with
          layer := r.layer.place (r.pen.target base cell)
          pen := r.pen.moved (r.pen.next base cell)
          taken := r.taken ++ [r.pen.target base cell] } := by
  have set := set_of_accepted r.layer accepted
  simp only [Pen.target] at set
  simp only [placeFrom, set]
  rfl

/-- Asking the layer each time places what the pen places on its own. -/
theorem placeFrom_eq (base : UInt16) (count : Nat) (cell : Cell) (r : Recorder) :
    r.placeFrom base count cell =
      (r.after (Pen.placeFrom base count cell r.pen []),
        (Pen.placeFrom base count cell r.pen []).result) := by
  induction count generalizing cell r with
  | zero => simp [placeFrom, Pen.placeFrom, after, Layer.placeAll]
  | succ count ih =>
    cases answer : (r.pen.target base cell).footprint.refusal? with
    | some e =>
      rw [placeFrom_of_error answer, Pen.placeFrom_of_refused answer]
      simp [after, Layer.placeAll]
    | none =>
      rw [placeFrom_of_ok answer, Pen.placeFrom_of_accepted answer, ih]
      simp [after, Layer.placeAll]

theorem drawItem_eq (r : Recorder) (variant : Variant) (item : Item) :
    r.drawItem variant item =
      (r.after (r.pen.drawItem r.sizes variant item),
        (r.pen.drawItem r.sizes variant item).result) := by
  unfold drawItem Pen.drawItem
  cases item.id? r.pen.context.modes.hex with
  | some id => exact placeFrom_eq _ _ _ _
  | none => simp [after, Layer.placeAll]

theorem apply_eq (r : Recorder) (words : List String) :
    r.apply words =
      (r.after (r.pen.follow r.sizes words), (r.pen.follow r.sizes words).result) := by
  unfold apply Pen.follow
  split
  · next read => simp [read, Pen.draw, after, Layer.placeAll]
  · next read => simp [read, Pen.draw, after, Layer.placeAll]
  · next read => simpa [read, Pen.draw] using r.drawItem_eq _ _
  · next read => simpa [read, Pen.draw] using r.drawItem_eq _ _
  · next read => simp [read, after, Layer.placeAll]

theorem taken_apply (editor : Editor) (words : List String) :
    (apply { editor with taken := [] } words).1.taken =
      (editor.pen.follow editor.sizes words).placed := by
  rw [apply_eq]
  exact List.nil_append _

/-- A recorder is an editor with a record that nothing else depends on. -/
theorem related_editor : Machine.Related machine Editor.machine fun r e => r.toEditor = e where
  reset := by
    rintro r _ rfl
    rfl
  apply := by
    rintro r _ rfl words
    change (r.apply words).1.toEditor = (r.toEditor.apply words).1 ∧
      (r.apply words).2 = (r.toEditor.apply words).2
    rw [apply_eq]
    exact ⟨rfl, rfl⟩

theorem run_eq (sources : List Source) (r : Recorder) :
    (r.run sources).1.toEditor = (r.toEditor.run sources).1 ∧
      (r.run sources).2 = (r.toEditor.run sources).2 :=
  related_editor.run sources rfl

/-- The layer is the one at the start with everything on record placed on it, and the record
holds only what fits. -/
structure Accounts (start : Layer) (r : Recorder) : Prop where
  layer : r.layer = start.placeAll r.taken
  fit : ∀ p ∈ r.taken, p.Fits

theorem Accounts.start (editor : Editor) : Accounts editor.layer { editor with taken := [] } where
  layer := rfl
  fit := fun _ mem => absurd mem List.not_mem_nil

theorem Accounts.apply {start : Layer} {r : Recorder} (accounts : Accounts start r)
    (words : List String) : Accounts start (r.apply words).1 := by
  rw [apply_eq]
  constructor
  · change r.layer.placeAll _ = start.placeAll (r.taken ++ _)
    rw [accounts.layer, Layer.placeAll_append]
  · intro p mem
    rcases List.mem_append.mp mem with before | now
    · exact accounts.fit p before
    · exact r.pen.fits_of_mem_follow r.sizes words p now

end Recorder

end IslandLayer
