import IslandLayer.Proofs.Layer.Footprint
import IslandLayer.Proofs.Raw.Basic

set_option autoImplicit false

namespace IslandLayer.Raw

def load (cells : Array Cell) (i : UInt32) : Except Trap Cell :=
  match cells[i.toNat]? with
  | some cell => .ok cell
  | none => .error .outside

def store (cells : Array Cell) (i : UInt32) (cell : Cell) : Except Trap (Array Cell) :=
  if i.toNat < cells.size then .ok (cells.setIfInBounds i.toNat cell) else .error .outside

/-- Where a square is stored, computed as `192 * x + y` once it is known to be on the grid. -/
def offset (x y : UInt32) : Except Trap (Except LayerError UInt32) :=
  if Layer.OnGrid x y then do
    let column ← mul x 192
    let i ← add column y
    return .ok i
  else return .error (.outOfBounds x y)

def get (cells : Array Cell) (x y : UInt32) : Except Trap (Except LayerError Cell) := do
  match ← offset x y with
  | .error e => return .error e
  | .ok i => return .ok (← load cells i)

/-- The indices for some writes, up to the first that is off the grid. -/
def offsets : List Write → Except Trap (Except LayerError (List (UInt32 × Cell)))
  | [] => return .ok []
  | w :: rest => do
    match ← offset w.x w.y with
    | .error e => return .error e
    | .ok i =>
      match ← offsets rest with
      | .error e => return .error e
      | .ok later => return .ok ((i, w.cell) :: later)

def storeAll : List (UInt32 × Cell) → Array Cell → Except Trap (Array Cell)
  | [], cells => return cells
  | write :: rest, cells => do storeAll rest (← store cells write.1 write.2)

/-- Checks every square of the footprint before the first cell is written. -/
def setFootprint (cells : Array Cell) (f : Footprint) (item : Cell) :
    Except Trap (Except LayerError (Array Cell)) :=
  if f.Aligned then do
    match ← offsets (f.writes item) with
    | .error e => return .error e
    | .ok writes => return .ok (← storeAll writes cells)
  else return .error (.unaligned f.x f.y)

theorem toNat_index {x y : UInt32} (onGrid : Layer.OnGrid x y) :
    (UInt32.ofNat (Layer.index x y)).toNat = Layer.index x y := by
  have inside := Layer.index_lt onGrid
  exact UInt32.toNat_ofNat_of_lt' (Nat.lt_trans inside (by decide))

/-- Neither the product nor the sum overflows. -/
theorem offset_of_onGrid {x y : UInt32} (onGrid : Layer.OnGrid x y) :
    offset x y = .ok (.ok (UInt32.ofNat (Layer.index x y))) := by
  have inside := Layer.index_lt onGrid
  have rows : (192 : UInt32).toNat = Layer.height := rfl
  simp only [Layer.index, Layer.total, Layer.width, Layer.height] at inside
  have product : x.toNat * (192 : UInt32).toNat < UInt32.size := by
    simp only [rows, Layer.height, UInt32.size]
    omega
  have column : (UInt32.ofNat (x.toNat * (192 : UInt32).toNat)).toNat = x.toNat * Layer.height :=
    UInt32.toNat_ofNat_of_lt' product
  have sum : (UInt32.ofNat (x.toNat * (192 : UInt32).toNat)).toNat + y.toNat < UInt32.size := by
    simp only [column, Layer.height, UInt32.size]
    omega
  rw [offset, if_pos onGrid, mul_of_lt product, ok_bind, add_of_lt sum, ok_bind, column]
  rfl

theorem offset_of_not_onGrid {x y : UInt32} (off : ¬ Layer.OnGrid x y) :
    offset x y = .ok (.error (.outOfBounds x y)) := if_neg off

section

variable (layer : Layer)

theorem get_eq (x y : UInt32) : get layer.cells.toArray x y = .ok (layer.get x y) := by
  by_cases onGrid : Layer.OnGrid x y
  · have inside : Layer.index x y < layer.cells.toArray.size := by
      rw [Vector.size_toArray]
      exact Layer.index_lt onGrid
    have loaded : load layer.cells.toArray (UInt32.ofNat (Layer.index x y)) =
        .ok layer.cells.toArray[Layer.index x y] := by
      rw [load, toNat_index onGrid, Array.getElem?_eq_getElem inside]
    rw [get, offset_of_onGrid onGrid, Layer.get, dif_pos onGrid]
    simp only [ok_bind, loaded]
    rfl
  · rw [get, offset_of_not_onGrid onGrid, Layer.get, dif_neg onGrid]
    rfl

/-- An array that is too short stops the program. -/
example : get #[0x16A] 0 1 = .error .outside := rfl

theorem store_of_onGrid {w : Write} (onGrid : Layer.OnGrid w.x w.y) :
    store layer.cells.toArray (UInt32.ofNat (Layer.index w.x w.y)) w.cell =
      .ok (layer.write w).cells.toArray := by
  have inside := Layer.index_lt onGrid
  rw [store, toNat_index onGrid, if_pos (by rwa [Vector.size_toArray]), Layer.write,
    dif_pos onGrid, Vector.toArray_set, Array.setIfInBounds, dif_pos]

/-- The first square off the grid is the one that is refused. -/
theorem offsets_eq (writes : List Write) :
    offsets writes = .ok (match writes.find? fun w => ¬ Layer.OnGrid w.x w.y with
      | some w => .error (.outOfBounds w.x w.y)
      | none => .ok (writes.map fun w => (UInt32.ofNat (Layer.index w.x w.y), w.cell))) := by
  induction writes with
  | nil => rfl
  | cons w rest ih =>
    by_cases onGrid : Layer.OnGrid w.x w.y
    · rw [offsets, offset_of_onGrid onGrid, List.find?_cons_of_neg (by simpa using onGrid)]
      simp only [ok_bind, ih]
      cases rest.find? fun w => ¬ Layer.OnGrid w.x w.y <;> rfl
    · rw [offsets, offset_of_not_onGrid onGrid, List.find?_cons_of_pos (by simpa using onGrid)]
      rfl

theorem storeAll_eq {writes : List Write} (onGrid : ∀ w ∈ writes, Layer.OnGrid w.x w.y) :
    storeAll (writes.map fun w => (UInt32.ofNat (Layer.index w.x w.y), w.cell))
      layer.cells.toArray = .ok (writes.foldl Layer.write layer).cells.toArray := by
  induction writes generalizing layer with
  | nil => rfl
  | cons w rest ih =>
    obtain ⟨first, others⟩ := List.forall_mem_cons.mp onGrid
    rw [List.map_cons, storeAll, store_of_onGrid layer first, ok_bind]
    exact ih (layer.write w) others

theorem setFootprint_eq (f : Footprint) (item : Cell) :
    setFootprint layer.cells.toArray f item =
      .ok ((layer.setFootprint f item).map (·.cells.toArray)) := by
  by_cases aligned : f.Aligned
  · rw [setFootprint, if_pos aligned, offsets_eq, ok_bind, Layer.setFootprint,
      Footprint.refusal?_of_aligned aligned item]
    cases found : (f.writes item).find? fun w => ¬ Layer.OnGrid w.x w.y with
    | some w => rfl
    | none =>
      have onGrid : ∀ w ∈ f.writes item, Layer.OnGrid w.x w.y := by
        simpa using List.find?_eq_none.mp found
      simp only [storeAll_eq layer onGrid]
      rfl
  · rw [setFootprint, if_neg aligned, Layer.setFootprint, Footprint.refusal?, if_neg aligned]
    rfl

end

end IslandLayer.Raw
