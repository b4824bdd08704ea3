import IslandLayer.Layer.Footprint
import IslandLayer.Script.Reading
import IslandLayer.StackSizes

set_option autoImplicit false

namespace IslandLayer

open Script

/-- Why a line of a script has no effect, or ends before its last placement. -/
inductive EditError where
  | command (cause : CommandError)
  | layer (cause : LayerError)
  deriving Repr, DecidableEq

namespace EditError

def message : EditError → String
  | command cause => cause.message
  | layer cause => cause.message

end EditError

/-- What one command leaves behind for the next. -/
structure Pen where
  context : Context := {}
  /-- The last word meant for the layer under this context, whether or not it fitted. -/
  last : Option Cell := none
  /-- The bits of a variant that the next item takes. -/
  pending : Option Cell := none
  deriving Repr, DecidableEq

/-- What a command does: the pen after it, the placements it makes, and whether it succeeds.
Placements before a failure stand. The layer under the pen plays no part in this. -/
structure Stroke where
  pen : Pen
  placed : List Placement
  result : Except EditError Unit

namespace Pen

/-- The word of an item as it is first packed: the recipe in `diy` mode, nothing for the id zero,
and a default stack where no variant flag is set. `extra` is the stack size less one. -/
def pack (pen : Pen) (sizes : StackSizes) (id : UInt64) (extra : UInt32) : Cell :=
  let base := id.toUInt16
  let cell :=
    if pen.context.modes.diy then Cell.recipe base
    else Cell.pack id pen.context.flags extra ||| pen.pending.getD 0
  if base = 0 then Cell.empty
  else if cell.hasVariant then cell
  else match sizes.defaultExtra? base with
    | some extra => cell ||| Cell.stackBits extra
    | none => cell

/-- In variants mode an item right after one of its own id repeats it; otherwise it is `cell`. -/
def next (pen : Pen) (base : UInt16) (cell : Cell) : Cell :=
  match pen.last with
  | some last =>
    if pen.context.modes.variants && last.itemId == base then Cell.repeated base last else cell
  | none => cell

/-- Places an item `count` times, or until a slot is refused. `placed` holds the placements made
before, the latest first. -/
def placeFrom (base : UInt16) (count : Nat) (cell : Cell) (pen : Pen) (placed : List Placement) :
    Stroke :=
  match count with
  | 0 => ⟨pen, placed.reverse, .ok ()⟩
  | count + 1 =>
    let cell := pen.next base cell
    let (x, y) := pen.context.cursor
    let placement : Placement := ⟨x, y, cell⟩
    match placement.footprint.refusal? with
    | some error => ⟨{ pen with last := some cell }, placed.reverse, .error (.layer error)⟩
    | none =>
      placeFrom base count cell { pen with context := pen.context.advance, last := some cell }
        (placement :: placed)

/-- Places an item whose id is known. It takes the announced variant, even for a count of zero. -/
def place (pen : Pen) (sizes : StackSizes) (id : UInt64) (item : Item) : Stroke :=
  let extra := if item.stack = 0 then 0 else item.stack - 1
  placeFrom id.toUInt16 item.count.toNat (pen.pack sizes id extra) { pen with pending := none } []

/-- Announces the variant of the next item. -/
def announce (pen : Pen) : Variant → Pen
  | .code variant texture => { pen with pending := some (Cell.variantBits variant texture) }
  | .absent => pen
  | .plain => pen

/-- An item with what stands before it. Nothing is announced before the item has an id. -/
def drawItem (pen : Pen) (sizes : StackSizes) (variant : Variant) (item : Item) : Stroke :=
  match item.id? pen.context.modes.hex with
  | some id => (pen.announce variant).place sizes id item
  | none => ⟨pen, [], .error (.command (.item item.token))⟩

def draw (pen : Pen) (sizes : StackSizes) : Command → Stroke
  | .empty => ⟨pen, [], .ok ()⟩
  | .context context => ⟨{ context }, [], .ok ()⟩
  | .item item => pen.drawItem sizes .absent item
  | .variantItem variant item => pen.drawItem sizes variant item

/-- Reads the words of a line and carries them out. -/
def follow (pen : Pen) (sizes : StackSizes) (words : List String) : Stroke :=
  match Command.read words with
  | .ok command => pen.draw sizes command
  | .error cause => ⟨pen, [], .error (.command cause)⟩

/-- The placements made before do not change what is placed next. -/
theorem placeFrom_eq (base : UInt16) (count : Nat) (cell : Cell) (pen : Pen)
    (placed : List Placement) :
    placeFrom base count cell pen placed =
      { placeFrom base count cell pen [] with
        placed := placed.reverse ++ (placeFrom base count cell pen []).placed } := by
  induction count generalizing cell pen placed with
  | zero => simp [placeFrom]
  | succ count ih =>
    unfold placeFrom
    dsimp only
    split
    · simp
    · rw [ih, ih _ _ [_]]
      simp

theorem refusal?_of_mem_placeFrom (base : UInt16) (count : Nat) (cell : Cell) (pen : Pen) :
    ∀ p ∈ (placeFrom base count cell pen []).placed, p.footprint.refusal? = none := by
  induction count generalizing cell pen with
  | zero => simp [placeFrom]
  | succ count ih =>
    unfold placeFrom
    dsimp only
    split
    · simp
    · next accepted =>
      rw [placeFrom_eq]
      intro p mem
      rcases List.mem_append.1 mem with first | later
      · rw [List.mem_singleton.1 first]
        exact accepted
      · exact ih _ _ p later

end Pen

end IslandLayer
