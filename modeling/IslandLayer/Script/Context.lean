import IslandLayer.Layer.Basic

set_option autoImplicit false

namespace IslandLayer.Script

/-- Switches named in the settings of a context. -/
structure Modes where
  /-- Every item becomes the recipe for it. -/
  diy : Bool := false
  /-- Item ids are hexadecimal. -/
  hex : Bool := false
  /-- An item right after one of the same id repeats it as a variant. -/
  variants : Bool := false
  /-- Carried along; no rule of placement asks for it. -/
  fossil : Bool := false
  deriving Repr, DecidableEq

namespace Modes

def turnOn (modes : Modes) (name : String) : Modes :=
  match name with
  | "diy" => { modes with diy := true }
  | "hex" => { modes with hex := true }
  | "variants" => { modes with variants := true }
  | "fossil" => { modes with fossil := true }
  | _ => modes

def ofNames (names : List String) : Modes := names.foldl turnOn {}

theorem turnOn_eq (modes : Modes) (name : String) :
    modes.turnOn name = ⟨modes.diy || "diy" == name, modes.hex || "hex" == name,
      modes.variants || "variants" == name, modes.fossil || "fossil" == name⟩ := by
  unfold turnOn
  split
  · simp
  · simp
  · simp
  · simp
  · next diy hex variants fossil =>
    simp [beq_false_of_ne (Ne.symm diy), beq_false_of_ne (Ne.symm hex),
      beq_false_of_ne (Ne.symm variants), beq_false_of_ne (Ne.symm fossil)]

theorem foldl_turnOn (names : List String) (modes : Modes) :
    names.foldl turnOn modes = ⟨modes.diy || names.contains "diy",
      modes.hex || names.contains "hex", modes.variants || names.contains "variants",
      modes.fossil || names.contains "fossil"⟩ := by
  induction names generalizing modes with
  | nil => simp
  | cons name rest ih =>
    simp only [List.foldl_cons, ih, turnOn_eq, List.contains_cons, Bool.or_assoc]

/-- A mode is on exactly if it is named. -/
theorem ofNames_eq (names : List String) :
    ofNames names = ⟨names.contains "diy", names.contains "hex", names.contains "variants",
      names.contains "fossil"⟩ := by
  simp [ofNames, foldl_turnOn]

end Modes

/-- Where a script places its next item, and how it reads items there. Placements fill rows of
`width` items from the anchor on, two squares apart on both axes. -/
structure Context where
  x : UInt32 := 0
  y : UInt32 := 0
  /-- Items in a row. -/
  width : UInt32 := 16
  /-- Rows; no rule of placement asks for it. -/
  height : UInt32 := 0
  /-- Placements made so far. -/
  offset : UInt32 := 0
  /-- The flags of every placed item. -/
  flags : UInt16 := 0
  modes : Modes := {}
  deriving Repr, DecidableEq

namespace Context

/-- A row holds at least one item. -/
def withWidth (context : Context) (width : UInt32) : Context :=
  { context with width := max width 1 }

/-- The next slot; after the last one that can be counted it stays there. -/
def advance (context : Context) : Context :=
  { context with offset := Saturating.add context.offset 1 }

/-- The coordinate of the current slot. It may lie far off the grid. -/
def cursor (context : Context) : UInt32 × UInt32 :=
  let width := max context.width 1
  (Saturating.add context.x (Saturating.mul (context.offset % width) 2),
    Saturating.add context.y (Saturating.mul (context.offset / width) 2))

theorem toNat_offset_advance (context : Context) :
    context.advance.offset.toNat = min (context.offset.toNat + 1) Saturating.limit :=
  Saturating.toNat_add _ _

end Context

end IslandLayer.Script
