import IslandLayer.Proofs.Layer.LowerHalf
import IslandLayer.Proofs.Pen.Placing

set_option autoImplicit false

namespace IslandLayer

open Script

namespace Pen

/-- Pens in the same context, with the same lower half of the word before. -/
structure SameLower (p p' : Pen) : Prop where
  context : p.context = p'.context
  pending : p.pending = p'.pending
  last : p.last.map UInt64.toUInt32 = p'.last.map UInt64.toUInt32

end Pen

/-- Strokes with the same outcome that place words with the same lower halves. -/
structure Stroke.SameLower (s s' : Stroke) : Prop where
  pen : s.pen.SameLower s'.pen
  placed : List.Forall₂ Placement.SameLower s.placed s'.placed
  result : s.result = s'.result

namespace Pen

theorem SameLower.refl (pen : Pen) : pen.SameLower pen := ⟨rfl, rfl, rfl⟩

theorem SameLower.idle {p p' : Pen} (pens : p.SameLower p') (result : Except EditError Unit) :
    Stroke.SameLower ⟨p, [], result⟩ ⟨p', [], result⟩ :=
  ⟨pens, .nil, rfl⟩

/-- The lower half of a packed word is settled before a stack size is looked up. -/
theorem toUInt32_pack (pen : Pen) (sizes : StackSizes) (id : UInt64) (extra : UInt32) :
    (pen.pack sizes id extra).toUInt32 =
      if id.toUInt16 = 0 then Cell.empty.toUInt32
      else if pen.context.modes.diy then (Cell.recipe id.toUInt16).toUInt32
      else (Cell.pack id pen.context.flags extra ||| pen.pending.getD 0).toUInt32 := by
  unfold pack
  rw [← apply_ite UInt64.toUInt32]
  dsimp only
  generalize (if pen.context.modes.diy then _ else _ : Cell) = word
  by_cases zero : id.toUInt16 = 0
  · rw [if_pos zero, if_pos zero]
  · rw [if_neg zero, if_neg zero]
    cases word.hasVariant with
    | true => rfl
    | false =>
      cases sizes.defaultExtra? id.toUInt16 with
      | none => rfl
      | some extra => exact word.toUInt32_or_stackBits extra

theorem SameLower.pack {p p' : Pen} (pens : p.SameLower p') (sizes sizes' : StackSizes)
    (id : UInt64) (extra : UInt32) :
    (p.pack sizes id extra).toUInt32 = (p'.pack sizes' id extra).toUInt32 := by
  rw [toUInt32_pack, toUInt32_pack, pens.context, pens.pending]

/-- Of a word that is repeated only the lower half is asked for. -/
theorem SameLower.next_eq {p p' : Pen} (pens : p.SameLower p') (base : UInt16) (cell : Cell) :
    p.next base cell = p'.next base cell := by
  have remembered := pens.last
  unfold Pen.next
  rw [pens.context]
  cases before : p.last with
  | none =>
    cases before' : p'.last with
    | none => rfl
    | some last' => simp [before, before'] at remembered
  | some last =>
    cases before' : p'.last with
    | none => simp [before, before'] at remembered
    | some last' =>
      have lower : last.toUInt32 = last'.toUInt32 := by simpa [before, before'] using remembered
      simp only [Cell.itemId_congr lower, Cell.repeated_congr lower]

theorem SameLower.next {p p' : Pen} (pens : p.SameLower p') (base : UInt16) {cell cell' : Cell}
    (cells : cell.toUInt32 = cell'.toUInt32) :
    (p.next base cell).toUInt32 = (p'.next base cell').toUInt32 := by
  rw [pens.next_eq]
  unfold Pen.next
  split
  · split
    · rfl
    · exact cells
  · exact cells

theorem SameLower.target {p p' : Pen} (pens : p.SameLower p') (base : UInt16) {cell cell' : Cell}
    (cells : cell.toUInt32 = cell'.toUInt32) :
    (p.target base cell).SameLower (p'.target base cell') where
  x := congrArg (·.cursor.1) pens.context
  y := congrArg (·.cursor.2) pens.context
  cell := pens.next base cells

theorem SameLower.moved {p p' : Pen} (pens : p.SameLower p') {cell cell' : Cell}
    (cells : cell.toUInt32 = cell'.toUInt32) : (p.moved cell).SameLower (p'.moved cell') where
  context := congrArg Context.advance pens.context
  pending := pens.pending
  last := congrArg some cells

/-- The two pens reach the same slot together, and both are let in or both are turned away. -/
theorem SameLower.placeFrom {p p' : Pen} (pens : p.SameLower p') (base : UInt16) (count : Nat)
    {cell cell' : Cell} (cells : cell.toUInt32 = cell'.toUInt32) :
    (Pen.placeFrom base count cell p []).SameLower (Pen.placeFrom base count cell' p' []) := by
  induction count generalizing p p' cell cell' with
  | zero => exact pens.idle _
  | succ count ih =>
    have target := pens.target base cells
    have word := pens.next base cells
    have footprint : (p.target base cell).footprint = (p'.target base cell').footprint := by
      rw [Placement.footprint, Placement.footprint, target.x, target.y]
    cases answer : (p.target base cell).footprint.refusal? with
    | some e =>
      rw [placeFrom_of_refused answer, placeFrom_of_refused (footprint ▸ answer)]
      have stopped : SameLower { p with last := some (p.next base cell) }
          { p' with last := some (p'.next base cell') } :=
        ⟨pens.context, pens.pending, congrArg some word⟩
      exact stopped.idle _
    | none =>
      rw [placeFrom_of_accepted answer, placeFrom_of_accepted (footprint ▸ answer)]
      have rest := ih (pens.moved word) word
      exact ⟨rest.pen, .cons target rest.placed, rest.result⟩

theorem SameLower.announce {p p' : Pen} (pens : p.SameLower p') (variant : Variant) :
    (p.announce variant).SameLower (p'.announce variant) := by
  cases variant with
  | code variant texture => exact ⟨pens.context, rfl, pens.last⟩
  | absent => exact pens
  | plain => exact pens

theorem SameLower.forget {p p' : Pen} (pens : p.SameLower p') :
    SameLower { p with pending := none } { p' with pending := none } :=
  ⟨pens.context, rfl, pens.last⟩

theorem SameLower.drawItem {p p' : Pen} (pens : p.SameLower p') (sizes sizes' : StackSizes)
    (variant : Variant) (item : Item) :
    (p.drawItem sizes variant item).SameLower (p'.drawItem sizes' variant item) := by
  unfold Pen.drawItem
  rw [pens.context]
  cases item.id? p'.context.modes.hex with
  | none => exact pens.idle _
  | some id =>
    have announced := pens.announce variant
    exact announced.forget.placeFrom _ _ (announced.pack sizes sizes' _ _)

theorem SameLower.follow {p p' : Pen} (pens : p.SameLower p') (sizes sizes' : StackSizes)
    (words : List String) : (p.follow sizes words).SameLower (p'.follow sizes' words) := by
  unfold Pen.follow
  cases Command.read words with
  | error cause => exact pens.idle _
  | ok command =>
    cases command with
    | empty => exact pens.idle _
    | context context => exact (SameLower.refl _).idle _
    | item item => exact pens.drawItem sizes sizes' .absent item
    | variantItem variant item => exact pens.drawItem sizes sizes' variant item

theorem SameLower.agrees_placeFrom {p p' : Pen} (pens : p.SameLower p') (base : UInt16)
    (count : Nat) (cell : Cell) :
    (Pen.placeFrom base count cell p []).Agrees SameLower
      (Pen.placeFrom base count cell p' []) := by
  cases count with
  | zero => exact ⟨pens, rfl, rfl⟩
  | succ count =>
    have target : p.target base cell = p'.target base cell := by
      rw [Pen.target, Pen.target, pens.context, pens.next_eq]
    cases answer : (p.target base cell).footprint.refusal? with
    | some e =>
      rw [placeFrom_of_refused answer, placeFrom_of_refused (target ▸ answer), pens.next_eq]
      exact ⟨⟨pens.context, pens.pending, rfl⟩, rfl, rfl⟩
    | none =>
      have moved : p.moved (p.next base cell) = p'.moved (p'.next base cell) := by
        rw [Pen.moved, Pen.moved, pens.context, pens.pending, pens.next_eq]
      rw [placeFrom_of_accepted answer, placeFrom_of_accepted (target ▸ answer), moved, target,
        pens.next_eq]
      exact ⟨.refl _, rfl, rfl⟩

theorem SameLower.agrees_drawItem {p p' : Pen} (pens : p.SameLower p') (sizes : StackSizes)
    (variant : Variant) (item : Item) :
    (p.drawItem sizes variant item).Agrees SameLower (p'.drawItem sizes variant item) := by
  unfold Pen.drawItem
  rw [pens.context]
  cases item.id? p'.context.modes.hex with
  | none => exact ⟨pens, rfl, rfl⟩
  | some id =>
    have announced := pens.announce variant
    have packed (extra : UInt32) :
        (p.announce variant).pack sizes id extra = (p'.announce variant).pack sizes id extra := by
      rw [Pen.pack, Pen.pack, announced.context, announced.pending]
    dsimp only
    rw [Pen.place, Pen.place, packed]
    exact announced.forget.agrees_placeFrom _ _ _

/-- With the same stack sizes, what the pens remember in the upper half never shows. -/
theorem bisimulation_sameLower : Bisimulation SameLower :=
  .of_drawItem .refl SameLower.context SameLower.agrees_drawItem

end Pen

end IslandLayer
