import IslandLayer.Proofs.Pen.Counts
import IslandLayer.Proofs.Pen.Items

set_option autoImplicit false

namespace IslandLayer

open Script

namespace Pen

/-- The layer refuses the next slot of the pen, with that error. -/
def Stuck (pen : Pen) (e : LayerError) : Prop :=
  (Footprint.mk pen.context.cursor.1 pen.context.cursor.2 2 2).refusal? = some e

theorem Stuck.of_context {pen pen' : Pen} {e : LayerError} (stuck : pen.Stuck e)
    (same : pen.context = pen'.context) : pen'.Stuck e := by
  rwa [Stuck, ← same]

section

variable {pen : Pen} {e : LayerError} (stuck : pen.Stuck e)

include stuck

/-- A stuck pen places nothing, and with any count but zero it fails. -/
theorem Stuck.placeFrom (base : UInt16) (count : Nat) (cell : Cell) :
    ∃ last, (pen.last.isSome → last.isSome) ∧ placeFrom base count cell pen [] =
      ⟨{ pen with last }, [], if count = 0 then .ok () else .error (.layer e)⟩ := by
  cases count with
  | zero => exact ⟨pen.last, id, rfl⟩
  | succ count =>
    have refused : (pen.target base cell).footprint.refusal? = some e := stuck
    refine ⟨some (pen.next base cell), fun _ => rfl, ?_⟩
    rw [placeFrom_of_refused refused, if_neg (Nat.succ_ne_zero count)]

theorem Stuck.drawItem_of_id {item : Item} {id : UInt64}
    (known : item.id? pen.context.modes.hex = some id) (sizes : StackSizes) (variant : Variant) :
    ∃ last, (pen.last.isSome → last.isSome) ∧ pen.drawItem sizes variant item =
      ⟨{ pen with last, pending := none }, [],
        if item.count.toNat = 0 then .ok () else .error (.layer e)⟩ := by
  have used : Stuck { pen.announce variant with pending := none } e :=
    stuck.of_context (pen.context_announce variant).symm
  obtain ⟨last, remembered, drawn⟩ := used.placeFrom id.toUInt16 item.count.toNat
    ((pen.announce variant).pack sizes id item.extra)
  refine ⟨last, ?_, ?_⟩
  · simpa using remembered
  · rw [Pen.drawItem_of_id known]
    refine drawn.trans ?_
    rw [pen.context_announce]

theorem Stuck.drawItem (sizes : StackSizes) (variant : Variant) (item : Item) :
    ∃ last pending result, (pen.last.isSome → last.isSome) ∧
      pen.drawItem sizes variant item = ⟨{ pen with last, pending }, [], result⟩ := by
  cases known : item.id? pen.context.modes.hex with
  | none =>
    refine ⟨pen.last, pen.pending, .error (.command (.item item.token)), id, ?_⟩
    rw [Pen.drawItem, known]
  | some id =>
    obtain ⟨last, remembered, drawn⟩ := stuck.drawItem_of_id known sizes variant
    exact ⟨last, none, _, remembered, drawn⟩

/-- Any line but a context leaves a stuck pen in its place, with nothing placed. -/
theorem Stuck.follow {words : List String}
    (same : ∀ context, Command.read words ≠ .ok (.context context)) (sizes : StackSizes) :
    ∃ last pending result, (pen.last.isSome → last.isSome) ∧
      pen.follow sizes words = ⟨{ pen with last, pending }, [], result⟩ := by
  cases read : Command.read words with
  | error cause =>
    refine ⟨pen.last, pen.pending, .error (.command cause), id, ?_⟩
    rw [Pen.follow, read]
  | ok command =>
    rw [follow_of_read pen sizes read]
    cases command with
    | empty => exact ⟨pen.last, pen.pending, .ok (), id, rfl⟩
    | context context => exact absurd read (same context)
    | item item => exact stuck.drawItem sizes .absent item
    | variantItem variant item => exact stuck.drawItem sizes variant item

end

theorem follow_of_refused {pen : Pen} {words : List String} {item : Item}
    (asks : Command.Asks words item) {id : UInt64}
    (known : item.id? pen.context.modes.hex = some id) (counted : 1 ≤ item.count) {e : LayerError}
    (stuck : pen.Stuck e) (sizes : StackSizes) :
    (pen.follow sizes words).placed = [] ∧
      (pen.follow sizes words).result = .error (.layer e) := by
  obtain ⟨variant, drawn⟩ := follow_of_asks asks pen sizes
  obtain ⟨last, -, refused⟩ := stuck.drawItem_of_id known sizes variant
  have some : item.count.toNat ≠ 0 := Nat.pos_iff_ne_zero.mp (UInt32.le_iff_toNat_le.mp counted)
  rw [drawn, refused, if_neg some]
  exact ⟨rfl, rfl⟩

/-- The pens are equal but for the words that they remember, and if these differ they are stuck. -/
structure Forgetful (p p' : Pen) : Prop where
  context : p.context = p'.context
  pending : p.pending = p'.pending
  last : p.last = p'.last ∨ ∃ e, p.Stuck e

theorem Forgetful.agrees_drawItem {p p' : Pen} (forgetful : p.Forgetful p') (sizes : StackSizes)
    (variant : Variant) (item : Item) :
    (p.drawItem sizes variant item).Agrees Forgetful (p'.drawItem sizes variant item) := by
  rcases forgetful.last with same | ⟨e, stuck⟩
  · obtain rfl : p = p' := by
      cases p
      cases p'
      cases forgetful.context
      cases forgetful.pending
      cases same
      rfl
    exact ⟨⟨rfl, rfl, Or.inl rfl⟩, rfl, rfl⟩
  -- Where a pen is stuck depends on its context alone, and nothing that it remembers is placed.
  · have stuck' : p'.Stuck e := stuck.of_context forgetful.context
    cases known : item.id? p.context.modes.hex with
    | none =>
      have known' : item.id? p'.context.modes.hex = none := by rwa [← forgetful.context]
      rw [Pen.drawItem, Pen.drawItem, known, known']
      exact ⟨forgetful, rfl, rfl⟩
    | some id =>
      have known' : item.id? p'.context.modes.hex = some id := by rwa [← forgetful.context]
      obtain ⟨last, -, drawn⟩ := stuck.drawItem_of_id known sizes variant
      obtain ⟨last', -, drawn'⟩ := stuck'.drawItem_of_id known' sizes variant
      rw [drawn, drawn']
      exact ⟨⟨forgetful.context, rfl, Or.inr ⟨e, stuck⟩⟩, rfl, rfl⟩

theorem bisimulation_forgetful : Bisimulation Forgetful :=
  .of_drawItem (fun _ => ⟨rfl, rfl, Or.inl rfl⟩) Forgetful.context Forgetful.agrees_drawItem

end Pen

end IslandLayer
