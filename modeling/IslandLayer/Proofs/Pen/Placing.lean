import IslandLayer.Pen
import IslandLayer.Proofs.Layer.Blocks

set_option autoImplicit false

namespace IslandLayer

open Script

/-- Strokes that place the same with the same result, and leave related pens. -/
structure Stroke.Agrees (R : Pen → Pen → Prop) (s s' : Stroke) : Prop where
  pen : R s.pen s'.pen
  placed : s.placed = s'.placed
  result : s.result = s'.result

namespace Pen

def target (pen : Pen) (base : UInt16) (cell : Cell) : Placement :=
  ⟨pen.context.cursor.1, pen.context.cursor.2, pen.next base cell⟩

def moved (pen : Pen) (cell : Cell) : Pen :=
  { pen with context := pen.context.advance, last := some cell }

theorem placeFrom_of_refused {pen : Pen} {base : UInt16} {cell : Cell} {e : LayerError}
    (refused : (pen.target base cell).footprint.refusal? = some e) (count : Nat) :
    placeFrom base (count + 1) cell pen [] =
      ⟨{ pen with last := some (pen.next base cell) }, [], .error (.layer e)⟩ := by
  unfold placeFrom
  dsimp only
  split
  · next answer =>
    cases answer.symm.trans refused
    rfl
  · next answer => cases answer.symm.trans refused

theorem placeFrom_of_accepted {pen : Pen} {base : UInt16} {cell : Cell}
    (accepted : (pen.target base cell).footprint.refusal? = none) (count : Nat) :
    placeFrom base (count + 1) cell pen [] =
      let rest := placeFrom base count (pen.next base cell) (pen.moved (pen.next base cell)) []
      { rest with placed := pen.target base cell :: rest.placed } := by
  rw [placeFrom]
  dsimp only
  split
  · next answer => cases answer.symm.trans accepted
  · exact placeFrom_eq base count (pen.next base cell) (pen.moved (pen.next base cell))
      [pen.target base cell]

theorem follow_of_read (pen : Pen) (sizes : StackSizes) {words : List String} {command : Command}
    (read : Command.read words = .ok command) :
    pen.follow sizes words = pen.draw sizes command := by
  rw [follow, read]

/-- A line changes nothing, or sets a context, or draws an item. -/
theorem follow_cases (pen : Pen) (sizes : StackSizes) (words : List String) {P : Stroke → Prop}
    (idle : ∀ result, P ⟨pen, [], result⟩) (context : ∀ context, P ⟨{ context }, [], .ok ()⟩)
    (item : ∀ variant item, P (pen.drawItem sizes variant item)) :
    P (pen.follow sizes words) := by
  unfold follow
  split
  · next command _ =>
    cases command with
    | empty => exact idle (.ok ())
    | context start => exact context start
    | item found => exact item .absent found
    | variantItem variant found => exact item variant found
  · exact idle _

@[simp] theorem context_announce (pen : Pen) (variant : Variant) :
    (pen.announce variant).context = pen.context := by
  cases variant <;> rfl

@[simp] theorem last_announce (pen : Pen) (variant : Variant) :
    (pen.announce variant).last = pen.last := by
  cases variant <;> rfl

theorem fits_of_mem_drawItem (pen : Pen) (sizes : StackSizes) (variant : Variant) (item : Item) :
    ∀ p ∈ (pen.drawItem sizes variant item).placed, p.Fits := by
  unfold drawItem
  split
  · intro p mem
    exact p.refusal?_eq_none_iff.mp (refusal?_of_mem_placeFrom _ _ _ _ p mem)
  · exact fun _ mem => absurd mem List.not_mem_nil

theorem fits_of_mem_follow (pen : Pen) (sizes : StackSizes) (words : List String) :
    ∀ p ∈ (pen.follow sizes words).placed, p.Fits :=
  pen.follow_cases sizes words (P := fun stroke => ∀ p ∈ stroke.placed, p.Fits)
    (fun _ _ mem => absurd mem List.not_mem_nil) (fun _ _ mem => absurd mem List.not_mem_nil)
    (pen.fits_of_mem_drawItem sizes)

/-- Related pens are in the same context, and on every line they do the same and stay related. -/
structure Bisimulation (R : Pen → Pen → Prop) : Prop where
  new : R {} {}
  context : ∀ {p p'}, R p p' → p.context = p'.context
  follow : ∀ {p p'}, R p p' → ∀ sizes words,
    (p.follow sizes words).Agrees R (p'.follow sizes words)

/-- Of all lines only those with an item ask what a pen remembers. -/
theorem Bisimulation.of_drawItem {R : Pen → Pen → Prop} (refl : ∀ pen, R pen pen)
    (context : ∀ {p p'}, R p p' → p.context = p'.context)
    (drawItem : ∀ {p p'}, R p p' → ∀ sizes variant item,
      (p.drawItem sizes variant item).Agrees R (p'.drawItem sizes variant item)) :
    Bisimulation R where
  new := refl {}
  context := context
  follow := by
    intro p p' related sizes words
    unfold Pen.follow
    cases Command.read words with
    | error cause => exact ⟨related, rfl, rfl⟩
    | ok command =>
      cases command with
      | empty => exact ⟨related, rfl, rfl⟩
      | context start => exact ⟨refl { context := start }, rfl, rfl⟩
      | item item => exact drawItem related sizes .absent item
      | variantItem variant item => exact drawItem related sizes variant item

end Pen

end IslandLayer
