import IslandLayer.Proofs.Pen.Counts
import IslandLayer.Proofs.Pen.Items
import IslandLayer.Proofs.Pen.Words

set_option autoImplicit false

namespace IslandLayer

open Script

/-- The words that `diy` mode leaves are recipes and free squares. -/
def Cell.OfDiy (cell : Cell) : Prop := cell.itemId = emptyId ∨ cell.itemId = recipeId

theorem Cell.OfDiy.repeated {base : UInt16} (last : Cell) (left : last.OfDiy)
    (same : last.itemId = base) : (Cell.repeated base last).OfDiy := by
  unfold OfDiy
  rwa [itemId_repeated, ← same]

/-- The recipe for an item, over which an item that stacks by default has its stack size put. -/
def StackSizes.recipe (sizes : StackSizes) (base : UInt16) : Cell :=
  match sizes.defaultExtra? base with
  | some extra => Cell.recipe base ||| Cell.stackBits extra
  | none => Cell.recipe base

theorem StackSizes.itemId_recipe (sizes : StackSizes) (base : UInt16) :
    (sizes.recipe base).itemId = Cell.recipeId := by
  unfold recipe
  split
  · rw [Cell.itemId_congr (Cell.toUInt32_or_stackBits _ _), Cell.itemId_recipe]
  · exact Cell.itemId_recipe base

/-- The recipe is the plain one exactly if no default stack adds anything to the id of its item. -/
theorem StackSizes.recipe_eq_iff (sizes : StackSizes) (base : UInt16) :
    sizes.recipe base = Cell.recipe base ↔
      ∀ extra, sizes.defaultExtra? base = some extra →
        base.toUInt32 ||| extra = base.toUInt32 := by
  unfold recipe
  split
  · next extra listed => simp [listed, Cell.recipe_or_stackBits_eq_iff]
  · next unlisted => simp [unlisted]

namespace Pen

/-- In `diy` mode nothing is remembered but recipes and free squares. -/
def Teaches (pen : Pen) : Prop :=
  pen.context.modes.diy = true → ∀ last ∈ pen.last, last.OfDiy

theorem Teaches.of_last_eq_none {pen : Pen} (forgotten : pen.last = none) : pen.Teaches := by
  intro _ last remembered
  rw [forgotten] at remembered
  exact absurd remembered (Option.not_mem_none last)

section

variable {pen : Pen} (diy : pen.context.modes.diy = true) (sizes : StackSizes) (id : UInt64)
  (extra : UInt32)

include diy

/-- The stack, the flags and the variant of the command are lost, but a default stack is not. -/
theorem pack_of_diy (named : id.toUInt16 ≠ 0) :
    pen.pack sizes id extra = sizes.recipe id.toUInt16 := by
  simp only [pack, diy, if_true, if_neg named, Cell.hasVariant_recipe, Bool.false_eq_true, if_false]
  rfl

theorem ofDiy_pack : (pen.pack sizes id extra).OfDiy := by
  by_cases zero : id.toUInt16 = 0
  · left
    simp only [pack, if_pos zero]
    rfl
  · right
    rw [pack_of_diy diy sizes id extra zero, sizes.itemId_recipe]

end

theorem Teaches.drawItem {pen : Pen} (teaches : pen.Teaches) (sizes : StackSizes)
    (variant : Variant) (item : Item) : (pen.drawItem sizes variant item).pen.Teaches := by
  cases known : item.id? pen.context.modes.hex with
  | none =>
    rw [Pen.drawItem, known]
    exact teaches
  | some id =>
    rw [drawItem_of_id known]
    intro diy
    have before : (pen.announce variant).context.modes.diy = true := by
      rwa [place, ← (packsLike_placeFrom _ _ _ _).modes] at diy
    let used : Pen := { pen.announce variant with pending := none }
    have remembered : ∀ last ∈ used.last, last.OfDiy := by
      change ∀ last ∈ (pen.announce variant).last, last.OfDiy
      rw [last_announce]
      rw [context_announce] at before
      exact teaches before
    exact (writes_placeFrom Cell.OfDiy.repeated item.count.toNat
      (ofDiy_pack before sizes id _) remembered).last

theorem Teaches.follow {pen : Pen} (teaches : pen.Teaches) (sizes : StackSizes)
    (words : List String) : (pen.follow sizes words).pen.Teaches :=
  pen.follow_cases sizes words (P := fun stroke => stroke.pen.Teaches) (fun _ => teaches)
    (fun _ => .of_last_eq_none rfl) (teaches.drawItem sizes)

theorem next_of_ne {pen : Pen} {base : UInt16} (other : ∀ last ∈ pen.last, last.itemId ≠ base)
    (cell : Cell) : pen.next base cell = cell :=
  next_of_not_repeats (fun ⟨_, last, remembered, same⟩ => other last remembered same) cell

/-- Without a word to be repeated all placements of a command have the word that it packs. -/
theorem cell_of_mem_placeFrom {base : UInt16} {cell : Cell} (foreign : cell.itemId ≠ base)
    (count : Nat) {pen : Pen} (other : ∀ last ∈ pen.last, last.itemId ≠ base) :
    ∀ p ∈ (placeFrom base count cell pen []).placed, p.cell = cell := by
  have word := next_of_ne other cell
  induction count generalizing pen with
  | zero => exact fun _ mem => absurd mem List.not_mem_nil
  | succ count ih =>
    cases answer : (pen.target base cell).footprint.refusal? with
    | some e =>
      rw [placeFrom_of_refused answer]
      exact fun _ mem => absurd mem List.not_mem_nil
    | none =>
      rw [placeFrom_of_accepted answer, word]
      have moved : ∀ last ∈ (pen.moved cell).last, last.itemId ≠ base := by
        rintro last ⟨⟩
        exact foreign
      exact List.forall_mem_cons.mpr ⟨word, ih moved (next_of_ne moved cell)⟩

/-- An id that an item can have: it stands neither for a free nor for a covered square, nor for a
recipe. -/
def Teachable (base : UInt16) : Prop :=
  base ≠ 0 ∧ base ≠ Cell.extensionId ∧ base ≠ Cell.emptyId ∧ base ≠ Cell.recipeId

instance (base : UInt16) : Decidable (Teachable base) := inferInstanceAs (Decidable (_ ∧ _))

theorem cell_of_mem_follow {pen : Pen} (teaches : pen.Teaches)
    (diy : pen.context.modes.diy = true) {words : List String} {item : Item}
    (asks : Command.Asks words item) {id : UInt64}
    (known : item.id? pen.context.modes.hex = some id) (teachable : Teachable id.toUInt16)
    (sizes : StackSizes) :
    ∀ p ∈ (pen.follow sizes words).placed, p.cell = sizes.recipe id.toUInt16 := by
  obtain ⟨zero, -, free, recipe⟩ := teachable
  obtain ⟨variant, drawn⟩ := follow_of_asks asks pen sizes
  have announced : (pen.announce variant).context.modes.diy = true := by simpa
  rw [drawn, drawItem_of_id known, place, pack_of_diy announced sizes id _ zero]
  apply cell_of_mem_placeFrom
  · rw [sizes.itemId_recipe]
    exact recipe.symm
  · intro last remembered
    have before : last ∈ pen.last := by simpa using remembered
    rcases teaches diy last before with same | same
    · rw [same]
      exact free.symm
    · rw [same]
      exact recipe.symm

end Pen

end IslandLayer
