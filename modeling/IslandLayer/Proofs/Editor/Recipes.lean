import IslandLayer.Proofs.Editor.History
import IslandLayer.Proofs.Pen.Recipes

set_option autoImplicit false

namespace IslandLayer

open Script

namespace Editor

theorem teaches_of_reachable {editor : Editor} (reachable : editor.Reachable) :
    editor.pen.Teaches :=
  reachable.keep (P := fun e => e.pen.Teaches) (fun _ _ => .of_last_eq_none rfl)
    (fun _ _ => .of_last_eq_none rfl) (fun e words teaches => teaches.follow e.sizes words)

/-- In `diy` mode all placements of an item, whatever its stack, its variant and the flags are, get
the recipe for it with its default stack put over it. They teach the item itself exactly if there
are none, or if that stack adds nothing to the id. -/
theorem teaches_item_iff {editor : Editor} (reachable : editor.Reachable)
    (diy : editor.pen.context.modes.diy = true) {words : List String} {item : Item}
    (asks : Command.Asks words item) {id : UInt64}
    (known : item.id? editor.pen.context.modes.hex = some id)
    (teachable : Pen.Teachable id.toUInt16) :
    let base := id.toUInt16
    let taken := (Recorder.apply { editor with taken := [] } words).1.taken
    (∀ p ∈ taken, p.cell = editor.sizes.recipe base) ∧
    ((∀ p ∈ taken, p.cell = Cell.recipe base ∧ (p.cell >>> 32).toUInt16 = base) ↔
      taken = [] ∨ ∀ extra, editor.sizes.defaultExtra? base = some extra →
        base.toUInt32 ||| extra = base.toUInt32) := by
  intro base taken
  have placed : taken = (editor.pen.follow editor.sizes words).placed := by
    have record := congrArg (·.1.taken) (Recorder.apply_eq { editor with taken := [] } words)
    simpa [Recorder.after] using record
  have written : ∀ p ∈ taken, p.cell = editor.sizes.recipe base := by
    rw [placed]
    exact Pen.cell_of_mem_follow (teaches_of_reachable reachable) diy asks known teachable
      editor.sizes
  refine ⟨written, ?_⟩
  rw [← editor.sizes.recipe_eq_iff]
  constructor
  · intro teach
    rcases List.eq_nil_or_concat taken with none | ⟨front, p, some⟩
    · exact Or.inl none
    · have listed : p ∈ taken := by simp [some]
      exact Or.inr ((written p listed).symm.trans (teach p listed).1)
  · rintro (none | plain) p listed
    · rw [none] at listed
      exact absurd listed List.not_mem_nil
    · have taught : p.cell = Cell.recipe base := (written p listed).trans plain
      exact ⟨taught, by rw [taught, Cell.toUInt16_shiftRight_recipe]⟩

/-- A default stack of three has its bit in the id of the item already, and the stack, the variant
and the flags of the command are dropped. -/
theorem teaches_item_of_flagged :
    let editor := machine.acts [.apply ["@0,0,16,0,0,1f,diy,hex"]]
      { layer := Layer.empty, sizes := StackSizes.empty.insert 0x16A 3 }
    let item : Item := { token := "1016a|5*2", digits := "1016a", stack := 5, count := 2 }
    let taken := (Recorder.apply { editor with taken := [] } ["2_3", "1016a|5*2"]).1.taken
    editor.Reachable ∧ editor.pen.context.modes.diy = true ∧
    Command.Asks ["2_3", "1016a|5*2"] item ∧
    item.id? editor.pen.context.modes.hex = some 0x1016A ∧ Pen.Teachable 0x16A ∧
    editor.sizes.defaultExtra? 0x16A = some 2 ∧ taken.length = 2 ∧
    ∀ p ∈ taken, p.cell = Cell.recipe 0x16A ∧ (p.cell >>> 32).toUInt16 = 0x16A := by
  intro editor item taken
  have reachable : editor.Reachable := ⟨_, _, _, rfl⟩
  have diy : editor.pen.context.modes.diy = true := by decide +kernel
  have read : Command.read ["2_3", "1016a|5*2"] = .ok (.variantItem (.code 2 3) item) := by decide
  have asks : Command.Asks ["2_3", "1016a|5*2"] item := ⟨_, read, rfl⟩
  have known : item.id? editor.pen.context.modes.hex = some 0x1016A := by decide +kernel
  have teachable : Pen.Teachable (0x1016A : UInt64).toUInt16 := by decide
  have listed : editor.sizes.defaultExtra? 0x16A = some 2 := by decide +kernel
  have harmless : ∀ extra, editor.sizes.defaultExtra? 0x16A = some extra →
      (0x16A : UInt16).toUInt32 ||| extra = (0x16A : UInt16).toUInt32 := by
    intro extra stacked
    rw [listed] at stacked
    cases stacked
    decide
  have taught := (teaches_item_iff reachable diy asks known teachable).2.mpr (Or.inr harmless)
  exact ⟨reachable, diy, asks, known, teachable, listed, by decide +kernel, taught⟩

/-- With a default stack of thirty the recipe for item 2000 teaches item 2013. -/
theorem not_teaches_item_of_stacked :
    let editor := machine.acts [.apply ["@0,0,16,0,0,0,diy"]]
      { layer := Layer.empty, sizes := StackSizes.empty.insert 2000 30 }
    let item : Item := { token := "2000", digits := "2000" }
    editor.Reachable ∧ editor.pen.context.modes.diy = true ∧ Command.Asks ["2000"] item ∧
    item.id? editor.pen.context.modes.hex = some 2000 ∧ Pen.Teachable 2000 ∧
    (Recorder.apply { editor with taken := [] } ["2000"]).1.taken = [⟨0, 0, 0x7DD000016A1⟩] ∧
    Cell.recipe 2000 ≠ 0x7DD000016A1 ∧ ((0x7DD000016A1 : Cell) >>> 32).toUInt16 = 2013 := by
  intro editor item
  have read : Command.read ["2000"] = .ok (.item item) := by decide
  exact ⟨⟨_, _, _, rfl⟩, by decide +kernel, ⟨_, read, rfl⟩, by decide +kernel, by decide,
    by decide +kernel, by decide, by decide⟩

end Editor

end IslandLayer
