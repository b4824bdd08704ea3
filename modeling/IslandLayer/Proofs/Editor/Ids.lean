import IslandLayer.Proofs.Editor.Fields
import IslandLayer.Proofs.Editor.Inventory
import IslandLayer.Proofs.Editor.Recipes
import IslandLayer.Proofs.Pen.Ids

set_option autoImplicit false

namespace IslandLayer

open Script

namespace Editor

theorem named_of_reachable {editor : Editor} (reachable : editor.Reachable) :
    ∀ last ∈ editor.pen.last, last.itemId ≠ 0 :=
  reachable.keep (P := fun e => ∀ last ∈ e.pen.last, last.itemId ≠ 0) (fun _ _ => nofun)
    (fun _ _ => nofun) (fun e words named => (Pen.writes_follow named e.sizes words).last)

/-- No history puts the id zero on a square, be it an anchor or a square beside one. -/
theorem itemId_ne_zero_of_covered {editor : Editor}
    (named : ∀ last ∈ editor.pen.last, last.itemId ≠ 0) (actions : List Action) :
    let record := Recorder.machine.acts actions { editor with taken := [] }
    let final := machine.acts actions editor
    (∀ p ∈ record.taken, ∀ dx dy, (p.cell.part dx dy).itemId ≠ 0) ∧
    ∀ x y,
      ((∃ p ∈ record.taken, p.Covers x y) →
        ∃ cell, final.layer.get x y = .ok cell ∧ cell.itemId ≠ 0) ∧
      ((¬ ∃ p ∈ record.taken, p.Covers x y) → final.layer.get x y = editor.layer.get x y) := by
  intro record final
  have start : Recorder.Named { editor with taken := [] } :=
    ⟨fun _ mem => absurd mem List.not_mem_nil, named⟩
  have written : ∀ p ∈ record.taken, p.cell.itemId ≠ 0 := (start.acts actions).taken
  have fit : ∀ p ∈ record.taken, p.Fits := (Recorder.accounts_acts editor actions).fit
  have layer : final.layer = editor.layer.placeAll record.taken :=
    Recorder.layer_acts editor actions
  refine ⟨fun p mem dx dy => Cell.itemId_part_ne_zero (written p mem) dx dy, fun x y => ?_⟩
  rw [layer]
  constructor
  · rintro ⟨p, mem, covers⟩
    cases last : Layer.lastOn record.taken x y with
    | none => exact absurd covers ((Layer.lastOn_eq_none_iff record.taken x y).mp last p mem)
    | some item =>
      obtain ⟨q, listed, -, rfl⟩ := Layer.exists_of_lastOn last
      refine ⟨q.cell.part (x % 2).toUInt8 (y % 2).toUInt8, ?_, ?_⟩
      · rw [Layer.get_placeAll editor.layer fit, last]
      · exact Cell.itemId_part_ne_zero (written q listed) _ _
  · exact Layer.get_placeAll_of_apart editor.layer fit

/-- Whatever has been drawn before, and whatever the stack, the variant, the flags and the bits of
the id above the sixteen of its field: an item with the id zero frees its squares, any other has its
id on its anchor, and in `diy` mode the id of a recipe, unless it is the id of free squares. The
words written by a history of any length never have the id zero, on no square of their blocks, and
all other squares stay as they were. -/
theorem ids_of_written {editor : Editor} (reachable : editor.Reachable) :
    (∀ words item id, Command.Asks words item →
      item.id? editor.pen.context.modes.hex = some id →
      let base := id.toUInt16
      let diy := editor.pen.context.modes.diy
      ∀ p ∈ (Recorder.apply { editor with taken := [] } words).1.taken,
        (base = 0 → p.cell = Cell.empty) ∧
        (diy = false → base ≠ 0 → p.cell.itemId = base) ∧
        (diy = true → base ≠ 0 → base ≠ Cell.emptyId → p.cell.itemId = Cell.recipeId)) ∧
    ∀ actions,
      let record := Recorder.machine.acts actions { editor with taken := [] }
      let final := machine.acts actions editor
      (∀ p ∈ record.taken, ∀ dx dy, (p.cell.part dx dy).itemId ≠ 0) ∧
      ∀ x y,
        ((∃ p ∈ record.taken, p.Covers x y) →
          ∃ cell, final.layer.get x y = .ok cell ∧ cell.itemId ≠ 0) ∧
        ((¬ ∃ p ∈ record.taken, p.Covers x y) →
          final.layer.get x y = editor.layer.get x y) := by
  have named := named_of_reachable reachable
  refine ⟨?_, itemId_ne_zero_of_covered named⟩
  rintro words item id ⟨command, read, has⟩ known base diy p mem
  rw [taken_of_item? read has known] at mem
  refine ⟨fun zero => ?_, fun plain other => ?_, fun recipes other covered => ?_⟩
  · exact Pen.cell_of_zero named zero p mem
  · exact Pen.itemId_of_plain (pending_of_reachable reachable) plain other p mem
  · exact Pen.itemId_of_diy (teaches_of_reachable reachable) recipes other covered p mem

/-- In `diy` and `variants` mode a recipe is followed by a wide id that has the id of recipes in its
field. The first word is a repeat of that recipe, and the second a repeat of the first. -/
theorem ids_of_written_of_recipes :
    let editor := machine.acts [.apply ["@0,0,16,0,0,1f,diy,hex,variants"], .apply ["5"]]
      { layer := Layer.empty, sizes := StackSizes.empty.insert 0x16A1 3 }
    let item : Item := { token := "216a1|5*2", digits := "216a1", stack := 5, count := 2 }
    let taken := (Recorder.apply { editor with taken := [] } ["2_3", "216a1|5*2"]).1.taken
    editor.Reachable ∧ Command.Asks ["2_3", "216a1|5*2"] item ∧
    item.id? editor.pen.context.modes.hex = some 0x216A1 ∧
    taken.map (·.cell) = [0x16A1, 0x16A1] ∧
    ∀ p ∈ taken, p.cell.itemId = Cell.recipeId := by
  intro editor item taken
  have reachable : editor.Reachable := ⟨_, _, _, rfl⟩
  have read : Command.read ["2_3", "216a1|5*2"] = .ok (.variantItem (.code 2 3) item) := by decide
  have asks : Command.Asks ["2_3", "216a1|5*2"] item := ⟨_, read, rfl⟩
  have known : item.id? editor.pen.context.modes.hex = some 0x216A1 := by decide +kernel
  have diy : editor.pen.context.modes.diy = true := by decide +kernel
  have ids := (ids_of_written reachable).1 _ item _ asks known
  exact ⟨reachable, asks, known, by decide +kernel,
    fun p mem => (ids p mem).2.2 diy (by decide) (by decide)⟩

end Editor

end IslandLayer
