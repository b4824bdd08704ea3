import IslandLayer.Proofs.Editor.Recorder
import IslandLayer.Proofs.Pen.Stuck
import IslandLayer.Proofs.Script.Cursor

set_option autoImplicit false

namespace IslandLayer

open Script

namespace Script.Context

/-- What the layer answers to a slot off the grid. -/
def offGridError (context : Context) : LayerError :=
  if context.slot.1 < UInt32.size ∧ context.slot.2 < UInt32.size then
    .outOfBounds (Saturating.clip context.slot.1) (Saturating.clip (context.slot.2 + 1))
  else .unaligned (Saturating.clip context.slot.1) (Saturating.clip context.slot.2)

theorem offGridError_eq_outOfBounds_iff (context : Context) :
    (∃ x y, context.offGridError = .outOfBounds x y) ↔
      context.slot.1 < UInt32.size ∧ context.slot.2 < UInt32.size := by
  unfold offGridError
  split
  · next counted => exact iff_of_true ⟨_, _, rfl⟩ counted
  · next saturated => simp [saturated]

theorem even_slot {context : Context} (even : context.x % 2 = 0 ∧ context.y % 2 = 0) :
    context.slot.1 % 2 = 0 ∧ context.slot.2 % 2 = 0 := by
  simp only [← UInt32.toNat_inj, Layer.toNat_mod_two, UInt32.toNat_zero] at even
  -- Slots are two squares apart on both axes.
  simp only [slot]
  omega

/-- The largest word is odd: an even number that has to be clipped does not stay even. -/
theorem clip_mod_two_iff {n : Nat} (even : n % 2 = 0) :
    Saturating.clip n % 2 = 0 ↔ n < UInt32.size := by
  simp only [← UInt32.toNat_inj, Layer.toNat_mod_two, Saturating.toNat_clip, Saturating.limit,
    UInt32.size, UInt32.toNat_zero]
  omega

theorem refusal?_cursor {context : Context} (even : context.x % 2 = 0 ∧ context.y % 2 = 0)
    (off : ¬ (context.slot.1 < Layer.width ∧ context.slot.2 < Layer.height)) :
    (Footprint.mk context.cursor.1 context.cursor.2 2 2).refusal? = some context.offGridError := by
  obtain ⟨evenColumn, evenRow⟩ := even_slot even
  have clipped : ¬ Layer.OnGrid (Saturating.clip context.slot.1) (Saturating.clip context.slot.2) :=
    fun onGrid => off ((Layer.onGrid_clip_iff _ _).mp onGrid)
  change (Placement.mk context.cursor.1 context.cursor.2 0).footprint.refusal? = _
  rw [cursor_eq, offGridError]
  split
  · next counted =>
    have aligned := counted.imp (clip_mod_two_iff evenColumn).mpr (clip_mod_two_iff evenRow).mpr
    have below : Saturating.add (Saturating.clip context.slot.2) 1 =
        Saturating.clip (context.slot.2 + 1) := by
      simp only [← UInt32.toNat_inj, Saturating.toNat_add, Saturating.toNat_clip, UInt32.toNat_one]
      omega
    rw [Placement.refusal?_of_off_grid aligned clipped, below]
  · next saturated =>
    exact Placement.refusal?_of_odd fun aligned =>
      saturated (aligned.imp (clip_mod_two_iff evenColumn).mp (clip_mod_two_iff evenRow).mp)

end Script.Context

namespace Editor

/-- Under an even anchor, a command whose first slot is off the grid writes nothing, and it is
reported as off the grid exactly if neither coordinate of the slot goes beyond the last word. -/
theorem apply_of_off_grid (editor : Editor) {words : List String} {item : Item}
    (asks : Command.Asks words item) {id : UInt64}
    (known : item.id? editor.pen.context.modes.hex = some id) (counted : 1 ≤ item.count)
    (even : editor.pen.context.x % 2 = 0 ∧ editor.pen.context.y % 2 = 0)
    (off : ¬ (editor.pen.context.slot.1 < Layer.width ∧
      editor.pen.context.slot.2 < Layer.height)) :
    let result := (editor.apply words).2
    (editor.apply words).1.layer = editor.layer ∧
    (Recorder.apply { editor with taken := [] } words).1.taken = [] ∧
    result = .error (.layer editor.pen.context.offGridError) ∧
    ((∃ x y, result = .error (.layer (.outOfBounds x y))) ↔
      editor.pen.context.slot.1 < UInt32.size ∧ editor.pen.context.slot.2 < UInt32.size) := by
  intro result
  obtain ⟨placed, failed⟩ := Pen.follow_of_refused asks known counted
    (Context.refusal?_cursor even off) editor.sizes
  have answered : result = .error (.layer editor.pen.context.offGridError) := failed
  refine ⟨?_, ?_, answered, ?_⟩
  · change editor.layer.placeAll (editor.pen.follow editor.sizes words).placed = editor.layer
    rw [placed]
    rfl
  · rw [Recorder.apply_eq]
    change [] ++ (editor.pen.follow editor.sizes words).placed = []
    rw [placed]
    rfl
  · simp only [answered, Except.error.injEq, EditError.layer.injEq]
    exact editor.pen.context.offGridError_eq_outOfBounds_iff

/-- The second item of a row that starts in the last column of blocks. -/
theorem apply_of_past_last_column :
    let editor := machine.acts [.apply ["@222,190,2,0,1"]] { layer := Layer.empty, sizes := .empty }
    let item : Item := { token := "5*3", digits := "5", count := 3 }
    Command.Asks ["2_3", "5*3"] item ∧ item.id? editor.pen.context.modes.hex = some 5 ∧
    1 ≤ item.count ∧ (editor.pen.context.x % 2 = 0 ∧ editor.pen.context.y % 2 = 0) ∧
    editor.pen.context.slot = (224, 190) ∧
    (editor.apply ["2_3", "5*3"]).1.layer = editor.layer ∧
    ∃ x y, (editor.apply ["2_3", "5*3"]).2 = .error (.layer (.outOfBounds x y)) := by
  intro editor item
  have read : Command.read ["2_3", "5*3"] = .ok (.variantItem (.code 2 3) item) := by decide
  have asks : Command.Asks ["2_3", "5*3"] item := ⟨_, read, rfl⟩
  have known : item.id? editor.pen.context.modes.hex = some 5 := by decide +kernel
  have counted : 1 ≤ item.count := by decide
  have even : editor.pen.context.x % 2 = 0 ∧ editor.pen.context.y % 2 = 0 := by decide +kernel
  have slot : editor.pen.context.slot = (224, 190) := by decide +kernel
  have off : ¬ (editor.pen.context.slot.1 < Layer.width ∧
      editor.pen.context.slot.2 < Layer.height) := by
    rw [slot]
    decide
  obtain ⟨layer, -, -, reported⟩ := apply_of_off_grid editor asks known counted even off
  exact ⟨asks, known, counted, even, slot, layer, reported.mpr (by rw [slot]; decide)⟩

/-- A row that starts at the last even column: its second slot is beyond the last word, and is
refused as an odd coordinate. -/
theorem not_outOfBounds_of_saturated :
    let editor := machine.acts [.apply ["@4294967294,0,2,0,1"]]
      { layer := Layer.empty, sizes := .empty }
    let item : Item := { token := "1", digits := "1" }
    Command.Asks ["1"] item ∧ item.id? editor.pen.context.modes.hex = some 1 ∧ 1 ≤ item.count ∧
    (editor.pen.context.x % 2 = 0 ∧ editor.pen.context.y % 2 = 0) ∧
    editor.pen.context.slot = (4294967296, 0) ∧
    (editor.apply ["1"]).2 = .error (.layer (.unaligned 4294967295 0)) := by
  intro editor item
  have read : Command.read ["1"] = .ok (.item item) := by decide
  exact ⟨⟨_, read, rfl⟩, by decide +kernel, by decide, by decide +kernel, by decide +kernel,
    by decide +kernel⟩

end Editor

end IslandLayer
