import IslandLayer.Proofs.Editor.Failure
import IslandLayer.Proofs.Pen.Packing

set_option autoImplicit false

namespace IslandLayer

open Script

namespace Editor

/-- A line that fails before it places anything changes nothing. A line that the layer cuts short
changes what the same line with some smaller count does, which succeeds; the layer has refused the
next word at the cursor then, and that word is remembered, but no variant. -/
theorem apply_failed_exact {editor after : Editor} {words : List String} {cause : EditError}
    (failed : editor.apply words = (after, .error cause)) :
    match cause with
    | .command _ => after = editor
    | .layer e =>
      ∃ command item id, Command.read words = .ok command ∧ command.item? = some item ∧
        item.id? editor.pen.context.modes.hex = some id ∧
        ∃ fewer < item.count, ∃ part : Editor,
          Command.read (Command.recount fewer words) = .ok (command.recounted fewer) ∧
          editor.apply (Command.recount fewer words) = (part, .ok ()) ∧
          after.layer = part.layer ∧ after.pen.context = part.pen.context ∧
          let packed := (editor.pen.announce command.variant).pack editor.sizes id item.extra
          let word := part.pen.next id.toUInt16 packed
          part.layer.set part.pen.context.cursor.1 part.pen.context.cursor.2 word =
            .error e ∧
          after.pen.last = some word ∧ after.pen.pending = none := by
  rcases apply_cut_short failed with ⟨⟨e, rfl⟩, same⟩ | ⟨e, rfl, command, item, id, read, has,
    known, fewer, less, part, drawn, refused, left⟩
  · exact same
  · have unannounced : (editor.apply words).1.pen.pending = none := by
      change (editor.pen.follow editor.sizes words).pen.pending = none
      rw [Pen.follow_of_read _ _ read, Pen.draw_of_item? has]
      exact Pen.pending_drawItem known _ _
    rw [failed] at unannounced
    refine ⟨command, item, id, read, has, known, fewer, less, part,
      Command.read_recount read has fewer, drawn, ?_, ?_, ?_, ?_, unannounced⟩
    · rw [left]
    · rw [left]
    · exact Recorder.set_of_refused part.layer refused
    · rw [left]
      rfl

/-- Repeats with a variant up to the right edge. Three are placed; the fourth is refused, and it is
the word of the repeat that is remembered. -/
theorem apply_failed_exact_at_edge :
    let editor := machine.acts [.apply ["@218,0,16,0,0,21,hex,variants"]]
      { layer := Layer.empty, sizes := StackSizes.empty.insert 10 7 }
    let line := ["1_2", "a|3*9"]
    let after := (editor.apply line).1
    editor.apply line = (after, .error (.layer (.outOfBounds 224 1))) ∧
    after.pen.last = some 0x20000A ∧
    ∃ command item id, Command.read line = .ok command ∧ command.item? = some item ∧
      item.id? editor.pen.context.modes.hex = some id ∧
      ∃ fewer < item.count, ∃ part : Editor,
        editor.apply (Command.recount fewer line) = (part, .ok ()) ∧
        after.layer = part.layer ∧ after.pen.context = part.pen.context ∧
        part.layer.set part.pen.context.cursor.1 part.pen.context.cursor.2 0x20000A =
          .error (.outOfBounds 224 1) ∧
        after.pen.pending = none := by
  intro editor line after
  have result : (editor.apply line).2 = .error (.layer (.outOfBounds 224 1)) := by decide +kernel
  have failed : editor.apply line = (after, .error (.layer (.outOfBounds 224 1))) :=
    Prod.ext rfl result
  have repeated : after.pen.last = some 0x20000A := by decide +kernel
  obtain ⟨command, item, id, read, has, known, fewer, less, part, -, drawn, layer, context, set,
    last, pending⟩ := apply_failed_exact failed
  rw [Option.some.inj (last.symm.trans repeated)] at set
  exact ⟨failed, repeated, command, item, id, read, has, known, fewer, less, part, drawn, layer,
    context, set, pending⟩

end Editor

end IslandLayer
