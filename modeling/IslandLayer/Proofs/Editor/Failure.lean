import IslandLayer.Proofs.Editor.Independence
import IslandLayer.Proofs.Pen.Failing

set_option autoImplicit false

namespace IslandLayer

open Script

namespace RunError

/-- The error stands on that line of the script, which comes after the scripts in front. -/
structure Locates (e : RunError) (sources front : List Source) (source : Source) (line : Line) :
    Prop where
  sources : ∃ back, sources = front ++ source :: back
  script : source.name = e.script
  listed : line ∈ Line.ofText source.text
  number : line.number = e.line
  command : e.command = String.intercalate " " line.words

end RunError

namespace Editor

/-- The run succeeds and leaves the same layer and context. -/
structure LeftBy (left : Editor) (run : Editor × Except RunError Summary) : Prop where
  result : ∃ sum, run.2 = .ok sum
  layer : left.layer = run.1.layer
  context : left.pen.context = run.1.pen.context

/-- A line that fails for want of a command or an id leaves the editor as it is. One that the layer
cuts short leaves what it leaves with a smaller count, and the refused word to be remembered. -/
theorem apply_cut_short {editor after : Editor} {words : List String} {cause : EditError}
    (failed : editor.apply words = (after, .error cause)) :
    (∃ e, cause = .command e) ∧ after = editor ∨
      ∃ e, cause = .layer e ∧ ∃ command item id, Command.read words = .ok command ∧
        command.item? = some item ∧ item.id? editor.pen.context.modes.hex = some id ∧
        ∃ fewer < item.count, ∃ part,
          editor.apply (Command.recount fewer words) = (part, .ok ()) ∧
          let refused := part.pen.target id.toUInt16
            ((editor.pen.announce command.variant).pack editor.sizes id item.extra)
          refused.footprint.refusal? = some e ∧
          after = { part with pen := { part.pen with last := some refused.cell } } := by
  have stroke : (editor.pen.follow editor.sizes words).result = .error cause :=
    congrArg Prod.snd failed
  have state : { editor with
      layer := editor.layer.placeAll (editor.pen.follow editor.sizes words).placed
      pen := (editor.pen.follow editor.sizes words).pen } = after := congrArg Prod.fst failed
  rcases Pen.follow_of_error stroke with ⟨idle, command⟩ | ⟨e, layer, command, item, id, read, has,
    known, fewer, less, part⟩
  · refine Or.inl ⟨command, ?_⟩
    rw [← state, idle]
    rfl
  · refine Or.inr ⟨e, layer, command, item, id, read, has, known, fewer, less, _,
      Prod.ext rfl part.result, part.refused, ?_⟩
    rw [← state, part.whole]
    rfl

theorem apply_of_error {editor after : Editor} {words : List String} {cause : EditError}
    (failed : editor.apply words = (after, .error cause)) :
    (∃ e, cause = .command e) ∧ after = editor ∨
      (∃ e, cause = .layer e) ∧ ∃ command item, Command.read words = .ok command ∧
        command.item? = some item ∧ ∃ fewer < item.count, ∃ part,
          editor.apply (Command.recount fewer words) = (part, .ok ()) ∧
          after.layer = part.layer ∧ after.pen.context = part.pen.context := by
  rcases apply_cut_short failed with idle | ⟨e, layer, command, item, id, read, has, -, fewer, less,
    part, drawn, -, rfl⟩
  · exact Or.inl idle
  · exact Or.inr ⟨⟨e, layer⟩, command, item, read, has, fewer, less, part, drawn, rfl, rfl⟩

/-- A run that fails leaves the layer and the context of a shorter run that succeeds, and with it
no block half written. The shorter run ends before the failing line. If the layer has refused an
item of that line, it takes in the line with a smaller count. -/
theorem run_broken_off (editor : Editor) (sources : List Source) {e : RunError}
    (failed : (run sources editor).2 = .error e) :
    (∃ front source line, e.Locates sources front source line ∧
      (∃ sum, (run (front ++ [source.before e.line]) editor).2 = .ok sum) ∧
      match e.cause with
      | .command _ =>
        LeftBy (run sources editor).1 (run (front ++ [source.before e.line]) editor)
      | .layer _ =>
        ∃ command item, Command.read line.words = .ok command ∧ command.item? = some item ∧
        ∃ fewer < item.count,
          let words := Command.recount fewer line.words
          Command.read words = .ok (command.recounted fewer) ∧
          LeftBy (run sources editor).1
            (run (front ++ [(source.before e.line).add words]) editor)) ∧
    Layer.WrittenInBlocks editor.layer (run sources editor).1.layer := by
  constructor
  · obtain ⟨front, source, back, middle, sum, split, before, lines⟩ := Machine.run_of_error failed
    obtain ⟨done, line, rest, last, listed, start, final, located⟩ :=
      Machine.runLines_of_error (congrArg Prod.snd lines)
    rw [lines] at final
    have number : line.number = e.line := (congrArg RunError.line located).symm
    have command : e.command = line.text := congrArg RunError.command located
    have member : line ∈ Line.ofText source.text := listed ▸ by simp
    have cut : machine.runLines source.name (Line.ofText (source.before line.number).text)
        (machine.reset middle) = (last, .ok ()) := by
      rwa [Line.ofText_before listed]
    obtain ⟨total, shorter⟩ := Machine.run_concat (source.before line.number) before cut
    rw [number] at shorter
    refine ⟨front, source, line, ⟨⟨back, split⟩, (congrArg RunError.script located).symm, member,
      number, command⟩, ⟨total, congrArg Prod.snd shorter⟩, ?_⟩
    rcases apply_of_error final with ⟨⟨_, cause⟩, same⟩ | ⟨⟨_, cause⟩, found⟩
    -- The failing line has done nothing, so the lines before it leave the same.
    · rw [cause]
      have left : (run sources editor).1 = (run (front ++ [source.before e.line]) editor).1 :=
        same.trans (congrArg Prod.fst shorter).symm
      exact ⟨⟨total, congrArg Prod.snd shorter⟩, congrArg Editor.layer left,
        congrArg (·.pen.context) left⟩
    · rw [cause]
      -- The failing line has done what it does with a smaller count, written in its place.
      obtain ⟨command, item, read, has, fewer, less, part, drawn, layer, context⟩ := found
      refine ⟨command, item, read, has, fewer, less, Command.read_recount read has fewer, ?_⟩
      let words := Command.recount fewer line.words
      have nonempty : words ≠ [] := by
        rw [← List.length_pos_iff, Command.length_recount, List.length_pos_iff]
        exact Line.words_ne_nil member
      have plain : ∀ word ∈ words, Line.IsWord word :=
        Command.isWord_recount (Line.isWord_of_mem member) fewer
      have extended : machine.runLines source.name
          (Line.ofText ((source.before line.number).add words).text) (machine.reset middle) =
            (part, .ok ()) := by
        rw [Line.ofText_before_add listed nonempty plain]
        exact Machine.runLines_concat start drawn
      obtain ⟨total, longer⟩ :=
        Machine.run_concat ((source.before line.number).add words) before extended
      rw [number] at longer
      exact ⟨⟨total, congrArg Prod.snd longer⟩, layer.trans (congrArg (·.1.layer) longer).symm,
        context.trans (congrArg (·.1.pen.context) longer).symm⟩
  · rw [Recorder.layer_ofRun]
    exact Layer.writtenInBlocks_placeAll _ (Recorder.accounts_ofRun sources editor).fit

/-- A count that runs off the right edge, in the second script and after lines that say nothing. -/
def overrun : List Source :=
  [⟨"hall", "7\n"⟩, ⟨"yard", "# chairs\n@220,0\n\n5*9 # seven too many\n8\n"⟩]

theorem run_broken_off_overrun :
    let start : Editor := { layer := Layer.empty, sizes := StackSizes.empty }
    let refused : RunError := ⟨"yard", 4, "5*9", .layer (.outOfBounds 224 1)⟩
    (run overrun start).2 = .error refused ∧
    ∃ front source line, refused.Locates overrun front source line ∧
      ∃ command item, Command.read line.words = .ok command ∧ command.item? = some item ∧
      ∃ fewer < item.count,
        LeftBy (run overrun start).1
          (run (front ++ [(source.before 4).add (Command.recount fewer line.words)]) start) := by
  intro start refused
  have failed : (run overrun start).2 = .error refused := by decide +kernel
  obtain ⟨⟨front, source, line, located, -, shorter⟩, -⟩ := run_broken_off start overrun failed
  obtain ⟨command, item, read, has, fewer, less, -, left⟩ := shorter
  exact ⟨failed, front, source, line, located, command, item, read, has, fewer, less, left⟩

end Editor

end IslandLayer
