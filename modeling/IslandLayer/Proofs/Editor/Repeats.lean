import IslandLayer.Proofs.Editor.Events
import IslandLayer.Proofs.Pen.Repeats
import IslandLayer.Proofs.Script.CommandGrammar

set_option autoImplicit false

namespace IslandLayer

open Script

namespace Editor

/-- What lines place, whether they fail or not. -/
def drawn : List (List String) → Editor → List Drawn
  | [], _ => []
  | words :: rest, editor =>
    editor.pen.drawn editor.sizes words ++ drawn rest (editor.apply words).1

section

variable {lines : List (List String)}
  (same : ∀ words ∈ lines, ∀ context, Command.read words ≠ .ok (.context context))

include same

theorem map_placement_drawn (editor : Editor) :
    (drawn lines editor).map (·.placement) =
      (events (lines.map .apply) editor).flatMap (·.placed) := by
  induction lines generalizing editor with
  | nil => rfl
  | cons words rest ih =>
    obtain ⟨first, others⟩ := List.forall_mem_cons.mp same
    rw [drawn, List.map_append, Pen.map_placement_drawn first, ih others, List.map_cons, events,
      List.flatMap_cons, event_apply]
    rfl

theorem drawn_of_stuck {editor : Editor} {e : LayerError} (stuck : editor.pen.Stuck e) :
    drawn lines editor = [] := by
  induction lines generalizing editor with
  | nil => rfl
  | cons words rest ih =>
    obtain ⟨first, others⟩ := List.forall_mem_cons.mp same
    obtain ⟨last, pending, result, -, idle⟩ := stuck.follow first editor.sizes
    have none : editor.pen.drawn editor.sizes words = [] := by
      rw [← List.map_eq_nil_iff, Pen.map_placement_drawn first, idle]
    have still : (editor.apply words).1.pen.Stuck e := by
      rw [apply, idle]
      exact stuck.of_context rfl
    rw [drawn, none, List.nil_append, ih others still]

/-- Lines place linked words, as long as the pen begins with the word placed last. -/
theorem linked_drawn {editor : Editor} (unannounced : editor.pen.pending = none)
    (on : editor.pen.context.modes.variants = true) {before : Option Cell}
    (remembered : editor.pen.last = before ∨ ∃ e, editor.pen.Stuck e) :
    Drawn.Linked before (drawn lines editor) := by
  induction lines generalizing editor before with
  | nil => trivial
  | cons words rest ih =>
    rcases remembered with rfl | ⟨e, stuck⟩
    · obtain ⟨first, others⟩ := List.forall_mem_cons.mp same
      have like := Pen.packsLike_follow unannounced first editor.sizes
      obtain ⟨linked, last⟩ := Pen.linked_drawn unannounced on first editor.sizes
      rw [drawn, Drawn.linked_append]
      refine ⟨linked, ih others ?_ ?_ last⟩
      · exact like.pending.symm.trans unannounced
      · exact (congrArg (·.variants) like.modes).symm.trans on
    · rw [drawn_of_stuck same stuck]
      trivial

theorem itemId_packed_of_mem_drawn {editor : Editor} (unannounced : editor.pen.pending = none)
    (plain : editor.pen.context.modes.diy = false) :
    ∀ d ∈ drawn lines editor, d.base ≠ 0 → d.packed.itemId = d.base := by
  induction lines generalizing editor with
  | nil => exact fun _ mem => absurd mem List.not_mem_nil
  | cons words rest ih =>
    obtain ⟨first, others⟩ := List.forall_mem_cons.mp same
    have like := Pen.packsLike_follow unannounced first editor.sizes
    rw [drawn, List.forall_mem_append]
    refine ⟨Pen.itemId_packed_of_mem_drawn unannounced plain first editor.sizes, ih others ?_ ?_⟩
    · exact like.pending.symm.trans unannounced
    · exact (congrArg (·.diy) like.modes).symm.trans plain

end

/-- In a context with `variants` mode and without `diy` mode, placements that follow one another may
come from any number of lines, with any stacks, counts and variants. Those that ask for one id all
have the same word from the second on: the id with one bit of the first word, and no stack, texture
or variant flags. The first word is the one that its own command packs, unless a word with that id
has been placed just before it in this context. -/
theorem repeats_settled (editor : Editor) {words : List String} {context : Context}
    (read : Command.read words = .ok (.context context)) (on : context.modes.variants = true)
    (plain : context.modes.diy = false) (lines : List (List String))
    (same : ∀ words ∈ lines, ∀ context, Command.read words ≠ .ok (.context context)) :
    let start := (editor.apply words).1
    (drawn lines start).map (·.placement) =
      (events (lines.map .apply) start).flatMap (·.placed) ∧
    ∀ base front first rest back, base ≠ 0 →
      drawn lines start = front ++ first :: (rest ++ back) →
      (∀ d ∈ first :: rest, d.base = base) →
      (∀ d ∈ rest,
        d.placement.cell = base.toUInt64 ||| first.placement.cell &&& 0x200000 ∧
        d.placement.cell.stackOrVariant = 0 ∧ d.placement.cell.texture = 0 ∧
        d.placement.cell.hasVariant = false) ∧
      ((∀ d ∈ front.getLast?, d.placement.cell.itemId ≠ base) →
        first.placement.cell = first.packed) := by
  intro start
  have begun : start.pen = { context } := by
    show (editor.pen.follow editor.sizes words).pen = _
    rw [Pen.follow_of_read _ _ read, Pen.draw]
  have unannounced : start.pen.pending = none := by rw [begun]
  have forgotten : start.pen.last = none := by rw [begun]
  have variants : start.pen.context.modes.variants = true := by rwa [begun]
  have diy : start.pen.context.modes.diy = false := by rwa [begun]
  refine ⟨map_placement_drawn same start, ?_⟩
  intro base front first rest back named split all
  have linked := linked_drawn same unannounced variants (Or.inl forgotten)
  have packed := itemId_packed_of_mem_drawn same unannounced diy
  obtain ⟨asks, others⟩ := List.forall_mem_cons.mp all
  rw [split, Drawn.linked_append, Drawn.Linked, Drawn.linked_append, asks] at linked
  obtain ⟨-, word, run, -⟩ := linked
  rw [split] at packed
  have id : first.packed.itemId = base := by
    rw [packed first (by simp) (by rwa [asks]), asks]
  constructor
  · have id : first.placement.cell.itemId = base := by
      rw [word]
      exact Cell.itemId_following _ id
    intro d mem
    have repeats : d.placement.cell = Cell.repeated base first.placement.cell :=
      run.settled id others d mem
    have upper : d.placement.cell.upper = 0 := by rw [repeats, Cell.upper_repeated]
    refine ⟨repeats, ?_, ?_, ?_⟩
    · rw [Cell.stackOrVariant_eq, upper]
      rfl
    · rw [Cell.texture_eq, upper]
      rfl
    · rw [repeats, Cell.hasVariant_repeated]
  · intro other
    rw [word]
    apply Cell.following_of_ne
    intro cell before
    rw [Drawn.last, Option.or_none, Option.mem_def, Option.map_eq_some_iff] at before
    obtain ⟨d, last, rfl⟩ := before
    exact other d last

/-- Three items with the id 100 after another one, up to the right edge. A line that is no command
and a count of zero stand between them, and the third comes with a variant and a wide id. -/
theorem repeats_settled_up_to_edge :
    let editor : Editor := { layer := Layer.empty, sizes := StackSizes.empty.insert 100 5 }
    let context : Context := { x := 216, width := 5, flags := 0x21, modes := { variants := true } }
    let start := (editor.apply ["@216,0,5,0,0,21,variants"]).1
    let lines := [["7"], ["100|3*2"], ["zz"], ["8*0"], ["2_3", "65636"], ["NA", "100|9*3"]]
    let front : List Drawn := [⟨7, 0x210007, ⟨216, 0, 0x210007⟩⟩]
    let first : Drawn := ⟨100, 0x200210064, ⟨218, 0, 0x200210064⟩⟩
    let rest : List Drawn :=
      [⟨100, 0x200210064, ⟨220, 0, 0x200064⟩⟩, ⟨100, 0x6200210064, ⟨222, 0, 0x200064⟩⟩]
    Command.read ["@216,0,5,0,0,21,variants"] = .ok (.context context) ∧
    (∀ words ∈ lines, ∀ context, Command.read words ≠ .ok (.context context)) ∧
    drawn lines start = front ++ first :: (rest ++ []) ∧
    (∀ d ∈ rest, d.placement.cell = (100 : UInt16).toUInt64 ||| 0x200210064 &&& 0x200000) ∧
    first.placement.cell = first.packed := by
  intro editor context start lines front first rest
  have read : Command.read ["@216,0,5,0,0,21,variants"] = .ok (.context context) := by decide
  have same : ∀ words ∈ lines, ∀ context, Command.read words ≠ .ok (.context context) := by
    have unmarked : ∀ words ∈ lines, ∀ word ∈ words, word.toList.head? ≠ some '@' := by decide
    exact fun words mem => Command.read_ne_context (unmarked words mem)
  have split : drawn lines start = front ++ first :: (rest ++ []) := by decide +kernel
  have settled := (repeats_settled editor read rfl rfl lines same).2 100 front first rest []
    (by decide) split (by decide)
  exact ⟨read, same, split, fun d mem => (settled.1 d mem).1, settled.2 (by decide)⟩

end Editor

end IslandLayer
