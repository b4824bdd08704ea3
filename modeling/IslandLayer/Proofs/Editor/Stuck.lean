import IslandLayer.Proofs.Editor.Events
import IslandLayer.Proofs.Editor.Failure
import IslandLayer.Proofs.Pen.Stuck

set_option autoImplicit false

namespace IslandLayer

open Script

namespace Editor

/-- A line that the layer cuts short leaves the pen at the slot that is refused. -/
theorem stuck_of_refused {editor failed : Editor} {words : List String} {e : LayerError}
    (refused : editor.apply words = (failed, .error (.layer e))) :
    failed.pen.Stuck e ∧ failed.pen.last.isSome := by
  rcases apply_cut_short refused with ⟨⟨_, impossible⟩, -⟩ | ⟨_, same, command, item, id, -, -, -,
    fewer, -, part, -, slot, rfl⟩
  · cases impossible
  · cases same
    exact ⟨slot, rfl⟩

theorem apply_of_stuck {editor : Editor} {e : LayerError} (stuck : editor.pen.Stuck e)
    {words : List String} (same : ∀ context, Command.read words ≠ .ok (.context context)) :
    (editor.apply words).1.layer = editor.layer ∧
      (editor.apply words).1.pen.context = editor.pen.context ∧
      (editor.pen.last.isSome → (editor.apply words).1.pen.last.isSome) := by
  obtain ⟨last, pending, result, remembered, drawn⟩ := stuck.follow same editor.sizes
  simp only [apply, drawn]
  exact ⟨rfl, trivial, remembered⟩

theorem acts_of_stuck {later : List (List String)}
    (same : ∀ words ∈ later, ∀ context, Command.read words ≠ .ok (.context context))
    {editor : Editor} {e : LayerError} (stuck : editor.pen.Stuck e) :
    let final := machine.acts (later.map .apply) editor
    final.layer = editor.layer ∧ final.pen.context = editor.pen.context ∧
      (editor.pen.last.isSome → final.pen.last.isSome) := by
  induction later generalizing editor with
  | nil => exact ⟨rfl, rfl, id⟩
  | cons words rest ih =>
    obtain ⟨first, others⟩ := List.forall_mem_cons.mp same
    obtain ⟨layer, context, last⟩ := apply_of_stuck stuck first
    obtain ⟨restLayer, restContext, restLast⟩ := ih others (stuck.of_context context.symm)
    exact ⟨restLayer.trans layer, restContext.trans context, fun before => restLast (last before)⟩

/-- Once the layer has refused an item, lines that are no context change neither layer nor context,
and each item among them is refused in the same way. The word that is remembered all the while is
one that the layer refuses, and with any other word in its place, or none, every history to come
would show the same and end with the same layer. -/
theorem stuck_after_refusal {editor failed : Editor} {words : List String} {e : LayerError}
    (refused : editor.apply words = (failed, .error (.layer e))) (later : List (List String))
    (same : ∀ words ∈ later, ∀ context, Command.read words ≠ .ok (.context context)) :
    let final := machine.acts (later.map .apply) failed
    final.layer = failed.layer ∧ final.pen.context = failed.pen.context ∧
    (∀ words item id, Command.Asks words item → item.id? final.pen.context.modes.hex = some id →
      1 ≤ item.count → (final.apply words).2 = .error (.layer e)) ∧
    (∃ word, final.pen.last = some word ∧
      final.layer.set final.pen.context.cursor.1 final.pen.context.cursor.2 word = .error e) ∧
    ∀ last actions,
      let other : Editor := { final with pen := { final.pen with last } }
      events actions final = events actions other ∧
      (machine.acts actions final).layer = (machine.acts actions other).layer := by
  intro final
  obtain ⟨stuck, remembered⟩ := stuck_of_refused refused
  obtain ⟨layer, context, last⟩ := acts_of_stuck same stuck
  have still : final.pen.Stuck e := stuck.of_context context.symm
  refine ⟨layer, context, ?_, ?_, ?_⟩
  · intro words item id asks known counted
    exact (Pen.follow_of_refused asks known counted still final.sizes).2
  · obtain ⟨word, some⟩ := Option.isSome_iff_exists.mp (last remembered)
    exact ⟨word, some, Recorder.set_of_refused (p := ⟨_, _, word⟩) final.layer still⟩
  · intro last actions other
    have forgetful : final.pen.Forgetful other.pen := ⟨rfl, rfl, Or.inr ⟨e, still⟩⟩
    have shown : events actions final = events actions other :=
      Pen.bisimulation_forgetful.events_eq actions rfl forgetful
    refine ⟨shown, ?_⟩
    rw [layer_eq_events actions final, layer_eq_events actions other, shown]

/-- A count that runs off the right edge in variants mode. The words refused afterwards are those of
other items, and a count of zero succeeds. -/
theorem stuck_after_refusal_at_edge :
    let editor := machine.acts [.apply ["@220,0,16,0,0,0,variants"]]
      { layer := Layer.empty, sizes := .empty }
    let later := [["2_3", "6"], ["zz"], ["8*0"]]
    let item : Item := { token := "5*2", digits := "5", count := 2 }
    ∃ failed, editor.apply ["5*9"] = (failed, .error (.layer (.outOfBounds 224 1))) ∧
      (∀ words ∈ later, ∀ context, Command.read words ≠ .ok (.context context)) ∧
      let final := machine.acts (later.map .apply) failed
      Command.Asks ["5*2"] item ∧ item.id? final.pen.context.modes.hex = some 5 ∧ 1 ≤ item.count ∧
      final.layer = failed.layer ∧ final.pen.last = some 0x6200000006 ∧
      (final.apply ["5*2"]).2 = .error (.layer (.outOfBounds 224 1)) ∧
      events [.apply ["6"], .apply ["@0,0"], .apply ["6"]] final =
        events [.apply ["6"], .apply ["@0,0"], .apply ["6"]]
          { final with pen := { final.pen with last := none } } := by
  intro editor later item
  have result : (editor.apply ["5*9"]).2 = .error (.layer (.outOfBounds 224 1)) := by decide +kernel
  have refused : editor.apply ["5*9"] =
      ((editor.apply ["5*9"]).1, .error (.layer (.outOfBounds 224 1))) := Prod.ext rfl result
  have same : ∀ words ∈ later, ∀ context, Command.read words ≠ .ok (.context context) := by
    have first : Command.read ["2_3", "6"] =
        .ok (.variantItem (.code 2 3) { token := "6", digits := "6" }) := by decide
    have second : Command.read ["zz"] = .error (.item "zz") := by decide
    have third : Command.read ["8*0"] =
        .ok (.item { token := "8*0", digits := "8", count := 0 }) := by decide
    simp only [later, List.forall_mem_cons, first, second, third]
    exact ⟨nofun, nofun, nofun, nofun⟩
  have read : Command.read ["5*2"] = .ok (.item item) := by decide
  obtain ⟨layer, context, items, -, other⟩ := stuck_after_refusal refused later same
  have known : item.id?
      (machine.acts (later.map .apply) (editor.apply ["5*9"]).1).pen.context.modes.hex = some 5 := by
    rw [context]
    decide +kernel
  exact ⟨_, refused, same, ⟨_, read, rfl⟩, known, by decide, layer, by decide +kernel,
    items _ _ _ ⟨_, read, rfl⟩ known (by decide), (other none _).1⟩

end Editor

end IslandLayer
