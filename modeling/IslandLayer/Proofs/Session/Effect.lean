import IslandLayer.Proofs.Layer.Binary
import IslandLayer.Proofs.Session.Inputs

set_option autoImplicit false

namespace IslandLayer

namespace Session

section

variable {σ : Type} (volume : Volume σ) (before : σ)

theorem run_of_plan {arguments : Arguments} {answer : Except SessionError Output} :
    (plan volume.disk.read arguments).run.run before = (answer, before) →
    (run volume.disk arguments).run before =
      match answer with
      | .error e => (.error e, before)
      | .ok (.text text) => (.ok text, before)
      | .ok (.file path bytes) =>
        match volume.write before path bytes with
        | .ok after => (.ok "", after)
        | .error e => (.error (.disk path e), before) := by
  intro planned
  rw [run, StateT.run_bind, planned]
  match answer with
  | .error e => rfl
  | .ok (.text text) => rfl
  | .ok (.file path bytes) =>
    change (volume.disk.write path bytes >>= _ : StateM σ _).run before = _
    rw [StateT.run_bind, volume.run_write]
    dsimp only
    cases volume.write before path bytes <;> rfl

/-- A run fails and leaves the files as they are, or it draws all that it has read and then returns
the report or replaces the file for the output. -/
theorem run_on_volume (arguments : Arguments) :
    (∃ e, (run volume.disk arguments).run before = (.error e, before)) ∨
    ∃ inputs : Inputs, inputs.ReadBy (volume.read before) arguments ∧
    ∃ final summary,
      Editor.run inputs.sources { layer := inputs.base, sizes := inputs.sizes } =
        (final, .ok summary) ∧
    ∃ text after, (run volume.disk arguments).run before = (.ok text, after) ∧
      match inputs.settings.output with
      | none => text = reportText inputs.settings final.layer ∧ after = before
      | some path => text = "" ∧ volume.write before path final.layer.save = .ok after := by
  obtain ⟨answer, planned, holds⟩ := observes_plan volume before arguments
  have ended := run_of_plan volume before planned
  cases answer with
  | error e => exact Or.inl ⟨e, ended⟩
  | ok output =>
    obtain ⟨inputs, given, final, summary, drawn, same⟩ := holds output rfl
    subst same
    cases destination : inputs.settings.output with
    | none =>
      rw [outputOf, destination] at ended
      refine Or.inr ⟨inputs, given, final, summary, drawn, _, before, ended, ?_⟩
      rw [destination]
      exact ⟨rfl, rfl⟩
    | some path =>
      rw [outputOf, destination] at ended
      cases written : volume.write before path final.layer.save with
      | error e =>
        simp only [written] at ended
        exact Or.inl ⟨_, ended⟩
      | ok after =>
        simp only [written] at ended
        refine Or.inr ⟨inputs, given, final, summary, drawn, "", after, ended, ?_⟩
        rw [destination]
        exact ⟨rfl, written⟩

/-- The program on any files and any words. If it exits with a failure, nothing is printed and the
files are as they were. If it succeeds it has been asked for help and does nothing to the files, or
it draws the scripts of the configuration and then those of the command line on the base layer, all
as they were before, and either prints the report or replaces the one file for the output, also
where that is one of the files it has read. -/
theorem main_all_or_nothing (words : List String) :
    let outcome := ((main volume.disk words).run before).1
    let after := ((main volume.disk words).run before).2
    (outcome.exit ≠ 0 → outcome.stdout = "" ∧ after = before) ∧
    (outcome.exit = 0 → ∃ arguments, Arguments.read words = .ok arguments ∧
      if arguments.help then after = before
      else ∃ inputs : Inputs, inputs.ReadBy (volume.read before) arguments ∧
        ∃ final summary,
          Editor.run inputs.sources { layer := inputs.base, sizes := inputs.sizes } =
            (final, .ok summary) ∧
          match inputs.settings.output with
          | none => outcome.stdout = reportText inputs.settings final.layer ∧ after = before
          | some path => outcome.stdout = "" ∧ ∃ saved, volume.Replaced before path saved after ∧
              saved.size = 344064 ∧ Layer.load saved = .ok final.layer) := by
  have failing : (1 : UInt32) ≠ 0 := by decide
  unfold main
  split
  · exact ⟨fun _ => ⟨rfl, rfl⟩, fun success => absurd success failing⟩
  · next arguments given =>
    split
    · next help =>
      refine ⟨fun failure => absurd rfl failure, fun _ => ⟨arguments, given, ?_⟩⟩
      rw [if_pos help]
      rfl
    · next help =>
      rw [StateT.run_bind]
      rcases run_on_volume volume before arguments with ⟨e, ended⟩ |
        ⟨inputs, read, final, summary, drawn, text, after, ended, effect⟩
      · rw [ended]
        exact ⟨fun _ => ⟨rfl, rfl⟩, fun success => absurd success failing⟩
      · rw [ended]
        refine ⟨fun failure => absurd rfl failure, fun _ => ⟨arguments, given, ?_⟩⟩
        rw [if_neg help]
        refine ⟨inputs, read, final, summary, drawn, ?_⟩
        cases destination : inputs.settings.output with
        | none =>
          rw [destination] at effect
          exact effect
        | some path =>
          rw [destination] at effect
          obtain ⟨nothing, written⟩ := effect
          exact ⟨nothing, final.layer.save, volume.of_write written, Layer.size_save _,
            Layer.load_save _⟩

end

/-- A script that is its own output. -/
def yard : Files := ⟨[([".", "yard"], .file "@0,0\n5*3\n".toUTF8)]⟩

theorem main_all_or_nothing_in_place :
    let ran := (main Files.disk ["yard", "-o", "yard"]).run yard
    ran.1.exit = 0 ∧ ran.1.stdout = "" ∧
      ∃ saved final, ran.2.bytes? [".", "yard"] = some saved ∧ saved.size = 344064 ∧
        Layer.load saved = .ok final := by
  intro ran
  have success : ran.1.exit = 0 := by decide +kernel
  obtain ⟨-, effect⟩ := main_all_or_nothing Files.volume yard ["yard", "-o", "yard"]
  rw [Files.disk_volume] at effect
  obtain ⟨arguments, given, done⟩ := effect success
  have named : arguments = { scripts := ["yard"], output := some "yard" } :=
    Except.ok.inj (given.symm.trans (by decide))
  subst named
  obtain ⟨⟨config, settings, base, sizes, sources⟩, read, final, -, -, wrote⟩ := done
  have output : settings.output = some "yard" := (Settings.of_resolve read.settings).2
  rw [output] at wrote
  obtain ⟨quiet, saved, ⟨file, leads, stored, -⟩, size, loads⟩ := wrote
  have here : file = [".", "yard"] := Option.some.inj (leads.symm.trans
    (by decide +kernel : (yard.locate "yard").toOption = some [".", "yard"]))
  subst here
  exact ⟨success, quiet, saved, final.layer, stored, size, loads⟩

end Session

end IslandLayer
