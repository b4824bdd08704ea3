import IslandLayer.Proofs.Editor.Machine
import IslandLayer.Proofs.Layer.Binary

set_option autoImplicit false

namespace IslandLayer

open Script

namespace Editor

theorem sizes_run (sources : List Source) (editor : Editor) :
    (editor.run sources).1.sizes = editor.sizes :=
  machine.acts_keep (P := fun e => e.sizes = editor.sizes) (fun _ same => same)
    (fun _ _ same => same) [.run sources] rfl

theorem run_of_pen (sources : List Source) (editor : Editor) (pen : Pen) :
    (run sources { editor with pen }).1.layer = (editor.run sources).1.layer ∧
      (run sources { editor with pen }).2 = (editor.run sources).2 := by
  cases sources with
  | nil => exact ⟨rfl, rfl⟩
  | cons source rest =>
    have same : run (source :: rest) { editor with pen } = editor.run (source :: rest) :=
      machine.run_cons_of_reset_eq rfl source rest
    rw [same]
    exact ⟨rfl, rfl⟩

/-- Drawing two lists of scripts in one run is drawing the first, saving, loading and drawing the
second; if the first fails, the run ends there with all it has left. -/
theorem run_staged (layer : Layer) (sizes : StackSizes) (first second : List Source) :
    let whole := run (first ++ second) { layer, sizes }
    match run first { layer, sizes } with
    | (after, .error e) => whole = (after, .error e)
    | (after, .ok sum) =>
      ∃ loaded, Layer.load after.layer.save = .ok loaded ∧ loaded = after.layer ∧
        let staged := run second { layer := loaded, sizes }
        whole.1.layer = staged.1.layer ∧
          whole.2 = staged.2.map fun more =>
            ⟨sum.sources + more.sources, sum.commands + more.commands⟩ := by
  intro whole
  have appended : whole = _ := machine.run_append first second { layer, sizes }
  have kept := sizes_run first { layer, sizes }
  rcases result : run first { layer, sizes } with ⟨after, outcome⟩
  rw [show machine.run first { layer, sizes } = _ from result] at appended
  rw [result] at kept
  change after.sizes = sizes at kept
  subst kept
  cases outcome with
  | error e => exact appended
  | ok sum =>
    have fresh := run_of_pen second { layer := after.layer, sizes := after.sizes } after.pen
    refine ⟨after.layer, Layer.load_save _, rfl, ?_⟩
    rw [appended]
    exact ⟨fresh.1, congrArg (Except.map _) fresh.2⟩

end Editor

end IslandLayer
