import IslandLayer.Proofs.Editor.Recorder

set_option autoImplicit false

namespace IslandLayer

namespace Recorder

theorem accounts_acts (editor : Editor) (actions : List Action) :
    Accounts editor.layer (machine.acts actions { editor with taken := [] }) :=
  Machine.acts_keep (fun _ accounts => ⟨accounts.layer, accounts.fit⟩)
    (fun _ words accounts => accounts.apply words) actions (.start editor)

theorem toEditor_acts (editor : Editor) (actions : List Action) :
    (machine.acts actions { editor with taken := [] }).toEditor =
      Editor.machine.acts actions editor :=
  related_editor.acts actions rfl

/-- Failures leave no trace on the layer but what was placed before them. -/
theorem layer_acts (editor : Editor) (actions : List Action) :
    (Editor.machine.acts actions editor).layer =
      editor.layer.placeAll (machine.acts actions { editor with taken := [] }).taken := by
  rw [← toEditor_acts]
  exact (accounts_acts editor actions).layer

end Recorder

namespace Editor

/-- The editor was given a layer and stack sizes, and has been used in any way since. -/
def Reachable (editor : Editor) : Prop :=
  ∃ layer sizes actions, machine.acts actions { layer, sizes } = editor

/-- What holds of a new editor and is kept by every reset and every line, whether it fails or not,
holds of every editor that can be reached. -/
theorem Reachable.keep {P : Editor → Prop} (new : ∀ layer sizes, P { layer, sizes })
    (reset : ∀ editor, P editor → P editor.reset)
    (apply : ∀ editor words, P editor → P (editor.apply words).1) {editor : Editor}
    (reachable : editor.Reachable) : P editor := by
  obtain ⟨layer, sizes, actions, rfl⟩ := reachable
  exact machine.acts_keep reset apply actions (new layer sizes)

theorem Reachable.acts {editor : Editor} (reachable : editor.Reachable) (actions : List Action) :
    (machine.acts actions editor).Reachable := by
  obtain ⟨layer, sizes, before, rfl⟩ := reachable
  exact ⟨layer, sizes, before ++ actions, machine.acts_append before actions _⟩

/-- Every accepted placement is anchored on an even square of the grid, and in the end each block
shows the last one anchored there, or what it held at the start if there is none. -/
theorem get_acts_eq_lastOn (editor : Editor) (actions : List Action) :
    let record := Recorder.machine.acts actions { editor with taken := [] }
    let final := machine.acts actions editor
    record.toEditor = final ∧
    (∀ p ∈ record.taken, p.x % 2 = 0 ∧ p.y % 2 = 0 ∧ Layer.OnGrid p.x p.y) ∧
    ∀ x y, final.layer.get x y =
      match Layer.lastOn record.taken x y with
      | none => editor.layer.get x y
      | some cell =>
        .ok (if x = Layer.corner x ∧ y = Layer.corner y then cell
          else cell.extension (x % 2).toUInt8 (y % 2).toUInt8) := by
  intro record final
  have same : record.toEditor = final := Recorder.toEditor_acts editor actions
  have accounts : Recorder.Accounts editor.layer record := Recorder.accounts_acts editor actions
  refine ⟨same, accounts.fit, ?_⟩
  intro x y
  have layer : final.layer = editor.layer.placeAll record.taken :=
    Recorder.layer_acts editor actions
  rw [layer, Layer.get_placeAll _ accounts.fit]
  cases Layer.lastOn record.taken x y with
  | none => rfl
  | some cell => simp only [Cell.part, Layer.eq_corner_iff]

/-- A count that runs off the grid stops there, and so does everything after it. -/
example :
    (Recorder.machine.acts [.apply ["@220,0"], .apply ["5*9"], .apply ["6"]]
      { layer := Layer.empty, sizes := StackSizes.empty }).taken =
        [⟨220, 0, 5⟩, ⟨222, 0, 5⟩] := by
  decide +kernel

end Editor

end IslandLayer
