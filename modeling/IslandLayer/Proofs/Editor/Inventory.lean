import IslandLayer.Proofs.DropReport
import IslandLayer.Proofs.Editor.History
import IslandLayer.Proofs.Layer.Inventory
import IslandLayer.Proofs.Pen.Words

set_option autoImplicit false

namespace IslandLayer

namespace Recorder

/-- No word on record, nor the one that the pen remembers, has the id zero. -/
structure Named (r : Recorder) : Prop where
  taken : ∀ p ∈ r.taken, p.cell.itemId ≠ 0
  last : ∀ cell ∈ r.pen.last, cell.itemId ≠ 0

theorem Named.apply {r : Recorder} (named : r.Named) (words : List String) :
    (r.apply words).1.Named := by
  rw [apply_eq]
  have stroke := Pen.writes_follow named.last r.sizes words
  exact ⟨List.forall_mem_append.mpr ⟨named.taken, stroke.placed⟩, stroke.last⟩

theorem Named.reset {r : Recorder} (named : r.Named) : r.reset.Named :=
  ⟨named.taken, fun cell mem => absurd mem (Option.not_mem_none cell)⟩

theorem Named.acts {r : Recorder} (named : r.Named) (actions : List Action) :
    (machine.acts actions r).Named :=
  Machine.acts_keep (fun _ named => named.reset) (fun _ words named => named.apply words) actions
    named

end Recorder

namespace Editor

theorem blockConsistent_acts {editor : Editor} (consistent : editor.layer.BlockConsistent)
    (actions : List Action) : (machine.acts actions editor).layer.BlockConsistent := by
  have accounts := Recorder.accounts_acts editor actions
  rw [Recorder.layer_acts]
  exact consistent.placeAll accounts.fit

/-- On an empty layer no history leaves an item with the id zero. -/
theorem itemId_ne_zero_of_mem_items (sizes : StackSizes) (actions : List Action) :
    ∀ cell ∈ (machine.acts actions { layer := Layer.empty, sizes }).layer.items true,
      cell.itemId ≠ 0 := by
  let start : Editor := { layer := Layer.empty, sizes }
  have named : Recorder.Named (Recorder.machine.acts actions { start with taken := [] }) :=
    Recorder.Named.acts ⟨fun _ mem => absurd mem List.not_mem_nil,
      fun cell mem => absurd mem (Option.not_mem_none cell)⟩ actions
  intro cell mem
  rw [Recorder.layer_acts] at mem
  rcases Layer.mem_items_placeAll (Recorder.accounts_acts start actions).fit mem with
    before | ⟨p, taken, rfl⟩
  · rw [Layer.items_empty] at before
    exact absurd before List.not_mem_nil
  · exact named.taken p taken

/-- An empty layer has whole blocks only and no history breaks one up. On a layer of whole blocks
the inventory holds the anchors in order, and the words of the drop commands are their numerals. -/
theorem inventory_exact :
    Layer.empty.BlockConsistent ∧
    (∀ (editor : Editor) (actions : List Action), editor.layer.BlockConsistent →
      (machine.acts actions editor).layer.BlockConsistent) ∧
    ∀ layer : Layer, layer.BlockConsistent →
      layer.items true = layer.anchors ∧
      layer.placedCount = layer.anchors.length ∧
      ∀ (size : Nat) (marker : String),
        let words := (DropReport.ofItems (layer.items true) size marker).groups.flatten
        words = layer.anchors.map DropReport.word ∧
        words.map (fun word => Numeral.hex? UInt64.size word.toList) =
          layer.anchors.map fun cell => some cell.toNat := by
  refine ⟨Layer.blockConsistent_empty, ?_, ?_⟩
  · intro editor actions consistent
    exact blockConsistent_acts consistent actions
  · intro layer consistent
    have items := consistent.items_eq_anchors
    refine ⟨items, ?_, ?_⟩
    · rw [← layer.length_items true, items]
    · intro size marker words
      have same : words = layer.anchors.map DropReport.word := by
        simp [words, ← items]
      refine ⟨same, ?_⟩
      simp [same, Function.comp_def]

/-- Words with the ids of covered and of free squares, one with more bits above its id, and a count
that runs off the grid. -/
def sentinels : List Action :=
  [.apply ["@0,0,1,0,0,0,hex"], .apply ["fffd|3"], .apply ["1fffe"], .apply ["7"],
    .run [⟨"edge", "@222,0\n5*2\n"⟩]]

theorem inventory_exact_of_sentinels :
    Layer.empty.BlockConsistent ∧
    (machine.acts sentinels ⟨Layer.empty, StackSizes.empty, {}⟩).layer.BlockConsistent ∧
    (machine.acts sentinels ⟨Layer.empty, StackSizes.empty, {}⟩).layer.items true =
      (machine.acts sentinels ⟨Layer.empty, StackSizes.empty, {}⟩).layer.anchors ∧
    ((machine.acts sentinels ⟨Layer.empty, StackSizes.empty, {}⟩).layer.get 0 3).toOption =
      some 0x1FFFE := by
  obtain ⟨start, kept, listed⟩ := inventory_exact
  have drawn := kept ⟨Layer.empty, StackSizes.empty, {}⟩ sentinels start
  exact ⟨start, drawn, (listed _ drawn).1, by decide +kernel⟩

end Editor

end IslandLayer
