import IslandLayer.Proofs.Editor.History
import IslandLayer.Proofs.Pen.Items
import IslandLayer.Proofs.Script.Slots

set_option autoImplicit false

namespace IslandLayer

open Script

def Placement.spot (p : Placement) : UInt32 × UInt32 := (p.x, p.y)

namespace Script.Command

/-- How many placements the line asks for. -/
def count (words : List String) : Nat :=
  match Command.read words with
  | .ok command => (command.item?.map (·.count.toNat)).getD 0
  | .error _ => 0

def total : List (List String) → Nat
  | [] => 0
  | words :: rest => count words + total rest

theorem Asks.count {words : List String} {item : Item} (asks : Command.Asks words item) :
    Command.count words = item.count.toNat := by
  obtain ⟨command, read, has⟩ := asks
  rw [Command.count, read]
  simp [has]

end Script.Command

/-- The placements take the next `count` slots, and `after` goes on with the slot behind them. -/
structure Script.Context.Takes (context : Context) (count : Nat) (placed : List Placement)
    (after : Context) : Prop where
  spots : placed.map Placement.spot = context.cursors count
  context : after = context.advancedBy count

theorem Script.Context.Takes.none (context : Context) : context.Takes 0 [] context where
  spots := rfl
  context := context.advancedBy_zero.symm

theorem Script.Context.Takes.append {context middle after : Context} {first second : Nat}
    {front back : List Placement} (before : context.Takes first front middle)
    (rest : middle.Takes second back after) :
    context.Takes (first + second) (front ++ back) after where
  spots := by rw [List.map_append, before.spots, rest.spots, before.context, Context.cursors_add]
  context := by rw [rest.context, before.context, Context.advancedBy_advancedBy]

namespace Pen

/-- A count that is not cut short takes one slot for each item. -/
theorem takes_of_placeFrom {base : UInt16} {count : Nat} {cell : Cell} {pen : Pen}
    (done : (placeFrom base count cell pen []).result = .ok ()) :
    pen.context.Takes count (placeFrom base count cell pen []).placed
      (placeFrom base count cell pen []).pen.context := by
  induction count generalizing cell pen with
  | zero => exact .none pen.context
  | succ count ih =>
    cases answer : (pen.target base cell).footprint.refusal? with
    | some e =>
      rw [placeFrom_of_refused answer] at done
      cases done
    | none =>
      rw [placeFrom_of_accepted answer] at done ⊢
      have first : pen.context.Takes 1 [pen.target base cell] pen.context.advance :=
        ⟨pen.context.cursors_one.symm, pen.context.advancedBy_one.symm⟩
      have whole := first.append (ih done)
      rwa [Nat.add_comm] at whole

theorem takes_of_follow {words : List String} {item : Item} (asks : Command.Asks words item)
    {pen : Pen} {sizes : StackSizes} (done : (pen.follow sizes words).result = .ok ()) :
    pen.context.Takes (Command.count words) (pen.follow sizes words).placed
      (pen.follow sizes words).pen.context := by
  obtain ⟨variant, drawn⟩ := follow_of_asks asks pen sizes
  rw [drawn] at done ⊢
  cases known : item.id? pen.context.modes.hex with
  | none =>
    rw [drawItem, known] at done
    cases done
  | some id =>
    rw [drawItem_of_id known, place] at done ⊢
    rw [asks.count, ← pen.context_announce variant]
    exact takes_of_placeFrom done

end Pen

namespace Editor

theorem acts_of_applyAll {lines : List (List String)} {editor final : Editor}
    (succeed : applyAll lines editor = (final, .ok ())) :
    machine.acts (lines.map .apply) editor = final := by
  induction lines generalizing editor with
  | nil =>
    cases succeed
    rfl
  | cons words rest ih =>
    rw [applyAll] at succeed
    rcases applied : editor.apply words with ⟨middle, result⟩
    rw [applied] at succeed
    cases result with
    | error cause => cases succeed
    | ok =>
      have step : machine.act editor (.apply words) = middle := congrArg Prod.fst applied
      rw [List.map_cons, Machine.acts, List.foldl_cons, step]
      exact ih succeed

/-- Items line by line take slot after slot. -/
theorem takes_of_applyAll {lines : List (List String)}
    (asks : ∀ words ∈ lines, ∃ item, Command.Asks words item) {r : Recorder} {final : Editor}
    (succeed : applyAll lines r.toEditor = (final, .ok ())) :
    ∃ placed, (Recorder.machine.acts (lines.map .apply) r).taken = r.taken ++ placed ∧
      r.pen.context.Takes (Command.total lines) placed final.pen.context := by
  induction lines generalizing r with
  | nil =>
    cases succeed
    exact ⟨[], (List.append_nil r.taken).symm, .none r.pen.context⟩
  | cons words rest ih =>
    obtain ⟨⟨item, first⟩, others⟩ := List.forall_mem_cons.mp asks
    let stroke := r.pen.follow r.sizes words
    rw [applyAll, Editor.apply] at succeed
    cases done : stroke.result with
    | error cause =>
      rw [done] at succeed
      cases succeed
    | ok =>
      rw [done] at succeed
      have step : Recorder.machine.act r (.apply words) = r.after stroke :=
        congrArg Prod.fst (r.apply_eq words)
      obtain ⟨placed, record, taken⟩ := ih others (r := r.after stroke) succeed
      refine ⟨stroke.placed ++ placed, ?_, (Pen.takes_of_follow first done).append taken⟩
      rw [List.map_cons, Machine.acts, List.foldl_cons, step, ← List.append_assoc]
      exact record

/-- Lines that ask for items and all succeed make one placement for each item. No two of them are
on the same square exactly if the number of the last slot is a word, and the counter has gone on by
all of them exactly if the number of the slot behind is a word as well. -/
theorem nodup_placements_iff {lines : List (List String)}
    (asks : ∀ words ∈ lines, ∃ item, Command.Asks words item) {editor final : Editor}
    (succeed : applyAll lines editor = (final, .ok ())) :
    let record := Recorder.machine.acts (lines.map .apply) { editor with taken := [] }
    let offset := editor.pen.context.offset.toNat
    let total := Command.total lines
    record.toEditor = final ∧ record.taken.length = total ∧
    ((record.taken.map Placement.spot).Nodup ↔ offset + total ≤ UInt32.size) ∧
    (final.pen.context.offset.toNat = offset + total ↔ offset + total < UInt32.size) := by
  intro record offset total
  obtain ⟨placed, taken, takes⟩ := takes_of_applyAll asks (r := { editor with taken := [] }) succeed
  have same : record.toEditor = final :=
    (Recorder.toEditor_acts editor _).trans (acts_of_applyAll succeed)
  have listed : record.taken.map Placement.spot = editor.pen.context.cursors total := by
    rw [taken]
    exact takes.spots
  have onGrid : ∀ spot ∈ editor.pen.context.cursors total, Layer.OnGrid spot.1 spot.2 := by
    rw [← listed]
    intro spot mem
    obtain ⟨p, recorded, rfl⟩ := List.mem_map.mp mem
    exact ((Recorder.accounts_acts editor _).fit p recorded).2.2
  refine ⟨same, ?_, ?_, ?_⟩
  · simpa using congrArg List.length listed
  · rw [listed]
    exact Context.nodup_cursors_iff onGrid
  · rw [takes.context, Context.toNat_offset_advancedBy]
    simp only [Saturating.limit, UInt32.size, offset, total]
    omega

/-- A recipe, a variant and two items under one context whose rows are of width one. -/
theorem nodup_placements_of_column :
    let editor := machine.acts [.apply ["@2,4,0,0,1,0,diy"]] { layer := .empty, sizes := .empty }
    let lines := [["2000"], ["NA", "5*0"], ["1_2", "7|3*2"]]
    (∀ words ∈ lines, ∃ item, Command.Asks words item) ∧
    ∃ final, applyAll lines editor = (final, .ok ()) ∧ Command.total lines = 3 ∧
      let record := Recorder.machine.acts (lines.map .apply) { editor with taken := [] }
      record.taken.length = 3 ∧ (record.taken.map Placement.spot).Nodup ∧
      final.pen.context.offset.toNat = 1 + 3 := by
  intro editor lines
  have asks : ∀ words ∈ lines, ∃ item, Command.Asks words item := by
    have first : Command.read ["2000"] = .ok (.item { token := "2000", digits := "2000" }) := by
      decide
    have second : Command.read ["NA", "5*0"] =
        .ok (.variantItem .absent { token := "5*0", digits := "5", count := 0 }) := by
      decide
    have third : Command.read ["1_2", "7|3*2"] = .ok (.variantItem (.code 1 2)
        { token := "7|3*2", digits := "7", stack := 3, count := 2 }) := by
      decide
    simp only [lines, List.forall_mem_cons]
    exact ⟨⟨_, _, first, rfl⟩, ⟨_, _, second, rfl⟩, ⟨_, _, third, rfl⟩, by simp⟩
  have done : (applyAll lines editor).2 = .ok () := by decide +kernel
  have succeed : applyAll lines editor = ((applyAll lines editor).1, .ok ()) := Prod.ext rfl done
  have total : Command.total lines = 3 := by decide
  have offset : editor.pen.context.offset.toNat = 1 := by decide +kernel
  obtain ⟨-, length, distinct, counter⟩ := nodup_placements_iff asks succeed
  rw [total, offset] at distinct counter
  rw [total] at length
  exact ⟨asks, _, succeed, total, length, distinct.mpr (by decide), counter.mpr (by decide)⟩

/-- A row of as many slots as there are words has its last slot on the grid, in the first column of
the second row. Both items of a command are placed there, and the counter stays where it is. -/
theorem not_nodup_placements_of_stopped :
    let editor := machine.acts [.apply ["@0,0,4294967295,0,4294967295"]]
      { layer := .empty, sizes := .empty }
    let lines := [["1*2"]]
    let record := Recorder.machine.acts (lines.map .apply) { editor with taken := [] }
    (∃ item, Command.Asks ["1*2"] item) ∧ (applyAll lines editor).2 = .ok () ∧
    editor.pen.context.offset = 4294967295 ∧ Command.total lines = 2 ∧
    record.taken.map Placement.spot = [(0, 2), (0, 2)] ∧
    (applyAll lines editor).1.pen.context.offset = 4294967295 := by
  intro editor lines record
  have read : Command.read ["1*2"] =
      .ok (.item { token := "1*2", digits := "1", count := 2 }) := by
    decide
  exact ⟨⟨_, _, read, rfl⟩, by decide +kernel, by decide +kernel, by decide, by decide +kernel,
    by decide +kernel⟩

end Editor

end IslandLayer
