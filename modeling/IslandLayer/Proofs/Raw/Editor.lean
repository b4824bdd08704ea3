import IslandLayer.DropReport
import IslandLayer.Proofs.Editor.History
import IslandLayer.Proofs.Raw.Layer
import IslandLayer.Proofs.Raw.Reading
import IslandLayer.Proofs.Script.Cursor

set_option autoImplicit false

namespace IslandLayer

open Script

namespace Raw

def cursor (context : Context) : Except Trap (UInt32 × UInt32) := do
  let width := max context.width 1
  let column ← rem context.offset width
  let row ← div context.offset width
  return (Saturating.add context.x (Saturating.mul column 2),
    Saturating.add context.y (Saturating.mul row 2))

/-- An editor on an array of cells. -/
structure Editor where
  cells : Array Cell
  sizes : StackSizes
  pen : Pen := {}

namespace Editor

def placeFrom (base : UInt16) (count : Nat) (cell : Cell) (editor : Editor) :
    Except Trap (Editor × Except EditError Unit) :=
  match count with
  | 0 => return (editor, .ok ())
  | count + 1 => do
    let cell := editor.pen.next base cell
    let spot ← cursor editor.pen.context
    match ← setFootprint editor.cells ⟨spot.1, spot.2, 2, 2⟩ cell with
    | .error e => return ({ editor with pen.last := some cell }, .error (.layer e))
    | .ok cells =>
      placeFrom base count cell
        { editor with
          cells
          pen := { editor.pen with context := editor.pen.context.advance, last := some cell } }

def drawItem (editor : Editor) (variant : Variant) (item : Item) :
    Except Trap (Editor × Except EditError Unit) :=
  match item.id? editor.pen.context.modes.hex with
  | some id =>
    let pen := editor.pen.announce variant
    placeFrom id.toUInt16 item.count.toNat
      (pen.pack editor.sizes id (if item.stack = 0 then 0 else item.stack - 1))
      { editor with pen := { pen with pending := none } }
  | none => return (editor, .error (.command (.item item.token)))

def apply (editor : Editor) (words : List String) :
    Except Trap (Editor × Except EditError Unit) := do
  match ← readCommand words with
  | .ok .empty => return (editor, .ok ())
  | .ok (.context context) => return ({ editor with pen := { context } }, .ok ())
  | .ok (.item item) => editor.drawItem .absent item
  | .ok (.variantItem variant item) => editor.drawItem variant item
  | .error cause => return (editor, .error (.command cause))

/-- A stopped editor stays stopped. -/
def machine : Machine (Except Trap Editor) where
  reset state := state.map fun editor => { editor with pen := {} }
  apply state words :=
    match state >>= fun editor => editor.apply words with
    | .ok step => (.ok step.1, step.2)
    | .error trap => (.error trap, .ok ())

def ofEditor (editor : IslandLayer.Editor) : Editor :=
  ⟨editor.layer.cells.toArray, editor.sizes, editor.pen⟩

end Editor

def groups {α : Type} (size : Nat) (items : List α) : Except Trap (List (List α)) :=
  if size = 0 then .error .group else .ok (DropReport.groupsOf size items)

def report (items : List Cell) (size : Nat) (marker : String) : Except Trap DropReport := do
  let cut ← groups (max size 1) items
  return ⟨marker ++ "drop", cut.map (·.map DropReport.word)⟩

theorem cursor_eq (context : Context) : cursor context = .ok context.cursor := by
  -- A row is never empty, so nothing is divided by zero.
  have width : max context.width 1 ≠ 0 := by
    rw [ne_eq, ← UInt32.toNat_inj, Context.toNat_max_width, UInt32.toNat_zero]
    omega
  simp only [cursor, rem_of_ne_zero width, div_of_ne_zero width, ok_bind]
  rfl

theorem groupsOf_max {α : Type} (size : Nat) (items : List α) :
    DropReport.groupsOf (max size 1) items = DropReport.groupsOf size items := by
  have same : max size 1 - 1 = size - 1 := by omega
  induction items using DropReport.group_induction size with
  | nil => simp
  | cons item rest ih => simp [same, ih]

theorem report_eq (items : List Cell) (size : Nat) (marker : String) :
    report items size marker = .ok (DropReport.ofItems items size marker) := by
  have positive : max size 1 ≠ 0 := by omega
  rw [report, groups, if_neg positive, groupsOf_max]
  rfl

namespace Editor

/-- One placement after another is made where a recorder makes it, and refused where it is. -/
theorem placeFrom_eq (base : UInt16) (count : Nat) (cell : Cell) (r : Recorder) :
    placeFrom base count cell (ofEditor r.toEditor) =
      .ok (ofEditor (r.placeFrom base count cell).1.toEditor,
        (r.placeFrom base count cell).2) := by
  induction count generalizing cell r with
  | zero => rfl
  | succ count ih =>
    have put : setFootprint r.layer.cells.toArray
        ⟨r.pen.context.cursor.1, r.pen.context.cursor.2, 2, 2⟩ (r.pen.next base cell) =
          .ok ((r.layer.set r.pen.context.cursor.1 r.pen.context.cursor.2
            (r.pen.next base cell)).map (·.cells.toArray)) :=
      setFootprint_eq r.layer _ _
    rw [placeFrom, Recorder.placeFrom]
    simp only [ofEditor, cursor_eq, ok_bind, put]
    cases r.layer.set r.pen.context.cursor.1 r.pen.context.cursor.2 (r.pen.next base cell) with
    | error e => rfl
    | ok layer =>
      let placed := r.pen.target base cell
      exact ih placed.cell
        { r with layer, pen := r.pen.moved placed.cell, taken := r.taken ++ [placed] }

theorem drawItem_eq (variant : Variant) (item : Item) (r : Recorder) :
    (ofEditor r.toEditor).drawItem variant item =
      .ok (ofEditor (r.drawItem variant item).1.toEditor, (r.drawItem variant item).2) := by
  have same : (ofEditor r.toEditor).pen = r.pen := rfl
  rw [drawItem, Recorder.drawItem, same]
  cases item.id? r.pen.context.modes.hex with
  | none => rfl
  | some id =>
    let pen := r.pen.announce variant
    exact placeFrom_eq _ _ _ { r with pen := { pen with pending := none } }

theorem apply_eq (words : List String) (r : Recorder) :
    (ofEditor r.toEditor).apply words =
      .ok (ofEditor (r.apply words).1.toEditor, (r.apply words).2) := by
  rw [apply, readCommand_eq, ok_bind, Recorder.apply]
  cases Command.read words with
  | error cause => rfl
  | ok command =>
    cases command with
    | empty => rfl
    | context context => rfl
    | item item => exact drawItem_eq .absent item r
    | variantItem variant item => exact drawItem_eq variant item r

/-- It is not stopped on any line, and does what a recorder does. -/
theorem related_recorder : Machine.Related machine Recorder.machine fun state r =>
    state = .ok (ofEditor r.toEditor) where
  reset := by
    rintro _ r rfl
    rfl
  apply := by
    rintro _ r rfl words
    simp only [machine, ok_bind, apply_eq]
    exact ⟨rfl, rfl⟩

theorem acts_eq (actions : List Action) (editor : IslandLayer.Editor) :
    machine.acts actions (.ok (ofEditor editor)) =
      .ok (ofEditor (IslandLayer.Editor.machine.acts actions editor)) := by
  rw [← Recorder.toEditor_acts editor actions]
  exact related_recorder.acts actions (t := { editor with taken := [] }) rfl

theorem answers_eq (actions : List Action) (editor : IslandLayer.Editor) :
    machine.answers actions (.ok (ofEditor editor)) =
      IslandLayer.Editor.machine.answers actions editor :=
  (related_recorder.answers actions (t := { editor with taken := [] }) rfl).trans
    (Recorder.related_editor.answers actions rfl)

/-- Nothing stops an editor. Its array keeps the 43008 cells of the layer it was started on through
any history, and every square of it can be read and laid on, with indices that fit their words.
Texts are cut between two of their characters, wherever a class of bytes ends; the cursor divides
by no width of zero, and a report makes no groups of nothing. -/
theorem never_stopped :
    (∀ (editor : IslandLayer.Editor) (actions : List Action),
      let final := IslandLayer.Editor.machine.acts actions editor
      let cells := (ofEditor final).cells
      machine.acts actions (.ok (ofEditor editor)) = .ok (ofEditor final) ∧
      machine.answers actions (.ok (ofEditor editor)) =
        IslandLayer.Editor.machine.answers actions editor ∧
      cells.size = 43008 ∧
      (∀ x y, get cells x y = .ok (final.layer.get x y)) ∧
      ∀ f item, setFootprint cells f item =
        .ok ((final.layer.setFootprint f item).map (·.cells.toArray))) ∧
    (∀ x y : UInt32, ∃ place, offset x y = .ok place ∧
      ∀ i, place = .ok i → i.toNat = 192 * x.toNat + y.toNat ∧ i.toNat < 43008) ∧
    (∀ (accepts : UInt8 → Bool) (text : List Char),
      (String.Pos.Raw.mk (scan accepts text)).IsValid (String.ofList text) ∧
      run accepts text = .ok (run? (ascii accepts) text)) ∧
    (∀ words, readCommand words = .ok (Command.read words)) ∧
    (∀ context, cursor context = .ok context.cursor) ∧
    ∀ items size marker, report items size marker = .ok (DropReport.ofItems items size marker) := by
  refine ⟨?_, ?_, ?_, readCommand_eq, cursor_eq, report_eq⟩
  · intro editor actions final cells
    exact ⟨acts_eq actions editor, answers_eq actions editor, final.layer.cells.size_toArray,
      get_eq final.layer, setFootprint_eq final.layer⟩
  · intro x y
    by_cases onGrid : Layer.OnGrid x y
    · refine ⟨_, offset_of_onGrid onGrid, ?_⟩
      rintro i same
      have index := toNat_index onGrid
      rw [Except.ok.inj same] at index
      rw [index]
      exact ⟨by rw [Layer.index, Nat.mul_comm]; rfl, Layer.index_lt onGrid⟩
    · refine ⟨_, offset_of_not_onGrid onGrid, ?_⟩
      rintro i same
      cases same
  · intro accepts text
    exact ⟨isValid_scan accepts text, run_eq accepts text⟩

end Editor

end Raw

end IslandLayer
