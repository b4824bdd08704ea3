import IslandLayer.Proofs.Editor.Inventory
import IslandLayer.Proofs.Layer.Raster
import IslandLayer.Proofs.Pen.Copying
import IslandLayer.Proofs.Script.Cursor

set_option autoImplicit false

namespace IslandLayer

open Script

namespace Editor

/-- Nothing but `count` words has been read since a sheet was begun, and nothing stacks. -/
structure Fills (editor : Editor) (count : Nat) : Prop where
  sizes : editor.sizes = StackSizes.empty
  context : editor.pen.context = Context.sheet count
  pending : editor.pen.pending = none

namespace Fills

variable {editor : Editor} {k : Nat}

theorem copies (fills : editor.Fills k) : editor.pen.Copies where
  modes := congrArg Context.modes fills.context
  flags := congrArg Context.flags fills.context
  pending := fills.pending

theorem apply (fills : editor.Fills k) (inside : k < 10752) {item : Cell}
    (named : item.itemId ≠ 0) :
    ∃ after, editor.apply [DropReport.word item] = (after, .ok ()) ∧
      after.layer = editor.layer.place (Layer.slot k item) ∧ after.Fills (k + 1) := by
  let slot := Layer.slot k item
  have cursor : editor.pen.context.cursor = (slot.x, slot.y) := by
    rw [fills.context]
    exact Context.cursor_sheet inside
  have fits : slot.Fits := Layer.fits_slot inside item
  have stroke : editor.pen.follow editor.sizes [DropReport.word item] =
      ⟨editor.pen.moved item, [slot], .ok ()⟩ := by
    have copied := fills.copies.follow named (by rwa [cursor])
    rwa [cursor, ← fills.sizes] at copied
  have applied : editor.apply [DropReport.word item] =
      ({ editor with layer := editor.layer.place slot, pen := editor.pen.moved item },
        .ok ()) := by
    rw [Editor.apply, stroke]
    rfl
  have moved : (editor.pen.moved item).context = Context.sheet (k + 1) := by
    change editor.pen.context.advance = _
    rw [fills.context, Context.advance_sheet inside]
  exact ⟨_, applied, rfl, fills.sizes, moved, fills.pending⟩

theorem runLines (fills : editor.Fills k) {items : List Cell}
    (inside : k + items.length ≤ 10752) (named : ∀ item ∈ items, item.itemId ≠ 0)
    (name : String) {lines : List Line}
    (written : lines.map (·.words) = items.map fun item => [DropReport.word item]) :
    ∃ after, machine.runLines name lines editor = (after, .ok ()) ∧
      after.layer = editor.layer.placeAll (Layer.raster k items) := by
  induction items generalizing editor k lines with
  | nil =>
    rw [List.map_nil, List.map_eq_nil_iff] at written
    subst written
    exact ⟨editor, rfl, rfl⟩
  | cons item others ih =>
    rw [List.map_cons] at written
    obtain ⟨line, rest, rfl, words, following⟩ := List.map_eq_cons_iff.mp written
    rw [List.length_cons] at inside
    obtain ⟨first, others_named⟩ := List.forall_mem_cons.mp named
    obtain ⟨middle, applied, placed, filled⟩ := fills.apply (by omega) first
    obtain ⟨after, drawn, layer⟩ := ih filled (by omega) others_named following
    have step : machine.apply editor line.words = (middle, .ok ()) := by
      rw [words]
      exact applied
    refine ⟨after, ?_, ?_⟩
    · rw [Machine.runLines_cons_of_ok step]
      exact drawn
    · rw [layer, placed]
      rfl

end Fills

theorem apply_header (editor : Editor) :
    editor.apply ["@0,0,112,0,0,0,hex"] =
      ({ editor with pen := { context := Context.sheet 0 } }, .ok ()) := by
  have read : Command.read ["@0,0,112,0,0,0,hex"] = .ok (.context (Context.sheet 0)) := by decide
  rw [Editor.apply, editor.pen.follow_of_read editor.sizes read]
  rfl

/-- The words of drop commands, one to a line, under the context of a sheet. -/
def sheetLines (words : List String) : List (List String) :=
  ["@0,0,112,0,0,0,hex"] :: words.map fun word => [word]

theorem isWord_sheetLines (items : List Cell) :
    ∀ words ∈ sheetLines (items.map DropReport.word),
      words ≠ [] ∧ ∀ word ∈ words, Line.IsWord word := by
  have header : Line.IsWord "@0,0,112,0,0,0,hex" := by decide
  intro words mem
  rcases List.mem_cons.mp mem with rfl | listed
  · exact ⟨List.cons_ne_nil _ _, List.forall_mem_singleton.mpr header⟩
  · rw [List.map_map] at listed
    obtain ⟨item, -, rfl⟩ := List.mem_map.mp listed
    exact ⟨List.cons_ne_nil _ _, List.forall_mem_singleton.mpr (DropReport.isWord_word item)⟩

theorem ofText_sheetLines (items : List Cell) :
    ∃ rest, Line.ofText (Line.page (sheetLines (items.map DropReport.word))) =
        ⟨1, ["@0,0,112,0,0,0,hex"]⟩ :: rest ∧
      rest.map (·.words) = items.map fun item => [DropReport.word item] := by
  refine ⟨_, Line.ofText_page (isWord_sheetLines items), ?_⟩
  rw [List.map_map, List.map_map]
  exact List.zipIdx_map_fst 2 _

/-- A sheet of words is drawn to its end, and fills the slots from the first one on. -/
theorem run_sheet (name : String) {items : List Cell} (inside : items.length ≤ 10752)
    (named : ∀ item ∈ items, item.itemId ≠ 0) (layer : Layer) :
    ∃ after, run [⟨name, Line.page (sheetLines (items.map DropReport.word))⟩]
        { layer, sizes := StackSizes.empty } = (after, .ok ⟨1, items.length + 1⟩) ∧
      after.layer = layer.placeAll (Layer.raster 0 items) := by
  let source : Source := ⟨name, Line.page (sheetLines (items.map DropReport.word))⟩
  let start : Editor := { layer, sizes := StackSizes.empty }
  let blank : Editor := { start with pen := { context := Context.sheet 0 } }
  obtain ⟨rest, read, written⟩ := ofText_sheetLines items
  -- Behind the header no slot is filled; each word fills the next.
  have begun : machine.apply start ["@0,0,112,0,0,0,hex"] = (blank, .ok ()) :=
    apply_header start
  have fills : blank.Fills 0 := ⟨rfl, rfl, rfl⟩
  obtain ⟨after, drawn, filled⟩ := fills.runLines (by rwa [Nat.zero_add]) named name written
  have counted : (Line.ofText source.text).length = items.length + 1 := by
    have words := congrArg List.length written
    rw [List.length_map, List.length_map] at words
    rw [read, List.length_cons, words]
  have whole : machine.runLines name (Line.ofText source.text) (machine.reset start) =
      (after, .ok ()) := by
    rw [read, Machine.runLines_cons_of_ok begun]
    exact drawn
  have result : run [source] start = _ := Machine.run_singleton_of_ok whole
  rw [counted] at result
  exact ⟨after, result, filled⟩

/-- A layer that scripts have drawn holds no more items than a sheet takes, and none with the id
zero. Any such list of items is drawn from the words of its drop commands as it is: each item in its
slot, bit for bit, and nothing behind the last one. -/
theorem reimport_exact :
    (∀ (sizes : StackSizes) (sources : List Source),
      let items := (run sources { layer := Layer.empty, sizes }).1.layer.items true
      items.length ≤ 10752 ∧ ∀ item ∈ items, item.itemId ≠ 0) ∧
    ∀ items : List Cell, items.length ≤ 10752 → (∀ item ∈ items, item.itemId ≠ 0) →
      ∀ (name : String) (size : Nat) (marker : String),
        let words := (DropReport.ofItems items size marker).groups.flatten
        let text := Line.page (["@0,0,112,0,0,0,hex"] :: words.map fun word => [word])
        let final := run [⟨name, text⟩] { layer := Layer.empty, sizes := StackSizes.empty }
        final.2 = .ok ⟨1, items.length + 1⟩ ∧
        (∀ (k : Nat) (listed : k < items.length),
          final.1.layer.get (UInt32.ofNat (2 * (k % 112))) (UInt32.ofNat (2 * (k / 112))) =
            .ok items[k]) ∧
        ∀ x y : UInt32, Layer.OnGrid x y →
          items.length ≤ x.toNat / 2 + 112 * (y.toNat / 2) →
          final.1.layer.get x y = .ok Cell.empty := by
  constructor
  · intro sizes sources items
    constructor
    · exact (blockConsistent_acts Layer.blockConsistent_empty [.run sources]).length_items_le
    · exact itemId_ne_zero_of_mem_items sizes [.run sources]
  · intro items inside named name size marker words text final
    have listed : words = items.map DropReport.word :=
      DropReport.flatten_groups_ofItems items size marker
    obtain ⟨after, result, layer⟩ := run_sheet name inside named Layer.empty
    have same : final = (after, .ok ⟨1, items.length + 1⟩) := by
      rw [← result, ← listed]
      rfl
    rw [same]
    refine ⟨rfl, ?_, ?_⟩
    · intro k listed
      rw [layer, Layer.empty.get_raster_slot inside listed]
    · intro x y onGrid behind
      rw [layer, Layer.empty.get_raster inside onGrid, List.getElem?_eq_none behind]
      exact Layer.get_empty onGrid

/-- A short word, a recipe, and words with the ids of free and of covered squares, the last of them
with all its digits. -/
theorem reimport_exact_of_mixed_words :
    let items : List Cell := [0x1, 0x3107000016A1, 0xFFFE, 0xFEDCBA987654FFFD]
    let text := "@0,0,112,0,0,0,hex\n0001\n3107000016A1\nFFFE\nFEDCBA987654FFFD\n"
    let final := run [⟨"drop", text⟩] { layer := Layer.empty, sizes := StackSizes.empty }
    items.length ≤ 10752 ∧ (∀ item ∈ items, item.itemId ≠ 0) ∧
    final.2 = .ok ⟨1, 5⟩ ∧
    final.1.layer.get 6 0 = .ok 0xFEDCBA987654FFFD ∧
    Layer.OnGrid 8 0 ∧ final.1.layer.get 8 0 = .ok Cell.empty := by
  intro items text final
  have inside : items.length ≤ 10752 := by decide
  have named : ∀ item ∈ items, item.itemId ≠ 0 := by
    have all : items.all fun item => item.itemId != 0 := by decide
    simpa using all
  have onGrid : Layer.OnGrid 8 0 := by decide
  obtain ⟨result, slots, behind⟩ := reimport_exact.2 items inside named "drop" 3 "!"
  have written : Line.page (["@0,0,112,0,0,0,hex"] ::
      (DropReport.ofItems items 3 "!").groups.flatten.map fun word => [word]) = text := by
    decide +kernel
  have corner : UInt32.ofNat (2 * (3 % 112)) = 6 ∧ UInt32.ofNat (2 * (3 / 112)) = 0 := by decide
  have drawn : run [⟨"drop", text⟩] { layer := Layer.empty, sizes := StackSizes.empty } = final :=
    rfl
  rw [written, drawn] at result slots behind
  have last := slots 3 (by decide)
  rw [corner.1, corner.2] at last
  exact ⟨inside, named, result, last, onGrid, behind 8 0 onGrid (by decide)⟩

end Editor

end IslandLayer
