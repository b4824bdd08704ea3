import IslandLayer.DropReport
import IslandLayer.Proofs.Script.Item
import Mathlib.Data.List.Forall2

set_option autoImplicit false

namespace IslandLayer.DropReport

open Script

@[simp] theorem flatten_groups_ofItems (items : List Cell) (size : Nat) (marker : String) :
    (ofItems items size marker).groups.flatten = items.map word := by
  simp [ofItems, ← List.map_flatten]

theorem isHex_word (item : Cell) : Numeral.isHex (word item).toList := by
  simp [word]

@[simp] theorem hex?_word (item : Cell) :
    Numeral.hex? UInt64.size (word item).toList = some item.toNat := by
  rw [word, String.toList_ofList]
  exact Numeral.hex?_upperHex item.toNat_lt 4

theorem isWord_word (item : Cell) : Line.IsWord (word item) :=
  Item.isWord_of_isHex (isHex_word item)

theorem read_word (item : Cell) :
    Command.read [word item] = .ok (.item { token := word item, digits := word item }) :=
  Command.read_of_isHex (isHex_word item)

/-- All digits of the word go into the id, those above the id field too. -/
@[simp] theorem id?_word (item : Cell) :
    Item.id? { token := word item, digits := word item } true = some item := by
  simp [Item.id?]

section

variable {α : Type} {size : Nat}

@[simp] theorem groupsOf_eq_nil_iff {items : List α} : groupsOf size items = [] ↔ items = [] := by
  cases items with
  | nil => simp
  | cons item rest => simp

/-- No group is empty or too large. -/
theorem length_of_mem_groupsOf (positive : 1 ≤ size) {items : List α} :
    ∀ group ∈ groupsOf size items, 1 ≤ group.length ∧ group.length ≤ size := by
  induction items using group_induction size with
  | nil => simp
  | cons item rest ih =>
    have first : 1 ≤ (item :: rest.take (size - 1)).length ∧
        (item :: rest.take (size - 1)).length ≤ size := by
      rw [List.length_cons, List.length_take]
      omega
    rw [groupsOf_cons]
    exact List.forall_mem_cons.mpr ⟨first, ih⟩

/-- A group is full if another one follows it. -/
theorem length_of_mem_dropLast_groupsOf (positive : 1 ≤ size) {items : List α} :
    ∀ group ∈ (groupsOf size items).dropLast, group.length = size := by
  induction items using group_induction size with
  | nil => simp
  | cons item rest ih =>
    rw [groupsOf_cons]
    by_cases last : groupsOf size (rest.drop (size - 1)) = []
    · simp [last]
    · have more : rest.drop (size - 1) ≠ [] := by simpa using last
      have full : (item :: rest.take (size - 1)).length = size := by
        rw [Ne, List.drop_eq_nil_iff] at more
        rw [List.length_cons, List.length_take]
        omega
      rw [List.dropLast_cons_of_ne_nil last]
      exact List.forall_mem_cons.mpr ⟨full, ih⟩

theorem mapM_map_eq_some {β : Type} {write : α → β} {read? : β → Option α} {items : List α}
    (reads : ∀ item ∈ items, read? (write item) = some item) :
    (items.map write).mapM read? = some items := by
  induction items with
  | nil => rfl
  | cons item rest ih =>
    obtain ⟨first, later⟩ := List.forall_mem_cons.mp reads
    rw [List.map_cons, List.mapM_cons, first, ih later]
    rfl

end

def itemOf? (word : List Char) : Option Cell := (Numeral.hex? UInt64.size word).map UInt64.ofNat

/-- The items that a command names, if it is a drop command with this marker. -/
def itemsOf? (marker line : String) : Option (List Cell) := do
  let words ← line.toList.dropPrefix? (marker ++ "drop ").toList
  (words.splitOn ' ').mapM itemOf?

/-- The word spells the item: it has four digits at least, letters in upper case, and no zero in
front if it has more of them. -/
structure Spells (word : String) (item : Cell) : Prop where
  digits : ∀ c ∈ word.toList, c.isHexDigit ∧ ¬ c.isLower
  wide : 4 ≤ word.length
  filled : word.toList.head? = some '0' → word.length = 4
  read : itemOf? word.toList = some item

@[simp] theorem itemOf?_word (item : Cell) : itemOf? (word item).toList = some item := by
  simp [itemOf?]

theorem spells_word (item : Cell) : Spells (word item) item where
  digits := by
    rw [word, String.toList_ofList]
    exact Numeral.forall_mem_upperHex 4 item.toNat
  wide := by
    rw [word, String.length_ofList, Numeral.length_upperHex]
    exact Nat.le_max_left ..
  filled zero := by
    rw [word, String.toList_ofList] at zero
    rw [word, String.length_ofList]
    exact Numeral.length_upperHex_of_head? (by decide) zero
  read := itemOf?_word item

theorem space_not_mem_word (item : Cell) : ' ' ∉ (word item).toList := fun mem =>
  absurd ((spells_word item).digits ' ' mem).1 (by decide)

/-- The spaces between its words tell the words of a group apart. -/
theorem splitOn_words {group : List Cell} (nonempty : group ≠ []) :
    ([' '].intercalate (group.map fun item => (word item).toList)).splitOn ' ' =
      group.map fun item => (word item).toList := by
  apply List.splitOn_intercalate
  · intro piece mem
    obtain ⟨item, -, rfl⟩ := List.mem_map.mp mem
    exact space_not_mem_word item
  · simpa using nonempty

def line (marker : String) (group : List Cell) : String :=
  marker ++ "drop" ++ " " ++ String.intercalate " " (group.map word)

theorem lines_ofItems (items : List Cell) (size : Nat) (marker : String) :
    (ofItems items size marker).lines = (groupsOf size items).map (line marker) := by
  simp [lines, ofItems, line]

theorem toList_line (marker : String) (group : List Cell) :
    (line marker group).toList = (marker ++ "drop ").toList ++
      [' '].intercalate (group.map fun item => (word item).toList) := by
  simp [line, String.toList_intercalate, Function.comp_def]

theorem itemsOf?_line (marker : String) {group : List Cell} (nonempty : group ≠ []) :
    itemsOf? marker (line marker group) = some group := by
  have behind : (line marker group).toList.dropPrefix? (marker ++ "drop ").toList =
      some ([' '].intercalate (group.map fun item => (word item).toList)) := by
    rw [toList_line]
    exact List.dropPrefix?_append_of_beq _ (beq_self_eq_true _)
  rw [itemsOf?, behind, Option.bind_eq_bind, Option.bind_some, splitOn_words nonempty]
  exact mapM_map_eq_some (by simp)

/-- Line by line the commands of a report name the groups of its items. -/
theorem mapM_itemsOf?_lines {size : Nat} (positive : 1 ≤ size) (items : List Cell)
    (marker : String) :
    (ofItems items size marker).lines.mapM (itemsOf? marker) = some (groupsOf size items) := by
  rw [lines_ofItems]
  apply mapM_map_eq_some
  intro group mem
  have counted := (length_of_mem_groupsOf positive group mem).1
  exact itemsOf?_line marker (List.ne_nil_of_length_pos counted)

/-- A report loses nothing. All groups are full but the last one, which holds what is left, the
words spell the items one for one, and the lines name the items in order. -/
theorem ofItems_lossless {size : Nat} (positive : 1 ≤ size) (items : List Cell)
    (marker : String) :
    let report := ofItems items size marker
    (∀ group ∈ report.groups.dropLast, group.length = size) ∧
    (∀ group ∈ report.groups.getLast?, 1 ≤ group.length ∧ group.length ≤ size) ∧
    (report.groups = [] ↔ items = []) ∧
    List.Forall₂ Spells report.groups.flatten items ∧
    (report.lines.mapM (itemsOf? marker)).map List.flatten = some items := by
  intro report
  have groups : report.groups = (groupsOf size items).map (·.map word) := rfl
  refine ⟨?full, ?last, ?empty, ?words, ?lines⟩
  case full =>
    rw [groups, ← List.map_dropLast]
    intro group mem
    obtain ⟨cut, listed, rfl⟩ := List.mem_map.mp mem
    rw [List.length_map]
    exact length_of_mem_dropLast_groupsOf positive cut listed
  case last =>
    rw [groups]
    intro group mem
    obtain ⟨cut, listed, rfl⟩ := List.mem_map.mp (List.mem_of_getLast? mem)
    rw [List.length_map]
    exact length_of_mem_groupsOf positive cut listed
  case empty => simp [groups]
  case words =>
    rw [flatten_groups_ofItems, List.forall₂_map_left_iff, List.forall₂_same]
    exact fun item _ => spells_word item
  case lines =>
    rw [mapM_itemsOf?_lines positive, Option.map_some, flatten_groupsOf]

/-- Words with and without zeros in front, one that takes all its digits, and a last group that is
not full. -/
theorem ofItems_lossless_of_mixed_words :
    let items : List Cell := [0xBAD, 0x16A1, 0x500000100, 0x7, 0xFEDCBA987654FFFD]
    let lines := ["!drop 0BAD 16A1", "!drop 500000100 0007", "!drop FEDCBA987654FFFD"]
    1 ≤ 2 ∧ (ofItems items 2 "!").lines = lines ∧
    (∀ group ∈ (ofItems items 2 "!").groups.dropLast, group.length = 2) ∧
    List.Forall₂ Spells ["0BAD", "16A1", "500000100", "0007", "FEDCBA987654FFFD"] items ∧
    (lines.mapM (itemsOf? "!")).map List.flatten = some items := by
  intro items lines
  have written : (ofItems items 2 "!").lines = lines := by decide +kernel
  have words : (ofItems items 2 "!").groups.flatten =
      ["0BAD", "16A1", "500000100", "0007", "FEDCBA987654FFFD"] := by decide +kernel
  obtain ⟨full, -, -, spelled, named⟩ := ofItems_lossless (by decide : 1 ≤ 2) items "!"
  rw [words] at spelled
  rw [written] at named
  exact ⟨by decide, written, full, spelled, named⟩

end IslandLayer.DropReport
