import IslandLayer.Cell
import IslandLayer.Text.Numeral

set_option autoImplicit false

namespace IslandLayer

namespace Json

/-- How one character stands in a string. Only control characters, quotes and backslashes are
escaped. -/
def escape (c : Char) : String :=
  if c = '\"' then "\\\""
  else if c = '\\' then "\\\\"
  else if c = '\x08' then "\\b"
  else if c = '\x0c' then "\\f"
  else if c = '\n' then "\\n"
  else if c = '\r' then "\\r"
  else if c = '\t' then "\\t"
  else if c.toNat < 32 then "\\u" ++ String.ofList ((Nat.toDigits 16 c.toNat).leftpad 4 '0')
  else c.toString

def string (text : String) : String := "\"" ++ String.join (text.toList.map escape) ++ "\""

/-- The members of a list or an object between its brackets, at a nesting of `depth` levels. -/
def enclosed (opening closing : String) (depth : Nat) (members : List String) : String :=
  let lineStart (level : Nat) := "\n" ++ "".pushn ' ' (2 * level)
  if members.isEmpty then opening ++ closing
  else
    opening ++ String.intercalate "," (members.map (lineStart (depth + 1) ++ ·)) ++
      lineStart depth ++ closing

def array (depth : Nat) (members : List String) : String := enclosed "[" "]" depth members

/-- An object of named members in the order given. -/
def object (depth : Nat) (members : List (String × String)) : String :=
  enclosed "\x7b" "\x7d" depth (members.map fun (name, value) => string name ++ ": " ++ value)

end Json

structure DropReport where
  /-- The command that stands before the words of each group. -/
  command : String
  groups : List (List String)
  deriving Repr, DecidableEq

namespace DropReport

section

variable {α : Type}

/-- Cuts groups of `size` off the front of a list; `done` holds the ones before, the latest
first. A size of zero counts as one. -/
def cut (size : Nat) (items : List α) (done : List (List α)) : List (List α) :=
  match items with
  | [] => done.reverse
  | item :: rest => cut size (rest.drop (size - 1)) ((item :: rest.take (size - 1)) :: done)
  termination_by items.length

/-- The list in groups of `size`, the last one with what is left. -/
def groupsOf (size : Nat) (items : List α) : List (List α) := cut size items []

theorem cut_eq (size : Nat) (items : List α) (done : List (List α)) :
    cut size items done = done.reverse ++ groupsOf size items := by
  match items with
  | [] => simp [cut, groupsOf]
  | item :: rest =>
    rw [groupsOf, cut, cut, cut_eq size _ (_ :: done), cut_eq size _ [_]]
    simp
  termination_by items.length

@[simp] theorem groupsOf_nil (size : Nat) : groupsOf size ([] : List α) = [] := by
  simp [groupsOf, cut]

@[simp] theorem groupsOf_cons (size : Nat) (item : α) (rest : List α) :
    groupsOf size (item :: rest) =
      (item :: rest.take (size - 1)) :: groupsOf size (rest.drop (size - 1)) := by
  rw [groupsOf, cut, cut_eq]
  rfl

/-- Groups are cut off from the front, so an induction goes from what is behind the first group to
the whole list. -/
@[elab_as_elim]
theorem group_induction (size : Nat) {motive : List α → Prop} (nil : motive [])
    (cons : ∀ item rest, motive (rest.drop (size - 1)) → motive (item :: rest))
    (items : List α) : motive items := by
  match items with
  | [] => exact nil
  | item :: rest => exact cons item rest (group_induction size nil cons (rest.drop (size - 1)))
  termination_by items.length

@[simp] theorem flatten_groupsOf (size : Nat) (items : List α) :
    (groupsOf size items).flatten = items := by
  induction items using group_induction size with
  | nil => simp
  | cons item rest ih => simp [ih]

end

/-- An item in upper-case hexadecimal, with at least four digits. -/
def word (item : Cell) : String := String.ofList (Numeral.upperHex 4 item.toNat)

def ofItems (items : List Cell) (size : Nat) (marker : String) : DropReport :=
  ⟨marker ++ "drop", (groupsOf size items).map (·.map word)⟩

def lines (report : DropReport) : List String :=
  report.groups.map fun group => report.command ++ " " ++ String.intercalate " " group

def json (report : DropReport) : String :=
  Json.object 0 [
    ("command", Json.string report.command),
    ("groups", Json.array 1 (report.groups.map fun group => Json.array 2 (group.map Json.string)))]

end DropReport

end IslandLayer
