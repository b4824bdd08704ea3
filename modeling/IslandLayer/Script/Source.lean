import IslandLayer.Text.Layout

set_option autoImplicit false

namespace IslandLayer.Script

/-- One line of a script that has words. -/
structure Line where
  /-- Counts all physical lines from one. -/
  number : Nat
  words : List String
  deriving Repr, DecidableEq

namespace Line

/-- The words of the line with one space between them. -/
def text (line : Line) : String := String.intercalate " " line.words

/-- The words of a physical line before any comment. -/
def wordsOf (physical : List Char) : List (List Char) := Text.words (physical.takeWhile (· ≠ '#'))

/-- All lines with words, in order. -/
def ofText (text : String) : List Line :=
  ((Text.lines text.toList).zipIdx 1).filterMap fun (physical, number) =>
    match wordsOf physical with
    | [] => none
    | words => some ⟨number, words.map String.ofList⟩

theorem words_ne_nil {text : String} {line : Line} (mem : line ∈ ofText text) :
    line.words ≠ [] := by
  obtain ⟨⟨physical, number⟩, -, read⟩ := List.mem_filterMap.1 mem
  dsimp only at read
  split at read
  · contradiction
  · next words nonempty =>
    cases read
    simpa using nonempty

end Line

/-- A script with the name under which it is reported. -/
structure Source where
  name : String
  text : String
  deriving Repr, DecidableEq

end IslandLayer.Script
