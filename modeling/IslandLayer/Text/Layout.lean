set_option autoImplicit false

namespace IslandLayer.Text

/-- The characters with the property White_Space. -/
def isBlank (c : Char) : Bool :=
  ('\t' ≤ c && c ≤ '\r') || c == ' ' || c == '\u0085' || c == '\u00a0' || c == '\u1680' ||
    ('\u2000' ≤ c && c ≤ '\u200a') || c == '\u2028' || c == '\u2029' || c == '\u202f' ||
    c == '\u205f' || c == '\u3000'

/-- The longest stretches without white space, in order. -/
def words (text : List Char) : List (List Char) := (text.splitOnP isBlank).filter (· ≠ [])

/-- The text without the white space at either end. -/
def trim (text : List Char) : List Char :=
  ((text.dropWhile isBlank).reverse.dropWhile isBlank).reverse

theorem ne_nil_of_mem_words {text word : List Char} (mem : word ∈ words text) : word ≠ [] := by
  simpa using (List.mem_filter.1 mem).2

@[simp] theorem words_nil : words [] = [] := rfl

/-- Words end at white space and start again after it. -/
theorem words_append_cons {c : Char} (blank : isBlank c) (front back : List Char) :
    words (front ++ c :: back) = words front ++ words back := by
  unfold words
  rw [List.splitOnP_append_cons front back blank, List.filter_append]

/-- Text without white space is one word. -/
theorem words_of_solid {word : List Char} (nonempty : word ≠ [])
    (solid : ∀ c ∈ word, isBlank c = false) : words word = [word] := by
  rw [words, List.splitOnP_eq_singleton (by simpa using solid)]
  simp [nonempty]

/-- The line without the carriage return that belongs to its ending. -/
def dropReturn (line : List Char) : List Char :=
  if line.getLast? = some '\r' then line.dropLast else line

def lines (text : List Char) : List (List Char) :=
  let parts := text.splitOn '\n'
  let rest := parts.getLastD []
  parts.dropLast.map dropReturn ++ if rest = [] then [] else [rest]

@[simp] theorem lines_nil : lines [] = [] := rfl

theorem lines_append_feed {line : List Char} (unbroken : '\n' ∉ line) (rest : List Char) :
    lines (line ++ '\n' :: rest) = dropReturn line :: lines rest := by
  have first : (line ++ '\n' :: rest).splitOn '\n' = line :: rest.splitOn '\n' := by
    rw [List.splitOn_eq_splitOnP, List.splitOn_eq_splitOnP, List.splitOnP_append_cons _ _ (by simp),
      List.splitOnP_eq_singleton]
    · rfl
    · intro c mem
      exact beq_false_of_ne fun same => unbroken (same ▸ mem)
  have more : rest.splitOn '\n' ≠ [] := by
    rw [List.splitOn_eq_splitOnP]
    exact List.splitOnP_ne_nil _ _
  obtain ⟨second, others, parts⟩ := List.exists_cons_of_ne_nil more
  simp [lines, first, parts, List.getLastD]

/-- Text without a line feed is one line, unless it is empty. -/
theorem lines_of_unbroken {line : List Char} (nonempty : line ≠ []) (unbroken : '\n' ∉ line) :
    lines line = [line] := by
  have whole : line.splitOn '\n' = [line] := by
    rw [List.splitOn_eq_splitOnP, List.splitOnP_eq_singleton]
    intro c mem
    exact beq_false_of_ne fun same => unbroken (same ▸ mem)
  simp [lines, whole, nonempty]

end IslandLayer.Text
