import IslandLayer.Proofs.Script.Line

set_option autoImplicit false

namespace IslandLayer.Script

/-- White space that stays on its line. -/
def IsGap (gap : List Char) : Prop := ∀ c ∈ gap, Text.isBlank c ∧ c ≠ '\n'

/-- A text with these words in this order, white space between any two of them, and perhaps white
space at either end. -/
inductive Spread : List String → List Char → Prop where
  | blank {gap : List Char} (white : IsGap gap) : Spread [] gap
  /-- What follows a word begins with white space, if there is anything. -/
  | word {gap rest : List Char} {word : String} {words : List String} (white : IsGap gap)
      (solid : Line.IsWord word) (apart : ∀ c ∈ rest.head?, Text.isBlank c)
      (spread : Spread words rest) : Spread (word :: words) (gap ++ (word.toList ++ rest))

/-- A physical line as it is written, up to its ending. -/
structure Row where
  words : List String
  /-- All that stands before the comment. -/
  code : List Char
  spread : Spread words code
  comment : Option (List Char)
  unbroken : ∀ text ∈ comment, '\n' ∉ text

/-- How a physical line ends. -/
inductive Ending where
  | feed
  | returnFeed

namespace Row

def chars (row : Row) : List Char := row.code ++ row.comment.elim [] ('#' :: ·)

end Row

namespace Ending

def chars : Ending → List Char
  | feed => ['\n']
  | returnFeed => ['\r', '\n']

end Ending

/-- Physical lines with their endings. The last line does without its ending unless the text is
closed. -/
def join (closed : Bool) : List (List Char × Ending) → List Char
  | [] => []
  | [row] => if closed then row.1 ++ row.2.chars else row.1
  | row :: next :: rest => row.1 ++ (row.2.chars ++ join closed (next :: rest))

namespace Spread

variable {words : List String} {code : List Char}

theorem words_eq (spread : Spread words code) : Text.words code = words.map String.toList := by
  induction spread with
  | @blank gap white =>
    have none := Text.words_append_of_blank (fun c mem => (white c mem).1) []
    rwa [List.append_nil] at none
  | word white solid apart spread ih =>
    obtain ⟨nonempty, chars⟩ := Line.isWord_iff.mp solid
    rw [Text.words_append_of_blank fun c mem => (white c mem).1,
      Text.words_append_of_solid nonempty (fun c mem => (chars c mem).1) apart, ih, List.map_cons]

theorem plain (spread : Spread words code) : ∀ c ∈ code, c ≠ '#' ∧ c ≠ '\n' := by
  have gap {gap : List Char} (white : IsGap gap) (c : Char) (mem : c ∈ gap) :
      c ≠ '#' ∧ c ≠ '\n' := by
    obtain ⟨blank, stays⟩ := white c mem
    refine ⟨?_, stays⟩
    rintro rfl
    exact absurd blank (by decide)
  induction spread with
  | blank white => exact gap white
  | word white solid apart spread ih =>
    intro c mem
    rcases List.mem_append.mp mem with before | mem
    · exact gap white c before
    rcases List.mem_append.mp mem with inside | after
    · obtain ⟨kept, other⟩ := solid.2 c inside
      refine ⟨other, ?_⟩
      rintro rfl
      exact absurd kept (by decide)
    · exact ih c after

theorem cons_of_blank {c : Char} (blank : Text.isBlank c) (stays : c ≠ '\n')
    (spread : Spread words code) : Spread words (c :: code) := by
  have wider {gap : List Char} (white : IsGap gap) : IsGap (c :: gap) :=
    List.forall_mem_cons.mpr ⟨⟨blank, stays⟩, white⟩
  cases spread with
  | blank white => exact .blank (wider white)
  | word white solid apart spread => exact .word (wider white) solid apart spread

theorem exists_cons_of_solid {c : Char} (kept : Text.isBlank c = false) (other : c ≠ '#')
    (spread : Spread words code) : ∃ more, Spread more (c :: code) := by
  have joined {rest : List Char} (solid : ∀ d ∈ rest, Text.isBlank d = false ∧ d ≠ '#') :
      Line.IsWord (String.ofList (c :: rest)) := by
    rw [Line.isWord_iff, String.toList_ofList]
    exact ⟨List.cons_ne_nil c rest, List.forall_mem_cons.mpr ⟨⟨kept, other⟩, solid⟩⟩
  have before {rest : List Char} {words : List String} (apart : ∀ d ∈ rest.head?, Text.isBlank d)
      (spread : Spread words rest) : Spread (String.ofList [c] :: words) (c :: rest) := by
    have first := @Spread.word [] _ _ _ nofun (joined (List.forall_mem_nil _)) apart spread
    rwa [String.toList_ofList] at first
  cases spread with
  | blank white =>
    exact ⟨_, before (fun d mem => (white d (List.mem_of_mem_head? mem)).1) (.blank white)⟩
  | @word gap rest word words white solid apart spread =>
    cases gap with
    | nil =>
      have longer :=
        @Spread.word [] _ _ _ nofun (joined (Line.isWord_iff.mp solid).2) apart spread
      rw [String.toList_ofList] at longer
      exact ⟨_, longer⟩
    | cons d gap =>
      have first : ∀ e ∈ (d :: gap ++ (word.toList ++ rest)).head?, Text.isBlank e := by
        rintro e mem
        cases mem
        exact (white d List.mem_cons_self).1
      exact ⟨_, before first (.word white solid apart spread)⟩

/-- Any text without a comment and a line feed consists of words and white space. -/
theorem exists_of_plain {code : List Char} (plain : ∀ c ∈ code, c ≠ '#' ∧ c ≠ '\n') :
    ∃ words, Spread words code := by
  induction code with
  | nil => exact ⟨[], .blank nofun⟩
  | cons c code ih =>
    obtain ⟨other, stays⟩ := plain c List.mem_cons_self
    obtain ⟨words, spread⟩ := ih fun d mem => plain d (List.mem_cons_of_mem c mem)
    cases kind : Text.isBlank c with
    | true => exact ⟨words, spread.cons_of_blank kind stays⟩
    | false => exact spread.exists_cons_of_solid kind other

end Spread

namespace Row

/-- Any physical line is written as some row. -/
theorem exists_chars_eq {physical : List Char} (unbroken : '\n' ∉ physical) :
    ∃ row : Row, row.chars = physical := by
  have plain : ∀ c ∈ physical.takeWhile (· ≠ '#'), c ≠ '#' ∧ c ≠ '\n' := by
    intro c mem
    have kept := List.all_eq_true.mp List.all_takeWhile c mem
    refine ⟨by simpa using kept, ?_⟩
    rintro rfl
    exact unbroken ((List.takeWhile_prefix _).subset mem)
  obtain ⟨words, spread⟩ := Spread.exists_of_plain plain
  have whole : physical.takeWhile (· ≠ '#') ++ physical.dropWhile (· ≠ '#') = physical :=
    List.takeWhile_append_dropWhile
  cases left : physical.dropWhile (· ≠ '#') with
  | nil =>
    rw [left] at whole
    exact ⟨⟨words, _, spread, none, nofun⟩, whole⟩
  | cons mark text =>
    have stop := List.head?_dropWhile_not (fun c : Char => decide (c ≠ '#')) physical
    rw [left] at stop whole
    have marked : mark = '#' := by simpa using stop
    have later : '\n' ∉ text := by
      intro mem
      have inside := List.mem_append_right (physical.takeWhile (· ≠ '#'))
        (List.mem_cons_of_mem mark mem)
      rw [whole] at inside
      exact unbroken inside
    subst marked
    refine ⟨⟨words, _, spread, some text, ?_⟩, whole⟩
    rintro comment same
    cases same
    exact later

theorem not_mem_chars (row : Row) : '\n' ∉ row.chars := by
  rw [chars, List.mem_append]
  rintro (code | comment)
  · exact (row.spread.plain _ code).2 rfl
  · cases written : row.comment with
    | none =>
      rw [written] at comment
      exact List.not_mem_nil comment
    | some text =>
      rw [written] at comment
      rcases List.mem_cons.mp comment with mark | inside
      · exact absurd mark (by decide)
      · exact row.unbroken text written inside

/-- A comment hides no word and adds none. -/
theorem wordsOf_chars (row : Row) : Line.wordsOf row.chars = row.words.map String.toList := by
  have cut : row.chars.takeWhile (· ≠ '#') = row.code := by
    rw [chars, List.takeWhile_append_of_pos fun c mem => by simpa using (row.spread.plain c mem).1]
    cases row.comment with
    | none => exact List.append_nil row.code
    | some text =>
      rw [Option.elim_some, List.takeWhile_cons_of_neg (by simp), List.append_nil]
  rw [Line.wordsOf, cut, row.spread.words_eq]

end Row

namespace Line

/-- A carriage return at the end of a line is white space behind its last word, or a part of its
comment. -/
theorem wordsOf_append_return (physical : List Char) :
    wordsOf (physical ++ ['\r']) = wordsOf physical := by
  rw [wordsOf, wordsOf, List.takeWhile_append]
  split
  · next whole =>
    have same : physical.takeWhile (· ≠ '#') = physical :=
      (List.takeWhile_prefix _).eq_of_length whole
    have last : ['\r'].takeWhile (fun c : Char => decide (c ≠ '#')) = ['\r'] := by decide
    rw [same, last, Text.words_append_cons (by decide), Text.words_nil, List.append_nil]
  · rfl

theorem wordsOf_dropReturn (physical : List Char) :
    wordsOf (Text.dropReturn physical) = wordsOf physical := by
  unfold Text.dropReturn
  split
  · next last =>
    have whole := List.dropLast_append_getLast? '\r' last
    calc wordsOf physical.dropLast
      _ = wordsOf (physical.dropLast ++ ['\r']) := (wordsOf_append_return _).symm
      _ = wordsOf physical := by rw [whole]
  · rfl

/-- With either ending a line is one line, and it has the words that it has without. -/
theorem exists_lines_ended {row : List Char} (unbroken : '\n' ∉ row) (ending : Ending)
    (rest : List Char) :
    ∃ physical, Text.lines (row ++ (ending.chars ++ rest)) = physical :: Text.lines rest ∧
      wordsOf physical = wordsOf row := by
  cases ending with
  | feed =>
    exact ⟨_, Text.lines_append_feed unbroken rest, wordsOf_dropReturn row⟩
  | returnFeed =>
    have whole : '\n' ∉ row ++ ['\r'] := by simpa using unbroken
    have lines := Text.lines_append_feed whole rest
    rw [List.append_assoc] at lines
    exact ⟨_, lines, (wordsOf_dropReturn _).trans (wordsOf_append_return row)⟩

theorem ofPhysical_congr {first second : List Char} (same : wordsOf first = wordsOf second)
    (number : Nat) : ofPhysical (first, number) = ofPhysical (second, number) := by
  rw [ofPhysical, ofPhysical, same]

theorem exists_join_eq (text : List Char) :
    ∃ (rows : List (Row × Ending)) (closed : Bool),
      join closed (rows.map fun row => (row.1.chars, row.2)) = text := by
  induction size : text.length using Nat.strongRecOn generalizing text with
  | ind size ih =>
    by_cases broken : '\n' ∈ text
    · obtain ⟨line, rest, rfl, unbroken⟩ := List.eq_append_cons_of_mem broken
      obtain ⟨row, chars⟩ := Row.exists_chars_eq unbroken
      obtain ⟨rows, closed, later⟩ := ih rest.length (by simp at size; omega) rest rfl
      cases rows with
      | nil =>
        have nothing : rest = [] := later.symm
        refine ⟨[(row, .feed)], true, ?_⟩
        rw [nothing, ← chars]
        rfl
      | cons next rows =>
        refine ⟨(row, .feed) :: next :: rows, closed, ?_⟩
        rw [← later, ← chars]
        rfl
    · obtain ⟨row, chars⟩ := Row.exists_chars_eq broken
      exact ⟨[(row, .feed)], false, chars⟩

/-- The endings and the lines without words are counted, and nothing else comes of them. -/
theorem filterMap_lines_join {rows : List (List Char × Ending)}
    (unbroken : ∀ row ∈ rows, '\n' ∉ row.1) (closed : Bool) (number : Nat) :
    ((Text.lines (join closed rows)).zipIdx number).filterMap ofPhysical =
      ((rows.map Prod.fst).zipIdx number).filterMap ofPhysical := by
  fun_induction join closed rows generalizing number with
  | case1 => rfl
  | case2 row shut =>
    obtain ⟨physical, lines, same⟩ :=
      exists_lines_ended (unbroken row List.mem_cons_self) row.2 []
    rw [List.append_nil, Text.lines_nil] at lines
    rw [lines, List.map_singleton, List.zipIdx_singleton, List.zipIdx_singleton,
      List.filterMap_cons, List.filterMap_cons, ofPhysical_congr same]
  | case3 row shut =>
    by_cases empty : row.1 = []
    · rw [List.map_singleton, empty]
      rfl
    · rw [Text.lines_of_unbroken empty (unbroken row List.mem_cons_self), List.map_singleton]
  | case4 row next rest ih =>
    obtain ⟨physical, lines, same⟩ :=
      exists_lines_ended (unbroken row List.mem_cons_self) row.2 (join closed (next :: rest))
    have later := ih (fun row mem => unbroken row (List.mem_cons_of_mem _ mem)) (number + 1)
    rw [lines, List.map_cons, List.zipIdx_cons, List.zipIdx_cons, List.filterMap_cons,
      List.filterMap_cons, ofPhysical_congr same, later]

theorem ofPhysical_row (row : Row) (number : Nat) :
    ofPhysical (row.chars, number) = if row.words ≠ [] then some ⟨number, row.words⟩ else none := by
  rw [ofPhysical, row.wordsOf_chars]
  cases row.words with
  | nil => rfl
  | cons word words => simp [Function.comp_def]

/-- The lines with words among these, numbered from one. -/
def numbered (rows : List (List String)) : List Line :=
  ((rows.zipIdx 1).filter fun row => row.1 ≠ []).map fun row => ⟨row.2, row.1⟩

theorem numbered_eq (rows : List Row) :
    numbered (rows.map Row.words) =
      ((rows.map Row.chars).zipIdx 1).filterMap ofPhysical := by
  rw [numbered, List.zipIdx_map, List.zipIdx_map, List.filterMap_map, ← List.filterMap_eq_map,
    List.filterMap_filter, List.filterMap_map]
  apply List.filterMap_congr
  intro row mem
  change _ = ofPhysical (row.1.chars, row.2)
  simp [ofPhysical_row]

/-- The words of a physical line with one space between them, without its comment. -/
def restated (physical : List Char × Nat) : List Char :=
  ((ofPhysical physical).elim "" text).toList

theorem not_mem_restated (physical : List Char) (number : Nat) :
    '\n' ∉ restated (physical, number) := by
  rw [restated]
  cases read : ofPhysical (physical, number) with
  | none => exact List.not_mem_nil
  | some line =>
    intro feed
    rcases (of_mem_intercalate (isWord_of_ofPhysical read) feed).2 with space | solid
    · exact absurd space (by decide)
    · exact absurd solid (by decide)

theorem ofPhysical_restated (physical : List Char) (number : Nat) :
    ofPhysical (restated (physical, number), number) = ofPhysical (physical, number) := by
  rw [restated]
  cases read : ofPhysical (physical, number) with
  | none => rfl
  | some line =>
    obtain ⟨here, words⟩ := ofPhysical_eq_some read
    have nonempty : line.words ≠ [] := by
      intro empty
      rw [empty] at words
      rw [ofPhysical, List.map_eq_nil_iff.mp words.symm] at read
      contradiction
    rw [Option.elim_some, text, ofPhysical_intercalate nonempty (isWord_of_ofPhysical read), ← here]

theorem filterMap_restated (physicals : List (List Char)) (number : Nat) :
    (((physicals.zipIdx number).map restated).zipIdx number).filterMap ofPhysical =
      (physicals.zipIdx number).filterMap ofPhysical := by
  induction physicals generalizing number with
  | nil => rfl
  | cons physical rest ih =>
    rw [List.zipIdx_cons, List.map_cons, List.zipIdx_cons, List.filterMap_cons, List.filterMap_cons,
      ofPhysical_restated, ih]

/-- Every text is some layout of a script, and whatever the layout, the lines are the words of the
rows, each with the number of its row. So every line of a text may be replaced by its words with one
space between them, and a line without words by nothing, under any endings. -/
theorem ofText_join :
    (∀ text : String, ∃ (rows : List (Row × Ending)) (closed : Bool),
      String.ofList (join closed (rows.map fun row => (row.1.chars, row.2))) = text) ∧
    (∀ (rows : List (Row × Ending)) (closed : Bool),
      ofText (String.ofList (join closed (rows.map fun row => (row.1.chars, row.2)))) =
        numbered (rows.map fun row => row.1.words)) ∧
    ∀ (text : String) (ending : Nat → Ending) (closed : Bool),
      ofText (String.ofList (join closed
        (((Text.lines text.toList).zipIdx 1).map fun line => (restated line, ending line.2)))) =
        ofText text := by
  refine ⟨?_, ?_, ?_⟩
  · intro text
    obtain ⟨rows, closed, whole⟩ := exists_join_eq text.toList
    exact ⟨rows, closed, by rw [whole, String.ofList_toList]⟩
  · intro rows closed
    have unbroken : ∀ row ∈ rows.map fun row => (row.1.chars, row.2), '\n' ∉ row.1 := by
      intro written mem
      obtain ⟨row, -, rfl⟩ := List.mem_map.mp mem
      exact row.1.not_mem_chars
    have words := numbered_eq (rows.map Prod.fst)
    rw [List.map_map, List.map_map] at words
    rw [ofText_eq, String.toList_ofList, filterMap_lines_join unbroken, List.map_map]
    exact words.symm
  · intro text ending closed
    have unbroken : ∀ row ∈ ((Text.lines text.toList).zipIdx 1).map
        fun line => (restated line, ending line.2), '\n' ∉ row.1 := by
      intro written mem
      obtain ⟨line, -, rfl⟩ := List.mem_map.mp mem
      exact not_mem_restated line.1 line.2
    rw [ofText_eq, ofText_eq, String.toList_ofList, filterMap_lines_join unbroken, List.map_map]
    exact filterMap_restated (Text.lines text.toList) 1

/-- A next line sign is white space within a line, and a carriage return alone ends none. -/
example :
    ofText "\r 2_1\u0085 5# café\r\r\n\n@0,0\r# 1\r" = [⟨1, ["2_1", "5"]⟩, ⟨3, ["@0,0"]⟩] := by
  decide +kernel

end Line

end IslandLayer.Script
