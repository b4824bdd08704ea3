import IslandLayer.Text.Layout

set_option autoImplicit false

namespace IslandLayer.Text

/-- The first `count` lines, with the line feeds that end them. -/
def takeLines : (count : Nat) → List Char → List Char
  | 0, _ => []
  | _ + 1, [] => []
  | count + 1, c :: rest =>
    if c = '\n' then c :: takeLines count rest else c :: takeLines (count + 1) rest

theorem takeLines_append_feed (count : Nat) {line : List Char} (unbroken : '\n' ∉ line)
    (rest : List Char) :
    takeLines (count + 1) (line ++ '\n' :: rest) = line ++ '\n' :: takeLines count rest := by
  induction line with
  | nil => rw [List.nil_append, takeLines, if_pos rfl, List.nil_append]
  | cons c line ih =>
    have other : c ≠ '\n' := fun same => unbroken (same ▸ List.mem_cons_self)
    have later : '\n' ∉ line := fun mem => unbroken (List.mem_cons_of_mem c mem)
    rw [List.cons_append, takeLines, if_neg other, ih later, List.cons_append]

/-- Lines before the last one end with a line feed, so what comes after them starts a new line. -/
theorem lines_takeLines_append {count : Nat} {text : List Char}
    (present : count < (lines text).length) (more : List Char) :
    lines (takeLines count text ++ more) = (lines text).take count ++ lines more := by
  induction count generalizing text with
  | zero => rw [takeLines, List.nil_append, List.take_zero, List.nil_append]
  | succ count ih =>
    by_cases broken : '\n' ∈ text
    · obtain ⟨line, rest, rfl, unbroken⟩ := List.eq_append_cons_of_mem broken
      rw [lines_append_feed unbroken, List.length_cons] at present
      rw [takeLines_append_feed count unbroken, List.append_assoc, List.cons_append,
        lines_append_feed unbroken, lines_append_feed unbroken, ih (by omega), List.take_succ_cons,
        List.cons_append]
    · cases text with
      | nil => simp at present
      | cons c rest =>
        rw [lines_of_unbroken (List.cons_ne_nil c rest) broken] at present
        simp at present

theorem of_mem_splitOnP {α : Type} {p : α → Bool} {text piece : List α}
    (mem : piece ∈ text.splitOnP p) : ∀ c ∈ piece, p c = false ∧ c ∈ text := by
  induction text generalizing piece with
  | nil =>
    rw [List.splitOnP_nil, List.mem_singleton] at mem
    simp [mem]
  | cons first rest ih =>
    have later {piece : List α} (mem : piece ∈ rest.splitOnP p) (c : α) (inside : c ∈ piece) :
        p c = false ∧ c ∈ first :: rest :=
      ⟨(ih mem c inside).1, List.mem_cons_of_mem _ (ih mem c inside).2⟩
    rw [List.splitOnP_cons_eq_if_modifyHead] at mem
    split at mem
    · rcases List.mem_cons.mp mem with rfl | mem
      · exact fun _ inside => absurd inside List.not_mem_nil
      · exact later mem
    · next kept =>
      obtain ⟨head, tail, pieces⟩ := List.exists_cons_of_ne_nil (List.splitOnP_ne_nil p rest)
      rw [pieces, List.modifyHead_cons] at mem
      rw [pieces] at later
      rcases List.mem_cons.mp mem with rfl | mem
      · intro c inside
        rcases List.mem_cons.mp inside with rfl | inside
        · exact ⟨by simpa using kept, List.mem_cons_self⟩
        · exact later List.mem_cons_self c inside
      · exact later (List.mem_cons_of_mem _ mem)

/-- The text is made of pieces with a separator between them, and this is one of the pieces. -/
def Piece (separator : Char) (piece text : List Char) : Prop :=
  ∃ pieces, [separator].intercalate pieces = text ∧ (∀ p ∈ pieces, separator ∉ p) ∧
    piece ∈ pieces

theorem piece_iff_mem_splitOn {separator : Char} {piece text : List Char} :
    Piece separator piece text ↔ piece ∈ text.splitOn separator := by
  constructor
  · rintro ⟨pieces, rfl, whole, mem⟩
    rwa [List.splitOn_intercalate separator whole (List.ne_nil_of_mem mem)]
  · intro mem
    refine ⟨text.splitOn separator, List.intercalate_splitOn separator, ?_, mem⟩
    intro p listed inside
    have other := (of_mem_splitOnP listed separator inside).1
    rw [beq_self_eq_true] at other
    cases other

theorem of_mem_words {text word : List Char} (mem : word ∈ words text) :
    ∀ c ∈ word, isBlank c = false ∧ c ∈ text :=
  of_mem_splitOnP (List.mem_filter.mp mem).1

@[simp] theorem words_cons_of_blank {c : Char} (blank : isBlank c) (text : List Char) :
    words (c :: text) = words text := by
  simpa using words_append_cons blank [] text

theorem words_append_of_blank {gap : List Char} (white : ∀ c ∈ gap, isBlank c)
    (rest : List Char) : words (gap ++ rest) = words rest := by
  induction gap with
  | nil => rfl
  | cons c gap ih =>
    simpa [white c List.mem_cons_self] using ih fun d mem => white d (List.mem_cons_of_mem c mem)

/-- A word ends where white space follows it. -/
theorem words_append_of_solid {word rest : List Char} (nonempty : word ≠ [])
    (solid : ∀ c ∈ word, isBlank c = false) (apart : ∀ c ∈ rest.head?, isBlank c) :
    words (word ++ rest) = word :: words rest := by
  cases rest with
  | nil => simp [words_of_solid nonempty solid]
  | cons c rest =>
    have blank : isBlank c := apart c rfl
    simp [words_append_cons blank, words_of_solid nonempty solid, blank]

theorem intercalate_cons (separator : Char) (first : List Char) (rest : List (List Char)) :
    [separator].intercalate (first :: rest) = first ++ rest.flatMap (separator :: ·) := by
  induction rest generalizing first with
  | nil => simp
  | cons second rest ih =>
    rw [List.intercalate_cons_cons, ih second, List.flatMap_cons, List.append_assoc]
    rfl

theorem of_mem_intercalate {separator : Char} {ws : List (List Char)} {c : Char}
    (mem : c ∈ [separator].intercalate ws) : c = separator ∨ ∃ w ∈ ws, c ∈ w := by
  cases ws with
  | nil => exact absurd mem List.not_mem_nil
  | cons first rest =>
    rw [intercalate_cons, List.mem_append, List.mem_flatMap] at mem
    rcases mem with inside | ⟨w, listed, later⟩
    · exact Or.inr ⟨first, List.mem_cons_self, inside⟩
    · rcases List.mem_cons.mp later with same | inside
      · exact Or.inl same
      · exact Or.inr ⟨w, List.mem_cons_of_mem _ listed, inside⟩

/-- Words with one space between them are read back as they are. -/
theorem words_intercalate {ws : List (List Char)}
    (solid : ∀ w ∈ ws, w ≠ [] ∧ ∀ c ∈ w, isBlank c = false) :
    words ([' '].intercalate ws) = ws := by
  induction ws with
  | nil => rfl
  | cons first rest ih =>
    have head := words_of_solid (solid first (by simp)).1 (solid first (by simp)).2
    cases rest with
    | nil => rwa [List.intercalate_singleton]
    | cons second rest =>
      rw [List.intercalate_cons_cons, List.append_assoc, List.singleton_append,
        words_append_cons (by decide), head, List.singleton_append,
        ih fun w mem => solid w (List.mem_cons_of_mem _ mem)]

end IslandLayer.Text
