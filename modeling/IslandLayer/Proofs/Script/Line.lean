import IslandLayer.Proofs.Text.Layout
import IslandLayer.Script.Source
import Mathlib.Data.List.Basic
import Mathlib.Data.List.TakeWhile

set_option autoImplicit false

namespace IslandLayer.Script

namespace Source

/-- The script up to its line of that number, which is left out. -/
def before (source : Source) (number : Nat) : Source :=
  { source with text := String.ofList (Text.takeLines (number - 1) source.text.toList) }

/-- The script with words at its end. -/
def add (source : Source) (words : List String) : Source :=
  { source with text := source.text ++ String.intercalate " " words }

end Source

namespace Line

/-- What can stand on a line as one word. -/
def IsWord (word : String) : Prop :=
  word ≠ "" ∧ ∀ c ∈ word.toList, Text.isBlank c = false ∧ c ≠ '#'

-- Only the characters of the word are looked at, not all that there are.
instance : DecidablePred IsWord := fun _ =>
  @instDecidableAnd _ _ inferInstance (List.decidableBAll _ _)

theorem isWord_iff {word : String} :
    IsWord word ↔ word.toList ≠ [] ∧ ∀ c ∈ word.toList, Text.isBlank c = false ∧ c ≠ '#' := by
  simp [IsWord]

theorem solid_of_graphic {c : Char} (above : 0x24 ≤ c.toNat) (below : c.toNat < 0x7F) :
    Text.isBlank c = false ∧ c ≠ '#' := by
  have all : ∀ k : Fin 0x7F, 0x24 ≤ k.val →
      Text.isBlank (Char.ofNat k) = false ∧ Char.ofNat k ≠ '#' := by decide
  have here := all ⟨c.toNat, below⟩ above
  rwa [Char.ofNat_toNat] at here

theorem solid_of_isHexDigit {c : Char} (digit : c.isHexDigit) :
    Text.isBlank c = false ∧ c ≠ '#' := by
  simp [Char.isHexDigit, Char.isDigit, UInt32.le_iff_toNat_le] at digit
  exact solid_of_graphic (by omega) (by omega)

theorem solid_of_isDigit {c : Char} (digit : c.isDigit) : Text.isBlank c = false ∧ c ≠ '#' :=
  solid_of_isHexDigit (by simp [Char.isHexDigit, digit])

theorem solid_of_isLower {c : Char} (letter : c.isLower) : Text.isBlank c = false ∧ c ≠ '#' := by
  obtain ⟨low, high⟩ := Bool.and_eq_true_iff.mp letter
  have least : 97 ≤ c.toNat := UInt32.le_iff_toNat_le.mp (of_decide_eq_true low)
  have most : c.toNat ≤ 122 := UInt32.le_iff_toNat_le.mp (of_decide_eq_true high)
  exact solid_of_graphic (by omega) (by omega)

/-- The line of that number, if it has words. -/
def ofPhysical (numbered : List Char × Nat) : Option Line :=
  match wordsOf numbered.1 with
  | [] => none
  | words => some ⟨numbered.2, words.map String.ofList⟩

theorem ofText_eq (text : String) :
    ofText text = ((Text.lines text.toList).zipIdx 1).filterMap ofPhysical := rfl

theorem ofPhysical_eq_some {physical : List Char} {number : Nat} {line : Line}
    (read : ofPhysical (physical, number) = some line) :
    line.number = number ∧ line.words = (wordsOf physical).map String.ofList := by
  unfold ofPhysical at read
  split at read
  · contradiction
  · cases read
    exact ⟨rfl, rfl⟩

theorem isWord_of_ofPhysical {physical : List Char} {number : Nat} {line : Line}
    (read : ofPhysical (physical, number) = some line) : ∀ word ∈ line.words, IsWord word := by
  intro word inside
  rw [(ofPhysical_eq_some read).2] at inside
  obtain ⟨chars, listed, rfl⟩ := List.mem_map.mp inside
  constructor
  · simpa using Text.ne_nil_of_mem_words listed
  · intro c member
    rw [String.toList_ofList] at member
    obtain ⟨solid, before⟩ := Text.of_mem_words listed c member
    have kept := List.all_eq_true.mp List.all_takeWhile c before
    exact ⟨solid, by simpa using kept⟩

theorem isWord_of_mem {text : String} {line : Line} (mem : line ∈ ofText text) :
    ∀ word ∈ line.words, IsWord word := by
  obtain ⟨numbered, -, read⟩ := List.mem_filterMap.mp mem
  exact isWord_of_ofPhysical read

theorem of_mem_intercalate {words : List String} (plain : ∀ word ∈ words, IsWord word) {c : Char}
    (mem : c ∈ (String.intercalate " " words).toList) :
    c ≠ '#' ∧ (c = ' ' ∨ Text.isBlank c = false) := by
  rw [String.toList_intercalate] at mem
  rcases Text.of_mem_intercalate mem with rfl | ⟨w, listed, inside⟩
  · exact ⟨by decide, Or.inl rfl⟩
  · obtain ⟨word, member, rfl⟩ := List.mem_map.mp listed
    obtain ⟨solid, kept⟩ := (plain word member).2 c inside
    exact ⟨kept, Or.inr solid⟩

theorem wordsOf_intercalate {words : List String} (plain : ∀ word ∈ words, IsWord word) :
    wordsOf (String.intercalate " " words).toList = words.map String.toList := by
  have whole : (String.intercalate " " words).toList.takeWhile (· ≠ '#') =
      (String.intercalate " " words).toList := by
    rw [List.takeWhile_eq_self_iff]
    exact fun c mem => by simpa using (of_mem_intercalate plain mem).1
  rw [wordsOf, whole, String.toList_intercalate]
  apply Text.words_intercalate
  intro w listed
  obtain ⟨word, member, rfl⟩ := List.mem_map.mp listed
  obtain ⟨nonempty, chars⟩ := plain word member
  exact ⟨by simpa using nonempty, fun c inside => (chars c inside).1⟩

theorem lines_intercalate {words : List String} (nonempty : words ≠ [])
    (plain : ∀ word ∈ words, IsWord word) :
    Text.lines (String.intercalate " " words).toList =
      [(String.intercalate " " words).toList] := by
  apply Text.lines_of_unbroken
  · intro empty
    have none := wordsOf_intercalate plain
    rw [empty] at none
    exact nonempty (List.map_eq_nil_iff.mp none.symm)
  · intro feed
    rcases (of_mem_intercalate plain feed).2 with space | solid
    · exact absurd space (by decide)
    · exact absurd solid (by decide)

theorem ofPhysical_intercalate {words : List String} (nonempty : words ≠ [])
    (plain : ∀ word ∈ words, IsWord word) (number : Nat) :
    ofPhysical ((String.intercalate " " words).toList, number) = some ⟨number, words⟩ := by
  rw [ofPhysical, wordsOf_intercalate plain]
  split
  · next empty => exact absurd (List.map_eq_nil_iff.mp empty) nonempty
  · simp [Function.comp_def]

/-- A line stands behind as many physical lines as its number says, less one, and the lines before
it are those among them that have words. -/
theorem exists_of_ofText {text : String} {done rest : List Line} {line : Line}
    (split : ofText text = done ++ line :: rest) :
    ∃ count, line.number = count + 1 ∧ count < (Text.lines text.toList).length ∧
      (((Text.lines text.toList).take count).zipIdx 1).filterMap ofPhysical = done := by
  rw [ofText_eq] at split
  obtain ⟨front, back, numbered, read, later⟩ := List.filterMap_eq_append_iff.mp split
  obtain ⟨silent, here, beyond, rfl, none, found, -⟩ := List.filterMap_eq_cons_iff.mp later
  rw [← List.append_assoc] at numbered
  obtain ⟨before, after, physical, first, second⟩ := List.zipIdx_eq_append_iff.mp numbered
  obtain ⟨content, others, rfl, rfl, -⟩ := List.zipIdx_eq_cons_iff.mp second.symm
  refine ⟨before.length, ?_, ?_, ?_⟩
  · rw [(ofPhysical_eq_some found).1, Nat.add_comm]
  · rw [physical, List.length_append, List.length_cons]
    omega
  · rw [physical, List.take_left', ← first, List.filterMap_append, read,
      List.filterMap_eq_nil_iff.mpr none, List.append_nil]
    rfl

/-- Lines read from a text that is cut off before one of its lines and goes on otherwise. -/
theorem ofText_takeLines_append {text : String} {done rest : List Line} {line : Line}
    (split : ofText text = done ++ line :: rest) (more : List Char) :
    ofText (String.ofList (Text.takeLines (line.number - 1) text.toList ++ more)) =
      done ++ ((Text.lines more).zipIdx line.number).filterMap ofPhysical := by
  obtain ⟨count, number, present, read⟩ := exists_of_ofText split
  rw [number, Nat.add_sub_cancel, ofText_eq, String.toList_ofList,
    Text.lines_takeLines_append present, List.zipIdx_append, List.filterMap_append, read,
    List.length_take, Nat.min_eq_left (by omega), Nat.add_comm 1 count]

theorem ofText_before {source : Source} {done rest : List Line} {line : Line}
    (split : ofText source.text = done ++ line :: rest) :
    ofText (source.before line.number).text = done := by
  have cut := ofText_takeLines_append split []
  simpa [Source.before] using cut

theorem ofText_before_add {source : Source} {done rest : List Line} {line : Line}
    (split : ofText source.text = done ++ line :: rest) {words : List String}
    (nonempty : words ≠ []) (plain : ∀ word ∈ words, IsWord word) :
    ofText ((source.before line.number).add words).text = done ++ [⟨line.number, words⟩] := by
  have text : ((source.before line.number).add words).text =
      String.ofList (Text.takeLines (line.number - 1) source.text.toList ++
        (String.intercalate " " words).toList) := by
    rw [String.ofList_append, String.ofList_toList]
    rfl
  rw [text, ofText_takeLines_append split, lines_intercalate nonempty plain, List.zipIdx_singleton,
    List.filterMap_cons_some (ofPhysical_intercalate nonempty plain _), List.filterMap_nil]

/-- The lines of words as a text, each ended by a line feed. -/
def page (lines : List (List String)) : String :=
  String.join (lines.map fun words => String.intercalate " " words ++ "\n")

theorem toList_page_cons (words : List String) (rest : List (List String)) :
    (page (words :: rest)).toList =
      (String.intercalate " " words).toList ++ '\n' :: (page rest).toList := by
  simp [page, String.toList_append]

/-- No line of words ends with a carriage return that could be taken for a part of its ending. -/
theorem lines_page {lines : List (List String)}
    (plain : ∀ words ∈ lines, ∀ word ∈ words, IsWord word) :
    Text.lines (page lines).toList =
      lines.map fun words => (String.intercalate " " words).toList := by
  induction lines with
  | nil => rfl
  | cons words rest ih =>
    have chars (c : Char) := of_mem_intercalate (c := c) (plain words List.mem_cons_self)
    have unbroken : '\n' ∉ (String.intercalate " " words).toList := by
      intro feed
      rcases (chars _ feed).2 with space | solid
      · exact absurd space (by decide)
      · exact absurd solid (by decide)
    have kept : Text.dropReturn (String.intercalate " " words).toList =
        (String.intercalate " " words).toList := by
      apply if_neg
      intro last
      rcases (chars _ (List.mem_of_getLast? last)).2 with space | solid
      · exact absurd space (by decide)
      · exact absurd solid (by decide)
    rw [toList_page_cons, Text.lines_append_feed unbroken, kept,
      ih fun words mem => plain words (List.mem_cons_of_mem _ mem), List.map_cons]

/-- The lines of a page are read in order, numbered from one. -/
theorem ofText_page {lines : List (List String)}
    (plain : ∀ words ∈ lines, words ≠ [] ∧ ∀ word ∈ words, IsWord word) :
    ofText (page lines) = (lines.zipIdx 1).map fun numbered => ⟨numbered.2, numbered.1⟩ := by
  rw [ofText_eq, lines_page fun words mem => (plain words mem).2, List.zipIdx_map,
    List.filterMap_map, ← List.filterMap_eq_map]
  apply List.filterMap_congr
  intro (words, number) mem
  obtain ⟨nonempty, chars⟩ := plain words (List.fst_mem_of_mem_zipIdx mem)
  exact ofPhysical_intercalate nonempty chars number

end Line

end IslandLayer.Script
