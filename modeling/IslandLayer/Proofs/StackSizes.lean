import IslandLayer.Proofs.Text.Numeral
import IslandLayer.StackSizes

set_option autoImplicit false

namespace IslandLayer.StackSizes

/-- Nothing is left when the line is trimmed, or a comment. -/
def Silent (line : List Char) : Prop :=
  Text.trim line = [] ∨ (Text.trim line).head? = some '#'

/-- The line consists of two numerals, a stack size of 32 bits and an id of 16. -/
structure Gives (line : List Char) (id : UInt16) (size : UInt32) : Prop where
  loud : ¬ Silent line
  words : ∃ first second, Text.words (Text.trim line) = [first, second] ∧
    Numeral.Signed first size.toNat ∧ Numeral.Signed second id.toNat

def Malformed (line : List Char) : Prop :=
  ¬ Silent line ∧ ∀ id size, ¬ Gives line id size

/-- The last of the lines about the item gives it this size. -/
def LastGives (lines : List (List Char)) (id : UInt16) (size : UInt32) : Prop :=
  ∃ before line after, lines = before ++ line :: after ∧ Gives line id size ∧
    ∀ later ∈ after, ∀ other, ¬ Gives later id other

/-- The table has what the lines give, and nothing else. -/
structure Lists (lines : List (List Char)) (table : StackSizes) : Prop where
  size : ∀ id size, table.size? id = some size ↔ LastGives lines id size
  /-- There are as many entries as there are items that some line is about. -/
  count : ∃ ids : List UInt16, ids.Nodup ∧ ids.length = table.count ∧
    ∀ id, id ∈ ids ↔ ∃ line ∈ lines, ∃ size, Gives line id size
  extra : ∀ id extra, table.defaultExtra? id = some extra ↔
    ∃ size, LastGives lines id size ∧ 1 < size ∧ extra = size - 1

/-- The first malformed line is at fault, by its number from one and its trimmed text. -/
def FirstMalformed (lines : List (List Char)) (fault : MalformedLine) : Prop :=
  ∃ before line after, lines = before ++ line :: after ∧ (∀ earlier ∈ before, ¬ Malformed earlier) ∧
    Malformed line ∧ fault = ⟨before.length + 1, String.ofList (Text.trim line)⟩

section

variable {line : List Char} {lines : List (List Char)} {id : UInt16} {size : UInt32}

theorem isSilent_trim_iff : isSilent (Text.trim line) = true ↔ Silent line := by
  simp [isSilent, Silent]

theorem readEntry?_eq_some_iff {content : List Char} :
    readEntry? content = some (id, size) ↔
      ∃ first second, Text.words content = [first, second] ∧
        Numeral.Signed first size.toNat ∧ Numeral.Signed second id.toNat := by
  unfold readEntry?
  split
  · next first second words =>
    simp only [Option.bind_eq_bind, Option.bind_eq_some_iff, Option.pure_def, Option.some.injEq,
      Prod.mk.injEq, Numeral.signed?_eq_some_iff]
    constructor
    · rintro ⟨m, ⟨sizeText, sizeFits⟩, n, ⟨idText, idFits⟩, rfl, rfl⟩
      rw [UInt32.toNat_ofNat_of_lt' sizeFits, UInt16.toNat_ofNat_of_lt' idFits]
      exact ⟨first, second, words, sizeText, idText⟩
    · rintro ⟨first', second', words', sizeText, idText⟩
      rw [words] at words'
      cases words'
      exact ⟨_, ⟨sizeText, size.toNat_lt⟩, _, ⟨idText, id.toNat_lt⟩, UInt16.ofNat_toNat,
        UInt32.ofNat_toNat⟩
  · next other =>
    refine iff_of_false nofun ?_
    rintro ⟨first, second, words, -⟩
    exact other first second words

theorem gives_iff (loud : ¬ Silent line) :
    Gives line id size ↔ readEntry? (Text.trim line) = some (id, size) := by
  rw [readEntry?_eq_some_iff]
  exact ⟨fun gives => gives.words, fun words => ⟨loud, words⟩⟩

theorem addLine_of_silent (silent : Silent line) (table : StackSizes) (number : Nat) :
    addLine table (line, number) = .ok table := by
  rw [addLine, if_pos (isSilent_trim_iff.mpr silent)]

theorem addLine_of_gives (gives : Gives line id size) (table : StackSizes) (number : Nat) :
    addLine table (line, number) = .ok (table.insert id size) := by
  rw [addLine, if_neg (mt isSilent_trim_iff.mp gives.loud), (gives_iff gives.loud).mp gives]

theorem addLine_of_malformed (malformed : Malformed line) (table : StackSizes) (number : Nat) :
    addLine table (line, number) = .error ⟨number, String.ofList (Text.trim line)⟩ := by
  obtain ⟨loud, nothing⟩ := malformed
  rw [addLine, if_neg (mt isSilent_trim_iff.mp loud)]
  cases read : readEntry? (Text.trim line) with
  | none => rfl
  | some entry => exact absurd ((gives_iff loud).mpr read) (nothing entry.1 entry.2)

theorem Gives.unique {other : UInt16} {otherSize : UInt32} (gives : Gives line id size)
    (again : Gives line other otherSize) : other = id ∧ otherSize = size := by
  have first := (gives_iff gives.loud).mp gives
  rw [(gives_iff gives.loud).mp again] at first
  exact Prod.mk.inj (Option.some.inj first)

theorem lastGives_cons_iff :
    LastGives (line :: lines) id size ↔
      LastGives lines id size ∨
        Gives line id size ∧ ∀ later ∈ lines, ∀ other, ¬ Gives later id other := by
  constructor
  · rintro ⟨before, last, after, whole, gives, final⟩
    cases before with
    | nil =>
      cases whole
      exact Or.inr ⟨gives, final⟩
    | cons first before =>
      cases whole
      exact Or.inl ⟨before, last, after, rfl, gives, final⟩
  · rintro (⟨before, last, after, rfl, gives, final⟩ | ⟨gives, final⟩)
    · exact ⟨line :: before, last, after, rfl, gives, final⟩
    · exact ⟨[], line, lines, rfl, gives, final⟩

theorem exists_lastGives_iff :
    (∃ size, LastGives lines id size) ↔ ∃ line ∈ lines, ∃ size, Gives line id size := by
  constructor
  · rintro ⟨size, before, line, after, rfl, gives, -⟩
    exact ⟨line, by simp, size, gives⟩
  · induction lines with
    | nil => rintro ⟨line, mem, -⟩; exact absurd mem List.not_mem_nil
    | cons first rest ih =>
      rintro ⟨line, mem, size, gives⟩
      by_cases later : ∃ line ∈ rest, ∃ size, Gives line id size
      · obtain ⟨size, last⟩ := ih later
        exact ⟨size, lastGives_cons_iff.mpr (Or.inl last)⟩
      · rcases List.mem_cons.mp mem with rfl | inside
        · refine ⟨size, lastGives_cons_iff.mpr (Or.inr ⟨gives, ?_⟩)⟩
          exact fun next listed other again => later ⟨next, listed, other, again⟩
        · exact absurd ⟨line, inside, size, gives⟩ later

end

/-- The table after one more line that is not malformed. -/
theorem exists_addLine {line : List Char} (sound : ¬ Malformed line) (table : StackSizes)
    (number : Nat) :
    ∃ next, addLine table (line, number) = .ok next ∧
      ∀ id size, next.size? id = some size ↔
        Gives line id size ∨ table.size? id = some size ∧ ∀ other, ¬ Gives line id other := by
  by_cases given : ∃ id size, Gives line id size
  · obtain ⟨id, size, gives⟩ := given
    refine ⟨_, addLine_of_gives gives table number, fun asked found => ?_⟩
    rw [size?_insert]
    split
    · next same =>
      subst same
      constructor
      · intro entry
        cases entry
        exact Or.inl gives
      · rintro (again | ⟨-, none⟩)
        · rw [(gives.unique again).2]
        · exact absurd gives (none size)
    · next different =>
      have nothing (size : UInt32) : ¬ Gives line asked size :=
        fun again => different (gives.unique again).1.symm
      simp [nothing]
  · have nothing (id : UInt16) (size : UInt32) : ¬ Gives line id size :=
      fun gives => given ⟨id, size, gives⟩
    have silent : Silent line := Classical.not_not.mp fun loud => sound ⟨loud, nothing⟩
    refine ⟨table, addLine_of_silent silent table number, fun id size => ?_⟩
    simp [nothing]

/-- A table that is extended by lines none of which is malformed: an item has the size that the last
line about it gives, or the one it had. -/
theorem exists_foldlM_addLine {lines : List (List Char)} (sound : ∀ line ∈ lines, ¬ Malformed line)
    (table : StackSizes) (number : Nat) :
    ∃ final, (lines.zipIdx number).foldlM addLine table = .ok final ∧
      ∀ id size, final.size? id = some size ↔
        LastGives lines id size ∨
          table.size? id = some size ∧ ∀ line ∈ lines, ∀ other, ¬ Gives line id other := by
  induction lines generalizing table number with
  | nil =>
    refine ⟨table, rfl, fun id size => ?_⟩
    simp [LastGives]
  | cons line rest ih =>
    obtain ⟨next, added, step⟩ := exists_addLine (sound line List.mem_cons_self) table number
    obtain ⟨final, run, sizes⟩ :=
      ih (fun line mem => sound line (List.mem_cons_of_mem _ mem)) next (number + 1)
    refine ⟨final, ?_, fun id size => ?_⟩
    · rw [List.zipIdx_cons, List.foldlM_cons, added]
      exact run
    -- What the line gives counts only where no later line is about the item.
    · rw [sizes, step, lastGives_cons_iff, List.forall_mem_cons,
        or_and_right, and_assoc, or_assoc]

/-- The first malformed line ends the reading, whatever follows it. -/
theorem foldlM_addLine_of_malformed {before after : List (List Char)} {line : List Char}
    (sound : ∀ earlier ∈ before, ¬ Malformed earlier) (malformed : Malformed line)
    (table : StackSizes) (number : Nat) :
    ((before ++ line :: after).zipIdx number).foldlM addLine table =
      .error ⟨number + before.length, String.ofList (Text.trim line)⟩ := by
  obtain ⟨reached, run, -⟩ := exists_foldlM_addLine sound table number
  rw [List.zipIdx_append, List.foldlM_append, run, List.zipIdx_cons]
  change ((line, number + before.length) :: _).foldlM addLine reached = _
  rw [List.foldlM_cons, addLine_of_malformed malformed]
  rfl

theorem ofText_of_sound {text : String}
    (sound : ∀ line ∈ Text.lines text.toList, ¬ Malformed line) :
    ∃ table, ofText text = .ok table ∧ Lists (Text.lines text.toList) table := by
  obtain ⟨table, run, sizes⟩ := exists_foldlM_addLine sound empty 1
  have size (id : UInt16) (size : UInt32) :
      table.size? id = some size ↔ LastGives (Text.lines text.toList) id size := by
    simp [sizes]
  refine ⟨table, run, size, ?_, ?_⟩
  · refine ⟨table.sizes.keys, table.sizes.nodup_keys, table.sizes.length_keys, fun id => ?_⟩
    rw [← exists_lastGives_iff, Std.ExtTreeMap.mem_keys, Std.ExtTreeMap.mem_iff_isSome_getElem?,
      Option.isSome_iff_exists]
    exact exists_congr fun found => size id found
  · intro id extra
    simp only [defaultExtra?_eq_some_iff, size]

theorem ofText_of_firstMalformed {text : String} {fault : MalformedLine}
    (first : FirstMalformed (Text.lines text.toList) fault) : ofText text = .error fault := by
  obtain ⟨before, line, after, lines, sound, malformed, rfl⟩ := first
  rw [ofText, lines, foldlM_addLine_of_malformed sound malformed, Nat.add_comm 1]

open Classical in
theorem sound_or_firstMalformed (lines : List (List Char)) :
    (∀ line ∈ lines, ¬ Malformed line) ∨ ∃ fault, FirstMalformed lines fault := by
  cases found : lines.find? fun line => decide (Malformed line) with
  | none => exact Or.inl fun line mem => by simpa using List.find?_eq_none.mp found line mem
  | some line =>
    obtain ⟨malformed, before, after, whole, sound⟩ := List.find?_eq_some_iff_append.mp found
    refine Or.inr ⟨_, before, line, after, whole, ?_, by simpa using malformed, rfl⟩
    exact fun earlier mem => by simpa using sound earlier mem

/-- A text is read as a table unless it has a malformed line. The table then has what the lines
give, and otherwise the first malformed line is the answer. -/
theorem ofText_exact (text : String) :
    ((∃ table, ofText text = .ok table) ↔ ∀ line ∈ Text.lines text.toList, ¬ Malformed line) ∧
    (∀ table, ofText text = .ok table → Lists (Text.lines text.toList) table) ∧
    ∀ fault, ofText text = .error fault ↔ FirstMalformed (Text.lines text.toList) fault := by
  rcases sound_or_firstMalformed (Text.lines text.toList) with sound | ⟨fault, first⟩
  · obtain ⟨table, read, lists⟩ := ofText_of_sound sound
    refine ⟨iff_of_true ⟨table, read⟩ sound, ?_, ?_⟩
    · intro other same
      rw [read] at same
      cases same
      exact lists
    · intro fault
      rw [read]
      refine iff_of_false nofun ?_
      rintro ⟨before, line, after, lines, -, malformed, -⟩
      exact sound line (by simp [lines]) malformed
  · have read := ofText_of_firstMalformed first
    refine ⟨iff_of_false ?_ ?_, ?_, ?_⟩
    · rintro ⟨table, same⟩
      rw [read] at same
      cases same
    · obtain ⟨before, line, after, lines, -, malformed, -⟩ := first
      exact fun sound => sound line (by simp [lines]) malformed
    · intro table same
      rw [read] at same
      cases same
    · intro other
      refine ⟨fun same => ?_, ofText_of_firstMalformed⟩
      rw [read] at same
      cases same
      exact first

/-- Of two lines about an item the later one counts, with a line between them that is silent. -/
theorem ofText_exact_of_repeated :
    ∃ table, ofText "30 2000\n # 7 2000\n+5\t2000" = .ok table ∧
      Lists (Text.lines "30 2000\n # 7 2000\n+5\t2000".toList) table ∧
      table.size? 2000 = some 5 := by
  have size : ((ofText "30 2000\n # 7 2000\n+5\t2000").map fun table => table.size? 2000).toOption =
      some (some 5) := by
    decide +kernel
  cases read : ofText "30 2000\n # 7 2000\n+5\t2000" with
  | error fault =>
    rw [read] at size
    cases size
  | ok table =>
    rw [read] at size
    exact ⟨table, rfl, (ofText_exact _).2.1 table read, Option.some.inj size⟩

end IslandLayer.StackSizes
