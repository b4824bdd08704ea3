import IslandLayer.Proofs.Script.Context
import IslandLayer.Proofs.Script.Item

set_option autoImplicit false

namespace IslandLayer.Script

/-- An item with its stack and its count. -/
structure FullItem where
  digits : String
  hex : Numeral.isHex digits.toList
  stack : UInt32
  count : UInt32

namespace FullItem

def word (full : FullItem) : String :=
  String.ofList (full.digits.toList ++
    '|' :: (Nat.toDigits 10 full.stack.toNat ++ '*' :: Nat.toDigits 10 full.count.toNat))

def item (full : FullItem) : Item := ⟨full.word, full.digits, full.stack, full.count⟩

theorem read?_word (full : FullItem) : Item.read? full.word = some full.item :=
  @Item.read?_spelled full.item full.hex full.count

theorem head?_word_ne (full : FullItem) : full.word.toList.head? ≠ some '@' :=
  @Item.head?_spelled_ne full.item full.hex full.count

theorem isWord_word (full : FullItem) : Line.IsWord full.word :=
  @Item.isWord_spelled full.item full.hex full.count

end FullItem

/-- A command with the choices that its writer has. -/
inductive Phrase where
  /-- The modes are named in the given order. -/
  | context (start : Context) (positive : 1 ≤ start.width) (order : List String)
      (named : order.Perm start.modes.names)
  | item (full : FullItem)
  | variant (first second : Fin 10) (full : FullItem)
  | absent (full : FullItem)
  /-- A number in the place of the variant, and any one word behind the item. -/
  | plain (number : String) (decimal : Numeral.isDecimal number.toList) (full : FullItem)
      (remark : String) (solid : Line.IsWord remark)

namespace Phrase

def words : Phrase → List String
  | .context start _ order _ => [start.spelled order]
  | .item full => [full.word]
  | .variant first second full =>
    [String.ofList [first.val.digitChar, '_', second.val.digitChar], full.word]
  | .absent full => ["NA", full.word]
  | .plain number _ full remark _ => [number, full.word, remark]

/-- What the phrase stands for. -/
def command : Phrase → Command
  | .context start _ _ _ => .context start
  | .item full => .item full.item
  | .variant first second full =>
    .variantItem (.code (UInt8.ofNat first) (UInt8.ofNat second)) full.item
  | .absent full => .variantItem .absent full.item
  | .plain _ _ full _ _ => .variantItem .plain full.item

theorem read?_pair (first second : Fin 10) :
    Variant.read? (String.ofList [first.val.digitChar, '_', second.val.digitChar]) =
      some (.code (UInt8.ofNat first) (UInt8.ofNat second)) := by
  revert first second
  decide

/-- A number is no pair of digits, since it has no bar. -/
theorem readLong?_of_isDecimal {number : String} (decimal : Numeral.isDecimal number.toList) :
    Variant.readLong? number = some .plain := by
  have digits := (Numeral.isDecimal_iff.mp decimal).2
  have neither : Variant.read? number = none := by
    unfold Variant.read?
    split
    · next letters => exact absurd (digits 'N' (by simp [letters])) (by decide)
    · next letters => exact absurd (digits '_' (by simp [letters])) (by decide)
    · rfl
  rw [Variant.readLong?, neither, decimal]
  rfl

theorem read_words (phrase : Phrase) : Command.read phrase.words = .ok phrase.command := by
  cases phrase with
  | context start positive order named =>
    rw [words, Command.read, if_pos (start.head?_spelled order),
      Context.read?_spelled positive named]
    rfl
  | item full =>
    rw [words, Command.read, if_neg full.head?_word_ne, full.read?_word]
    rfl
  | variant first second full =>
    rw [words, Command.read, read?_pair, full.read?_word]
    rfl
  | absent full =>
    have word : Variant.read? "NA" = some .absent := by decide
    rw [words, Command.read, word, full.read?_word]
    rfl
  | plain number decimal full remark =>
    rw [words, Command.read, readLong?_of_isDecimal decimal, full.read?_word]
    rfl

theorem isWord_pair (first second : Fin 10) :
    Line.IsWord (String.ofList [first.val.digitChar, '_', second.val.digitChar]) := by
  have digit : ∀ n : Fin 10, Text.isBlank n.val.digitChar = false ∧ n.val.digitChar ≠ '#' := by
    decide
  rw [Line.isWord_iff, String.toList_ofList]
  simp only [List.forall_mem_cons]
  exact ⟨List.cons_ne_nil _ _, digit first, by decide, digit second, nofun⟩

theorem isWord_words (phrase : Phrase) :
    phrase.words ≠ [] ∧ ∀ word ∈ phrase.words, Line.IsWord word := by
  cases phrase with
  | context start positive order named =>
    refine ⟨List.cons_ne_nil _ _, ?_⟩
    rw [words, List.forall_mem_singleton]
    exact start.isWord_spelled named
  | item full =>
    refine ⟨List.cons_ne_nil _ _, ?_⟩
    rw [words, List.forall_mem_singleton]
    exact full.isWord_word
  | variant first second full =>
    refine ⟨List.cons_ne_nil _ _, ?_⟩
    rw [words, List.forall_mem_cons, List.forall_mem_singleton]
    exact ⟨isWord_pair first second, full.isWord_word⟩
  | absent full =>
    have word : Line.IsWord "NA" := by decide
    refine ⟨List.cons_ne_nil _ _, ?_⟩
    rw [words, List.forall_mem_cons, List.forall_mem_singleton]
    exact ⟨word, full.isWord_word⟩
  | plain number decimal full remark solid =>
    obtain ⟨nonempty, digits⟩ := Numeral.isDecimal_iff.mp decimal
    have word : Line.IsWord number :=
      Line.isWord_iff.mpr ⟨nonempty, fun c mem => Line.solid_of_isDigit (digits c mem)⟩
    refine ⟨List.cons_ne_nil _ _, ?_⟩
    rw [words, List.forall_mem_cons, List.forall_mem_cons, List.forall_mem_singleton]
    exact ⟨word, full.isWord_word, solid⟩

/-- Phrases written below one another are read back as their commands, one to a line. -/
theorem read_page (phrases : List Phrase) :
    let lines := Line.ofText (Line.page (phrases.map words))
    lines.map (·.number) = List.range' 1 phrases.length ∧
    lines.map (fun line => Command.read line.words) =
      phrases.map fun phrase => .ok phrase.command := by
  intro lines
  have listed : lines =
      ((phrases.map words).zipIdx 1).map fun numbered => ⟨numbered.2, numbered.1⟩ := by
    apply Line.ofText_page
    intro line mem
    obtain ⟨phrase, -, rfl⟩ := List.mem_map.mp mem
    exact phrase.isWord_words
  constructor
  · calc lines.map (·.number)
      _ = ((phrases.map words).zipIdx 1).map Prod.snd := by rw [listed, List.map_map]; rfl
      _ = List.range' 1 phrases.length := by rw [List.zipIdx_map_snd, List.length_map]
  · calc lines.map (fun line => Command.read line.words)
      _ = (((phrases.map words).zipIdx 1).map Prod.fst).map Command.read := by
        rw [listed, List.map_map, List.map_map]
        rfl
      _ = phrases.map fun phrase => .ok phrase.command := by
        rw [List.zipIdx_map_fst, List.map_map]
        exact List.map_congr_left fun phrase _ => phrase.read_words

/-- The flags come before the modes, in small hexadecimal digits, and nothing is left out. -/
example :
    Line.page ([
      Phrase.context { x := 4, width := 3, flags := 0xDEAD, modes := { diy := true, hex := true } }
        (by decide) ["hex", "diy"] (by decide),
      .variant 2 3 ⟨"9C4", by decide, 10, 0⟩,
      .plain "15" (by decide) ⟨"09ab", by decide, 1, 1⟩ "Café" (by decide)].map words) =
        "@4,0,3,0,0,dead,hex,diy\n2_3 9C4|10*0\n15 09ab|1*1 Café\n" := by
  decide +kernel

end Phrase

end IslandLayer.Script
