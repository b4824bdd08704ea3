import IslandLayer.Proofs.Script.ContextGrammar
import IslandLayer.Proofs.Script.Phrase

set_option autoImplicit false

namespace IslandLayer.Script

namespace Item

/-- A word taken apart as an item. -/
structure Parts where
  digits : List Char
  stack : Option (List Char)
  count : Option (List Char)
  /-- What follows the last part. -/
  rest : List Char
  deriving Repr, DecidableEq

namespace Parts

def afterStack (parts : Parts) : List Char := fieldsText '*' parts.count.toList ++ parts.rest

def afterDigits (parts : Parts) : List Char :=
  fieldsText '|' parts.stack.toList ++ parts.afterStack

/-- The word consists of these parts in this order. Each is as long as it can be where it stands;
stack and count are left out only where none follow. -/
structure Splits (parts : Parts) (token : String) : Prop where
  text : token.toList = parts.digits ++ parts.afterDigits
  digits : Longest Char.isHexDigit parts.digits parts.afterDigits
  stack : Greedy 1 '|' Char.isDigit parts.stack.toList parts.afterStack
  count : Greedy 1 '*' Char.isDigit parts.count.toList parts.rest

/-- Stack and count fit 32 bits. The digits of the id may be as many as one likes. -/
structure InRange (parts : Parts) : Prop where
  stack : ∀ digits ∈ parts.stack, Numeral.value 10 digits < UInt32.size
  count : ∀ digits ∈ parts.count, Numeral.value 10 digits < UInt32.size

/-- The item that the parts stand for. A stack or a count that is not written is one. -/
structure Describes (parts : Parts) (item : Item) : Prop where
  digits : item.digits = String.ofList parts.digits
  stack : item.stack.toNat = (parts.stack.map (Numeral.value 10)).getD 1
  count : item.count.toNat = (parts.count.map (Numeral.value 10)).getD 1

end Parts

/-- The word is taken apart into parts that fit and stand for the item. -/
def WrittenAs (item : Item) (token : String) : Prop :=
  item.token = token ∧
    ∃ parts : Parts, parts.Splits token ∧ parts.InRange ∧ parts.Describes item

theorem read?_of_splits {token : String} {parts : Parts} (splits : parts.Splits token) :
    read? token = (do
      let stack ← Numeral.uint32? (parts.stack.getD ['1'])
      let count ← Numeral.uint32? (parts.count.getD ['1'])
      pure { token, digits := String.ofList parts.digits, stack, count }) := by
  have digits := run?_eq_some_iff_longest.mpr ⟨rfl, splits.digits⟩
  have stack : optionalField '|' Char.isDigit parts.afterDigits = (parts.stack, _) :=
    optionalField_eq_iff.mpr ⟨rfl, splits.stack⟩
  have count : optionalField '*' Char.isDigit parts.afterStack = (parts.count, _) :=
    optionalField_eq_iff.mpr ⟨rfl, splits.count⟩
  rw [read?, splits.text, digits, Option.bind_eq_bind, Option.bind_some]
  simp only [stack, count]

theorem splits_of_read? {token : String} {item : Item} (read : read? token = some item) :
    ∃ parts : Parts, parts.Splits token := by
  obtain ⟨⟨digits, afterDigits⟩, first, -⟩ := Option.bind_eq_some_iff.mp read
  obtain ⟨⟨stack, afterStack⟩, second⟩ :
      ∃ taken, optionalField '|' Char.isDigit afterDigits = taken := ⟨_, rfl⟩
  obtain ⟨⟨count, rest⟩, third⟩ :
      ∃ taken, optionalField '*' Char.isDigit afterStack = taken := ⟨_, rfl⟩
  obtain ⟨text, longest⟩ := run?_eq_some_iff_longest.mp first
  obtain ⟨rfl, greedyStack⟩ := optionalField_eq_iff.mp second
  obtain ⟨rfl, greedyCount⟩ := optionalField_eq_iff.mp third
  exact ⟨⟨digits, stack, count, rest⟩, text, longest, greedyStack, greedyCount⟩

theorem uint32?_getD_eq_some_iff {separator : Char} {written : Option (List Char)}
    {rest : List Char} (greedy : Greedy 1 separator Char.isDigit written.toList rest)
    {number : UInt32} :
    Numeral.uint32? (written.getD ['1']) = some number ↔
      number.toNat = (written.map (Numeral.value 10)).getD 1 := by
  have decimal : Numeral.isDecimal (written.getD ['1']) :=
    Numeral.isDecimal_iff.mpr (greedy.getD_accepted (Numeral.isDecimal_iff.mp (by decide)))
  have value : (written.map (Numeral.value 10)).getD 1 = Numeral.value 10 (written.getD ['1']) :=
    Option.getD_map (Numeral.value 10) ['1'] written
  rw [Numeral.uint32?_eq_some_iff, value]
  exact ⟨fun read => read.2.symm, fun same => ⟨decimal, same.symm⟩⟩

theorem Parts.Describes.inRange {parts : Parts} {item : Item} (describes : parts.Describes item) :
    parts.InRange := by
  obtain ⟨-, stack, count⟩ := describes
  constructor
  · intro digits written
    rw [Option.mem_def.mp written] at stack
    rw [← show item.stack.toNat = Numeral.value 10 digits from stack]
    exact item.stack.toNat_lt
  · intro digits written
    rw [Option.mem_def.mp written] at count
    rw [← show item.count.toNat = Numeral.value 10 digits from count]
    exact item.count.toNat_lt

theorem read?_eq_some_iff {token : String} {item : Item} :
    read? token = some item ↔ item.WrittenAs token := by
  constructor
  · intro read
    obtain ⟨parts, splits⟩ := splits_of_read? read
    rw [read?_of_splits splits] at read
    obtain ⟨stack, readStack, read⟩ := Option.bind_eq_some_iff.mp read
    obtain ⟨count, readCount, read⟩ := Option.bind_eq_some_iff.mp read
    obtain rfl := Option.some.inj read
    have describes : parts.Describes { token, digits := String.ofList parts.digits, stack, count } :=
      ⟨rfl, (uint32?_getD_eq_some_iff splits.stack).mp readStack,
        (uint32?_getD_eq_some_iff splits.count).mp readCount⟩
    exact ⟨rfl, parts, splits, describes.inRange, describes⟩
  · rintro ⟨rfl, parts, splits, -, describes⟩
    rw [read?_of_splits splits, (uint32?_getD_eq_some_iff splits.stack).mpr describes.stack,
      (uint32?_getD_eq_some_iff splits.count).mpr describes.count, ← describes.digits]
    rfl

theorem read?_eq_none_iff {token : String} :
    read? token = none ↔ ∀ item : Item, ¬ item.WrittenAs token := by
  simp only [Option.eq_none_iff_forall_ne_some, ne_eq, read?_eq_some_iff]

/-- The id of an item in the base of a context: all digits belong to the base, and the number that
they write fits 64 bits. -/
theorem id?_eq_some_iff {token : String} {item : Item} (written : item.WrittenAs token)
    {hex : Bool} {id : UInt64} :
    item.id? hex = some id ↔
      (hex = true ∨ ∀ c ∈ item.digits.toList, c.isDigit) ∧
        Numeral.value (if hex then 16 else 10) item.digits.toList = id.toNat := by
  have digits := isHex_of_read? (read?_eq_some_iff.mpr written)
  have fits (number : Nat) :
      number < UInt64.size ∧ UInt64.ofNat number = id ↔ number = id.toNat := by
    constructor
    · rintro ⟨small, rfl⟩
      exact (UInt64.toNat_ofNat_of_lt' small).symm
    · rintro rfl
      exact ⟨id.toNat_lt, UInt64.ofNat_toNat⟩
  rw [id?, Option.map_eq_some_iff]
  cases hex with
  | true =>
    simp only [if_true, Numeral.hex?_eq_some_iff, digits, true_and, true_or, ← fits, and_assoc,
      exists_and_left, exists_eq_left']
  | false =>
    have decimal : Numeral.isDecimal item.digits.toList ↔ ∀ c ∈ item.digits.toList, c.isDigit :=
      Numeral.isDecimal_iff.trans (and_iff_right (Numeral.isHex_iff.mp digits).1)
    simp only [Bool.false_eq_true, if_false, Numeral.decimal?_eq_some_iff, decimal, false_or,
      ← fits, and_assoc, exists_and_left, exists_eq_left']

end Item

namespace Variant

/-- A variant is written with one digit for each of its two numbers, or as `NA`; whatever follows
is not looked at. -/
inductive WrittenAs (token : String) : Variant → Prop
  | code (variant texture : Fin 10) (rest : List Char)
      (text : token.toList = variant.val.digitChar :: '_' :: texture.val.digitChar :: rest) :
      WrittenAs token (.code (UInt8.ofNat variant) (UInt8.ofNat texture))
  | absent (rest : List Char) (text : token.toList = 'N' :: 'A' :: rest) :
      WrittenAs token .absent

/-- What may stand in the place of the variant in a line of more than two words. -/
inductive StandsIn (token : String) : Variant → Prop
  | variant {variant : Variant} (written : WrittenAs token variant) : StandsIn token variant
  | plain (nonempty : token.toList ≠ []) (digits : ∀ c ∈ token.toList, c.isDigit) :
      StandsIn token .plain

theorem digitChar_digit (n : Fin 10) :
    n.val.digitChar.isDigit ∧ digit n.val.digitChar = UInt8.ofNat n := by
  revert n
  decide

theorem exists_digitChar {c : Char} (decimal : c.isDigit) : ∃ n : Fin 10, c = n.val.digitChar := by
  have shown : ∀ n : Fin 10, Char.ofNat ('0'.toNat + n) = n.val.digitChar := by decide
  obtain ⟨low, high⟩ := Char.isDigit_iff_toNat.mp decimal
  have last : '9'.toNat = '0'.toNat + 9 := rfl
  refine ⟨⟨c.toNat - '0'.toNat, by omega⟩, ?_⟩
  rw [← shown, Nat.add_sub_of_le low, Char.ofNat_toNat]

theorem read?_eq_some_iff {token : String} {variant : Variant} :
    read? token = some variant ↔ WrittenAs token variant := by
  constructor
  · intro read
    unfold read? at read
    split at read
    · next rest text =>
      cases read
      exact .absent rest text
    · next v t rest text =>
      split at read
      · next digits =>
        cases read
        obtain ⟨first, second⟩ := Bool.and_eq_true_iff.mp digits
        obtain ⟨variant, rfl⟩ := exists_digitChar first
        obtain ⟨texture, rfl⟩ := exists_digitChar second
        rw [(digitChar_digit variant).2, (digitChar_digit texture).2]
        exact .code variant texture rest text
      · cases read
    · cases read
  · intro written
    unfold read?
    cases written with
    | code variant texture rest text =>
      have first := digitChar_digit variant
      have second := digitChar_digit texture
      split
      · next letters =>
        rw [text] at letters
        exact absurd (List.cons.inj (List.cons.inj letters).2).1 (by decide)
      · next letters =>
        rw [text] at letters
        cases letters
        rw [first.1, second.1, first.2, second.2]
        rfl
      · next other => exact absurd text (other _ _ _)
    | absent rest text =>
      rw [text]
      rfl

theorem read?_eq_none_iff {token : String} :
    read? token = none ↔ ∀ variant, ¬ WrittenAs token variant := by
  simp only [Option.eq_none_iff_forall_ne_some, ne_eq, read?_eq_some_iff]

/-- A number is no variant. -/
theorem readLong?_eq_some_iff {token : String} {variant : Variant} :
    readLong? token = some variant ↔ StandsIn token variant := by
  constructor
  · intro read
    cases short : read? token with
    | some found =>
      rw [readLong?, short] at read
      cases read
      exact .variant (read?_eq_some_iff.mp short)
    | none =>
      rw [readLong?, short, Option.none_or] at read
      split at read
      · next decimal =>
        cases read
        obtain ⟨nonempty, digits⟩ := Numeral.isDecimal_iff.mp decimal
        exact .plain nonempty digits
      · cases read
  · intro stands
    cases stands with
    | variant written => rw [readLong?, read?_eq_some_iff.mpr written, Option.some_or]
    | plain nonempty digits =>
      exact Phrase.readLong?_of_isDecimal (Numeral.isDecimal_iff.mpr ⟨nonempty, digits⟩)

theorem readLong?_eq_none_iff {token : String} :
    readLong? token = none ↔ ∀ variant, ¬ StandsIn token variant := by
  simp only [Option.eq_none_iff_forall_ne_some, ne_eq, readLong?_eq_some_iff]

end Variant

namespace Command

/-- The answers to the words of a line. The word at fault is the variant if it is none, whatever
comes after it, unless the line has two words only. -/
inductive Answers : List String → Except CommandError Command → Prop
  | empty : Answers [] (.ok .empty)
  | context {token : String} {start : Context} (marked : token.toList.head? = some '@')
      (written : start.WrittenAs token) : Answers [token] (.ok (.context start))
  | noContext {token : String} (marked : token.toList.head? = some '@')
      (wrong : ∀ start : Context, ¬ start.WrittenAs token) :
      Answers [token] (.error (.context token))
  | item {token : String} {found : Item} (unmarked : token.toList.head? ≠ some '@')
      (written : found.WrittenAs token) : Answers [token] (.ok (.item found))
  | noItem {token : String} (unmarked : token.toList.head? ≠ some '@')
      (wrong : ∀ found : Item, ¬ found.WrittenAs token) :
      Answers [token] (.error (.item token))
  | pair {first second : String} {variant : Variant} {found : Item}
      (announced : Variant.WrittenAs first variant) (written : found.WrittenAs second) :
      Answers [first, second] (.ok (.variantItem variant found))
  | noPair {first second : String}
      (wrong : (∀ variant, ¬ Variant.WrittenAs first variant) ∨
        ∀ found : Item, ¬ found.WrittenAs second) :
      Answers [first, second] (.error (.variantOrItem first second))
  | long {front : List String} {first second last : String} {variant : Variant} {found : Item}
      (announced : Variant.StandsIn first variant) (written : found.WrittenAs second) :
      Answers (front ++ [first, second, last]) (.ok (.variantItem variant found))
  | noVariant {front : List String} {first second last : String}
      (wrong : ∀ variant, ¬ Variant.StandsIn first variant) :
      Answers (front ++ [first, second, last]) (.error (.variant first))
  | noLongItem {front : List String} {first second last : String} {variant : Variant}
      (announced : Variant.StandsIn first variant)
      (wrong : ∀ found : Item, ¬ found.WrittenAs second) :
      Answers (front ++ [first, second, last]) (.error (.item second))

theorem Answers.cons {words : List String} {answer : Except CommandError Command}
    (answers : Answers words answer) (many : 3 ≤ words.length) (word : String) :
    Answers (word :: words) answer := by
  cases answers with
  | empty | context | noContext | item | noItem | pair | noPair => simp at many
  | @long front first second last variant found announced written =>
    exact @long (word :: front) _ _ _ _ _ announced written
  | @noVariant front first second last wrong =>
    exact @noVariant (word :: front) _ _ _ wrong
  | @noLongItem front first second last variant announced wrong =>
    exact @noLongItem (word :: front) _ _ _ _ announced wrong

/-- Whatever the words are, the reader's answer is one that the rules give. -/
theorem answers_read (words : List String) : Answers words (Command.read words) := by
  fun_induction Command.read words with
  | case1 => exact .empty
  | case2 token marked start read => exact .context marked (Context.read?_eq_some_iff.mp read)
  | case3 token marked none => exact .noContext marked (Context.read?_eq_none_iff.mp none)
  | case4 token unmarked found read => exact .item unmarked (Item.read?_eq_some_iff.mp read)
  | case5 token unmarked none => exact .noItem unmarked (Item.read?_eq_none_iff.mp none)
  | case6 first second variant found written announced =>
    exact .pair (Variant.read?_eq_some_iff.mp announced) (Item.read?_eq_some_iff.mp written)
  | case7 first second wrong =>
    refine .noPair ?_
    cases announced : Variant.read? first with
    | none => exact Or.inl (Variant.read?_eq_none_iff.mp announced)
    | some variant =>
      refine Or.inr fun found written => ?_
      exact wrong variant found announced (Item.read?_eq_some_iff.mpr written)
  | case8 first second last none =>
    exact @Answers.noVariant [] first second last (Variant.readLong?_eq_none_iff.mp none)
  | case9 first second last variant none announced =>
    exact @Answers.noLongItem [] first second last variant
      (Variant.readLong?_eq_some_iff.mp announced) (Item.read?_eq_none_iff.mp none)
  | case10 first second last variant found written announced =>
    exact @Answers.long [] first second last variant found
      (Variant.readLong?_eq_some_iff.mp announced) (Item.read?_eq_some_iff.mp written)
  -- Of more than three words the reader drops the first.
  | case11 first second third fourth rest ih => exact ih.cons (by simp) first

theorem read_ne_context {words : List String}
    (unmarked : ∀ word ∈ words, word.toList.head? ≠ some '@') (context : Context) :
    Command.read words ≠ .ok (.context context) := by
  intro read
  have answers := answers_read words
  rw [read] at answers
  cases answers with
  | context marked _ => exact unmarked _ List.mem_cons_self marked

/-- Of more than two words only the last three are looked at. -/
theorem read_append (front : List String) (first second last : String) :
    Command.read (front ++ [first, second, last]) = Command.read [first, second, last] := by
  induction front with
  | nil => rfl
  | cons word front ih => rw [List.cons_append, read_cons (by simp), ih]

/-- The rules give no other answer than the reader's. -/
theorem read_of_answers {words : List String} {answer : Except CommandError Command}
    (answers : Answers words answer) : Command.read words = answer := by
  cases answers with
  | empty => rfl
  | context marked written =>
    rw [Command.read, if_pos marked, Context.read?_eq_some_iff.mpr written]
  | noContext marked wrong =>
    rw [Command.read, if_pos marked, Context.read?_eq_none_iff.mpr wrong]
  | item unmarked written =>
    rw [Command.read, if_neg unmarked, Item.read?_eq_some_iff.mpr written]
  | noItem unmarked wrong =>
    rw [Command.read, if_neg unmarked, Item.read?_eq_none_iff.mpr wrong]
  | pair announced written =>
    rw [Command.read, Variant.read?_eq_some_iff.mpr announced, Item.read?_eq_some_iff.mpr written]
  | @noPair first second wrong =>
    rw [Command.read]
    rcases wrong with noVariant | noItem
    · rw [Variant.read?_eq_none_iff.mpr noVariant]
    · rw [Item.read?_eq_none_iff.mpr noItem]
      cases Variant.read? first <;> rfl
  | long announced written =>
    rw [read_append, Command.read, Variant.readLong?_eq_some_iff.mpr announced,
      Item.read?_eq_some_iff.mpr written]
  | noVariant wrong => rw [read_append, Command.read, Variant.readLong?_eq_none_iff.mpr wrong]
  | noLongItem announced wrong =>
    rw [read_append, Command.read, Variant.readLong?_eq_some_iff.mpr announced,
      Item.read?_eq_none_iff.mpr wrong]

/-- The words of a line are answered by the rules and in no other way. A line of two words at fault
is reported with both, and the item of a line has an id in the base of a context if its digits
belong to the base and write a number of 64 bits. -/
theorem read_exact :
    (∀ (words : List String) (answer : Except CommandError Command),
      Command.read words = answer ↔ Answers words answer) ∧
    (∀ first second : String, (CommandError.variantOrItem first second).message =
      "invalid variant or item format: " ++ " ".intercalate [first, second]) ∧
    ∀ (words : List String) (command : Command) (item : Item), Command.read words = .ok command →
      command.item? = some item → ∀ (hex : Bool) (id : UInt64),
        item.id? hex = some id ↔
          (hex = true ∨ ∀ c ∈ item.digits.toList, c.isDigit) ∧
            Numeral.value (if hex then 16 else 10) item.digits.toList = id.toNat := by
  refine ⟨?_, ?_, ?_⟩
  · intro words answer
    constructor
    · rintro rfl
      exact answers_read words
    · exact read_of_answers
  · intro first second
    have joined : " ".intercalate [first, second] = first ++ " " ++ second := by
      simp
    rw [joined, ← String.append_assoc, ← String.append_assoc]
    rfl
  · intro words command item read has hex id
    have answers := answers_read words
    rw [read] at answers
    cases answers with
    | empty | context => cases has
    | item _ written | pair _ written | long _ written =>
      cases has
      exact Item.id?_eq_some_iff written

/-- A count is read right behind the digits, and a stack behind it is none. -/
example : Command.read ["15", "1*2|3", "Café"] =
    .ok (.variantItem .plain { token := "1*2|3", digits := "1", count := 2 }) := by
  decide

end Command

end IslandLayer.Script
