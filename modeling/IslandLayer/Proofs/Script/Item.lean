import IslandLayer.Proofs.Script.Line
import IslandLayer.Proofs.Script.Token
import IslandLayer.Proofs.Text.Numeral
import IslandLayer.Script.Reading

set_option autoImplicit false

namespace IslandLayer

namespace Script

namespace Item

/-- The item as one word, with the given count in place of its own. -/
def spelled (item : Item) (count : UInt32) : String :=
  String.ofList (item.digits.toList ++
    '|' :: (Nat.toDigits 10 item.stack.toNat ++ '*' :: Nat.toDigits 10 count.toNat))

def recounted (item : Item) (count : UInt32) : Item :=
  { item with token := item.spelled count, count }

theorem isHex_of_read? {token : String} {item : Item} (read : read? token = some item) :
    Numeral.isHex item.digits.toList := by
  simp only [read?, Option.bind_eq_bind, Option.bind_eq_some_iff, Option.pure_def,
    Option.some.injEq] at read
  obtain ⟨⟨digits, rest⟩, taken, stack, -, count, -, rfl⟩ := read
  rw [String.toList_ofList]
  exact Numeral.isHex_iff.mpr ⟨(run?_eq_some_iff.mp taken).1, all_of_run? taken⟩

theorem toList_spelled (item : Item) (count : UInt32) :
    (item.spelled count).toList = item.digits.toList ++
      '|' :: (Nat.toDigits 10 item.stack.toNat ++ '*' :: Nat.toDigits 10 count.toNat) :=
  String.toList_ofList

theorem head?_append_ne_of_isHex {digits : List Char} (hex : Numeral.isHex digits)
    (rest : List Char) : (digits ++ rest).head? ≠ some '@' := by
  obtain ⟨nonempty, all⟩ := Numeral.isHex_iff.mp hex
  obtain ⟨first, others, rfl⟩ := List.exists_cons_of_ne_nil nonempty
  rw [List.cons_append, List.head?_cons]
  intro same
  have letter := all first List.mem_cons_self
  rw [Option.some.inj same] at letter
  exact absurd letter (by decide)

section

variable {item : Item} (hex : Numeral.isHex item.digits.toList)

include hex

theorem read?_spelled (count : UInt32) :
    read? (item.spelled count) = some (item.recounted count) := by
  obtain ⟨nonempty, digits⟩ := Numeral.isHex_iff.mp hex
  have last : optionalField '*' Char.isDigit ('*' :: Nat.toDigits 10 count.toNat) =
      (some (Nat.toDigits 10 count.toNat), []) :=
    optionalField_self '*' (longest_toDigits count.toNat nofun)
  have middle : Longest Char.isDigit (Nat.toDigits 10 item.stack.toNat)
      ('*' :: Nat.toDigits 10 count.toNat) := longest_toDigits item.stack.toNat (by simp)
  rw [read?, toList_spelled, run?_append ⟨nonempty, digits, by simp; decide⟩, Option.bind_eq_bind,
    Option.bind_some]
  simp only [optionalField_append '|' middle, last, Option.getD_some, Numeral.uint32?_toDigits]
  simp [recounted]

theorem head?_spelled_ne (count : UInt32) : (item.spelled count).toList.head? ≠ some '@' := by
  rw [toList_spelled]
  exact head?_append_ne_of_isHex hex _

theorem isWord_spelled (count : UInt32) : Line.IsWord (item.spelled count) := by
  obtain ⟨nonempty, digits⟩ := Numeral.isHex_iff.mp hex
  rw [Line.isWord_iff, toList_spelled]
  simp only [List.forall_mem_append, List.forall_mem_cons]
  exact ⟨by simp, fun c mem => Line.solid_of_isHexDigit (digits c mem), by decide,
    fun c mem => Line.solid_of_isDigit (Numeral.all_isDigit_toDigits _ c mem), by decide,
    fun c mem => Line.solid_of_isDigit (Numeral.all_isDigit_toDigits _ c mem)⟩

end

section

variable {token : String} (hex : Numeral.isHex token.toList)

include hex

/-- A word of digits only is an item that is placed once. -/
theorem read?_of_isHex : read? token = some { token, digits := token } := by
  obtain ⟨nonempty, digits⟩ := Numeral.isHex_iff.mp hex
  have one : Numeral.uint32? ['1'] = some 1 := by decide
  simp [read?, run?_self (longest_self nonempty digits), optionalField, field?, one]

theorem isWord_of_isHex : Line.IsWord token := by
  obtain ⟨nonempty, digits⟩ := Numeral.isHex_iff.mp hex
  exact Line.isWord_iff.mpr ⟨nonempty, fun c mem => Line.solid_of_isHexDigit (digits c mem)⟩

end

end Item

namespace Command

theorem read_of_isHex {token : String} (hex : Numeral.isHex token.toList) :
    Command.read [token] = .ok (.item { token, digits := token }) := by
  have first := Item.head?_append_ne_of_isHex hex []
  rw [List.append_nil] at first
  rw [Command.read, if_neg first, Item.read?_of_isHex hex]

def item? : Command → Option Item
  | .item found => some found
  | .variantItem _ found => some found
  | _ => none

def recounted (command : Command) (count : UInt32) : Command :=
  match command with
  | .item found => .item (found.recounted count)
  | .variantItem variant found => .variantItem variant (found.recounted count)
  | other => other

/-- A word with another count, if it is an item. -/
def respell (count : UInt32) (token : String) : String :=
  match Item.read? token with
  | some found => found.spelled count
  | none => token

/-- The words of a command with another count written in the word of its item, which is the last
word, or the last but one of more than two. -/
def recount (count : UInt32) : List String → List String
  | [] => []
  | [token] => [respell count token]
  | [first, second] => [first, respell count second]
  | [first, second, third] => [first, respell count second, third]
  | first :: second :: third :: fourth :: rest =>
    first :: recount count (second :: third :: fourth :: rest)

theorem respell_of_read? {token : String} {found : Item} (read : Item.read? token = some found)
    (count : UInt32) : respell count token = found.spelled count := by
  rw [respell, read]

theorem isWord_respell {token : String} (plain : Line.IsWord token) (count : UInt32) :
    Line.IsWord (respell count token) := by
  unfold respell
  split
  · next found read => exact Item.isWord_spelled (Item.isHex_of_read? read) count
  · exact plain

theorem isWord_recount {words : List String} (plain : ∀ word ∈ words, Line.IsWord word)
    (count : UInt32) : ∀ word ∈ recount count words, Line.IsWord word := by
  fun_induction recount count words with
  | case1 => exact plain
  | case2 token => simpa using isWord_respell (plain token (by simp)) count
  | case3 first second =>
    simpa using ⟨plain first (by simp), isWord_respell (plain second (by simp)) count⟩
  | case4 first second third =>
    simpa using ⟨plain first (by simp), isWord_respell (plain second (by simp)) count,
      plain third (by simp)⟩
  | case5 first second third fourth rest ih =>
    have later := ih fun word mem => plain word (List.mem_cons_of_mem _ mem)
    intro word mem
    rcases List.mem_cons.mp mem with rfl | mem
    · exact plain word (by simp)
    · exact later word mem

@[simp] theorem length_recount (count : UInt32) (words : List String) :
    (recount count words).length = words.length := by
  fun_induction recount count words with
  | case5 first second third fourth rest ih => exact congrArg (· + 1) ih
  | _ => rfl

/-- More than three words read as the last three. -/
theorem read_cons {words : List String} (many : 3 ≤ words.length) (first : String) :
    Command.read (first :: words) = Command.read words := by
  match words, many with
  | _ :: _ :: _ :: _, _ => rw [Command.read]

/-- Writing another count changes the count of the command and nothing else about it. -/
theorem read_recount {words : List String} {command : Command} {found : Item}
    (read : Command.read words = .ok command) (has : command.item? = some found) (count : UInt32) :
    Command.read (recount count words) = .ok (command.recounted count) := by
  fun_induction Command.read words with
  | case1 | case2 =>
    cases read
    cases has
  | case3 | case5 | case7 | case8 | case9 => cases read
  | case4 token _ item parsed =>
    cases read
    rw [recount, respell_of_read? parsed, Command.read,
      if_neg (Item.head?_spelled_ne (Item.isHex_of_read? parsed) count),
      Item.read?_spelled (Item.isHex_of_read? parsed) count]
    rfl
  | case6 first second variant item parsed announced =>
    cases read
    rw [recount, respell_of_read? parsed, Command.read, announced,
      Item.read?_spelled (Item.isHex_of_read? parsed) count]
    rfl
  | case10 first second last variant item parsed announced =>
    cases read
    rw [recount, respell_of_read? parsed, Command.read, announced,
      Item.read?_spelled (Item.isHex_of_read? parsed) count]
    rfl
  | case11 first second third fourth rest ih =>
    rw [recount, read_cons (by simp), ih read]

end Command

end Script

end IslandLayer
