import IslandLayer.Proofs.Raw.Text

set_option autoImplicit false

namespace IslandLayer.Raw

open Script

/-- The bytes of the characters from `first` to `last`. -/
def within (first last : Char) (b : UInt8) : Bool :=
  decide (first.toUInt8 ≤ b) && decide (b ≤ last.toUInt8)

def isDigit (b : UInt8) : Bool := within '0' '9' b

def isHexDigit (b : UInt8) : Bool := within '0' '9' b || within 'a' 'f' b || within 'A' 'F' b

def isSetting (b : UInt8) : Bool := within 'a' 'z' b || within ',' ',' b

def field (separator : Char) (accepts : UInt8 → Bool) :
    List Char → Except Trap (Option (List Char × List Char))
  | c :: rest => if c = separator then run accepts rest else .ok none
  | [] => .ok none

def optionalField (separator : Char) (accepts : UInt8 → Bool) (text : List Char) :
    Except Trap (Option (List Char) × List Char) := do
  match ← field separator accepts text with
  | some taken => return (some taken.1, taken.2)
  | none => return (none, text)

def fields (most : Nat) (separator : Char) (accepts : UInt8 → Bool) (text : List Char) :
    Except Trap (List (List Char) × List Char) :=
  match most with
  | 0 => .ok ([], text)
  | most + 1 => do
    match ← field separator accepts text with
    | some taken =>
      let later ← fields most separator accepts taken.2
      return (taken.1 :: later.1, later.2)
    | none => return ([], text)

def takeFields (text : List Char) : Except Trap Context.Fields := do
  let numbers ← fields 3 ',' isDigit text
  let flags ← optionalField ',' isHexDigit numbers.2
  let settings ← optionalField ',' isSetting flags.2
  return ⟨numbers.1, flags.1, settings.1⟩

/-- What is never stopped, and may find nothing. -/
def total {α : Type} (found : Option α) : OptionT (Except Trap) α := OptionT.mk (.ok found)

def readContext (token : String) : OptionT (Except Trap) Context :=
  if token.toList.head? = some '@' then do
    let column ← OptionT.mk (run isDigit token.toList.tail)
    let x ← total (Numeral.uint32? column.1)
    let row ← OptionT.mk (field ',' isDigit column.2)
    let y ← total (Numeral.uint32? row.1)
    let taken ← OptionT.lift (takeFields row.2)
    let numbers ← total (taken.numbers.mapM Numeral.uint32?)
    let flags ← total (Numeral.hex? UInt16.size (taken.flags.getD ['0']))
    let context : Context :=
      { x, y, height := numbers.getD 1 0, offset := numbers.getD 2 0, flags := UInt16.ofNat flags,
        modes := Context.readSettings (taken.settings.getD []) }
    pure (context.withWidth (numbers.getD 0 16))
  else total none

def readItem (token : String) : OptionT (Except Trap) Item := do
  let digits ← OptionT.mk (run isHexDigit token.toList)
  let stack ← OptionT.lift (optionalField '|' isDigit digits.2)
  let count ← OptionT.lift (optionalField '*' isDigit stack.2)
  let size ← total (Numeral.uint32? (stack.1.getD ['1']))
  let number ← total (Numeral.uint32? (count.1.getD ['1']))
  pure { token, digits := String.ofList digits.1, stack := size, count := number }

/-- Reads the words of a line. The item of a long line is only read behind a variant. -/
def readCommand : List String → Except Trap (Except CommandError Command)
  | [] => return .ok .empty
  | [token] =>
    if token.toList.head? = some '@' then do
      match ← (readContext token).run with
      | some start => return .ok (.context start)
      | none => return .error (.context token)
    else do
      match ← (readItem token).run with
      | some found => return .ok (.item found)
      | none => return .error (.item token)
  | [first, second] => do
    match Variant.read? first, ← (readItem second).run with
    | some variant, some found => return .ok (.variantItem variant found)
    | _, _ => return .error (.variantOrItem first second)
  | [first, second, _] =>
    match Variant.readLong? first with
    | none => return .error (.variant first)
    | some variant => do
      match ← (readItem second).run with
      | none => return .error (.item second)
      | some found => return .ok (.variantItem variant found)
  | _ :: second :: third :: fourth :: rest => readCommand (second :: third :: fourth :: rest)

theorem ascii_within {first last : Char} (short : first.val ≤ 127 ∧ last.val ≤ 127) (c : Char) :
    ascii (within first last) c = (decide (c.val ≥ first.val) && decide (c.val ≤ last.val)) := by
  have bound : (127 : UInt32).toNat = 127 := rfl
  simp only [ascii, within, ← Char.toUInt8_val, UInt8.le_iff_toNat_le, UInt32.toNat_toUInt8,
    ge_iff_le, UInt32.le_iff_toNat_le, bound, ← Bool.decide_and, decide_eq_decide] at short ⊢
  omega

theorem ascii_or (accepts others : UInt8 → Bool) (c : Char) :
    ascii (fun b => accepts b || others b) c = (ascii accepts c || ascii others c) := by
  rw [ascii, ascii, ascii, Bool.and_or_distrib_left]

@[simp] theorem ascii_isDigit : ascii isDigit = Char.isDigit := by
  funext c
  exact ascii_within (by decide) c

@[simp] theorem ascii_isHexDigit : ascii isHexDigit = Char.isHexDigit := by
  funext c
  unfold isHexDigit
  rw [ascii_or, ascii_or, ascii_within (by decide), ascii_within (by decide),
    ascii_within (by decide)]
  rfl

@[simp] theorem ascii_isSetting : ascii isSetting = Script.isSetting := by
  funext c
  have comma : (decide (c.val ≥ ','.val) && decide (c.val ≤ ','.val)) = (c == ',') := by
    rw [Bool.eq_iff_iff]
    simp only [Bool.and_eq_true, decide_eq_true_eq, beq_iff_eq, Char.ext_iff]
    exact ⟨fun both => UInt32.le_antisymm both.2 both.1, by simp +contextual⟩
  unfold isSetting
  rw [ascii_or, ascii_within (by decide), ascii_within (by decide), comma]
  rfl

@[simp] theorem field_eq (separator : Char) (accepts : UInt8 → Bool) (text : List Char) :
    field separator accepts text = .ok (field? separator (ascii accepts) text) := by
  cases text with
  | nil => rfl
  | cons c rest =>
    rw [field, field?, run_eq]
    split <;> rfl

@[simp] theorem optionalField_eq (separator : Char) (accepts : UInt8 → Bool) (text : List Char) :
    optionalField separator accepts text =
      .ok (Script.optionalField separator (ascii accepts) text) := by
  rw [optionalField, field_eq, Script.optionalField, ok_bind]
  cases field? separator (ascii accepts) text <;> rfl

@[simp] theorem fields_eq (most : Nat) (separator : Char) (accepts : UInt8 → Bool)
    (text : List Char) :
    fields most separator accepts text =
      .ok (Script.fields most separator (ascii accepts) text) := by
  induction most generalizing text with
  | zero => rfl
  | succ most ih =>
    rw [fields, field_eq, Script.fields, ok_bind]
    cases field? separator (ascii accepts) text with
    | none => rfl
    | some taken =>
      simp only [ih, ok_bind]
      rfl

@[simp] theorem takeFields_eq (text : List Char) :
    takeFields text = .ok (Context.takeFields text) := by
  simp only [takeFields, fields_eq, optionalField_eq, ok_bind, ascii_isDigit, ascii_isHexDigit,
    ascii_isSetting]
  rfl

@[simp] theorem total_bind {α β : Type} (found : Option α) (next : α → Option β) :
    total (found >>= next) = total found >>= fun value => total (next value) := by
  cases found <;> rfl

theorem readContext_eq (token : String) : readContext token = total (Context.read? token) := by
  unfold Context.read?
  split
  · next text spelled =>
    have anchored : token.toList.head? = some '@' := by rw [spelled, List.head?_cons]
    rw [readContext, if_pos anchored, spelled, List.tail_cons]
    simp only [run_eq, field_eq, takeFields_eq, ascii_isDigit, total_bind]
    rfl
  · next other =>
    have plain : token.toList.head? ≠ some '@' := by
      intro anchored
      obtain ⟨text, spelled⟩ := List.head?_eq_some_iff.mp anchored
      exact other text spelled
    rw [readContext, if_neg plain]

theorem readItem_eq (token : String) : readItem token = total (Item.read? token) := by
  simp only [readItem, Item.read?, run_eq, optionalField_eq, ascii_isDigit, ascii_isHexDigit,
    total_bind]
  rfl

/-- No line stops its reader, and it is read as the command that it is. -/
theorem readCommand_eq (words : List String) : readCommand words = .ok (Command.read words) := by
  have context (token : String) : (readContext token).run = .ok (Context.read? token) :=
    readContext_eq token
  have item (token : String) : (readItem token).run = .ok (Item.read? token) :=
    readItem_eq token
  match words with
  | [] => rfl
  | [token] =>
    rw [readCommand, Command.read, context, item]
    split
    · cases Context.read? token <;> rfl
    · cases Item.read? token <;> rfl
  | [first, second] =>
    rw [readCommand, Command.read, item]
    cases Variant.read? first <;> cases Item.read? second <;> rfl
  | [first, second, last] =>
    rw [readCommand, Command.read, item]
    cases Variant.readLong? first <;> cases Item.read? second <;> rfl
  | first :: second :: third :: fourth :: rest =>
    rw [readCommand, Command.read]
    exact readCommand_eq (second :: third :: fourth :: rest)

end IslandLayer.Raw
