import IslandLayer.Proofs.Script.Line
import IslandLayer.Proofs.Script.Token
import IslandLayer.Proofs.Text.Numeral
import IslandLayer.Script.Reading

set_option autoImplicit false

namespace IslandLayer.Script

namespace Modes

def names (modes : Modes) : List String :=
  [("diy", modes.diy), ("hex", modes.hex), ("variants", modes.variants),
    ("fossil", modes.fossil)].filterMap fun (name, on) => if on then some name else none

theorem ofNames_names (modes : Modes) : ofNames modes.names = modes := by
  rcases modes with ⟨diy, hex, variants, fossil⟩
  revert diy hex variants fossil
  decide

theorem ofNames_of_perm {modes : Modes} {order : List String} (named : order.Perm modes.names) :
    ofNames order = modes := by
  have listed (name : String) : order.contains name = modes.names.contains name := by
    rw [Bool.eq_iff_iff, List.contains_iff_mem, List.contains_iff_mem, named.mem_iff]
  calc ofNames order
    _ = ofNames modes.names := by simp only [ofNames_eq, listed]
    _ = modes := ofNames_names modes

theorem letters_of_mem_names {modes : Modes} {name : String} (mem : name ∈ modes.names) :
    name.toList ≠ [] ∧ ∀ c ∈ name.toList, c.isLower := by
  have all : ∀ diy hex variants fossil, ∀ name ∈ names ⟨diy, hex, variants, fossil⟩,
      name.toList ≠ [] ∧ name.toList.all Char.isLower := by decide
  obtain ⟨nonempty, letters⟩ := all _ _ _ _ name mem
  exact ⟨nonempty, List.all_eq_true.mp letters⟩

end Modes

namespace Context

/-- The context as one word, with every field written and its modes named in that order. -/
def spelled (context : Context) (order : List String) : String :=
  String.ofList ('@' :: (Nat.toDigits 10 context.x.toNat ++
    ',' :: (Nat.toDigits 10 context.y.toNat ++
    ',' :: (Nat.toDigits 10 context.width.toNat ++
    ',' :: (Nat.toDigits 10 context.height.toNat ++
    ',' :: (Nat.toDigits 10 context.offset.toNat ++
    ',' :: (Nat.toDigits 16 context.flags.toNat ++
    order.flatMap fun name => ',' :: name.toList)))))))

/-- Settings are taken as a whole, commas included, and split into the names again. -/
theorem readSettings_of_letters {order : List String}
    (letters : ∀ name ∈ order, name.toList ≠ [] ∧ ∀ c ∈ name.toList, c.isLower) :
    readSettings ((optionalField ',' isSetting
      (order.flatMap fun name => ',' :: name.toList)).1.getD []) = Modes.ofNames order := by
  cases order with
  | nil => decide
  | cons first rest =>
    let settings := [','].intercalate ((first :: rest).map String.toList)
    have parts : settings = first.toList ++ rest.flatMap fun name => ',' :: name.toList := by
      simp only [settings, List.map_cons, Text.intercalate_cons, List.flatMap_map]
    have nonempty : settings ≠ [] := by
      simp [parts, (letters first List.mem_cons_self).1]
    have accepted : ∀ c ∈ settings, isSetting c := by
      intro c mem
      rcases Text.of_mem_intercalate mem with rfl | ⟨w, listed, inside⟩
      · rfl
      · obtain ⟨name, named, rfl⟩ := List.mem_map.mp listed
        simp [isSetting, (letters name named).2 c inside]
    have taken : optionalField ',' isSetting (',' :: settings) = (some settings, []) :=
      optionalField_self ',' (longest_self nonempty accepted)
    have names : settings.splitOn ',' = (first :: rest).map String.toList := by
      apply List.splitOn_intercalate
      · intro w listed comma
        obtain ⟨name, named, rfl⟩ := List.mem_map.mp listed
        exact absurd ((letters name named).2 ',' comma) (by decide)
      · simp
    rw [List.flatMap_cons, List.cons_append, ← parts, taken, Option.getD_some, readSettings, names]
    simp [Function.comp_def]

theorem max_one_of_positive {width : UInt32} (positive : 1 ≤ width) : max width 1 = width := by
  change (if width ≤ 1 then 1 else width) = width
  split
  · next least => exact UInt32.le_antisymm positive least
  · rfl

/-- The three numbers after the anchor, the flags and the settings, each up to the next comma. -/
theorem takeFields_spelled (width height offset flags : Nat) {settings : List Char}
    (ended : ∀ c ∈ settings.head?, c = ',') :
    takeFields (',' :: (Nat.toDigits 10 width ++ ',' :: (Nat.toDigits 10 height ++
        ',' :: (Nat.toDigits 10 offset ++ ',' :: (Nat.toDigits 16 flags ++ settings))))) =
      ⟨[Nat.toDigits 10 width, Nat.toDigits 10 height, Nat.toDigits 10 offset],
        some (Nat.toDigits 16 flags), (optionalField ',' isSetting settings).1⟩ := by
  have comma (text : List Char) : ∀ c ∈ (',' :: text).head?, c.isDigit = false := by simp
  obtain ⟨nonempty, hex⟩ := Numeral.isHex_iff.mp (Numeral.isHex_toDigits flags)
  have stop : ∀ c ∈ settings.head?, c.isHexDigit = false := by
    intro c mem
    rw [ended c mem]
    rfl
  rw [takeFields, fields_append 2 ',' (longest_toDigits width (comma _)),
    fields_append 1 ',' (longest_toDigits height (comma _)),
    fields_append 0 ',' (longest_toDigits offset (comma _)), fields]
  simp only [optionalField_append ',' ⟨nonempty, hex, stop⟩]

/-- Every field of a context is read back, whatever stands in the others. -/
theorem read?_spelled {context : Context} (positive : 1 ≤ context.width) {order : List String}
    (named : order.Perm context.modes.names) :
    read? (context.spelled order) = some context := by
  have settings := readSettings_of_letters fun name mem =>
    Modes.letters_of_mem_names (named.mem_iff.mp mem)
  rw [Modes.ofNames_of_perm named] at settings
  have ended : ∀ c ∈ (order.flatMap fun name => ',' :: name.toList).head?, c = ',' := by
    cases order <;> simp
  have comma (text : List Char) : ∀ c ∈ (',' :: text).head?, c.isDigit = false := by simp
  have flags : Numeral.hex? UInt16.size (Nat.toDigits 16 context.flags.toNat) =
      some context.flags.toNat := Numeral.hex?_toDigits context.flags.toNat_lt
  have width := max_one_of_positive positive
  rw [read?, spelled, String.toList_ofList]
  simp only [run?_append (longest_toDigits context.x.toNat (comma _)),
    field?_append ',' (longest_toDigits context.y.toNat (comma _)),
    takeFields_spelled _ _ _ _ ended, Option.bind_eq_bind, Option.bind_some,
    Numeral.uint32?_toDigits, Option.getD_some, flags, settings]
  simp [Numeral.uint32?_toDigits, withWidth, width]

theorem head?_spelled (context : Context) (order : List String) :
    (context.spelled order).toList.head? = some '@' := by
  rw [spelled, String.toList_ofList, List.head?_cons]

theorem isWord_spelled (context : Context) {order : List String}
    (named : order.Perm context.modes.names) : Line.IsWord (context.spelled order) := by
  have decimal (number : UInt32) (c : Char) (mem : c ∈ Nat.toDigits 10 number.toNat) :=
    Line.solid_of_isDigit (Numeral.all_isDigit_toDigits number.toNat c mem)
  have hex (c : Char) (mem : c ∈ Nat.toDigits 16 context.flags.toNat) :=
    Line.solid_of_isHexDigit ((Numeral.isHex_iff.mp (Numeral.isHex_toDigits _)).2 c mem)
  have comma : Text.isBlank ',' = false ∧ ',' ≠ '#' := by decide
  have names : ∀ c ∈ order.flatMap fun name => ',' :: name.toList,
      Text.isBlank c = false ∧ c ≠ '#' := by
    intro c mem
    obtain ⟨name, listed, inside⟩ := List.mem_flatMap.mp mem
    rcases List.mem_cons.mp inside with rfl | letter
    · exact comma
    · have letters := (Modes.letters_of_mem_names (named.mem_iff.mp listed)).2
      exact Line.solid_of_isLower (letters c letter)
  rw [Line.isWord_iff, spelled, String.toList_ofList]
  simp only [List.forall_mem_cons, List.forall_mem_append]
  exact ⟨List.cons_ne_nil _ _, by decide, decimal _, comma, decimal _, comma, decimal _, comma,
    decimal _, comma, decimal _, comma, hex, names⟩

end Context

end IslandLayer.Script
