import IslandLayer.Proofs.Script.Longest
import IslandLayer.Proofs.Text.Layout
import IslandLayer.Proofs.Text.Numeral
import IslandLayer.Script.Reading
import Mathlib.Data.List.Basic

set_option autoImplicit false

namespace IslandLayer.Script.Context

/-- A word taken apart as a context. -/
structure Parts where
  /-- The digits of the anchor. -/
  x : List Char
  y : List Char
  /-- The digits of the width, the height and the offset, as far as they are written. -/
  numbers : List (List Char)
  flags : Option (List Char)
  settings : Option (List Char)
  /-- What follows the last part. -/
  rest : List Char
  deriving Repr, DecidableEq

namespace Parts

def afterFlags (parts : Parts) : List Char :=
  fieldsText ',' parts.settings.toList ++ parts.rest

def afterNumbers (parts : Parts) : List Char :=
  fieldsText ',' parts.flags.toList ++ parts.afterFlags

def afterAnchor (parts : Parts) : List Char :=
  fieldsText ',' parts.numbers ++ parts.afterNumbers

/-- The word consists of these parts in this order. Each is as long as it can be where it stands;
there are as many numbers as can be, up to three; flags and settings are left out only where none
follow. -/
structure Splits (parts : Parts) (token : String) : Prop where
  text : token.toList = '@' :: (parts.x ++ ',' :: (parts.y ++ parts.afterAnchor))
  x : Longest Char.isDigit parts.x (',' :: (parts.y ++ parts.afterAnchor))
  y : Longest Char.isDigit parts.y parts.afterAnchor
  numbers : Greedy 3 ',' Char.isDigit parts.numbers parts.afterNumbers
  flags : Greedy 1 ',' Char.isHexDigit parts.flags.toList parts.afterFlags
  settings : Greedy 1 ',' isSetting parts.settings.toList parts.rest

/-- The numbers fit 32 bits and the flags 16, however many zeros they begin with. -/
structure InRange (parts : Parts) : Prop where
  x : Numeral.value 10 parts.x < UInt32.size
  y : Numeral.value 10 parts.y < UInt32.size
  numbers : ∀ digits ∈ parts.numbers, Numeral.value 10 digits < UInt32.size
  flags : ∀ digits ∈ parts.flags, Numeral.value 16 digits < UInt16.size

/-- The settings name this mode between two commas, or between a comma and an end. -/
def Names (parts : Parts) (mode : String) : Prop :=
  ∃ settings ∈ parts.settings, Text.Piece ',' mode.toList settings

/-- The context that the parts stand for, with its defaults where a part is not written. -/
structure Describes (parts : Parts) (context : Context) : Prop where
  x : context.x.toNat = Numeral.value 10 parts.x
  y : context.y.toNat = Numeral.value 10 parts.y
  width : context.width.toNat =
    (parts.numbers[0]?.map fun digits => max (Numeral.value 10 digits) 1).getD 16
  height : context.height.toNat = (parts.numbers[1]?.map (Numeral.value 10)).getD 0
  offset : context.offset.toNat = (parts.numbers[2]?.map (Numeral.value 10)).getD 0
  flags : context.flags.toNat = (parts.flags.map (Numeral.value 16)).getD 0
  diy : context.modes.diy = true ↔ parts.Names "diy"
  hex : context.modes.hex = true ↔ parts.Names "hex"
  variants : context.modes.variants = true ↔ parts.Names "variants"
  fossil : context.modes.fossil = true ↔ parts.Names "fossil"

def take? (text : List Char) : Option Parts :=
  (run? Char.isDigit text).bind fun x =>
    (field? ',' Char.isDigit x.2).map fun y =>
      let numbers := fields 3 ',' Char.isDigit y.2
      let flags := optionalField ',' Char.isHexDigit numbers.2
      let settings := optionalField ',' isSetting flags.2
      ⟨x.1, y.1, numbers.1, flags.1, settings.1, settings.2⟩

/-- Takes a word apart and reads no numeral yet. -/
def of? (token : String) : Option Parts :=
  if token.toList.head? = some '@' then take? token.toList.tail else none

/-- Reads the numerals of the parts. -/
def context? (parts : Parts) : Option Context := do
  let x ← Numeral.uint32? parts.x
  let y ← Numeral.uint32? parts.y
  let numbers ← parts.numbers.mapM Numeral.uint32?
  let flags ← Numeral.hex? UInt16.size (parts.flags.getD ['0'])
  let context : Context :=
    { x, y, height := numbers.getD 1 0, offset := numbers.getD 2 0, flags := UInt16.ofNat flags,
      modes := readSettings (parts.settings.getD []) }
  pure (context.withWidth (numbers.getD 0 16))

variable {token : String} {parts : Parts}

theorem of?_eq_some_iff_take? :
    of? token = some parts ↔ ∃ text, token.toList = '@' :: text ∧ take? text = some parts := by
  rw [of?, Option.ite_none_right_eq_some]
  constructor
  · rintro ⟨marked, taken⟩
    obtain ⟨text, starts⟩ := List.head?_eq_some_iff.mp marked
    rw [starts] at taken
    exact ⟨text, starts, taken⟩
  · rintro ⟨text, starts, taken⟩
    rw [starts]
    exact ⟨rfl, taken⟩

/-- The parts are taken by longest match. -/
theorem of?_eq_some_iff : of? token = some parts ↔ parts.Splits token := by
  rw [of?_eq_some_iff_take?]
  constructor
  · rintro ⟨text, starts, taken⟩
    obtain ⟨⟨x, afterX⟩, first, taken⟩ := Option.bind_eq_some_iff.mp taken
    obtain ⟨⟨y, afterY⟩, second, rfl⟩ := Option.map_eq_some_iff.mp taken
    obtain ⟨rfl, longestX⟩ := run?_eq_some_iff_longest.mp first
    obtain ⟨rfl, longestY⟩ := field?_eq_some_iff.mp second
    -- What is taken gets a name, so that the text it was taken from can be put together again.
    obtain ⟨⟨numbers, afterNumbers⟩, third⟩ :
        ∃ taken, fields 3 ',' Char.isDigit afterY = taken := ⟨_, rfl⟩
    obtain ⟨⟨flags, afterFlags⟩, fourth⟩ :
        ∃ taken, optionalField ',' Char.isHexDigit afterNumbers = taken := ⟨_, rfl⟩
    obtain ⟨⟨settings, rest⟩, fifth⟩ :
        ∃ taken, optionalField ',' isSetting afterFlags = taken := ⟨_, rfl⟩
    simp only [third, fourth, fifth]
    obtain ⟨rfl, greedyNumbers⟩ := fields_eq_iff.mp third
    obtain ⟨rfl, greedyFlags⟩ := optionalField_eq_iff.mp fourth
    obtain ⟨rfl, greedySettings⟩ := optionalField_eq_iff.mp fifth
    exact ⟨starts, longestX, longestY, greedyNumbers, greedyFlags, greedySettings⟩
  · intro splits
    refine ⟨_, splits.text, ?_⟩
    have x := run?_eq_some_iff_longest.mpr ⟨rfl, splits.x⟩
    have y : field? ',' Char.isDigit _ = _ := field?_eq_some_iff.mpr ⟨rfl, splits.y⟩
    have numbers : fields 3 ',' Char.isDigit parts.afterAnchor = (parts.numbers, _) :=
      fields_eq_iff.mpr ⟨rfl, splits.numbers⟩
    have flags : optionalField ',' Char.isHexDigit parts.afterNumbers = (parts.flags, _) :=
      optionalField_eq_iff.mpr ⟨rfl, splits.flags⟩
    have settings : optionalField ',' isSetting parts.afterFlags = (parts.settings, _) :=
      optionalField_eq_iff.mpr ⟨rfl, splits.settings⟩
    unfold take?
    rw [x, Option.bind_some, y, Option.map_some]
    simp only [numbers, flags, settings]

theorem context?_eq_some_iff {context : Context} :
    parts.context? = some context ↔
      ∃ x y numbers flags, Numeral.uint32? parts.x = some x ∧ Numeral.uint32? parts.y = some y ∧
        parts.numbers.mapM Numeral.uint32? = some numbers ∧
        Numeral.hex? UInt16.size (parts.flags.getD ['0']) = some flags ∧
        Context.withWidth
          { x, y, height := numbers.getD 1 0, offset := numbers.getD 2 0,
            flags := UInt16.ofNat flags, modes := readSettings (parts.settings.getD []) }
          (numbers.getD 0 16) = context := by
  simp [context?, Option.bind_eq_some_iff]

theorem names_iff {mode : String} (nonempty : mode ≠ "") :
    parts.Names mode ↔
      (((parts.settings.getD []).splitOn ',').map String.ofList).contains mode = true := by
  rw [List.contains_iff_mem, List.mem_map, Names]
  cases parts.settings with
  | none => simpa using nonempty.symm
  | some settings =>
    simp only [Option.mem_some, Option.getD_some, exists_eq_left', Text.piece_iff_mem_splitOn]
    constructor
    · intro mem
      exact ⟨mode.toList, mem, String.ofList_toList⟩
    · rintro ⟨piece, mem, rfl⟩
      rwa [String.toList_ofList]

theorem describes_of_context? {context : Context} (read : parts.context? = some context) :
    parts.Describes context := by
  obtain ⟨x, y, numbers, flags, readX, readY, readNumbers, readFlags, rfl⟩ :=
    context?_eq_some_iff.mp read
  have values := (Numeral.mapM_uint32?_eq_some_iff.mp readNumbers).2
  have written (i : Nat) (other : UInt32) :
      (numbers.getD i other).toNat =
        (parts.numbers[i]?.map (Numeral.value 10)).getD other.toNat := by
    rw [← List.getElem?_map, values, List.getElem?_map, Option.getD_map,
      List.getD_eq_getElem?_getD]
  obtain ⟨-, fits, flagsValue⟩ := Numeral.hex?_eq_some_iff.mp readFlags
  rw [withWidth, readSettings, Modes.ofNames_eq]
  exact {
    x := (Numeral.uint32?_eq_some_iff.mp readX).2.symm
    y := (Numeral.uint32?_eq_some_iff.mp readY).2.symm
    width := by
      rw [UInt32.toNat_max, written 0 16]
      cases parts.numbers[0]? <;> rfl
    height := written 1 0
    offset := written 2 0
    flags := by
      have flagsWritten := Option.getD_map (Numeral.value 16) ['0'] parts.flags
      rw [flagsValue] at fits flagsWritten
      exact (UInt16.toNat_ofNat_of_lt' fits).trans flagsWritten.symm
    diy := (names_iff (by decide)).symm
    hex := (names_iff (by decide)).symm
    variants := (names_iff (by decide)).symm
    fossil := (names_iff (by decide)).symm }

theorem Splits.isHex_flags (splits : parts.Splits token) :
    Numeral.isHex (parts.flags.getD ['0']) :=
  Numeral.isHex_iff.mpr (splits.flags.getD_accepted (Numeral.isHex_iff.mp (by decide)))

/-- Nothing but the size of the numbers can keep the parts from being read. -/
theorem exists_context?_iff (splits : parts.Splits token) :
    (∃ context, parts.context? = some context) ↔ parts.InRange := by
  have decimal : ∀ digits ∈ parts.numbers, Numeral.isDecimal digits := by
    intro digits mem
    obtain ⟨after, longest⟩ := splits.numbers.each.of_mem mem
    exact longest.isDecimal
  have flagsFit : (∃ flags, Numeral.hex? UInt16.size (parts.flags.getD ['0']) = some flags) ↔
      ∀ digits ∈ parts.flags, Numeral.value 16 digits < UInt16.size :=
    (Numeral.exists_hex?_iff splits.isHex_flags).trans (Numeral.value_getD_lt_iff (by decide))
  constructor
  · rintro ⟨context, read⟩
    obtain ⟨x, y, numbers, flags, readX, readY, readNumbers, readFlags, -⟩ :=
      context?_eq_some_iff.mp read
    exact {
      x := (Numeral.exists_uint32?_iff splits.x.isDecimal).mp ⟨x, readX⟩
      y := (Numeral.exists_uint32?_iff splits.y.isDecimal).mp ⟨y, readY⟩
      numbers := (Numeral.exists_mapM_uint32?_iff decimal).mp ⟨numbers, readNumbers⟩
      flags := flagsFit.mp ⟨flags, readFlags⟩ }
  · intro range
    obtain ⟨x, readX⟩ := (Numeral.exists_uint32?_iff splits.x.isDecimal).mpr range.x
    obtain ⟨y, readY⟩ := (Numeral.exists_uint32?_iff splits.y.isDecimal).mpr range.y
    obtain ⟨numbers, readNumbers⟩ := (Numeral.exists_mapM_uint32?_iff decimal).mpr range.numbers
    obtain ⟨flags, readFlags⟩ := flagsFit.mpr range.flags
    exact ⟨_, context?_eq_some_iff.mpr
      ⟨x, y, numbers, flags, readX, readY, readNumbers, readFlags, rfl⟩⟩

theorem Describes.unique {context other : Context} (first : parts.Describes context)
    (second : parts.Describes other) : context = other := by
  have x := UInt32.toNat_inj.mp (first.x.trans second.x.symm)
  have y := UInt32.toNat_inj.mp (first.y.trans second.y.symm)
  have width := UInt32.toNat_inj.mp (first.width.trans second.width.symm)
  have height := UInt32.toNat_inj.mp (first.height.trans second.height.symm)
  have offset := UInt32.toNat_inj.mp (first.offset.trans second.offset.symm)
  have flags := UInt16.toNat_inj.mp (first.flags.trans second.flags.symm)
  have diy := Bool.eq_iff_iff.mpr (first.diy.trans second.diy.symm)
  have hex := Bool.eq_iff_iff.mpr (first.hex.trans second.hex.symm)
  have variants := Bool.eq_iff_iff.mpr (first.variants.trans second.variants.symm)
  have fossil := Bool.eq_iff_iff.mpr (first.fossil.trans second.fossil.symm)
  rcases context with ⟨_, _, _, _, _, _, ⟨_, _, _, _⟩⟩
  rcases other with ⟨_, _, _, _, _, _, ⟨_, _, _, _⟩⟩
  simp only [Context.mk.injEq, Modes.mk.injEq]
  exact ⟨x, y, width, height, offset, flags, diy, hex, variants, fossil⟩

end Parts

theorem read?_eq_bind (token : String) : read? token = (Parts.of? token).bind Parts.context? := by
  unfold read? Parts.of?
  split
  · next text starts =>
    rw [starts, if_pos List.head?_cons, List.tail_cons, Parts.take?]
    cases run? Char.isDigit text with
    | none => rfl
    | some x =>
      simp only [Option.bind_eq_bind, Option.bind_some]
      cases field? ',' Char.isDigit x.2 with
      | none => simp
      | some y => rfl
  · next other =>
    rw [if_neg, Option.bind_none]
    intro marked
    obtain ⟨text, starts⟩ := List.head?_eq_some_iff.mp marked
    exact other text starts

theorem read?_of_splits {token : String} {parts : Parts} (splits : parts.Splits token) :
    read? token = parts.context? := by
  rw [read?_eq_bind, Parts.of?_eq_some_iff.mpr splits, Option.bind_some]

def WrittenAs (context : Context) (token : String) : Prop :=
  ∃ parts : Parts, parts.Splits token ∧ parts.InRange ∧ parts.Describes context

theorem read?_eq_some_iff {token : String} {context : Context} :
    read? token = some context ↔ context.WrittenAs token := by
  constructor
  · intro read
    rw [read?_eq_bind] at read
    obtain ⟨parts, taken, read⟩ := Option.bind_eq_some_iff.mp read
    have splits := Parts.of?_eq_some_iff.mp taken
    exact ⟨parts, splits, (Parts.exists_context?_iff splits).mp ⟨context, read⟩,
      Parts.describes_of_context? read⟩
  · rintro ⟨parts, splits, range, describes⟩
    obtain ⟨found, read⟩ := (Parts.exists_context?_iff splits).mpr range
    rw [read?_of_splits splits, read, (Parts.describes_of_context? read).unique describes]

theorem read?_eq_none_iff {token : String} :
    read? token = none ↔ ∀ context : Context, ¬ context.WrittenAs token := by
  simp only [Option.eq_none_iff_forall_ne_some, ne_eq, read?_eq_some_iff]

/-- A word is a context if it can be taken apart and its numbers fit. There is one way to do so at
most, the parts say what context it is, and what follows the last part has no say in it. -/
theorem read?_exact (token : String) :
    (∀ parts other : Parts, parts.Splits token → other.Splits token → parts = other) ∧
    ((∃ context, read? token = some context) ↔
      ∃ parts : Parts, parts.Splits token ∧ parts.InRange) ∧
    (∀ (parts : Parts) (context : Context), parts.Splits token → read? token = some context →
      parts.Describes context) ∧
    ∀ (parts : Parts) (rest : List Char) (other : String), parts.Splits token →
      { parts with rest := rest }.Splits other → read? other = read? token := by
  refine ⟨?_, ⟨?_, ?_⟩, ?_, ?_⟩
  · intro parts other first second
    have taken := Parts.of?_eq_some_iff.mpr first
    rw [Parts.of?_eq_some_iff.mpr second] at taken
    exact (Option.some.inj taken).symm
  · rintro ⟨context, read⟩
    obtain ⟨parts, splits, range, -⟩ := read?_eq_some_iff.mp read
    exact ⟨parts, splits, range⟩
  · rintro ⟨parts, splits, range⟩
    rw [read?_of_splits splits]
    exact (Parts.exists_context?_iff splits).mpr range
  · intro parts context splits read
    rw [read?_of_splits splits] at read
    exact Parts.describes_of_context? read
  · intro parts rest other splits changed
    rw [read?_of_splits splits, read?_of_splits changed]
    rfl

/-- The first letter of `diy` is taken for flags, since it is a hexadecimal digit, and what follows
it is no field. -/
example :
    Parts.Splits ⟨['0'], ['0'], [], some ['d'], none, ['i', 'y']⟩ "@0,0,diy" :=
  Parts.of?_eq_some_iff.mp (by decide)

end IslandLayer.Script.Context
