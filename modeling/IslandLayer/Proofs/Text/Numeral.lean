import IslandLayer.Text.Numeral

set_option autoImplicit false

namespace IslandLayer.Numeral

theorem isDecimal_iff {digits : List Char} :
    isDecimal digits ↔ digits ≠ [] ∧ ∀ c ∈ digits, c.isDigit := by
  simp [isDecimal]

theorem isHex_iff {digits : List Char} :
    isHex digits ↔ digits ≠ [] ∧ ∀ c ∈ digits, c.isHexDigit := by
  simp [isHex]

theorem all_isDigit_toDigits (number : Nat) : ∀ c ∈ Nat.toDigits 10 number, c.isDigit :=
  fun _ mem => Nat.isDigit_of_mem_toDigits (by decide) (by decide) mem

theorem isDecimal_toDigits (number : Nat) : isDecimal (Nat.toDigits 10 number) :=
  isDecimal_iff.mpr ⟨Nat.toDigits_ne_nil, all_isDigit_toDigits number⟩

/-- A run of decimal digits worth this number, with or without a plus sign in front. -/
def Signed (text : List Char) (number : Nat) : Prop :=
  ∃ digits : List Char, (text = digits ∨ text = '+' :: digits) ∧
    digits ≠ [] ∧ (∀ c ∈ digits, c.isDigit) ∧ value 10 digits = number

theorem signed?_eq_some_iff {bound number : Nat} {text : List Char} :
    signed? bound text = some number ↔ Signed text number ∧ number < bound := by
  unfold signed?
  split
  · next rest =>
    rw [decimal?_eq_some_iff, isDecimal_iff]
    constructor
    · rintro ⟨⟨nonempty, all⟩, fits, rfl⟩
      exact ⟨⟨rest, Or.inr rfl, nonempty, all, rfl⟩, fits⟩
    · rintro ⟨⟨digits, same | same, nonempty, all, rfl⟩, fits⟩
      · exact absurd (all '+' (by simp [← same])) (by decide)
      · cases same
        exact ⟨⟨nonempty, all⟩, fits, rfl⟩
  · next unsigned =>
    rw [decimal?_eq_some_iff, isDecimal_iff]
    constructor
    · rintro ⟨⟨nonempty, all⟩, fits, rfl⟩
      exact ⟨⟨text, Or.inl rfl, nonempty, all, rfl⟩, fits⟩
    · rintro ⟨⟨digits, same | same, nonempty, all, rfl⟩, fits⟩
      · cases same
        exact ⟨⟨nonempty, all⟩, fits, rfl⟩
      · exact absurd same (unsigned digits)

theorem uint32?_eq_some_iff {digits : List Char} {number : UInt32} :
    uint32? digits = some number ↔ isDecimal digits ∧ value 10 digits = number.toNat := by
  rw [uint32?, Option.map_eq_some_iff]
  constructor
  · rintro ⟨result, read, rfl⟩
    obtain ⟨decimal, fits, rfl⟩ := decimal?_eq_some_iff.mp read
    exact ⟨decimal, (UInt32.toNat_ofNat_of_lt' fits).symm⟩
  · rintro ⟨decimal, same⟩
    have fits : value 10 digits < UInt32.size := by
      rw [same]
      exact number.toNat_lt
    exact ⟨number.toNat, decimal?_eq_some_iff.mpr ⟨decimal, fits, same⟩, UInt32.ofNat_toNat⟩

theorem exists_uint32?_iff {digits : List Char} (decimal : isDecimal digits) :
    (∃ number, uint32? digits = some number) ↔ value 10 digits < UInt32.size := by
  constructor
  · rintro ⟨number, read⟩
    rw [(uint32?_eq_some_iff.mp read).2]
    exact number.toNat_lt
  · intro fits
    exact ⟨UInt32.ofNat (value 10 digits),
      uint32?_eq_some_iff.mpr ⟨decimal, (UInt32.toNat_ofNat_of_lt' fits).symm⟩⟩

theorem uint32?_toDigits (number : UInt32) :
    uint32? (Nat.toDigits 10 number.toNat) = some number :=
  uint32?_eq_some_iff.mpr ⟨isDecimal_toDigits _, value_toDigits _⟩

theorem mapM_uint32?_eq_some_iff {runs : List (List Char)} {numbers : List UInt32} :
    runs.mapM uint32? = some numbers ↔
      (∀ digits ∈ runs, isDecimal digits) ∧ runs.map (value 10) = numbers.map UInt32.toNat := by
  induction runs generalizing numbers with
  | nil => cases numbers <;> simp
  | cons digits runs ih =>
    rw [List.mapM_cons]
    simp only [Option.bind_eq_bind, Option.bind_eq_some_iff, Option.pure_def, Option.some.injEq,
      uint32?_eq_some_iff, ih, List.forall_mem_cons, List.map_cons]
    constructor
    · rintro ⟨number, ⟨first, head⟩, others, ⟨later, tail⟩, rfl⟩
      exact ⟨⟨first, later⟩, by rw [head, tail, List.map_cons]⟩
    · rintro ⟨⟨first, later⟩, same⟩
      obtain ⟨number, others, rfl, head, tail⟩ := List.map_eq_cons_iff.mp same.symm
      exact ⟨number, ⟨first, head.symm⟩, others, ⟨later, tail.symm⟩, rfl⟩

theorem exists_mapM_uint32?_iff {runs : List (List Char)}
    (decimal : ∀ digits ∈ runs, isDecimal digits) :
    (∃ numbers, runs.mapM uint32? = some numbers) ↔
      ∀ digits ∈ runs, value 10 digits < UInt32.size := by
  constructor
  · rintro ⟨numbers, read⟩ digits mem
    have listed := List.mem_map_of_mem (f := value 10) mem
    rw [(mapM_uint32?_eq_some_iff.mp read).2] at listed
    obtain ⟨number, -, same⟩ := List.mem_map.mp listed
    rw [← same]
    exact number.toNat_lt
  · intro fits
    refine ⟨runs.map fun digits => UInt32.ofNat (value 10 digits),
      mapM_uint32?_eq_some_iff.mpr ⟨decimal, ?_⟩⟩
    rw [List.map_map]
    exact List.map_congr_left fun digits mem => (UInt32.toNat_ofNat_of_lt' (fits digits mem)).symm

theorem exists_hex?_iff {bound : Nat} {digits : List Char} (hex : isHex digits) :
    (∃ number, hex? bound digits = some number) ↔ value 16 digits < bound := by
  simp [hex?_eq_some_iff, hex]

/-- The numeral that stands in for one that is not written is small enough. -/
theorem value_getD_lt_iff {base bound : Nat} {written : Option (List Char)} {other : List Char}
    (small : value base other < bound) :
    value base (written.getD other) < bound ↔ ∀ digits ∈ written, value base digits < bound := by
  cases written <;> simp [small]

theorem valueFrom_append (base sum : Nat) (front back : List Char) :
    valueFrom base sum (front ++ back) = valueFrom base (valueFrom base sum front) back :=
  List.foldl_append

@[simp] theorem valueFrom_zeros (base count : Nat) :
    valueFrom base 0 (List.replicate count '0') = 0 := by
  induction count with
  | zero => rfl
  | succ count ih =>
    simpa [List.replicate_succ, show digitValue '0' = 0 from rfl] using ih

/-- Spelled this way, the digits of base sixteen are still digits of that base, of the same value.
-/
def KeepsHex (spell : Char → Char) : Prop :=
  ∀ n : Fin 16, digitValue (spell n.val.digitChar) = n ∧ (spell n.val.digitChar).isHexDigit

theorem keepsHex_id : KeepsHex id := by
  unfold KeepsHex
  decide

theorem keepsHex_toUpper : KeepsHex Char.toUpper := by
  unfold KeepsHex
  decide

theorem map_toDigits (spell : Char → Char) (number : Nat) :
    (Nat.toDigits 16 number).map spell =
      if number < 16 then [spell number.digitChar]
      else (Nat.toDigits 16 (number / 16)).map spell ++ [spell (number % 16).digitChar] := by
  rw [Nat.toDigits_eq_if (by decide)]
  split
  · rfl
  · rw [List.map_append]
    rfl

theorem forall_mem_map_toDigits {spell : Char → Char} {p : Char → Prop}
    (digits : ∀ n : Fin 16, p (spell n.val.digitChar)) (number : Nat) :
    ∀ c ∈ (Nat.toDigits 16 number).map spell, p c := by
  induction number using Nat.strongRecOn with
  | ind number ih =>
    rw [map_toDigits]
    split
    · next small => exact List.forall_mem_singleton.mpr (digits ⟨number, small⟩)
    · next large =>
      have last := digits ⟨number % 16, Nat.mod_lt _ (by decide)⟩
      exact List.forall_mem_append.mpr
        ⟨ih (number / 16) (by omega), List.forall_mem_singleton.mpr last⟩

section

variable {spell : Char → Char} (keeps : KeepsHex spell)

include keeps

theorem value_map_toDigits (number : Nat) :
    value 16 ((Nat.toDigits 16 number).map spell) = number := by
  induction number using Nat.strongRecOn with
  | ind number ih =>
    rw [map_toDigits]
    split
    · next small =>
      rw [value, valueFrom_cons, (keeps ⟨number, small⟩).1]
      exact Nat.zero_add number
    · next large =>
      have front := ih (number / 16) (by omega)
      have last := (keeps ⟨number % 16, Nat.mod_lt _ (by decide)⟩).1
      rw [value] at front
      rw [value, valueFrom_append, front, valueFrom_cons, last]
      exact Nat.div_add_mod number 16

/-- The first digit of a number is no zero, unless the number is. -/
theorem head?_map_toDigits_ne {number : Nat} (positive : number ≠ 0) :
    ((Nat.toDigits 16 number).map spell).head? ≠ some '0' := by
  induction number using Nat.strongRecOn with
  | ind number ih =>
    rw [map_toDigits]
    split
    · next small =>
      have worth := (keeps ⟨number, small⟩).1
      intro zero
      rw [Option.some.inj zero] at worth
      exact positive worth.symm
    · next large =>
      have front := ih (number / 16) (by omega) (by omega)
      have nonempty : (Nat.toDigits 16 (number / 16)).map spell ≠ [] := by
        simp [Nat.toDigits_ne_nil]
      obtain ⟨first, others, cut⟩ := List.exists_cons_of_ne_nil nonempty
      rw [cut] at front ⊢
      exact front

end

theorem isHex_toDigits (number : Nat) : isHex (Nat.toDigits 16 number) := by
  have digits : ∀ c ∈ (Nat.toDigits 16 number).map id, c.isHexDigit :=
    forall_mem_map_toDigits (fun n => (keepsHex_id n).2) number
  rw [List.map_id] at digits
  exact isHex_iff.mpr ⟨Nat.toDigits_ne_nil, digits⟩

theorem hex?_toDigits {bound number : Nat} (inside : number < bound) :
    hex? bound (Nat.toDigits 16 number) = some number := by
  have value := value_map_toDigits keepsHex_id number
  rw [List.map_id] at value
  exact hex?_eq_some_iff.mpr ⟨isHex_toDigits number, by rwa [value], value⟩

theorem upperHex_eq (width number : Nat) :
    upperHex width number =
      List.replicate (width - (Nat.toDigits 16 number).length) '0' ++
        (Nat.toDigits 16 number).map Char.toUpper := by
  rw [upperHex, List.leftpad, List.length_map]

@[simp] theorem value_upperHex (width number : Nat) :
    value 16 (upperHex width number) = number := by
  simpa [upperHex_eq, value, valueFrom_append] using value_map_toDigits keepsHex_toUpper number

/-- All characters of a printed numeral are digits, and the letters among them in upper case. -/
theorem forall_mem_upperHex (width number : Nat) :
    ∀ c ∈ upperHex width number, c.isHexDigit ∧ ¬ c.isLower := by
  have zeros : ∀ c ∈ List.replicate (width - (Nat.toDigits 16 number).length) '0',
      c.isHexDigit ∧ ¬ c.isLower := by
    intro c mem
    rw [List.eq_of_mem_replicate mem]
    decide
  rw [upperHex_eq]
  exact List.forall_mem_append.mpr ⟨zeros, forall_mem_map_toDigits (by decide) number⟩

@[simp] theorem isHex_upperHex (width number : Nat) : isHex (upperHex width number) := by
  have nonempty : upperHex width number ≠ [] := by
    simp [upperHex_eq, Nat.toDigits_ne_nil]
  exact isHex_iff.mpr ⟨nonempty, fun c mem => (forall_mem_upperHex width number c mem).1⟩

theorem length_upperHex (width number : Nat) :
    (upperHex width number).length = max width (Nat.toDigits 16 number).length := by
  rw [upperHex, List.length_leftpad, List.length_map]

/-- Zeros in front only fill up the width. -/
theorem length_upperHex_of_head? {width number : Nat} (positive : 1 ≤ width)
    (zero : (upperHex width number).head? = some '0') :
    (upperHex width number).length = width := by
  by_cases long : width < (Nat.toDigits 16 number).length
  · have large : number ≠ 0 := by
      rintro rfl
      exact Nat.not_lt.mpr positive long
    rw [upperHex_eq, Nat.sub_eq_zero_of_le (Nat.le_of_lt long), List.replicate_zero,
      List.nil_append] at zero
    exact absurd zero (head?_map_toDigits_ne keepsHex_toUpper large)
  · rw [length_upperHex, Nat.max_eq_left (Nat.not_lt.mp long)]

theorem hex?_upperHex {bound number : Nat} (inside : number < bound) (width : Nat) :
    hex? bound (upperHex width number) = some number :=
  hex?_eq_some_iff.mpr
    ⟨isHex_upperHex width number, by simpa, value_upperHex width number⟩

end IslandLayer.Numeral
