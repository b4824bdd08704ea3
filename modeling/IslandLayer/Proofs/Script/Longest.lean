import IslandLayer.Proofs.Script.Token

set_option autoImplicit false

namespace IslandLayer.Script

/-- A field begins here: the separator and an accepted character directly behind it. -/
def Introduces (separator : Char) (accepts : Char → Bool) (text : List Char) : Prop :=
  ∃ c rest, text = separator :: c :: rest ∧ accepts c

/-- Fields as they are written, each behind its separator. -/
def fieldsText (separator : Char) (runs : List (List Char)) : List Char :=
  runs.flatMap (separator :: ·)

/-- Each of the fields has the longest run where it stands. -/
def EachLongest (separator : Char) (accepts : Char → Bool) : List (List Char) → List Char → Prop
  | [], _ => True
  | run :: runs, after =>
    Longest accepts run (fieldsText separator runs ++ after) ∧
      EachLongest separator accepts runs after

/-- As many fields as there are, up to `most`, each with the longest run where it stands. -/
structure Greedy (most : Nat) (separator : Char) (accepts : Char → Bool)
    (runs : List (List Char)) (after : List Char) : Prop where
  each : EachLongest separator accepts runs after
  length : runs.length ≤ most
  full : runs.length < most → ¬ Introduces separator accepts after

variable {separator : Char} {accepts : Char → Bool} {text run rest : List Char}
  {runs : List (List Char)}

theorem run?_eq_some_iff_longest :
    run? accepts text = some (run, rest) ↔ text = run ++ rest ∧ Longest accepts run rest := by
  constructor
  · intro taken
    obtain ⟨nonempty, -, dropped⟩ := run?_eq_some_iff.mp taken
    refine ⟨(append_of_run? taken).symm, nonempty, all_of_run? taken, ?_⟩
    intro c head
    have stop := List.head?_dropWhile_not accepts text
    rw [dropped, Option.mem_def.mp head] at stop
    simpa using stop
  · rintro ⟨rfl, longest⟩
    exact run?_append longest

theorem field?_eq_some_iff :
    field? separator accepts text = some (run, rest) ↔
      text = separator :: (run ++ rest) ∧ Longest accepts run rest := by
  cases text with
  | nil => simp [field?]
  | cons c others =>
    by_cases same : c = separator
    · rw [field?, if_pos same, run?_eq_some_iff_longest, same, List.cons.injEq]
      simp
    · rw [field?, if_neg same]
      simp [same]

theorem Longest.introduces (longest : Longest accepts run rest) (separator : Char) :
    Introduces separator accepts (separator :: (run ++ rest)) := by
  obtain ⟨c, others, rfl⟩ := List.exists_cons_of_ne_nil longest.nonempty
  exact ⟨c, others ++ rest, rfl, longest.inside c List.mem_cons_self⟩

theorem field?_eq_none_iff :
    field? separator accepts text = none ↔ ¬ Introduces separator accepts text := by
  constructor
  · rintro none ⟨c, others, rfl, accepted⟩
    rw [field?, if_pos rfl, run?] at none
    simp [accepted] at none
  · intro absent
    cases taken : field? separator accepts text with
    | none => rfl
    | some field =>
      obtain ⟨rfl, longest⟩ := field?_eq_some_iff.mp taken
      exact absurd (longest.introduces separator) absent

theorem EachLongest.of_mem (each : EachLongest separator accepts runs rest) (mem : run ∈ runs) :
    ∃ after, Longest accepts run after := by
  induction runs with
  | nil => cases mem
  | cons first runs ih =>
    rcases List.mem_cons.mp mem with rfl | later
    · exact ⟨_, each.1⟩
    · exact ih each.2 later

theorem Longest.isDecimal (longest : Longest Char.isDigit run rest) : Numeral.isDecimal run :=
  Numeral.isDecimal_iff.mpr ⟨longest.nonempty, longest.inside⟩

theorem fieldsText_cons (separator : Char) (run : List Char) (runs : List (List Char)) :
    fieldsText separator (run :: runs) = separator :: (run ++ fieldsText separator runs) := rfl

theorem greedy_cons {most : Nat} :
    Greedy (most + 1) separator accepts (run :: runs) rest ↔
      Longest accepts run (fieldsText separator runs ++ rest) ∧
        Greedy most separator accepts runs rest := by
  constructor
  · rintro ⟨⟨longest, each⟩, length, full⟩
    exact ⟨longest, each, Nat.le_of_succ_le_succ length, fun room => full (Nat.succ_lt_succ room)⟩
  · rintro ⟨longest, each, length, full⟩
    exact ⟨⟨longest, each⟩, Nat.succ_le_succ length, fun room => full (Nat.lt_of_succ_lt_succ room)⟩

/-- Fields that begin with one are not complete without it. -/
theorem greedy_nil {most : Nat} :
    Greedy (most + 1) separator accepts [] rest ↔ ¬ Introduces separator accepts rest := by
  constructor
  · intro greedy
    exact greedy.full (Nat.succ_pos most)
  · intro absent
    exact ⟨trivial, Nat.zero_le _, fun _ => absent⟩

/-- Fields are taken as many as there are and as long as they are. -/
theorem fields_eq_iff {most : Nat} :
    fields most separator accepts text = (runs, rest) ↔
      text = fieldsText separator runs ++ rest ∧ Greedy most separator accepts runs rest := by
  induction most generalizing text runs with
  | zero =>
    rw [fields, Prod.mk.injEq]
    constructor
    · rintro ⟨rfl, rfl⟩
      exact ⟨rfl, trivial, Nat.le_refl 0, fun room => absurd room (Nat.lt_irrefl 0)⟩
    · rintro ⟨rfl, greedy⟩
      obtain rfl := List.length_eq_zero_iff.mp (Nat.le_zero.mp greedy.length)
      exact ⟨rfl, rfl⟩
  | succ most ih =>
    cases taken : field? separator accepts text with
    | none =>
      have absent := field?_eq_none_iff.mp taken
      rw [fields, taken, Prod.mk.injEq]
      constructor
      · rintro ⟨rfl, rfl⟩
        exact ⟨rfl, greedy_nil.mpr absent⟩
      · rintro ⟨rfl, greedy⟩
        cases runs with
        | nil => exact ⟨rfl, rfl⟩
        | cons run runs =>
          have begins := (greedy_cons.mp greedy).1.introduces separator
          rw [← List.append_assoc] at begins
          exact absurd begins absent
    | some field =>
      obtain ⟨rfl, longest⟩ := field?_eq_some_iff.mp taken
      rw [fields, taken]
      constructor
      · intro same
        obtain ⟨rfl, rfl⟩ := Prod.mk.inj same
        obtain ⟨later, greedy⟩ := ih.mp (Eq.refl (fields most separator accepts field.2))
        rw [later] at longest
        refine ⟨?_, greedy_cons.mpr ⟨longest, greedy⟩⟩
        rw [fieldsText_cons, List.cons_append, List.append_assoc, ← later]
      · rintro ⟨same, greedy⟩
        cases runs with
        | nil =>
          have begins := longest.introduces separator
          rw [same] at begins
          exact absurd begins (greedy_nil.mp greedy)
        | cons run runs =>
          obtain ⟨first, others⟩ := greedy_cons.mp greedy
          rw [fieldsText_cons, List.cons_append, List.append_assoc] at same
          rw [field?_eq_some_iff.mpr ⟨same, first⟩] at taken
          obtain rfl := Option.some.inj taken
          have later : fields most separator accepts (fieldsText separator runs ++ rest) =
              (runs, rest) := ih.mpr ⟨rfl, others⟩
          simp only [later]

theorem optionalField_eq_iff {taken : Option (List Char)} :
    optionalField separator accepts text = (taken, rest) ↔
      text = fieldsText separator taken.toList ++ rest ∧
        Greedy 1 separator accepts taken.toList rest := by
  rw [← fields_eq_iff]
  simp only [optionalField, fields]
  cases field? separator accepts text with
  | none => cases taken <;> simp
  | some field => cases taken <;> simp

/-- A field that may be missing, with something acceptable in its place. -/
theorem Greedy.getD_accepted {taken : Option (List Char)}
    (greedy : Greedy 1 separator accepts taken.toList rest) {other : List Char}
    (fits : other ≠ [] ∧ ∀ c ∈ other, accepts c) :
    taken.getD other ≠ [] ∧ ∀ c ∈ taken.getD other, accepts c := by
  cases taken with
  | none => exact fits
  | some run => exact ⟨greedy.each.1.nonempty, greedy.each.1.inside⟩

end IslandLayer.Script
