import IslandLayer.Proofs.Text.Numeral
import IslandLayer.Script.Token

set_option autoImplicit false

namespace IslandLayer.Script

/-- A run of accepted characters, at least one, that the text behind it does not go on with. -/
structure Longest (accepts : Char → Bool) (run after : List Char) : Prop where
  nonempty : run ≠ []
  inside : ∀ c ∈ run, accepts c
  ended : ∀ c ∈ after.head?, accepts c = false

variable {accepts : Char → Bool} {run rest : List Char}

theorem longest_self (nonempty : run ≠ []) (inside : ∀ c ∈ run, accepts c) :
    Longest accepts run [] := ⟨nonempty, inside, nofun⟩

/-- A printed number is a run wherever no digit follows. -/
theorem longest_toDigits (number : Nat) (ended : ∀ c ∈ rest.head?, c.isDigit = false) :
    Longest Char.isDigit (Nat.toDigits 10 number) rest :=
  ⟨Nat.toDigits_ne_nil, Numeral.all_isDigit_toDigits number, ended⟩

theorem run?_append (longest : Longest accepts run rest) :
    run? accepts (run ++ rest) = some (run, rest) := by
  have ended : rest.takeWhile accepts = [] ∧ rest.dropWhile accepts = rest := by
    cases rest with
    | nil => exact ⟨rfl, rfl⟩
    | cons c others =>
      have refused := longest.ended c rfl
      simp [refused]
  rw [run?_eq_some_iff, List.takeWhile_append_of_pos longest.inside,
    List.dropWhile_append_of_pos longest.inside, ended.1, ended.2, List.append_nil]
  exact ⟨longest.nonempty, rfl, rfl⟩

theorem run?_self (longest : Longest accepts run []) : run? accepts run = some (run, []) := by
  have whole := run?_append longest
  rwa [List.append_nil] at whole

theorem field?_append (separator : Char) (longest : Longest accepts run rest) :
    field? separator accepts (separator :: (run ++ rest)) = some (run, rest) := by
  rw [field?, if_pos rfl, run?_append longest]

theorem optionalField_append (separator : Char) (longest : Longest accepts run rest) :
    optionalField separator accepts (separator :: (run ++ rest)) = (some run, rest) := by
  rw [optionalField, field?_append separator longest]

theorem optionalField_self (separator : Char) (longest : Longest accepts run []) :
    optionalField separator accepts (separator :: run) = (some run, []) := by
  rw [optionalField, field?, if_pos rfl, run?_self longest]

theorem fields_append (most : Nat) (separator : Char) (longest : Longest accepts run rest) :
    fields (most + 1) separator accepts (separator :: (run ++ rest)) =
      (run :: (fields most separator accepts rest).1, (fields most separator accepts rest).2) := by
  rw [fields, field?_append separator longest]

end IslandLayer.Script
