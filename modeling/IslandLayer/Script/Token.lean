import IslandLayer.Text.Numeral

set_option autoImplicit false

namespace IslandLayer.Script

/-- The longest non-empty run of `accepts`, and the rest. -/
def run? (accepts : Char → Bool) (text : List Char) : Option (List Char × List Char) :=
  if text.takeWhile accepts = [] then none
  else some (text.takeWhile accepts, text.dropWhile accepts)

/-- A separator directly followed by a run. -/
def field? (separator : Char) (accepts : Char → Bool) : List Char → Option (List Char × List Char)
  | c :: rest => if c = separator then run? accepts rest else none
  | [] => none

/-- A field if there is one; otherwise nothing is taken. -/
def optionalField (separator : Char) (accepts : Char → Bool) (text : List Char) :
    Option (List Char) × List Char :=
  match field? separator accepts text with
  | some (run, rest) => (some run, rest)
  | none => (none, text)

/-- As many consecutive fields as there are, up to `most`. -/
def fields (most : Nat) (separator : Char) (accepts : Char → Bool) (text : List Char) :
    List (List Char) × List Char :=
  match most with
  | 0 => ([], text)
  | most + 1 =>
    match field? separator accepts text with
    | some (run, rest) =>
      let (runs, rest) := fields most separator accepts rest
      (run :: runs, rest)
    | none => ([], text)

theorem run?_eq_some_iff {accepts : Char → Bool} {text run rest : List Char} :
    run? accepts text = some (run, rest) ↔
      run ≠ [] ∧ text.takeWhile accepts = run ∧ text.dropWhile accepts = rest := by
  unfold run?
  split <;> grind

theorem append_of_run? {accepts : Char → Bool} {text run rest : List Char}
    (taken : run? accepts text = some (run, rest)) : run ++ rest = text := by
  obtain ⟨-, rfl, rfl⟩ := run?_eq_some_iff.1 taken
  exact List.takeWhile_append_dropWhile

theorem all_of_run? {accepts : Char → Bool} {text run rest : List Char}
    (taken : run? accepts text = some (run, rest)) : ∀ c ∈ run, accepts c := by
  obtain ⟨-, rfl, -⟩ := run?_eq_some_iff.1 taken
  exact fun c mem => List.all_eq_true.1 (List.all_takeWhile) c mem

end IslandLayer.Script
