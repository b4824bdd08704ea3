set_option autoImplicit false

namespace IslandLayer.Numeral

/-- The value of a digit; letters of either case count on from ten. -/
def digitValue (c : Char) : Nat :=
  if c.isDigit then c.toNat - '0'.toNat
  else if 'a' ≤ c then c.toNat - 'a'.toNat + 10
  else c.toNat - 'A'.toNat + 10

/-- The value of digits after others worth `sum`, the first one the highest. -/
def valueFrom (base sum : Nat) (digits : List Char) : Nat :=
  digits.foldl (fun sum c => base * sum + digitValue c) sum

def value (base : Nat) (digits : List Char) : Nat := valueFrom base 0 digits

/-- The value of digits after others worth `sum`, if it stays below the bound. -/
def valueBelow? (base bound sum : Nat) : List Char → Option Nat
  | [] => if sum < bound then some sum else none
  | c :: rest =>
    let next := base * sum + digitValue c
    if next < bound then valueBelow? base bound next rest else none

/-- A non-empty run of decimal digits and nothing else. -/
def isDecimal (digits : List Char) : Bool := !digits.isEmpty && digits.all Char.isDigit

/-- A non-empty run of hexadecimal digits and nothing else. -/
def isHex (digits : List Char) : Bool := !digits.isEmpty && digits.all Char.isHexDigit

def decimal? (bound : Nat) (digits : List Char) : Option Nat :=
  if isDecimal digits then valueBelow? 10 bound 0 digits else none

def hex? (bound : Nat) (digits : List Char) : Option Nat :=
  if isHex digits then valueBelow? 16 bound 0 digits else none

/-- A decimal numeral that may carry a plus sign. -/
def signed? (bound : Nat) : List Char → Option Nat
  | '+' :: digits => decimal? bound digits
  | digits => decimal? bound digits

def uint32? (digits : List Char) : Option UInt32 := (decimal? UInt32.size digits).map UInt32.ofNat

/-- The digits of `number`, letters in upper case, at least `width` of them. -/
def upperHex (width number : Nat) : List Char :=
  ((Nat.toDigits 16 number).map Char.toUpper).leftpad width '0'

@[simp] theorem valueFrom_cons (base sum : Nat) (c : Char) (rest : List Char) :
    valueFrom base sum (c :: rest) = valueFrom base (base * sum + digitValue c) rest := rfl

theorem le_valueFrom {base : Nat} (positive : 0 < base) (sum : Nat) (digits : List Char) :
    sum ≤ valueFrom base sum digits := by
  induction digits generalizing sum with
  | nil => exact Nat.le_refl sum
  | cons c rest ih =>
    exact Nat.le_trans (Nat.le_trans (Nat.le_mul_of_pos_left sum positive) (Nat.le_add_right _ _))
      (ih _)

/-- Stopping at the first sum that is too large loses nothing, since sums never shrink. -/
theorem valueBelow?_eq_some_iff {base : Nat} (positive : 0 < base) {bound sum : Nat}
    {digits : List Char} {result : Nat} :
    valueBelow? base bound sum digits = some result ↔
      valueFrom base sum digits < bound ∧ valueFrom base sum digits = result := by
  induction digits generalizing sum with
  | nil => simp [valueBelow?, valueFrom]
  | cons c rest ih =>
    have least := le_valueFrom positive (base * sum + digitValue c) rest
    rw [valueFrom_cons]
    unfold valueBelow?
    dsimp only
    split
    · exact ih
    · exact iff_of_false nofun (by omega)

theorem decimal?_eq_some_iff {bound : Nat} {digits : List Char} {result : Nat} :
    decimal? bound digits = some result ↔
      isDecimal digits ∧ value 10 digits < bound ∧ value 10 digits = result := by
  simp [decimal?, valueBelow?_eq_some_iff, value]

theorem hex?_eq_some_iff {bound : Nat} {digits : List Char} {result : Nat} :
    hex? bound digits = some result ↔
      isHex digits ∧ value 16 digits < bound ∧ value 16 digits = result := by
  simp [hex?, valueBelow?_eq_some_iff, value]

theorem digitValue_of_isDigit {c : Char} (digit : c.isDigit) :
    digitValue c = c.toNat - '0'.toNat := if_pos digit

theorem value_toDigits (number : Nat) : value 10 (Nat.toDigits 10 number) = number := by
  have digits : ∀ c ∈ Nat.toDigits 10 number, c.isDigit := fun c mem =>
    Nat.isDigit_of_mem_toDigits (by decide) (by decide) mem
  have step : ∀ (cs : List Char) (sum : Nat), (∀ c ∈ cs, c.isDigit) →
      valueFrom 10 sum cs = Nat.ofDigitChars 10 cs sum := by
    intro cs
    induction cs with
    | nil => intros; rfl
    | cons c rest ih =>
      intro sum all
      rw [valueFrom_cons, Nat.ofDigitChars_cons, digitValue_of_isDigit (all c (by simp))]
      exact ih _ fun d mem => all d (by simp [mem])
  rw [value, step _ _ digits, Nat.ofDigitChars_ten_toDigits]

end IslandLayer.Numeral
