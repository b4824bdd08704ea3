import IslandLayer.Layer.Basic

set_option autoImplicit false

/- Steps that stop a program where they have no result: an index behind the end of an array, a word
that overflows, a division by zero. Whether a program made of such steps is stopped shows in its
result, so safety is an equation: on every input the result is `.ok` of what the program does that
does not ask. -/
namespace IslandLayer

/-- What stops a program. -/
inductive Trap where
  /-- A result that is no word. -/
  | overflow
  /-- A division by zero. -/
  | divisor
  /-- An index behind the end of an array. -/
  | outside
  /-- A text that is cut inside a character, or behind its end. -/
  | boundary
  /-- Groups of no items. -/
  | group
  deriving Repr, DecidableEq

namespace Raw

@[simp] theorem ok_bind {α β : Type} (value : α) (next : α → Except Trap β) :
    (Except.ok value >>= next) = next value := rfl

def add (a b : UInt32) : Except Trap UInt32 :=
  if a.toNat + b.toNat < UInt32.size then .ok (a + b) else .error .overflow

def mul (a b : UInt32) : Except Trap UInt32 :=
  if a.toNat * b.toNat < UInt32.size then .ok (a * b) else .error .overflow

def div (a b : UInt32) : Except Trap UInt32 := if b = 0 then .error .divisor else .ok (a / b)

def rem (a b : UInt32) : Except Trap UInt32 := if b = 0 then .error .divisor else .ok (a % b)

theorem add_of_lt {a b : UInt32} (small : a.toNat + b.toNat < UInt32.size) :
    add a b = .ok (UInt32.ofNat (a.toNat + b.toNat)) := by
  rw [add, if_pos small, UInt32.ofNat_add, UInt32.ofNat_toNat, UInt32.ofNat_toNat]

theorem mul_of_lt {a b : UInt32} (small : a.toNat * b.toNat < UInt32.size) :
    mul a b = .ok (UInt32.ofNat (a.toNat * b.toNat)) := by
  rw [mul, if_pos small, UInt32.ofNat_mul, UInt32.ofNat_toNat, UInt32.ofNat_toNat]

theorem div_of_ne_zero {a b : UInt32} (divisor : b ≠ 0) : div a b = .ok (a / b) := if_neg divisor

theorem rem_of_ne_zero {a b : UInt32} (divisor : b ≠ 0) : rem a b = .ok (a % b) := if_neg divisor

end Raw

end IslandLayer
