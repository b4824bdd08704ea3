import IslandLayer.Proofs.Cell
import IslandLayer.Proofs.Pen.Placing
import IslandLayer.Proofs.Script.Slots

set_option autoImplicit false

namespace IslandLayer

open Script

namespace Stroke

/-- Goes on after a stroke that succeeds. -/
def andThen (first : Stroke) (next : Pen → Stroke) : Stroke :=
  match first.result with
  | .ok () => { next first.pen with placed := first.placed ++ (next first.pen).placed }
  | .error _ => first

theorem andThen_of_ok {first : Stroke} (done : first.result = .ok ()) (next : Pen → Stroke) :
    first.andThen next =
      { next first.pen with placed := first.placed ++ (next first.pen).placed } := by
  rw [andThen, done]

theorem andThen_of_error {first : Stroke} {cause : EditError} (failed : first.result = .error cause)
    (next : Pen → Stroke) : first.andThen next = first := by
  rw [andThen, failed]

def behind (stroke : Stroke) (p : Placement) : Stroke :=
  { stroke with placed := p :: stroke.placed }

theorem behind_andThen (stroke : Stroke) (p : Placement) (next : Pen → Stroke) :
    (stroke.behind p).andThen next = (stroke.andThen next).behind p := by
  cases done : stroke.result with
  | ok =>
    rw [andThen_of_ok done, andThen_of_ok (by exact done)]
    rfl
  | error cause => rw [andThen_of_error done, andThen_of_error (by exact done)]

end Stroke

namespace Pen

/-- In variants mode an item repeats the word before it if that has its id. -/
def Repeats (pen : Pen) (base : UInt16) : Prop :=
  pen.context.modes.variants = true ∧ ∃ last ∈ pen.last, last.itemId = base

instance (pen : Pen) (base : UInt16) : Decidable (pen.Repeats base) :=
  inferInstanceAs (Decidable (_ ∧ _))

theorem next_of_repeats_of_mem {pen : Pen} (on : pen.context.modes.variants = true) {last : Cell}
    (before : last ∈ pen.last) (cell : Cell) :
    pen.next last.itemId cell = Cell.repeated last.itemId last := by
  rw [Option.mem_def] at before
  simp [next, before, on]

theorem next_of_not_repeats {pen : Pen} {base : UInt16} (fresh : ¬ pen.Repeats base)
    (cell : Cell) : pen.next base cell = cell := by
  unfold next
  split
  · next last before =>
    have other : ¬ (pen.context.modes.variants && last.itemId == base) = true := by
      rw [Bool.and_eq_true, beq_iff_eq]
      exact fun again => fresh ⟨again.1, last, before, again.2⟩
    exact if_neg other
  · rfl

/-- Once a word has been placed, it makes no difference whether the next is made of it or of the
packed word: either it was the packed word, or the next is a repeat of it. -/
theorem next_moved_next (pen : Pen) (base : UInt16) (cell : Cell) :
    (pen.moved (pen.next base cell)).next base (pen.next base cell) =
      (pen.moved (pen.next base cell)).next base cell := by
  by_cases again : (pen.moved (pen.next base cell)).Repeats base
  · obtain ⟨on, last, before, rfl⟩ := again
    rw [next_of_repeats_of_mem on before, next_of_repeats_of_mem on before]
  -- A repeat has the id that is asked for, so the next word would be a repeat of it.
  · have fresh : ¬ pen.Repeats base := by
      rintro ⟨on, last, before, rfl⟩
      refine again ⟨on, _, rfl, ?_⟩
      rw [next_of_repeats_of_mem on before, Cell.itemId_repeated]
    rw [next_of_not_repeats again, next_of_not_repeats again, next_of_not_repeats fresh]

/-- All that a count takes from the word it begins with is the first word it places. -/
theorem placeFrom_congr {pen : Pen} {base : UInt16} {cell cell' : Cell}
    (same : pen.next base cell = pen.next base cell') (count : Nat) :
    placeFrom base count cell pen [] = placeFrom base count cell' pen [] := by
  cases count with
  | zero => rfl
  | succ count =>
    have targets : pen.target base cell = pen.target base cell' := by rw [target, target, same]
    cases answer : (pen.target base cell).footprint.refusal? with
    | some e =>
      rw [placeFrom_of_refused answer, placeFrom_of_refused (targets ▸ answer), same]
    | none =>
      rw [placeFrom_of_accepted answer, placeFrom_of_accepted (targets ▸ answer), same, targets]

/-- After the first placement a count goes on as if it began there. -/
theorem placeFrom_restarted {pen : Pen} {base : UInt16} {cell : Cell}
    (accepted : (pen.target base cell).footprint.refusal? = none) (count : Nat) :
    placeFrom base (count + 1) cell pen [] =
      (placeFrom base count cell (pen.moved (pen.target base cell).cell) []).behind
        (pen.target base cell) := by
  rw [placeFrom_of_accepted accepted, placeFrom_congr (next_moved_next pen base cell)]
  rfl

/-- A count in two parts, the second only if the first has not been cut short. -/
theorem placeFrom_add (base : UInt16) (first second : Nat) (cell : Cell) (pen : Pen) :
    placeFrom base (first + second) cell pen [] =
      (placeFrom base first cell pen []).andThen (placeFrom base second cell · []) := by
  induction first generalizing pen with
  | zero => simp [placeFrom, Stroke.andThen]
  | succ first ih =>
    rw [Nat.succ_add]
    cases answer : (pen.target base cell).footprint.refusal? with
    | some e =>
      rw [placeFrom_of_refused answer, placeFrom_of_refused answer, Stroke.andThen_of_error rfl]
    | none =>
      rw [placeFrom_restarted answer, placeFrom_restarted answer, ih, Stroke.behind_andThen]

/-- The pens pack the same words. -/
structure PacksLike (p p' : Pen) : Prop where
  modes : p.context.modes = p'.context.modes
  flags : p.context.flags = p'.context.flags
  pending : p.pending = p'.pending

theorem PacksLike.pack {p p' : Pen} (like : p.PacksLike p') (sizes : StackSizes) (id : UInt64)
    (extra : UInt32) : p.pack sizes id extra = p'.pack sizes id extra := by
  rw [Pen.pack, Pen.pack, like.modes, like.flags, like.pending]

theorem PacksLike.announce {p p' : Pen} (like : p.PacksLike p') (variant : Variant) :
    (p.announce variant).PacksLike (p'.announce variant) := by
  cases variant with
  | code variant texture => exact ⟨like.modes, like.flags, rfl⟩
  | absent => exact like
  | plain => exact like

/-- A count changes only where the pen is and what it remembers. -/
theorem packsLike_placeFrom (base : UInt16) (count : Nat) (cell : Cell) (pen : Pen) :
    pen.PacksLike (placeFrom base count cell pen []).pen := by
  induction count generalizing pen with
  | zero => exact ⟨rfl, rfl, rfl⟩
  | succ count ih =>
    cases answer : (pen.target base cell).footprint.refusal? with
    | some e =>
      rw [placeFrom_of_refused answer]
      exact ⟨rfl, rfl, rfl⟩
    | none =>
      rw [placeFrom_restarted answer]
      have rest := ih (pen.moved (pen.target base cell).cell)
      exact ⟨rest.modes, rest.flags, rest.pending⟩

/-- The pen in the middle of a command, after these placements. -/
def past (pen : Pen) (front : List Placement) : Pen :=
  { pen with
    context := pen.context.advancedBy front.length
    last := (front.getLast?.map (·.cell)).or pen.last }

@[simp] theorem past_nil (pen : Pen) : pen.past [] = pen := by
  simp [past]

@[simp] theorem past_cons (pen : Pen) (p : Placement) (front : List Placement) :
    pen.past (p :: front) = (pen.moved p.cell).past front := by
  have context : (pen.moved p.cell).context.advancedBy front.length =
      pen.context.advancedBy (p :: front).length := by
    rw [List.length_cons, Nat.add_comm, ← Context.advancedBy_advancedBy]
    rfl
  have last : (front.getLast?.map (·.cell)).or (some p.cell) =
      ((p :: front).getLast?.map (·.cell)).or pen.last := by
    rw [List.getLast?_cons]
    cases front.getLast? <;> rfl
  rw [past, past, ← context, ← last]
  rfl

/-- What is placed is the packed word, or a repeat of the word placed before. -/
theorem eq_target_of_placeFrom {base : UInt16} {count : Nat} {cell : Cell} {pen : Pen}
    {front back : List Placement} {p : Placement}
    (placed : (placeFrom base count cell pen []).placed = front ++ p :: back) :
    p = (pen.past front).target base cell := by
  induction count generalizing pen front with
  | zero => simp [placeFrom] at placed
  | succ count ih =>
    cases answer : (pen.target base cell).footprint.refusal? with
    | some e =>
      rw [placeFrom_of_refused answer] at placed
      simp at placed
    | none =>
      rw [placeFrom_restarted answer] at placed
      cases front with
      | nil =>
        simpa using (List.cons.inj placed).1.symm
      | cons q front =>
        obtain ⟨first, rest⟩ := List.cons.inj placed
        simpa [← first] using ih rest

end Pen

end IslandLayer
