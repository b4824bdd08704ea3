import IslandLayer.Editor

set_option autoImplicit false

namespace IslandLayer

open Script

namespace Summary

def add (first second : Summary) : Summary :=
  ⟨first.sources + second.sources, first.commands + second.commands⟩

end Summary

/-- One use of an editor. Nothing that fails keeps the next one from being made. -/
inductive Action where
  | apply (words : List String)
  | reset
  | run (sources : List Source)

/-- What comes back from one use of an editor. -/
inductive Answer where
  | apply (result : Except EditError Unit)
  | reset
  | run (result : Except RunError Summary)

namespace Machine

section

variable {σ : Type} (machine : Machine σ)

def act (state : σ) : Action → σ
  | .apply words => (machine.apply state words).1
  | .reset => machine.reset state
  | .run sources => (machine.run sources state).1

def acts (actions : List Action) (state : σ) : σ := actions.foldl machine.act state

theorem acts_append (front back : List Action) (state : σ) :
    machine.acts (front ++ back) state = machine.acts back (machine.acts front state) :=
  List.foldl_append

def answer (state : σ) : Action → Answer
  | .apply words => .apply (machine.apply state words).2
  | .reset => .reset
  | .run sources => .run (machine.run sources state).2

/-- The answers to a history of uses, one for each. -/
def answers : List Action → σ → List Answer
  | [], _ => []
  | action :: rest, state =>
    machine.answer state action :: answers rest (machine.act state action)

theorem run_cons (source : Source) (rest : List Source) (state : σ) :
    machine.run (source :: rest) state =
      match machine.runLines source.name (Line.ofText source.text) (machine.reset state) with
      | (state, .error e) => (state, .error e)
      | (state, .ok ()) =>
        ((machine.run rest state).1,
          (machine.run rest state).2.map (Summary.add ⟨1, (Line.ofText source.text).length⟩)) := by
  simp only [run]
  generalize machine.runLines _ _ (machine.reset state) = first
  obtain ⟨after, result⟩ := first
  cases result with
  | error e => rfl
  | ok =>
    dsimp only
    generalize machine.run rest after = later
    obtain ⟨final, result⟩ := later
    cases result with
    | error e => rfl
    | ok sum => simp only [Except.map, Summary.add, Nat.add_comm]

/-- A run begins with a reset, so it cannot tell states apart that a reset makes equal. -/
theorem run_cons_of_reset_eq {state state' : σ}
    (same : machine.reset state = machine.reset state') (source : Source) (rest : List Source) :
    machine.run (source :: rest) state = machine.run (source :: rest) state' := by
  rw [run_cons, run_cons, same]

theorem run_append (first second : List Source) (state : σ) :
    machine.run (first ++ second) state =
      match machine.run first state with
      | (state, .error e) => (state, .error e)
      | (state, .ok sum) =>
        ((machine.run second state).1, (machine.run second state).2.map sum.add) := by
  induction first generalizing state with
  | nil =>
    have none (sum : Summary) : Summary.add {} sum = sum := by simp [Summary.add]
    have same (result : Except RunError Summary) : result.map (Summary.add {}) = result := by
      cases result <;> simp [Except.map, none]
    simp only [List.nil_append, run, same]
  | cons source rest ih =>
    simp only [List.cons_append, run_cons, ih]
    generalize machine.runLines _ _ (machine.reset state) = start
    obtain ⟨after, result⟩ := start
    cases result with
    | error e => rfl
    | ok =>
      dsimp only
      generalize machine.run rest after = later
      obtain ⟨middle, result⟩ := later
      cases result with
      | error e => rfl
      | ok sum =>
        dsimp only [Except.map]
        generalize machine.run second middle = final
        obtain ⟨final, result⟩ := final
        cases result with
        | error e => rfl
        | ok more => simp only [Summary.add, Nat.add_assoc]

variable {machine}

/-- A script fails on one line, in the state that the lines before it have left. -/
theorem runLines_of_error {name : String} {lines : List Line} {state : σ} {e : RunError}
    (failed : (machine.runLines name lines state).2 = .error e) :
    ∃ done line rest middle, lines = done ++ line :: rest ∧
      machine.runLines name done state = (middle, .ok ()) ∧
      machine.apply middle line.words = ((machine.runLines name lines state).1, .error e.cause) ∧
      e = ⟨name, line.number, line.text, e.cause⟩ := by
  induction lines generalizing state with
  | nil => cases failed
  | cons line rest ih =>
    rw [runLines] at failed ⊢
    rcases applied : machine.apply state line.words with ⟨middle, result⟩
    rw [applied] at failed
    cases result with
    | error cause =>
      cases failed
      exact ⟨[], line, rest, state, rfl, rfl, applied, rfl⟩
    | ok =>
      obtain ⟨done, failing, rest, last, rfl, before, final, located⟩ := ih failed
      refine ⟨line :: done, failing, rest, last, rfl, ?_, final, located⟩
      rw [runLines, applied]
      exact before

/-- A run fails in one script, after those before it have succeeded. -/
theorem run_of_error {sources : List Source} {state : σ} {e : RunError}
    (failed : (machine.run sources state).2 = .error e) :
    ∃ front source back middle sum, sources = front ++ source :: back ∧
      machine.run front state = (middle, .ok sum) ∧
      machine.runLines source.name (Line.ofText source.text) (machine.reset middle) =
        ((machine.run sources state).1, .error e) := by
  induction sources generalizing state with
  | nil => cases failed
  | cons source rest ih =>
    rw [run_cons] at failed ⊢
    rcases drawn : machine.runLines source.name (Line.ofText source.text) (machine.reset state)
      with ⟨middle, result⟩
    rw [drawn] at failed
    cases result with
    | error cause =>
      cases failed
      exact ⟨[], source, rest, state, {}, rfl, rfl, drawn⟩
    | ok =>
      have later : (machine.run rest middle).2 = .error e := by
        cases result : (machine.run rest middle).2 with
        | error cause =>
          simp only [result, Except.map, Except.error.injEq] at failed
          rw [failed]
        | ok sum => simp [result, Except.map] at failed
      obtain ⟨front, failing, back, last, sum, rfl, before, final⟩ := ih later
      have started : machine.run (source :: front) state =
          (last, .ok (Summary.add ⟨1, (Line.ofText source.text).length⟩ sum)) := by
        rw [run_cons, drawn]
        simp only [before]
        rfl
      exact ⟨source :: front, failing, back, last, _, rfl, started, final⟩

theorem runLines_cons_of_ok {line : Line} {state middle : σ}
    (first : machine.apply state line.words = (middle, .ok ())) (name : String)
    (rest : List Line) :
    machine.runLines name (line :: rest) state = machine.runLines name rest middle := by
  rw [runLines, first]

theorem runLines_concat {name : String} {done : List Line} {line : Line} {state middle after : σ}
    (before : machine.runLines name done state = (middle, .ok ()))
    (last : machine.apply middle line.words = (after, .ok ())) :
    machine.runLines name (done ++ [line]) state = (after, .ok ()) := by
  rw [runLines_append, before]
  dsimp only
  rw [runLines, last]
  rfl

theorem run_singleton_of_ok {source : Source} {state after : σ}
    (drawn : machine.runLines source.name (Line.ofText source.text) (machine.reset state) =
      (after, .ok ())) :
    machine.run [source] state = (after, .ok ⟨1, (Line.ofText source.text).length⟩) := by
  rw [run_cons, drawn]
  rfl

theorem run_concat {front : List Source} (source : Source) {state middle after : σ}
    {sum : Summary} (before : machine.run front state = (middle, .ok sum))
    (last : machine.runLines source.name (Line.ofText source.text) (machine.reset middle) =
      (after, .ok ())) :
    ∃ sum, machine.run (front ++ [source]) state = (after, .ok sum) := by
  rw [run_append, before]
  dsimp only
  rw [run_cons, last]
  exact ⟨_, rfl⟩

end

section

variable {σ τ : Type} {machine : Machine σ} {other : Machine τ} {R : σ → τ → Prop}

/-- Related states stay related on every line, and a line fails on both sides or on none, with
the same cause. -/
structure Related (machine : Machine σ) (other : Machine τ) (R : σ → τ → Prop) : Prop where
  reset : ∀ {s t}, R s t → R (machine.reset s) (other.reset t)
  apply : ∀ {s t}, R s t → ∀ words, R (machine.apply s words).1 (other.apply t words).1 ∧
    (machine.apply s words).2 = (other.apply t words).2

theorem Related.runLines (related : Related machine other R) (name : String) (lines : List Line)
    {s : σ} {t : τ} (start : R s t) :
    R (machine.runLines name lines s).1 (other.runLines name lines t).1 ∧
      (machine.runLines name lines s).2 = (other.runLines name lines t).2 := by
  induction lines generalizing s t with
  | nil => exact ⟨start, rfl⟩
  | cons line rest ih =>
    obtain ⟨states, results⟩ := related.apply start line.words
    simp only [Machine.runLines]
    generalize machine.apply s line.words = one at states results ⊢
    generalize other.apply t line.words = two at states results ⊢
    obtain ⟨s, result⟩ := one
    obtain ⟨t, result'⟩ := two
    cases results
    cases result with
    | ok => exact ih states
    | error cause => exact ⟨states, rfl⟩

theorem Related.run (related : Related machine other R) (sources : List Source) {s : σ} {t : τ}
    (start : R s t) :
    R (machine.run sources s).1 (other.run sources t).1 ∧
      (machine.run sources s).2 = (other.run sources t).2 := by
  induction sources generalizing s t with
  | nil => exact ⟨start, rfl⟩
  | cons source rest ih =>
    obtain ⟨states, results⟩ :=
      related.runLines source.name (Line.ofText source.text) (related.reset start)
    rw [run_cons, run_cons]
    generalize machine.runLines _ _ (machine.reset s) = one at states results ⊢
    generalize other.runLines _ _ (other.reset t) = two at states results ⊢
    obtain ⟨s, result⟩ := one
    obtain ⟨t, result'⟩ := two
    cases results
    cases result with
    | error e => exact ⟨states, rfl⟩
    | ok =>
      obtain ⟨later, same⟩ := ih states
      exact ⟨later, congrArg (Except.map _) same⟩

/-- What every line and every reset keeps relates a state to itself. -/
theorem related_self {P : σ → Prop} (reset : ∀ s, P s → P (machine.reset s))
    (apply : ∀ s words, P s → P (machine.apply s words).1) :
    Related machine machine fun s t => s = t ∧ P t where
  reset := by
    rintro s _ ⟨rfl, holds⟩
    exact ⟨rfl, reset s holds⟩
  apply := by
    rintro s _ ⟨rfl, holds⟩ words
    exact ⟨⟨rfl, apply s words holds⟩, rfl⟩

theorem Related.act (related : Related machine other R) (action : Action) {s : σ} {t : τ}
    (start : R s t) :
    R (machine.act s action) (other.act t action) ∧
      machine.answer s action = other.answer t action := by
  cases action with
  | apply words =>
    obtain ⟨states, results⟩ := related.apply start words
    exact ⟨states, congrArg Answer.apply results⟩
  | reset => exact ⟨related.reset start, rfl⟩
  | run sources =>
    obtain ⟨states, results⟩ := related.run sources start
    exact ⟨states, congrArg Answer.run results⟩

theorem Related.acts (related : Related machine other R) (actions : List Action) {s : σ} {t : τ}
    (start : R s t) : R (machine.acts actions s) (other.acts actions t) := by
  induction actions generalizing s t with
  | nil => exact start
  | cons action rest ih => exact ih (related.act action start).1

theorem Related.answers (related : Related machine other R) (actions : List Action) {s : σ} {t : τ}
    (start : R s t) : machine.answers actions s = other.answers actions t := by
  induction actions generalizing s t with
  | nil => rfl
  | cons action rest ih =>
    obtain ⟨states, same⟩ := related.act action start
    rw [Machine.answers, Machine.answers, same, ih states]

theorem acts_keep {P : σ → Prop} (reset : ∀ s, P s → P (machine.reset s))
    (apply : ∀ s words, P s → P (machine.apply s words).1) (actions : List Action) {s : σ}
    (start : P s) : P (machine.acts actions s) :=
  ((related_self reset apply).acts actions ⟨rfl, start⟩).2

end

end Machine

end IslandLayer
