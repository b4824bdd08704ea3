import IslandLayer.Pen
import IslandLayer.Script.Source

set_option autoImplicit false

namespace IslandLayer

open Script

/-- A layer being drawn on. -/
structure Editor where
  layer : Layer
  sizes : StackSizes
  pen : Pen := {}

/-- The first failure of a run and the line it stands on. -/
structure RunError where
  script : String
  line : Nat
  command : String
  cause : EditError
  deriving Repr, DecidableEq

/-- How much a complete run has carried out. -/
structure Summary where
  sources : Nat := 0
  commands : Nat := 0
  deriving Repr, DecidableEq

namespace RunError

def message (e : RunError) : String :=
  s!"{e.script}:{e.line}: `{e.command}`: {e.cause.message}"

end RunError

/-- Anything that carries out the words of a line and can go back to the first context. -/
structure Machine (σ : Type) where
  reset : σ → σ
  apply : σ → List String → σ × Except EditError Unit

namespace Machine

variable {σ : Type} (machine : Machine σ)

/-- Carries out the lines of the script `name` up to the first that fails. -/
def runLines (name : String) : List Line → σ → σ × Except RunError Unit
  | [], state => (state, .ok ())
  | line :: rest, state =>
    match machine.apply state line.words with
    | (state, .ok ()) => runLines name rest state
    | (state, .error cause) => (state, .error ⟨name, line.number, line.text, cause⟩)

/-- Carries out scripts in order, each from the first context. -/
def run : List Source → σ → σ × Except RunError Summary
  | [], state => (state, .ok {})
  | source :: rest, state =>
    let lines := Line.ofText source.text
    match machine.runLines source.name lines (machine.reset state) with
    | (state, .error e) => (state, .error e)
    | (state, .ok ()) =>
      match run rest state with
      | (state, .error e) => (state, .error e)
      | (state, .ok sum) => (state, .ok ⟨sum.sources + 1, sum.commands + lines.length⟩)

theorem runLines_append (name : String) (front back : List Line) (state : σ) :
    machine.runLines name (front ++ back) state =
      match machine.runLines name front state with
      | (state, .ok ()) => machine.runLines name back state
      | failed => failed := by
  induction front generalizing state with
  | nil => rfl
  | cons line rest ih =>
    simp only [List.cons_append, runLines]
    split
    · exact ih _
    · rfl

end Machine

namespace Editor

/-- Back to the first context; nothing is remembered of earlier commands. -/
def reset (editor : Editor) : Editor := { editor with pen := {} }

def apply (editor : Editor) (words : List String) : Editor × Except EditError Unit :=
  let stroke := editor.pen.follow editor.sizes words
  ({ editor with layer := editor.layer.placeAll stroke.placed, pen := stroke.pen }, stroke.result)

/-- Carries out lines up to the first that fails. -/
def applyAll : List (List String) → Editor → Editor × Except EditError Unit
  | [], editor => (editor, .ok ())
  | words :: rest, editor =>
    match editor.apply words with
    | (editor, .ok ()) => applyAll rest editor
    | failed => failed

def machine : Machine Editor where
  reset := reset
  apply := apply

/-- Draws scripts in order, up to the first line that fails. -/
def run (sources : List Source) (editor : Editor) : Editor × Except RunError Summary :=
  machine.run sources editor

end Editor

end IslandLayer
