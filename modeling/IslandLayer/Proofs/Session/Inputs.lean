import IslandLayer.Proofs.Disk.Volume
import IslandLayer.Session
import Mathlib.Data.List.Forall2

set_option autoImplicit false

namespace IslandLayer

open Disk Script

/-- The text that the reader finds at a path. -/
def Disk.textAt (read : String → Except DiskError ByteArray) (path : String) :
    Except DiskError String := (read path).bind textOf

theorem Disk.eq_notFound_of_textAt {read : String → Except DiskError ByteArray} {path : String}
    (missing : textAt read path = .error .notFound) : read path = .error .notFound := by
  unfold textAt at missing
  cases given : read path with
  | error e =>
    rw [given] at missing
    cases missing
    rfl
  | ok bytes =>
    rw [given] at missing
    change textOf bytes = _ at missing
    unfold textOf at missing
    split at missing <;> contradiction

/-- On the state `s` the computation ends in `s` again, and what it returns has the property. -/
def Observes {σ ε α : Type} (s : σ) (x : ExceptT ε (StateM σ) α) (P : α → Prop) : Prop :=
  ∃ answer, x.run.run s = (answer, s) ∧ ∀ a, answer = .ok a → P a

namespace Observes

section

variable {σ ε α β : Type} {s : σ} {P : α → Prop} {Q : β → Prop}

theorem pure {a : α} (holds : P a) : Observes s (Pure.pure a : ExceptT ε (StateM σ) α) P :=
  ⟨.ok a, rfl, fun _ same => Except.ok.inj same ▸ holds⟩

theorem throw (e : ε) : Observes s (MonadExcept.throw e : ExceptT ε (StateM σ) α) P :=
  ⟨.error e, rfl, fun _ same => by contradiction⟩

theorem bind {x : ExceptT ε (StateM σ) α} {f : α → ExceptT ε (StateM σ) β}
    (first : Observes s x P) (next : ∀ a, P a → Observes s (f a) Q) : Observes s (x >>= f) Q := by
  obtain ⟨answer, same, holds⟩ := first
  have step : (x >>= f).run.run s = (ExceptT.bindCont f answer).run s := by
    rw [ExceptT.run_bind, StateT.run_bind, same]
    rfl
  cases answer with
  | error e => exact ⟨.error e, step, fun _ same => by contradiction⟩
  | ok a =>
    obtain ⟨answer, same, holds⟩ := next a (holds a rfl)
    exact ⟨answer, step.trans same, holds⟩

theorem mapM {f : α → ExceptT ε (StateM σ) β} {R : α → β → Prop} (items : List α)
    (each : ∀ item, Observes s (f item) (R item)) :
    Observes s (items.mapM f) (List.Forall₂ R items) := by
  induction items with
  | nil => exact pure .nil
  | cons item rest ih =>
    rw [List.mapM_cons]
    exact (each item).bind fun _ first => ih.bind fun _ others => pure (.cons first others)

/-- A look at the volume finds what the state says. -/
theorem read {volume : Volume σ} {path : String}
    {f : Except DiskError ByteArray → ExceptT ε (StateM σ) α}
    (next : Observes s (f (volume.read s path)) P) :
    Observes s (liftM (volume.disk.read path) >>= f) P := next

theorem readText {volume : Volume σ} {path : String}
    {f : Except DiskError String → ExceptT ε (StateM σ) α}
    (next : Observes s (f (textAt (volume.read s) path)) P) :
    Observes s (liftM (Session.readText volume.disk.read path) >>= f) P := next

end

end Observes

theorem Settings.of_resolve {config : Config} {arguments : Arguments} {settings : Settings}
    (resolved : resolve config arguments = .ok settings) :
    settings.scripts = config.scripts ++ arguments.scripts ∧
      settings.output = arguments.output.or config.output := by
  unfold resolve at resolved
  split at resolved
  · contradiction
  · cases resolved
    exact ⟨rfl, rfl⟩

section

variable (read : String → Except DiskError ByteArray)

/-- The configuration that a file holds, or the empty one if none is named. -/
def Config.HeldAt : Option String → Config → Prop
  | none, config => config = {}
  | some path, config => ∃ text, textAt read path = .ok text ∧ Config.ofText? text = some config

/-- The layer that a file holds. It is empty if none is named or the file does not exist. -/
def Layer.HeldAt : Option String → Layer → Prop
  | none, layer => layer = Layer.empty
  | some path, layer => read path = .error .notFound ∧ layer = Layer.empty ∨
      ∃ bytes, read path = .ok bytes ∧ Layer.load bytes = .ok layer

/-- The table that a file holds. It is empty if the file does not exist. -/
def StackSizes.HeldAt (path : String) (sizes : StackSizes) : Prop :=
  read path = .error .notFound ∧ sizes = StackSizes.empty ∨
    ∃ text, textAt read path = .ok text ∧ StackSizes.ofText text = .ok sizes

/-- A script is named by the path of the file that holds it. -/
def Script.Source.HeldAt (path : String) (source : Source) : Prop :=
  source.name = path ∧ textAt read path = .ok source.text

end

namespace Session

/-- What a run reads before it draws. -/
structure Inputs where
  config : Config
  settings : Settings
  base : Layer
  sizes : StackSizes
  sources : List Source

/-- The inputs are what the files hold that the arguments and the configuration name. The scripts
of the configuration come first. -/
structure Inputs.ReadBy (inputs : Inputs) (read : String → Except DiskError ByteArray)
    (arguments : Arguments) : Prop where
  config : inputs.config.HeldAt read arguments.config
  settings : Settings.resolve inputs.config arguments = .ok inputs.settings
  base : inputs.base.HeldAt read inputs.settings.base
  sizes : inputs.sizes.HeldAt read inputs.settings.stackSizes
  sources : List.Forall₂ (Source.HeldAt read) (inputs.config.scripts ++ arguments.scripts)
    inputs.sources

section

variable {σ : Type} (volume : Volume σ) (s : σ)

theorem observes_loadConfig (place : Option String) :
    Observes s (loadConfig volume.disk.read place) (Config.HeldAt (volume.read s) place) := by
  cases place with
  | none => exact .pure rfl
  | some path =>
    apply Observes.readText
    split
    · exact .throw _
    · next text given =>
      split
      · next config parsed => exact .pure ⟨text, given, parsed⟩
      · exact .throw _

theorem observes_loadBase (place : Option String) :
    Observes s (loadBase volume.disk.read place) (Layer.HeldAt (volume.read s) place) := by
  cases place with
  | none => exact .pure rfl
  | some path =>
    apply Observes.read
    split
    · next missing => exact .pure (.inl ⟨missing, rfl⟩)
    · exact .throw _
    · next bytes given =>
      split
      · next layer loaded => exact .pure (.inr ⟨bytes, given, loaded⟩)
      · exact .throw _

theorem observes_loadStackSizes (path : String) :
    Observes s (loadStackSizes volume.disk.read path) (StackSizes.HeldAt (volume.read s) path) := by
  apply Observes.readText
  split
  · next missing => exact .pure (.inl ⟨eq_notFound_of_textAt missing, rfl⟩)
  · exact .throw _
  · next text given =>
    split
    · next sizes listed => exact .pure (.inr ⟨text, given, listed⟩)
    · exact .throw _

theorem observes_loadSource (path : String) :
    Observes s (loadSource volume.disk.read path) (Source.HeldAt (volume.read s) path) := by
  apply Observes.readText
  split
  · exact .throw _
  · next text given => exact .pure ⟨rfl, given⟩

/-- A plan leaves the volume as it is, and when it succeeds its output is what the scripts draw on
what the volume holds. -/
theorem observes_plan (arguments : Arguments) :
    Observes s (plan volume.disk.read arguments) fun output =>
      ∃ inputs : Inputs, inputs.ReadBy (volume.read s) arguments ∧
      ∃ final summary,
        Editor.run inputs.sources { layer := inputs.base, sizes := inputs.sizes } =
          (final, .ok summary) ∧
        output = outputOf inputs.settings final.layer := by
  refine (observes_loadConfig volume s arguments.config).bind fun config configured => ?_
  split
  · exact .throw _
  · next settings resolved =>
    refine (observes_loadBase volume s settings.base).bind fun base based => ?_
    refine (observes_loadStackSizes volume s settings.stackSizes).bind fun sizes sized => ?_
    refine (Observes.mapM settings.scripts (observes_loadSource volume s)).bind
      fun sources scripted => ?_
    rw [(Settings.of_resolve resolved).1] at scripted
    split
    · next output composed =>
      unfold compose at composed
      split at composed
      · next final summary drawn =>
        cases composed
        exact .pure ⟨⟨config, settings, base, sizes, sources⟩,
          ⟨configured, resolved, based, sized, scripted⟩, final, summary, drawn, rfl⟩
      · contradiction
    · exact .throw _

end

end Session

end IslandLayer
