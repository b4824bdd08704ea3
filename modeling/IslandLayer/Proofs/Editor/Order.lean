import IslandLayer.Proofs.Editor.Independence
import IslandLayer.Proofs.Editor.Staging
import IslandLayer.Proofs.Layer.Columns
import Mathlib.Data.List.Pairwise

set_option autoImplicit false

namespace IslandLayer

open Script

namespace Placement

/-- The anchor of the block that the placement falls into. -/
def block (p : Placement) : UInt32 × UInt32 := (Layer.corner p.x, Layer.corner p.y)

theorem block_eq_of_covers {p q : Placement} {x y : UInt32} (first : p.Covers x y)
    (second : q.Covers x y) : p.block = q.block := by
  rw [block, block, first.1, first.2, second.1, second.2]

end Placement

namespace Layer

/-- Placements on different blocks can change places. -/
theorem placeAll_comm (layer : Layer) {ps qs : List Placement} (fit : ∀ p ∈ ps, p.Fits)
    (fit' : ∀ q ∈ qs, q.Fits) (apart : ∀ p ∈ ps, ∀ q ∈ qs, p.block ≠ q.block) :
    (layer.placeAll ps).placeAll qs = (layer.placeAll qs).placeAll ps := by
  apply ext_get
  intro x y
  rw [get_placeAll _ fit', get_placeAll _ fit, get_placeAll _ fit, get_placeAll _ fit']
  cases first : lastOn ps x y with
  | none => rfl
  | some cell =>
    cases second : lastOn qs x y with
    | none => rfl
    | some cell' =>
      obtain ⟨p, mem, covers⟩ := exists_covers_of_lastOn first
      obtain ⟨q, mem', covers'⟩ := exists_covers_of_lastOn second
      exact absurd (Placement.block_eq_of_covers covers covers') (apart p mem q mem')

end Layer

namespace Summary

/-- What a run of the scripts has carried out when it is complete. -/
def ofSources (sources : List Source) : Summary :=
  ⟨sources.length, (sources.flatMap fun source => Line.ofText source.text).length⟩

theorem ofSources_singleton (source : Source) :
    ofSources [source] = ⟨1, (Line.ofText source.text).length⟩ := by
  simp [ofSources]

theorem ofSources_cons (source : Source) (rest : List Source) :
    ofSources (source :: rest) = (ofSources [source]).add (ofSources rest) := by
  simp only [ofSources, add, List.flatMap_cons, List.length_append, List.length_cons,
    List.flatMap_nil, List.length_nil, Nat.add_comm, Nat.zero_add]

theorem ofSources_perm {sources sources' : List Source} (order : sources.Perm sources') :
    ofSources sources = ofSources sources' := by
  rw [ofSources, ofSources, order.length_eq, (order.flatMap_right _).length_eq]

end Summary

namespace Machine

variable {σ : Type} {machine : Machine σ}

/-- How much a complete run has carried out follows from its scripts alone. -/
theorem eq_ofSources_of_ok {sources : List Source} {state : σ} {sum : Summary}
    (done : (machine.run sources state).2 = .ok sum) : sum = .ofSources sources := by
  induction sources generalizing state sum with
  | nil =>
    cases done
    rfl
  | cons source rest ih =>
    rw [run_cons] at done
    generalize machine.runLines _ _ (machine.reset state) = first at done
    obtain ⟨middle, result⟩ := first
    cases result with
    | error e => cases done
    | ok =>
      dsimp only at done
      cases later : (machine.run rest middle).2 with
      | error e => simp [later, Except.map] at done
      | ok more =>
        rw [later] at done
        cases done
        rw [ih later, Summary.ofSources_cons, Summary.ofSources_singleton]

end Machine

namespace Editor

/-- A script that succeeds alone succeeds on every layer, and makes the same placements there. -/
theorem run_of_alone {editor current : Editor} (sizes : current.sizes = editor.sizes)
    {source : Source} {sum : Summary} (alone : (run [source] editor).2 = .ok sum) :
    (run [source] current).2 = .ok sum ∧
      (run [source] current).1.layer =
        current.layer.placeAll (Recorder.ofRun [source] editor).taken := by
  obtain ⟨alike, results⟩ := Recorder.alike_ofRun source [] current editor sizes
  refine ⟨results.trans alone, ?_⟩
  rw [← alike.taken]
  exact Recorder.layer_ofRun [source] current

theorem run_of_each_alone {editor : Editor} {sources : List Source}
    (alone : ∀ source ∈ sources, ∃ sum, (run [source] editor).2 = .ok sum) {current : Editor}
    (sizes : current.sizes = editor.sizes) :
    (∃ sum, (run sources current).2 = .ok sum) ∧
      (run sources current).1.layer = sources.foldl
        (fun layer source => layer.placeAll (Recorder.ofRun [source] editor).taken)
        current.layer := by
  induction sources generalizing current with
  | nil => exact ⟨⟨{}, rfl⟩, rfl⟩
  | cons source rest ih =>
    obtain ⟨sum, success⟩ := alone source List.mem_cons_self
    obtain ⟨result, layer⟩ := run_of_alone sizes success
    have kept : (run [source] current).1.sizes = editor.sizes :=
      (sizes_run [source] current).trans sizes
    obtain ⟨⟨more, results⟩, layers⟩ := ih (fun s mem => alone s (List.mem_cons_of_mem _ mem)) kept
    have first : machine.run [source] current = ((run [source] current).1, .ok sum) :=
      Prod.ext rfl result
    have split : run (source :: rest) current = _ := machine.run_append [source] rest current
    rw [first] at split
    rw [split, List.foldl_cons, ← layer]
    exact ⟨⟨sum.add more, congrArg (Except.map sum.add) results⟩, layers⟩

/-- The two scripts, each run alone, place nothing on the same block. -/
def Apart (editor : Editor) (source other : Source) : Prop :=
  ∀ p ∈ (Recorder.ofRun [source] editor).taken, ∀ q ∈ (Recorder.ofRun [other] editor).taken,
    p.block ≠ q.block

instance (editor : Editor) : DecidableRel editor.Apart := fun _ _ =>
  inferInstanceAs (Decidable (∀ p ∈ _, ∀ q ∈ _, _))

instance (editor : Editor) : Std.Symm editor.Apart where
  symm _ _ apart p mem q mem' := (apart q mem' p mem).symm

/-- Scripts that each succeed alone and keep to blocks of their own can be run in any order: each
order succeeds, has carried out as much, and leaves the same layer. -/
theorem run_permuted (editor : Editor) {sources sources' : List Source}
    (order : sources.Perm sources')
    (alone : ∀ source ∈ sources, ∃ sum, (run [source] editor).2 = .ok sum)
    (apart : sources.Pairwise editor.Apart) :
    (∃ sum, (run sources editor).2 = .ok sum ∧ (run sources' editor).2 = .ok sum) ∧
      (run sources' editor).1.layer = (run sources editor).1.layer := by
  have alone' : ∀ source ∈ sources', ∃ sum, (run [source] editor).2 = .ok sum :=
    fun source mem => alone source (order.mem_iff.mpr mem)
  obtain ⟨⟨sum, result⟩, layer⟩ := run_of_each_alone alone (rfl : editor.sizes = _)
  obtain ⟨⟨sum', result'⟩, layer'⟩ := run_of_each_alone alone' (rfl : editor.sizes = _)
  constructor
  · have same : sum' = sum := by
      rw [Machine.eq_ofSources_of_ok result, Machine.eq_ofSources_of_ok result',
        Summary.ofSources_perm order]
    exact ⟨sum, result, same ▸ result'⟩
  · rw [layer, layer']
    symm
    -- Two scripts can change places, as they keep to blocks of their own or are the same.
    apply order.foldl_eq'
    intro source mem other mem' between
    by_cases same : source = other
    · rw [same]
    · exact between.placeAll_comm (Recorder.accounts_ofRun [source] editor).fit
        (Recorder.accounts_ofRun [other] editor).fit (apart.forall mem mem' same)

/-- Scripts that would not commute if a context, a variant or the word before went over from one to
the next: hexadecimal ids, a variant, and repeats with a square cleared after them. -/
def rooms : List Source :=
  [⟨"hall", "@4,0,hex\n1a|3*2\n"⟩, ⟨"lamps", "2_3 100\n"⟩,
    ⟨"rugs", "@0,8,2,0,1,21,variants\n100*3\n0\n"⟩]

theorem run_permuted_rooms :
    let editor : Editor := { layer := Layer.empty, sizes := StackSizes.empty.insert 26 10 }
    rooms.Perm rooms.reverse ∧
    (∀ source ∈ rooms, ∃ sum, (run [source] editor).2 = .ok sum) ∧
    rooms.Pairwise editor.Apart ∧
    (∃ sum, (run rooms editor).2 = .ok sum ∧ (run rooms.reverse editor).2 = .ok sum) ∧
    (run rooms.reverse editor).1.layer = (run rooms editor).1.layer := by
  intro editor
  have order : rooms.Perm rooms.reverse := (List.reverse_perm rooms).symm
  have alone : ∀ source ∈ rooms, (run [source] editor).2 = .ok (.ofSources [source]) := by
    decide +kernel
  have succeed : ∀ source ∈ rooms, ∃ sum, (run [source] editor).2 = .ok sum :=
    fun source mem => ⟨_, alone source mem⟩
  have apart : rooms.Pairwise editor.Apart := by decide +kernel
  exact ⟨order, succeed, apart, run_permuted editor order succeed apart⟩

end Editor

end IslandLayer
