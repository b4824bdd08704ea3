import IslandLayer.Layer.Footprint

set_option autoImplicit false

namespace IslandLayer

namespace Cell

/-- The word that a footprint holding `item` shows `dx` columns and `dy` rows from its anchor. -/
def part (item : Cell) (dx dy : UInt8) : Cell :=
  if dx = 0 ∧ dy = 0 then item else item.extension dx dy

end Cell

namespace Layer

/-- Clipping brings no square onto the grid. -/
theorem onGrid_clip_iff (column row : Nat) :
    OnGrid (Saturating.clip column) (Saturating.clip row) ↔ column < width ∧ row < height := by
  simp only [OnGrid, Saturating.toNat_clip, Saturating.limit, UInt32.size, width, height]
  omega

end Layer

namespace Footprint

/-- The square at `a` is looked at before the one at `b`: columns first, then rows, and the anchor
after all others. -/
def Before (a b : UInt8 × UInt8) : Prop :=
  a ≠ (0, 0) ∧ (b = (0, 0) ∨ a.1 < b.1 ∨ a.1 = b.1 ∧ a.2 < b.2)

theorem not_before_of_before {a b : UInt8 × UInt8} (before : Before a b) : ¬ Before b a := by
  rintro ⟨other, later⟩
  obtain ⟨self, earlier⟩ := before
  simp only [self, other, false_or, UInt8.lt_iff_toNat_lt, ← UInt8.toNat_inj] at later earlier
  omega

/-- A footprint has the square at these distances from its anchor. The anchor itself is always one
of its squares, even if a side has none. -/
def Has (f : Footprint) (d : UInt8 × UInt8) : Prop := d = (0, 0) ∨ d.1 < f.width ∧ d.2 < f.height

/-- The column of a square of a footprint, which may lie far off the grid. -/
def column (f : Footprint) (d : UInt8 × UInt8) : Nat := f.x.toNat + d.1.toNat

def row (f : Footprint) (d : UInt8 × UInt8) : Nat := f.y.toNat + d.2.toNat

def Inside (f : Footprint) (d : UInt8 × UInt8) : Prop :=
  f.column d < Layer.width ∧ f.row d < Layer.height

instance (f : Footprint) (d : UInt8 × UInt8) : Decidable (f.Inside d) :=
  inferInstanceAs (Decidable (_ ∧ _))

def Covers (f : Footprint) (x y : UInt32) : Prop :=
  ∃ d, f.Has d ∧ x.toNat = f.column d ∧ y.toNat = f.row d

/-- The anchor is an even square of the grid, and the sides end on the grid. A footprint with a side
of no squares is its anchor alone. -/
structure Fits (f : Footprint) : Prop where
  aligned : f.Aligned
  onGrid : Layer.OnGrid f.x f.y
  sides : f.width = 0 ∨ f.height = 0 ∨
    f.x.toNat + f.width.toNat ≤ Layer.width ∧ f.y.toNat + f.height.toNat ≤ Layer.height

/-- What is wrong with a footprint: its anchor is not even, or a square of it lies off the grid and
none that is looked at before it does. -/
def Refuses (f : Footprint) : LayerError → Prop
  | .unaligned x y => ¬ f.Aligned ∧ x = f.x ∧ y = f.y
  | .outOfBounds x y => f.Aligned ∧ ∃ d, f.Has d ∧ ¬ f.Inside d ∧
      (∀ d', f.Has d' → Before d' d → f.Inside d') ∧
      x = Saturating.clip (f.column d) ∧ y = Saturating.clip (f.row d)
  | .cellCount _ => False

/-- The squares of a footprint in the order of writing. -/
def order (f : Footprint) : List (UInt8 × UInt8) := offsets f.width f.height ++ [(0, 0)]

def word (f : Footprint) (item : Cell) (d : UInt8 × UInt8) : Write :=
  ⟨Saturating.clip (f.column d), Saturating.clip (f.row d), item.part d.1 d.2⟩

theorem mem_offsets (width height : UInt8) (d : UInt8 × UInt8) :
    d ∈ offsets width height ↔ d ≠ (0, 0) ∧ d.1 < width ∧ d.2 < height := by
  obtain ⟨dx, dy⟩ := d
  rw [offsets, List.mem_filter, and_comm, decide_eq_true_eq, List.mem_flatMap]
  refine and_congr_right fun _ => ⟨?_, ?_⟩
  · rintro ⟨i, column, listed⟩
    obtain ⟨j, row, same⟩ := List.mem_map.mp listed
    have hi := List.mem_range.mp column
    have hj := List.mem_range.mp row
    have bound := width.toNat_lt
    have bound' := height.toNat_lt
    obtain ⟨rfl, rfl⟩ := Prod.mk.inj same
    simp only [UInt8.lt_iff_toNat_lt, UInt8.toNat_ofNat']
    omega
  · rintro ⟨column, row⟩
    refine ⟨dx.toNat, List.mem_range.mpr (UInt8.lt_iff_toNat_lt.mp column), List.mem_map.mpr
      ⟨dy.toNat, List.mem_range.mpr (UInt8.lt_iff_toNat_lt.mp row), ?_⟩⟩
    rw [UInt8.ofNat_toNat, UInt8.ofNat_toNat]

@[simp] theorem mem_order (f : Footprint) (d : UInt8 × UInt8) : d ∈ f.order ↔ f.Has d := by
  rw [order, List.mem_append, mem_offsets, List.mem_singleton, Has]
  by_cases anchor : d = (0, 0) <;> simp [anchor]

@[simp] theorem clip_toNat (n : UInt32) : Saturating.clip n.toNat = n := Saturating.add_zero n

theorem ofNat_lt_ofNat {side : UInt8} {i j : Nat} (inside : j ∈ List.range side.toNat)
    (less : i < j) : UInt8.ofNat i < UInt8.ofNat j := by
  have bound := side.toNat_lt
  have listed := List.mem_range.mp inside
  simp only [UInt8.lt_iff_toNat_lt, UInt8.toNat_ofNat']
  omega

theorem pairwise_offsets (width height : UInt8) : (offsets width height).Pairwise Before := by
  -- Two squares of one column differ in their rows only, and any others in their columns.
  have sorted : (offsets width height).Pairwise fun a b => a.1 < b.1 ∨ a.1 = b.1 ∧ a.2 < b.2 := by
    refine List.Pairwise.filter _ (List.pairwise_flatMap.mpr ⟨fun i _ => ?_, ?_⟩)
    · refine List.pairwise_map.mpr (List.pairwise_lt_range.imp_of_mem fun _ listed less => ?_)
      exact Or.inr ⟨rfl, ofNat_lt_ofNat listed less⟩
    · refine List.pairwise_lt_range.imp_of_mem fun _ listed less a here b there => ?_
      obtain ⟨_, _, rfl⟩ := List.mem_map.mp here
      obtain ⟨_, _, rfl⟩ := List.mem_map.mp there
      exact Or.inl (ofNat_lt_ofNat listed less)
  exact sorted.imp_of_mem fun here _ less => ⟨((mem_offsets _ _ _).mp here).1, Or.inr less⟩

theorem pairwise_order (f : Footprint) : f.order.Pairwise Before := by
  refine List.pairwise_append.mpr ⟨pairwise_offsets _ _, List.pairwise_singleton _ _, ?_⟩
  intro a here b last
  exact ⟨((mem_offsets _ _ _).mp here).1, Or.inl (List.mem_singleton.mp last)⟩

theorem writes_eq (f : Footprint) (item : Cell) : f.writes item = f.order.map (f.word item) := by
  rw [writes, order, List.map_append]
  congr 1
  · apply List.map_congr_left
    intro d listed
    have beside : ¬ (d.1 = 0 ∧ d.2 = 0) := fun anchor =>
      ((mem_offsets _ _ d).mp listed).1 (Prod.ext anchor.1 anchor.2)
    rw [word, Cell.part, if_neg beside, column, row]
    simp only [Saturating.add, UInt8.toNat_toUInt32]
  · have anchor : f.word item (0, 0) = ⟨f.x, f.y, item⟩ := by
      simp [word, column, row, Cell.part]
    rw [List.map_singleton, anchor]

/-- The first square that is found among some in order is the one that no other precedes. -/
theorem find?_eq_some_iff_of_pairwise {squares : List (UInt8 × UInt8)}
    (sorted : squares.Pairwise Before) (p : UInt8 × UInt8 → Bool) (d : UInt8 × UInt8) :
    squares.find? p = some d ↔
      d ∈ squares ∧ p d = true ∧ ∀ d' ∈ squares, Before d' d → p d' = false := by
  constructor
  · intro found
    obtain ⟨holds, front, back, rfl, none⟩ := List.find?_eq_some_iff_append.mp found
    obtain ⟨-, later, -⟩ := List.pairwise_append.mp sorted
    refine ⟨by simp, holds, fun d' mem before => ?_⟩
    rcases List.mem_append.mp mem with early | late
    · simpa using none d' early
    · rcases List.mem_cons.mp late with rfl | late
      · exact absurd before (not_before_of_before before)
      · exact absurd before (not_before_of_before ((List.pairwise_cons.mp later).1 d' late))
  · rintro ⟨mem, holds, first⟩
    obtain ⟨front, back, rfl⟩ := List.append_of_mem mem
    obtain ⟨-, -, across⟩ := List.pairwise_append.mp sorted
    refine List.find?_eq_some_iff_append.mpr ⟨holds, front, back, rfl, fun d' early => ?_⟩
    simpa using first d' (List.mem_append_left _ early) (across d' early d (by simp))

theorem onGrid_word_iff (f : Footprint) (item : Cell) (d : UInt8 × UInt8) :
    Layer.OnGrid (f.word item d).x (f.word item d).y ↔ f.Inside d := Layer.onGrid_clip_iff _ _

theorem find?_writes (f : Footprint) (item : Cell) :
    (((f.writes item).find? fun w => ¬ Layer.OnGrid w.x w.y).map fun w =>
      LayerError.outOfBounds w.x w.y) =
    (f.order.find? fun d => ¬ f.Inside d).map fun d =>
      .outOfBounds (Saturating.clip (f.column d)) (Saturating.clip (f.row d)) := by
  rw [writes_eq, List.find?_map, Option.map_map]
  simp only [Function.comp_def, onGrid_word_iff]
  rfl

theorem refusal?_eq_find? {f : Footprint} (aligned : f.Aligned) :
    f.refusal? = (f.order.find? fun d => ¬ f.Inside d).map fun d =>
      .outOfBounds (Saturating.clip (f.column d)) (Saturating.clip (f.row d)) := by
  rw [refusal?, if_pos aligned, find?_writes]

/-- Which square is refused does not depend on the item. -/
theorem refusal?_of_aligned {f : Footprint} (aligned : f.Aligned) (item : Cell) :
    f.refusal? = ((f.writes item).find? fun w => ¬ Layer.OnGrid w.x w.y).map fun w =>
      .outOfBounds w.x w.y := by
  rw [refusal?_eq_find? aligned, find?_writes]

theorem refusal?_eq_some_iff (f : Footprint) (e : LayerError) :
    f.refusal? = some e ↔ f.Refuses e := by
  by_cases aligned : f.Aligned
  · rw [refusal?_eq_find? aligned, Option.map_eq_some_iff]
    simp only [find?_eq_some_iff_of_pairwise f.pairwise_order, mem_order, decide_eq_true_eq,
      decide_eq_false_iff_not, Decidable.not_not]
    cases e with
    | unaligned x y => simp [Refuses, aligned]
    | outOfBounds x y =>
      simp only [Refuses, aligned, true_and, LayerError.outOfBounds.injEq]
      refine exists_congr fun d => ?_
      simp only [and_assoc, eq_comm]
    | cellCount n => simp [Refuses]
  · rw [refusal?, if_neg aligned]
    cases e with
    | unaligned x y => simp [Refuses, aligned, eq_comm]
    | outOfBounds x y => simp [Refuses, aligned]
    | cellCount n => simp [Refuses]

theorem Fits.inside {f : Footprint} (fits : f.Fits) {d : UInt8 × UInt8} (has : f.Has d) :
    f.Inside d := by
  obtain ⟨-, ⟨columns, rows⟩, sides⟩ := fits
  rcases has with rfl | ⟨dx, dy⟩
  · exact ⟨columns, rows⟩
  · simp only [UInt8.lt_iff_toNat_lt] at dx dy
    simp only [← UInt8.toNat_inj, UInt8.toNat_zero] at sides
    simp only [Inside, column, row]
    omega

/-- The corner that is farthest from the anchor decides for all squares. -/
theorem fits_of_inside {f : Footprint} (aligned : f.Aligned)
    (inside : ∀ d, f.Has d → f.Inside d) : f.Fits := by
  refine ⟨aligned, inside (0, 0) (Or.inl rfl), ?_⟩
  by_cases flat : f.width = 0 ∨ f.height = 0
  · exact flat.imp_right Or.inl
  · simp only [← UInt8.toNat_inj, UInt8.toNat_zero, not_or] at flat
    have bound := f.width.toNat_lt
    have bound' := f.height.toNat_lt
    have width : (UInt8.ofNat (f.width.toNat - 1)).toNat = f.width.toNat - 1 :=
      UInt8.toNat_ofNat_of_lt' (by simp only [UInt8.size]; omega)
    have height : (UInt8.ofNat (f.height.toNat - 1)).toNat = f.height.toNat - 1 :=
      UInt8.toNat_ofNat_of_lt' (by simp only [UInt8.size]; omega)
    obtain ⟨right, bottom⟩ :=
      inside (UInt8.ofNat (f.width.toNat - 1), UInt8.ofNat (f.height.toNat - 1)) (Or.inr (by
        simp only [UInt8.lt_iff_toNat_lt, width, height]
        omega))
    simp only [column, row, width, height] at right bottom
    omega

theorem refusal?_eq_none_iff (f : Footprint) : f.refusal? = none ↔ f.Fits := by
  by_cases aligned : f.Aligned
  · rw [refusal?_eq_find? aligned, Option.map_eq_none_iff, List.find?_eq_none]
    simp only [mem_order, decide_eq_true_eq, Decidable.not_not]
    exact ⟨fits_of_inside aligned, fun fits _ => fits.inside⟩
  · rw [refusal?, if_neg aligned]
    exact iff_of_false nofun fun fits => aligned fits.aligned

end Footprint

namespace Layer

theorem get_foldl_write_of_apart (layer : Layer) {writes : List Write} {x y : UInt32}
    (apart : ∀ w ∈ writes, ¬ (x = w.x ∧ y = w.y)) :
    (writes.foldl write layer).get x y = layer.get x y := by
  induction writes generalizing layer with
  | nil => rfl
  | cons w rest ih =>
    obtain ⟨first, others⟩ := List.forall_mem_cons.mp apart
    rw [List.foldl_cons, ih _ others, get_write_of_ne _ _ first]

theorem get_foldl_write_of_agree (layer : Layer) {writes : List Write} {x y : UInt32} {cell : Cell}
    (onGrid : OnGrid x y) (agree : ∀ w ∈ writes, x = w.x ∧ y = w.y → w.cell = cell)
    (shown : layer.get x y = .ok cell ∨ ∃ w ∈ writes, x = w.x ∧ y = w.y) :
    (writes.foldl write layer).get x y = .ok cell := by
  induction writes generalizing layer with
  | nil =>
    rcases shown with shown | ⟨w, mem, -⟩
    · exact shown
    · exact absurd mem List.not_mem_nil
  | cons w rest ih =>
    obtain ⟨first, others⟩ := List.forall_mem_cons.mp agree
    rw [List.foldl_cons]
    apply ih _ others
    rw [get_write _ _ _ _ onGrid]
    by_cases here : x = w.x ∧ y = w.y
    · rw [if_pos here, first here]
      exact Or.inl rfl
    · rw [if_neg here]
      exact shown.imp_right fun ⟨v, mem, there⟩ => by
        rcases List.mem_cons.mp mem with rfl | later
        · exact absurd there here
        · exact ⟨v, later, there⟩

end Layer

namespace Footprint

theorem eq_of_square {f : Footprint} {d d' : UInt8 × UInt8} (columns : f.column d = f.column d')
    (rows : f.row d = f.row d') : d = d' := by
  apply Prod.ext
  · exact UInt8.toNat_inj.mp (Nat.add_left_cancel columns)
  · exact UInt8.toNat_inj.mp (Nat.add_left_cancel rows)

section

variable {f : Footprint} (fits : f.Fits)

include fits

theorem Fits.square_word {d : UInt8 × UInt8} (has : f.Has d) (item : Cell) :
    (f.word item d).x.toNat = f.column d ∧ (f.word item d).y.toNat = f.row d := by
  obtain ⟨columns, rows⟩ := fits.inside has
  simp only [word, Saturating.toNat_clip, Saturating.limit, UInt32.size, Layer.width,
    Layer.height] at *
  omega

variable (layer : Layer) (item : Cell)

theorem Fits.get_lay {d : UInt8 × UInt8} (has : f.Has d) {x y : UInt32}
    (columns : x.toNat = f.column d) (rows : y.toNat = f.row d) :
    (layer.lay f item).get x y = .ok (item.part d.1 d.2) := by
  obtain ⟨wordColumn, wordRow⟩ := fits.square_word has item
  have onGrid : Layer.OnGrid x y := by
    rw [Layer.OnGrid, columns, rows]
    exact fits.inside has
  rw [Layer.lay, writes_eq]
  refine Layer.get_foldl_write_of_agree layer onGrid ?_ (Or.inr ⟨f.word item d, ?_, ?_⟩)
  · -- A word that goes to this square is meant for it.
    intro w mem
    obtain ⟨d', listed, rfl⟩ := List.mem_map.mp mem
    rintro ⟨rfl, rfl⟩
    obtain ⟨otherColumn, otherRow⟩ := fits.square_word ((f.mem_order d').mp listed) item
    rw [eq_of_square (columns.symm.trans otherColumn) (rows.symm.trans otherRow), word]
  · exact List.mem_map.mpr ⟨d, (f.mem_order d).mpr has, rfl⟩
  · exact ⟨UInt32.toNat_inj.mp (columns.trans wordColumn.symm),
      UInt32.toNat_inj.mp (rows.trans wordRow.symm)⟩

theorem Fits.get_lay_of_not_covers {x y : UInt32} (apart : ¬ f.Covers x y) :
    (layer.lay f item).get x y = layer.get x y := by
  rw [Layer.lay, writes_eq]
  apply Layer.get_foldl_write_of_apart
  intro w mem
  obtain ⟨d, listed, rfl⟩ := List.mem_map.mp mem
  have has := (f.mem_order d).mp listed
  rintro ⟨rfl, rfl⟩
  exact apart ⟨d, has, fits.square_word has item⟩

/-- On the grid no sum wraps around. -/
theorem Fits.eq_add {d : UInt8 × UInt8} (has : f.Has d) (x y : UInt32) :
    x.toNat = f.column d ∧ y.toNat = f.row d ↔
      x = f.x + d.1.toUInt32 ∧ y = f.y + d.2.toUInt32 := by
  obtain ⟨columns, rows⟩ := fits.inside has
  simp only [← UInt32.toNat_inj, UInt32.toNat_add, UInt8.toNat_toUInt32, column, row, Layer.width,
    Layer.height] at *
  omega

end

end Footprint

end IslandLayer
