import IslandLayer.Proofs.Editor.Slots
import IslandLayer.Proofs.Pen.Failing

set_option autoImplicit false

namespace IslandLayer

open Script

/-- The square lies in the two by two block with that corner. -/
def Layer.InBlock (corner : Nat × Nat) (x y : UInt32) : Prop :=
  corner.1 ≤ x.toNat ∧ x.toNat ≤ corner.1 + 1 ∧ corner.2 ≤ y.toNat ∧ y.toNat ≤ corner.2 + 1

theorem Placement.Fits.covers_iff {p : Placement} (fits : p.Fits) (x y : UInt32) :
    p.Covers x y ↔ Layer.InBlock (p.x.toNat, p.y.toNat) x y := by
  obtain ⟨evenX, evenY, -⟩ := fits
  simp only [← UInt32.toNat_inj, Layer.toNat_mod_two, UInt32.toNat_zero] at evenX evenY
  simp only [Covers, Layer.InBlock, ← UInt32.toNat_inj, Layer.toNat_corner]
  omega

namespace Script.Context

/-- The slot that many placements ahead is an even square of the grid. -/
def Open (context : Context) (count : Nat) : Prop :=
  (context.slotAt count).1 % 2 = 0 ∧ (context.slotAt count).2 % 2 = 0 ∧
    (context.slotAt count).1 < Layer.width ∧ (context.slotAt count).2 < Layer.height

instance (context : Context) (count : Nat) : Decidable (context.Open count) :=
  inferInstanceAs (Decidable (_ ∧ _))

theorem open_iff (context : Context) (count : Nat) :
    context.Open count ↔ (context.x % 2 = 0 ∧ context.y % 2 = 0) ∧
      (context.slotAt count).1 < Layer.width ∧ (context.slotAt count).2 < Layer.height := by
  simp only [Open, slotAt, ← UInt32.toNat_inj, Layer.toNat_mod_two, UInt32.toNat_zero]
  omega

/-- On the grid nothing is clipped, and what is clipped does not come to lie on the grid. -/
theorem fits_cursor_iff (context : Context) (count : Nat) (cell : Cell) :
    (Placement.mk (context.advancedBy count).cursor.1 (context.advancedBy count).cursor.2
      cell).Fits ↔
      context.Open count := by
  rw [cursor_eq, slot_advancedBy, Placement.Fits, Open, Layer.onGrid_clip_iff]
  simp only [← UInt32.toNat_inj, Layer.toNat_mod_two, Saturating.toNat_clip, UInt32.toNat_zero,
    Saturating.limit, UInt32.size, Layer.width, Layer.height]
  omega

section

variable {context after : Context} {count : Nat} {placed : List Placement}
  (takes : context.Takes count placed after) (fit : ∀ p ∈ placed, p.Fits)

include takes fit

theorem Takes.isOpen {j : Nat} (counted : j < count) : context.Open j := by
  have listed : (context.advancedBy j).cursor ∈ placed.map Placement.spot := by
    rw [takes.spots]
    exact List.mem_map_of_mem (List.mem_range.mpr counted)
  obtain ⟨p, mem, spot⟩ := List.mem_map.mp listed
  rw [← context.fits_cursor_iff j p.cell, ← spot]
  exact fit p mem

theorem Takes.slots :
    placed.map (fun p => (p.x.toNat, p.y.toNat)) = (List.range count).map context.slotAt := by
  have spots := congrArg (List.map fun spot => (spot.1.toNat, spot.2.toNat)) takes.spots
  rw [List.map_map, cursors, List.map_map] at spots
  refine spots.trans (List.map_congr_left fun j listed => ?_)
  obtain ⟨-, -, onGrid⟩ := (context.fits_cursor_iff j 0).mpr
    (takes.isOpen fit (List.mem_range.mp listed))
  exact (slot_of_onGrid onGrid).symm.trans (context.slot_advancedBy j)

/-- What is taken covers the blocks of its slots and no other square. -/
theorem Takes.covers_iff (x y : UInt32) :
    (∃ p ∈ placed, p.Covers x y) ↔ ∃ j < count, Layer.InBlock (context.slotAt j) x y := by
  have blocks : (∃ p ∈ placed, p.Covers x y) ↔
      ∃ corner ∈ placed.map (fun p => (p.x.toNat, p.y.toNat)), Layer.InBlock corner x y := by
    simp only [List.mem_map, exists_exists_and_eq_and]
    exact exists_congr fun p => and_congr_right fun mem => (fit p mem).covers_iff x y
  rw [blocks, takes.slots fit]
  simp only [List.mem_map, exists_exists_and_eq_and, List.mem_range]

end

end Script.Context

namespace Pen

/-- A count takes all its slots, or those before one that is not open, where it fails. -/
theorem raster_of_placeFrom (base : UInt16) (count : Nat) (cell : Cell) (pen : Pen) :
    let stroke := placeFrom base count cell pen []
    stroke.result = .ok () ∧ pen.context.Takes count stroke.placed stroke.pen.context ∨
      stroke.result ≠ .ok () ∧ ∃ k < count, ¬ pen.context.Open k ∧
        pen.context.Takes k stroke.placed stroke.pen.context := by
  intro stroke
  cases outcome : stroke.result with
  | ok => exact Or.inl ⟨rfl, takes_of_placeFrom outcome⟩
  | error cause =>
    obtain ⟨e, -, k, less, cut⟩ := placeFrom_of_error outcome
    have takes := takes_of_placeFrom cut.result
    refine Or.inr ⟨nofun, k, less, ?_, ?_⟩
    -- The layer would have taken an item in an open slot.
    · intro isOpen
      have fits := (pen.context.fits_cursor_iff k
        ((placeFrom base k cell pen []).pen.target base cell).cell).mpr isOpen
      rw [← takes.context, ← Placement.refusal?_eq_none_iff] at fits
      cases fits.symm.trans cut.refused
    · rw [show stroke = _ from cut.whole]
      exact takes

theorem raster_of_follow {words : List String} {item : Item} (asks : Command.Asks words item)
    {pen : Pen} {id : UInt64} (known : item.id? pen.context.modes.hex = some id)
    (sizes : StackSizes) :
    let stroke := pen.follow sizes words
    stroke.result = .ok () ∧
        pen.context.Takes item.count.toNat stroke.placed stroke.pen.context ∨
      stroke.result ≠ .ok () ∧ ∃ k < item.count.toNat, ¬ pen.context.Open k ∧
        pen.context.Takes k stroke.placed stroke.pen.context := by
  obtain ⟨variant, drawn⟩ := follow_of_asks asks pen sizes
  rw [drawn, drawItem_of_id known, place, ← pen.context_announce variant]
  exact raster_of_placeFrom _ _ _ { pen.announce variant with pending := none }

end Pen

namespace Editor

/-- The line puts a word on the square, the same one whatever was there before. -/
def Writes (editor : Editor) (words : List String) (x y : UInt32) : Prop :=
  ∃ cell, ∀ layer : Layer, ({ editor with layer }.apply words).1.layer.get x y = .ok cell

/-- The line leaves the square as it was, whatever was there before. -/
def Keeps (editor : Editor) (words : List String) (x y : UInt32) : Prop :=
  ∀ layer : Layer, ({ editor with layer }.apply words).1.layer.get x y = layer.get x y

/-- The line fills the next `count` slots, in order: it writes their blocks and no other square, and
moves the counter of slots behind them. -/
structure Rasters (editor : Editor) (words : List String) (count : Nat) : Prop where
  anchors : (Recorder.apply { editor with taken := [] } words).1.taken.map
    (fun p => (p.x.toNat, p.y.toNat)) = (List.range count).map editor.pen.context.slotAt
  writes : ∀ x y, (∃ j < count, Layer.InBlock (editor.pen.context.slotAt j) x y) →
    editor.Writes words x y
  keeps : ∀ x y, (¬ ∃ j < count, Layer.InBlock (editor.pen.context.slotAt j) x y) →
    editor.Keeps words x y
  offset : (editor.apply words).1.pen.context.offset.toNat =
    min (editor.pen.context.offset.toNat + count) Saturating.limit

theorem rasters_of_takes {editor : Editor} {words : List String} {count : Nat}
    (takes : editor.pen.context.Takes count (editor.pen.follow editor.sizes words).placed
      (editor.pen.follow editor.sizes words).pen.context) : editor.Rasters words count := by
  have fit := editor.pen.fits_of_mem_follow editor.sizes words
  constructor
  · rw [Recorder.taken_apply]
    exact takes.slots fit
  · intro x y inside
    exact Layer.exists_cell_of_covers fit ((takes.covers_iff fit x y).mpr inside)
  · intro x y outside layer
    exact layer.get_placeAll_of_apart fit ((takes.covers_iff fit x y).not.mpr outside)
  · rw [← Context.toNat_offset_advancedBy, ← takes.context]
    rfl

/-- A command succeeds exactly if it places nothing, or its anchor is even and all its slots are on
the grid, and then it fills all of them. Otherwise it fills the slots before the first that is odd
or off the grid. -/
theorem raster_exact (editor : Editor) {words : List String} {item : Item}
    (asks : Command.Asks words item) {id : UInt64}
    (known : item.id? editor.pen.context.modes.hex = some id) :
    let context := editor.pen.context
    let count := item.count.toNat
    let result := (editor.apply words).2
    (result = .ok () ↔ count = 0 ∨ (context.x % 2 = 0 ∧ context.y % 2 = 0) ∧
      ∀ j < count, (context.slotAt j).1 < Layer.width ∧ (context.slotAt j).2 < Layer.height) ∧
    (result = .ok () → editor.Rasters words count) ∧
    (result ≠ .ok () → ∃ k < count, ¬ context.Open k ∧ (∀ j < k, context.Open j) ∧
      editor.Rasters words k) := by
  intro context count result
  have fit := editor.pen.fits_of_mem_follow editor.sizes words
  rcases Pen.raster_of_follow asks known editor.sizes with ⟨done, takes⟩ |
    ⟨failed, k, less, closed, takes⟩
  · have succeeds : result = .ok () := done
    have allOpen (j : Nat) (counted : j < count) : context.Open j := takes.isOpen fit counted
    refine ⟨iff_of_true succeeds ?_, fun _ => rasters_of_takes takes, absurd succeeds⟩
    rcases Nat.eq_zero_or_pos count with zero | some
    · exact Or.inl zero
    · exact Or.inr ⟨((context.open_iff 0).mp (allOpen 0 some)).1,
        fun j counted => ((context.open_iff j).mp (allOpen j counted)).2⟩
  · have fails : result ≠ .ok () := failed
    refine ⟨iff_of_false fails ?_, fun succeeds => absurd succeeds fails, fun _ =>
      ⟨k, less, closed, fun _ counted => takes.isOpen fit counted, rasters_of_takes takes⟩⟩
    rintro (zero | ⟨even, onGrid⟩)
    · exact absurd (Nat.zero_lt_of_lt less) (Nat.not_lt_of_le (Nat.le_of_eq zero))
    · exact closed ((context.open_iff k).mpr ⟨even, onGrid k less⟩)

/-- Nine items from the second slot of a row of three on. The sixth of them would be the first of a
row below the grid. -/
theorem raster_exact_of_last_rows :
    let editor := machine.acts [.apply ["@218,188,3,0,1"]] { layer := .empty, sizes := .empty }
    let item : Item := { token := "7*9", digits := "7", count := 9 }
    Command.Asks ["2_3", "7*9"] item ∧ item.id? editor.pen.context.modes.hex = some 7 ∧
    (editor.apply ["2_3", "7*9"]).2 ≠ .ok () ∧
    (List.range 6).map editor.pen.context.slotAt =
      [(220, 188), (222, 188), (218, 190), (220, 190), (222, 190), (218, 192)] ∧
    editor.Rasters ["2_3", "7*9"] 5 := by
  intro editor item
  have read : Command.read ["2_3", "7*9"] = .ok (.variantItem (.code 2 3) item) := by decide
  have asks : Command.Asks ["2_3", "7*9"] item := ⟨_, read, rfl⟩
  have known : item.id? editor.pen.context.modes.hex = some 7 := by decide +kernel
  have failed : (editor.apply ["2_3", "7*9"]).2 ≠ .ok () := by decide +kernel
  have closed : ¬ editor.pen.context.Open 5 := by decide +kernel
  have isOpen : ∀ j < 5, editor.pen.context.Open j := by decide +kernel
  obtain ⟨-, -, short⟩ := raster_exact editor asks known
  obtain ⟨k, -, refused, before, rasters⟩ := short failed
  have fifth : k = 5 := by
    have late : ¬ k < 5 := fun early => refused (isOpen k early)
    have early : ¬ 5 < k := fun late => closed (before 5 late)
    omega
  rw [fifth] at rasters
  exact ⟨asks, known, failed, by decide +kernel, rasters⟩

end Editor

end IslandLayer
