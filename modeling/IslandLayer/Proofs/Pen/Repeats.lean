import IslandLayer.Proofs.Pen.Ids
import IslandLayer.Proofs.Pen.Stuck

set_option autoImplicit false

namespace IslandLayer

open Script

namespace Cell

theorem toUInt64_and_shiftLeft (base : UInt16) (mask : UInt64) :
    base.toUInt64 &&& mask <<< 16 = 0 := by
  apply UInt64.eq_of_toBitVec_eq
  ext i bound
  by_cases low : i < 16
  · simp [low]
  · have above : base.toBitVec.getLsbD i = false := BitVec.getLsbD_of_ge _ _ (by omega)
    simp [above]

/-- The bit that a repeat keeps is the only one above its id. -/
theorem repeated_and_shiftLeft (base : UInt16) (last : Cell) (mask : UInt64) :
    repeated base last &&& mask <<< 16 = last &&& repeatMask &&& mask <<< 16 := by
  have split : repeated base last &&& mask <<< 16 =
      base.toUInt64 &&& mask <<< 16 ||| last &&& repeatMask &&& mask <<< 16 := by
    apply UInt64.eq_of_toBitVec_eq
    exact BitVec.and_or_distrib_right
  rw [split, toUInt64_and_shiftLeft, UInt64.zero_or]

theorem repeated_repeated (base : UInt16) (last : Cell) :
    repeated base (repeated base last) = repeated base last := by
  have kept : repeated base last &&& repeatMask = last &&& repeatMask := by
    have masked := repeated_and_shiftLeft base last 0x20
    rwa [show (0x20 : UInt64) <<< 16 = repeatMask from rfl, UInt64.and_assoc, UInt64.and_self]
      at masked
  rw [repeated, kept, repeated]

theorem hasVariant_repeated (base : UInt16) (last : Cell) :
    (repeated base last).hasVariant = false := by
  have masked := repeated_and_shiftLeft base last 0x1F
  have apart : repeatMask &&& variantMask = 0 := rfl
  rw [show (0x1F : UInt64) <<< 16 = variantMask from rfl, UInt64.and_assoc, apart, UInt64.and_zero]
    at masked
  rw [hasVariant, masked]
  rfl

theorem upper_repeated (base : UInt16) (last : Cell) : (repeated base last).upper = 0 := by
  have id : upper base.toUInt64 = 0 := by
    apply UInt32.eq_of_toBitVec_eq
    ext i bound
    have above : base.toBitVec.getLsbD (32 + i) = false := BitVec.getLsbD_of_ge _ _ (by omega)
    simp [upper, above]
  have bit : (last &&& repeatMask).upper = 0 := by
    have below : (repeatMask >>> 32).toUInt32 = 0 := rfl
    rw [upper, UInt64.shiftRight_and, UInt64.toUInt32_and, below, UInt32.and_zero]
  rw [repeated, upper_or, id, bit, UInt32.or_zero]

/-- The word placed for an id in variants mode: a repeat of the word before if that has the id, and
otherwise the packed one. -/
def following (before : Option Cell) (base : UInt16) (packed : Cell) : Cell :=
  match before with
  | some last => if last.itemId = base then repeated base last else packed
  | none => packed

theorem following_of_eq {last : Cell} {base : UInt16} (same : last.itemId = base) (packed : Cell) :
    following (some last) base packed = repeated base last := if_pos same

theorem following_of_ne {before : Option Cell} {base : UInt16}
    (other : ∀ last ∈ before, last.itemId ≠ base) (packed : Cell) :
    following before base packed = packed := by
  cases before with
  | none => rfl
  | some last => exact if_neg (other last rfl)

theorem itemId_following (before : Option Cell) {base : UInt16} {packed : Cell}
    (same : packed.itemId = base) : (following before base packed).itemId = base := by
  cases before with
  | none => exact same
  | some last =>
    by_cases again : last.itemId = base
    · rw [following_of_eq again, itemId_repeated]
    · rwa [following, if_neg again]

end Cell

/-- A placement with what its command asks for. -/
structure Drawn where
  /-- The id, cut to the sixteen bits of its field. -/
  base : UInt16
  /-- The word that the command packs for it. -/
  packed : Cell
  placement : Placement
  deriving Repr, DecidableEq

namespace Drawn

/-- The word placed last, or the one from before if nothing has been placed. -/
def last (before : Option Cell) (ds : List Drawn) : Option Cell :=
  (ds.getLast?.map (·.placement.cell)).or before

@[simp] theorem last_cons (before : Option Cell) (d : Drawn) (rest : List Drawn) :
    last before (d :: rest) = last (some d.placement.cell) rest := by
  unfold last
  rw [List.getLast?_cons]
  cases rest.getLast? <;> rfl

/-- Each word follows the one before it. -/
def Linked : Option Cell → List Drawn → Prop
  | _, [] => True
  | before, d :: rest =>
    d.placement.cell = Cell.following before d.base d.packed ∧
      Linked (some d.placement.cell) rest

theorem linked_append {before : Option Cell} {front back : List Drawn} :
    Linked before (front ++ back) ↔ Linked before front ∧ Linked (last before front) back := by
  induction front generalizing before with
  | nil => rw [List.nil_append, Linked, true_and]; rfl
  | cons d rest ih => simp [Linked, ih, and_assoc]

/-- After a word with an id all words for that id are one and the same. -/
theorem Linked.settled {base : UInt16} {cell : Cell} (same : cell.itemId = base)
    {ds : List Drawn} (linked : Linked (some cell) ds) (all : ∀ d ∈ ds, d.base = base) :
    ∀ d ∈ ds, d.placement.cell = Cell.repeated base cell := by
  induction ds generalizing cell with
  | nil => exact fun _ mem => absurd mem List.not_mem_nil
  | cons d rest ih =>
    obtain ⟨word, others⟩ := linked
    have repeats : d.placement.cell = Cell.repeated base cell := by
      rw [word, all d List.mem_cons_self, Cell.following_of_eq same]
    have kept : d.placement.cell.itemId = base := by rw [repeats, Cell.itemId_repeated]
    -- The rest follows a repeat, and a repeat of a repeat is the same word again.
    have later := ih kept others fun e mem => all e (List.mem_cons_of_mem d mem)
    rw [repeats, Cell.repeated_repeated] at later
    exact List.forall_mem_cons.mpr ⟨repeats, later⟩

end Drawn

namespace Pen

/-- The id that a line asks for and the word that it packs, if it is a command for an item and the
item has an id in this context. -/
def asked? (pen : Pen) (sizes : StackSizes) (words : List String) : Option (UInt16 × Cell) :=
  match Command.read words with
  | .error _ => none
  | .ok command =>
    command.item?.bind fun item =>
      (item.id? pen.context.modes.hex).map fun id =>
        (id.toUInt16, (pen.announce command.variant).pack sizes id item.extra)

def drawn (pen : Pen) (sizes : StackSizes) (words : List String) : List Drawn :=
  match pen.asked? sizes words with
  | none => []
  | some asked => (pen.follow sizes words).placed.map (Drawn.mk asked.1 asked.2)

theorem next_eq_following {pen : Pen} (on : pen.context.modes.variants = true) (base : UInt16)
    (cell : Cell) : pen.next base cell = Cell.following pen.last base cell := by
  unfold next Cell.following
  cases pen.last with
  | none => rfl
  | some last => simp only [on, Bool.true_and, beq_iff_eq]

/-- A count places linked words, and at its end the pen remembers the last of them, unless it has
been refused a slot. -/
theorem linked_placeFrom {pen : Pen} (on : pen.context.modes.variants = true) (base : UInt16)
    (count : Nat) (cell : Cell) :
    let stroke := placeFrom base count cell pen []
    let drawn := stroke.placed.map (Drawn.mk base cell)
    Drawn.Linked pen.last drawn ∧
      (stroke.pen.last = Drawn.last pen.last drawn ∨ ∃ e, stroke.pen.Stuck e) := by
  induction count generalizing pen with
  | zero => exact ⟨trivial, Or.inl rfl⟩
  | succ count ih =>
    cases answer : (pen.target base cell).footprint.refusal? with
    | some e =>
      rw [placeFrom_of_refused answer]
      exact ⟨trivial, Or.inr ⟨e, answer⟩⟩
    | none =>
      have moved : (pen.moved (pen.target base cell).cell).context.modes.variants = true := on
      obtain ⟨linked, remembered⟩ := ih moved
      rw [placeFrom_restarted answer]
      refine ⟨⟨next_eq_following on base cell, linked⟩, ?_⟩
      have last := Drawn.last_cons pen.last ⟨base, cell, pen.target base cell⟩
        ((placeFrom base count cell (pen.moved (pen.target base cell).cell) []).placed.map
          (Drawn.mk base cell))
      exact remembered.imp_left fun same => same.trans last.symm

section

variable {pen : Pen} {words : List String}

/-- A line that is no context asks for nothing and does nothing, or it places what it asks for. -/
theorem asked_cases (same : ∀ context, Command.read words ≠ .ok (.context context))
    (sizes : StackSizes) :
    (pen.asked? sizes words = none ∧ ∃ result, pen.follow sizes words = ⟨pen, [], result⟩) ∨
      ∃ variant item id,
        pen.asked? sizes words =
          some (id.toUInt16, (pen.announce variant).pack sizes id item.extra) ∧
        pen.follow sizes words = (pen.announce variant).place sizes id item := by
  unfold asked? follow
  cases read : Command.read words with
  | error cause => exact Or.inl ⟨rfl, _, rfl⟩
  | ok command =>
    dsimp only
    cases has : command.item? with
    | none =>
      left
      cases command with
      | empty => exact ⟨rfl, _, rfl⟩
      | context context => exact absurd read (same context)
      | item item => cases has
      | variantItem variant item => cases has
    | some item =>
      rw [draw_of_item? has, Option.bind_some]
      cases known : item.id? pen.context.modes.hex with
      | none =>
        rw [drawItem, known]
        exact Or.inl ⟨rfl, _, rfl⟩
      | some id =>
        rw [drawItem_of_id known]
        exact Or.inr ⟨command.variant, item, id, rfl, rfl⟩

/-- A line changes only where the pen is and what it remembers, if it is no context. -/
theorem packsLike_follow (unannounced : pen.pending = none)
    (same : ∀ context, Command.read words ≠ .ok (.context context)) (sizes : StackSizes) :
    pen.PacksLike (pen.follow sizes words).pen := by
  rcases asked_cases same sizes with ⟨-, result, idle⟩ | ⟨variant, item, id, -, drawn⟩
  · rw [idle]
    exact ⟨rfl, rfl, rfl⟩
  · rw [drawn, place, forget_announce unannounced]
    exact packsLike_placeFrom _ _ _ pen

theorem linked_drawn (unannounced : pen.pending = none)
    (on : pen.context.modes.variants = true)
    (same : ∀ context, Command.read words ≠ .ok (.context context)) (sizes : StackSizes) :
    let after := (pen.follow sizes words).pen
    Drawn.Linked pen.last (pen.drawn sizes words) ∧
      (after.last = Drawn.last pen.last (pen.drawn sizes words) ∨ ∃ e, after.Stuck e) := by
  rcases asked_cases same sizes with ⟨none, result, idle⟩ | ⟨variant, item, id, asked, drawn⟩
  · rw [Pen.drawn, none, idle]
    exact ⟨trivial, Or.inl rfl⟩
  · rw [Pen.drawn, asked, drawn, place, forget_announce unannounced]
    exact linked_placeFrom on id.toUInt16 item.count.toNat _

theorem map_placement_drawn (same : ∀ context, Command.read words ≠ .ok (.context context))
    (sizes : StackSizes) :
    (pen.drawn sizes words).map (·.placement) = (pen.follow sizes words).placed := by
  rcases asked_cases same sizes with ⟨none, result, idle⟩ | ⟨variant, item, id, asked, drawn⟩
  · rw [Pen.drawn, none, idle]
    rfl
  · rw [Pen.drawn, asked, List.map_map]
    exact List.map_id _

theorem itemId_packed_of_mem_drawn (unannounced : pen.pending = none)
    (plain : pen.context.modes.diy = false)
    (same : ∀ context, Command.read words ≠ .ok (.context context)) (sizes : StackSizes) :
    ∀ d ∈ pen.drawn sizes words, d.base ≠ 0 → d.packed.itemId = d.base := by
  rcases asked_cases same sizes with ⟨none, -⟩ | ⟨variant, item, id, asked, -⟩
  · rw [drawn, none]
    exact fun _ mem => absurd mem List.not_mem_nil
  · rw [drawn, asked]
    intro d mem named
    obtain ⟨p, -, rfl⟩ := List.mem_map.mp mem
    exact itemId_pack_announce unannounced plain variant sizes named item.extra

end

end Pen

end IslandLayer
