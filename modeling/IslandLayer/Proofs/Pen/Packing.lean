import IslandLayer.Proofs.Cell.Fields
import IslandLayer.Proofs.Pen.Counts
import IslandLayer.Proofs.Pen.Items

set_option autoImplicit false

namespace IslandLayer

open Script

namespace Script

namespace Variant

def bits : Variant → Cell
  | code variant texture => Cell.variantBits variant texture
  | absent => 0
  | plain => 0

/-- The texture that the variant asks for; none is zero. -/
def texture : Variant → UInt8
  | code _ texture => texture
  | absent => 0
  | plain => 0

/-- Variant and texture are decimal digits. -/
def Digits : Variant → Prop
  | code variant texture => variant < 10 ∧ texture < 10
  | absent => True
  | plain => True

theorem digit_lt {c : Char} (decimal : c.isDigit) : digit c < 10 := by
  have value : Numeral.digitValue c < 10 := by
    have range := Char.isDigit_iff_toNat.mp decimal
    have zero : '0'.toNat = 48 := rfl
    have nine : '9'.toNat = 57 := rfl
    rw [Numeral.digitValue, if_pos decimal]
    omega
  have small : (digit c).toNat = Numeral.digitValue c :=
    UInt8.toNat_ofNat_of_lt' (Nat.lt_trans value (by decide))
  rwa [UInt8.lt_iff_toNat_lt, small]

theorem digits_of_read? {token : String} {variant : Variant} (read : read? token = some variant) :
    variant.Digits := by
  unfold read? at read
  split at read
  · cases read
    trivial
  · split at read
    · next first second _ _ decimal =>
      cases read
      rw [Bool.and_eq_true] at decimal
      exact decimal.imp digit_lt digit_lt
    · cases read
  · cases read

theorem digits_of_readLong? {token : String} {variant : Variant}
    (read : readLong? token = some variant) : variant.Digits := by
  rcases Option.or_eq_some_iff.mp read with short | ⟨-, number⟩
  · exact digits_of_read? short
  · split at number
    · cases number
      trivial
    · cases number

theorem flags_bits (variant : Variant) : variant.bits.flags = 0 := by
  cases variant with
  | code variant texture => simp [bits]
  | absent => rfl
  | plain => rfl

theorem shiftRight_upper_bits {variant : Variant} (digits : variant.Digits) :
    variant.bits.upper >>> 5 = variant.texture.toUInt32 := by
  cases variant with
  | code variant texture =>
    have small : variant < 32 := UInt8.lt_trans digits.1 (by decide)
    have fields := (Cell.fields_eq_iff small texture (Cell.variantBits variant texture)).mpr rfl
    rw [← Cell.texture_eq]
    exact fields.2
  | absent => rfl
  | plain => rfl

end Variant

theorem Item.extra_of_unstacked {item : Item} (unstacked : item.stack ≤ 1) : item.extra = 0 := by
  have bound := UInt32.le_iff_toNat_le.mp unstacked
  unfold extra
  split
  · rfl
  · next some =>
    have one : item.stack = 1 := by
      rw [← UInt32.toNat_inj, UInt32.toNat_zero] at some
      rw [← UInt32.toNat_inj]
      rw [UInt32.toNat_one] at bound ⊢
      omega
    rw [one, UInt32.sub_self]

theorem Command.digits_of_read {words : List String} {command : Command}
    (read : Command.read words = .ok command) : command.variant.Digits := by
  fun_induction Command.read words with
  | case1 | case2 | case4 =>
    cases read
    trivial
  | case3 | case5 | case7 | case8 | case9 => cases read
  | case6 first second variant item parsed announced =>
    cases read
    exact Variant.digits_of_read? announced
  | case10 first second last variant item parsed announced =>
    cases read
    exact Variant.digits_of_readLong? announced
  | case11 first second third fourth rest ih => exact ih read

end Script

namespace Pen

/-- An item uses up the variant that is announced, whatever becomes of its placements. -/
theorem pending_drawItem {pen : Pen} {item : Item} {id : UInt64}
    (known : item.id? pen.context.modes.hex = some id) (sizes : StackSizes) (variant : Variant) :
    (pen.drawItem sizes variant item).pen.pending = none := by
  rw [drawItem_of_id known, place]
  exact (packsLike_placeFrom _ _ _ { pen.announce variant with pending := none }).pending.symm

/-- Between two lines no variant is announced. -/
theorem pending_follow {pen : Pen} (unannounced : pen.pending = none) (sizes : StackSizes)
    (words : List String) : (pen.follow sizes words).pen.pending = none := by
  apply pen.follow_cases sizes words (P := fun stroke => stroke.pen.pending = none)
    (fun _ => unannounced) (fun _ => rfl)
  intro variant item
  cases known : item.id? pen.context.modes.hex with
  | none => rwa [drawItem, known]
  | some id => exact pending_drawItem known sizes variant

theorem pending_announce {pen : Pen} (unannounced : pen.pending = none) (variant : Variant) :
    (pen.announce variant).pending.getD 0 = variant.bits := by
  cases variant with
  | code variant texture => rfl
  | absent => simp [announce, unannounced, Variant.bits]
  | plain => simp [announce, unannounced, Variant.bits]

theorem forget_announce {pen : Pen} (unannounced : pen.pending = none) (variant : Variant) :
    { pen.announce variant with pending := none } = pen := by
  cases pen
  cases unannounced
  cases variant <;> rfl

/-- The stack size less one that a command lays on the word of its item: its own and, where the
context has no variant flags, the default one of the item over it. -/
def stacked (pen : Pen) (sizes : StackSizes) (base : UInt16) (own : UInt32) : UInt32 :=
  if pen.context.flags &&& 0x1F = 0 then own ||| (sizes.defaultExtra? base).getD 0 else own

/-- A default stack size is the only thing that can be added to a code without a stack. -/
theorem or_stacked_eq_iff (pen : Pen) (sizes : StackSizes) (base : UInt16) (code : UInt32) :
    code ||| pen.stacked sizes base 0 = code ↔ pen.context.flags &&& 0x1F ≠ 0 ∨
      ∀ extra, sizes.defaultExtra? base = some extra → code ||| extra = code := by
  unfold stacked
  split
  · next unflagged =>
    rw [UInt32.zero_or]
    cases sizes.defaultExtra? base with
    | none => simp
    | some extra => simp [unflagged]
  · next flagged => simp [flagged]

section

variable {pen : Pen} (plain : pen.context.modes.diy = false) {base : UInt16} (named : base ≠ 0)
  (unflagged : (pen.pending.getD 0).flags = 0) (sizes : StackSizes) (own : UInt32)

include plain named unflagged

/-- The default stack size goes over everything else, unless the context has variant flags. -/
theorem pack_of_plain : pen.pack sizes base.toUInt64 own =
    Cell.pack base.toUInt64 pen.context.flags own ||| pen.pending.getD 0 |||
      Cell.stackBits (if pen.context.flags &&& 0x1F = 0 then (sizes.defaultExtra? base).getD 0
        else 0) := by
  have nothing : Cell.stackBits 0 = 0 := rfl
  have flags : (Cell.pack base.toUInt64 pen.context.flags own ||| pen.pending.getD 0).flags =
      pen.context.flags := by
    simp [Cell.flags_pack, unflagged]
  simp only [pack, plain, UInt16.toUInt16_toUInt64, if_neg named, Cell.hasVariant_eq, flags,
    Bool.false_eq_true, if_false, bne_iff_ne, ne_eq, ite_not]
  split
  · cases sizes.defaultExtra? base with
    | none => rw [Option.getD_none, nothing, UInt64.or_zero]
    | some extra => rfl
  · rw [nothing, UInt64.or_zero]

theorem flags_pack : (pen.pack sizes base.toUInt64 own).flags = pen.context.flags := by
  rw [pack_of_plain plain named unflagged]
  simp [Cell.flags_pack, unflagged]

theorem upper_pack : (pen.pack sizes base.toUInt64 own).upper =
    (pen.pending.getD 0).upper ||| pen.stacked sizes base own := by
  rw [pack_of_plain plain named unflagged, Cell.upper_or, Cell.upper_or, Cell.upper_pack,
    Cell.upper_stackBits, UInt32.or_comm own, UInt32.or_assoc, stacked]
  split
  · rfl
  · rw [UInt32.or_zero]

end

section

variable {words : List String} {command : Command} {item : Item} {pen : Pen} {id : UInt64}

theorem follow_of_item? (read : Command.read words = .ok command)
    (has : command.item? = some item) (known : item.id? pen.context.modes.hex = some id)
    (sizes : StackSizes) :
    pen.follow sizes words = (pen.announce command.variant).place sizes id item := by
  rw [follow_of_read pen sizes read, draw_of_item? has, drawItem_of_id known]

/-- What a line writes is the word that it packs, or a repeat of the word written before. -/
theorem cell_of_place {sizes : StackSizes} {variant : Variant} {front back : List Placement}
    {p : Placement}
    (placed : ((pen.announce variant).place sizes id item).placed = front ++ p :: back) :
    p.cell = (pen.past front).next id.toUInt16
      ((pen.announce variant).pack sizes id item.extra) := by
  rw [eq_target_of_placeFrom placed]
  cases variant <;> rfl

/-- A word that is no repeat has the flags of the context, and in its upper half the variant and the
stack sizes. -/
theorem fields_of_place (plain : pen.context.modes.diy = false) (ordinary : 1 ≤ id ∧ id ≤ 0xFFFF)
    {variant : Variant} (bits : (pen.announce variant).pending.getD 0 = variant.bits)
    {sizes : StackSizes} {front back : List Placement} {p : Placement}
    (placed : ((pen.announce variant).place sizes id item).placed = front ++ p :: back)
    (fresh : ¬ (pen.past front).Repeats id.toUInt16) :
    p.cell.flags = pen.context.flags ∧
      p.cell.upper = variant.bits.upper ||| pen.stacked sizes id.toUInt16 item.extra := by
  have narrow : id.toUInt16.toUInt64 = id := by
    rw [UInt64.toUInt64_toUInt16]
    exact UInt64.mod_eq_of_lt (UInt64.lt_of_le_of_lt ordinary.2 (by decide))
  have named : id.toUInt16 ≠ 0 := by
    intro zero
    rw [zero] at narrow
    rw [← narrow] at ordinary
    exact absurd ordinary.1 (by decide)
  have announced : (pen.announce variant).context.modes.diy = false := by simpa
  have unflagged : ((pen.announce variant).pending.getD 0).flags = 0 := by
    rw [bits, variant.flags_bits]
  have word := (cell_of_place placed).trans (next_of_not_repeats fresh _)
  rw [← narrow] at word
  rw [word, flags_pack announced named unflagged, upper_pack announced named unflagged, bits,
    stacked, stacked, context_announce]
  exact ⟨rfl, rfl⟩

end

end Pen

end IslandLayer
