import IslandLayer.Proofs.Editor.History
import IslandLayer.Proofs.Pen.Packing

set_option autoImplicit false

namespace IslandLayer

open Script

namespace Editor

theorem pending_of_reachable {editor : Editor} (reachable : editor.Reachable) :
    editor.pen.pending = none :=
  reachable.keep (P := fun e => e.pen.pending = none) (fun _ _ => rfl) (fun _ _ => rfl)
    (fun e words none => Pen.pending_follow none e.sizes words)

theorem taken_of_item? {editor : Editor} {words : List String} {command : Command} {item : Item}
    (read : Command.read words = .ok command) (has : command.item? = some item) {id : UInt64}
    (known : item.id? editor.pen.context.modes.hex = some id) :
    (Recorder.apply { editor with taken := [] } words).1.taken =
      ((editor.pen.announce command.variant).place editor.sizes id item).placed := by
  rw [Recorder.taken_apply, Pen.follow_of_item? read has known]

/-- Every word that an item gets, repeats apart, has the flags of the context, and its texture is
the one that the command asks for with what a stack size has above its low five bits. So it is that
texture whenever the stack sizes stay in their field. -/
theorem fields_of_drawn {editor : Editor} (reachable : editor.Reachable)
    (plain : editor.pen.context.modes.diy = false) {words : List String} {command : Command}
    {item : Item} (read : Command.read words = .ok command) (has : command.item? = some item)
    {id : UInt64} (known : item.id? editor.pen.context.modes.hex = some id)
    (ordinary : 1 ≤ id ∧ id ≤ 0xFFFF) :
    let base := id.toUInt16
    let taken := (Recorder.apply { editor with taken := [] } words).1.taken
    let texture := command.variant.texture.toUInt32
    let stacked := editor.pen.stacked editor.sizes base item.extra
    ∀ front p back, taken = front ++ p :: back → ¬ (editor.pen.past front).Repeats base →
      p.cell.flags = editor.pen.context.flags ∧
      p.cell.texture = texture ||| stacked >>> 5 ∧
      (stacked < 32 → p.cell.texture = texture) := by
  intro base taken texture stacked front p back split fresh
  have bits := Pen.pending_announce (pending_of_reachable reachable) command.variant
  have placed := (taken_of_item? read has known).symm.trans split
  obtain ⟨flags, upper⟩ := Pen.fields_of_place plain ordinary bits placed fresh
  have drawn : p.cell.texture = texture ||| stacked >>> 5 := by
    rw [Cell.texture_eq, upper, UInt32.shiftRight_or,
      Variant.shiftRight_upper_bits (Command.digits_of_read read)]
  refine ⟨flags, drawn, fun small => ?_⟩
  have below : stacked >>> 5 = 0 := by
    have places : (5 : UInt32).toNat % 32 = 5 := rfl
    have bound : stacked.toNat < 2 ^ 5 := UInt32.lt_iff_toNat_lt.mp small
    rw [← UInt32.toNat_inj, UInt32.toNat_shiftRight, places, Nat.shiftRight_eq_div_pow,
      Nat.div_eq_of_lt bound, UInt32.toNat_zero]
  rw [drawn, below, UInt32.or_zero]

/-- A stack and a default stack below 32, and flags that announce no variant. The second word is a
repeat of the first. -/
theorem fields_of_drawn_of_chairs :
    let editor := machine.acts [.apply ["@0,0,16,0,0,20,variants"]]
      { layer := Layer.empty, sizes := StackSizes.empty.insert 2000 30 }
    let item : Item := { token := "2000|5*2", digits := "2000", stack := 5, count := 2 }
    let first : Placement := ⟨0, 0, 0x7F002007D0⟩
    editor.Reachable ∧ editor.pen.context.modes.diy = false ∧
    Command.read ["2_3", "2000|5*2"] = .ok (.variantItem (.code 2 3) item) ∧
    item.id? editor.pen.context.modes.hex = some 2000 ∧
    (Recorder.apply { editor with taken := [] } ["2_3", "2000|5*2"]).1.taken =
      [] ++ first :: [⟨2, 0, 0x2007D0⟩] ∧
    ¬ (editor.pen.past []).Repeats 2000 ∧ editor.pen.stacked editor.sizes 2000 4 = 29 ∧
    first.cell.flags = 0x20 ∧ first.cell.texture = 3 := by
  intro editor item first
  have reachable : editor.Reachable := ⟨_, _, _, rfl⟩
  have plain : editor.pen.context.modes.diy = false := by decide +kernel
  have read : Command.read ["2_3", "2000|5*2"] = .ok (.variantItem (.code 2 3) item) := by decide
  have known : item.id? editor.pen.context.modes.hex = some 2000 := by decide +kernel
  have written : (Recorder.apply { editor with taken := [] } ["2_3", "2000|5*2"]).1.taken =
      [] ++ first :: [⟨2, 0, 0x2007D0⟩] := by decide +kernel
  have fresh : ¬ (editor.pen.past []).Repeats 2000 := by decide +kernel
  have stacked : editor.pen.stacked editor.sizes 2000 4 = 29 := by decide +kernel
  have small : editor.pen.stacked editor.sizes (2000 : UInt64).toUInt16 item.extra < 32 := by
    decide +kernel
  have flags : editor.pen.context.flags = 0x20 := by decide +kernel
  obtain ⟨kept, -, texture⟩ := fields_of_drawn reachable plain read rfl known (by decide)
    [] first [⟨2, 0, 0x2007D0⟩] written fresh
  exact ⟨reachable, plain, read, known, written, fresh, stacked, kept.trans flags, texture small⟩

/-- A stack of 34 has its one bit too many in the texture. -/
theorem not_texture_of_large_stack :
    let editor : Editor := { layer := Layer.empty, sizes := .empty }
    let item : Item := { token := "1|34", digits := "1", stack := 34 }
    let first : Placement := ⟨0, 0, 0x2100000001⟩
    editor.Reachable ∧ editor.pen.context.modes.diy = false ∧
    Command.read ["1|34"] = .ok (.item item) ∧
    item.id? editor.pen.context.modes.hex = some 1 ∧
    (Recorder.apply { editor with taken := [] } ["1|34"]).1.taken = [first] ∧
    ¬ (editor.pen.past []).Repeats 1 ∧
    (Command.item item).variant.texture = 0 ∧ first.cell.texture = 1 := by
  intro editor item first
  exact ⟨⟨_, _, [], rfl⟩, rfl, by decide, by decide, by decide +kernel, by decide +kernel, rfl,
    by decide⟩

/-- Without `diy` and `variants` mode, a command that asks for a variant and for no stack keeps the
variant in all its words exactly if it writes none, or the context has variant flags, or the default
stack size of the item adds nothing to the variant. -/
theorem keeps_variant_iff (editor : Editor) (plain : editor.pen.context.modes.diy = false)
    (single : editor.pen.context.modes.variants = false) {words : List String}
    {variant texture : UInt8} {item : Item}
    (read : Command.read words = .ok (.variantItem (.code variant texture) item))
    (unstacked : item.stack ≤ 1) {id : UInt64}
    (known : item.id? editor.pen.context.modes.hex = some id)
    (ordinary : 1 ≤ id ∧ id ≤ 0xFFFF) :
    let base := id.toUInt16
    let taken := (Recorder.apply { editor with taken := [] } words).1.taken
    let code := variant.toUInt32 ||| texture.toUInt32 <<< 5
    (∀ p ∈ taken, p.cell.upper = code ||| editor.pen.stacked editor.sizes base 0) ∧
    ((∀ p ∈ taken, p.cell.stackOrVariant = variant ∧ p.cell.texture = texture.toUInt32) ↔
      taken = [] ∨ editor.pen.context.flags &&& 0x1F ≠ 0 ∨
        ∀ extra, editor.sizes.defaultExtra? base = some extra → code ||| extra = code) := by
  intro base taken code
  have placed : taken = ((editor.pen.announce (.code variant texture)).place
      editor.sizes id item).placed := taken_of_item? read rfl known
  have written : ∀ p ∈ taken, p.cell.upper = code ||| editor.pen.stacked editor.sizes base 0 := by
    intro p mem
    obtain ⟨front, back, split⟩ := List.append_of_mem mem
    have fresh : ¬ (editor.pen.past front).Repeats base := by
      rintro ⟨on, -⟩
      exact absurd (single.symm.trans on) Bool.false_ne_true
    obtain ⟨-, upper⟩ := Pen.fields_of_place plain ordinary rfl (placed.symm.trans split) fresh
    rw [upper, Item.extra_of_unstacked unstacked, Variant.bits, Cell.upper_variantBits]
  have small : variant < 32 :=
    UInt8.lt_trans (Command.digits_of_read read).1 (by decide)
  have fields (cell : Cell) :
      cell.stackOrVariant = variant ∧ cell.texture = texture.toUInt32 ↔ cell.upper = code := by
    rw [Cell.fields_eq_iff small, Cell.upper_variantBits]
  refine ⟨written, ?_⟩
  simp only [fields, ← Pen.or_stacked_eq_iff]
  constructor
  · intro keep
    rcases List.eq_nil_or_concat taken with none | ⟨front, p, some⟩
    · exact Or.inl none
    · have mem : p ∈ taken := by simp [some]
      exact Or.inr ((written p mem).symm.trans (keep p mem))
  · rintro (none | kept) p mem
    · rw [none] at mem
      exact absurd mem List.not_mem_nil
    · exact (written p mem).trans kept

/-- A default stack of four has its two bits in the variant already, and the flags announce none. -/
theorem keeps_variant_of_covered :
    let editor := machine.acts [.apply ["@0,0,16,0,0,20"]]
      { layer := Layer.empty, sizes := StackSizes.empty.insert 2000 4 }
    let item : Item := { token := "2000*2", digits := "2000", count := 2 }
    let taken := (Recorder.apply { editor with taken := [] } ["7_5", "2000*2"]).1.taken
    editor.pen.context.modes.diy = false ∧ editor.pen.context.modes.variants = false ∧
    Command.read ["7_5", "2000*2"] = .ok (.variantItem (.code 7 5) item) ∧ item.stack ≤ 1 ∧
    item.id? editor.pen.context.modes.hex = some 2000 ∧
    editor.sizes.defaultExtra? 2000 = some 3 ∧ taken.length = 2 ∧
    ∀ p ∈ taken, p.cell.stackOrVariant = 7 ∧ p.cell.texture = 5 := by
  intro editor item taken
  have plain : editor.pen.context.modes.diy = false := by decide +kernel
  have single : editor.pen.context.modes.variants = false := by decide +kernel
  have read : Command.read ["7_5", "2000*2"] = .ok (.variantItem (.code 7 5) item) := by decide
  have unstacked : item.stack ≤ 1 := by decide
  have known : item.id? editor.pen.context.modes.hex = some 2000 := by decide +kernel
  have listed : editor.sizes.defaultExtra? 2000 = some 3 := by decide +kernel
  have covered : ∀ extra, editor.sizes.defaultExtra? 2000 = some extra →
      (7 : UInt8).toUInt32 ||| (5 : UInt8).toUInt32 <<< 5 ||| extra =
        (7 : UInt8).toUInt32 ||| (5 : UInt8).toUInt32 <<< 5 := by
    intro extra stacked
    rw [listed] at stacked
    cases stacked
    decide
  have kept := (keeps_variant_iff editor plain single read unstacked known (by decide)).2.mpr
    (Or.inr (Or.inr covered))
  exact ⟨plain, single, read, unstacked, known, listed, by decide +kernel, kept⟩

/-- A default stack of thirty turns variant 2 into 31. -/
theorem not_keeps_variant_of_stacked :
    let editor : Editor := { layer := Layer.empty, sizes := StackSizes.empty.insert 2000 30 }
    let item : Item := { token := "2000", digits := "2000" }
    editor.pen.context.modes.diy = false ∧ editor.pen.context.modes.variants = false ∧
    Command.read ["2_3", "2000"] = .ok (.variantItem (.code 2 3) item) ∧ item.stack ≤ 1 ∧
    item.id? editor.pen.context.modes.hex = some 2000 ∧
    (Recorder.apply { editor with taken := [] } ["2_3", "2000"]).1.taken =
      [⟨0, 0, 0x7F000007D0⟩] ∧
    Cell.stackOrVariant 0x7F000007D0 = 31 ∧ Cell.texture 0x7F000007D0 = 3 := by
  intro editor item
  exact ⟨rfl, rfl, by decide, by decide, by decide, by decide +kernel, by decide, by decide⟩

end Editor

end IslandLayer
