import IslandLayer.Proofs.Editor.Fields
import IslandLayer.Proofs.Script.Phrase

set_option autoImplicit false

namespace IslandLayer

open Script

namespace Script

theorem Item.isHex_of_id? {item : Item} {hex : Bool} {id : UInt64}
    (known : item.id? hex = some id) : Numeral.isHex item.digits.toList := by
  obtain ⟨value, read, -⟩ := Option.map_eq_some_iff.mp known
  cases hex with
  | true => exact (Numeral.hex?_eq_some_iff.mp read).1
  | false =>
    obtain ⟨nonempty, digits⟩ := Numeral.isDecimal_iff.mp (Numeral.decimal?_eq_some_iff.mp read).1
    refine Numeral.isHex_iff.mpr ⟨nonempty, fun c mem => ?_⟩
    rw [Char.isHexDigit, digits c mem]
    rfl

namespace Command

/-- The words of a line for that many of the item, behind the word of a variant if there is one. -/
def spelled (lead : Option String) (item : Item) (count : UInt32) : List String :=
  lead.toList ++ [item.spelled count]

theorem read_spelled {item : Item} (hex : Numeral.isHex item.digits.toList) {lead : Option String}
    (announces : ∀ token ∈ lead, (Variant.read? token).isSome) :
    ∃ variant, ∀ count, ∃ command, Command.read (spelled lead item count) = .ok command ∧
      command.item? = some (item.recounted count) ∧ command.variant = variant := by
  cases lead with
  | none =>
    refine ⟨.absent, fun count => ⟨.item (item.recounted count), ?_, rfl, rfl⟩⟩
    change Command.read [item.spelled count] = _
    rw [Command.read, if_neg (Item.head?_spelled_ne hex count), Item.read?_spelled hex count]
  | some token =>
    obtain ⟨variant, read⟩ := Option.isSome_iff_exists.mp (announces token rfl)
    refine ⟨variant, fun count => ⟨.variantItem variant (item.recounted count), ?_, rfl, rfl⟩⟩
    change Command.read [token, item.spelled count] = _
    rw [Command.read, read, Item.read?_spelled hex count]

end Command

end Script

theorem Stroke.andThen_congr {first : Stroke} {next next' : Pen → Stroke}
    (same : next first.pen = next' first.pen) : first.andThen next = first.andThen next' := by
  rw [andThen, andThen, same]

namespace Pen

/-- The part of a count that is left over is drawn by a line of its own. -/
theorem drawItem_add {pen : Pen} (unannounced : pen.pending = none) {item : Item} {id : UInt64}
    (known : item.id? pen.context.modes.hex = some id) {a b : UInt32}
    (small : a.toNat + b.toNat < UInt32.size) (sizes : StackSizes) (variant : Variant) :
    pen.drawItem sizes variant (item.recounted (a + b)) =
      (pen.drawItem sizes variant (item.recounted a)).andThen fun middle =>
        middle.drawItem sizes variant (item.recounted b) := by
  have sum : (a + b).toNat = a.toNat + b.toNat := by
    rw [UInt32.toNat_add, Nat.mod_eq_of_lt small]
  rw [drawItem_recounted known, drawItem_recounted known, sum, placeFrom_add,
    forget_announce unannounced]
  apply Stroke.andThen_congr
  -- The pen between the two lines packs the same word as the one before them.
  have like := packsLike_placeFrom id.toUInt16 a.toNat
    ((pen.announce variant).pack sizes id item.extra) pen
  generalize (placeFrom id.toUInt16 a.toNat _ pen []).pen = middle at like ⊢
  have known' : item.id? middle.context.modes.hex = some id := by rwa [← like.modes]
  have unannounced' : middle.pending = none := like.pending.symm.trans unannounced
  rw [drawItem_recounted known', (like.announce variant).pack, forget_announce unannounced']

end Pen

namespace Editor

theorem applyAll_of_follow {editor : Editor} {first second whole : List String}
    (split : editor.pen.follow editor.sizes whole =
      (editor.pen.follow editor.sizes first).andThen (·.follow editor.sizes second)) :
    applyAll [first, second] editor = editor.apply whole := by
  have last (editor : Editor) (words : List String) :
      applyAll [words] editor = editor.apply words := by
    rcases applied : editor.apply words with ⟨after, result⟩
    rw [applyAll, applied]
    cases result with
    | ok => rfl
    | error cause => rfl
  rw [applyAll]
  cases done : (editor.pen.follow editor.sizes first).result with
  | ok =>
    rw [Stroke.andThen_of_ok done] at split
    simp only [apply, done, last, split, Layer.placeAll_append]
  | error cause =>
    rw [Stroke.andThen_of_error done] at split
    simp only [apply, done, split]

/-- A line for `a` items, and if it succeeds a line for `b` more of them, leave the same editor and
give the same result as one line for all, under whatever modes and with whatever variant. -/
theorem applyAll_counts {editor : Editor} (reachable : editor.Reachable) {item : Item} {id : UInt64}
    (known : item.id? editor.pen.context.modes.hex = some id) {lead : Option String}
    (announces : ∀ token ∈ lead, (Variant.read? token).isSome) {a b : UInt32}
    (small : a.toNat + b.toNat < UInt32.size) :
    applyAll [Command.spelled lead item a, Command.spelled lead item b] editor =
      editor.apply (Command.spelled lead item (a + b)) := by
  have unannounced := pending_of_reachable reachable
  obtain ⟨variant, reads⟩ := Command.read_spelled (Item.isHex_of_id? known) announces
  have drawn (pen : Pen) (count : UInt32) :
      pen.follow editor.sizes (Command.spelled lead item count) =
        pen.drawItem editor.sizes variant (item.recounted count) := by
    obtain ⟨command, read, has, same⟩ := reads count
    rw [Pen.follow_of_read pen _ read, Pen.draw_of_item? has, same]
  apply applyAll_of_follow
  simp only [drawn]
  exact Pen.drawItem_add unannounced known small editor.sizes variant

/-- Repeats that carry a flag over, with a variant and a default stack, up to the right edge: the
second line is cut short where the long one is. -/
theorem applyAll_counts_of_overrun :
    let editor := machine.acts [.apply ["@218,0,16,0,0,21,hex,variants"]]
      { layer := Layer.empty, sizes := StackSizes.empty.insert 10 7 }
    let item : Item := { token := "a", digits := "a", stack := 3 }
    editor.Reachable ∧ item.id? editor.pen.context.modes.hex = some 10 ∧
    (∀ token ∈ some "1_2", (Variant.read? token).isSome) ∧
    (2 : UInt32).toNat + (2 : UInt32).toNat < UInt32.size ∧
    applyAll [["1_2", "a|3*2"], ["1_2", "a|3*2"]] editor = editor.apply ["1_2", "a|3*4"] ∧
    (editor.apply ["1_2", "a|3*2"]).2 = .ok () ∧
    (editor.apply ["1_2", "a|3*4"]).2 = .error (.layer (.outOfBounds 224 1)) := by
  intro editor item
  have reachable : editor.Reachable := ⟨_, _, _, rfl⟩
  have known : item.id? editor.pen.context.modes.hex = some 10 := by decide +kernel
  have announces : ∀ token ∈ some "1_2", (Variant.read? token).isSome := by decide
  have small : (2 : UInt32).toNat + (2 : UInt32).toNat < UInt32.size := by decide
  have part : Command.spelled (some "1_2") item 2 = ["1_2", "a|3*2"] := by decide
  have whole : Command.spelled (some "1_2") item (2 + 2) = ["1_2", "a|3*4"] := by decide
  have split := applyAll_counts reachable known announces small
  rw [part, whole] at split
  exact ⟨reachable, known, announces, small, split, by decide +kernel, by decide +kernel⟩

end Editor

end IslandLayer
