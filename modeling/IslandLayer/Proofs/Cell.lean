import IslandLayer.Cell

set_option autoImplicit false

namespace IslandLayer.Cell

theorem itemId_extension {item : Cell} (dx dy : UInt8) (kept : item.itemId ≠ emptyId) :
    (item.extension dx dy).itemId = extensionId := by
  rw [extension, if_neg kept]
  apply UInt16.eq_of_toBitVec_eq
  ext i bound
  simp [itemId, extensionId]

/-- What stands beside an anchor never counts as placed, whatever the anchor holds. -/
@[simp] theorem not_isPlaced_extension (item : Cell) (dx dy : UInt8) :
    (item.extension dx dy).isPlaced = false := by
  by_cases free : item.itemId = emptyId
  · rw [extension_of_empty dx dy free, isPlaced, free]
    rfl
  · rw [isPlaced, itemId_extension dx dy free]
    rfl

@[simp] theorem itemId_or (cell bits : Cell) :
    (cell ||| bits).itemId = cell.itemId ||| bits.itemId :=
  UInt64.toUInt16_or cell bits

theorem itemId_or_ne_zero {cell : Cell} (named : cell.itemId ≠ 0) (bits : Cell) :
    (cell ||| bits).itemId ≠ 0 := by
  rw [itemId_or]
  exact fun none => named (UInt16.or_eq_zero_iff.mp none).1

theorem itemId_pack_ne_zero {id : UInt64} (named : id.toUInt16 ≠ 0) (flags : UInt16)
    (stack : UInt32) : (pack id flags stack).itemId ≠ 0 :=
  itemId_or_ne_zero (itemId_or_ne_zero named _) _

@[simp] theorem itemId_recipe (id : UInt16) : (recipe id).itemId = recipeId := by
  apply UInt16.eq_of_toBitVec_eq
  ext i bound
  simp [itemId, recipe, recipeId]

theorem itemId_repeated (base : UInt16) (last : Cell) : (repeated base last).itemId = base := by
  have kept : (last &&& repeatMask).itemId = 0 := by
    rw [itemId, UInt64.toUInt16_and, show UInt64.toUInt16 repeatMask = 0 from rfl,
      UInt16.and_zero]
  rw [repeated, itemId_or, kept, UInt16.or_zero, itemId, UInt16.toUInt16_toUInt64]

theorem itemId_eq_toUInt16 (cell : Cell) : cell.itemId = cell.toUInt32.toUInt16 := by
  apply UInt16.eq_of_toBitVec_eq
  ext i bound
  simp [itemId]

theorem and_toUInt64 (cell : Cell) (mask : UInt32) :
    cell &&& mask.toUInt64 = (cell.toUInt32 &&& mask).toUInt64 := by
  apply UInt64.toNat_inj.mp
  rw [UInt64.toNat_and, UInt32.toNat_toUInt64, UInt32.toNat_toUInt64, UInt32.toNat_and,
    UInt64.toNat_toUInt32]
  apply Nat.eq_of_testBit_eq
  intro i
  rw [Nat.testBit_and, Nat.testBit_and, Nat.testBit_mod_two_pow]
  by_cases lower : i < 32
  · simp [lower]
  · have above : mask.toNat.testBit i = false :=
      Nat.testBit_lt_two_pow (Nat.lt_of_lt_of_le mask.toNat_lt
        (Nat.pow_le_pow_right (by decide) (by omega)))
    simp [above]

/-- A stack size lies in the upper half. -/
theorem toUInt32_or_stackBits (cell : Cell) (extra : UInt32) :
    (cell ||| stackBits extra).toUInt32 = cell.toUInt32 := by
  apply UInt32.eq_of_toBitVec_eq
  ext i bound
  simp [stackBits]

@[simp] theorem hasVariant_recipe (id : UInt16) : (recipe id).hasVariant = false := by
  have lower : (recipe id).toUInt32 = recipeId.toUInt32 := by
    apply UInt32.eq_of_toBitVec_eq
    ext i bound
    simp [recipe]
  have masked : recipe id &&& variantMask = 0 := by
    have kept := and_toUInt64 (recipe id) 0x1F0000
    rwa [lower] at kept
  rw [hasVariant, masked]
  rfl

theorem toUInt32_shiftRight (upper : UInt32) (lower : UInt16) :
    ((upper.toUInt64 <<< 32 ||| lower.toUInt64) >>> 32).toUInt32 = upper := by
  apply UInt32.eq_of_toBitVec_eq
  ext i bound
  have above : lower.toBitVec.getLsbD (32 + i) = false := BitVec.getLsbD_of_ge _ _ (by omega)
  have inside : 32 + i < 64 := by omega
  simp [above, inside, bound, BitVec.getLsbD_eq_getElem]

/-- A recipe keeps its item where a stack size would stand, so the two run together. -/
theorem recipe_or_stackBits (id : UInt16) (extra : UInt32) :
    recipe id ||| stackBits extra =
      (id.toUInt32 ||| extra).toUInt64 <<< 32 ||| recipeId.toUInt64 := by
  rw [recipe, stackBits, UInt32.toUInt64_or, UInt16.toUInt64_toUInt32, UInt64.shiftLeft_or,
    UInt64.or_assoc, UInt64.or_comm recipeId.toUInt64, UInt64.or_assoc]

theorem toUInt16_shiftRight_recipe (id : UInt16) : (recipe id >>> 32).toUInt16 = id := by
  have upper := toUInt32_shiftRight id.toUInt32 recipeId
  rw [UInt16.toUInt64_toUInt32] at upper
  have word : (recipe id >>> 32).toUInt16 = (recipe id >>> 32).toUInt32.toUInt16 :=
    itemId_eq_toUInt16 _
  rw [word, recipe, upper, UInt16.toUInt16_toUInt32]

/-- A recipe survives a stack size only if that adds nothing to the id of its item. -/
theorem recipe_or_stackBits_eq_iff (id : UInt16) (extra : UInt32) :
    recipe id ||| stackBits extra = recipe id ↔ id.toUInt32 ||| extra = id.toUInt32 := by
  have plain : recipe id = id.toUInt32.toUInt64 <<< 32 ||| recipeId.toUInt64 := by
    rw [recipe, UInt16.toUInt64_toUInt32]
  rw [recipe_or_stackBits, plain]
  constructor
  · intro same
    have upper := congrArg (fun cell : Cell => (cell >>> 32).toUInt32) same
    simpa only [toUInt32_shiftRight] using upper
  · intro same
    rw [same]

section

variable {cell cell' : Cell} (same : cell.toUInt32 = cell'.toUInt32)

include same

theorem itemId_congr : cell.itemId = cell'.itemId := by
  rw [itemId_eq_toUInt16, itemId_eq_toUInt16, same]

theorem isPlaced_congr : cell.isPlaced = cell'.isPlaced := by
  rw [isPlaced, isPlaced, itemId_congr same]

/-- Of the word before it, a repeated item keeps a flag only. -/
theorem repeated_congr (base : UInt16) : repeated base cell = repeated base cell' := by
  have masked := and_toUInt64 cell 0x200000
  rw [same, ← and_toUInt64 cell'] at masked
  exact congrArg (base.toUInt64 ||| ·) masked

/-- Beside a free anchor stands its whole word, and beside any other only its id. -/
theorem toUInt32_extension_congr (dx dy : UInt8) :
    (cell.extension dx dy).toUInt32 = (cell'.extension dx dy).toUInt32 := by
  have ids := itemId_congr same
  by_cases free : cell.itemId = emptyId
  · rwa [extension_of_empty dx dy free, extension_of_empty dx dy (ids.symm.trans free)]
  · rw [extension, extension, ids]
    split
    · next free' => exact absurd (ids.trans free') free
    · rfl

end

end IslandLayer.Cell
