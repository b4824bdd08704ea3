import IslandLayer.Proofs.Cell

set_option autoImplicit false

namespace IslandLayer.Cell

/-- The upper half of a word: the stack size or the variant in the low five bits, and the texture
above. Nothing keeps a stack size inside its five bits. -/
def upper (cell : Cell) : UInt32 := (cell >>> 32).toUInt32

@[simp] theorem upper_or (cell bits : Cell) :
    (cell ||| bits).upper = cell.upper ||| bits.upper := by
  rw [upper, UInt64.shiftRight_or, UInt64.toUInt32_or]
  rfl

@[simp] theorem flags_or (cell bits : Cell) :
    (cell ||| bits).flags = cell.flags ||| bits.flags := by
  rw [flags, UInt64.shiftRight_or, UInt64.toUInt16_or]
  rfl

theorem texture_eq (cell : Cell) : cell.texture = cell.upper >>> 5 := by
  apply UInt32.eq_of_toBitVec_eq
  ext i bound
  have place : 32 + (5 + i) = 37 + i := by omega
  by_cases inside : 5 + i < 32
  · simp [texture, upper, place, inside]
  · have above : cell.toBitVec.getLsbD (37 + i) = false := BitVec.getLsbD_of_ge _ _ (by omega)
    simp [texture, upper, place, above]

theorem stackOrVariant_eq (cell : Cell) : cell.stackOrVariant = (cell.upper &&& 0x1F).toUInt8 := by
  apply UInt8.eq_of_toBitVec_eq
  ext i bound
  simp [stackOrVariant, upper]

/-- A variant is announced by the low five bits of the flags. -/
theorem hasVariant_eq (cell : Cell) : cell.hasVariant = (cell.flags &&& 0x1F != 0) := by
  have shifted : cell.flags &&& (0x1F : UInt16) = ((cell &&& variantMask) >>> 16).toUInt16 := by
    rw [UInt64.shiftRight_and, UInt64.toUInt16_and]
    rfl
  have bound : (cell &&& variantMask).toNat ≤ 0x1F0000 := by
    rw [UInt64.toNat_and]
    exact Nat.and_le_right
  have below : (cell &&& variantMask).toNat % 2 ^ 16 = 0 := by
    rw [UInt64.toNat_and, Nat.and_mod_two_pow]
    exact Nat.and_zero _
  have masked : (cell.flags &&& (0x1F : UInt16)).toNat = (cell &&& variantMask).toNat / 2 ^ 16 := by
    have places : (16 : UInt64).toNat % 64 = 16 := rfl
    rw [shifted, UInt64.toNat_toUInt16, UInt64.toNat_shiftRight, Nat.shiftRight_eq_div_pow, places]
    omega
  rw [hasVariant, Bool.eq_iff_iff, bne_iff_ne, bne_iff_ne, ne_eq, ne_eq, ← UInt64.toNat_inj,
    ← UInt16.toNat_inj, masked, UInt64.toNat_zero, UInt16.toNat_zero]
  omega

section

variable (base flags : UInt16) (stack : UInt32)

theorem upper_pack : (pack base.toUInt64 flags stack).upper = stack := by
  apply UInt32.eq_of_toBitVec_eq
  ext i bound
  have id : base.toBitVec.getLsbD (32 + i) = false := BitVec.getLsbD_of_ge _ _ (by omega)
  have flag : flags.toBitVec.getLsbD (32 + i - 16) = false := BitVec.getLsbD_of_ge _ _ (by omega)
  have inside : 32 + i < 64 ∧ i < 64 := by omega
  simp [upper, pack, id, flag, inside, bound, BitVec.getLsbD_eq_getElem]

theorem flags_pack : (pack base.toUInt64 flags stack).flags = flags := by
  apply UInt16.eq_of_toBitVec_eq
  ext i bound
  have inside : 16 + i < 32 ∧ 16 + i < 64 ∧ i < 64 := by omega
  simp [Cell.flags, pack, inside, bound, BitVec.getLsbD_eq_getElem]

end

@[simp] theorem upper_stackBits (extra : UInt32) : (stackBits extra).upper = extra := by
  have shifted := toUInt32_shiftRight extra 0
  have none : UInt16.toUInt64 0 = 0 := rfl
  rwa [none, UInt64.or_zero] at shifted

@[simp] theorem flags_stackBits (extra : UInt32) : (stackBits extra).flags = 0 := by
  apply UInt16.eq_of_toBitVec_eq
  ext i bound
  have below : ¬ 32 ≤ 16 + i := by omega
  simp [flags, stackBits, below]

section

variable (variant texture : UInt8)

@[simp] theorem flags_variantBits : (variantBits variant texture).flags = 0 := by
  apply UInt16.eq_of_toBitVec_eq
  ext i bound
  have below : ¬ 32 ≤ 16 + i ∧ ¬ 37 ≤ 16 + i := by omega
  simp [flags, variantBits, below]

@[simp] theorem toUInt32_variantBits : (variantBits variant texture).toUInt32 = 0 := by
  apply UInt32.eq_of_toBitVec_eq
  ext i bound
  simp [variantBits]

theorem upper_variantBits :
    (variantBits variant texture).upper = variant.toUInt32 ||| texture.toUInt32 <<< 5 := by
  apply UInt32.eq_of_toBitVec_eq
  ext i bound
  have inside : 32 + i < 64 ∧ i < 64 ∧ 32 + i - 37 < 64 ∧ ¬ 32 + i < 32 := by omega
  have place : 32 + i - 37 = i - 5 := by omega
  have low : 32 + i < 37 ↔ i < 5 := by omega
  simp [upper, variantBits, inside, place, low]

end

/-- A variant of no more than five bits ends below the texture. -/
theorem toNat_upper_variantBits {variant : UInt8} (small : variant < 32) (texture : UInt8) :
    (variantBits variant texture).upper.toNat = 32 * texture.toNat + variant.toNat := by
  have below : variant.toNat < 2 ^ 5 := UInt8.lt_iff_toNat_lt.mp small
  have bound := texture.toNat_lt
  have places : (5 : UInt32).toNat % 32 = 5 := rfl
  have inside : texture.toNat <<< 5 < 2 ^ 32 := by
    rw [Nat.shiftLeft_eq]
    omega
  have apart : 32 * texture.toNat + variant.toNat = 32 * texture.toNat ||| variant.toNat :=
    Nat.two_pow_add_eq_or_of_lt below _
  rw [upper_variantBits, UInt32.toNat_or, UInt32.toNat_shiftLeft, places, UInt8.toNat_toUInt32,
    UInt8.toNat_toUInt32, Nat.mod_eq_of_lt inside, Nat.shiftLeft_eq, Nat.mul_comm, Nat.or_comm,
    apart]

theorem fields_eq_iff {variant : UInt8} (small : variant < 32) (texture : UInt8) (cell : Cell) :
    cell.stackOrVariant = variant ∧ cell.texture = texture.toUInt32 ↔
      cell.upper = (variantBits variant texture).upper := by
  have below : variant.toNat < 2 ^ 5 := UInt8.lt_iff_toNat_lt.mp small
  have low : cell.stackOrVariant.toNat = cell.upper.toNat % 2 ^ 5 := by
    have mask : (0x1F : UInt32).toNat = 2 ^ 5 - 1 := rfl
    rw [stackOrVariant_eq, UInt32.toNat_toUInt8, UInt32.toNat_and, mask,
      Nat.and_two_pow_sub_one_eq_mod]
    omega
  have high : cell.texture.toNat = cell.upper.toNat / 2 ^ 5 := by
    have places : (5 : UInt32).toNat % 32 = 5 := rfl
    rw [texture_eq, UInt32.toNat_shiftRight, places, Nat.shiftRight_eq_div_pow]
  rw [← UInt8.toNat_inj, ← UInt32.toNat_inj, ← UInt32.toNat_inj, low, high,
    toNat_upper_variantBits small, UInt8.toNat_toUInt32]
  omega

end IslandLayer.Cell
