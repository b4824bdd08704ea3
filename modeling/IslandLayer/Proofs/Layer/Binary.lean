import IslandLayer.Layer.Binary
import Mathlib.Algebra.Group.Nat.Defs

set_option autoImplicit false

namespace IslandLayer

namespace Cell

/-- Bits above a number that ends below them add to it. -/
theorem or_shiftLeft {low shift : Nat} (below : low < 2 ^ shift) (high : Nat) :
    low ||| high <<< shift = low + 2 ^ shift * high := by
  rw [Nat.or_comm, Nat.shiftLeft_eq, Nat.mul_comm high, ← Nat.two_pow_add_eq_or_of_lt below,
    Nat.add_comm]

theorem toNat_shiftLeft (byte : UInt8) {shift : UInt64} (inside : shift.toNat ≤ 56) :
    (byte.toUInt64 <<< shift).toNat = byte.toNat <<< shift.toNat := by
  have small := byte.toNat_lt
  have power : 2 ^ shift.toNat ≤ 2 ^ 56 := Nat.pow_le_pow_right (by decide) inside
  have product : byte.toNat * 2 ^ shift.toNat ≤ 255 * 2 ^ 56 := Nat.mul_le_mul (by omega) power
  rw [UInt64.toNat_shiftLeft, UInt8.toNat_toUInt64, Nat.mod_eq_of_lt (by omega : shift.toNat < 64),
    Nat.shiftLeft_eq, Nat.mod_eq_of_lt (by omega)]

theorem toNat_ofBytes (b : Fin 8 → UInt8) :
    (ofBytes b).toNat = (b 0).toNat + 2 ^ 8 * (b 1).toNat + 2 ^ 16 * (b 2).toNat +
      2 ^ 24 * (b 3).toNat + 2 ^ 32 * (b 4).toNat + 2 ^ 40 * (b 5).toNat +
      2 ^ 48 * (b 6).toNat + 2 ^ 56 * (b 7).toNat := by
  have small (k : Fin 8) := (b k).toNat_lt
  have s0 := small 0
  have s1 := small 1
  have s2 := small 2
  have s3 := small 3
  have s4 := small 4
  have s5 := small 5
  have s6 := small 6
  have s7 := small 7
  simp only [ofBytes, UInt64.toNat_or, UInt8.toNat_toUInt64]
  simp (disch := decide) only [toNat_shiftLeft]
  change (b 0).toNat ||| (b 1).toNat <<< 8 ||| (b 2).toNat <<< 16 ||| (b 3).toNat <<< 24 |||
    (b 4).toNat <<< 32 ||| (b 5).toNat <<< 40 ||| (b 6).toNat <<< 48 ||| (b 7).toNat <<< 56 = _
  simp (disch := omega) only [or_shiftLeft]

theorem toNat_toUInt8_shiftRight (cell : Cell) {shift : UInt64} (inside : shift.toNat ≤ 56) :
    (cell >>> shift).toUInt8.toNat = cell.toNat / 2 ^ shift.toNat % 256 := by
  rw [UInt64.toNat_toUInt8, UInt64.toNat_shiftRight, Nat.mod_eq_of_lt (by omega : shift.toNat < 64),
    Nat.shiftRight_eq_div_pow]

@[simp] theorem ofBytes_toBytes (cell : Cell) : ofBytes (fun k => cell.toBytes.get k) = cell := by
  have small := cell.toNat_lt
  apply UInt64.toNat_inj.mp
  rw [toNat_ofBytes]
  change cell.toUInt8.toNat + 2 ^ 8 * (cell >>> 8).toUInt8.toNat +
    2 ^ 16 * (cell >>> 16).toUInt8.toNat + 2 ^ 24 * (cell >>> 24).toUInt8.toNat +
    2 ^ 32 * (cell >>> 32).toUInt8.toNat + 2 ^ 40 * (cell >>> 40).toUInt8.toNat +
    2 ^ 48 * (cell >>> 48).toUInt8.toNat + 2 ^ 56 * (cell >>> 56).toUInt8.toNat = cell.toNat
  rw [UInt64.toNat_toUInt8]
  simp (disch := decide) only [toNat_toUInt8_shiftRight]
  simp only [UInt64.reduceToNat]
  omega

end Cell

namespace Layer

theorem getElem?_flatMap_toBytes (cells : List Cell) (i : Nat) {k : Nat} (inside : k < 8) :
    (cells.flatMap Cell.toBytes)[8 * i + k]? = cells[i]?.bind fun cell => cell.toBytes[k]? := by
  induction cells generalizing i with
  | nil => rfl
  | cons cell rest ih =>
    rw [List.flatMap_cons]
    cases i with
    | zero =>
      rw [List.getElem?_append_left (by rw [Cell.length_toBytes]; omega)]
      simp
    | succ i =>
      rw [List.getElem?_append_right (by rw [Cell.length_toBytes]; omega), Cell.length_toBytes,
        show 8 * (i + 1) + k - 8 = 8 * i + k by omega, ih]
      rfl

/-- Byte `k` of cell `i` stands at `8 * i + k`. -/
theorem getElem_encode (cells : List Cell) {i k : Nat} (hi : i < cells.length) (hk : k < 8)
    (inside : 8 * i + k < (encode cells).size) :
    (encode cells)[8 * i + k] = cells[i].toBytes.get ⟨k, hk⟩ := by
  have bytes := getElem?_flatMap_toBytes cells i hk
  rw [List.getElem?_eq_getElem hi, Option.bind_some] at bytes
  have position : 8 * i + k < (cells.flatMap Cell.toBytes).length := by
    simpa [encode, ByteArray.size] using inside
  rw [List.getElem?_eq_getElem position, List.getElem?_eq_getElem (by exact hk)] at bytes
  exact Option.some.inj bytes

@[simp] theorem decode_encode (cells : Vector Cell total) :
    decode (encode cells.toList) = .ok cells := by
  have size : (encode cells.toList).size = byteSize := by
    rw [size_encode, Vector.length_toList, byteSize]
  rw [decode, dif_pos size]
  apply congrArg Except.ok
  apply Vector.ext
  intro i inside
  have listed : i < cells.toList.length := by rwa [Vector.length_toList]
  rw [Vector.getElem_ofFn]
  refine Eq.trans (congrArg Cell.ofBytes (funext fun k => ?_)) (Cell.ofBytes_toBytes cells[i])
  exact getElem_encode cells.toList listed k.isLt _

@[simp] theorem load_save (layer : Layer) : load layer.save = .ok layer := by
  simp [load, save, Except.map]

end Layer

end IslandLayer
