import IslandLayer.Proofs.Layer.Binary
import Mathlib.Data.Nat.Digits.Defs

set_option autoImplicit false

namespace IslandLayer

namespace Cell

theorem toNat_ofBytes_eq_ofDigits (b : Fin 8 → UInt8) :
    (ofBytes b).toNat = Nat.ofDigits 256 ((List.ofFn b).map UInt8.toNat) := by
  rw [toNat_ofBytes]
  change _ = Nat.ofDigits 256 [(b 0).toNat, (b 1).toNat, (b 2).toNat, (b 3).toNat, (b 4).toNat,
    (b 5).toNat, (b 6).toNat, (b 7).toNat]
  simp only [Nat.ofDigits_cons, Nat.ofDigits_nil]
  omega

theorem toNat_eq_ofDigits (cell : Cell) :
    cell.toNat = Nat.ofDigits 256 (cell.toBytes.map UInt8.toNat) := by
  rw [← ofBytes_toBytes cell, toNat_ofBytes_eq_ofDigits, ofBytes_toBytes]
  rfl

theorem toBytes_ofBytes (b : Fin 8 → UInt8) : (ofBytes b).toBytes = List.ofFn b := by
  have small (k : Fin 8) := (b k).toNat_lt
  have s0 := small 0
  have s1 := small 1
  have s2 := small 2
  have s3 := small 3
  have s4 := small 4
  have s5 := small 5
  have s6 := small 6
  have s7 := small 7
  have value := toNat_ofBytes b
  generalize ofBytes b = cell at value ⊢
  change cell.toBytes = [b 0, b 1, b 2, b 3, b 4, b 5, b 6, b 7]
  simp only [toBytes, List.cons.injEq, ← UInt8.toNat_inj, and_true]
  rw [UInt64.toNat_toUInt8]
  simp (disch := decide) only [toNat_toUInt8_shiftRight]
  simp only [UInt64.reduceToNat]
  omega

theorem toBytes_injective : Function.Injective toBytes := by
  intro cell cell' same
  rw [← ofBytes_toBytes cell, ← ofBytes_toBytes cell']
  apply congrArg ofBytes
  funext k
  exact List.get_of_eq same k

end Cell

namespace Layer

theorem encode_injective : Function.Injective encode := by
  intro cells cells' same
  have bytes : cells.flatMap Cell.toBytes = cells'.flatMap Cell.toBytes := by
    have stored := congrArg (·.data.toList) same
    simpa [encode] using stored
  clear same
  induction cells generalizing cells' with
  | nil =>
    cases cells' with
    | nil => rfl
    | cons cell rest => cases bytes
  | cons cell rest ih =>
    cases cells' with
    | nil => cases bytes
    | cons cell' rest' =>
      rw [List.flatMap_cons, List.flatMap_cons] at bytes
      -- Both cells take eight bytes.
      obtain ⟨first, others⟩ := List.append_inj bytes rfl
      rw [Cell.toBytes_injective first, ih others]

/-- Byte strings of the right size, and no others, are decoded. -/
theorem size_of_decode {bytes : ByteArray} {cells : Vector Cell total}
    (decoded : decode bytes = .ok cells) : bytes.size = byteSize := by
  unfold decode at decoded
  split at decoded
  · assumption
  · cases decoded

theorem toBytes_of_decode {bytes : ByteArray} {cells : Vector Cell total}
    (decoded : decode bytes = .ok cells) {i : Nat} (inside : i < total) :
    cells[i].toBytes = (bytes.extract (8 * i) (8 * i + 8)).data.toList := by
  have size : bytes.size = byteSize := size_of_decode decoded
  rw [decode, dif_pos size, Except.ok.injEq] at decoded
  subst decoded
  have length : (bytes.extract (8 * i) (8 * i + 8)).size = 8 := by
    rw [ByteArray.size_extract, size, byteSize]
    omega
  rw [Vector.getElem_ofFn, Cell.toBytes_ofBytes]
  apply List.ext_getElem
  · rw [List.length_ofFn]
    exact length.symm
  · intro k _ listed
    rw [List.getElem_ofFn]
    exact (ByteArray.getElem_extract (h := listed)).symm

theorem encode_of_decode {bytes : ByteArray} {cells : Vector Cell total}
    (decoded : decode bytes = .ok cells) : encode cells.toList = bytes := by
  have size : bytes.size = 8 * total := size_of_decode decoded
  apply ByteArray.ext_getElem
  · rw [size_encode, Vector.length_toList, size]
  · intro n _ inside
    obtain ⟨i, k, byte, rfl⟩ : ∃ i k, k < 8 ∧ n = 8 * i + k :=
      ⟨n / 8, n % 8, Nat.mod_lt n (by decide), (Nat.div_add_mod n 8).symm⟩
    have cell : i < total := by omega
    have listed : i < cells.toList.length := by rwa [Vector.length_toList]
    have slice := List.get_of_eq (toBytes_of_decode decoded cell) ⟨k, byte⟩
    rw [getElem_encode cells.toList listed byte]
    exact slice.trans (ByteArray.getElem_extract _)

/-- Cells are read back from their bytes and bytes from the cells that they hold. Every byte string
of the size of a layer loads, the count of its cells included, every square shows the little-endian
value of its own eight bytes, and any other size is refused with that size. -/
theorem binary_form_exact :
    (∀ cells : Vector Cell 43008, decode (encode cells.toList) = .ok cells) ∧
    (∀ bytes : ByteArray, bytes.size = 344064 → ∃ layer : Layer,
      decode bytes = .ok layer.cells ∧ encode layer.cells.toList = bytes ∧
      ofCells layer.cells.toArray = .ok layer ∧ load bytes = .ok layer ∧ layer.save = bytes ∧
      ∀ x y : UInt32, x < 224 → y < 192 → ∃ cell, layer.get x y = .ok cell ∧
        let start := 8 * (192 * x.toNat + y.toNat)
        cell.toNat =
          Nat.ofDigits 256 ((bytes.extract start (start + 8)).data.toList.map UInt8.toNat)) ∧
    (∀ bytes : ByteArray, bytes.size ≠ 344064 →
      decode bytes = .error (.size bytes.size) ∧ load bytes = .error (.size bytes.size)) ∧
    (∀ cells : List Cell, (encode cells).size = 8 * cells.length) ∧
    Function.Injective encode := by
  refine ⟨decode_encode, ?_, ?_, size_encode, encode_injective⟩
  · intro bytes size
    obtain ⟨cells, decoded⟩ : ∃ cells, decode bytes = .ok cells := ⟨_, dif_pos size⟩
    have loaded : load bytes = .ok ⟨cells⟩ := by rw [load, decoded]; rfl
    have saved := encode_of_decode decoded
    refine ⟨⟨cells⟩, decoded, saved, dif_pos cells.size_toArray, loaded, saved, ?_⟩
    intro x y column row
    have onGrid : OnGrid x y := ⟨column, row⟩
    refine ⟨_, dif_pos onGrid, ?_⟩
    rw [Cell.toNat_eq_ofDigits, toBytes_of_decode decoded (index_lt onGrid), index,
      Nat.mul_comm x.toNat]
    rfl
  · intro bytes size
    have refused : decode bytes = .error (.size bytes.size) := dif_neg size
    exact ⟨refused, by rw [load, refused]; rfl⟩

theorem binary_form_exact_of_saved :
    let bytes := (empty.write ⟨2, 4, 0x100000123⟩).save
    let short : ByteArray := ⟨#[0x23, 1, 0, 0]⟩
    bytes.size = 344064 ∧
    (∃ layer, load bytes = .ok layer ∧ layer.save = bytes ∧ layer.get 2 4 = .ok 0x100000123 ∧
      Nat.ofDigits 256 ((bytes.extract 3104 3112).data.toList.map UInt8.toNat) = 0x100000123) ∧
    short.size ≠ 344064 ∧ load short = .error (.size 4) := by
  intro bytes short
  obtain ⟨-, whole, other, -⟩ := binary_form_exact
  have size : bytes.size = 344064 := size_save _
  obtain ⟨layer, -, -, -, loaded, saved, cells⟩ := whole bytes size
  have same : layer = empty.write ⟨2, 4, 0x100000123⟩ :=
    Except.ok.inj (loaded.symm.trans (load_save _))
  have found : layer.get 2 4 = .ok 0x100000123 := by
    rw [same]
    exact get_write_self empty (by decide)
  obtain ⟨cell, shown, value⟩ := cells 2 4 (by decide) (by decide)
  rw [found, Except.ok.injEq] at shown
  subst shown
  exact ⟨size, ⟨layer, loaded, saved, found, value.symm⟩, by decide, (other short (by decide)).2⟩

end Layer

end IslandLayer
