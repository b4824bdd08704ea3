import IslandLayer.Layer.Basic

set_option autoImplicit false

namespace IslandLayer

/-- A byte string is a layer exactly when it has the right size. -/
inductive BinaryError where
  | size (actual : Nat)
  deriving Repr, DecidableEq

namespace Cell

/-- The bytes of a word, the low one first. -/
def toBytes (cell : Cell) : List UInt8 :=
  [cell.toUInt8, (cell >>> 8).toUInt8, (cell >>> 16).toUInt8, (cell >>> 24).toUInt8,
    (cell >>> 32).toUInt8, (cell >>> 40).toUInt8, (cell >>> 48).toUInt8, (cell >>> 56).toUInt8]

/-- The word of eight bytes, the low one first. -/
def ofBytes (b : Fin 8 → UInt8) : Cell :=
  (b 0).toUInt64 ||| (b 1).toUInt64 <<< 8 ||| (b 2).toUInt64 <<< 16 ||| (b 3).toUInt64 <<< 24 |||
    (b 4).toUInt64 <<< 32 ||| (b 5).toUInt64 <<< 40 ||| (b 6).toUInt64 <<< 48 |||
    (b 7).toUInt64 <<< 56

@[simp] theorem length_toBytes (cell : Cell) : cell.toBytes.length = 8 := rfl

end Cell

namespace Layer

def byteSize : Nat := 8 * total

/-- Eight bytes for each cell, and nothing else. -/
def encode (cells : List Cell) : ByteArray := ⟨(cells.flatMap Cell.toBytes).toArray⟩

def decode (bytes : ByteArray) : Except BinaryError (Vector Cell total) :=
  if h : bytes.size = byteSize then
    .ok (Vector.ofFn fun i => Cell.ofBytes fun k =>
      have inside : 8 * i.val + k.val < bytes.size := by simp only [h, byteSize]; omega
      bytes[8 * i.val + k.val])
  else .error (.size bytes.size)

def save (layer : Layer) : ByteArray := encode layer.cells.toList

def load (bytes : ByteArray) : Except BinaryError Layer := (decode bytes).map Layer.mk

@[simp] theorem size_encode (cells : List Cell) : (encode cells).size = 8 * cells.length := by
  simp only [encode, ByteArray.size, List.size_toArray]
  induction cells with
  | nil => rfl
  | cons cell rest ih => simp [ih]; omega

@[simp] theorem size_save (layer : Layer) : layer.save.size = byteSize := by
  simp [save, byteSize]

end Layer

namespace BinaryError

def message : BinaryError → String
  | size actual =>
    s!"incorrect layer file size: expected {Layer.byteSize} bytes, got {actual}"

end BinaryError

end IslandLayer
