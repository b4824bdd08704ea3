set_option autoImplicit false

namespace IslandLayer

/-- One square of a layer. An item word keeps its id in bits 0 to 15, the flags of its context in
bits 16 to 31, a stack size less one (or a variant) in bits 32 to 36 and a texture from bit 37 up. A
word that only continues a neighbour's footprint keeps that neighbour's id in bits 32 to 47 and the
distance back to it in the two bytes above. -/
abbrev Cell := UInt64

namespace Cell

/-- The id of a square with nothing on it. -/
def emptyId : UInt16 := 0xFFFE

/-- The id of a square covered by an item anchored elsewhere. -/
def extensionId : UInt16 := 0xFFFD

/-- The id of a recipe; the item it teaches stands in bits 32 to 47. -/
def recipeId : UInt16 := 0x16A1

def empty : Cell := emptyId.toUInt64

/-- The bits of the flags that say a variant is present. -/
def variantMask : Cell := 0x1F0000

/-- The one bit that a repeated item keeps of the word before it. -/
def repeatMask : Cell := 0x200000

def itemId (cell : Cell) : UInt16 := cell.toUInt16

def flags (cell : Cell) : UInt16 := (cell >>> 16).toUInt16

def stackOrVariant (cell : Cell) : UInt8 := ((cell >>> 32) &&& 0x1F).toUInt8

def texture (cell : Cell) : UInt32 := (cell >>> 37).toUInt32

def hasVariant (cell : Cell) : Bool := cell &&& variantMask != 0

/-- An item stands here: the square is neither free nor part of a neighbour. -/
def isPlaced (cell : Cell) : Bool := cell.itemId != emptyId && cell.itemId != extensionId

/-- The word of an item. Bits of `id` above the id field are kept, so a wide id can set flags. -/
def pack (id : UInt64) (flags : UInt16) (stack : UInt32) : Cell :=
  id ||| flags.toUInt64 <<< 16 ||| stack.toUInt64 <<< 32

def stackBits (extra : UInt32) : Cell := extra.toUInt64 <<< 32

def variantBits (variant texture : UInt8) : Cell :=
  variant.toUInt64 <<< 32 ||| texture.toUInt64 <<< 37

/-- The word `dx` columns and `dy` rows from an anchor holding `item`. An empty anchor covers
nothing, so its word is repeated as it is. -/
def extension (item : Cell) (dx dy : UInt8) : Cell :=
  if item.itemId = emptyId then item
  else dy.toUInt64 <<< 56 ||| dx.toUInt64 <<< 48 ||| item.itemId.toUInt64 <<< 32 |||
    extensionId.toUInt64

def recipe (id : UInt16) : Cell := id.toUInt64 <<< 32 ||| recipeId.toUInt64

/-- The word of an item placed right after `last`, which has the same id, in variants mode. -/
def repeated (base : UInt16) (last : Cell) : Cell := base.toUInt64 ||| (last &&& repeatMask)

theorem extension_of_empty {item : Cell} (dx dy : UInt8) (free : item.itemId = emptyId) :
    item.extension dx dy = item := if_pos free

theorem isPlaced_iff (cell : Cell) :
    cell.isPlaced = true ↔ cell.itemId ≠ emptyId ∧ cell.itemId ≠ extensionId := by
  simp [isPlaced]

@[simp] theorem not_isPlaced_empty : empty.isPlaced = false := by decide

end Cell

end IslandLayer
