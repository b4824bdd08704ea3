import IslandLayer.Text.Layout
import IslandLayer.Text.Numeral
import IslandLayer.Text.Quoted
import Std.Data.ExtTreeMap

set_option autoImplicit false

namespace IslandLayer

structure StackSizes where
  sizes : Std.ExtTreeMap UInt16 UInt32

namespace StackSizes

def empty : StackSizes := ⟨∅⟩

/-- Records the stack size of an item in place of any earlier one. -/
def insert (table : StackSizes) (id : UInt16) (size : UInt32) : StackSizes :=
  ⟨table.sizes.insert id size⟩

def size? (table : StackSizes) (id : UInt16) : Option UInt32 := table.sizes[id]?

/-- The stack size less one, for an item that stacks by default. -/
def defaultExtra? (table : StackSizes) (id : UInt16) : Option UInt32 :=
  match table.size? id with
  | some size => if size > 1 then some (size - 1) else none
  | none => none

def count (table : StackSizes) : Nat := table.sizes.size

/-- The listed items by ascending id. -/
def toList (table : StackSizes) : List (UInt16 × UInt32) := table.sizes.toList

@[simp] theorem size?_empty (id : UInt16) : empty.size? id = none := by simp [empty, size?]

@[simp] theorem size?_insert (table : StackSizes) (id : UInt16) (size : UInt32) (other : UInt16) :
    (table.insert id size).size? other = if id = other then some size else table.size? other := by
  simp [insert, size?, Std.ExtTreeMap.getElem?_insert, Std.LawfulEqCmp.compare_eq_iff_eq]

theorem defaultExtra?_eq_some_iff (table : StackSizes) (id : UInt16) (extra : UInt32) :
    table.defaultExtra? id = some extra ↔
      ∃ size, table.size? id = some size ∧ 1 < size ∧ extra = size - 1 := by
  unfold defaultExtra?
  split
  · next size listed => simp [listed, eq_comm]
  · next unlisted => simp [unlisted]

end StackSizes

/-- The first line that is no entry, by its number from one and its trimmed text. -/
structure MalformedLine where
  line : Nat
  content : String
  deriving Repr, DecidableEq

namespace MalformedLine

def message (fault : MalformedLine) : String :=
  s!"malformed stack size entry on line {fault.line}: " ++
    String.ofList (Text.quote fault.content.toList)

end MalformedLine

namespace StackSizes

/-- The id and the stack size of an entry. Both may carry a plus sign. -/
def readEntry? (line : List Char) : Option (UInt16 × UInt32) :=
  match Text.words line with
  | [size, id] => do
    let size ← Numeral.signed? UInt32.size size
    let id ← Numeral.signed? UInt16.size id
    pure (UInt16.ofNat id, UInt32.ofNat size)
  | _ => none

/-- The trimmed line is empty or a comment. -/
def isSilent (line : List Char) : Bool := line.isEmpty || line.head? == some '#'

def addLine (table : StackSizes) (numbered : List Char × Nat) :
    Except MalformedLine StackSizes :=
  let line := Text.trim numbered.1
  if isSilent line then .ok table
  else match readEntry? line with
    | some (id, size) => .ok (table.insert id size)
    | none => .error ⟨numbered.2, String.ofList line⟩

def ofText (text : String) : Except MalformedLine StackSizes :=
  ((Text.lines text.toList).zipIdx 1).foldlM addLine empty

end StackSizes

end IslandLayer
