import IslandLayer.Script.Context
import IslandLayer.Text.Numeral

set_option autoImplicit false

namespace IslandLayer.Script

/-- An item to be placed. Its id stays in digits, since the context decides their base. -/
structure Item where
  /-- The whole word of the script, for diagnostics. -/
  token : String
  digits : String
  stack : UInt32 := 1
  count : UInt32 := 1
  deriving Repr, DecidableEq

namespace Item

/-- The id in the base of the context, if its digits belong to that base and it fits. -/
def id? (item : Item) (hex : Bool) : Option UInt64 :=
  let bound := UInt64.size
  let digits := item.digits.toList
  (if hex then Numeral.hex? bound digits else Numeral.decimal? bound digits).map UInt64.ofNat

end Item

/-- What stands before an item that has a variant. -/
inductive Variant where
  | code (variant texture : UInt8)
  /-- The word `NA`. -/
  | absent
  /-- A number in the place of a variant, which says nothing. -/
  | plain
  deriving Repr, DecidableEq

inductive Command where
  | empty
  | context (context : Context)
  | item (item : Item)
  | variantItem (variant : Variant) (item : Item)
  deriving Repr, DecidableEq

/-- Why a line is no command, with the word or words at fault. -/
inductive CommandError where
  | context (token : String)
  | item (token : String)
  | variantOrItem (variant item : String)
  | variant (token : String)
  deriving Repr, DecidableEq

namespace CommandError

def message : CommandError → String
  | context token => s!"invalid context command format: {token}"
  | item token => s!"invalid item command format: {token}"
  | variantOrItem first second => s!"invalid variant or item format: {first} {second}"
  | variant token => s!"invalid variant id format: {token}"

end CommandError

end IslandLayer.Script
