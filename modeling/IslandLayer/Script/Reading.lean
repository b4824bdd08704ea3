import IslandLayer.Script.Command
import IslandLayer.Script.Token

set_option autoImplicit false

/- The words of a line:

    context   @x,y[,width[,height[,offset]]][,flags][,settings]
    item      digits[|stack][*count]
    variant   d_d or NA

A word is read from its start, each part as long as it can be, and whatever follows the last part
is ignored. A number that does not fit its width spoils the whole word. -/
namespace IslandLayer.Script

/-- The characters of the settings of a context. -/
def isSetting (c : Char) : Bool := c.isLower || c == ','

namespace Context

/-- The fields after the anchor, in the order in which they are taken. -/
structure Fields where
  numbers : List (List Char)
  flags : Option (List Char)
  settings : Option (List Char)

/-- Takes up to three numbers, then flags, then settings; each only where it directly follows. -/
def takeFields (text : List Char) : Fields :=
  let (numbers, text) := fields 3 ',' Char.isDigit text
  let (flags, text) := optionalField ',' Char.isHexDigit text
  let (settings, _) := optionalField ',' isSetting text
  ⟨numbers, flags, settings⟩

/-- The modes named between the commas of the settings. -/
def readSettings (settings : List Char) : Modes :=
  Modes.ofNames ((settings.splitOn ',').map String.ofList)

def read? (token : String) : Option Context :=
  match token.toList with
  | '@' :: text => do
    let (xDigits, text) ← run? Char.isDigit text
    let x ← Numeral.uint32? xDigits
    let (yDigits, text) ← field? ',' Char.isDigit text
    let y ← Numeral.uint32? yDigits
    let taken := takeFields text
    let numbers ← taken.numbers.mapM Numeral.uint32?
    let flags ← Numeral.hex? UInt16.size (taken.flags.getD ['0'])
    let context : Context :=
      { x, y, height := numbers.getD 1 0, offset := numbers.getD 2 0, flags := UInt16.ofNat flags,
        modes := readSettings (taken.settings.getD []) }
    pure (context.withWidth (numbers.getD 0 16))
  | _ => none

end Context

namespace Item

def read? (token : String) : Option Item := do
  let (digits, text) ← run? Char.isHexDigit token.toList
  let (stack, text) := optionalField '|' Char.isDigit text
  let (count, _) := optionalField '*' Char.isDigit text
  let stack ← Numeral.uint32? (stack.getD ['1'])
  let count ← Numeral.uint32? (count.getD ['1'])
  pure { token, digits := String.ofList digits, stack, count }

end Item

namespace Variant

def digit (c : Char) : UInt8 := UInt8.ofNat (Numeral.digitValue c)

def read? (token : String) : Option Variant :=
  match token.toList with
  | 'N' :: 'A' :: _ => some absent
  | v :: '_' :: t :: _ => if v.isDigit && t.isDigit then some (code (digit v) (digit t)) else none
  | _ => none

/-- In a long line a number may stand in place of the variant. -/
def readLong? (token : String) : Option Variant :=
  (read? token).or (if Numeral.isDecimal token.toList then some plain else none)

end Variant

namespace Command

/-- One word is a context or an item, two are a variant and its item, and of more than two the
last but two is the variant and the last but one the item. -/
def read : List String → Except CommandError Command
  | [] => .ok .empty
  | [token] =>
    if token.toList.head? = some '@' then
      match Context.read? token with
      | some start => .ok (.context start)
      | none => .error (.context token)
    else
      match Item.read? token with
      | some found => .ok (.item found)
      | none => .error (.item token)
  | [first, second] =>
    match Variant.read? first, Item.read? second with
    | some variant, some found => .ok (.variantItem variant found)
    | _, _ => .error (.variantOrItem first second)
  | [first, second, _] =>
    match Variant.readLong? first, Item.read? second with
    | none, _ => .error (.variant first)
    | some _, none => .error (.item second)
    | some variant, some found => .ok (.variantItem variant found)
  | _ :: second :: third :: fourth :: rest => read (second :: third :: fourth :: rest)

end Command

end IslandLayer.Script
