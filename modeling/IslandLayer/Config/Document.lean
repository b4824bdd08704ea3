import IslandLayer.Settings
import IslandLayer.Config.Value

set_option autoImplicit false

namespace IslandLayer.Config

open Reader

inductive Field where
  | base
  | output
  | scripts
  | stackSizes
  | dropGroup
  | dropCommand
  deriving Repr, DecidableEq

namespace Field

def ofName? : String → Option Field
  | "base" => some base
  | "output" => some output
  | "scripts" => some scripts
  | "stack_sizes" => some stackSizes
  | "drop_group" => some dropGroup
  | "drop_command" => some dropCommand
  | _ => none

end Field

section

variable {α : Type}

/-- A value that may be missing. `Some` without parentheses after it says nothing, not even where
the value follows it without a space. -/
def readOption (value : Reader α) : Reader (Option α) := do
  if ← takes "None" then return none
  if ← takes "Some" then
    blank
    if ← takes "(" then
      blank
      let inner ← value
      let _ ← comma
      expect ")"
      return some inner
  return some (← value)

end

/-- The value of a field, as what it does to the configuration. -/
def readField : Field → Reader (Config → Config)
  | .base => do
    let path ← readOption string
    return fun config => { config with base := path }
  | .output => do
    let path ← readOption string
    return fun config => { config with output := path }
  | .scripts => do
    let paths ← enclosed '[' ']' string
    return fun config => { config with scripts := paths }
  | .stackSizes => do
    let path ← readOption string
    return fun config => { config with stackSizes := path }
  | .dropGroup => do
    let size ← readOption uint64
    return fun config => { config with dropGroup := size }
  | .dropCommand => do
    let marker ← readOption string
    return fun config => { config with dropCommand := marker }

/-- The levels for what is nested in the value of a field: 128 in all, of which the fields take
one and the value of a field another. -/
def nestingLimit : Nat := 126

/-- A field with its name; nothing for a name that is not one of a configuration. -/
def readEntry : Reader (Option (Field × (Config → Config))) := do
  let name ← identifier
  blank
  expect ":"
  blank
  match Field.ofName? name with
  | some field => return some (field, ← readField field)
  | none =>
    skipValue nestingLimit
    return none

/-- The configuration of a list of fields, if none is given twice. -/
def ofEntries? (entries : List (Field × (Config → Config))) : Option Config :=
  if (entries.map Prod.fst).Nodup then
    some (entries.foldl (fun config entry => entry.2 config) {})
  else none

/-- The extensions of the notation that a file can name. They change nothing here, where optional
values may be bare in any case. -/
def extensions : List String := ["unwrap_newtypes", "implicit_some", "unwrap_variant_newtypes"]

/-- Names of extensions with commas between them and perhaps after the last. The text bounds the
`steps`. -/
def skipExtensions : (steps : Nat) → Reader Unit
  | 0 => failure
  | steps + 1 => do
    let name ← identifier
    guard (extensions.contains name)
    let afterComma ← comma
    if (← peek).any isIdentifierRest then
      guard afterComma
      skipExtensions steps

/-- A line such as `#![enable(implicit_some)]`. -/
def skipAttribute : Reader Unit := do
  for part in ["#", "!", "[", "enable", "("] do
    expect part
    blank
  let text ← get
  skipExtensions text.length
  blank
  for part in [")", "]"] do
    expect part
    blank

def skipAttributes : (steps : Nat) → Reader Unit
  | 0 => failure
  | steps + 1 => do
    if (← peek) = some '#' then
      skipAttribute
      skipAttributes steps

/-- The name that may stand before the fields. -/
def skipName : Reader Unit := do
  if (← peek).any isIdentifierRest then
    let name ← identifier
    guard (name = "RunConfig")

/-- The fields of a configuration between parentheses, in any order. Those with other names are
skipped. -/
def document : Reader Config := do
  blank
  let text ← get
  skipAttributes (text.length + 1)
  skipName
  blank
  let entries ← enclosed '(' ')' readEntry
  blank
  ending
  let some config := ofEntries? (entries.filterMap id) | failure
  return config

def ofText? (text : String) : Option Config := (document text.toList).map Prod.fst

end IslandLayer.Config
