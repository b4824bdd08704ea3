import IslandLayer.Config.Literal

set_option autoImplicit false

namespace IslandLayer.Config

namespace Reader

/-- A step of a function on the text that remains. -/
def skipWith (skip : List Char → Option (List Char)) : Reader Unit := fun text =>
  (skip text).map ((), ·)

/-- The text after the opening parenthesis that comes next starts with a field name and a colon,
as opposed to a value. A name must not end the text. -/
def atFields : Reader Bool := do
  let text ← get
  expect "("
  blank
  let fields ← fun rest =>
    match identifier rest with
    | none => some (false, rest)
    | some (_, rest) => (do blank; guard (← peek).isSome; takes ":" : Reader Bool) rest
  set text
  return fields

end Reader

open Reader

/-- A key or a name, a colon, and its value. -/
def skipPair (key value : Reader Unit) : Reader Unit := do
  key
  blank
  expect ":"
  blank
  value

/-- Values between brackets of any kind, or fields between parentheses. -/
def skipBrackets (member : Reader Unit) : Reader Unit := do
  match ← peek with
  | some '(' =>
    if ← atFields then
      let _ ← enclosed '(' ')' (skipPair (discard identifier) member)
    else
      let _ ← enclosed '(' ')' member
  | some '[' => discard (enclosed '[' ']' member)
  | some '\x7b' => discard (enclosed '\x7b' '\x7d' (skipPair member member))
  | _ => failure

def valueWords : List String :=
  ["true", "false", "None", "inf", "+inf", "-inf", "NaN", "+NaN", "-NaN"]

/-- A value of any kind. What it says is of no use here, but it must be well formed, with `depth`
levels for what is nested in it. Brackets take a level and each member in them another one, and
`Some` takes one for its value. A name may stand before parentheses, or without any. -/
def skipValue (depth : Nat) : Reader Unit := do
  let inner : Reader Unit := match depth with
    | 0 => failure
    | depth + 1 => skipValue depth
  let brackets : Reader Unit := match depth with
    | 0 => failure
    | 1 => skipBrackets failure
    | depth + 2 => skipBrackets (skipValue depth)
  if ← valueWords.anyM takesWord then return
  if ← takesWord "Some" then
    blank
    if ← takes "(" then
      blank
      inner
      let _ ← comma
      expect ")"
    else inner
    return
  if ← takes "()" then return
  let text ← get
  if let some (_, rest) := identifier text then
    set rest
    blank
    if (← peek) = some '(' then brackets
    return
  match text with
  | [] => failure
  | c :: _ =>
    if c = '(' || c = '[' || c = '\x7b' then brackets
    else if c.isDigit || c == '+' || c == '-' || c == '.' then skipWith skipNumber
    else if c = '\'' then skipWith skipCharacter
    else discard string

end IslandLayer.Config
