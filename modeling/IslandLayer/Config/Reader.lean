set_option autoImplicit false

namespace IslandLayer.Config

/-- A reader takes what it reads off the front of the text, or fails. -/
abbrev Reader := StateT (List Char) Option

/-- Where white space is being skipped: in no comment, in one that ends with its line, or in one
between `/*` and `*/` with `depth` further ones around it. -/
inductive Blank where
  | plain
  | line
  | block (depth : Nat)

def isSpace (c : Char) : Bool := c == ' ' || c == '\t' || c == '\n' || c == '\r'

/-- The text after white space and comments. A comment between `/*` and `*/` must be closed, and
a slash must start a comment. -/
def skipBlank : Blank → List Char → Option (List Char)
  | .plain, '/' :: '/' :: rest => skipBlank .line rest
  | .plain, '/' :: '*' :: rest => skipBlank (.block 0) rest
  | .plain, '/' :: _ => none
  | .plain, c :: rest => if isSpace c then skipBlank .plain rest else some (c :: rest)
  | .plain, [] => some []
  | .line, '\n' :: rest => skipBlank .plain rest
  | .line, _ :: rest => skipBlank .line rest
  | .line, [] => some []
  | .block depth, '/' :: '*' :: rest => skipBlank (.block (depth + 1)) rest
  | .block 0, '*' :: '/' :: rest => skipBlank .plain rest
  | .block (depth + 1), '*' :: '/' :: rest => skipBlank (.block depth) rest
  | .block depth, _ :: rest => skipBlank (.block depth) rest
  | .block _, [] => none

namespace Reader

variable {α : Type}

def blank : Reader Unit := fun text => (skipBlank .plain text).map ((), ·)

def peek : Reader (Option Char) := fun text => some (text.head?, text)

/-- The longest run of `accepts`, which may be empty. -/
def takeRun (accepts : Char → Bool) : Reader (List Char) := fun text =>
  some (text.takeWhile accepts, text.dropWhile accepts)

/-- Takes exactly this text if it comes next, and says whether it did. -/
def takes (expected : String) : Reader Bool := fun text =>
  match expected.toList.isPrefixOf? text with
  | some rest => some (true, rest)
  | none => some (false, text)

def expect (expected : String) : Reader Unit := do guard (← takes expected)

def ending : Reader Unit := do guard (← get).isEmpty

/-- White space, and a comma in it if there is one. -/
def comma : Reader Bool := do
  blank
  if ← takes "," then
    blank
    return true
  return false

/-- Members up to a closing bracket, with commas between them and perhaps after the last. `done`
holds the members before, the latest first; `afterComma` is false where a comma has to come
before the next. The text bounds the `steps`, since every member takes some of it. -/
def membersFrom (closing : Char) (member : Reader α) :
    (steps : Nat) → (afterComma : Bool) → (done : List α) → Reader (List α)
  | 0, _, _ => failure
  | steps + 1, afterComma, done => do
    blank
    match ← peek with
    | none => failure
    | some c =>
      if c = closing then return done.reverse
      guard afterComma
      let next ← member
      let afterComma ← comma
      membersFrom closing member steps afterComma (next :: done)

def enclosed (opening closing : Char) (member : Reader α) : Reader (List α) := do
  expect opening.toString
  let text ← get
  let members ← membersFrom closing member (text.length + 1) true []
  expect closing.toString
  return members

end Reader

def isIdentifierStart (c : Char) : Bool := c.isAlpha || c == '_'

def isIdentifierRest (c : Char) : Bool := c.isAlphanum || c == '_'

/-- The characters of an identifier written after `r#`. -/
def isRawIdentifier (c : Char) : Bool := isIdentifierRest c || c == '.' || c == '+' || c == '-'

namespace Reader

/-- The word comes next and no longer word starts with it. -/
def atWord (word : String) : Reader Bool := fun text =>
  match word.toList.isPrefixOf? text with
  | some rest => some (!rest.head?.any isIdentifierRest, text)
  | none => some (false, text)

def takesWord (word : String) : Reader Bool := do
  if ← atWord word then takes word else return false

/-- An identifier, plain or after `r#`. A plain one must not run on into other characters of raw
identifiers, and the opening of a raw string is none. -/
def identifier : Reader String := do
  match ← get with
  | 'r' :: '\"' :: _ => failure
  | ['r'] => failure
  | 'r' :: '#' :: rest =>
    set rest
    let name ← takeRun isRawIdentifier
    guard (!name.isEmpty)
    return String.ofList name
  | c :: _ =>
    guard (isIdentifierStart c)
    let name ← takeRun isIdentifierRest
    let next ← peek
    guard (!next.any isRawIdentifier)
    return String.ofList name
  | [] => failure

end Reader

end IslandLayer.Config
