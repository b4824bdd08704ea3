import IslandLayer.Config.Reader
import IslandLayer.Text.Numeral

set_option autoImplicit false

namespace IslandLayer.Config

/-- The character that an escape stands for, given the text after the backslash, and how much of
that text the escape takes. -/
def readEscape? : List Char → Option (Char × Nat)
  | '\'' :: _ => some ('\'', 1)
  | '\"' :: _ => some ('\"', 1)
  | '\\' :: _ => some ('\\', 1)
  | 'n' :: _ => some ('\n', 1)
  | 'r' :: _ => some ('\r', 1)
  | 't' :: _ => some ('\t', 1)
  | '0' :: _ => some ('\x00', 1)
  | 'x' :: high :: low :: _ => do
    let code ← Numeral.hex? 256 [high, low]
    pure (Char.ofNat code, 3)
  | 'u' :: '\x7b' :: rest => do
    let digits := (rest.take 6).takeWhile (· ≠ '\x7d')
    let code ← Numeral.hex? 0x1000000 digits
    guard (code.isValidChar ∧ (rest.drop digits.length).head? = some '\x7d')
    pure (Char.ofNat code, digits.length + 3)
  | _ => none

/-- The content of a string up to its closing quote, and the text after the quote. `done` holds
the characters before, the latest first. -/
def readQuoted (done : List Char) : List Char → Option (List Char × List Char)
  | [] => none
  | '\"' :: rest => some (done.reverse, rest)
  | '\\' :: rest =>
    match readEscape? rest with
    | some (c, length) => readQuoted (c :: done) (rest.drop length)
    | none => none
  | c :: rest => readQuoted (c :: done) rest
  termination_by text => text.length

def readRaw (closing done : List Char) : List Char → Option (List Char × List Char)
  | [] => none
  | c :: rest =>
    match closing.isPrefixOf? (c :: rest) with
    | some after => some (done.reverse, after)
    | none => readRaw closing (c :: done) rest

/-- The value of digits, which underscores may separate, if it is below the bound. -/
def readDigits (base bound sum : Nat) : List Char → Option Nat
  | [] => some sum
  | c :: rest =>
    if c = '_' then readDigits base bound sum rest
    else do
      guard (Numeral.digitValue c < base)
      let sum := base * sum + Numeral.digitValue c
      guard (sum < bound)
      readDigits base bound sum rest

def isIntegerPart (c : Char) : Bool := c.isHexDigit || c == '_'

def isDecimalPart (c : Char) : Bool :=
  c.isDigit || c == 'e' || c == 'E' || c == '.' || c == '+' || c == '-' || c == '_'

/-- The base that the start of an integer names, and the text after its mark. -/
def splitBase : List Char → Nat × List Char
  | '0' :: 'x' :: rest => (16, rest)
  | '0' :: 'b' :: rest => (2, rest)
  | '0' :: 'o' :: rest => (8, rest)
  | text => (10, text)

/-- An unsigned integer below the bound, and the text after it. -/
def readInteger (bound : Nat) (text : List Char) : Option (Nat × List Char) := do
  let (base, text) := splitBase text
  let digits := text.takeWhile isIntegerPart
  guard (digits ≠ [] ∧ digits.head? ≠ some '_')
  let number ← readDigits base bound 0 digits
  return (number, text.dropWhile isIntegerPart)

def dropSign : List Char → List Char
  | '+' :: rest => rest
  | '-' :: rest => rest
  | text => text

/-- Perhaps a sign, then digits around at most one point with at least one digit among them, and
perhaps an exponent that may have a sign of its own and has at least one digit. -/
def isDecimalNumber (text : List Char) : Bool :=
  let whole := dropSign text
  let rest := whole.dropWhile Char.isDigit
  let (fraction, exponent) :=
    match rest with
    | '.' :: rest => (rest.takeWhile Char.isDigit, rest.dropWhile Char.isDigit)
    | _ => ([], rest)
  let digits := whole.takeWhile Char.isDigit ++ fraction
  !digits.isEmpty &&
    match exponent with
    | [] => true
    | e :: power => (e == 'e' || e == 'E') && Numeral.isDecimal (dropSign power)

/-- What comes after the sign runs on as a number with a fraction or an exponent for longer than
as an integer. -/
def looksDecimal (text : List Char) : Bool :=
  let rest := dropSign text
  (rest.takeWhile isIntegerPart).length < (rest.takeWhile isDecimalPart).length

def skipDecimal (text : List Char) : Option (List Char) :=
  if isDecimalNumber (text.takeWhile isDecimalPart) then some (text.dropWhile isDecimalPart)
  else none

/-- The text after an integer that fits a signed word if it has a sign, and else an unsigned one. -/
def skipInteger (text : List Char) : Option (List Char) :=
  let integer :=
    match text with
    | '+' :: rest => readInteger (UInt64.size / 2) rest
    | '-' :: rest => readInteger (UInt64.size / 2 + 1) rest
    | _ => readInteger UInt64.size text
  integer.map Prod.snd

/-- The text after a number of any kind. What is no integer, or one that fits no word, may still be
a number with an exponent or one of any size. -/
def skipNumber (text : List Char) : Option (List Char) :=
  if looksDecimal text then skipDecimal text else skipInteger text <|> skipDecimal text

def skipCharacter : List Char → Option (List Char)
  | '\'' :: '\'' :: _ => none
  | '\'' :: '\\' :: rest =>
    match readEscape? rest with
    | some (_, length) =>
      match rest.drop length with
      | '\'' :: rest => some rest
      | _ => none
    | none => none
  | '\'' :: _ :: '\'' :: rest => some rest
  | _ => none

namespace Reader

/-- A string with escapes, or a raw one between `r`, hashes and quotes. -/
def string : Reader String := fun text =>
  match text with
  | '\"' :: rest => (readQuoted [] rest).map fun (content, rest) => (String.ofList content, rest)
  | 'r' :: rest =>
    let hashes := rest.takeWhile (· == '#')
    match rest.dropWhile (· == '#') with
    | '\"' :: rest =>
      (readRaw ('\"' :: hashes) [] rest).map fun (content, rest) => (String.ofList content, rest)
    | _ => none
  | _ => none

def uint64 : Reader UInt64 := fun text =>
  (readInteger UInt64.size text).map fun (number, rest) => (UInt64.ofNat number, rest)

end Reader

end IslandLayer.Config
