import IslandLayer.Text.Numeral

set_option autoImplicit false

namespace IslandLayer

/-- What one run is asked to do; what is left out comes from the configuration or a default. -/
structure Arguments where
  scripts : List String := []
  base : Option String := none
  output : Option String := none
  dropGroup : Option UInt64 := none
  dropCommand : Option String := none
  stackSizes : Option String := none
  config : Option String := none
  json : Bool := false
  help : Bool := false
  deriving Repr, DecidableEq

inductive ArgumentError where
  | unknown (argument : String)
  | missingValue (flag : String)
  | invalidValue (flag value : String)
  deriving Repr, DecidableEq

namespace ArgumentError

def message : ArgumentError → String
  | unknown argument => s!"unknown argument '{argument}'"
  | missingValue flag => s!"missing value for {flag}"
  | invalidValue flag value => s!"invalid value '{value}' for {flag}"

end ArgumentError

inductive ValueOption where
  | base
  | output
  | dropGroup
  | dropCommand
  | stackSizes
  | config
  deriving Repr, DecidableEq

namespace ValueOption

def ofFlag? : String → Option ValueOption
  | "-b" => some base
  | "--base" => some base
  | "-o" => some output
  | "--output" => some output
  | "--drop-group" => some dropGroup
  | "--drop-command" => some dropCommand
  | "--stack-sizes" => some stackSizes
  | "--config" => some config
  | _ => none

end ValueOption

inductive Switch where
  | json
  | help
  deriving Repr, DecidableEq

namespace Switch

def ofFlag? : String → Option Switch
  | "--json" => some json
  | "-h" => some help
  | "--help" => some help
  | _ => none

end Switch

namespace Arguments

/-- Neither empty nor a lone dash, and it starts with a dash. -/
def isFlag (argument : String) : Bool :=
  match argument.toList with
  | '-' :: _ :: _ => true
  | _ => false

/-- A group size is positive, since groups of none would never hold the items. -/
def groupSize? (value : String) : Option UInt64 :=
  match Numeral.signed? UInt64.size value.toList with
  | some size => if size = 0 then none else some (UInt64.ofNat size)
  | none => none

/-- Gives an option its value; `flag` is how the option was spelled. -/
def setValue (arguments : Arguments) (option : ValueOption) (flag value : String) :
    Except ArgumentError Arguments :=
  match option with
  | .base => .ok { arguments with base := some value }
  | .output => .ok { arguments with output := some value }
  | .dropCommand => .ok { arguments with dropCommand := some value }
  | .stackSizes => .ok { arguments with stackSizes := some value }
  | .config => .ok { arguments with config := some value }
  | .dropGroup =>
    match groupSize? value with
    | some size => .ok { arguments with dropGroup := some size }
    | none => .error (.invalidValue flag value)

def turnOn (arguments : Arguments) : Switch → Arguments
  | .json => { arguments with json := true }
  | .help => { arguments with help := true }

def addScript (arguments : Arguments) (path : String) : Arguments :=
  { arguments with scripts := arguments.scripts ++ [path] }

/-- Reads further arguments on top of those already read. An option takes the argument after it,
whatever that looks like. -/
def readFrom (arguments : Arguments) : List String → Except ArgumentError Arguments
  | [] => .ok arguments
  | argument :: rest =>
    match ValueOption.ofFlag? argument, rest with
    | some _, [] => .error (.missingValue argument)
    | some option, value :: rest =>
      match arguments.setValue option argument value with
      | .ok arguments => readFrom arguments rest
      | .error e => .error e
    | none, rest =>
      match Switch.ofFlag? argument with
      | some switch => readFrom (arguments.turnOn switch) rest
      | none =>
        if isFlag argument then .error (.unknown argument)
        else readFrom (arguments.addScript argument) rest
  termination_by structural arguments => arguments

def read (arguments : List String) : Except ArgumentError Arguments := readFrom {} arguments

/-- What the program prints when asked for help or given arguments it cannot read. -/
def usage : String :=
  "Usage: nhledit [FILES...] [OPTIONS]\n" ++
  "  FILES                      Item scripts, compiled in order\n" ++
  "  -b, --base <path>          Start from an existing layer file\n" ++
  "  -o, --output <path>        Write the compiled layer to <path>\n" ++
  "      --drop-group <n>       Items per printed drop command (default: 4)\n" ++
  "      --drop-command <pfx>   Prefix for printed drop commands (default: !)\n" ++
  "      --stack-sizes <path>   Stack size table (default: res/stacksize.txt)\n" ++
  "      --config <path>        Load a RON run configuration\n" ++
  "      --json                 Print the drop report as JSON\n" ++
  "  -h, --help                 Show this help"

end Arguments

end IslandLayer
