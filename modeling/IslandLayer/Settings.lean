import IslandLayer.Arguments

set_option autoImplicit false

namespace IslandLayer

/-- What a configuration file can give; each field is optional. -/
structure Config where
  base : Option String := none
  output : Option String := none
  scripts : List String := []
  stackSizes : Option String := none
  dropGroup : Option UInt64 := none
  dropCommand : Option String := none
  deriving Repr, DecidableEq

structure Settings where
  base : Option String
  output : Option String
  scripts : List String
  stackSizes : String
  dropGroup : UInt64
  dropCommand : String
  json : Bool
  deriving Repr, DecidableEq

namespace Settings

/-- The size of the groups of a report. A zero in the configuration is refused, but only where it
would be used; the command line never gives one. -/
def groupSize (config : Config) (arguments : Arguments) : Except ArgumentError UInt64 :=
  match arguments.dropGroup, config.dropGroup with
  | some size, _ => .ok size
  | none, some size =>
    if size = 0 then .error (.invalidValue "drop_group" "0") else .ok size
  | none, none => .ok 4

/-- The scripts of the configuration run before those of the command line. -/
def resolve (config : Config) (arguments : Arguments) : Except ArgumentError Settings :=
  match groupSize config arguments with
  | .error e => .error e
  | .ok dropGroup => .ok {
      base := arguments.base.or config.base
      output := arguments.output.or config.output
      scripts := config.scripts ++ arguments.scripts
      stackSizes := (arguments.stackSizes.or config.stackSizes).getD "res/stacksize.txt"
      dropGroup
      dropCommand := (arguments.dropCommand.or config.dropCommand).getD "!"
      json := arguments.json }

end Settings

end IslandLayer
