import IslandLayer.Config.Document
import IslandLayer.Disk.Files
import IslandLayer.DropReport
import IslandLayer.Editor
import IslandLayer.Layer.Binary
import IslandLayer.Settings
import IslandLayer.StackSizes

set_option autoImplicit false

namespace IslandLayer

open Script

inductive SessionError where
  | argument (cause : ArgumentError)
  /-- The configuration at `path` is malformed. -/
  | config (path : String)
  | disk (path : String) (cause : DiskError)
  | layer (path : String) (cause : BinaryError)
  | stackSizes (cause : MalformedLine)
  | stackSizesDisk (cause : DiskError)
  | script (cause : RunError)
  deriving Repr, DecidableEq

namespace SessionError

def message : SessionError → String
  | argument cause => cause.message
  | config path => s!"failed to parse config {path}: malformed configuration"
  | disk path cause => s!"{path}: {cause.message}"
  | layer path cause => s!"{path}: {cause.message}"
  | stackSizes cause => s!"stack size table: {cause.message}"
  | stackSizesDisk cause => s!"stack size table: failed to read stack size table: {cause.message}"
  | script cause => cause.message

end SessionError

inductive Output where
  | text (text : String)
  | file (path : String) (bytes : ByteArray)

/-- How the program ends, and what it prints on both of its streams. -/
structure Outcome where
  exit : UInt32
  stdout : String := ""
  stderr : String := ""
  deriving Repr, DecidableEq

namespace Session

section

variable {m : Type → Type} [Monad m] (read : String → m (Except DiskError ByteArray))

def readText (path : String) : m (Except DiskError String) := do
  return (← read path).bind Disk.textOf

def loadConfig : Option String → ExceptT SessionError m Config
  | none => return {}
  | some path => do
    match ← (readText read path : m _) with
    | .error e => throw (.disk path e)
    | .ok text =>
      match Config.ofText? text with
      | some config => return config
      | none => throw (.config path)

/-- The layer to start from. A file that does not exist counts as an empty layer. -/
def loadBase : Option String → ExceptT SessionError m Layer
  | none => return Layer.empty
  | some path => do
    match ← (read path : m _) with
    | .error .notFound => return Layer.empty
    | .error e => throw (.disk path e)
    | .ok bytes =>
      match Layer.load bytes with
      | .ok layer => return layer
      | .error e => throw (.layer path e)

/-- The stack sizes. A file that does not exist counts as an empty table. -/
def loadStackSizes (path : String) : ExceptT SessionError m StackSizes := do
  match ← (readText read path : m _) with
  | .error .notFound => return StackSizes.empty
  | .error e => throw (.stackSizesDisk e)
  | .ok text =>
    match StackSizes.ofText text with
    | .ok sizes => return sizes
    | .error e => throw (.stackSizes e)

/-- A script, under the path as its name. -/
def loadSource (path : String) : ExceptT SessionError m Source := do
  match ← (readText read path : m _) with
  | .error e => throw (.disk path e)
  | .ok text => return ⟨path, text⟩

end

/-- The drop commands for the items on a layer, one to a line, or the report as JSON. -/
def reportText (settings : Settings) (layer : Layer) : String :=
  let report :=
    DropReport.ofItems (layer.items true) settings.dropGroup.toNat settings.dropCommand
  if settings.json then report.json ++ "\n"
  else String.join (report.lines.map (· ++ "\n"))

/-- Where the finished layer goes. -/
def outputOf (settings : Settings) (layer : Layer) : Output :=
  match settings.output with
  | some path => .file path layer.save
  | none => .text (reportText settings layer)

/-- Draws the scripts on the layer and says what to put out. -/
def compose (settings : Settings) (layer : Layer) (sizes : StackSizes) (sources : List Source) :
    Except SessionError Output :=
  match Editor.run sources { layer, sizes } with
  | (editor, .ok _) => .ok (outputOf settings editor.layer)
  | (_, .error e) => .error (.script e)

section

variable {m : Type → Type} [Monad m]

/-- Everything but the effect of a run: the configuration, the base layer, the stack sizes and all
scripts are read, in this order, before the first script is carried out. -/
def plan (read : String → m (Except DiskError ByteArray)) (arguments : Arguments) :
    ExceptT SessionError m Output := do
  let config ← loadConfig read arguments.config
  match Settings.resolve config arguments with
  | .error e => throw (.argument e)
  | .ok settings =>
    let layer ← loadBase read settings.base
    let sizes ← loadStackSizes read settings.stackSizes
    let sources ← settings.scripts.mapM (loadSource read)
    match compose settings layer sizes sources with
    | .ok output => return output
    | .error e => throw e

/-- Runs on a disk; the text to print is the result. -/
def run (disk : Disk m) (arguments : Arguments) : m (Except SessionError String) := do
  match ← (plan disk.read arguments).run with
  | .error e => return .error e
  | .ok (.text text) => return .ok text
  | .ok (.file path bytes) =>
    match ← disk.write path bytes with
    | .ok () => return .ok ""
    | .error e => return .error (.disk path e)

/-- The whole program, from the words of the command line. -/
def main (disk : Disk m) (words : List String) : m Outcome := do
  match Arguments.read words with
  | .error e => return { exit := 1, stderr := e.message ++ "\n" ++ Arguments.usage ++ "\n" }
  | .ok arguments =>
    if arguments.help then return { exit := 0, stderr := Arguments.usage ++ "\n" }
    match ← run disk arguments with
    | .ok text => return { exit := 0, stdout := text }
    | .error e => return { exit := 1, stderr := "ERROR: " ++ e.message ++ "\n" }

end

end Session

end IslandLayer
