import IslandLayer.Session

set_option autoImplicit false

namespace IslandLayer

/-- The cause behind a failed access to a file. The system's error numbers come with either
sign. -/
def diskErrorOf : IO.Error → DiskError
  | .noFileOrDirectory .. => .notFound
  | .inappropriateType file code details =>
    if code = 20 ∨ code = -20 then .notDirectory
    else if code = 21 ∨ code = -21 then .isDirectory
    else .other (toString (IO.Error.inappropriateType file code details))
  | e => .other (toString e)

def systemDisk : Disk BaseIO where
  read path := return (← (IO.FS.readBinFile path).toBaseIO).mapError diskErrorOf
  write path bytes := return (← (IO.FS.writeBinFile path bytes).toBaseIO).mapError diskErrorOf

end IslandLayer

open IslandLayer in
def main (words : List String) : IO UInt32 := do
  let outcome ← (Session.main systemDisk words : BaseIO Outcome)
  (← IO.getStdout).putStr outcome.stdout
  (← IO.getStderr).putStr outcome.stderr
  return outcome.exit
