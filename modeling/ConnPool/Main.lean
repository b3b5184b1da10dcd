/-
  The program: reads the arguments, and does what they ask for with the files of the system.

  Everything is decided by `CommandLine` and `Commands`; here files are read and written, and texts
  printed.  A rehearsal runs on a clock of its own, so it takes no longer than its steps take.
-/
import ConnPool.CommandLine

namespace ConnPool

/-- The reason for which the system does not give access to a file. -/
def FileError.ofSystem : IO.Error → FileError
  | .noFileOrDirectory .. => .notFound
  | .inappropriateType _ 20 _ => .notADirectory
  | .inappropriateType _ 21 _ => .isADirectory
  | .permissionDenied _ code reason => .system reason code.toNat
  | .invalidArgument _ code reason => .system reason code.toNat
  | .resourceExhausted _ code reason => .system reason code.toNat
  | e => .system (toString e) 0

/-- The text of a file. -/
def readTextFile (path : String) : IO (Except FileError String) := do
  try
    return FileTree.decodeText (← IO.FS.readBinFile path)
  catch e => return .error (.ofSystem e)

/-- Writes a file that must not be there yet. -/
def writeNewFile (path text : String) : IO (Except CommandError Unit) := do
  try
    let file ← IO.FS.Handle.mk path .writeNew
    file.putStr text
    return .ok ()
  catch
    | .alreadyExists .. => return .error (.alreadyExists path)
    | e => return .error (.file (.ofSystem e))

/-- Writes a configuration to start from. -/
def initFolder (folder url : String) : IO (Except CommandError String) := do
  match Commands.scaffoldText url with
  | .error e => return .error (.config e)
  | .ok text =>
    return (← writeNewFile (Commands.join folder Commands.fileName) text).map fun () =>
      Commands.initOutput folder

/-- Does what the arguments ask for. -/
def perform (request : Request) : IO CommandLine.Result := do
  match request with
  | .misuse => return CommandLine.misused
  | .show text => return CommandLine.finish (.ok text)
  | .check config format =>
    return CommandLine.finish (Commands.check (← readTextFile config) config format)
  | .simulate config load format =>
    let report := Commands.simulate (← readTextFile config) load
    return CommandLine.finish (report.map (Commands.simulationOutput · format))
  | .init folder url => return CommandLine.finish (← initFolder folder url)

end ConnPool

def main (args : List String) : IO UInt32 := do
  let result ← ConnPool.perform (ConnPool.CommandLine.read args)
  IO.print result.stdout
  IO.eprint result.stderr
  return result.code.toUInt32
