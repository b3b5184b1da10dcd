/-
  The three commands, on a file system.

  `check` reports the settings that a configuration file comes to, `init` writes a configuration to
  start from, and `simulate` rehearses the work of a configured pool.  A command gives what it prints,
  or the reason why it refuses; only `init` changes the files, and it never overwrites one.
-/
import ConnPool.Check
import ConnPool.Config.Render
import ConnPool.FileTree
import ConnPool.Simulation

namespace ConnPool

/-- Why a command refuses. -/
inductive CommandError
  /-- Something is wrong with the configuration. -/
  | config (e : ConfigError)
  /-- A rehearsal needs the driver in memory. -/
  | otherDriver (name : String)
  /-- There is something where the configuration would be written. -/
  | alreadyExists (path : String)
  /-- The configuration could not be written. -/
  | file (e : FileError)
deriving DecidableEq, Repr

namespace CommandError

def message : CommandError → String
  | .config e => e.message
  | .otherDriver name =>
    "simulate only supports the memory driver (config has driver = " ++ Text.quoted name ++ ")"
  | .alreadyExists path => path ++ " already exists"
  | .file e => e.message

/-- What lies behind an error, if it says more than the error itself. -/
def cause? : CommandError → Option String
  | .config (.unreadable e) => some e.message
  | _ => none

/-- The error as it is reported to the user of the command line. -/
def report (e : CommandError) : String :=
  "Error: " ++ e.message ++ "\n" ++
    match e.cause? with
    | none => ""
    | some cause => "\nCaused by:\n    " ++ cause ++ "\n"

end CommandError

/-- The configuration in a file, given what came of reading it. -/
def Config.ofFile (content : Except FileError String) : Except ConfigError Config :=
  match content with
  | .error e => .error (.unreadable e)
  | .ok text => Config.parse text

namespace Commands

/-- What a check of the file at `path` prints. -/
def check (content : Except FileError String) (path format : String) :
    Except CommandError String :=
  match Config.ofFile content >>= Resolved.ofConfig with
  | .error e => .error (.config e)
  | .ok r => .ok (r.output path format)

/-- What a rehearsal shows of the configuration in a file. -/
def simulate (content : Except FileError String) (load : Workload) :
    Except CommandError SimulationReport :=
  match Config.ofFile content with
  | .error e => .error (.config e)
  | .ok config =>
    if config.source.driver = "memory" then
      match load.simulate config with
      | .error e => .error (.config e)
      | .ok r => .ok r
    else .error (.otherDriver config.source.driver)

/-- What a rehearsal prints. -/
def simulationOutput (r : SimulationReport) (format : String) : String :=
  if format = "json" then r.toJson.pretty ++ "\n" else r.text

/-- The name of a configuration file. -/
def fileName : String := "reservoir.toml"

/-- The path of a file in a folder. -/
def join (folder name : String) : String :=
  if folder = "" ∨ folder.endsWith "/" then folder ++ name else folder ++ "/" ++ name

/-- The text of a configuration to start from; its numbers fit in a document. -/
def scaffoldText (url : String) : Except ConfigError String :=
  (Config.scaffold "memory" url).render

/-- What `init` prints. -/
def initOutput (folder : String) : String :=
  "✓ Generated " ++ join folder fileName ++ "\n"

/-- Writes a configuration to start from into a folder. -/
def init (s : FileSystem) (folder url : String) : Except CommandError FileSystem :=
  let path := join folder fileName
  if s.contains path then .error (.alreadyExists path)
  else
    match scaffoldText url with
    | .error e => .error (.config e)
    | .ok text =>
      match s.writeText path text with
      | .error e => .error (.file e)
      | .ok s => .ok s

end Commands

end ConnPool
