/-
  The arguments of the command line.

  The first argument names a command; options follow, each with a value, in any order and each at most
  once.  A value is attached (`--config=file`, `-cfile`, `-c=file`) or is the next argument, which may
  then not look like an option.  Arguments are read from the left; a question for help or for the
  version is answered when it is met, so a mistake before it counts and one behind it does not.
-/
import ConnPool.Commands

namespace ConnPool

/-- An option of a command. -/
structure CommandOption where
  short : Option Char := none
  long : String
  /-- What stands for the value in the help. -/
  valueName : String
  standard : String
  about : String := ""
  /-- Whether a value is acceptable. -/
  accepts : String → Bool := fun _ => true

/-- A command with its options. -/
structure CommandSpec where
  name : String
  about : String
  options : List CommandOption

/-- What the arguments ask for. -/
inductive Request
  | check (config format : String)
  | simulate (config : String) (load : Workload) (format : String)
  | init (folder url : String)
  | show (text : String)
  /-- The arguments make no sense. -/
  | misuse

namespace CommandLine

/-- The name of the program. -/
def program : String := "reservoir"

def version : String := "0.1.0"

/-- Whether a text is a number that fits in a word. -/
def isWord (s : String) : Bool :=
  (readWord s.toList).isSome

def configOption (about : String) : CommandOption :=
  { short := some 'c', long := "config", valueName := "CONFIG", standard := Commands.fileName,
    about }

def formatOption : CommandOption :=
  { short := some 'f', long := "format", valueName := "FORMAT", standard := "text",
    about := "Output format: text or json" }

def checkSpec : CommandSpec where
  name := "check"
  about := "Parse and validate a reservoir.toml, print the resolved settings"
  options := [configOption "Path to the config file", formatOption]

def simulateSpec : CommandSpec where
  name := "simulate"
  about := "Run a synthetic workload against an in-memory pool and print its statistics"
  options := [
    configOption "",
    { long := "tasks", valueName := "TASKS", standard := "8", about := "Concurrent tasks",
      accepts := isWord },
    { long := "iterations", valueName := "ITERATIONS", standard := "50",
      about := "Acquire/release cycles per task", accepts := isWord },
    { long := "hold-ms", valueName := "HOLD_MS", standard := "2",
      about := "How long each task holds a connection, in milliseconds", accepts := isWord },
    { long := "fail-every", valueName := "FAIL_EVERY", standard := "0",
      about := "Fail every Nth statement (0 disables)", accepts := isWord },
    formatOption]

def initSpec : CommandSpec where
  name := "init"
  about := "Write a scaffold reservoir.toml"
  options := [
    { short := some 'p', long := "path", valueName := "PATH", standard := ".",
      about := "Directory to write into" },
    { short := some 'u', long := "url", valueName := "URL", standard := "mem://reservoir",
      about := "Target URL for the scaffold" }]

def specs : List CommandSpec := [checkSpec, simulateSpec, initSpec]

/-! ## Help -/

/-- Lines of two columns. -/
def columns (rows : List (String × String)) : String :=
  let width := rows.foldl (fun w r => max w r.1.length) 0
  String.join (rows.map fun r =>
    "  " ++ r.1 ++ String.ofList (List.replicate (width - r.1.length) ' ') ++ "  " ++ r.2 ++ "\n")

def commonRows : List (String × String) :=
  [("-h, --help", "Print help"), ("-V, --version", "Print version")]

/-- An option in the help of its command. -/
def CommandOption.row (o : CommandOption) : String × String :=
  let mark := match o.short with
    | some c => "-" ++ c.toString ++ ", "
    | none => "    "
  (mark ++ "--" ++ o.long ++ " <" ++ o.valueName ++ ">",
    (if o.about = "" then "" else o.about ++ " ") ++ "[default: " ++ o.standard ++ "]")

def commandHelp (s : CommandSpec) : String :=
  s.about ++ "\n\nUsage: " ++ program ++ " " ++ s.name ++ " [OPTIONS]\n\nOptions:\n" ++
    columns (s.options.map CommandOption.row ++ commonRows)

def help : String :=
  "Reservoir: bounded database connection pooling\n\nUsage: " ++ program ++
    " <COMMAND>\n\nCommands:\n" ++
    columns (specs.map (fun s => (s.name, s.about)) ++
      [("help", "Print this message or the help of the given subcommand(s)")]) ++
    "\nOptions:\n" ++ columns commonRows

/-! ## Options -/

/-- The values given so far, under the long names of their options. -/
abbrev Values := List (String × String)

/-- What the arguments behind a command come to. -/
inductive Parsed
  | values (given : Values)
  | show (text : String)
  | misuse

/-- Whether an argument cannot be the value of the option before it. -/
def looksLikeOption : List Char → Bool
  | '-' :: _ :: _ => true
  | _ => false

/-- An argument as the beginning of an option. -/
inductive Shape
  /-- The end of all options. -/
  | stop
  /-- A long name, with its attached value. -/
  | long (name : String) (attached : Option String)
  /-- A short name, with all that is attached to it. -/
  | short (name : Char) (attached : Option String)
  /-- No option at all. -/
  | plain

def shapeOf (arg : String) : Shape :=
  match arg.toList with
  | ['-', '-'] => .stop
  | '-' :: '-' :: rest =>
    let name := String.ofList (rest.takeWhile (· ≠ '='))
    match rest.dropWhile (· ≠ '=') with
    | [] => .long name none
    | _ :: value => .long name (some (String.ofList value))
  | ['-', c] => .short c none
  | '-' :: c :: '=' :: value => .short c (some (String.ofList value))
  | '-' :: c :: value => .short c (some (String.ofList value))
  | _ => .plain

/-- Notes the value of an option, unless it has one already or does not accept it. -/
def give (o : CommandOption) (value : String) (given : Values) : Option Values :=
  if (given.lookup o.long).isSome || !o.accepts value then none
  else some (given ++ [(o.long, value)])

/-- The option that an argument begins, with its attached value. -/
def optionOf (s : CommandSpec) : Shape → Option (CommandOption × Option String)
  | .long name attached => (s.options.find? fun o => o.long = name).map fun o => (o, attached)
  | .short name attached => (s.options.find? fun o => o.short = some name).map fun o => (o, attached)
  | _ => none

/-- The answer to a question for help or for the version; a long name can have no value attached. -/
def question (helpText versionText : String) : Shape → Option String
  | .long "help" none => some helpText
  | .long "version" none => some versionText
  | .short 'h' _ => some helpText
  | .short 'V' _ => some versionText
  | _ => none

/-- Reads the arguments behind the name of a command. -/
def readOptions (s : CommandSpec) : List String → Values → Parsed
  | [], given => .values given
  | arg :: rest, given =>
    let shape := shapeOf arg
    match question (commandHelp s) (program ++ "-" ++ s.name ++ " " ++ version ++ "\n") shape with
    | some text => .show text
    | none =>
      match shape with
      | .stop => if rest.isEmpty then .values given else .misuse
      | shape =>
        match optionOf s shape, rest with
        | none, _ => .misuse
        | some (o, some value), rest =>
          match give o value given with
          | some given => readOptions s rest given
          | none => .misuse
        -- the value is missing
        | some (_, none), [] => .misuse
        | some (o, none), value :: rest =>
          -- a single dash is a value, but nothing longer that begins with one
          if looksLikeOption value.toList then .misuse
          else
            match give o value given with
            | some given => readOptions s rest given
            | none => .misuse

/-- The value of an option, or its standard value. -/
def valueOf (s : CommandSpec) (given : Values) (long : String) : String :=
  match given.lookup long with
  | some value => value
  | none => ((s.options.find? fun o => o.long = long).map (·.standard)).getD ""

/-- The number that is the value of an option. -/
def numberOf (s : CommandSpec) (given : Values) (long : String) : Nat :=
  (readWord (valueOf s given long).toList).getD 0

/-! ## Commands -/

/-- The request that a command with options makes. -/
def request (s : CommandSpec) (given : Values) : Request :=
  let value := valueOf s given
  let number := numberOf s given
  match s.name with
  | "check" => .check (value "config") (value "format")
  | "simulate" =>
    .simulate (value "config")
      { tasks := number "tasks", iterations := number "iterations",
        holdMillis := number "hold-ms", failEvery := number "fail-every" }
      (value "format")
  | _ => .init (value "path") (value "url")

/-- The help that is asked for by command. -/
def readHelp : List String → Request
  | [] => .show help
  | [name] =>
    if name = "help" then .show help
    else
      match specs.find? (fun s => s.name = name) with
      | some s => .show (commandHelp s)
      | none => .misuse
  | _ => .misuse

/-- What the arguments ask for. -/
def read : List String → Request
  | [] => .misuse
  | arg :: rest =>
    match question help (program ++ " " ++ version ++ "\n") (shapeOf arg) with
    | some text => .show text
    | none =>
      if arg = "help" then readHelp rest
      else
        match specs.find? (fun s => s.name = arg) with
        | none => .misuse
        | some s =>
          match readOptions s rest [] with
          | .values given => request s given
          | .show text => .show text
          | .misuse => .misuse

/-! ## Running -/

/-- What the program leaves behind besides files: its exit code, and what it printed. -/
structure Result where
  code : Nat
  stdout : String := ""
  stderr : String := ""
deriving DecidableEq, Repr

/-- The result of a command that printed something or refused. -/
def finish : Except CommandError String → Result
  | .ok text => { code := 0, stdout := text }
  | .error e => { code := 1, stderr := e.report }

/-- The result of arguments that make no sense. -/
def misused : Result :=
  { code := 2, stderr := "error: invalid usage\n\n" ++ help }

/-- Does what the arguments ask for, with the files of a system. -/
def run (files : FileSystem) (args : List String) : Result × FileSystem :=
  match read args with
  | .misuse => (misused, files)
  | .show text => (finish (.ok text), files)
  | .check config format => (finish (Commands.check (files.readText config) config format), files)
  | .simulate config load format =>
    (finish ((Commands.simulate (files.readText config) load).map
      (Commands.simulationOutput · format)), files)
  | .init folder url =>
    match Commands.init files folder url with
    | .ok files => (finish (.ok (Commands.initOutput folder)), files)
    | .error e => (finish (.error e), files)

end CommandLine

end ConnPool
