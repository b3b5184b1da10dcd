/-
  What can go wrong between a configuration file and a pool.

  Every error is a cause, and `ConfigError.message` is the one place that puts causes into words.  A
  document that is not TOML at all is only reported as such; a document whose values have the wrong
  shape is reported by the first mismatch (`ShapeError`), which names what was found and what was
  expected.
-/
import ConnPool.Text.Quoted

namespace ConnPool

/-- A setting that holds a duration. -/
inductive DurationField
  | networkTimeout
  | maxCheckoutTime
  | timeToWait
  | pingNotUsedFor
  | drainTimeout
deriving DecidableEq, Repr

/-- The section and the key of a setting. -/
def DurationField.path : DurationField → String
  | .networkTimeout => "source.network_timeout"
  | .maxCheckoutTime => "pool.max_checkout_time"
  | .timeToWait => "pool.time_to_wait"
  | .pingNotUsedFor => "pool.ping_connections_not_used_for"
  | .drainTimeout => "pool.drain_timeout"

/-- A mismatch between a document and the shape of a configuration. -/
inductive ShapeError
  /-- A table without a key that it must have. -/
  | missingField (name : String)
  /-- A name that is none of those allowed. -/
  | unknownVariant (name : String) (allowed : List String)
  /-- A value of another kind. -/
  | invalidType (found expected : String)
  /-- A value of the right kind, but out of bounds. -/
  | invalidValue (found expected : String)
  /-- An array that stands for a table and has too few elements. -/
  | invalidLength (length : Nat) (expected : String)
  /-- A value that cannot stand for a name at all. -/
  | notAName
deriving DecidableEq, Repr

/-- Names between backticks, with commas between them. -/
def listNames (names : List String) : String :=
  String.intercalate ", " (names.map fun n => "`" ++ n ++ "`")

/-- The mismatch in words; a value that cannot stand for a name has none. -/
def ShapeError.message? : ShapeError → Option String
  | .missingField name => some ("missing field `" ++ name ++ "`")
  | .unknownVariant name allowed =>
    some ("unknown variant `" ++ name ++ "`, expected one of " ++ listNames allowed)
  | .invalidType found expected => some ("invalid type: " ++ found ++ ", expected " ++ expected)
  | .invalidValue found expected => some ("invalid value: " ++ found ++ ", expected " ++ expected)
  | .invalidLength length expected =>
    some ("invalid length " ++ toString length ++ ", expected " ++ expected)
  | .notAName => none

/-- A rule that a configuration breaks although all its values can be read. -/
inductive RuleBroken
  | emptyUrl
  | noActiveConnections
  | missingPingQuery
deriving DecidableEq, Repr

def RuleBroken.message : RuleBroken → String
  | .emptyUrl => "source.url must not be empty"
  | .noActiveConnections => "pool.max_active must be at least 1"
  | .missingPingQuery => "pool.ping_query is required when pool.ping_enabled = true"

/-- Why a file could not be read or written. -/
inductive FileError
  | notFound
  | notADirectory
  | isADirectory
  | notText
  | nameTooLong
  | nulInPath
  /-- Whatever else the system says, with its number for it. -/
  | system (reason : String) (code : Nat)
deriving DecidableEq, Repr

def FileError.message : FileError → String
  | .notFound => "No such file or directory (os error 2)"
  | .notADirectory => "Not a directory (os error 20)"
  | .isADirectory => "Is a directory (os error 21)"
  | .notText => "stream did not contain valid UTF-8"
  | .nameTooLong => "File name too long (os error 36)"
  | .nulInPath => "file name contained an unexpected NUL byte"
  | .system reason code => reason ++ " (os error " ++ toString code ++ ")"

inductive ConfigError
  /-- The file could not be read. -/
  | unreadable (cause : FileError)
  /-- The text is not a TOML document. -/
  | malformed
  /-- The document has the wrong shape. -/
  | shape (cause : ShapeError)
  /-- The configuration has a number too large for a document. -/
  | unwritable
  /-- A text that stands for no duration. -/
  | invalidDuration (field value : String)
  | invalid (rule : RuleBroken)
deriving DecidableEq, Repr

/-- The error in words. -/
def ConfigError.message : ConfigError → String
  | .unreadable cause => "failed to read config: " ++ cause.message
  | .malformed => "failed to parse config: the text is not a TOML document"
  | .shape cause => "failed to parse config: " ++
    cause.message?.getD "a value cannot stand for a name"
  | .unwritable => "failed to render config"
  | .invalidDuration field value =>
    "invalid duration for `" ++ field ++ "`: " ++ Text.quoted value
  | .invalid rule => "invalid config: " ++ rule.message

/-- What succeeds has succeeded in each of its steps. -/
theorem Config.bind_ok {x : Except ε α} {f : α → Except ε β} {b : β} (h : (x >>= f) = .ok b) :
    ∃ a, x = .ok a ∧ f a = .ok b := by
  cases x with
  | error e => exact nomatch h
  | ok a => exact ⟨a, rfl, h⟩

end ConnPool
