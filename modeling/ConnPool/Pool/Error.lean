/-
  Why a pool refuses.

  `PoolError.message` is the one place that puts the causes into words.
-/
import ConnPool.Driver.Basic

namespace ConnPool

inductive PoolError
  /-- A driver failed. -/
  | connection (cause : ConnectionError)
  /-- One acquisition met more bad connections than it puts up with. -/
  | exhausted (bad : Nat)
  /-- There is nothing to wait for. -/
  | internal (detail : String)
  /-- The pool was shut down while the acquisition waited. -/
  | cancelled
  /-- The pool is shut down. -/
  | closed
  /-- The handle has lost its connection. -/
  | invalidConnection (id : Nat)
deriving DecidableEq, Repr

def PoolError.message : PoolError → String
  | .connection cause => "connection error: " ++ cause.message
  | .exhausted bad =>
    "could not get a good connection to the database (" ++ toString bad ++ " bad connections)"
  | .internal detail => "unknown severe error condition: " ++ detail
  | .cancelled => "acquisition cancelled while waiting for a connection"
  | .closed => "connection pool is shut down"
  | .invalidConnection id => "connection " ++ toString id ++ " is invalid"

end ConnPool
