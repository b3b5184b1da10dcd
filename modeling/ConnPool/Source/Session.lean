/-
  A source used without a pool: connections are opened one by one and called directly.

  Attempts to open a connection are numbered from one, those that fail included, and a connection is
  named by the number of the attempt that opened it.  Nobody closes a connection but its user.
-/
import ConnPool.Driver.Bank
import ConnPool.Source.Basic

namespace ConnPool.Source

/-- A source with its drivers, and the attempts so far that have succeeded. -/
structure Session where
  source : Source
  bank : Bank
  attempts : Nat := 0
  opened : List Nat := []

namespace Session

/-- The connection of an attempt. -/
def conn (s : Session) (attempt : Nat) : Conn :=
  ⟨s.source.driver, attempt⟩

/-- Opens a connection on behalf of a caller; gives the number of the attempt. -/
def openFor (s : Session) (who : Credentials) : Except ConnectionError Nat × Session :=
  let attempt := s.attempts + 1
  let s := { s with attempts := attempt }
  match s.source.newConnection Bank.drivers who (s.conn attempt) s.bank with
  | (.ok (), bank) => (.ok attempt, { s with bank, opened := attempt :: s.opened })
  | (.error e, bank) => (.error e, { s with bank })

/-- Opens a connection with the configured credentials. -/
def openDefault (s : Session) : Except ConnectionError Nat × Session :=
  s.openFor s.source.config.credentials

/-- A call on the connection of an attempt, if that attempt has succeeded. -/
def call (s : Session) (attempt : Nat) (call : RawCall) :
    Option (Except ConnectionError (Option Bool)) × Session :=
  if s.opened.contains attempt then
    match Bank.drivers.call (s.conn attempt) call s.bank with
    | (.ok answer, bank) => (some (.ok (call.report answer)), { s with bank })
    | (.error e, bank) => (some (.error e), { s with bank })
  else (none, s)

/-- What the scripted drivers noted since this was last asked. -/
def takeLogs (s : Session) : List String × Session :=
  let (log, bank) := Bank.takeLogs s.bank
  (log, { s with bank })

end Session

end ConnPool.Source
