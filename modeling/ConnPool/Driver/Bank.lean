/-
  Several drivers side by side.

  A pool can be given another driver while it is in use, and connections of the old one may still be
  out.  So a pool works over a list of drivers, each in memory or scripted, and a connection's name
  says which of them opened it.
-/
import ConnPool.Driver.Memory
import ConnPool.Driver.Scripted

namespace ConnPool

/-- A driver of one of the two kinds. -/
inductive Driver
  | memory (m : Memory)
  | scripted (s : Scripted)
deriving Repr

namespace Driver

def connect (d : Driver) (ticket : Nat) (url : String) (properties : Properties) :
    Except ConnectionError Unit × Driver :=
  match d with
  | .memory m =>
    let (r, m) := m.connect ticket url properties
    (r, .memory m)
  | .scripted s =>
    let (r, s) := s.connect ticket url properties
    (r, .scripted s)

def call (d : Driver) (ticket : Nat) (call : RawCall) :
    Except ConnectionError call.Answer × Driver :=
  match d with
  | .memory m =>
    let (r, m) := m.call ticket call
    (r, .memory m)
  | .scripted s =>
    let (r, s) := s.call ticket call
    (r, .scripted s)

/-- The script's log, and the driver with an empty log. -/
def takeLog : Driver → List String × Driver
  | .memory m => ([], .memory m)
  | .scripted s => (s.log.toList, .scripted { s with log := #[] })

def isScripted : Driver → Bool
  | .memory _ => false
  | .scripted _ => true

end Driver

/-- Drivers side by side, by their places from zero. -/
abbrev Bank := List Driver

namespace Bank

/-- The failure of a call to a driver that is not there. -/
def noDriver : ConnectionError := ⟨.other, "unknown driver"⟩

/-- A pool's view of a bank. -/
def drivers : Drivers Bank where
  connect conn url properties := fun bank =>
    match bank[conn.driver]? with
    | none => (.error noDriver, bank)
    | some d =>
      let (r, d) := d.connect conn.ticket url properties
      (r, bank.set conn.driver d)
  call conn call := fun bank =>
    match bank[conn.driver]? with
    | none => (.error noDriver, bank)
    | some d =>
      let (r, d) := d.call conn.ticket call
      (r, bank.set conn.driver d)

/-- What all scripts noted, in the order of the drivers, and the bank with empty logs. -/
def takeLogs : Bank → List String × Bank
  | [] => ([], [])
  | d :: rest =>
    let (log, d) := d.takeLog
    let (logs, rest) := takeLogs rest
    (log ++ logs, d :: rest)

/-- The bank with the driver in memory at a place changed. -/
def onMemory (bank : Bank) (place : Nat) (change : Memory → Memory) : Bank :=
  match bank[place]? with
  | some (.memory m) => bank.set place (.memory (change m))
  | _ => bank

/-- The bank with the scripted driver at a place changed. -/
def onScripted (bank : Bank) (place : Nat) (change : Scripted → Scripted) : Bank :=
  match bank[place]? with
  | some (.scripted s) => bank.set place (.scripted (change s))
  | _ => bank

/-- A property of a connection of the driver in memory at a place. -/
def property (bank : Bank) (place number : Nat) (name : String) : Option String :=
  match bank[place]? with
  | some (.memory m) => m.property number name
  | _ => none

end Bank

/-- Something done to a driver from the side of its target. -/
inductive Tampering
  | rules (rules : List Rule)
  | switches (s : Memory.Switches)
  | kill (number : Nat)
deriving Repr

/-- The bank after its driver at a place was tampered with. -/
def Bank.tamper (bank : Bank) (place : Nat) : Tampering → Bank
  | .rules rules => bank.onScripted place ({ · with rules })
  | .switches s => bank.onMemory place (·.turn s)
  | .kill number => bank.onMemory place (·.kill number)

end ConnPool
