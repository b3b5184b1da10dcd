/-
  Taking connections back, and changing the configuration.

  A handle that is returned while its wrapper is out gives the connection back.  A connection that is
  not fit is thrown away; a healthy one is rolled back and kept, under a new identity, if that
  succeeded, if there is room for it, and if it was handed out for the identity that the source has
  now; otherwise it is closed.  A handle that has lost its connection gives nothing back and is
  counted as bad.

  A change of the configuration and its consequence are one step: every connection, out or returned,
  is thrown away, so that none of the old configuration is ever handed out under the new one.  Only
  the tolerance for bad connections can be changed without that.
-/
import ConnPool.Pool.Health

namespace ConnPool

/-- A change of a pool's configuration that costs all its connections. -/
inductive Change
  /-- No change at all: the connections go all the same. -/
  | nothing
  | driver (place : Nat) (name : String)
  | url (url : String)
  | username (username : Option String)
  | password (password : Option String)
  | properties (properties : Properties)
  | autoCommit (mode : Option Bool)
  | isolation (level : Option Isolation)
  | networkTimeout (timeout : Option Duration)
  | maxActive (n : Nat)
  | maxIdle (n : Nat)
  | maxCheckoutTime (d : Duration)
  | timeToWait (d : Duration)
  | pingQuery (query : String)
  | pingEnabled (on : Bool)
  | pingNotUsedFor (d : Duration)
deriving Repr

namespace Source

/-- The source with its configuration changed. -/
def configured (s : Source) (change : SourceConfig → SourceConfig) : Source :=
  { s with config := change s.config }

end Source

namespace Pool

/-- The pool with the configuration of its source changed. -/
def onSource (p : Pool) (change : SourceConfig → SourceConfig) : Pool :=
  { p with source := p.source.configured change }

/-- The pool with its limits or its policy changed. -/
def onConfig (p : Pool) (change : PoolConfig → PoolConfig) : Pool :=
  { p with config := change p.config }

/-- The pool with its configuration changed, its connections untouched. -/
def apply (p : Pool) : Change → Pool
  | .nothing => p
  | .driver place name =>
    { p with source := { config := { p.source.config with driver := name }, driver := place } }
  | .url url => p.onSource ({ · with url })
  | .username username => p.onSource ({ · with username })
  | .password password => p.onSource ({ · with password })
  | .properties properties => p.onSource ({ · with properties })
  | .autoCommit mode => p.onSource ({ · with autoCommit := mode })
  | .isolation level => p.onSource ({ · with isolation := level })
  | .networkTimeout timeout => p.onSource ({ · with networkTimeout := timeout })
  | .maxActive n => p.onConfig ({ · with maxActive := n })
  | .maxIdle n => p.onConfig ({ · with maxIdle := n })
  | .maxCheckoutTime d => p.onConfig ({ · with maxCheckoutTime := d })
  | .timeToWait d => p.onConfig ({ · with timeToWait := d })
  | .pingQuery query => p.onConfig ({ · with pingQuery := query })
  | .pingEnabled on => p.onConfig ({ · with pingEnabled := on })
  | .pingNotUsedFor d => p.onConfig ({ · with pingNotUsedFor := d })

/-- Whether a connection that came back in good health is kept. -/
def keeps (p : Pool) (c : Wrapper) : Bool :=
  p.idle.length < p.config.maxIdle && c.identity = p.expected

end Pool

namespace World

variable {σ : Type} (D : Drivers σ)

/-- Puts a returned connection on the idle list, under a new identity. -/
def keep (w : World σ) (c : Wrapper) : World σ :=
  let fresh := w.pool.rewrapped c w.now
  let w := w.onPool fun p => (p.enroll fresh).invalidate c.id
  w.onPool fun p => { p with idle := p.idle ++ [fresh] }

/-- Closes a returned connection that is not kept. -/
def close (w : World σ) (c : Wrapper) : World σ :=
  (w.onDrivers (Drivers.quietly (D.call c.conn .close))).onPool (·.invalidate c.id)

/-- Takes back a connection that was out. -/
def takeBack (w : World σ) (c : Wrapper) : World σ :=
  match w.isFit D c with
  | (false, w) => w.reject D c
  | (true, w) =>
    let age := w.now - c.checkoutAt
    let w := w.onPool (·.count fun k => { k with checkoutTime := k.checkoutTime + age })
    match w.run (D.rollbackIfManual c.conn) with
    -- the rollback comes first, also for a connection that is not kept
    | (.ok (), w) => if w.pool.keeps c then w.keep c else w.close D c
    | (.error _, w) => w.close D c

/-- Takes back the handle with an identity. -/
def checkIn (w : World σ) (id : Nat) : World σ :=
  match w.pool.active.find? (fun c => c.id = id) with
  | none => w.onPool (·.count fun k => { k with badConnections := k.badConnections + 1 })
  | some c =>
    -- whatever becomes of it, it is out no more
    (w.onPool fun p => { p with active := p.active.eraseP fun c => c.id = id }).takeBack D c

/-- Changes the configuration and throws every connection away. -/
def reconfigure (w : World σ) (change : Change) : World σ :=
  (w.onPool (·.apply change)).invalidateAll D

end World

/-! ## Laws -/

/-- A change of the configuration changes the source or the limits, and nothing else of a pool. -/
theorem Pool.apply_eq (p : Pool) (change : Change) :
    p.apply change =
      { p with source := (p.apply change).source, config := (p.apply change).config } := by
  cases change <;> rfl

end ConnPool
