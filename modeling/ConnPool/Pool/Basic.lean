/-
  The state of a pool.

  A pool keeps every open connection in one of two lists: `active`, the connections that are out,
  oldest checkout first, and `idle`, those that were returned and can be handed out again, oldest
  return first.  A connection in a list is wrapped: the wrapper has an identity of its own, which
  changes whenever the connection changes hands, and its stamps.  Whoever holds a connection has a
  handle with the identity of the wrapper, and may use it as long as that identity is `valid`.

  A wrapper also remembers for which identity of the target it was last handed out, the url with the
  credentials; only connections of the identity that the source has now are kept when they come back.
-/
import ConnPool.Pool.Config
import ConnPool.Pool.Error
import ConnPool.Source.Basic

namespace ConnPool

/-- For whom a connection was handed out: the target and the credentials. -/
structure Identity where
  url : String
  credentials : Credentials
deriving DecidableEq, Repr

/-- The pool's record of a connection between two changes of hands. -/
structure Wrapper where
  id : Nat
  /-- The number of the connection among those that the pool took in. -/
  rawId : Nat
  conn : Conn
  createdAt : Instant
  lastUsedAt : Instant
  checkoutAt : Instant
  identity : Identity
deriving DecidableEq, Repr

/-- What the holder of a connection has. -/
structure Handle where
  id : Nat
  rawId : Nat
  conn : Conn
  createdAt : Instant
  lastUsedAt : Instant
  checkoutAt : Instant
deriving DecidableEq, Repr

/-- The handle on a wrapped connection. -/
def Wrapper.handle (w : Wrapper) : Handle where
  id := w.id
  rawId := w.rawId
  conn := w.conn
  createdAt := w.createdAt
  lastUsedAt := w.lastUsedAt
  checkoutAt := w.checkoutAt

/-- What a pool has counted and measured since it was made. -/
structure Counters where
  /-- Connections handed out. -/
  requests : Nat := 0
  /-- From the start of an acquisition to its handle, over all handles. -/
  requestTime : Duration := .zero
  /-- How long connections were out, over those returned in good health or reclaimed. -/
  checkoutTime : Duration := .zero
  /-- Connections reclaimed. -/
  claimedOverdue : Nat := 0
  /-- How long connections were out, over those reclaimed. -/
  overdueCheckoutTime : Duration := .zero
  /-- How long acquisitions waited. -/
  waitTime : Duration := .zero
  /-- Acquisitions that had to wait. -/
  hadToWait : Nat := 0
  /-- Bad connections met on the way out or back, and returns of handles that had lost theirs. -/
  badConnections : Nat := 0
deriving DecidableEq, Repr

structure Pool where
  source : Source
  config : PoolConfig
  /-- The identity of the connections that are kept when they come back. -/
  expected : Identity
  idle : List Wrapper := []
  active : List Wrapper := []
  /-- The wrappers whose holders, or whose lists, may still use them. -/
  valid : List Nat := []
  counters : Counters := {}
  /-- Whether the pool is shut down. -/
  closed : Bool := false
  nextWrapper : Nat := 1
  nextRaw : Nat := 1
  nextTicket : Nat := 1
deriving DecidableEq, Repr

/-- The identity of the connections that a source opens when a caller brings no credentials. -/
def Source.identity (s : Source) : Identity :=
  ⟨s.config.url, s.config.credentials⟩

namespace Pool

/-- A pool without connections. -/
def new (source : Source) (config : PoolConfig) : Pool where
  source
  config
  expected := source.identity

/-- The pool that a configuration describes, with the driver at a place. -/
def ofConfig (config : Config) (driver : Nat) : Except ConfigError Pool := do
  let source ← SourceConfig.ofSettings config.source
  let pool ← PoolConfig.ofSettings? config.pool
  pure (new { config := source, driver } pool)

/-- Takes a wrapper's identity away from whoever has it. -/
def invalidate (p : Pool) (id : Nat) : Pool :=
  { p with valid := p.valid.filter (· ≠ id) }

/-- A wrapper that was just made; its identity has not been used before. -/
def enroll (p : Pool) (w : Wrapper) : Pool :=
  { p with valid := w.id :: p.valid, nextWrapper := p.nextWrapper + 1 }

/-- The same connection in new hands: a new identity, stamped with the time of the change. -/
def rewrapped (p : Pool) (w : Wrapper) (now : Instant) : Wrapper :=
  { w with id := p.nextWrapper, checkoutAt := now }

/-- A connection fresh from the driver. -/
def wrapped (p : Pool) (conn : Conn) (who : Credentials) (now : Instant) : Wrapper where
  id := p.nextWrapper
  rawId := p.nextRaw
  conn
  createdAt := now
  lastUsedAt := now
  checkoutAt := now
  identity := ⟨p.source.config.url, who⟩

/-- The pool with its counters changed. -/
def count (p : Pool) (change : Counters → Counters) : Pool :=
  { p with counters := change p.counters }

end Pool

/-- A pool with its drivers, at a point of the clock. -/
structure World (σ : Type) where
  now : Instant := .zero
  pool : Pool
  drivers : σ

namespace World

/-- The world with the pool changed. -/
def onPool (w : World σ) (change : Pool → Pool) : World σ :=
  { w with pool := change w.pool }

/-- The world with the drivers changed. -/
def onDrivers (w : World σ) (change : σ → σ) : World σ :=
  { w with drivers := change w.drivers }

/-- The result of something done with the drivers. -/
def run (w : World σ) (action : Calls σ α) : Except ConnectionError α × World σ :=
  ((action w.drivers).1, { w with drivers := (action w.drivers).2 })

/-- Throws a connection away: nobody may use it any more, and it is rolled back and closed as far as
the driver lets it. -/
def discard (D : Drivers σ) (w : World σ) (c : Wrapper) : World σ :=
  (w.onPool (·.invalidate c.id)).onDrivers (D.giveUp c.conn)

/-- Throws every connection away, those that are out first, and takes the identity that the source has
now for the expected one. -/
def invalidateAll (D : Drivers σ) (w : World σ) : World σ :=
  let all := w.pool.active ++ w.pool.idle
  let emptied := w.onPool fun p => { p with active := [], idle := [], expected := p.source.identity }
  all.foldl (discard D) emptied

/-! ## Laws -/

section Laws

variable (w : World σ)

@[simp] theorem onPool_now (f : Pool → Pool) : (w.onPool f).now = w.now := rfl
@[simp] theorem onPool_pool (f : Pool → Pool) : (w.onPool f).pool = f w.pool := rfl
@[simp] theorem onPool_drivers (f : Pool → Pool) : (w.onPool f).drivers = w.drivers := rfl
@[simp] theorem onDrivers_now (f : σ → σ) : (w.onDrivers f).now = w.now := rfl
@[simp] theorem onDrivers_pool (f : σ → σ) : (w.onDrivers f).pool = w.pool := rfl
@[simp] theorem onDrivers_drivers (f : σ → σ) : (w.onDrivers f).drivers = f w.drivers := rfl
@[simp] theorem run_now (action : Calls σ α) : (w.run action).2.now = w.now := rfl
@[simp] theorem run_pool (action : Calls σ α) : (w.run action).2.pool = w.pool := rfl
@[simp] theorem run_drivers (action : Calls σ α) :
    (w.run action).2.drivers = (action w.drivers).2 := rfl

variable (D : Drivers σ)

@[simp] theorem discard_pool (c : Wrapper) : (w.discard D c).pool = w.pool.invalidate c.id := rfl

/-- Throwing away a list of connections costs their wrappers their validity, and nothing else. -/
theorem foldl_discard_pool : ∀ (l : List Wrapper) (w : World σ),
    (l.foldl (discard D) w).pool =
      { w.pool with valid := w.pool.valid.filter fun id => id ∉ l.map (·.id) }
  | [], w => by
    have all : w.pool.valid.filter (fun id => id ∉ ([] : List Wrapper).map (·.id)) = w.pool.valid :=
      List.filter_eq_self.2 (by simp)
    rw [all, List.foldl_nil]
  | c :: l, w => by
    rw [List.foldl_cons, foldl_discard_pool l]
    simp only [discard_pool, Pool.invalidate, List.filter_filter]
    congr 1
    refine List.filter_congr fun id _ => ?_
    by_cases h : id = c.id <;> simp [h]

/-- The pool that is left when every connection is thrown away. -/
theorem invalidateAll_pool : (w.invalidateAll D).pool =
    { w.pool with
      active := []
      idle := []
      expected := w.pool.source.identity
      valid := w.pool.valid.filter fun id => id ∉ (w.pool.active ++ w.pool.idle).map (·.id) } :=
  foldl_discard_pool ..

end Laws

end World

end ConnPool
