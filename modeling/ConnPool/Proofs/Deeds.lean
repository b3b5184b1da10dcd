/-
  What one event comes to.

  The lemmas of `Run` open up the single things that somebody does.  Here they are put together: one
  event of an observed machine leaves connections and handles alone, or it is a pass of an acquisition,
  a return, a use, a change of the configuration, or the end of a shutdown, and each of these acts on
  the machine in one way (`Deed`).  Afterwards the pool is closed in case nobody refers to it any more.

  Nothing else happens in an event (`observe_deed`), so what is said about events later on is a case
  analysis of its deed.  The last section collects what is already known after every run.
-/
import ConnPool.Proofs.Custody
import ConnPool.Proofs.Limits

namespace ConnPool

variable {σ τ : Type}

namespace Machine

/-- What is found under a key is there. -/
theorem mem_of_lookup {key : Key} {α : Type} {l : List (Key × α)} {a : α}
    (h : l.lookup key = some a) : (key, a) ∈ l := by
  obtain ⟨front, back, hl, -⟩ := List.lookup_eq_some_iff.1 h
  rw [hl]
  exact List.mem_append_right _ List.mem_cons_self

/-- The acquisition that an event goes on with, and the key that it goes by. -/
def serves? (m : Machine τ) : Event σ → Option (Key × Acquisition)
  | .acquire key who => some (key, {
      who := who.getD m.world.pool.source.config.credentials
      startedAt := m.world.now })
  | .resume key => (m.waiter? key).map fun p => (key, p.acquisition)
  | _ => none

/-- Two machines with the same connections, handles and configuration, to which the drivers have been
    asked the same.  What is counted may differ, and the time, and who waits, and whether the pool is
    shut down. -/
structure Alike (m m' : Machine (Observed σ)) : Prop where
  handles : m'.handles = m.handles
  active : m'.world.pool.active = m.world.pool.active
  idle : m'.world.pool.idle = m.world.pool.idle
  valid : m'.world.pool.valid = m.world.pool.valid
  source : m'.world.pool.source = m.world.pool.source
  expected : m'.world.pool.expected = m.world.pool.expected
  nextWrapper : m'.world.pool.nextWrapper = m.world.pool.nextWrapper
  nextTicket : m'.world.pool.nextTicket = m.world.pool.nextTicket
  log : m'.log = m.log

theorem Alike.refl (m : Machine (Observed σ)) : m.Alike m :=
  ⟨rfl, rfl, rfl, rfl, rfl, rfl, rfl, rfl, rfl⟩

/-- What an event comes to: the event, what its user sees, and the machine that it leaves. -/
inductive Deed (D : Drivers σ) (m : Machine (Observed σ)) :
    Event σ → Outcome → Machine (Observed σ) → Prop
  /-- Connections and handles are left alone. -/
  | aside {e o m'} (out : ∀ h, o ≠ .acquired h) (alike : m.Alike m') : Deed D m e o m'
  /-- A pass hands a connection out. -/
  | handsOut {e key a f budget h w} (waiters : List (Key × Waiter))
      (serves : m.serves? e = some (key, a))
      (pass : (m.world.onPool (·.count f)).tryOut (D.observed .pool) a.who a.startedAt budget
        a.rejected = (.handedOut h, w)) :
      Deed D m e (.acquired h) { m with world := w, waiters, handles := m.handles ++ [(key, h)] }
  /-- A pass hands nothing out. -/
  | fails {e o key a f g budget r w} (waiters : List (Key × Waiter))
      (serves : m.serves? e = some (key, a)) (out : ∀ h, o ≠ .acquired h)
      (pass : (m.world.onPool (·.count f)).tryOut (D.observed .pool) a.who a.startedAt budget
        a.rejected = (r, w))
      (nothing : ∀ h, r ≠ .handedOut h) :
      Deed D m e o { m with world := w.onPool (·.count g), waiters }
  | release {key h} (handle : m.handle? key = some h) :
      Deed D m (.release key) .nothing ({ m with
        handles := without key m.handles
        world := m.world.checkIn (D.observed .pool) h.id }).wakeAll
  | use {key call h o} (handle : m.handle? key = some h) (valid : h.id ∈ m.world.pool.valid)
      (out : ∀ h', o ≠ .acquired h') :
      Deed D m (.use key call) o
        { m with world := (m.world.run ((D.observed .holder).call h.conn call)).2 }
  | reconfigure (change : Change) :
      Deed D m (.reconfigure change) .nothing
        (m.onWorld (·.reconfigure (D.observed .pool) change)).wakeAll
  /-- A shutdown is over. -/
  | closesAll {e forceClosed m'} (alike : m.Alike m') :
      Deed D m e (.shutDown forceClosed) (m'.onWorld (·.invalidateAll (D.observed .pool)))

/-- The deed of a pass on a machine with other waiters, in which something was counted. -/
theorem pass_deed (D : Drivers σ) {m : Machine (Observed σ)} {e : Event σ} {key : Key}
    {a : Acquisition} (serves : m.serves? e = some (key, a)) (waiters : List (Key × Waiter))
    (f : Counters → Counters) :
    m.Deed D e
      (({ m with waiters, world := m.world.onPool (·.count f) }).pass (D.observed .pool) key a).1
      (({ m with waiters, world := m.world.onPool (·.count f) }).pass (D.observed .pool) key a).2 := by
  rcases pass_cases (D.observed .pool) { m with waiters, world := m.world.onPool (·.count f) } key a
    with ⟨-, e'⟩ | ⟨-, budget, ⟨h, w, ht, e'⟩ | ⟨err, w, ht, e'⟩ | ⟨r, w, g, ht, e'⟩ |
      ⟨w, ht, e'⟩⟩
  · rw [e']
    exact .aside nofun ⟨rfl, rfl, rfl, rfl, rfl, rfl, rfl, rfl, rfl⟩
  · rw [e']
    exact .handsOut waiters serves ht
  · rw [e']
    exact .fails (g := id) waiters serves nofun ht nofun
  · rw [e']
    exact .fails _ serves nofun ht nofun
  · rw [e']
    exact .fails (g := id) waiters serves nofun ht nofun

theorem lookAt_deed (D : Drivers σ) {m m₀ : Machine (Observed σ)} (e : Event σ) (key : Key)
    (deadline : Instant) (h : m.Alike m₀) :
    m.Deed D e (m₀.lookAt (D.observed .pool) key deadline).1
      (m₀.lookAt (D.observed .pool) key deadline).2 := by
  rcases m₀.lookAt_cases (D.observed .pool) key deadline with ⟨out, e'⟩ | ⟨drain, e'⟩
  · rw [e']
    exact .closesAll h
  · rw [e']
    exact .aside nofun ⟨h.handles, h.active, h.idle, h.valid, h.source, h.expected, h.nextWrapper,
      h.nextTicket, h.log⟩

/-- Every event is one deed. -/
theorem react_deed (D : Drivers σ) (m : Machine (Observed σ)) (e : Event σ) :
    m.Deed D e (m.react (e.observed.view (D.observed .pool) (D.observed .holder)) e.observed).1
      (m.react (e.observed.view (D.observed .pool) (D.observed .holder)) e.observed).2 := by
  cases e with
  | acquire key who => exact pass_deed D rfl m.waiters id
  | resume key =>
    show m.Deed D _ (m.resume (D.observed .pool) key).1 (m.resume (D.observed .pool) key).2
    rcases m.resume_cases (D.observed .pool) key with ⟨o, e', ho⟩ | ⟨p, f, hp, e'⟩
    · rw [e']
      exact .aside ho (Alike.refl m)
    · rw [e']
      exact pass_deed D (by rw [serves?, hp]; rfl) (without key m.waiters) f
  | abandon key => exact .aside nofun ⟨rfl, rfl, rfl, rfl, rfl, rfl, rfl, rfl, rfl⟩
  | release key =>
    show m.Deed D _ .nothing (m.release (D.observed .pool) key)
    rcases m.release_cases (D.observed .pool) key with ⟨-, e'⟩ | ⟨h, hk, e'⟩
    · rw [e']
      exact .aside nofun (Alike.refl m)
    · rw [e']
      exact .release hk
  | use key call =>
    show m.Deed D _ (m.use (D.observed .holder) key call).1 (m.use (D.observed .holder) key call).2
    rcases m.use_cases (D.observed .holder) key call with ⟨-, e'⟩ | ⟨h, -, -, e'⟩ |
      ⟨h, o, hk, hv, e', ho⟩
    · rw [e']
      exact .aside nofun (Alike.refl m)
    · rw [e']
      exact .aside nofun (Alike.refl m)
    · rw [e']
      exact .use hk hv ho
  | reconfigure change => exact .reconfigure change
  | setTolerance n => exact .aside nofun ⟨rfl, rfl, rfl, rfl, rfl, rfl, rfl, rfl, rfl⟩
  | shutDown key =>
    exact lookAt_deed D _ key _ ⟨rfl, rfl, rfl, rfl, rfl, rfl, rfl, rfl, rfl⟩
  | look key =>
    show m.Deed D _ (m.look (D.observed .pool) key).1 (m.look (D.observed .pool) key).2
    rcases m.look_cases (D.observed .pool) key with ⟨o, e', ho⟩ | ⟨d, -, e'⟩
    · rw [e']
      exact .aside ho (Alike.refl m)
    · rw [e']
      exact lookAt_deed D _ key _ ⟨rfl, rfl, rfl, rfl, rfl, rfl, rfl, rfl, rfl⟩
  | advance d => exact .aside nofun ⟨rfl, rfl, rfl, rfl, rfl, rfl, rfl, rfl, rfl⟩
  | disturb change => exact .aside nofun ⟨rfl, rfl, rfl, rfl, rfl, rfl, rfl, rfl, rfl⟩
  | letGo => exact .aside nofun ⟨rfl, rfl, rfl, rfl, rfl, rfl, rfl, rfl, rfl⟩

/-- Settling leaves a machine alone, or closes the pool of one that nobody refers to. -/
theorem settle_cases (P : Drivers σ) (m : Machine σ) :
    m.settle P = m ∨
      m.unused = true ∧ m.settle P = { m.onWorld (·.invalidateAll P) with gone := true } := by
  unfold settle
  split
  case isTrue h => exact Or.inr ⟨(Bool.and_eq_true_iff.1 h).1, rfl⟩
  case isFalse => exact Or.inl rfl

/-- **One event is one deed**, after which the pool is closed in case nobody refers to it any more. -/
theorem observe_deed (D : Drivers σ) (m : Machine (Observed σ)) (e : Event σ) :
    ∃ m', m.Deed D e (m.observe D e).1 m' ∧ ((m.observe D e).2 = m' ∨
      m'.unused = true ∧ (m.observe D e).2 =
        { m'.onWorld (·.invalidateAll (D.observed .pool)) with gone := true }) := by
  unfold observe stepAs
  split
  case isFalse => exact ⟨m, .aside nofun (Alike.refl m), Or.inl rfl⟩
  case isTrue =>
    exact ⟨_, react_deed D m e, settle_cases (D.observed .pool) _⟩

/-! ## After every run -/

section Runs

variable (D : Drivers σ) (source : Source) (config : PoolConfig) (s : σ)

theorem owned_reached (es : List (Event σ)) :
    Owned (observeAll D source config s es).1 (reached D source config s es) :=
  observeAll_rule D source config s es (J := Owned) (owned_start source config _)
    fun _ _ e _ h => stepAs_owned _ _ e.observed h

theorem fits_reached (es : List (Event σ)) : (reached D source config s es).world.pool.Fits :=
  observeAll_rule D source config s es (J := fun _ m => m.world.pool.Fits)
    (Pool.fits_new source config) fun _ m e _ h =>
      observe_kept (World.fits_kept _ _) (fun _ _ hw => hw) m e h

theorem accounts_reached (es : List (Event σ)) :
    (reached D source config s es).world.Accounts
      (reached D source config s es).world.pool.wrappers :=
  observeAll_rule D source config s es (J := fun _ m => m.world.Accounts m.world.pool.wrappers)
    (World.accounts_start source config s) fun _ m e _ h => observe_accounts D m e h

theorem settled_reached (es : List (Event σ)) : Settled (reached D source config s es) :=
  observeAll_rule D source config s es (J := fun _ m => Settled m) (settled_start _ _)
    fun _ _ e _ h => stepAs_settled _ _ e.observed h

end Runs

end Machine

end ConnPool
