/-
  Nobody shares a connection.

  A handle is valid as long as its wrapper is out, and at no other time; no two handles have the same
  identity, and no two wrappers are around the same connection.  So whoever holds a valid handle is
  alone with its connection, and one whose handle has lost its validity cannot reach the connection any
  more.

  The invariant is `Owned`.  Beside the roster of the pool it looks back at all handles that were ever
  handed out: each wrapper that is out is one of theirs, and none that is idle.  A step that hands
  nothing out only lets the pool age (`Ages`): nothing joins the active list, and what joins the idle
  list is new.  A hand-out adds one handle whose identity no handle had before.
-/
import ConnPool.Proofs.Observation
import ConnPool.Proofs.Roster
import Mathlib.Data.List.Nodup

namespace ConnPool

variable {σ : Type}

/-! ## Handles that were handed out -/

/-- The handle that somebody was given. -/
def Outcome.handle? : Outcome → Option Handle
  | .acquired h => some h
  | _ => none

/-- All handles that were handed out, in order. -/
def handedOut (os : List Outcome) : List Handle :=
  os.filterMap Outcome.handle?

theorem handle?_eq_none {o : Outcome} (h : ∀ h', o ≠ .acquired h') : o.handle? = none := by
  cases o with
  | acquired h' => exact absurd rfl (h h')
  | _ => rfl

theorem handedOut_append_none {os : List Outcome} {o : Outcome} (h : o.handle? = none) :
    handedOut (os ++ [o]) = handedOut os := by
  rw [handedOut, List.filterMap_append, List.filterMap_cons_none h, List.filterMap_nil,
    List.append_nil, handedOut]

theorem handedOut_append_acquired (os : List Outcome) (h : Handle) :
    handedOut (os ++ [.acquired h]) = handedOut os ++ [h] := by
  rw [handedOut, List.filterMap_append]
  rfl

/-! ## A pool that ages -/

/-- What becomes of a pool while nothing is handed out. -/
structure Pool.Ages (p p' : Pool) : Prop where
  active : ∀ c ∈ p'.active, c ∈ p.active
  idle : ∀ c ∈ p'.idle, c ∈ p.idle ∨ p.nextWrapper ≤ c.id
  nextWrapper : p.nextWrapper ≤ p'.nextWrapper

namespace Pool

/-- A pool whose lists are what they were has aged, whatever else has changed. -/
theorem ages_of_lists {p p' : Pool} (hactive : p'.active = p.active) (hidle : p'.idle = p.idle)
    (hnext : p.nextWrapper ≤ p'.nextWrapper) : p.Ages p' where
  active _ hc := hactive ▸ hc
  idle _ hc := Or.inl (hidle ▸ hc)
  nextWrapper := hnext

theorem Ages.trans {p p₁ p₂ : Pool} (h : p.Ages p₁) (h' : p₁.Ages p₂) : p.Ages p₂ where
  active c hc := h.active c (h'.active c hc)
  idle c hc := by
    rcases h'.idle c hc with hc | hc
    · exact h.idle c hc
    · exact Or.inr (Nat.le_trans h.nextWrapper hc)
  nextWrapper := Nat.le_trans h.nextWrapper h'.nextWrapper

theorem Pruned.ages {p p' : Pool} (h : p.Pruned p') : p.Ages p' :=
  ⟨fun _ hc => h.active.subset hc, fun _ hc => Or.inl (h.idle.subset hc), h.nextWrapper⟩

end Pool

namespace World

variable (D : Drivers σ)

/-- What comes back is idle under a new identity, if at all. -/
theorem checkIn_ages (w : World σ) (id : Nat) : w.pool.Ages (w.checkIn D id).pool := by
  have hback := w.checkIn_takesBack D id
  refine ⟨fun c hc => hback.active.subset hc, fun c hc => ?_, hback.nextWrapper⟩
  rcases hback.idle with hidle | ⟨c', hidle, hnew, -⟩
  · exact Or.inl (hidle ▸ hc)
  · rw [hidle] at hc
    rcases List.mem_append.1 hc with hc | hc
    · exact Or.inl hc
    · rw [List.mem_singleton.1 hc]
      exact Or.inr hnew

theorem invalidateAll_ages (w : World σ) : w.pool.Ages (w.invalidateAll D).pool := by
  rw [invalidateAll_pool]
  exact ⟨nofun, nofun, Nat.le_refl _⟩

end World

/-! ## What an event does to the handles -/

namespace Machine

/-- What an outcome and a machine have to do with the machine before: nothing was handed out, and the
    pool aged, or one handle was. -/
def Hands (m : Machine σ) (o : Outcome) (m' : Machine σ) : Prop :=
  (o.handle? = none ∧ m.world.pool.Ages m'.world.pool ∧ m'.handles.Sublist m.handles) ∨
  (∃ key h, o = .acquired h ∧ m.world.pool.HandsOut m'.world.pool h ∧
    m'.handles = m.handles ++ [(key, h)])

/-- Nothing happened to the lists or to the handles. -/
theorem hands_of_lists {m m' : Machine σ} {o : Outcome} (ho : ∀ h, o ≠ .acquired h)
    (hactive : m'.world.pool.active = m.world.pool.active)
    (hidle : m'.world.pool.idle = m.world.pool.idle)
    (hnext : m'.world.pool.nextWrapper = m.world.pool.nextWrapper)
    (hhandles : m'.handles = m.handles) : m.Hands o m' := by
  refine Or.inl ⟨handle?_eq_none ho, Pool.ages_of_lists hactive hidle (Nat.le_of_eq hnext.symm), ?_⟩
  rw [hhandles]

/-- What happens after something was counted happens after what was there before. -/
theorem Hands.of_count {m : Machine σ} {o : Outcome} {m' : Machine σ} {f : Counters → Counters}
    {waiters : List (Key × Waiter)}
    (h : Hands { m with waiters, world := m.world.onPool (·.count f) } o m') : m.Hands o m' := by
  rcases h with ⟨ho, hages, hhandles⟩ | ⟨key, h, ho, hout, hhandles⟩
  · exact Or.inl ⟨ho, ⟨hages.active, hages.idle, hages.nextWrapper⟩, hhandles⟩
  · exact Or.inr ⟨key, h, ho, ⟨⟨hout.source, hout.config, hout.expected, hout.closed,
      hout.nextWrapper⟩, hout.active, hout.idle⟩, hhandles⟩

theorem pass_hands (P : Drivers σ) (m : Machine σ) (key : Key) (a : Acquisition) :
    m.Hands (m.pass P key a).1 (m.pass P key a).2 := by
  rcases m.pass_cases P key a with ⟨-, e⟩ | ⟨-, budget, h' | h' | h' | h'⟩
  · rw [e]
    exact hands_of_lists nofun rfl rfl rfl rfl
  · obtain ⟨h, w, ht, e⟩ := h'
    have hpass := World.tryOut_pruned P a.who a.startedAt budget a.rejected m.world
    rw [ht] at hpass
    rw [e]
    exact Or.inr ⟨key, h, rfl, hpass, rfl⟩
  · obtain ⟨err, w, ht, e⟩ := h'
    have hages := (World.pruned_of_tryOut ht nofun).ages
    rw [e]
    exact Or.inl ⟨rfl, hages, List.Sublist.refl _⟩
  · obtain ⟨r, w, f, ht, e⟩ := h'
    have hages := (World.pruned_of_tryOut ht nofun).ages
    rw [e]
    exact Or.inl ⟨rfl, ⟨hages.active, hages.idle, hages.nextWrapper⟩, List.Sublist.refl _⟩
  · obtain ⟨w, ht, e⟩ := h'
    have hages := (World.pruned_of_tryOut ht nofun).ages
    rw [e]
    exact Or.inl ⟨rfl, hages, List.Sublist.refl _⟩

/-- A pool with a handle out is not closed. -/
theorem settle_of_handles (P : Drivers σ) {m : Machine σ} (h : m.handles ≠ []) :
    m.settle P = m := by
  have hne : m.handles.isEmpty = false := by simpa using h
  simp [settle, unused, hne]

/-- Closing the pool in case nobody refers to it any more hands nothing out. -/
theorem Hands.settle (P : Drivers σ) {m m' : Machine σ} {o : Outcome} (h : m.Hands o m') :
    m.Hands o (m'.settle P) := by
  rcases h with ⟨ho, hages, hhandles⟩ | ⟨key, h, ho, hout, hhandles⟩
  · refine Or.inl ⟨ho, ?_, ?_⟩
    · unfold Machine.settle
      split
      · exact hages.trans (World.invalidateAll_ages P _)
      · exact hages
    · unfold Machine.settle
      split <;> exact hhandles
  · have hne : m'.handles ≠ [] := by
      rw [hhandles]
      exact List.append_ne_nil_of_right_ne_nil _ (List.cons_ne_nil _ _)
    rw [settle_of_handles P hne]
    exact Or.inr ⟨key, h, ho, hout, hhandles⟩

/-- A look hands nothing out. -/
theorem lookAt_ages (P : Drivers σ) (m : Machine σ) (key : Key) (deadline : Instant) :
    (m.lookAt P key deadline).1.handle? = none ∧
      m.world.pool.Ages (m.lookAt P key deadline).2.world.pool ∧
      (m.lookAt P key deadline).2.handles.Sublist m.handles := by
  rcases m.lookAt_cases P key deadline with ⟨out, e⟩ | ⟨drain, e⟩
  · rw [e]
    exact ⟨rfl, World.invalidateAll_ages P _, List.Sublist.refl _⟩
  · rw [e]
    exact ⟨rfl, Pool.ages_of_lists rfl rfl (Nat.le_refl _), List.Sublist.refl _⟩

/-- **An event hands out one handle, or none.** -/
theorem stepAs_hands (P H : Drivers σ) (m : Machine σ) (e : Event σ) :
    m.Hands (m.stepAs P H e).1 (m.stepAs P H e).2 := by
  unfold stepAs
  split
  case isFalse => exact hands_of_lists nofun rfl rfl rfl rfl
  case isTrue =>
    refine Hands.settle P ?_
    cases e with
    | acquire key who => exact pass_hands P m key _
    | resume key =>
      show m.Hands (m.resume P key).1 (m.resume P key).2
      rcases m.resume_cases P key with ⟨o, e, ho⟩ | ⟨p, f, -, e⟩
      · rw [e]
        exact hands_of_lists ho rfl rfl rfl rfl
      · rw [e]
        exact (pass_hands P _ key p.acquisition).of_count
    | abandon key => exact hands_of_lists nofun rfl rfl rfl rfl
    | release key =>
      show m.Hands .nothing (m.release P key)
      rcases m.release_cases P key with ⟨-, e⟩ | ⟨h, -, e⟩
      · rw [e]
        exact hands_of_lists nofun rfl rfl rfl rfl
      · rw [e]
        exact Or.inl ⟨rfl, World.checkIn_ages P _ _, List.filter_sublist⟩
    | use key call =>
      show m.Hands (m.use H key call).1 (m.use H key call).2
      rcases m.use_cases H key call with ⟨-, e⟩ | ⟨h, -, -, e⟩ | ⟨h, o, -, -, e, ho⟩
      · rw [e]
        exact hands_of_lists nofun rfl rfl rfl rfl
      · rw [e]
        exact hands_of_lists nofun rfl rfl rfl rfl
      · rw [e]
        exact hands_of_lists ho rfl rfl rfl rfl
    | reconfigure change =>
      have hages := World.invalidateAll_ages P (m.world.onPool (·.apply change))
      rw [World.onPool_pool, Pool.apply_eq] at hages
      exact Or.inl ⟨rfl, ⟨hages.active, hages.idle, hages.nextWrapper⟩, List.Sublist.refl _⟩
    | setTolerance n => exact hands_of_lists nofun rfl rfl rfl rfl
    | shutDown key =>
      obtain ⟨ho, hages, hhandles⟩ := lookAt_ages P
        ((m.onWorld (·.onPool fun p => { p with closed := true })).wakeAll) key
        (m.world.now + m.world.pool.config.drainTimeout)
      exact Or.inl ⟨ho, ⟨hages.active, hages.idle, hages.nextWrapper⟩, hhandles⟩
    | look key =>
      show m.Hands (m.look P key).1 (m.look P key).2
      rcases m.look_cases P key with ⟨o, e, ho⟩ | ⟨d, -, e⟩
      · rw [e]
        exact hands_of_lists ho rfl rfl rfl rfl
      · rw [e]
        obtain ⟨ho, hages, hhandles⟩ := lookAt_ages P
          { m with drains := without key m.drains } key d.deadline
        exact Or.inl ⟨ho, hages, hhandles⟩
    | advance d => exact hands_of_lists nofun rfl rfl rfl rfl
    | disturb change => exact hands_of_lists nofun rfl rfl rfl rfl
    | letGo => exact hands_of_lists nofun rfl rfl rfl rfl

/-! ## The invariant -/

/-- Who owns what, after a run with these outcomes. -/
structure Owned (os : List Outcome) (m : Machine σ) : Prop where
  roster : m.world.pool.Roster m.world.pool.wrappers
  /-- No identity was handed out twice. -/
  once : ((handedOut os).map (·.id)).Nodup
  below : ∀ h ∈ handedOut os, h.id < m.world.pool.nextWrapper
  /-- What is idle has an identity that was never handed out. -/
  idle : ∀ c ∈ m.world.pool.idle, ∀ h ∈ handedOut os, h.id ≠ c.id
  /-- What is out was handed out as it is. -/
  active : ∀ c ∈ m.world.pool.active, c.handle ∈ handedOut os
  handles : (m.handles.map (·.2)).Sublist (handedOut os)

theorem owned_start (source : Source) (config : PoolConfig) (s : σ) :
    Owned [] (start (.new source config) s) :=
  ⟨Pool.roster_new source config, List.nodup_nil, nofun, nofun, nofun, List.Sublist.refl _⟩

namespace Owned

variable {os : List Outcome} {m m' : Machine σ} {o : Outcome}

/-- While nothing is handed out, the pool and the handles may age. -/
theorem ages (h : Owned os m) (ho : o.handle? = none) (hages : m.world.pool.Ages m'.world.pool)
    (hhandles : m'.handles.Sublist m.handles)
    (hroster : m'.world.pool.Roster m'.world.pool.wrappers) : Owned (os ++ [o]) m' where
  roster := hroster
  once := by
    rw [handedOut_append_none ho]
    exact h.once
  below := by
    rw [handedOut_append_none ho]
    intro h' hh'
    exact Nat.lt_of_lt_of_le (h.below h' hh') hages.nextWrapper
  idle := by
    rw [handedOut_append_none ho]
    intro c hc h' hh'
    rcases hages.idle c hc with hold | hnew
    · exact h.idle c hold h' hh'
    · have := h.below h' hh'
      omega
  active := by
    rw [handedOut_append_none ho]
    intro c hc
    exact h.active c (hages.active c hc)
  handles := by
    rw [handedOut_append_none ho]
    exact (hhandles.map _).trans h.handles

/-- The identity of what a pool can hand out was never handed out before. -/
theorem fresh_of_offers (h : Owned os m) {c : Wrapper} (hc : m.world.pool.Offers c) :
    ∀ h' ∈ handedOut os, h'.id ≠ c.id := by
  intro h' hh'
  rcases hc with hidle | hnew
  · exact h.idle c hidle h' hh'
  · have := h.below h' hh'
    omega

/-- A handle is handed out. -/
theorem handsOut (h : Owned os m) {key : Key} {hd : Handle}
    (hout : m.world.pool.HandsOut m'.world.pool hd)
    (hhandles : m'.handles = m.handles ++ [(key, hd)])
    (hroster : m'.world.pool.Roster m'.world.pool.wrappers) :
    Owned (os ++ [.acquired hd]) m' := by
  obtain ⟨rest, c, hactive, hrest, hc, c₀, hoffer, hid⟩ := hout.active
  have hfresh : ∀ h' ∈ handedOut os, h'.id ≠ hd.id := hid ▸ h.fresh_of_offers hoffer
  have hcid : c.id = hd.id := congrArg Handle.id hc
  have hmem : c ∈ m'.world.pool.active := by
    rw [hactive]
    exact List.mem_append_right _ List.mem_cons_self
  constructor
  case roster => exact hroster
  case once =>
    rw [handedOut_append_acquired, List.map_append, List.map_singleton]
    refine List.nodup_append.2 ⟨h.once, List.pairwise_singleton _ _, ?_⟩
    intro i hi j hj
    obtain ⟨h', hh', rfl⟩ := List.mem_map.1 hi
    rw [List.mem_singleton.1 hj]
    exact hfresh h' hh'
  case below =>
    rw [handedOut_append_acquired]
    intro h' hh'
    rcases List.mem_append.1 hh' with hh' | hh'
    · exact Nat.lt_of_lt_of_le (h.below h' hh') hout.nextWrapper
    · rw [List.mem_singleton.1 hh', ← hcid]
      exact hroster.idsBelow c (List.mem_append_left _ hmem)
  case idle =>
    rw [handedOut_append_acquired]
    intro c' hc' h' hh'
    rcases List.mem_append.1 hh' with hh' | hh'
    · exact h.idle c' (hout.idle.subset hc') h' hh'
    · -- the new handle's wrapper is out, so no other wrapper has its identity
      rw [List.mem_singleton.1 hh', ← hcid]
      have hids := hroster.ids
      rw [Pool.wrappers, List.map_append] at hids
      exact (List.nodup_append.1 hids).2.2 c.id (List.mem_map_of_mem hmem) c'.id
        (List.mem_map_of_mem hc')
  case active =>
    rw [handedOut_append_acquired, hactive]
    intro c' hc'
    rcases List.mem_append.1 hc' with hc' | hc'
    · exact List.mem_append_left _ (h.active c' (hrest.subset hc'))
    · rw [List.mem_singleton.1 hc', hc]
      exact List.mem_append_right _ List.mem_cons_self
  case handles =>
    rw [handedOut_append_acquired, hhandles, List.map_append]
    exact h.handles.append (List.Sublist.refl _)

end Owned

/-- **Ownership is kept** by every event. -/
theorem stepAs_owned (P H : Drivers σ) {os : List Outcome} {m : Machine σ} (e : Event σ)
    (h : Owned os m) : Owned (os ++ [(m.stepAs P H e).1]) (m.stepAs P H e).2 := by
  have hroster := stepAs_kept (World.roster_kept P H) m e (fun _ _ _ hw => hw) h.roster
  rcases stepAs_hands P H m e with ⟨ho, hages, hhandles⟩ | ⟨key, hd, ho, hout, hhandles⟩
  · exact h.ages ho hages hhandles hroster
  · rw [ho]
    exact h.handsOut hout hhandles hroster

/-! ## Exclusive ownership -/

/-- Nobody shares a connection, in a machine after a run with these outcomes. -/
structure Exclusive (D : Drivers σ) (os : List Outcome) (m : Machine (Observed σ)) : Prop where
  /-- No two wrappers have the same identity. -/
  ids : ((m.world.pool.idle ++ m.world.pool.active).map (·.id)).Nodup
  /-- No two wrappers are around the same connection. -/
  rawIds : ((m.world.pool.idle ++ m.world.pool.active).map (·.rawId)).Nodup
  conns : ((m.world.pool.idle ++ m.world.pool.active).map (·.conn)).Nodup
  /-- All wrappers are valid. -/
  valid : ∀ c ∈ m.world.pool.idle ++ m.world.pool.active, c.id ∈ m.world.pool.valid
  /-- A handle that is out is valid just when its wrapper is out. -/
  validHandle : ∀ e ∈ m.handles,
    (e.2.id ∈ m.world.pool.valid ↔ ∃ c ∈ m.world.pool.active, c.id = e.2.id)
  /-- The wrapper of a handle is around the handle's connection. -/
  sameHandle : ∀ e ∈ m.handles, ∀ c ∈ m.world.pool.active, c.id = e.2.id → c.handle = e.2
  /-- No identity is handed out twice. -/
  once : ((handedOut os).map (·.id)).Nodup
  /-- What is out was handed out. -/
  handles : ∀ e ∈ m.handles, e.2 ∈ handedOut os
  /-- No two handles that are out are valid on the same connection. -/
  alone : m.handles.Pairwise fun e e' =>
    ¬ (e.2.id ∈ m.world.pool.valid ∧ e'.2.id ∈ m.world.pool.valid ∧
      (e.2.rawId = e'.2.rawId ∨ e.2.conn = e'.2.conn))
  /-- The connection of a valid handle is not idle. -/
  notIdle : ∀ e ∈ m.handles, e.2.id ∈ m.world.pool.valid →
    ∀ c ∈ m.world.pool.idle, c.rawId ≠ e.2.rawId ∧ c.conn ≠ e.2.conn
  /-- A call through a handle that is not valid says so, and no driver hears of it. -/
  refused : ∀ key h call, m.handle? key = some h → h.id ∉ m.world.pool.valid →
    m.observe D (.use key call) = (.refused (.invalidConnection h.id), m)

namespace Owned

variable {os : List Outcome} {m : Machine σ}

theorem mem_handedOut (h : Owned os m) {e : Key × Handle} (he : e ∈ m.handles) :
    e.2 ∈ handedOut os :=
  h.handles.subset (List.mem_map_of_mem he)

/-- A wrapper that is out with the identity of a handle is the wrapper of that handle. -/
theorem handle_eq (h : Owned os m) {e : Key × Handle} (he : e ∈ m.handles) {c : Wrapper}
    (hc : c ∈ m.world.pool.active) (hid : c.id = e.2.id) : c.handle = e.2 :=
  List.inj_on_of_nodup_map h.once (h.active c hc) (h.mem_handedOut he) hid

/-- A handle is valid just when its wrapper is out. -/
theorem valid_iff (h : Owned os m) {e : Key × Handle} (he : e ∈ m.handles) :
    e.2.id ∈ m.world.pool.valid ↔ ∃ c ∈ m.world.pool.active, c.id = e.2.id := by
  rw [h.roster.valid, List.mem_map]
  constructor
  · rintro ⟨c, hc, hid⟩
    rcases List.mem_append.1 hc with hc | hc
    · exact ⟨c, hc, hid⟩
    · exact absurd hid.symm (h.idle c hc e.2 (h.mem_handedOut he))
  · rintro ⟨c, hc, hid⟩
    exact ⟨c, List.mem_append_left _ hc, hid⟩

/-- The wrapper of a valid handle. -/
theorem wrapper_of_valid (h : Owned os m) {e : Key × Handle} (he : e ∈ m.handles)
    (hv : e.2.id ∈ m.world.pool.valid) : ∃ c ∈ m.world.pool.active, c.handle = e.2 := by
  obtain ⟨c, hc, hid⟩ := (h.valid_iff he).1 hv
  exact ⟨c, hc, h.handle_eq he hc hid⟩

/-- Two valid handles on one connection are one handle. -/
theorem eq_of_valid (h : Owned os m) {e e' : Key × Handle} (he : e ∈ m.handles)
    (he' : e' ∈ m.handles) (hv : e.2.id ∈ m.world.pool.valid) (hv' : e'.2.id ∈ m.world.pool.valid)
    (hsame : e.2.rawId = e'.2.rawId ∨ e.2.conn = e'.2.conn) : e.2 = e'.2 := by
  obtain ⟨c, hc, hce⟩ := h.wrapper_of_valid he hv
  obtain ⟨c', hc', hce'⟩ := h.wrapper_of_valid he' hv'
  have hmem : c ∈ m.world.pool.wrappers := List.mem_append_left _ hc
  have hmem' : c' ∈ m.world.pool.wrappers := List.mem_append_left _ hc'
  have hcc : c = c' := by
    rw [← hce, ← hce'] at hsame
    rcases hsame with hraw | hconn
    · exact List.inj_on_of_nodup_map h.roster.rawIds hmem hmem' hraw
    · exact List.inj_on_of_nodup_map h.roster.conns hmem hmem' hconn
  rw [← hce, ← hce', hcc]

/-- The identities of the handles that are out are different. -/
theorem handles_pairwise (h : Owned os m) : m.handles.Pairwise fun e e' => e.2.id ≠ e'.2.id := by
  have hids : ((m.handles.map (·.2)).map (·.id)).Nodup := h.once.sublist (h.handles.map _)
  rw [List.map_map] at hids
  exact List.pairwise_map.1 hids

end Owned

/-- A use through a handle that is not valid changes nothing at all. -/
theorem stepAs_use_invalid (P H : Drivers σ) {m : Machine σ} {key : Key} {h : Handle}
    (call : RawCall) (hk : m.handle? key = some h) (hv : h.id ∉ m.world.pool.valid) :
    m.stepAs P H (.use key call) = (.refused (.invalidConnection h.id), m) := by
  have hne : m.handles ≠ [] := by
    rintro hnil
    rw [handle?, hnil] at hk
    nomatch hk
  have huse : m.use H key call = (.refused (.invalidConnection h.id), m) := by
    rcases m.use_cases H key call with ⟨hn, -⟩ | ⟨h', hk', -, e⟩ | ⟨h', o, hk', hv', -⟩
    · rw [hn] at hk
      nomatch hk
    · obtain rfl := Option.some.inj (hk'.symm.trans hk)
      exact e
    · obtain rfl := Option.some.inj (hk'.symm.trans hk)
      exact absurd hv' hv
  show ((m.use H key call).1, (m.use H key call).2.settle P) = _
  rw [huse, settle_of_handles P hne]

/-- **Exclusive ownership.**  After every run, whatever the drivers answer, the wrappers are around
    different connections, a handle is valid just while its wrapper is out, no two handles are valid on
    one connection, and a handle that is not valid does not reach its connection. -/
theorem exclusive_ownership (D : Drivers σ) (source : Source) (config : PoolConfig) (s : σ)
    (es : List (Event σ)) :
    Exclusive D (observeAll D source config s es).1 (observeAll D source config s es).2 := by
  have h : Owned (observeAll D source config s es).1 (observeAll D source config s es).2 :=
    observeAll_rule D source config s es (J := Owned) (owned_start source config _)
      fun _ _ e _ h => stepAs_owned _ _ e.observed h
  generalize (observeAll D source config s es).1 = os at h ⊢
  generalize (observeAll D source config s es).2 = m at h ⊢
  have hperm : m.world.pool.wrappers.Perm (m.world.pool.idle ++ m.world.pool.active) :=
    List.perm_append_comm
  have hroster := h.roster.perm hperm
  constructor
  case ids => exact hroster.ids
  case rawIds => exact hroster.rawIds
  case conns => exact hroster.conns
  case valid => exact fun c hc => (hroster.valid c.id).2 (List.mem_map_of_mem hc)
  case validHandle => exact fun e he => h.valid_iff he
  case sameHandle => exact fun e he c hc hid => h.handle_eq he hc hid
  case once => exact h.once
  case handles => exact fun e he => h.mem_handedOut he
  case alone =>
    refine h.handles_pairwise.imp_of_mem ?_
    rintro e e' he he' hne ⟨hv, hv', hsame⟩
    exact hne (congrArg Handle.id (h.eq_of_valid he he' hv hv' hsame))
  case notIdle =>
    intro e he hv c hc
    obtain ⟨c', hc', hce⟩ := h.wrapper_of_valid he hv
    have hraw := hroster.rawIds
    have hconn := hroster.conns
    rw [List.map_append] at hraw hconn
    rw [← hce]
    exact ⟨(List.nodup_append.1 hraw).2.2 _ (List.mem_map_of_mem hc) _ (List.mem_map_of_mem hc'),
      (List.nodup_append.1 hconn).2.2 _ (List.mem_map_of_mem hc) _ (List.mem_map_of_mem hc')⟩
  case refused =>
    intro key hd call hk hv
    exact stepAs_use_invalid _ _ call hk hv

end Machine

end ConnPool
