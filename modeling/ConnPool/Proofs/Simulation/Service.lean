/-
  What the workers of a rehearsal ask of a pool.

  A rehearsal needs five events only: an acquisition begins or goes on, a statement runs on a handle, a
  handle is returned, and time passes (`Event.Rehearsed`).  Nobody lets the pool go in them, and nobody
  shuts it down, so its users stay in charge of it (`Machine.InUse`), and the end of the pool never
  comes in between.  For each event this module says what it leaves of those who wait and of those who
  hold a connection: `served_of_pass`, `step_use`, `step_release` and `step_advance`.

  What is known of a machine after every run was proved of observed runs.  Here the observers are
  forgotten, and it is collected (`Machine.Sound`).
-/
import ConnPool.Proofs.Bystander
import ConnPool.Proofs.Erasure
import ConnPool.Proofs.Increments
import ConnPool.Proofs.Wakeup

namespace ConnPool

variable {σ : Type}

/-- What happens in a rehearsal. -/
inductive Event.Rehearsed : Event σ → Prop
  | acquire (key : Key) (who : Option Credentials) : Rehearsed (.acquire key who)
  | resume (key : Key) : Rehearsed (.resume key)
  | execute (key : Key) (statement : String) : Rehearsed (.use key (.execute statement))
  | release (key : Key) : Rehearsed (.release key)
  | advance (d : Duration) : Rehearsed (.advance d)

namespace World

variable (D : Drivers σ)

/-- A pass that has to wait leaves a connection out. -/
theorem active_of_mustWait (who : Credentials) (startedAt : Instant) (budget r : Nat) (w : World σ) :
    ∀ r', (w.tryOut D who startedAt budget r).1 = .mustWait r' →
      (w.tryOut D who startedAt budget r).2.pool.active ≠ [] := by
  refine tryOut_rule D (I := fun _ _ => True)
    (Q := fun e w' => ∀ r', e = .mustWait r' → w'.pool.active ≠ []) ?_ ?_ ?_ ?_ ?_ ?_ budget r w trivial
  · intro r w e w' _ _ r' he
    nomatch he
  · intro r w w' _ ht r' _
    obtain ⟨rfl, -, oldest, rest, ha, -⟩ := takeCandidate_mustWait D ht
    rw [ha]
    exact List.cons_ne_nil _ _
  · intro r w c w₁ w₂ _ _ _ r' he
    nomatch he
  · exact fun _ _ _ => trivial
  · intro r w _ r' he
    nomatch he
  · intro r w _ r' he
    nomatch he

end World

namespace Machine

/-! ## Lists with keys -/

section Lists

variable {α : Type} {key : Key} {l : List (Key × α)}

theorem lookup_of_mem {a : α} (hnodup : (l.map (·.1)).Nodup) (h : (key, a) ∈ l) :
    l.lookup key = some a := by
  cases hl : l.lookup key with
  | none => exact absurd (List.mem_map_of_mem h) (lookup_eq_none_iff_not_mem.1 hl)
  | some b =>
    have hpair := List.inj_on_of_nodup_map hnodup (mem_of_lookup hl) h rfl
    exact congrArg some (congrArg Prod.snd hpair)

/-- What comes last under a key of its own can be taken away again. -/
theorem without_append_self {a : α} (h : key ∉ l.map (·.1)) : without key (l ++ [(key, a)]) = l := by
  rw [without, List.filter_append, List.filter_cons_of_neg (by simp), List.filter_nil,
    List.append_nil]
  exact without_eq_self h

/-- One entry goes by a key at most. -/
theorem length_without (hnodup : (l.map (·.1)).Nodup) (h : key ∈ l.map (·.1)) :
    (without key l).length + 1 = l.length := by
  obtain ⟨⟨_, a⟩, ha, rfl⟩ := List.mem_map.1 h
  obtain ⟨front, back, rfl⟩ := List.append_of_mem ha
  rw [List.map_append, List.map_cons, List.nodup_middle, List.nodup_cons, List.mem_append,
    not_or] at hnodup
  rw [without, List.filter_append, List.filter_cons_of_neg (by simp), List.length_append,
    List.length_append, List.length_cons]
  have hfront : (without _ front).length = front.length := congrArg _ (without_eq_self hnodup.1.1)
  have hback : (without _ back).length = back.length := congrArg _ (without_eq_self hnodup.1.2)
  rw [← hfront, ← hback]
  rfl

end Lists

section Keys

variable {m : Machine σ} {key : Key}

theorem Keyed.waiters (h : m.Keyed) : (m.waiters.map (·.1)).Nodup :=
  (List.nodup_append.1 h).1

theorem Keyed.handles (h : m.Keyed) : (m.handles.map (·.1)).Nodup :=
  (List.nodup_append.1 (List.nodup_append.1 h).2.1).2.1

/-- Nobody waits and holds a handle at once. -/
theorem Keyed.apart (h : m.Keyed) (hholds : key ∈ m.handles.map (·.1)) :
    key ∉ m.waiters.map (·.1) :=
  fun hwaits => (List.nodup_append.1 h).2.2 key hwaits key (List.mem_append_right _ hholds) rfl

end Keys

/-! ## A pool in the hands of its users -/

/-- Somebody holds the pool, nobody shuts it down or has done so, and its configuration is this, with a
    budget for bad connections that fits in a word. -/
structure InUse (config : PoolConfig) (m : Machine σ) : Prop where
  held : m.held = true
  drains : m.drains = []
  closed : m.world.pool.closed = false
  word : config.badBudget < wordLimit
  config : m.world.pool.config = config

section InUse

variable (D : Drivers σ) {m : Machine σ} {e : Event σ} {config : PoolConfig}

theorem pass_sameTerms (m : Machine σ) (key : Key) (a : Acquisition) :
    m.world.pool.SameTerms (m.pass D key a).2.world.pool := by
  rcases m.pass_cases D key a with ⟨-, e⟩ | ⟨-, budget, ⟨hd, w, ht, e⟩ | ⟨err, w, ht, e⟩ |
    ⟨r, w, f, ht, e⟩ | ⟨w, ht, e⟩⟩
  · rw [e]
    exact Pool.SameTerms.refl _
  all_goals
    have hsame := m.world.tryOut_sameTerms D a.who a.startedAt budget a.rejected
    rw [ht] at hsame
    rw [e]
    exact ⟨hsame.source, hsame.config, hsame.expected, hsame.closed, hsame.nextWrapper⟩

/-- The terms of a pool stay as they are in a rehearsal. -/
theorem react_sameTerms (m : Machine σ) (he : e.Rehearsed) :
    m.world.pool.SameTerms (m.react D e).2.world.pool := by
  cases he with
  | acquire key who => exact pass_sameTerms D m key _
  | resume key =>
    show m.world.pool.SameTerms (m.resume D key).2.world.pool
    rcases m.resume_cases D key with ⟨o, e, -⟩ | ⟨p, f, -, e⟩
    · rw [e]
      exact Pool.SameTerms.refl _
    · rw [e]
      obtain ⟨hsource, hconfig, hexpected, hclosed, hnext⟩ := pass_sameTerms D { m with
        waiters := without key m.waiters
        world := m.world.onPool (·.count f) } key p.acquisition
      exact ⟨hsource, hconfig, hexpected, hclosed, hnext⟩
  | execute key statement =>
    show m.world.pool.SameTerms (m.use D key (.execute statement)).2.world.pool
    rcases m.use_cases D key (.execute statement) with ⟨-, e⟩ | ⟨h, -, -, e⟩ | ⟨h, o, -, -, e, -⟩
    all_goals
      rw [e]
      exact Pool.SameTerms.refl _
  | release key =>
    show m.world.pool.SameTerms (m.release D key).world.pool
    rcases m.release_cases D key with ⟨-, e⟩ | ⟨h, -, e⟩
    · rw [e]
      exact Pool.SameTerms.refl _
    · rw [e]
      exact (m.world.checkIn_takesBack D h.id).toSameTerms
  | advance d => exact Pool.SameTerms.refl _

theorem InUse.react (h : m.InUse config) (he : e.Rehearsed) : (m.react D e).2.InUse config where
  held := (react_holds D (by rintro rfl; nomatch he)).trans h.held
  drains := by
    by_contra hdrains
    rcases react_drains D m e hdrains with hold | ⟨key, rfl⟩
    · exact hold h.drains
    · nomatch he
  closed := (react_sameTerms D m he).closed.trans h.closed
  config := (react_sameTerms D m he).config.trans h.config
  word := h.word

/-- The end of a pool in use does not come. -/
theorem InUse.step_eq (h : m.InUse config) (he : e.Rehearsed) (hadmits : m.admits e = true) :
    m.step D e = m.react D e := by
  rw [step, if_pos hadmits]
  exact Prod.ext rfl (settle_of_held D (h.react D he).held)

theorem InUse.step (h : m.InUse config) (he : e.Rehearsed) : (m.step D e).2.InUse config := by
  by_cases hadmits : m.admits e = true
  · rw [h.step_eq D he hadmits]
    exact h.react D he
  · rw [Machine.step, if_neg hadmits]
    exact h

end InUse

/-! ## After every run -/

/-- What is known of a machine after every run. -/
structure Sound (m : Machine σ) : Prop where
  keyed : m.Keyed
  held : m.Held
  fits : m.world.pool.Fits
  owned : ∃ os, Owned os m

theorem sound_runAll (D : Drivers σ) (source : Source) (config : PoolConfig) (s : σ)
    (es : List (Event σ)) : ((start (.new source config) s).runAll D es).2.Sound := by
  rw [observeAll_erase]
  have howned := owned_reached D source config s es
  exact {
    keyed := keyed_reached D source config s es
    held := held_reached D source config s es
    fits := fits_reached D source config s es
    owned := ⟨_, howned.roster, howned.once, howned.below, howned.idle, howned.active,
      howned.handles⟩ }

/-- A machine that a rehearsal of a new pool comes to, if the budget for bad connections fits in a word. -/
def InRehearsal (D : Drivers σ) (source : Source) (config : PoolConfig) (s : σ) (m : Machine σ) :
    Prop :=
  config.badBudget < wordLimit ∧ ∃ es : List (Event σ), (∀ e ∈ es, e.Rehearsed) ∧
    m = ((start (.new source config) s).runAll D es).2

namespace InRehearsal

variable {D : Drivers σ} {source : Source} {config : PoolConfig} {s : σ} {m : Machine σ}

theorem start (hword : config.badBudget < wordLimit) :
    InRehearsal D source config s (.start (.new source config) s) :=
  ⟨hword, [], nofun, rfl⟩

theorem step (h : InRehearsal D source config s m) {e : Event σ} (he : e.Rehearsed) :
    InRehearsal D source config s (m.step D e).2 := by
  obtain ⟨hword, es, hes, rfl⟩ := h
  refine ⟨hword, es ++ [e], fun e' he' => ?_, ?_⟩
  · rcases List.mem_append.1 he' with he' | he'
    · exact hes e' he'
    · rw [List.mem_singleton.1 he']
      exact he
  · rw [← runAs_self, ← runAs_self, runAs_concat, ← stepAs_self]

/-- What holds at the start and survives every event of a rehearsal holds in it. -/
theorem rule {I : Machine σ → Prop} (h : InRehearsal D source config s m)
    (start : I (.start (.new source config) s))
    (step : ∀ m e, e.Rehearsed → I m → I (m.step D e).2) : I m := by
  obtain ⟨-, es, hes, rfl⟩ := h
  rw [← runAs_self]
  refine runAs_rule D D (J := fun _ m => I m) es start fun _ m e he hm => ?_
  rw [stepAs_self]
  exact step m e (hes e he) hm

theorem inUse (h : InRehearsal D source config s m) : m.InUse config :=
  h.rule ⟨rfl, rfl, rfl, h.1, rfl⟩ fun _ _ he hm => hm.step D he

theorem sound (h : InRehearsal D source config s m) : m.Sound := by
  obtain ⟨-, es, -, rfl⟩ := h
  exact sound_runAll D source config s es

end InRehearsal

/-! ## The events of a pool in use -/

/-- What a pass leaves of those who wait and of those who hold a connection. -/
inductive Served (m : Machine σ) (key : Key) : Outcome → Machine σ → Prop
  | acquired {h : Handle} {m' : Machine σ} (waiters : m'.waiters = without key m.waiters)
      (handles : m'.handles = m.handles ++ [(key, h)]) (stamp : h.checkoutAt = m.world.now) :
      Served m key (.acquired h) m'
  | waits {p : Waiter} {m' : Machine σ} (waiters : m'.waiters = without key m.waiters ++ [(key, p)])
      (handles : m'.handles = m.handles) (since : p.since = m.world.now)
      (out : m'.world.pool.active ≠ []) : Served m key .waiting m'
  | refused {e : PoolError} {m' : Machine σ} (waiters : m'.waiters = without key m.waiters)
      (handles : m'.handles = m.handles) : Served m key (.refused e) m'

section Events

variable (D : Drivers σ) {m m₀ : Machine σ} {e : Event σ} {key : Key} {a : Acquisition}
  {config : PoolConfig}

/-- The machine on which a pass is made differs from the one before the event in its waiters and in a
    time that was counted. -/
theorem pass?_before (hpass : m.pass? e = some (m₀, key, a)) :
    m₀.waiters = without key m.waiters ∧ m₀.handles = m.handles ∧
      ∃ t, m₀.world = m.world.onPool (·.count fun k => { k with waitTime := t }) := by
  rcases pass?_cases hpass with ⟨who, -, hadmits, rfl, -⟩ | ⟨-, p, -, -, rfl, -⟩
  · simp only [admits, Bool.and_eq_true] at hadmits
    have hfree := isFree_iff.1 hadmits.2
    exact ⟨(without_eq_self fun h => hfree (List.mem_append_left _ h)).symm, rfl, _, rfl⟩
  · exact ⟨rfl, rfl, m.world.pool.counters.waitTime + (m.world.now - p.since), rfl⟩

/-- An event that makes a pass can happen, and belongs to a rehearsal. -/
theorem pass?_rehearsed (hpass : m.pass? e = some (m₀, key, a)) :
    m.admits e = true ∧ e.Rehearsed := by
  rcases pass?_cases hpass with ⟨who, rfl, hadmits, -, -⟩ | ⟨rfl, -⟩
  · exact ⟨hadmits, .acquire key who⟩
  · exact ⟨rfl, .resume key⟩

/-- An event that makes a pass is this pass. -/
theorem step_of_pass (huse : m.InUse config) (hpass : m.pass? e = some (m₀, key, a)) :
    m.step D e = m₀.pass D key a := by
  obtain ⟨hadmits, he⟩ := pass?_rehearsed hpass
  rw [huse.step_eq D he hadmits, react_of_pass? D hpass]

/-- No pass of a pool in use breaks off. -/
theorem goes_on (huse : m.InUse config) (hpass : m.pass? e = some (m₀, key, a)) (budget r : Nat) :
    (m₀.world.tryOut D a.who a.startedAt budget r).1 ≠ .overflowed := by
  obtain ⟨-, -, t, hworld⟩ := pass?_before hpass
  intro hend
  refine (World.overflowed_iff D a.who a.startedAt budget r m₀.world).1 hend |>.1 ?_
  rw [hworld]
  exact huse.config.symm ▸ huse.word

/-- **What a pass leaves.**  Its acquisition is handed a connection, waits from now on, or is refused,
    and the others stay where they are. -/
theorem served_of_pass (huse : m.InUse config) (hpass : m.pass? e = some (m₀, key, a)) :
    m.Served key (m.step D e).1 (m.step D e).2 ∧ (m.step D e).2.world.now = m.world.now := by
  obtain ⟨hwaiters, hhandles, t, hworld⟩ := pass?_before hpass
  have hnow : m₀.world.now = m.world.now := by rw [hworld, World.onPool_now]
  have hclosed : m₀.world.pool.closed = false := by
    rw [hworld]
    exact huse.closed
  rw [step_of_pass D huse hpass]
  rcases m₀.pass_cases D key a with ⟨hc, -⟩ | ⟨-, budget, ⟨h, w, ht, e⟩ | ⟨err, w, ht, e⟩ |
    ⟨r, w, f, ht, e⟩ | ⟨w, ht, -⟩⟩
  · rw [hclosed] at hc
    nomatch hc
  on_goal 4 => exact absurd (congrArg Prod.fst ht) (goes_on D huse hpass budget a.rejected)
  all_goals
    have hlater := m₀.world.tryOut_now D a.who a.startedAt budget a.rejected
    rw [ht, hnow] at hlater
    rw [e]
    refine ⟨?_, hlater⟩
  · have hstamp : h.checkoutAt = m.world.now := by
      obtain ⟨taken, rest, htally⟩ := m₀.world.tryOut_tally D a.who a.startedAt budget a.rejected
      rw [ht] at htally
      obtain ⟨c, -, rfl, hc⟩ := htally.handedOut h rfl
      exact hc.trans hnow
    exact .acquired hwaiters (congrArg (· ++ _) hhandles) hstamp
  · exact .refused hwaiters hhandles
  · have hout := m₀.world.active_of_mustWait D a.who a.startedAt budget a.rejected r
    rw [ht] at hout
    exact .waits (congrArg (· ++ _) hwaiters) hhandles hlater (hout rfl)

/-- A use of a handle calls the drivers and changes nothing else. -/
theorem step_use (huse : m.InUse config) (key : Key) (statement : String) :
    ∃ d, (m.step D (.use key (.execute statement))).2 = m.onWorld (·.onDrivers fun _ => d) := by
  rw [huse.step_eq D (.execute key statement) rfl]
  show ∃ d, (m.use D key (.execute statement)).2 = _
  rcases m.use_cases D key (.execute statement) with ⟨-, e⟩ | ⟨h, -, -, e⟩ | ⟨h, o, -, -, e, -⟩
  · exact ⟨m.world.drivers, by rw [e]; rfl⟩
  · exact ⟨m.world.drivers, by rw [e]; rfl⟩
  · exact ⟨_, by rw [e]; rfl⟩

/-- A return of a handle takes its connection back and wakes all who wait. -/
theorem step_release (huse : m.InUse config) {h : Handle} (hk : m.handle? key = some h) :
    (m.step D (.release key)).2 = ({ m with
      handles := without key m.handles
      world := m.world.checkIn D h.id }).wakeAll := by
  rw [huse.step_eq D (.release key) rfl]
  show m.release D key = _
  rcases m.release_cases D key with ⟨hn, -⟩ | ⟨h', hk', e⟩
  · rw [hn] at hk
    nomatch hk
  · obtain rfl := Option.some.inj (hk'.symm.trans hk)
    exact e

theorem step_advance (huse : m.InUse config) (d : Duration) :
    (m.step D (.advance d)).2 = m.onWorld fun w => { w with now := w.now + d } := by
  rw [huse.step_eq D (.advance d) rfl]
  rfl

end Events

end Machine

end ConnPool
