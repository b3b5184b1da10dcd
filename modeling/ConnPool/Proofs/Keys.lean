/-
  What goes by which key.

  A new acquisition or shutdown goes by a key that nothing else goes by, and keeps it: an acquisition
  that is handed a connection holds the handle under the key that it waited under.  So no two things ever
  go by one key (`react_keyed`).

  It follows that a handle stays with its holder until it is returned.  Every connection that is out has
  its handle held by somebody (`Held`), and a pool that nobody refers to has none out (`settle_active`):
  the end of a pool takes no connection away from anybody.
-/
import ConnPool.Proofs.Belonging
import ConnPool.Proofs.Queue
import ConnPool.Proofs.Undisturbed

namespace ConnPool

variable {σ τ : Type}

/-- What is returned is not out any more. -/
theorem World.checkIn_not_mem (D : Drivers τ) {w : World τ}
    (hroster : w.pool.Roster w.pool.wrappers) {id : Nat} {c : Wrapper} (hid : c.id = id) :
    c ∉ (w.checkIn D id).pool.active := by
  intro hc
  rcases w.checkIn_cases D id with ⟨hnone, e⟩ | ⟨c', front, back, ha, hid', -, e⟩
  · rw [e] at hc
    exact hnone c hc hid
  · rw [e, takeBack_active] at hc
    have hids := hroster.ids
    rw [Pool.wrappers, ha, List.append_assoc, List.map_append, List.cons_append, List.map_cons,
      List.nodup_middle, List.nodup_cons, ← List.map_append] at hids
    refine hids.1 (hid'.trans hid.symm ▸ List.mem_map_of_mem ?_)
    rw [← List.append_assoc]
    exact List.mem_append_left _ hc

namespace Machine

/-! ## Keys -/

/-- All keys that something goes by. -/
def keys (m : Machine τ) : List Key :=
  m.waiters.map (·.1) ++ (m.drains.map (·.1) ++ m.handles.map (·.1))

/-- No two things go by one key. -/
def Keyed (m : Machine τ) : Prop :=
  m.keys.Nodup

theorem lookup_eq_none_iff_not_mem {α : Type} {key : Key} {l : List (Key × α)} :
    l.lookup key = none ↔ key ∉ l.map (·.1) := by
  rw [List.lookup_eq_none_iff]
  constructor
  · intro h hmem
    obtain ⟨x, hx, rfl⟩ := List.mem_map.1 hmem
    simpa using h x hx
  · intro h x hx
    have hne : key ≠ x.1 := fun he => h (he ▸ List.mem_map_of_mem hx)
    simpa using hne

/-- A key is free if nothing goes by it. -/
theorem isFree_iff {m : Machine τ} {key : Key} : m.isFree key = true ↔ key ∉ m.keys := by
  simp only [isFree, Bool.and_eq_true, Option.isNone_iff_eq_none, waiter?, drain?, handle?,
    lookup_eq_none_iff_not_mem, keys, List.mem_append, not_or, and_assoc]

theorem without_keys_sublist {α : Type} (key : Key) (l : List (Key × α)) :
    ((without key l).map (·.1)).Sublist (l.map (·.1)) :=
  List.filter_sublist.map _

theorem not_mem_keys_without {α : Type} (key : Key) (l : List (Key × α)) :
    key ∉ (without key l).map (·.1) := by
  intro h
  obtain ⟨x, hx, hkey⟩ := List.mem_map.1 h
  simpa [hkey] using (List.mem_filter.1 hx).2

theorem mem_without {α : Type} {key : Key} {l : List (Key × α)} {x : Key × α} :
    x ∈ without key l ↔ x ∈ l ∧ x.1 ≠ key := by
  rw [without, List.mem_filter, decide_eq_true_eq]

theorem without_eq_self {α : Type} {key : Key} {l : List (Key × α)} (h : key ∉ l.map (·.1)) :
    without key l = l :=
  List.filter_eq_self.2 fun _ hx => decide_eq_true fun heq => h (heq ▸ List.mem_map_of_mem hx)

/-- Things may go away. -/
theorem Keyed.sublist {m m' : Machine τ} (h : m.Keyed)
    (hwaiters : (m'.waiters.map (·.1)).Sublist (m.waiters.map (·.1)))
    (hdrains : (m'.drains.map (·.1)).Sublist (m.drains.map (·.1)))
    (hhandles : (m'.handles.map (·.1)).Sublist (m.handles.map (·.1))) : m'.Keyed :=
  List.Nodup.sublist (hwaiters.append (hdrains.append hhandles)) h

/-- Something may come under a key that nothing goes by. -/
theorem Keyed.join {m m' : Machine τ} (h : m.Keyed) {key : Key} (hkey : key ∉ m.keys)
    (hkeys : m'.keys.Perm (key :: m.keys)) : m'.Keyed :=
  hkeys.nodup_iff.2 (List.nodup_cons.2 ⟨hkey, h⟩)

/-- A pass leaves the keys as they are, or its acquisition comes to wait or to hold a handle. -/
theorem pass_keyed (P : Drivers τ) {m : Machine τ} (h : m.Keyed) {key : Key} (hkey : key ∉ m.keys)
    (a : Acquisition) : (m.pass P key a).2.Keyed := by
  rcases m.pass_cases P key a with ⟨-, e⟩ | ⟨-, budget, ⟨hd, w, -, e⟩ | ⟨err, w, -, e⟩ |
    ⟨r, w, f, -, e⟩ | ⟨w, -, e⟩⟩
  · rw [e]
    exact h
  · rw [e]
    refine h.join hkey ?_
    simp only [keys, List.map_append, List.map_cons, List.map_nil]
    rw [← List.append_assoc, ← List.append_assoc, ← List.append_assoc]
    exact List.perm_append_singleton key _
  · rw [e]
    exact h
  · rw [e]
    refine h.join hkey ?_
    simp only [keys, List.map_append, List.map_cons, List.map_nil, List.append_assoc,
      List.singleton_append]
    exact List.perm_middle
  · rw [e]
    exact h

theorem lookAt_keyed (P : Drivers τ) {m : Machine τ} (h : m.Keyed) {key : Key} (hkey : key ∉ m.keys)
    (deadline : Instant) : (m.lookAt P key deadline).2.Keyed := by
  rcases m.lookAt_cases P key deadline with ⟨out, e⟩ | ⟨drain, e⟩
  · rw [e]
    exact h
  · rw [e]
    refine h.join hkey ?_
    simp only [keys, List.map_append, List.map_cons, List.map_nil, List.append_assoc,
      List.singleton_append]
    rw [← List.append_assoc, ← List.append_assoc]
    exact List.perm_middle

theorem keys_wakeAll (m : Machine τ) : m.wakeAll.keys = m.keys := by
  show (m.waiters.map _).map _ ++ _ = m.waiters.map _ ++ _
  rw [List.map_map]
  rfl

/-- Whoever is called up goes by no key for the moment. -/
theorem recalled_keyed {m : Machine τ} (h : m.Keyed) {key : Key} {p : Waiter}
    (hp : m.waiter? key = some p) :
    (m.recalled key p).Keyed ∧ key ∉ (m.recalled key p).keys := by
  refine ⟨h.sublist (without_keys_sublist key m.waiters) (List.Sublist.refl _)
    (List.Sublist.refl _), fun hmem => ?_⟩
  have hwaits : key ∈ m.waiters.map (·.1) := waits_of_mem (mem_of_lookup hp)
  rcases List.mem_append.1 hmem with hmem | hmem
  · exact not_mem_keys_without key m.waiters hmem
  · exact (List.nodup_append.1 h).2.2 key hwaits key hmem rfl

/-- **No two things go by one key**, whatever happens. -/
theorem react_keyed (P : Drivers τ) {m : Machine τ} {e : Event τ} (hadmits : m.admits e = true)
    (h : m.Keyed) : (m.react P e).2.Keyed := by
  cases e with
  | acquire key who =>
    simp only [admits, Bool.and_eq_true] at hadmits
    exact pass_keyed P h (isFree_iff.1 hadmits.2) _
  | resume key =>
    rcases hpass : m.pass? (.resume key : Event τ) with _ | ⟨m₀, key', a⟩
    · obtain ⟨o, e, -⟩ := resume_of_pass?_eq_none P hpass
      rw [react, e]
      exact h
    · rcases pass?_cases hpass with ⟨who, he, -⟩ | ⟨he, p, hp, -, rfl, rfl⟩
      · cases he
      · rw [react_of_pass? P hpass]
        obtain ⟨hkeyed, hkey⟩ := recalled_keyed h hp
        exact pass_keyed P hkeyed hkey p.acquisition
  | abandon key =>
    exact h.sublist (without_keys_sublist key m.waiters) (without_keys_sublist key m.drains)
      (List.Sublist.refl _)
  | release key =>
    show (m.release P key).Keyed
    rcases m.release_cases P key with ⟨-, e⟩ | ⟨hd, -, e⟩
    · rw [e]
      exact h
    · have hkeyed : ({ m with
          handles := without key m.handles
          world := m.world.checkIn P hd.id } : Machine τ).Keyed :=
        h.sublist (List.Sublist.refl _) (List.Sublist.refl _)
          (without_keys_sublist key m.handles)
      rw [e, Keyed, keys_wakeAll]
      exact hkeyed
  | use key call =>
    show (m.use P key call).2.Keyed
    rcases m.use_cases P key call with ⟨-, e⟩ | ⟨hd, -, -, e⟩ | ⟨hd, o, -, -, e, -⟩
    all_goals
      rw [e]
      exact h
  | reconfigure change =>
    show ((m.onWorld (·.reconfigure P change)).wakeAll).keys.Nodup
    rw [keys_wakeAll]
    exact h
  | setTolerance n => exact h
  | shutDown key =>
    simp only [admits, Bool.and_eq_true] at hadmits
    refine lookAt_keyed P ?_ ?_ _
    · rw [Keyed, keys_wakeAll]
      exact h
    · rw [keys_wakeAll]
      exact isFree_iff.1 hadmits.2
  | look key =>
    show (m.look P key).2.Keyed
    rcases m.look_cases P key with ⟨o, e, -⟩ | ⟨d, hd, e⟩
    · rw [e]
      exact h
    · rw [e]
      have hkeyed : ({ m with drains := without key m.drains } : Machine τ).Keyed :=
        h.sublist (List.Sublist.refl _) (without_keys_sublist key m.drains) (List.Sublist.refl _)
      refine lookAt_keyed P hkeyed (fun hmem => ?_) d.deadline
      -- its key was that of the shutdown only
      have hdrains : key ∈ m.drains.map (·.1) := List.mem_map_of_mem (mem_of_lookup hd)
      obtain ⟨-, hrest, hapart⟩ := List.nodup_append.1 h
      rcases List.mem_append.1 hmem with hmem | hmem
      · exact hapart key hmem key (List.mem_append_left _ hdrains) rfl
      · rcases List.mem_append.1 hmem with hmem | hmem
        · exact not_mem_keys_without key m.drains hmem
        · exact (List.nodup_append.1 hrest).2.2 key hdrains key hmem rfl
  | advance d => exact h
  | disturb change => exact h
  | letGo => exact h

theorem settle_keys (P : Drivers τ) (m : Machine τ) : (m.settle P).keys = m.keys := by
  rcases m.settle_cases P with e | ⟨-, e⟩
  · rw [e]
  · rw [e]
    rfl

theorem stepAs_keyed (P H : Drivers τ) {m : Machine τ} (e : Event τ) (h : m.Keyed) :
    (m.stepAs P H e).2.Keyed := by
  unfold stepAs
  split
  case isFalse => exact h
  case isTrue hadmits =>
    show ((m.react (e.view P H) e).2.settle P).keys.Nodup
    rw [settle_keys]
    exact react_keyed _ hadmits h

/-! ## Holders -/

/-- Somebody holds the handle of every connection that is out. -/
def Held (m : Machine τ) : Prop :=
  ∀ c ∈ m.world.pool.active, ∃ key, (key, c.handle) ∈ m.handles

/-- A pool that nobody refers to has no connection out, so its end leaves the active list as it is. -/
theorem settle_active (P : Drivers τ) {m : Machine τ} (h : m.Held) :
    (m.settle P).world.pool.active = m.world.pool.active := by
  rcases m.settle_cases P with e | ⟨hunused, e⟩
  · rw [e]
  · have hnone : m.world.pool.active = [] := by
      refine List.eq_nil_iff_forall_not_mem.2 fun c hc => ?_
      obtain ⟨key, hkey⟩ := h c hc
      rw [(unused_iff.1 hunused).2.2.2] at hkey
      nomatch hkey
    rw [e, hnone]
    exact (List.append_eq_nil_iff.1 (emptied_invalidateAll P m).wrappers).1

theorem Held.settle {m : Machine τ} (h : m.Held) (P : Drivers τ) : (m.settle P).Held := by
  intro c hc
  rw [settle_active P h] at hc
  rcases m.settle_cases P with e | ⟨-, e⟩
  · rw [e]
    exact h c hc
  · rw [e]
    exact h c hc

/-- **A handle stays with its holder** until it is returned. -/
theorem Deed.held {D : Drivers σ} {os : List Outcome} {m m' : Machine (Observed σ)} {e : Event σ}
    {o : Outcome} (hd : m.Deed D e o m') (howned : Owned os m) (hkeyed : m.Keyed) (h : m.Held) :
    m'.Held := by
  cases hd with
  | aside _ alike =>
    intro c hc
    rw [alike.handles]
    exact h c (alike.active ▸ hc)
  | @handsOut _ key a f budget hd w waiters serves pass =>
    have hout := World.tryOut_pruned (D.observed .pool) a.who a.startedAt budget a.rejected
      (m.world.onPool (·.count f))
    rw [pass] at hout
    have hout : m.world.pool.HandsOut w.pool hd :=
      ⟨⟨hout.source, hout.config, hout.expected, hout.closed, hout.nextWrapper⟩, hout.active,
        hout.idle⟩
    obtain ⟨rest, c, hactive, hrest, rfl, -⟩ := hout.active
    intro c' hc'
    rw [show w.pool.active = rest ++ [c] from hactive] at hc'
    rcases List.mem_append.1 hc' with hc' | hc'
    · obtain ⟨key', hkey'⟩ := h c' (hrest.subset hc')
      exact ⟨key', List.mem_append_left _ hkey'⟩
    · obtain rfl := List.mem_singleton.1 hc'
      exact ⟨key, List.mem_append_right _ List.mem_cons_self⟩
  | @fails _ _ key a f g budget r w waiters serves out pass nothing =>
    have hpruned := World.pruned_of_tryOut pass nothing
    exact fun c hc => h c (hpruned.active.subset hc)
  | @release key hd handle =>
    intro c hc
    have hback := m.world.checkIn_takesBack (D.observed .pool) hd.id
    obtain ⟨key', hkey'⟩ := h c (hback.active.subset hc)
    refine ⟨key', List.mem_filter.2 ⟨hkey', ?_⟩⟩
    -- what goes by the key is the handle that is returned, and its wrapper is not out any more
    have hne : key' ≠ key := by
      rintro rfl
      have hhandles : (m.handles.map (·.1)).Nodup :=
        (List.nodup_append.1 (List.nodup_append.1 hkeyed).2.1).2.1
      have hsame := List.inj_on_of_nodup_map hhandles hkey' (mem_of_lookup handle) rfl
      have hid : c.id = hd.id := congrArg (·.2.id) hsame
      exact World.checkIn_not_mem (D.observed .pool) howned.roster hid hc
    simpa using hne
  | use _ _ _ => exact h
  | reconfigure change =>
    intro c hc
    have hnone := (emptied_invalidateAll (D.observed .pool)
      (m.onWorld (·.onPool (·.apply change)))).wrappers
    exact absurd (List.mem_append_left _ hc) (hnone ▸ List.not_mem_nil)
  | @closesAll _ _ m₁ alike =>
    intro c hc
    have hnone := (emptied_invalidateAll (D.observed .pool) m₁).wrappers
    exact absurd (List.mem_append_left _ hc) (hnone ▸ List.not_mem_nil)

/-- What an event does to the active list it does before the pool is closed in case nobody refers to it
    any more. -/
theorem observe_held (D : Drivers σ) {os : List Outcome} {m : Machine (Observed σ)} (e : Event σ)
    (howned : Owned os m) (hkeyed : m.Keyed) (h : m.Held) : (m.observe D e).2.Held := by
  unfold observe stepAs
  split
  case isFalse => exact h
  case isTrue => exact ((react_deed D m e).held howned hkeyed h).settle (D.observed .pool)

section Runs

variable (D : Drivers σ) (source : Source) (config : PoolConfig) (s : σ)

theorem keyed_reached (es : List (Event σ)) : (reached D source config s es).Keyed :=
  observeAll_rule D source config s es (J := fun _ m => m.Keyed) List.nodup_nil
    fun _ _ e _ h => stepAs_keyed _ _ e.observed h

theorem held_reached (es : List (Event σ)) : (reached D source config s es).Held := by
  induction es using List.reverseRecOn with
  | nil => exact nofun
  | append_singleton es e ih =>
    rw [reached_concat]
    exact observe_held D e (owned_reached D source config s es) (keyed_reached D source config s es) ih

end Runs

end Machine

end ConnPool
