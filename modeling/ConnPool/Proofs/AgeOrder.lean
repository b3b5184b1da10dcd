/-
  The lists are in the order of age.

  A search takes the first of the idle list, and when it looks for an overdue connection it looks at the
  first of the active list only.  Both are right since either list is in the order in which its wrappers
  were stamped, and the stamp of a wrapper is the time at which it joined the list: the active list is in
  the order of the checkouts, and the idle list in the order of the returns.

  The order is kept since wrappers join at the end, stamped with the time of the event, and leave from
  anywhere.  That stamps tell when the wrappers joined is `listed_of_active` and `listed_of_idle`.  So
  the first of the active list has been out for longest, and what is taken from the idle list has been
  idle for at least as long as what is left there (`lists_in_order_of_age`).
-/
import ConnPool.Proofs.Atomicity
import ConnPool.Proofs.Stamps

namespace ConnPool

variable {σ : Type}

/-- What began earlier has lasted longer. -/
theorem Duration.sub_le_sub_left {a b : Duration} (h : a ≤ b) (now : Instant) : now - b ≤ now - a := by
  rw [le_iff, nanos_sub, nanos_sub]
  rw [le_iff] at h
  omega

namespace InOrder

variable {now : Instant} {front back : List Wrapper} {c d : Wrapper}

/-- The first was stamped first. -/
theorem first_le (h : InOrder now (c :: back)) (hd : d ∈ c :: back) :
    c.checkoutAt ≤ d.checkoutAt := by
  rcases List.mem_cons.1 hd with rfl | hd
  · exact Nat.le_refl _
  · exact (List.pairwise_cons.1 h.sorted).1 d hd

/-- What leaves from the front was stamped before what is left. -/
theorem front_le (h : InOrder now (front ++ back)) (hc : c ∈ front) (hd : d ∈ back) :
    c.checkoutAt ≤ d.checkoutAt :=
  (List.pairwise_append.1 h.sorted).2.2 c hc d hd

/-- If somebody is overdue, the first is. -/
theorem first_overdue {l : List Wrapper} {limit : Duration} (h : InOrder now l) (hc : c ∈ l)
    (hover : limit < now - c.checkoutAt) :
    ∃ oldest rest, l = oldest :: rest ∧ limit < now - oldest.checkoutAt := by
  rcases l with _ | ⟨oldest, rest⟩
  · nomatch hc
  · exact ⟨oldest, rest, rfl, by_contra fun hnot => h.none_overdue hnot c hc hover⟩

end InOrder

namespace World

/-- A pass takes from the front of the idle list. -/
theorem tryOut_idle (P : Drivers σ) (who : Credentials) (startedAt : Instant) (budget r : Nat)
    (w : World σ) : (w.tryOut P who startedAt budget r).2.pool.idle <:+ w.pool.idle := by
  have hpass := w.tryOut_pruned P who startedAt budget r
  split at hpass
  · exact hpass.idle
  · exact hpass.idle

/-- **The idle list stays in order**, whatever happens to the pool. -/
theorem idleInOrder_kept (P H : Drivers σ) : Kept P H fun w => InOrder w.now w.pool.idle where
  count _ h := h
  tryOut {w} who startedAt budget r h := by
    rw [tryOut_now]
    exact h.sublist (w.tryOut_idle P who startedAt budget r).sublist
  checkIn {w} id h := by
    rw [checkIn_now]
    rcases w.idle_of_checkIn P id with e | ⟨c, -, -, -, e⟩
    · rw [e]
      exact h
    · rw [e]
      exact h.concat rfl
  invalidateAll {w} _ := by
    rw [invalidateAll_pool]
    exact InOrder.nil _
  reconfigure {w} change _ := by
    rw [reconfigure, invalidateAll_pool]
    exact InOrder.nil _
  tolerate _ h := h
  shut h := h
  advance {w} d h := h.later (Nat.le_add_right _ _)
  call _ _ h := h

end World

namespace Machine

section Runs

variable (D : Drivers σ) (source : Source) (config : PoolConfig) (s : σ)

theorem idleInOrder_reached (es : List (Event σ)) : InOrder (reached D source config s es).world.now
    (reached D source config s es).world.pool.idle :=
  observeAll_rule D source config s es (J := fun _ m => InOrder m.world.now m.world.pool.idle)
    (InOrder.nil _) fun _ m e _ h =>
      observe_kept (World.idleInOrder_kept _ _) (fun _ _ hw => hw) m e h

variable {D source config s} {es : List (Event σ)} {e : Event σ}

theorem mem_active_of_reclaimed {m : Machine (Observed σ)} {c : Wrapper}
    (hc : c ∈ m.reclaimedBy D e) : c ∈ m.world.pool.active := by
  unfold reclaimedBy at hc
  split at hc
  · exact List.mem_of_mem_filter hc
  · nomatch hc

/-- What a pass reclaims was checked out before all that is out. -/
theorem reclaimed_first {c d : Wrapper} (hc : c ∈ (reached D source config s es).reclaimedBy D e)
    (hd : d ∈ (reached D source config s es).world.pool.active) : c.checkoutAt ≤ d.checkoutAt := by
  rcases hpass : (reached D source config s es).pass? e with _ | ⟨m₀, key, a⟩
  · simp only [reclaimedBy, hpass] at hc
    exact absurd hc List.not_mem_nil
  · have hreclaims := reclaims_of_mem (owned_reached D source config s es)
      (keyed_reached D source config s es) (held_reached D source config s es)
      (fits_reached D source config s es) hpass hc
    obtain ⟨rest, hactive⟩ := List.head?_eq_some_iff.1 hreclaims.oldest
    have horder := inOrder_reached D source config s es
    rw [hactive] at horder hd
    exact horder.first_le hd

/-- What is served from the idle list came back before all that is left there. -/
theorem served_first {h : Handle} {c d : Wrapper}
    (hout : ((reached D source config s es).observe D e).1 = .acquired h)
    (hc : c ∈ (reached D source config s es).world.pool.idle) (hconn : c.conn = h.conn)
    (hd : d ∈ ((reached D source config s es).observe D e).2.world.pool.idle) :
    c.checkoutAt ≤ d.checkoutAt := by
  have hpool := handsOut_of_acquired D hout
  obtain ⟨front, hidle⟩ := hpool.idle
  have horder := idleInOrder_reached D source config s es
  rw [← hidle] at hc horder
  rcases List.mem_append.1 hc with hc | hc
  · exact horder.front_le hc hd
  · -- what is handed out is out, so it is not left on the idle list
    obtain ⟨rest, c', hactive, -, rfl, -⟩ := hpool.active
    have howned := owned_reached D source config s (es ++ [e])
    rw [reached_concat] at howned
    refine absurd hconn (World.conn_ne_of_idle howned.roster ?_ hc).symm
    rw [hactive]
    exact List.mem_append_right _ List.mem_cons_self

end Runs

/-! ## The order -/

section Runs

variable (D : Drivers σ) (source : Source) (config : PoolConfig) (s : σ)

/-- The order of the lists after the events `es`, and what comes of it in the next event. -/
structure OrderedByAge (es : List (Event σ)) : Prop where
  /-- What is out was handed out when its stamp says, and has been out ever since. -/
  out : ∀ c ∈ (reached D source config s es).world.pool.active, ∃ past e,
    ListedSince D source config s Pool.active past e es c ∧
    ((reached D source config s past).observe D e).1 = .acquired c.handle ∧
    c.checkoutAt = (reached D source config s past).world.now
  /-- The active list is in the order of the checkouts. -/
  active : (reached D source config s es).world.pool.active.Pairwise fun c d =>
    c.checkoutAt ≤ d.checkoutAt
  /-- What is idle was returned when its stamp says, and has been idle ever since. -/
  returned : ∀ c ∈ (reached D source config s es).world.pool.idle, ∃ past key h,
    ListedSince D source config s Pool.idle past (.release key) es c ∧
    (reached D source config s past).handle? key = some h ∧ h.conn = c.conn ∧
    c.checkoutAt = (reached D source config s past).world.now
  /-- The idle list is in the order of the returns. -/
  idle : (reached D source config s es).world.pool.idle.Pairwise fun c d =>
    c.checkoutAt ≤ d.checkoutAt
  /-- No stamp is later than now. -/
  past : ∀ c ∈ (reached D source config s es).world.pool.wrappers,
    c.checkoutAt ≤ (reached D source config s es).world.now
  /-- If anything is overdue, by whatever limit, the first of the active list is. -/
  overdue : ∀ limit, ∀ c ∈ (reached D source config s es).world.pool.active,
    limit < (reached D source config s es).world.now - c.checkoutAt →
    ∃ oldest rest, (reached D source config s es).world.pool.active = oldest :: rest ∧
      limit < (reached D source config s es).world.now - oldest.checkoutAt
  /-- What the next event reclaims has been out for longest. -/
  reclaims : ∀ e, ∀ c ∈ (reached D source config s es).reclaimedBy D e,
    c ∈ (reached D source config s es).world.pool.active ∧
    ∀ d ∈ (reached D source config s es).world.pool.active,
      (reached D source config s es).world.now - d.checkoutAt ≤
        (reached D source config s es).world.now - c.checkoutAt
  /-- What the next event serves from the idle list has been idle for as long as all that is left
      there, or for longer. -/
  serves : ∀ e h, ((reached D source config s es).observe D e).1 = .acquired h →
    ∀ c ∈ (reached D source config s es).world.pool.idle, c.conn = h.conn →
    ∀ d ∈ ((reached D source config s es).observe D e).2.world.pool.idle,
      d ∈ (reached D source config s es).world.pool.idle ∧
      (reached D source config s es).world.now - d.checkoutAt ≤
        (reached D source config s es).world.now - c.checkoutAt

/-- **The lists are in the order of age**, whatever happens to a pool. -/
theorem lists_in_order_of_age (es : List (Event σ)) : OrderedByAge D source config s es := by
  have hactive := inOrder_reached D source config s es
  have hidle := idleInOrder_reached D source config s es
  refine ⟨listed_of_active es, hactive.sorted, listed_of_idle es, hidle.sorted, ?past,
    fun limit c hc hover => hactive.first_overdue hc hover, ?reclaims, ?serves⟩
  case past =>
    intro c hc
    rcases List.mem_append.1 hc with hc | hc
    · exact hactive.past c hc
    · exact hidle.past c hc
  case reclaims =>
    intro e c hc
    refine ⟨mem_active_of_reclaimed hc, fun d hd => ?_⟩
    exact Duration.sub_le_sub_left (reclaimed_first hc hd) _
  case serves =>
    intro e h hout c hc hconn d hd
    refine ⟨(handsOut_of_acquired D hout).idle.subset hd, ?_⟩
    exact Duration.sub_le_sub_left (served_first hout hc hconn hd) _

end Runs

end Machine

end ConnPool
