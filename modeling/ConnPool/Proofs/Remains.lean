/-
  What an acquisition that fails leaves behind.

  The error of a pass can come after any number of bad candidates: from the idle list, from the drivers,
  and one that was reclaimed.  Whatever came before it, the pool is then what it was without them.  The
  idle list has lost a part of its front and the active list its first connection at most, and all that
  they have lost is invalid and closed, as is every connection that was opened on the way.

  That this is exact follows from what is known of the pool at any time.  The wrappers of the two lists
  are the valid ones (`Roster`), and their connections are those that were opened and not closed
  (`Accounts`); so what is not on a list any more is invalid, and closed (`Discards`).  That nothing else
  was touched needs one more look at the pass (`tryOut_spares`): what it has in hand it has taken off the
  lists, so it says nothing to a connection that is still there when it is over.

  `failure_leaves_intact` says this of every pass that fails, and of those that are refused since the pool
  is shut down, which do nothing.
-/
import ConnPool.Proofs.Atomicity
import ConnPool.Proofs.Wakeup

namespace ConnPool

variable {σ τ : Type}

/-! ## What is not spoken to -/

/-- What both allow is allowed. -/
theorem Continues.and {Q Q' : List Exchange → Exchange → Prop} {a b : List Exchange}
    (h : Continues Q a b) (h' : Continues Q' a b) :
    Continues (fun log x => Q log x ∧ Q' log x) a b := by
  induction h with
  | refl => exact Continues.refl a
  | tail hbefore hx ih =>
    obtain ⟨_, hq, rfl⟩ := hx
    have hlast := h'.allows (Continues.isPrefix hbefore) (List.prefix_refl _)
    -- both went on to the same log, so they end with the same exchange
    rcases Relation.ReflTransGen.cases_tail h' with he | ⟨log, hlog, y, -, he⟩
    · have hlength := (Continues.isPrefix hbefore).length_le
      rw [← he, List.length_append, List.length_singleton] at hlength
      omega
    · obtain ⟨rfl, -⟩ := List.append_inj' he rfl
      exact (ih hlog).trans (Continues.one ⟨hq, hlast⟩)

/-- The log went on without a word to the connections of the wrappers. -/
abbrev Sparing (l : List Wrapper) : List Exchange → List Exchange → Prop :=
  Continues fun _ x => ∀ c ∈ l, x.conn ≠ c.conn

theorem Sparing.subset {l l' : List Wrapper} {a b : List Exchange} (h : Sparing l a b) (hl : l' ⊆ l) :
    Sparing l' a b :=
  h.mono fun _ _ hx c hc => hx c (hl hc)

/-- Calls on a connection that is in hand spare those on the lists. -/
theorem Attends.sparing {conn : Conn} {l : List Wrapper} {a b : List Exchange}
    (h : Attends conn a b) (hl : ∀ c ∈ l, c.conn ≠ conn) : Sparing l a b :=
  h.mono fun _ _ hx c hc he => hl c hc (he.symm.trans hx.conn_eq)

namespace World

variable {D : Drivers σ} {w w₁ w₂ : World (Observed σ)} {who : Credentials} {c : Wrapper}

/-- To open a connection spares all that the pool has. -/
theorem newConnection_spares (D : Drivers σ) (who : Credentials)
    (hroster : w.pool.Roster w.pool.wrappers) : Sparing w.pool.wrappers w.drivers.log
      (w.pool.source.newConnection (D.observed .pool) who w.nextConn w.drivers).2.log := by
  refine (w.pool.source.newConnection_says D who w.nextConn w.drivers).mono fun _ x hx c hc he => ?_
  have hconn : x.conn = w.nextConn := by
    rcases hx with ⟨answer, rfl⟩ | haddresses
    · rfl
    · exact haddresses.conn_eq
  -- the ticket of the new connection was never used before
  have hbelow := hroster.ticketsBelow c hc
  rw [← he, hconn] at hbelow
  exact Nat.lt_irrefl _ hbelow

/-- What is pruned has no more wrappers than before. -/
theorem wrappers_of_pruned {p p' : Pool} (h : p.Pruned p') : p'.wrappers ⊆ p.wrappers :=
  List.append_subset.2 ⟨fun _ hc => List.mem_append_left _ (h.active.subset hc),
    fun _ hc => List.mem_append_right _ (h.idle.subset hc)⟩

/-- A search spares what it leaves on the lists. -/
theorem found_spares (hroster : w.pool.Roster w.pool.wrappers)
    (ht : w.takeCandidate (D.observed .pool) who = (.found c, w₁)) :
    Sparing w₁.pool.wrappers w.drivers.log w₁.drivers.log := by
  rcases takeCandidate_found (D.observed .pool) ht with ⟨rest, hi, rfl⟩ | ⟨hi, hlt, rfl, s, hs, rfl⟩ |
    ⟨hi, oldest, rest, ha, hle, hover, rfl, rfl⟩
  · exact Continues.refl _
  · have hopens := newConnection_spares D who hroster
    rw [hs] at hopens
    exact hopens
  · refine (D.attends_rollbackIfManual oldest.conn w.drivers).sparing fun d hd he => ?_
    have hconns := hroster.conns
    rw [Pool.wrappers, ha, List.cons_append, List.map_cons] at hconns
    exact (List.nodup_cons.1 hconns).1 (he ▸ List.mem_map_of_mem hd)

theorem failed_spares {e : PoolError} (hroster : w.pool.Roster w.pool.wrappers)
    (ht : w.takeCandidate (D.observed .pool) who = (.failed e, w₁)) :
    Sparing w₁.pool.wrappers w.drivers.log w₁.drivers.log := by
  rcases takeCandidate_failed (D.observed .pool) ht with ⟨hi, hlt, cause, s, hs, rfl, rfl⟩ |
    ⟨hi, ha, hz, -, rfl⟩
  · have hopens := newConnection_spares D who hroster
    rw [hs] at hopens
    exact hopens
  · exact Continues.refl _

/-- A candidate that is tried out and thrown away is on no list. -/
theorem rejected_spares (hroster : w₁.pool.Roster (c :: w₁.pool.wrappers))
    (hg : w₁.isGood (D.observed .pool) c = (false, w₂)) :
    Sparing w₁.pool.wrappers w₁.drivers.log (w₂.reject (D.observed .pool) c).drivers.log := by
  have hconns := hroster.conns
  rw [List.map_cons, List.nodup_cons] at hconns
  have hattends : Attends c.conn w₁.drivers.log (w₂.reject (D.observed .pool) c).drivers.log :=
    (isGood_attends D hg).trans (D.attends_giveUp c.conn w₂.drivers)
  exact hattends.sparing fun d hd he => hconns.1 (he ▸ List.mem_map_of_mem hd)

/-- **A pass that hands nothing out spares what it leaves on the lists.** -/
theorem tryOut_spares (D : Drivers σ) (who : Credentials) (startedAt : Instant) (budget r : Nat)
    (hroster : w.pool.Roster w.pool.wrappers) :
    match (w.tryOut (D.observed .pool) who startedAt budget r).1 with
    | .handedOut _ => True
    | _ => Sparing (w.tryOut (D.observed .pool) who startedAt budget r).2.pool.wrappers
      w.drivers.log (w.tryOut (D.observed .pool) who startedAt budget r).2.drivers.log := by
  have hrounds := (roster_ledger (D.observed .pool)).rounds
  -- the roster comes along, since it tells the candidate in hand from what is on the lists
  refine tryOut_rule (D.observed .pool)
    (I := fun _ w₁ => w₁.pool.Roster w₁.pool.wrappers ∧
      Sparing w₁.pool.wrappers w.drivers.log w₁.drivers.log)
    (Q := fun e w' => match e with
      | .handedOut _ => True
      | _ => Sparing w'.pool.wrappers w.drivers.log w'.drivers.log) ?_ ?_ ?_ ?_ ?_ ?_ budget r w
    ⟨hroster, Continues.refl _⟩
  · rintro r w₁ e w' ⟨hr, hlog⟩ ht
    have hfewer := wrappers_of_pruned (takeCandidate_failed_pruned _ ht)
    exact (hlog.subset hfewer).trans (failed_spares hr ht)
  · rintro r w₁ w' ⟨-, hlog⟩ ht
    rw [(takeCandidate_mustWait _ ht).1]
    exact hlog
  · intro r w₁ c w₂ w₃ _ _ _
    trivial
  · rintro r w₁ c w₂ w₃ ⟨hr, hlog⟩ ht hg
    have hpool := pool_of_isGood _ hg
    have hfound := hrounds.takeCandidate_found ht hr
    have hbad := hrounds.bad hg hfound
    have hfewer := wrappers_of_pruned (takeCandidate_found_pruned _ ht).1
    have hlists : (w₃.reject (D.observed .pool) c).pool.wrappers = w₂.pool.wrappers := by
      rw [reject_pool, hpool]
      rfl
    refine ⟨by rwa [hlists], ?_⟩
    rw [hlists]
    exact ((hlog.subset hfewer).trans (found_spares hr ht)).trans (rejected_spares hfound hg)
  · exact fun h => h.2
  · exact fun h => h.2

/-! ## What is closed -/

/-- **What a pass throws away is closed.** -/
theorem closed_of_rejects (D : Drivers σ) (who : Credentials) (startedAt : Instant) :
    ∀ (budget r : Nat) (w : World (Observed σ)), w.pool.Fits →
      ∀ c ∈ w.rejects (D.observed .pool) who budget, c.conn ∈
        closedIn (w.tryOut (D.observed .pool) who startedAt budget r).2.drivers.log := by
  have hgivenUp : ∀ (c : Wrapper) (w : World (Observed σ)),
      c.conn ∈ closedIn (w.reject (D.observed .pool) c).drivers.log := fun c w =>
    ((D.closes_giveUp c.conn w.drivers).mem_closedIn_iff c.conn).2 (Or.inl rfl)
  refine rejects_rule (D.observed .pool) (G := fun _ _ w rejected end_ =>
    w.pool.Fits → ∀ c ∈ rejected, c.conn ∈ closedIn end_.2.drivers.log) ?_ ?_ ?_ ?_ ?_ ?_
  · exact fun _ _ _ hc => nomatch hc
  · exact fun _ _ _ hc => nomatch hc
  · exact fun _ _ _ _ hc => nomatch hc
  · intro r w c w₁ w₂ ht hg _ hfits d hd
    rw [List.mem_singleton.1 hd]
    exact hgivenUp c w₂
  · intro budget r w c w₁ w₂ ht hg _ hfits d hd
    rw [List.mem_singleton.1 hd]
    exact hgivenUp c w₂
  · intro budget r w c w₁ w₂ ht hg _ hlater hfits d hd
    have hroomy := (roomy_of_found hfits ht).rejected hg
    rcases List.mem_cons.1 hd with rfl | hd
    · -- closed once, it stays so, whatever the pass goes on with
      obtain ⟨rest, hrest⟩ := ((w₂.reject (D.observed .pool) d).tryOut_conduct D who hroomy.fits
        startedAt budget (r + 1)).log.isPrefix
      rw [← hrest, closedIn_append]
      exact List.mem_append_left _ (hgivenUp d w₂)
    · exact hlater hroomy.fits d hd

/-! ## What is left -/

/-- What a pass on `w` leaves that hands nothing out: it has taken the first part from the active list,
    and the second has been lost from the idle list. -/
structure Discards (w w' : World (Observed σ)) (taken lost : List Wrapper) : Prop where
  active : w.pool.active = taken ++ w'.pool.active
  idle : w.pool.idle = lost ++ w'.pool.idle
  /-- One connection is taken at most: the first, if it was overdue and nothing else could be had. -/
  reclaimed : taken = [] ∨ ∃ c, taken = [c] ∧ w.Reclaims c
  /-- What was removed is invalid, and nothing else is. -/
  valid : ∀ id, id ∈ w'.pool.valid ↔ id ∈ w.pool.valid ∧ id ∉ (taken ++ lost).map (·.id)
  /-- What was removed was not closed, and is closed now. -/
  closed : ∀ c ∈ taken ++ lost,
    c.conn ∉ closedIn w.drivers.log ∧ c.conn ∈ closedIn w'.drivers.log
  /-- What was opened is closed again. -/
  opened : ∀ conn ∈ openedIn w'.drivers.log, conn ∉ openedIn w.drivers.log →
    conn ∈ closedIn w'.drivers.log
  /-- No other connection was called. -/
  calls : Continues (fun _ x => (∃ c ∈ taken ++ lost, x.conn = c.conn) ∨
    x.conn.driver = w.pool.source.driver ∧ w.pool.nextTicket ≤ x.conn.ticket)
    w.drivers.log w'.drivers.log
  terms : w.pool.SameTerms w'.pool
  now : w'.now = w.now

variable {w' : World (Observed σ)} {taken lost : List Wrapper}

/-- What is on the lists was removed from them, or still is on them. -/
theorem wrappers_perm (hactive : w.pool.active = taken ++ w'.pool.active)
    (hidle : w.pool.idle = lost ++ w'.pool.idle) :
    w.pool.wrappers.Perm (taken ++ lost ++ w'.pool.wrappers) := by
  rw [Pool.wrappers, hactive, hidle, Pool.wrappers, List.append_assoc, List.append_assoc]
  refine List.Perm.append_left taken ?_
  rw [← List.append_assoc, ← List.append_assoc]
  exact List.perm_append_comm.append_right _

/-- **What is on no list any more is invalid and closed**, and so is what came on none. -/
theorem gone_of_ledgers (hlists : w.pool.wrappers.Perm (taken ++ lost ++ w'.pool.wrappers))
    (hroster : w.pool.Roster w.pool.wrappers) (hroster' : w'.pool.Roster w'.pool.wrappers)
    (haccounts : w.Accounts w.pool.wrappers) (haccounts' : w'.Accounts w'.pool.wrappers)
    (hlog : w.drivers.log <+: w'.drivers.log) :
    (∀ id, id ∈ w'.pool.valid ↔ id ∈ w.pool.valid ∧ id ∉ (taken ++ lost).map (·.id)) ∧
    (∀ c ∈ taken ++ lost,
      c.conn ∉ closedIn w.drivers.log ∧ c.conn ∈ closedIn w'.drivers.log) ∧
    (∀ conn ∈ openedIn w'.drivers.log, conn ∉ openedIn w.drivers.log →
      conn ∈ closedIn w'.drivers.log) := by
  obtain ⟨later, hlater⟩ := hlog
  refine ⟨fun id => ?_, fun c hc => ?_, fun conn hopened hnew => ?_⟩
  -- the valid wrappers are those of the lists, before and after
  · have hids := (hlists.map (·.id)).nodup_iff.1 hroster.ids
    rw [List.map_append] at hids
    rw [hroster'.valid, hroster.valid, (hlists.map (·.id)).mem_iff, List.map_append, List.mem_append]
    constructor
    · exact fun hid => ⟨Or.inr hid, fun hremoved => (List.nodup_append.1 hids).2.2 id hremoved id hid rfl⟩
    · exact fun ⟨hid, hnot⟩ => hid.resolve_left hnot
  -- what was opened and is on no list any more was closed
  · have hmem : c ∈ w.pool.wrappers := hlists.mem_iff.2 (List.mem_append_left _ hc)
    have hconns := (hlists.map (·.conn)).nodup_iff.1 hroster.conns
    rw [List.map_append] at hconns
    have hgone : c.conn ∉ w'.pool.wrappers.map (·.conn) := fun hstays =>
      (List.nodup_append.1 hconns).2.2 _ (List.mem_map_of_mem hc) _ hstays rfl
    have hopened : c.conn ∈ openedIn w'.drivers.log := by
      rw [← hlater, openedIn_append]
      exact List.mem_append_left _ ((haccounts.places _).2 (Or.inl (List.mem_map_of_mem hmem)))
    exact ⟨haccounts.apart _ (List.mem_map_of_mem hmem),
      ((haccounts'.places _).1 hopened).resolve_left hgone⟩
  · refine ((haccounts'.places conn).1 hopened).resolve_left fun hstays => hnew ?_
    obtain ⟨c, hc, rfl⟩ := List.mem_map.1 hstays
    have hmem : c ∈ w.pool.wrappers := hlists.mem_iff.2 (List.mem_append_right _ hc)
    exact (haccounts.places _).2 (Or.inl (List.mem_map_of_mem hmem))

/-- What a pass says to the drivers it says to what it reaches; if that is not to what is still on the
    lists, it is to what was removed, or to what is new. -/
theorem calls_of_spares (hactive : w.pool.active = taken ++ w'.pool.active)
    (hidle : w.pool.idle = lost ++ w'.pool.idle)
    (hutters : Continues (fun _ x => w.Utters who x) w.drivers.log w'.drivers.log)
    (hspares : Sparing w'.pool.wrappers w.drivers.log w'.drivers.log) :
    Continues (fun _ x => (∃ c ∈ taken ++ lost, x.conn = c.conn) ∨
      x.conn.driver = w.pool.source.driver ∧ w.pool.nextTicket ≤ x.conn.ticket)
      w.drivers.log w'.drivers.log := by
  refine (hutters.and hspares).mono ?_
  rintro - x ⟨hx, hspared⟩
  rcases hx with ⟨conn, hreaches, haddresses⟩ | ⟨ticket, hticket, answer, rfl⟩
  · obtain rfl := haddresses.conn_eq
    rcases hreaches with ⟨c, hc, he⟩ | hnew | ⟨c, hreclaims, he⟩
    · rw [hidle] at hc
      rcases List.mem_append.1 hc with hlost | hstays
      · exact Or.inl ⟨c, List.mem_append_right _ hlost, he.symm⟩
      · exact absurd he.symm (hspared c (List.mem_append_right _ hstays))
    · exact Or.inr hnew
    · have hc : c ∈ w.pool.active := List.mem_of_mem_head? hreclaims.oldest
      rw [hactive] at hc
      rcases List.mem_append.1 hc with htaken | hstays
      · exact Or.inl ⟨c, List.mem_append_left _ htaken, he.symm⟩
      · exact absurd he.symm (hspared c (List.mem_append_left _ hstays))
  · exact Or.inr ⟨rfl, hticket⟩

/-- **A pass that hands nothing out** leaves the pool as it was but for what it has discarded, and counts
    that. -/
theorem tryOut_discards (D : Drivers σ) (who : Credentials) (startedAt : Instant) (budget r : Nat)
    (hfits : w.pool.Fits) (hroster : w.pool.Roster w.pool.wrappers)
    (haccounts : w.Accounts w.pool.wrappers) {end_ : PassEnd} (hnot : ∀ h, end_ ≠ .handedOut h)
    (hend : w.tryOut (D.observed .pool) who startedAt budget r = (end_, w')) :
    ∃ taken lost, Discards w w' taken lost ∧ w'.pool.counters = w.pool.counters +
      (tallyOfReclaims w.now taken +
        tallyOfBad (w.rejects (D.observed .pool) who budget).length) := by
  have hconduct := w.tryOut_conduct D who hfits startedAt budget r
  have hterms := w.tryOut_sameTerms (D.observed .pool) who startedAt budget r
  have hspares := tryOut_spares D who startedAt budget r hroster
  have hroster' := (roster_ledger (D.observed .pool)).rounds.tryOut who startedAt budget r hroster
  have haccounts' := (accounts_ledger D).rounds.tryOut who startedAt budget r haccounts
  obtain ⟨taken, rest, htally⟩ := w.tryOut_tally (D.observed .pool) who startedAt budget r
  rw [hend] at hconduct hterms hspares hroster' haccounts' htally
  have hactive : w.pool.active = taken ++ w'.pool.active := by
    rw [htally.otherwise hnot]
    exact htally.before
  obtain ⟨hspared, hnothing⟩ : Sparing w'.pool.wrappers w.drivers.log w'.drivers.log ∧
      tallyOfEnd w.now startedAt end_ = {} := by
    cases end_ with
    | handedOut h => exact absurd rfl (hnot h)
    | _ => exact ⟨hspares, rfl⟩
  obtain ⟨lost, hidle⟩ : ∃ lost, w.pool.idle = lost ++ w'.pool.idle :=
    (pruned_of_tryOut hend hnot).idle.imp fun _ he => he.symm
  have hreclaimed : taken = [] ∨ ∃ c, taken = [c] ∧ w.Reclaims c := by
    have hnodup := hroster.active_nodup
    rw [hactive] at hnodup
    -- the pass keeps what its first search would not reclaim, and this it has not kept
    refine at_most_one_reclaimed (List.nodup_append.1 hnodup).1 fun c hc => ?_
    by_contra hstays
    have hmem := hconduct.keeps c (by rw [hactive]; exact List.mem_append_left _ hc) hstays
    exact (List.nodup_append.1 hnodup).2.2 c hc c hmem rfl
  obtain ⟨hvalid, hclosed, hopened⟩ := gone_of_ledgers (wrappers_perm hactive hidle) hroster hroster'
    haccounts haccounts' hconduct.log.isPrefix
  have hcounters := htally.counters
  rw [hnothing] at hcounters
  exact ⟨taken, lost, ⟨hactive, hidle, hreclaimed, hvalid, hclosed, hopened,
    calls_of_spares hactive hidle hconduct.log hspared, hterms, hconduct.now⟩, hcounters⟩

/-- What was counted before does not matter to what is discarded. -/
theorem Discards.of_counting {k : Counters} (h : Discards (w.counting k) w' taken lost) :
    Discards w w' taken lost := by
  have hreclaimed : taken = [] ∨ ∃ c, taken = [c] ∧ w.Reclaims c := by
    rcases h.reclaimed with htaken | ⟨c, htaken, hc⟩
    · exact Or.inl htaken
    · exact Or.inr ⟨c, htaken, (reclaims_counting k).1 hc⟩
  have hterms : w.pool.SameTerms w'.pool :=
    ⟨h.terms.source, h.terms.config, h.terms.expected, h.terms.closed, h.terms.nextWrapper⟩
  exact ⟨h.active, h.idle, hreclaimed, h.valid, h.closed, h.opened, h.calls, hterms, h.now⟩

end World

/-! ## Every failure -/

namespace Machine

variable {D : Drivers σ} {m m₀ : Machine (Observed σ)} {e : Event σ} {key : Key} {a : Acquisition}

/-- Only a pool that is shut down refuses because it is. -/
theorem closed_of_refused (hpass : m.pass? e = some (m₀, key, a))
    (hout : (m.observe D e).1 = .refused .closed ∨ (m.observe D e).1 = .refused .cancelled) :
    m.world.pool.closed = true := by
  by_contra hnot
  rw [(observe_of_open hpass (Bool.eq_false_iff.2 hnot)).1, PassEnd.outcome_eq_refused,
    PassEnd.outcome_eq_refused] at hout
  -- the searches of an open pool fail for other reasons
  have hcases := m₀.world.tryOut_failed_cases (D.observed .pool) a.who a.startedAt
    (m.world.pool.config.badBudget - a.rejected) a.rejected
  rcases hout with hout | hout
  all_goals
    rcases hcases _ hout with ⟨cause, he⟩ | ⟨n, he⟩ | ⟨detail, he⟩ <;> cases he

/-- What a failed acquisition leaves, that has taken the first part from the active list and the second
    from the idle list. -/
structure LeavesBehind (D : Drivers σ) (m : Machine (Observed σ)) (e : Event σ) (key : Key)
    (after : Machine (Observed σ)) (taken lost : List Wrapper) : Prop where
  /-- The handles that are out and whoever waits are the same, but for the acquisition itself. -/
  others : after = { m with world := after.world, waiters := without key m.waiters }
  world : World.Discards m.world after.world taken lost
  /-- What is not counted here is counted as before. -/
  counters : after.world.pool.counters = m.world.pool.counters + {
    badConnections := (m.rejectedBy D e).length
    claimedOverdue := taken.length
    overdueCheckoutTime := .total (agesOf m.world.now taken)
    checkoutTime := .total (agesOf m.world.now taken)
    waitTime := .total (m.slicesBy e) }
  /-- Whatever it has rejected is closed, also what was on no list. -/
  rejected : ∀ c ∈ m.rejectedBy D e, c.conn ∈ closedIn after.world.drivers.log

/-- What is left, `after`, when the acquisition under a key fails. -/
structure LeavesIntact (D : Drivers σ) (m : Machine (Observed σ)) (e : Event σ) (key : Key)
    (after : Machine (Observed σ)) : Prop where
  /-- If nobody refers to the pool any more it comes to its end then. -/
  event : (m.observe D e).2 = after.settle (D.observed .pool)
  failed : (∃ err, (m.observe D e).1 = .refused (.connection err)) ∨
      (∃ n, (m.observe D e).1 = .refused (.exhausted n)) →
    ∃ taken lost, LeavesBehind D m e key after taken lost
  /-- A pool that is shut down does nothing, and asks no driver anything. -/
  refused : (m.observe D e).1 = .refused .closed ∨ (m.observe D e).1 = .refused .cancelled →
    after = { m with
      world := m.world.counting { waitTime := .total (m.slicesBy e) }
      waiters := without key m.waiters }

/-- An acquisition that is refused by an open pool leaves nothing behind but what it has discarded. -/
theorem leavesBehind_of_refused (hroster : m.world.pool.Roster m.world.pool.wrappers)
    (haccounts : m.world.Accounts m.world.pool.wrappers) (hfits : m.world.pool.Fits)
    (hpass : m.pass? e = some (m₀, key, a)) (hopen : m.world.pool.closed = false) {err : PoolError}
    (hout : (m.observe D e).1 = .refused err) :
    ∃ taken lost, LeavesBehind D m e key (m₀.pass (D.observed .pool) key a).2 taken lost := by
  obtain ⟨hend, hrejected, -⟩ := observe_of_open (D := D) hpass hopen
  -- the pass begins with the world of before, but for the slice that was counted
  have hmachine := eq_of_pass? hpass
  have hworld : m₀.world = m.world.counting { waitTime := .total (m.slicesBy e) } := by rw [hmachine]
  have hbudget : m.world.pool.config.badBudget = m₀.world.pool.config.badBudget := by
    rw [hworld]
    rfl
  have hopen₀ : m₀.world.pool.closed = false := by rwa [hworld]
  have hroster₀ : m₀.world.pool.Roster m₀.world.pool.wrappers := by
    rw [hworld]
    exact hroster.congr rfl rfl rfl (Nat.le_refl _)
  have haccounts₀ : m₀.world.Accounts m₀.world.pool.wrappers := by
    rw [hworld]
    exact haccounts
  rw [hbudget] at hend hrejected
  have hclosed := World.closed_of_rejects D a.who a.startedAt (m₀.world.pool.config.badBudget - a.rejected)
    a.rejected m₀.world (fits_of_pass? hfits hpass)
  rw [← hrejected] at hclosed
  -- and it has failed, so it has handed nothing out
  rcases ht : m₀.world.tryOut (D.observed .pool) a.who a.startedAt
    (m₀.world.pool.config.badBudget - a.rejected) a.rejected with ⟨end_, w'⟩
  rw [hout, ht] at hend
  rw [ht] at hclosed
  obtain rfl := PassEnd.outcome_eq_refused.1 hend.symm
  have hnot : ∀ h, PassEnd.failed err ≠ .handedOut h := fun _ => nofun
  obtain ⟨taken, lost, hdiscards, hcounters⟩ := World.tryOut_discards D a.who a.startedAt
    (m₀.world.pool.config.badBudget - a.rejected) a.rejected (fits_of_pass? hfits hpass) hroster₀
    haccounts₀ hnot ht
  rw [hworld] at hdiscards
  rw [pass_of_failed _ hopen₀ ht]
  refine ⟨taken, lost, ?_, hdiscards.of_counting, ?_, hclosed⟩
  · rw [hmachine]
  · rw [← hrejected, hworld] at hcounters
    calc w'.pool.counters
        = m.world.pool.counters + { waitTime := .total (m.slicesBy e) } +
            (tallyOfReclaims m.world.now taken + tallyOfBad (m.rejectedBy D e).length) := hcounters
      _ = _ := by
        rw [Counters.add_assoc]
        simp [Counters.add_def, tallyOfReclaims, tallyOfBad]

/-- **An acquisition that fails leaves the pool intact**, up to what it has discarded. -/
theorem failure_leaves_intact (D : Drivers σ) (source : Source) (config : PoolConfig) (s : σ)
    (es : List (Event σ)) {e : Event σ} {m₀ : Machine (Observed σ)} {key : Key} {a : Acquisition}
    (hpass : (reached D source config s es).pass? e = some (m₀, key, a)) :
    LeavesIntact D (reached D source config s es) e key (m₀.pass (D.observed .pool) key a).2 := by
  have hroster := (owned_reached D source config s es).roster
  have haccounts := accounts_reached D source config s es
  have hfits := fits_reached D source config s es
  generalize reached D source config s es = m at hpass hroster haccounts hfits ⊢
  constructor
  case event => rw [observe_of_pass? D hpass]
  case failed =>
    intro hout
    have hopen : m.world.pool.closed = false := by
      rw [Bool.eq_false_iff]
      intro hclosed
      rw [(observe_of_shut hpass hclosed).1] at hout
      rcases hout with ⟨err, hout⟩ | ⟨n, hout⟩
      all_goals
        split at hout <;> nomatch hout
    rcases hout with ⟨err, hout⟩ | ⟨n, hout⟩
    · exact leavesBehind_of_refused hroster haccounts hfits hpass hopen hout
    · exact leavesBehind_of_refused hroster haccounts hfits hpass hopen hout
  case refused =>
    intro hout
    have hclosed := closed_of_refused hpass hout
    have hclosed₀ : m₀.world.pool.closed = true := by
      rw [eq_of_pass? hpass]
      exact hclosed
    simp only [pass, hclosed₀, if_true]
    exact eq_of_pass? hpass

/-- One takes an overdue connection from its holder, finds it bad and gives up. -/
theorem failure_leaves_intact_stranding :
    ((reached Bank.drivers target narrow [.scripted {}] stranding.dropLast).observe Bank.drivers
      (.acquire 2 none)).1 = .refused (.exhausted 1) ∧
    ∃ after, LeavesIntact Bank.drivers (reached Bank.drivers target narrow [.scripted {}]
      stranding.dropLast) (.acquire 2 none) 2 after := by
  have hadmits : (reached Bank.drivers target narrow [.scripted {}] stranding.dropLast).admits
      (.acquire 2 none) = true := by
    decide +kernel
  exact ⟨by decide +kernel, _, failure_leaves_intact Bank.drivers target narrow [.scripted {}]
    stranding.dropLast (pass?_acquire hadmits)⟩

end Machine

end ConnPool
