/-
  The pool never looks at what it has counted.

  Counters are written and reported, and nothing else is done with them.  So a pool that had counted more
  from the beginning (`counting`) does the same, and ends with so much more on its counters: there is one
  lemma for each operation, in the order in which the operations use each other, and then for the
  machine.

  On the machine the same is said of those who wait: whoever waits does nothing by itself, and what the
  others do does not depend on who else waits, nor on who else holds the pool, but for its end.  `seen`
  is a machine without some of those who wait, with one more who holds the pool, and with more on its
  counters; `react_seen` says that an event does the same to it.
-/
import ConnPool.Proofs.Queue
import ConnPool.Proofs.Tally

namespace ConnPool

variable {τ : Type}

/-! ## Worlds -/

namespace World

/-- The world whose pool had counted so much before. -/
def counting (k : Counters) (w : World τ) : World τ :=
  w.onPool (·.count (· + k))

section Counting

variable (k : Counters) (D : Drivers τ) (w : World τ) (c : Wrapper)

/-- What is added to the counters may be added before or after. -/
theorem count_counting {f : Counters → Counters} (n : Counters) (hf : ∀ l, f l = l + n) :
    (w.counting k).onPool (·.count f) = (w.onPool (·.count f)).counting k := by
  have hcounters : f (w.pool.counters + k) = f w.pool.counters + k := by
    rw [hf, hf]
    ac_rfl
  show World.mk _ { w.pool with counters := f (w.pool.counters + k) } _ = _
  rw [hcounters]
  rfl

theorem isFit_counting :
    (w.counting k).isFit D c = ((w.isFit D c).1, (w.isFit D c).2.counting k) := by
  unfold isFit
  show (if w.pool.valid.contains c.id = true then _ else _) = _
  split <;> rfl

theorem reject_counting : (w.counting k).reject D c = (w.reject D c).counting k := by
  have h := count_counting k w (f := fun l => { l with badConnections := l.badConnections + 1 })
    { badConnections := 1 } fun _ => rfl
  unfold reject
  rw [h]
  rfl

theorem invalidateAll_counting : (w.counting k).invalidateAll D = (w.invalidateAll D).counting k := by
  have hfold : ∀ (l : List Wrapper) (w : World τ),
      l.foldl (discard D) (w.counting k) = (l.foldl (discard D) w).counting k := by
    intro l
    induction l with
    | nil => exact fun _ => rfl
    | cons c l ih => exact fun w => ih (w.discard D c)
  exact hfold _ (w.onPool fun p =>
    { p with active := [], idle := [], expected := p.source.identity })

/-! ### Passes -/

theorem openCandidate_counting (who : Credentials) : (w.counting k).openCandidate D who =
    ((w.openCandidate D who).1, (w.openCandidate D who).2.counting k) := by
  have hrun : ((w.counting k).onPool fun p => { p with nextTicket := p.nextTicket + 1 }).run
      (w.pool.source.newConnection D who w.nextConn) =
      (((w.onPool fun p => { p with nextTicket := p.nextTicket + 1 }).run
        (w.pool.source.newConnection D who w.nextConn)).1,
      ((w.onPool fun p => { p with nextTicket := p.nextTicket + 1 }).run
        (w.pool.source.newConnection D who w.nextConn)).2.counting k) := rfl
  unfold openCandidate
  dsimp only
  rw [show (w.counting k).pool.source = w.pool.source from rfl,
    show (w.counting k).pool.nextTicket = w.pool.nextTicket from rfl]
  rw [nextConn] at hrun
  rw [hrun]
  rcases (w.onPool fun p => { p with nextTicket := p.nextTicket + 1 }).run
    (w.pool.source.newConnection D who ⟨w.pool.source.driver, w.pool.nextTicket⟩) with ⟨r, w₁⟩
  cases r <;> rfl

theorem reclaim_counting : (w.counting k).reclaim D c =
    ((w.reclaim D c).1, (w.reclaim D c).2.counting k) := by
  have h := count_counting k w
    (f := fun l => { l with
      claimedOverdue := l.claimedOverdue + 1
      overdueCheckoutTime := l.overdueCheckoutTime + (w.now - c.checkoutAt)
      checkoutTime := l.checkoutTime + (w.now - c.checkoutAt) })
    (tallyOfReclaims w.now [c]) fun l => by
      simp only [tallyOfReclaims, agesOf, List.map_cons, List.map_nil, Duration.total_singleton]
      rfl
  unfold reclaim
  dsimp only
  rw [show (w.counting k).now = w.now from rfl, h]
  rfl

theorem takeCandidate_counting (who : Credentials) : (w.counting k).takeCandidate D who =
    ((w.takeCandidate D who).1, (w.takeCandidate D who).2.counting k) := by
  unfold takeCandidate
  rw [show (w.counting k).pool.idle = w.pool.idle from rfl,
    show (w.counting k).pool.active = w.pool.active from rfl,
    show (w.counting k).pool.config = w.pool.config from rfl,
    show (w.counting k).now = w.now from rfl, openCandidate_counting]
  cases w.pool.idle with
  | cons c rest => rfl
  | nil =>
    dsimp only
    split
    · rfl
    · cases w.pool.active with
      | nil => rfl
      | cons oldest rest =>
        dsimp only
        rw [show ((w.counting k).onPool fun p => { p with active := rest }) =
          (w.onPool fun p => { p with active := rest }).counting k from rfl, reclaim_counting]
        split <;> rfl

theorem isGood_counting : (w.counting k).isGood D c =
    ((w.isGood D c).1, (w.isGood D c).2.counting k) := by
  unfold isGood
  rw [isFit_counting]
  rcases w.isFit D c with ⟨fit, w₁⟩
  cases fit with
  | false => rfl
  | true =>
    dsimp only
    rw [show (w₁.counting k).run (D.rollbackIfManual c.conn) =
      ((w₁.run (D.rollbackIfManual c.conn)).1,
        (w₁.run (D.rollbackIfManual c.conn)).2.counting k) from rfl]
    rcases w₁.run (D.rollbackIfManual c.conn) with ⟨r, w₂⟩
    cases r <;> rfl

theorem handOut_counting (who : Credentials) (startedAt : Instant) :
    (w.counting k).handOut who startedAt c =
      ((w.handOut who startedAt c).1, (w.handOut who startedAt c).2.counting k) := by
  have h := count_counting k
    (w.onPool fun p => { p with active := p.active ++ [w.stamped who c] })
    (f := fun l => { l with
      requests := l.requests + 1
      requestTime := l.requestTime + (w.now - startedAt) })
    { requests := 1, requestTime := w.now - startedAt } fun _ => rfl
  exact Prod.ext rfl h

end Counting

theorem tryOut_counting (k : Counters) (D : Drivers τ) (who : Credentials) (startedAt : Instant) :
    ∀ (budget r : Nat) (w : World τ), (w.counting k).tryOut D who startedAt budget r =
      ((w.tryOut D who startedAt budget r).1, (w.tryOut D who startedAt budget r).2.counting k)
  | budget, r, w => by
    unfold tryOut
    rw [takeCandidate_counting]
    rcases w.takeCandidate D who with ⟨candidate, w₁⟩
    cases candidate with
    | failed e => rfl
    | mustWait => rfl
    | found c =>
      dsimp only
      rw [isGood_counting]
      rcases w₁.isGood D c with ⟨good, w₂⟩
      cases good with
      | true =>
        dsimp only
        rw [handOut_counting]
      | false =>
        dsimp only
        rw [reject_counting, show ((w₂.reject D c).counting k).pool.config =
          (w₂.reject D c).pool.config from rfl]
        split
        · cases budget with
          | zero => rfl
          | succ budget => exact tryOut_counting k D who startedAt budget (r + 1) (w₂.reject D c)
        · rfl

/-! ### Returns -/

section Counting

variable (k : Counters) (D : Drivers τ) (w : World τ) (c : Wrapper)

theorem keep_counting : (w.counting k).keep c = (w.keep c).counting k := rfl

theorem close_counting : (w.counting k).close D c = (w.close D c).counting k := rfl

theorem takeBack_counting : (w.counting k).takeBack D c = (w.takeBack D c).counting k := by
  unfold takeBack
  rw [isFit_counting]
  rcases w.isFit D c with ⟨fit, w₁⟩
  cases fit with
  | false => exact reject_counting k D w₁ c
  | true =>
    have h : (w₁.counting k).countedBack c = (w₁.countedBack c).counting k :=
      count_counting k w₁ { checkoutTime := w₁.now - c.checkoutAt } fun _ => rfl
    dsimp only
    rw [show ((w₁.counting k).onPool (·.count fun l =>
        { l with checkoutTime := l.checkoutTime + ((w₁.counting k).now - c.checkoutAt) })) =
      (w₁.countedBack c).counting k from h]
    rw [show (w₁.onPool (·.count fun l =>
        { l with checkoutTime := l.checkoutTime + (w₁.now - c.checkoutAt) })) =
      w₁.countedBack c from rfl]
    rw [show ((w₁.countedBack c).counting k).run (D.rollbackIfManual c.conn) =
      (((w₁.countedBack c).run (D.rollbackIfManual c.conn)).1,
        ((w₁.countedBack c).run (D.rollbackIfManual c.conn)).2.counting k) from rfl]
    rcases (w₁.countedBack c).run (D.rollbackIfManual c.conn) with ⟨r, w₂⟩
    cases r with
    | error e => exact close_counting k D w₂ c
    | ok u =>
      dsimp only
      rw [show (w₂.counting k).pool.keeps c = w₂.pool.keeps c from rfl]
      split
      · exact keep_counting k w₂ c
      · exact close_counting k D w₂ c

theorem checkIn_counting (id : Nat) :
    (w.counting k).checkIn D id = (w.checkIn D id).counting k := by
  unfold checkIn
  rw [show (w.counting k).pool.active = w.pool.active from rfl]
  cases w.pool.active.find? (fun c => c.id = id) with
  | none => exact count_counting k w { badConnections := 1 } fun _ => rfl
  | some c =>
    exact takeBack_counting k D (w.onPool fun p =>
      { p with active := p.active.eraseP fun c => c.id = id }) c

theorem reconfigure_counting (change : Change) :
    (w.counting k).reconfigure D change = (w.reconfigure D change).counting k := by
  have happly : (w.counting k).onPool (·.apply change) = (w.onPool (·.apply change)).counting k := by
    cases change <;> rfl
  unfold reconfigure
  rw [happly]
  exact invalidateAll_counting k D _

end Counting

end World

/-! ## Machines -/

/-- The key of who does something. -/
def Event.key? : Event τ → Option Key
  | .acquire key _ | .resume key | .abandon key | .release key | .use key _ | .shutDown key
  | .look key => some key
  | _ => none

/-- Whether only who holds the pool itself can do it. -/
def Event.needsHolder : Event τ → Bool
  | .acquire _ _ | .shutDown _ | .reconfigure _ | .setTolerance _ | .letGo => true
  | _ => false

namespace Machine

/-- The machine as it is without those who wait under some of the keys, with one more who holds the pool
    if it is `shared`, and with so much counted before. -/
def seen (hides : Key → Bool) (shared : Bool) (k : Counters) (m : Machine τ) : Machine τ :=
  { m with
    world := m.world.counting k
    waiters := m.waiters.filter (!hides ·.1)
    held := m.held || shared }

/-- The machine whose pool had counted so much before. -/
def counting (k : Counters) (m : Machine τ) : Machine τ :=
  m.onWorld (·.counting k)

/-- Nobody is left out, and nobody more holds the pool. -/
theorem seen_all (k : Counters) (m : Machine τ) : m.seen (fun _ => false) false k = m.counting k := by
  have hwaiters : m.waiters.filter (fun x => !(fun _ => false) x.1) = m.waiters :=
    List.filter_eq_self.2 fun _ _ => rfl
  simp only [seen, hwaiters, Bool.or_false]
  rfl

section Seen

variable {hides : Key → Bool} {shared : Bool} (k : Counters) (D : Drivers τ) (m : Machine τ) {key : Key}

theorem lookup_filter_key {α : Type} (hkey : hides key = false) : ∀ l : List (Key × α),
    (l.filter (!hides ·.1)).lookup key = l.lookup key
  | [] => rfl
  | x :: l => by
    by_cases hx : key = x.1
    · have hkeep : (!hides x.1) = true := by rw [← hx, hkey]; rfl
      rw [List.filter_cons_of_pos (p := fun x : Key × α => !hides x.1) hkeep, List.lookup_cons,
        List.lookup_cons, lookup_filter_key hkey l]
    · have hne : (key == x.1) = false := by simpa using hx
      have hskip : (x :: l).lookup key = l.lookup key := by rw [List.lookup_cons, hne]
      rw [hskip, ← lookup_filter_key hkey l, List.filter_cons]
      split
      · rw [List.lookup_cons, hne]
      · rfl

theorem without_filter {α : Type} (l : List (Key × α)) :
    without key (l.filter (!hides ·.1)) = (without key l).filter (!hides ·.1) := by
  simp only [without, List.filter_filter, Bool.and_comm]

theorem wakeAll_seen : (m.seen hides shared k).wakeAll = m.wakeAll.seen hides shared k := by
  simp only [wakeAll, seen, List.filter_map]
  rfl

theorem pass_seen (hkey : hides key = false) (a : Acquisition) :
    (m.seen hides shared k).pass D key a =
      ((m.pass D key a).1, (m.pass D key a).2.seen hides shared k) := by
  have htry := World.tryOut_counting k D a.who a.startedAt
    (m.world.pool.config.badBudget - a.rejected) a.rejected m.world
  rcases ht : m.world.tryOut D a.who a.startedAt (m.world.pool.config.badBudget - a.rejected)
    a.rejected with ⟨r, w⟩
  rw [ht] at htry
  have htry' : (m.seen hides shared k).world.tryOut D a.who a.startedAt
    ((m.seen hides shared k).world.pool.config.badBudget - a.rejected) a.rejected =
      (r, w.counting k) := htry
  have hclosed : (m.seen hides shared k).world.pool.closed = m.world.pool.closed := rfl
  simp only [pass, htry', ht, hclosed]
  split
  · rfl
  · cases r with
    | handedOut hd => rfl
    | failed e => rfl
    | overflowed => rfl
    | mustWait r =>
      have hcount := World.count_counting k w (f := fun l => { l with hadToWait := l.hadToWait + 1 })
        { hadToWait := 1 } fun _ => rfl
      have hkeep : ∀ p : Waiter, ([(key, p)] : List (Key × Waiter)).filter (!hides ·.1) = [(key, p)] :=
        fun p => List.filter_cons_of_pos (p := fun x : Key × Waiter => !hides x.1)
          (by rw [hkey]; rfl)
      refine Prod.ext rfl ?_
      dsimp only
      rw [hcount]
      by_cases hwaited : a.waited = true
      · simp only [seen, if_pos hwaited, List.filter_append, hkeep]
        rfl
      · simp only [seen, if_neg hwaited, List.filter_append, hkeep]
        rfl

theorem resume_seen (hkey : hides key = false) : (m.seen hides shared k).resume D key =
    ((m.resume D key).1, (m.resume D key).2.seen hides shared k) := by
  have hlookup : (m.seen hides shared k).waiter? key = m.waiter? key := lookup_filter_key hkey _
  simp only [resume, hlookup]
  rw [show (m.seen hides shared k).world.now = m.world.now from rfl]
  cases m.waiter? key with
  | none => rfl
  | some p =>
    dsimp only
    split
    · have hcount := World.count_counting k m.world
        (f := fun l => { l with waitTime := l.waitTime + (m.world.now - p.since) })
        { waitTime := m.world.now - p.since } fun _ => rfl
      have hrecalled : (m.seen hides shared k).recalled key p =
          (m.recalled key p).seen hides shared k := by
        show Machine.mk _ (without key (m.waiters.filter _)) _ _ _ _ = _
        rw [without_filter]
        exact congrArg (fun w => Machine.mk w _ _ _ _ _) hcount
      exact (congrArg (fun m => m.pass D key p.acquisition) hrecalled).trans
        (pass_seen k D (m.recalled key p) hkey p.acquisition)
    · rfl

theorem lookAt_seen (deadline : Instant) : (m.seen hides shared k).lookAt D key deadline =
    ((m.lookAt D key deadline).1, (m.lookAt D key deadline).2.seen hides shared k) := by
  have hpool : (m.seen hides shared k).world.pool.active = m.world.pool.active := rfl
  have hnow : (m.seen hides shared k).world.now = m.world.now := rfl
  simp only [lookAt, hpool, hnow]
  split
  · refine Prod.ext rfl ?_
    show ({ (m.seen hides shared k) with world := (m.world.counting k).invalidateAll D } :
      Machine τ) = _
    rw [World.invalidateAll_counting]
    rfl
  · rfl

theorem look_seen : (m.seen hides shared k).look D key =
    ((m.look D key).1, (m.look D key).2.seen hides shared k) := by
  have hlookup : (m.seen hides shared k).drain? key = m.drain? key := rfl
  have hnow : (m.seen hides shared k).world.now = m.world.now := rfl
  simp only [look, hlookup, hnow]
  cases m.drain? key with
  | none => rfl
  | some d =>
    dsimp only
    split
    · exact lookAt_seen k D { m with drains := without key m.drains } d.deadline
    · rfl

theorem release_seen : (m.seen hides shared k).release D key =
    (m.release D key).seen hides shared k := by
  have hlookup : (m.seen hides shared k).handle? key = m.handle? key := rfl
  simp only [release, hlookup]
  cases m.handle? key with
  | none => rfl
  | some h =>
    dsimp only
    rw [← wakeAll_seen]
    show wakeAll { (m.seen hides shared k) with
      handles := without key m.handles, world := (m.world.counting k).checkIn D h.id } = _
    rw [World.checkIn_counting]
    rfl

theorem use_seen (call : RawCall) : (m.seen hides shared k).use D key call =
    ((m.use D key call).1, (m.use D key call).2.seen hides shared k) := by
  have hlookup : (m.seen hides shared k).handle? key = m.handle? key := rfl
  have hpool : (m.seen hides shared k).world.pool.valid = m.world.pool.valid := rfl
  simp only [use, hlookup, hpool]
  cases m.handle? key with
  | none => rfl
  | some h =>
    dsimp only
    split
    · rw [show (m.seen hides shared k).world.run (D.call h.conn call) =
        ((m.world.run (D.call h.conn call)).1,
          (m.world.run (D.call h.conn call)).2.counting k) from rfl]
      rcases m.world.run (D.call h.conn call) with ⟨r, w⟩
      cases r <;> rfl
    · rfl

/-- **An event does the same**, whoever else waits and whatever was counted before.  The pool is let go
    in the one way if nobody more holds it. -/
theorem react_seen {e : Event τ} (hkey : ∀ key, e.key? = some key → hides key = false)
    (hletGo : e = .letGo → shared = false) : (m.seen hides shared k).react D e =
      ((m.react D e).1, (m.react D e).2.seen hides shared k) := by
  cases e with
  | acquire key who => exact pass_seen k D m (hkey key rfl) _
  | resume key => exact resume_seen k D m (hkey key rfl)
  | abandon key =>
    refine Prod.ext rfl ?_
    show Machine.mk _ (without key (m.waiters.filter _)) _ _ _ _ = _
    rw [without_filter]
    rfl
  | release key => exact Prod.ext rfl (release_seen k D m)
  | use key call => exact use_seen k D m call
  | reconfigure change =>
    refine Prod.ext rfl ?_
    show wakeAll { (m.seen hides shared k) with
      world := (m.world.counting k).reconfigure D change } = _
    rw [World.reconfigure_counting]
    exact wakeAll_seen k (m.onWorld (·.reconfigure D change))
  | setTolerance n => rfl
  | shutDown key =>
    have hwoken : ((m.seen hides shared k).onWorld
        (·.onPool fun p => { p with closed := true })).wakeAll =
        ((m.onWorld (·.onPool fun p => { p with closed := true })).wakeAll).seen hides shared k :=
      wakeAll_seen k (m.onWorld (·.onPool fun p => { p with closed := true }))
    simp only [react, shutDown, hwoken]
    exact lookAt_seen k D _ _
  | look key => exact look_seen k D m
  | advance d => rfl
  | disturb change => rfl
  | letGo =>
    obtain rfl := hletGo rfl
    rfl

theorem settle_seen (h : (m.seen hides shared k).unused = m.unused) :
    (m.seen hides shared k).settle D = (m.settle D).seen hides shared k := by
  have hgone : (m.seen hides shared k).gone = m.gone := rfl
  simp only [settle, h, hgone]
  split
  · show ({ (m.seen hides shared k) with
      world := (m.world.counting k).invalidateAll D, gone := true } : Machine τ) = _
    rw [World.invalidateAll_counting]
    rfl
  · rfl

/-- Whether an event can happen does not depend on the others either, if its user holds the pool. -/
theorem admits_seen {e : Event τ} (hkey : ∀ key, e.key? = some key → hides key = false)
    (hheld : e.needsHolder = true → (m.held || shared) = m.held) :
    (m.seen hides shared k).admits e = m.admits e := by
  have hfree : ∀ key, e.key? = some key → (m.seen hides shared k).isFree key = m.isFree key := by
    intro key he
    have hlookup : (m.seen hides shared k).waiter? key = m.waiter? key :=
      lookup_filter_key (hkey key he) _
    simp only [isFree, hlookup]
    rfl
  have hholds : e.needsHolder = true → (m.seen hides shared k).held = m.held := hheld
  cases e with
  | acquire key who => simp only [admits, hfree key rfl, hholds rfl]
  | shutDown key => simp only [admits, hfree key rfl, hholds rfl]
  | reconfigure change => exact hholds rfl
  | setTolerance n => exact hholds rfl
  | _ => rfl

/-- **A pool never looks at what it has counted.** -/
theorem stepAs_counting (P H : Drivers τ) (e : Event τ) : (m.counting k).stepAs P H e =
    ((m.stepAs P H e).1, (m.stepAs P H e).2.counting k) := by
  simp only [← seen_all]
  have hadmits : (m.seen (fun _ => false) false k).admits e = m.admits e :=
    admits_seen k m (fun _ _ => rfl) fun _ => Bool.or_false _
  simp only [stepAs, hadmits]
  split
  · rw [react_seen k (e.view P H) m (fun _ _ => rfl) fun _ => rfl]
    refine Prod.ext rfl (settle_seen k P _ ?_)
    rw [seen_all]
    rfl
  · rfl

end Seen

end Machine

end ConnPool
