/-
  Uncommitted work is undone before a connection is closed or changes hands.

  What a holder did with a connection is over when the pool asks whether the connection commits by
  itself and, if it does not, rolls back.  `since` is what was done with a connection after the last
  call of a holder, `AskedIn` says that the pool has asked there, and `UndoneIn` that it knows the work
  to be undone.

  Every hand-out ends with a rollback that succeeded (`tryOut_undone`).  A connection that is idle or
  out is `Tidy`: the pool has asked since a holder called it, or it has done nothing.  This goes its
  rounds (`tidy_rounds`), since whatever the pool does, it asks before it closes, with one exception: a
  connection that fails its probe is closed at once.  So the pool asks before every close just when no
  close follows a failed probe that was the first thing after the last call of a holder
  (`asks_iff_not_probeFailed`), and `closes_unasked` is a run in which one does.
-/
import ConnPool.Proofs.Callers
import Mathlib.Data.List.DropRight

namespace ConnPool

variable {σ : Type}

/-! ## Since the last call of a holder -/

/-- The exchange is a call of a holder. -/
def Exchange.isHolders : Exchange → Bool
  | .call .holder _ _ _ => true
  | _ => false

/-- A holder has called the connection. -/
def Called (conn : Conn) (log : List Exchange) : Prop :=
  ∃ x ∈ log, x.conn = conn ∧ x.isHolders = true

instance (conn : Conn) (log : List Exchange) : Decidable (Called conn log) :=
  inferInstanceAs (Decidable (∃ x ∈ log, x.conn = conn ∧ x.isHolders = true))

/-- What was done with a connection since a holder called it last. -/
def since (conn : Conn) (log : List Exchange) : List Exchange :=
  (log.filter (·.conn = conn)).rtakeWhile (!·.isHolders)

/-- The pool asked whether the connection commits by itself, and rolled back if the answer was no. -/
def AskedIn (conn : Conn) (l : List Exchange) : Prop :=
  ∃ front answer back, l = front ++ .call .pool conn .autoCommit answer :: back ∧
    (answer = .ok (some false) → ∃ r, .call .pool conn .rollback r ∈ back)

/-- The connection commits by itself, or was rolled back with success. -/
def UndoneIn (conn : Conn) (l : List Exchange) : Prop :=
  ∃ front automatic back, l = front ++ .call .pool conn .autoCommit (.ok (some automatic)) :: back ∧
    (automatic = false → .call .pool conn .rollback (.ok none) ∈ back)

/-- Nothing was done but a probe, which failed. -/
def ProbeFailed (conn : Conn) (l : List Exchange) : Prop :=
  ∃ query e, l = [.call .pool conn .isClosed (.ok (some false)),
    .call .pool conn (.execute query) (.error e)]

section Logs

variable {conn : Conn} {log : List Exchange} {x : Exchange}

theorem called_append : Called conn (log ++ [x]) ↔
    Called conn log ∨ x.conn = conn ∧ x.isHolders = true := by
  simp only [Called, List.mem_append, List.mem_singleton, or_and_right, exists_or, exists_eq_left]

theorem since_append_of_ne (h : x.conn ≠ conn) : since conn (log ++ [x]) = since conn log := by
  rw [since, List.filter_append, List.filter_cons_of_neg (by simpa using h), List.filter_nil,
    List.append_nil, since]

theorem since_append_pool (h : x.conn = conn) (hx : x.isHolders = false) :
    since conn (log ++ [x]) = since conn log ++ [x] := by
  rw [since, List.filter_append, List.filter_cons_of_pos (by simpa using h), List.filter_nil,
    List.rtakeWhile_concat_pos _ _ _ (by simpa using hx), since]

theorem since_append_holder (h : x.conn = conn) (hx : x.isHolders = true) :
    since conn (log ++ [x]) = [] := by
  rw [since, List.filter_append, List.filter_cons_of_pos (by simpa using h), List.filter_nil,
    List.rtakeWhile_concat_neg _ _ _ (by simpa using hx)]

theorem AskedIn.mem {l : List Exchange} (h : AskedIn conn l) :
    ∃ answer, .call .pool conn .autoCommit answer ∈ l := by
  obtain ⟨front, answer, back, rfl, -⟩ := h
  exact ⟨answer, List.mem_append_right _ List.mem_cons_self⟩

theorem UndoneIn.asked {l : List Exchange} (h : UndoneIn conn l) : AskedIn conn l := by
  obtain ⟨front, automatic, back, rfl, hback⟩ := h
  refine ⟨front, _, back, rfl, fun he => ⟨_, hback ?_⟩⟩
  exact Option.some.inj (Except.ok.inj he)

theorem AskedIn.append {l : List Exchange} (h : AskedIn conn l) (l' : List Exchange) :
    AskedIn conn (l ++ l') := by
  obtain ⟨front, answer, back, rfl, hback⟩ := h
  refine ⟨front, answer, back ++ l', by simp, fun he => ?_⟩
  obtain ⟨r, hr⟩ := hback he
  exact ⟨r, List.mem_append_left _ hr⟩

/-- A probe asks nothing when it fails. -/
theorem AskedIn.not_probeFailed {l : List Exchange} (h : AskedIn conn l) :
    ¬ ProbeFailed conn l := by
  rintro ⟨query, e, rfl⟩
  obtain ⟨answer, hmem⟩ := h.mem
  simp at hmem

end Logs

/-! ## What the pool does with one connection -/

/-- The log went on with the pool opening and calling one connection. -/
abbrev Tends (conn : Conn) : List Exchange → List Exchange → Prop :=
  Continues fun _ x => x.conn = conn ∧ x.isHolders = false

theorem Exchange.Addresses.isHolders_eq {conn : Conn} {x : Exchange} (h : x.Addresses conn) :
    x.isHolders = false := by
  obtain ⟨call, answer, rfl⟩ := h
  rfl

theorem Attends.tends {conn : Conn} {a b : List Exchange} (h : Attends conn a b) : Tends conn a b :=
  h.mono fun _ _ hx => ⟨hx.conn_eq, hx.isHolders_eq⟩

section Logs

variable {conn conn' : Conn} {a b : List Exchange}

theorem Tends.called_iff (h : Tends conn a b) : Called conn' b ↔ Called conn' a := by
  induction h with
  | refl => rfl
  | tail _ hx ih =>
    obtain ⟨x, ⟨-, hpool⟩, rfl⟩ := hx
    rw [called_append, ih, hpool]
    simp

theorem Tends.since_of_ne (h : Tends conn a b) (hne : conn' ≠ conn) :
    since conn' b = since conn' a := by
  induction h with
  | refl => rfl
  | tail _ hx ih =>
    obtain ⟨x, ⟨hconn, -⟩, rfl⟩ := hx
    rw [since_append_of_ne (hconn ▸ hne.symm), ih]

theorem Tends.since_append (h : Tends conn a b) : ∃ l, since conn b = since conn a ++ l := by
  induction h with
  | refl => exact ⟨[], (List.append_nil _).symm⟩
  | tail _ hx ih =>
    obtain ⟨x, ⟨hconn, hpool⟩, rfl⟩ := hx
    obtain ⟨l, hl⟩ := ih
    exact ⟨l ++ [x], by rw [since_append_pool hconn hpool, hl, List.append_assoc]⟩

/-- Once the pool has asked it has asked, whatever it does then. -/
theorem Tends.asked (h : Tends conn a b) (ha : AskedIn conn (since conn a)) :
    AskedIn conn (since conn b) := by
  obtain ⟨l, hl⟩ := h.since_append
  rw [hl]
  exact ha.append l

end Logs

/-- What is closed is not what a holder called, or the pool asked before, unless a probe failed. -/
def ClosesTidily (log : List Exchange) (x : Exchange) : Prop :=
  ∀ conn, x.closed? = some conn → Called conn log →
    (AskedIn conn (since conn log) ↔ ¬ ProbeFailed conn (since conn log))

section Logs

variable {conn : Conn} {a b : List Exchange}

theorem Exchange.conn_of_closed? {x : Exchange} (h : x.closed? = some conn) : x.conn = conn := by
  match x, h with
  | .call .pool _ .close _, h => exact Option.some.inj h

theorem Quiet.tidily (h : Quiet a b) : Continues ClosesTidily a b :=
  h.mono fun _ _ hx _ hclosed => nomatch hx.2.symm.trans hclosed

/-- A close after the pool has asked. -/
theorem closesTidily_of_asked (h : AskedIn conn (since conn a))
    {answer : Except ConnectionError (Option Bool)} :
    ClosesTidily a (.call .pool conn .close answer) := by
  rintro conn' hclosed -
  obtain rfl := Option.some.inj hclosed
  exact ⟨fun h => h.not_probeFailed, fun _ => h⟩

/-- Whatever is done with a connection that no holder has called. -/
theorem Tends.tidily_of_not_called (h : Tends conn a b) (hnot : ¬ Called conn a) :
    Continues ClosesTidily a b := by
  induction h with
  | refl => exact Continues.refl _
  | tail hbefore hx ih =>
    obtain ⟨x, ⟨hconn, -⟩, rfl⟩ := hx
    refine ih.trans (Continues.one fun conn' hclosed hcalled => absurd hcalled ?_)
    rw [← Exchange.conn_of_closed? hclosed, hconn, Tends.called_iff hbefore]
    exact hnot

end Logs

/-- The pool has asked since a holder called the connection, or it has done nothing. -/
def Tidy (conn : Conn) (log : List Exchange) : Prop :=
  Called conn log → AskedIn conn (since conn log) ∨ since conn log = []

theorem tidy_of_asked {conn : Conn} {log : List Exchange} (h : AskedIn conn (since conn log)) :
    Tidy conn log := fun _ => Or.inl h

namespace Drivers

variable (D : Drivers σ)

/-- A call of the pool is the last thing that was done. -/
theorem since_call (conn : Conn) (call : RawCall) (s : Observed σ) :
    since conn ((D.observed .pool).call conn call s).2.log = since conn s.log ++
      [.call .pool conn call (((D.observed .pool).call conn call s).1.map call.report)] :=
  since_append_pool rfl rfl

/-- To undo uncommitted work is to ask, and to roll back if the answer is no. -/
theorem since_rollbackIfManual (conn : Conn) (s : Observed σ) :
    AskedIn conn (since conn ((D.observed .pool).rollbackIfManual conn s).2.log) ∧
      (((D.observed .pool).rollbackIfManual conn s).1 = .ok () →
        UndoneIn conn (since conn ((D.observed .pool).rollbackIfManual conn s).2.log)) := by
  have hasked := since_call D conn .autoCommit s
  unfold rollbackIfManual
  rw [Calls.bind_run]
  rcases hr : (D.observed .pool).call conn .autoCommit s with ⟨r, t⟩
  rw [hr] at hasked
  rcases r with e | automatic
  · exact ⟨⟨_, _, [], hasked, nofun⟩, nofun⟩
  · cases automatic with
    | true => exact ⟨⟨_, _, [], hasked, nofun⟩, fun _ => ⟨_, true, [], hasked, nofun⟩⟩
    | false =>
      have hrolled := since_call D conn .rollback t
      rw [hasked, List.append_assoc] at hrolled
      refine ⟨⟨_, _, _, hrolled, fun _ => ⟨_, List.mem_singleton_self _⟩⟩, fun hok => ?_⟩
      refine ⟨_, false, _, hrolled, fun _ => List.mem_singleton.2 ?_⟩
      rw [show ((D.observed .pool).call conn .rollback t).1 = .ok () from hok]
      rfl

theorem tidily_close {conn : Conn} {s : Observed σ} (h : AskedIn conn (since conn s.log)) :
    Continues ClosesTidily s.log (quietly ((D.observed .pool).call conn .close) s).log :=
  Continues.one (closesTidily_of_asked h)

/-- A connection is asked before it is given up. -/
theorem tidily_giveUp (conn : Conn) (s : Observed σ) :
    Continues ClosesTidily s.log ((D.observed .pool).giveUp conn s).log :=
  (quiet_rollbackIfManual D conn s).tidily.trans
    (tidily_close D (since_rollbackIfManual D conn s).1)

/-- A probe fails at its statement, or the pool has asked. -/
theorem since_probe (config : PoolConfig) (conn : Conn) (s : Observed σ) :
    (∃ e, since conn ((D.observed .pool).probe config conn s).2.log =
      since conn s.log ++ [.call .pool conn (.execute config.pingQuery) (.error e)]) ∨
    AskedIn conn (since conn ((D.observed .pool).probe config conn s).2.log) := by
  have hexecuted := since_call D conn (.execute config.pingQuery) s
  unfold probe
  rw [Calls.bind_run]
  rcases hr : (D.observed .pool).call conn (.execute config.pingQuery) s with ⟨r, t⟩
  rw [hr] at hexecuted
  rcases r with e | u
  · exact Or.inl ⟨e, hexecuted⟩
  · exact Or.inr (since_rollbackIfManual D conn t).1

/-- **An examination closes tidily**: what it closes failed its probe. -/
theorem tidily_isHealthy (config : PoolConfig) (now : Instant) (c : Wrapper) {s : Observed σ}
    (h : Tidy c.conn s.log) :
    Continues ClosesTidily s.log ((D.observed .pool).isHealthy config now c s).2.log := by
  have hquiet := (quiet_call D c.conn .isClosed nofun s).tidily
  have hasked := since_call D c.conn .isClosed s
  have htends := Attends.tends (says_addresses D c.conn .isClosed s)
  rcases (D.observed .pool).isHealthy_cases config now c s with ⟨r, s₁, hr, -, e⟩ | ⟨s₁, hr, -, e⟩ |
    ⟨s₁, s₂, hr, -, hp, e⟩ | ⟨s₁, err, s₂, hr, -, hp, e⟩
  all_goals rw [hr] at hquiet hasked htends; rw [e]
  · exact hquiet
  · exact hquiet
  · have hquiet' := (quiet_probe D config c.conn s₁).tidily
    rw [hp] at hquiet'
    exact hquiet.trans hquiet'
  · have hquiet' := (quiet_probe D config c.conn s₁).tidily
    have hprobed := since_probe D config c.conn s₁
    have htends' : Tends c.conn s.log ((D.observed .pool).probe config c.conn s₁).2.log :=
      htends.trans (D.attends_probe config c.conn s₁).tends
    rw [hp] at hquiet' hprobed htends'
    refine (hquiet.trans hquiet').trans (Continues.one ?_)
    rintro conn hclosed hcalled
    obtain rfl := Option.some.inj hclosed
    rcases h (htends'.called_iff.1 hcalled) with hbefore | hnothing
    · -- the pool had asked before it probed
      have hbefore := htends'.asked hbefore
      exact ⟨fun h => h.not_probeFailed, fun _ => hbefore⟩
    · rcases hprobed with ⟨e', he'⟩ | hbefore
      · -- the probe is all that was done since
        rw [hasked, hnothing] at he'
        have hfailed : ProbeFailed c.conn (since c.conn s₂.log) := ⟨_, e', he'⟩
        exact ⟨fun h => h.not_probeFailed, fun h => absurd hfailed h⟩
      · exact ⟨fun h => h.not_probeFailed, fun _ => hbefore⟩

end Drivers

namespace World

variable (D : Drivers σ)

theorem tidily_isFit {w w' : World (Observed σ)} {c : Wrapper} {fit : Bool}
    (h : Tidy c.conn w.drivers.log) (hfit : w.isFit (D.observed .pool) c = (fit, w')) :
    Continues ClosesTidily w.drivers.log w'.drivers.log := by
  have hexamined := D.tidily_isHealthy w.pool.config w.now c h
  rcases isFit_cases _ hfit with ⟨-, e⟩ | ⟨-, -, rfl⟩
  · rw [e] at hexamined
    exact hexamined
  · exact Continues.refl _

theorem tidily_isGood {w w' : World (Observed σ)} {c : Wrapper} {good : Bool}
    (h : Tidy c.conn w.drivers.log) (hg : w.isGood (D.observed .pool) c = (good, w')) :
    Continues ClosesTidily w.drivers.log w'.drivers.log := by
  rcases isGood_cases _ hg with ⟨-, hfit⟩ | ⟨w₁, r, hfit, hr, -⟩
  · exact tidily_isFit D h hfit
  · obtain rfl := congrArg Prod.snd hr
    exact (tidily_isFit D h hfit).trans (D.quiet_rollbackIfManual c.conn w₁.drivers).tidily

/-- A candidate is good only after its rollback succeeded. -/
theorem undone_of_isGood {w w' : World (Observed σ)} {c : Wrapper}
    (hg : w.isGood (D.observed .pool) c = (true, w')) :
    UndoneIn c.conn (since c.conn w'.drivers.log) := by
  rcases isGood_cases _ hg with ⟨hbad, -⟩ | ⟨w₁, r, -, hr, hgood⟩
  · nomatch hbad
  · obtain ⟨hok, rfl⟩ := Prod.mk.inj hr
    exact (D.since_rollbackIfManual c.conn w₁.drivers).2 (hok.trans (hgood.1 rfl))

/-- **What is handed out has nothing uncommitted** that a holder before did. -/
theorem tryOut_undone (who : Credentials) (startedAt : Instant) (budget r : Nat)
    (w : World (Observed σ)) (h : Handle) :
    (w.tryOut (D.observed .pool) who startedAt budget r).1 = .handedOut h →
      UndoneIn h.conn
        (since h.conn (w.tryOut (D.observed .pool) who startedAt budget r).2.drivers.log) := by
  refine tryOut_rule (D.observed .pool) (I := fun _ _ => True)
    (Q := fun r w' => r = .handedOut h → UndoneIn h.conn (since h.conn w'.drivers.log))
    (fun _ _ => nofun) (fun _ _ => nofun) ?_ (fun _ _ _ => trivial) (fun _ => nofun) (fun _ => nofun)
    budget r w trivial
  intro r w₁ c w₂ w₃ _ _ hg he
  obtain rfl := PassEnd.handedOut.inj he
  show UndoneIn c.conn (since c.conn w₃.drivers.log)
  exact undone_of_isGood D hg

/-- What came back in good health is asked before it is decided what becomes of it. -/
theorem tidily_returned {w w₁ w₂ : World (Observed σ)} {c : Wrapper}
    {r : Except ConnectionError Unit} (h : Tidy c.conn w.drivers.log)
    (hfit : w.isFit (D.observed .pool) c = (true, w₁))
    (hr : (w₁.countedBack c).run ((D.observed .pool).rollbackIfManual c.conn) = (r, w₂)) :
    Continues ClosesTidily w.drivers.log w₂.drivers.log ∧
      AskedIn c.conn (since c.conn w₂.drivers.log) := by
  obtain ⟨-, rfl⟩ := Prod.mk.inj hr
  exact ⟨(tidily_isFit D h hfit).trans (D.quiet_rollbackIfManual c.conn w₁.drivers).tidily,
    (D.since_rollbackIfManual c.conn w₁.drivers).1⟩

/-- Every connection is tidy, and since the log was `base` connections were closed tidily. -/
structure AllTidy (base : List Exchange) (w : World (Observed σ)) (l : List Wrapper) : Prop where
  tidy : ∀ c ∈ l, Tidy c.conn w.drivers.log
  conns : (l.map (·.conn)).Nodup
  tickets : ∀ c ∈ l, c.conn.ticket < w.pool.nextTicket
  /-- What has not been opened yet was never called. -/
  called : ∀ conn, Called conn w.drivers.log → conn.ticket < w.pool.nextTicket
  log : Continues ClosesTidily base w.drivers.log

namespace AllTidy

variable {D} {base : List Exchange} {w w' : World (Observed σ)} {l : List Wrapper} {c c' : Wrapper}

/-- A connection of which everything is known is taken out of the list, whatever is done with it. -/
theorem leave (h : AllTidy base w (c :: l)) (hticket : w'.pool.nextTicket = w.pool.nextTicket)
    (htends : Tends c.conn w.drivers.log w'.drivers.log)
    (hlog : Continues ClosesTidily w.drivers.log w'.drivers.log) : AllTidy base w' l where
  tidy c₁ hc₁ := by
    have hne : c₁.conn ≠ c.conn := fun he =>
      (List.nodup_cons.1 h.conns).1 (List.mem_map.2 ⟨c₁, hc₁, he⟩)
    intro hcalled
    rw [htends.since_of_ne hne]
    exact h.tidy c₁ (List.mem_cons_of_mem _ hc₁) (htends.called_iff.1 hcalled)
  conns := (List.nodup_cons.1 h.conns).2
  tickets c₁ hc₁ := by
    rw [hticket]
    exact h.tickets c₁ (List.mem_cons_of_mem _ hc₁)
  called conn hcalled := by
    rw [hticket]
    exact h.called conn (htends.called_iff.1 hcalled)
  log := h.log.trans hlog

/-- It stays in the list if it is tidy again. -/
theorem stay (h : AllTidy base w (c :: l)) (hticket : w'.pool.nextTicket = w.pool.nextTicket)
    (htends : Tends c.conn w.drivers.log w'.drivers.log)
    (hlog : Continues ClosesTidily w.drivers.log w'.drivers.log) (hconn : c'.conn = c.conn)
    (htidy : Tidy c.conn w'.drivers.log) : AllTidy base w' (c' :: l) where
  tidy c₁ hc₁ := by
    rcases List.mem_cons.1 hc₁ with rfl | hc₁
    · rw [hconn]
      exact htidy
    · exact (h.leave hticket htends hlog).tidy c₁ hc₁
  conns := by
    rw [List.map_cons, hconn]
    exact h.conns
  tickets c₁ hc₁ := by
    rcases List.mem_cons.1 hc₁ with rfl | hc₁
    · rw [hconn, hticket]
      exact h.tickets c List.mem_cons_self
    · exact (h.leave hticket htends hlog).tickets c₁ hc₁
  called := (h.leave hticket htends hlog).called
  log := h.log.trans hlog

/-- It depends on the log and on the next ticket only. -/
theorem congr (h : AllTidy base w l) (hlog : w'.drivers.log = w.drivers.log)
    (hticket : w'.pool.nextTicket = w.pool.nextTicket) : AllTidy base w' l where
  tidy c hc := by
    rw [hlog]
    exact h.tidy c hc
  conns := h.conns
  tickets c hc := by
    rw [hticket]
    exact h.tickets c hc
  called conn := by
    rw [hlog, hticket]
    exact h.called conn
  log := by
    rw [hlog]
    exact h.log

theorem perm {l' : List Wrapper} (h : AllTidy base w l) (hl : l.Perm l') : AllTidy base w l' where
  tidy c hc := h.tidy c (hl.mem_iff.2 hc)
  conns := (hl.map _).nodup_iff.1 h.conns
  tickets c hc := h.tickets c (hl.mem_iff.2 hc)
  called := h.called
  log := h.log

/-- Opening a connection, with success or not, leaves the others alone. -/
theorem dialled (h : AllTidy base w l) (who : Credentials)
    (hticket : w'.pool.nextTicket = w.pool.nextTicket + 1)
    (hdrivers : w'.drivers =
      (w.pool.source.newConnection (D.observed .pool) who w.nextConn w.drivers).2) :
    AllTidy base w' l ∧ ¬ Called w.nextConn w'.drivers.log := by
  have hnot : ¬ Called w.nextConn w.drivers.log := fun hcalled =>
    Nat.lt_irrefl _ (h.called _ hcalled)
  have htends : Tends w.nextConn w.drivers.log w'.drivers.log := by
    rw [hdrivers]
    refine (w.pool.source.newConnection_says D who w.nextConn w.drivers).mono fun _ x hx => ?_
    rcases hx with ⟨answer, rfl⟩ | haddresses
    · exact ⟨rfl, rfl⟩
    · exact ⟨haddresses.conn_eq, haddresses.isHolders_eq⟩
  have hne : ∀ c ∈ l, c.conn ≠ w.nextConn := by
    intro c hc he
    have hbelow := h.tickets c hc
    rw [he] at hbelow
    exact Nat.lt_irrefl _ hbelow
  refine ⟨⟨fun c hc hcalled => ?_, h.conns, fun c hc => ?_, fun conn hcalled => ?_,
    h.log.trans (htends.tidily_of_not_called hnot)⟩, fun hcalled => hnot (htends.called_iff.1 hcalled)⟩
  · rw [htends.since_of_ne (hne c hc)]
    exact h.tidy c hc (htends.called_iff.1 hcalled)
  · rw [hticket]
    exact Nat.lt_succ_of_lt (h.tickets c hc)
  · rw [hticket]
    exact Nat.lt_succ_of_lt (h.called conn (htends.called_iff.1 hcalled))

end AllTidy

/-- **To be tidy goes its rounds**: whatever is done with a connection, the pool asks before it closes
    it, unless the connection fails its probe. -/
theorem tidy_rounds (base : List Exchange) : Rounds (D.observed .pool) (AllTidy base) where
  perm h hl := h.perm hl
  lists _ _ _ _ h := h.congr rfl rfl
  opened {w l who s} _ hs h := by
    obtain ⟨hrest, hnot⟩ : AllTidy base (w.openedFor who s) l ∧
        ¬ Called w.nextConn (w.openedFor who s).drivers.log :=
      h.dialled who rfl (congrArg Prod.snd hs).symm
    refine ⟨?_, ?_, ?_, hrest.called, hrest.log⟩
    · intro c hc
      rcases List.mem_cons.1 hc with rfl | hc
      · exact fun hcalled => absurd hcalled hnot
      · exact hrest.tidy c hc
    · refine List.nodup_cons.2 ⟨fun hmem => ?_, h.conns⟩
      obtain ⟨c, hc, he⟩ := List.mem_map.1 hmem
      have hbelow := h.tickets c hc
      rw [he] at hbelow
      exact Nat.lt_irrefl _ hbelow
    · intro c hc
      rcases List.mem_cons.1 hc with rfl | hc
      · exact Nat.lt_succ_self _
      · exact hrest.tickets c hc
  refused {w l who e s} _ hs h := (h.dialled who rfl (congrArg Prod.snd hs).symm).1
  reclaimed {w l c} h :=
    h.stay rfl (D.attends_rollbackIfManual c.conn w.drivers).tends
      (D.quiet_rollbackIfManual c.conn w.drivers).tidily rfl
      (tidy_of_asked (D.since_rollbackIfManual c.conn w.drivers).1)
  stamped _ h :=
    h.stay rfl (Continues.refl _) (Continues.refl _) rfl (h.tidy _ List.mem_cons_self)
  discarded {w l c} h :=
    h.leave rfl (D.attends_giveUp c.conn w.drivers).tends (D.tidily_giveUp c.conn w.drivers)
  good {w w' l c} hg h := by
    have htidily := tidily_isGood D (h.tidy c List.mem_cons_self) hg
    exact h.stay (congrArg Pool.nextTicket (pool_of_isGood _ hg)) (isGood_attends D hg).tends htidily
      rfl (tidy_of_asked (undone_of_isGood D hg).asked)
  bad {w w' l c} hg h := by
    have htidily := tidily_isGood D (h.tidy c List.mem_cons_self) hg
    have htends : Tends c.conn w.drivers.log (w'.reject (D.observed .pool) c).drivers.log :=
      (isGood_attends D hg).tends.trans (D.attends_giveUp c.conn w'.drivers).tends
    have hticket : w'.pool.nextTicket = w.pool.nextTicket :=
      congrArg Pool.nextTicket (pool_of_isGood _ hg)
    exact h.leave hticket htends (htidily.trans (D.tidily_giveUp c.conn w'.drivers))
  takenBack {w c} h := by
    have hc := h.tidy c List.mem_cons_self
    have htends := (takeBack_attends D w c).tends
    rcases w.takeBack_cases (D.observed .pool) c with ⟨w₁, hfit, e⟩ | ⟨w₁, w₂, hfit, hr, -, e⟩ |
      ⟨w₁, r, w₂, hfit, hr, -, e⟩
    · -- unfit, and given up
      have hpool := pool_of_isFit _ hfit
      have hlog := (tidily_isFit D hc hfit).trans (D.tidily_giveUp c.conn w₁.drivers)
      have hwrappers : (w₁.reject (D.observed .pool) c).pool.wrappers = w.pool.wrappers := by
        rw [reject_pool, hpool]
        rfl
      have hticket : w₁.pool.nextTicket = w.pool.nextTicket := congrArg Pool.nextTicket hpool
      rw [e] at htends ⊢
      rw [hwrappers]
      exact h.leave hticket htends hlog
    · -- kept under a new wrapper
      have hpool := pool_of_countedBack _ hfit hr
      obtain ⟨hlog, hasked⟩ := tidily_returned D hc hfit hr
      have hwrappers : w₂.pool.wrappers = w.pool.wrappers := by
        rw [hpool]
        rfl
      have hticket : w₂.pool.nextTicket = w.pool.nextTicket := by
        rw [hpool]
        rfl
      rw [e] at htends ⊢
      have hkept : AllTidy base (w₂.keep c) (w₂.pool.rewrapped c w₂.now :: w₂.pool.wrappers) := by
        rw [hwrappers]
        exact h.stay hticket htends hlog rfl (tidy_of_asked hasked)
      exact hkept.perm (w₂.keep_wrappers c)
    · -- closed
      have hpool := pool_of_countedBack _ hfit hr
      obtain ⟨hlog, hasked⟩ := tidily_returned D hc hfit hr
      have hwrappers : (w₂.close (D.observed .pool) c).pool.wrappers = w.pool.wrappers := by
        rw [close_pool, hpool]
        rfl
      have hticket : w₂.pool.nextTicket = w.pool.nextTicket := by
        rw [hpool]
        rfl
      rw [e] at htends ⊢
      rw [hwrappers]
      exact h.leave hticket htends (hlog.trans (D.tidily_close hasked))

/-- A holder calls its connection, and nothing that the pool has asked before matters any more. -/
theorem AllTidy.use {base : List Exchange} {w : World (Observed σ)} {l : List Wrapper} {c : Wrapper}
    (h : AllTidy base w l) (hc : c ∈ l) (call : RawCall) :
    AllTidy base (w.run ((D.observed .holder).call c.conn call)).2 l := by
  constructor
  case tidy =>
    intro c' hc' hcalled
    by_cases hconn : c.conn = c'.conn
    · exact Or.inr (since_append_holder hconn rfl)
    · have hsame : since c'.conn (w.run ((D.observed .holder).call c.conn call)).2.drivers.log =
          since c'.conn w.drivers.log := since_append_of_ne hconn
      rw [hsame]
      exact h.tidy c' hc' ((called_append.1 hcalled).resolve_right fun hlast => hconn hlast.1)
  case conns => exact h.conns
  case tickets => exact h.tickets
  case called =>
    intro conn hcalled
    rcases called_append.1 hcalled with hbefore | ⟨hconn, -⟩
    · exact h.called conn hbefore
    · exact hconn ▸ h.tickets c hc
  case log => exact h.log.trans (Continues.one fun _ hclosed => nomatch hclosed)

end World

/-! ## Every event -/

namespace Machine

theorem Alike.tidy {m m' : Machine (Observed σ)} {base : List Exchange} (h : m.Alike m')
    (ht : m.world.AllTidy base m.world.pool.wrappers) :
    m'.world.AllTidy base m'.world.pool.wrappers := by
  have hwrappers : m'.world.pool.wrappers = m.world.pool.wrappers := by
    rw [Pool.wrappers, h.active, h.idle, Pool.wrappers]
  rw [hwrappers]
  exact ht.congr h.log h.nextTicket

theorem Deed.tidy {D : Drivers σ} {os : List Outcome} {m m' : Machine (Observed σ)} {e : Event σ}
    {o : Outcome} {base : List Exchange} (hd : m.Deed D e o m') (howned : Owned os m)
    (h : m.world.AllTidy base m.world.pool.wrappers) :
    m'.world.AllTidy base m'.world.pool.wrappers := by
  have hrounds := World.tidy_rounds D base
  cases hd with
  | aside _ alike => exact alike.tidy h
  | handsOut _ _ pass => exact hrounds.pass pass h
  | fails _ _ _ pass _ => exact hrounds.count _ (hrounds.pass pass h)
  | @release key hd handle => exact hrounds.checkIn hd.id h
  | @use key call hd _ handle valid _ =>
    obtain ⟨c, hc, hch⟩ := howned.wrapper_of_valid (mem_of_lookup handle) valid
    obtain rfl := hch
    exact h.use D (List.mem_append_left _ hc) call
  | reconfigure change =>
    have happlied : (m.world.onPool (·.apply change)).AllTidy base
        (m.world.onPool (·.apply change)).pool.wrappers := by
      rw [World.onPool, Pool.apply_eq]
      exact h.congr rfl rfl
    exact hrounds.invalidateAll happlied
  | closesAll alike => exact hrounds.invalidateAll (alike.tidy h)

/-- **Every event is tidy.** -/
theorem observe_tidy (D : Drivers σ) {os : List Outcome} {m : Machine (Observed σ)} (e : Event σ)
    {base : List Exchange} (howned : Owned os m)
    (h : m.world.AllTidy base m.world.pool.wrappers) :
    (m.observe D e).2.world.AllTidy base (m.observe D e).2.world.pool.wrappers := by
  obtain ⟨m', hdeed, hafter⟩ := m.observe_deed D e
  have htidy := hdeed.tidy howned h
  rcases hafter with hsame | ⟨-, hclosed⟩
  · rw [hsame]
    exact htidy
  · rw [hclosed]
    exact (World.tidy_rounds D base).invalidateAll htidy

theorem Deed.undone {D : Drivers σ} {m m' : Machine (Observed σ)} {e : Event σ} {o : Outcome}
    (hd : m.Deed D e o m') {h : Handle} (ho : o = .acquired h) :
    UndoneIn h.conn (since h.conn m'.log) := by
  cases hd with
  | aside out _ => exact absurd ho (out h)
  | @handsOut _ key a f budget h' w _ _ pass =>
    obtain rfl := Outcome.acquired.inj ho
    have hundone := World.tryOut_undone D a.who a.startedAt budget a.rejected
      (m.world.onPool (·.count f)) h'
    rw [pass] at hundone
    exact hundone rfl
  | fails _ _ out _ _ => exact absurd ho (out h)
  | use _ _ out => exact absurd ho (out h)
  | release _ | reconfigure _ | closesAll _ => nomatch ho

/-- What an event hands out has been rolled back. -/
theorem observe_undone (D : Drivers σ) {m : Machine (Observed σ)} {e : Event σ} {h : Handle}
    (ho : (m.observe D e).1 = .acquired h) :
    UndoneIn h.conn (since h.conn (m.observe D e).2.log) := by
  obtain ⟨m', hdeed, hafter⟩ := m.observe_deed D e
  have hundone := hdeed.undone ho
  rcases hafter with hsame | ⟨hunused, -⟩
  · rw [hsame]
    exact hundone
  · -- a handle is out, so the pool is not closed
    rw [ho] at hdeed
    cases hdeed with
    | aside out _ => exact absurd rfl (out h)
    | handsOut _ _ _ =>
      obtain ⟨-, -, -, hnil⟩ := unused_iff.1 hunused
      exact absurd hnil (List.append_ne_nil_of_right_ne_nil _ (List.cons_ne_nil _ _))
    | fails _ _ out _ _ => exact absurd rfl (out h)
    | use _ _ out => exact absurd rfl (out h)

/-! ## Closes and hand-outs of a run -/

/-- Whenever the pool closes a connection that a holder has called, it has asked since. -/
def AsksBeforeClosing (log : List Exchange) : Prop :=
  ∀ past conn answer, past ++ [.call .pool conn .close answer] <+: log → Called conn past →
    AskedIn conn (since conn past)

section Runs

variable (D : Drivers σ) (source : Source) (config : PoolConfig) (s : σ)

/-- How a run leaves the connections that holders have called. -/
structure LeavesNothing (es : List (Event σ)) : Prop where
  /-- When the pool closes one, it has asked since the last call of the holder, unless it closes it for
  a failed probe and has done nothing else since then. -/
  closes : ∀ past conn answer,
    past ++ [.call .pool conn .close answer] <+: (reached D source config s es).log →
    Called conn past → (AskedIn conn (since conn past) ↔ ¬ ProbeFailed conn (since conn past))
  /-- So it always asks just when it closes nothing in this way. -/
  exact : AsksBeforeClosing (reached D source config s es).log ↔
    ∀ past conn answer,
      past ++ [.call .pool conn .close answer] <+: (reached D source config s es).log →
      Called conn past → ¬ ProbeFailed conn (since conn past)
  /-- When it hands one out, the work of the last holder is undone. -/
  handsOut : ∀ e h, ((reached D source config s es).observe D e).1 = .acquired h →
    UndoneIn h.conn (since h.conn ((reached D source config s es).observe D e).2.log)

/-- **Every run is tidy.** -/
theorem tidy_reached (es : List (Event σ)) : (reached D source config s es).world.AllTidy []
    (reached D source config s es).world.pool.wrappers := by
  induction es using List.reverseRecOn with
  | nil => exact ⟨nofun, List.nodup_nil, nofun, nofun, Continues.refl _⟩
  | append_singleton es e ih =>
    rw [reached_concat]
    exact observe_tidy D e (owned_reached D source config s es) ih

/-- **Uncommitted work.**  In every run, whatever the drivers answer: before the pool closes a
    connection, and before it hands it out again, it asks whether the connection commits by itself and
    rolls back if it does not, and it hands out only what was rolled back with success; but when a
    connection fails its probe on the way back, it is closed before it is asked. -/
theorem asks_iff_not_probeFailed (es : List (Event σ)) : LeavesNothing D source config s es := by
  have htidy := (tidy_reached D source config s es).log
  have hcloses : ∀ past conn answer,
      past ++ [.call .pool conn .close answer] <+: (reached D source config s es).log →
      Called conn past → (AskedIn conn (since conn past) ↔ ¬ ProbeFailed conn (since conn past)) :=
    fun past conn answer hpast => htidy.allows List.nil_prefix hpast conn rfl
  constructor
  case closes => exact hcloses
  case exact =>
    constructor
    · exact fun h past conn answer hpast hcalled =>
        (hcloses past conn answer hpast hcalled).1 (h past conn answer hpast hcalled)
    · exact fun h past conn answer hpast hcalled =>
        (hcloses past conn answer hpast hcalled).2 (h past conn answer hpast hcalled)
  case handsOut => exact fun e h ho => observe_undone D ho

end Runs

/-! ## A run that closes a connection unasked -/

/-- One connection at most, probed when it comes back. -/
def probing : PoolConfig :=
  { maxActive := 1
    maxIdle := 1
    pingQuery := "SELECT 1"
    pingEnabled := true }

/-- A holder writes something, the connection goes bad, and it is returned. -/
def spoiled : List (Event Bank) :=
  [.acquire 0 none, .use 0 (.execute "UPDATE t SET x = 1"), .advance (.ofMillis 1),
    .disturb (·.tamper 0 (.rules [{ call := "execute", conn := some 1 }])), .release 0]

/-- The exchanges of this run, with a driver whose connections do not commit by themselves. -/
def spoiledLog : List Exchange :=
  (reached Bank.drivers { config := { driver := "scripted", url := "mem://db" } } probing
    [.scripted { autoCommit := false }] spoiled).log

/-- The probe fails, and the connection is closed with the work of its holder. -/
theorem closes_unasked : ¬ AsksBeforeClosing spoiledLog := by
  intro h
  have hcloses : spoiledLog.take 7 ++ [.call .pool ⟨0, 1⟩ .close (.ok none)] <+: spoiledLog := by
    decide +kernel
  have hcalled : Called ⟨0, 1⟩ (spoiledLog.take 7) := by
    decide +kernel
  have hsince : since ⟨0, 1⟩ (spoiledLog.take 7) =
      [.call .pool ⟨0, 1⟩ .isClosed (.ok (some false)),
        .call .pool ⟨0, 1⟩ (.execute "SELECT 1") (.error ⟨.other, "scripted"⟩)] := by
    decide +kernel
  have hasked := h _ _ _ hcloses hcalled
  rw [hsince] at hasked
  exact hasked.not_probeFailed ⟨_, _, rfl⟩

end Machine

end ConnPool
