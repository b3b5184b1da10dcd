/-
  Generations of connections.

  A change of the configuration throws every connection away, and the next one is opened under the new
  configuration.  So the connections of a pool are of one generation at any time: all were opened since
  the last change, as the source has been ever since.

  What passes between a source and its driver when a connection is opened is in the log, and
  `OpenedSince` finds it there, after what was there at some earlier moment.  The invariant is
  `Generation`: every wrapper has an identity that was given out since, and its connection was opened
  since, as the source is now.  It is a property of single connections, so it goes their rounds
  (`generation_ledger`), and a change of the configuration begins with nothing (`generation_concat`).

  From it follows what is handed out (`generations_do_not_mix`), and that what was handed out before a
  change is of no use any more: its handle is not valid, and its return changes no list.
-/
import ConnPool.Proofs.Belonging
import ConnPool.Proofs.Opening
import ConnPool.Proofs.Undisturbed

namespace ConnPool

variable {σ : Type}

/-! ## Connections opened since a moment -/

/-- The connection was opened after what stood in the log before, by the driver of the source and as the
    source opens connections, on behalf of somebody. -/
def Source.OpenedSince (src : Source) (base : List Exchange) (conn : Conn) (log : List Exchange) :
    Prop :=
  conn.driver = src.driver ∧ ∃ who current front back, base <+: front ∧
    log = front ++ src.opening who conn current ++ back

namespace Source.OpenedSince

variable {src : Source} {base log log' : List Exchange} {conn : Conn}

theorem mono (h : src.OpenedSince base conn log) (hlog : log <+: log') :
    src.OpenedSince base conn log' := by
  obtain ⟨hdriver, who, current, front, back, hbase, rfl⟩ := h
  obtain ⟨rest, rfl⟩ := hlog
  exact ⟨hdriver, who, current, front, back ++ rest, hbase, by simp⟩

/-- What was opened since was not opened before, if nothing is opened twice. -/
theorem not_mem (h : src.OpenedSince base conn log) (honce : (openedIn log).Nodup) :
    conn ∉ openedIn base := by
  obtain ⟨-, who, current, front, back, ⟨rest, rfl⟩, rfl⟩ := h
  intro hmem
  rw [openedIn_append, openedIn_append, openedIn_append] at honce
  have hdisjoint := (List.nodup_append.1 (List.nodup_append.1 honce).1).2.2
  refine hdisjoint conn (List.mem_append_left _ hmem) conn ?_ rfl
  show conn ∈ conn :: openedIn _
  exact List.mem_cons_self

end Source.OpenedSince

/-! ## A generation -/

namespace World

/-- All wrappers of a list are of one generation: it began when `base` stood in the log and `first` was
    the next identity, and the source has been `src` ever since. -/
structure Generation (src : Source) (base : List Exchange) (first : Nat) (w : World (Observed σ))
    (l : List Wrapper) : Prop where
  source : w.pool.source = src
  log : base <+: w.drivers.log
  next : first ≤ w.pool.nextWrapper
  fresh : ∀ c ∈ l, first ≤ c.id
  opened : ∀ c ∈ l, src.OpenedSince base c.conn w.drivers.log

namespace Generation

variable {src : Source} {base : List Exchange} {first : Nat} {w w' : World (Observed σ)}
  {l l' : List Wrapper}

/-- A generation lasts while the source stays and nobody joins but under a new identity, around a
    connection that belongs to it. -/
theorem later (h : Generation src base first w l) (hsource : w'.pool.source = w.pool.source)
    (hlog : w.drivers.log <+: w'.drivers.log) (hnext : w.pool.nextWrapper ≤ w'.pool.nextWrapper)
    (hl : ∀ c' ∈ l', ∃ c ∈ l, c'.conn = c.conn ∧ (c'.id = c.id ∨ w.pool.nextWrapper ≤ c'.id)) :
    Generation src base first w' l' where
  source := hsource.trans h.source
  log := h.log.trans hlog
  next := Nat.le_trans h.next hnext
  fresh c' hc' := by
    obtain ⟨c, hc, -, hid⟩ := hl c' hc'
    have hfresh := h.fresh c hc
    have hnow := h.next
    omega
  opened c' hc' := by
    obtain ⟨c, hc, hconn, -⟩ := hl c' hc'
    rw [hconn]
    exact (h.opened c hc).mono hlog

/-- The wrappers that are left are of the generation. -/
theorem leave (h : Generation src base first w l) (hsource : w'.pool.source = w.pool.source)
    (hlog : w.drivers.log <+: w'.drivers.log) (hnext : w.pool.nextWrapper ≤ w'.pool.nextWrapper)
    (hl : l' ⊆ l) : Generation src base first w' l' :=
  h.later hsource hlog hnext fun c' hc' => ⟨c', hl hc', rfl, Or.inl rfl⟩

/-- A wrapper that takes the place of another, around the same connection, is of the generation. -/
theorem replace {c c' : Wrapper} (h : Generation src base first w (c :: l))
    (hsource : w'.pool.source = w.pool.source) (hlog : w.drivers.log <+: w'.drivers.log)
    (hnext : w.pool.nextWrapper ≤ w'.pool.nextWrapper) (hconn : c'.conn = c.conn)
    (hid : c'.id = c.id ∨ w.pool.nextWrapper ≤ c'.id) :
    Generation src base first w' (c' :: l) := by
  refine h.later hsource hlog hnext fun d hd => ?_
  rcases List.mem_cons.1 hd with rfl | hd
  · exact ⟨c, List.mem_cons_self, hconn, hid⟩
  · exact ⟨d, List.mem_cons_of_mem _ hd, rfl, Or.inl rfl⟩

end Generation

variable (D : Drivers σ) (src : Source) (base : List Exchange) (first : Nat)

/-- **A generation is a ledger.** -/
theorem generation_ledger : Ledger (D.observed .pool) (Generation src base first) where
  perm h hl := h.leave rfl (List.prefix_refl _) (Nat.le_refl _) hl.symm.subset
  lists _ _ _ _ h := h.leave rfl (List.prefix_refl _) (Nat.le_refl _) (List.Subset.refl _)
  opened {w l who s'} _ hs h := by
    obtain ⟨current, hlog⟩ := w.pool.source.log_of_newConnection D hs
    have hprefix : w.drivers.log <+: (w.openedFor who s').drivers.log :=
      ⟨w.pool.source.opening who w.nextConn current, hlog.symm⟩
    have hafter : Generation src base first (w.openedFor who s') l :=
      h.leave rfl hprefix (Nat.le_succ _) (List.Subset.refl _)
    refine ⟨hafter.source, hafter.log, hafter.next, fun c hc => ?_, fun c hc => ?_⟩
    · rcases List.mem_cons.1 hc with rfl | hc
      · exact h.next
      · exact hafter.fresh c hc
    · rcases List.mem_cons.1 hc with rfl | hc
      · refine ⟨congrArg Source.driver h.source, who, current, w.drivers.log, [], h.log, ?_⟩
        rw [List.append_nil, ← h.source]
        exact hlog
      · exact hafter.opened c hc
  refused {w l who e s'} _ hs h := by
    have hsays := w.pool.source.newConnection_says D who w.nextConn w.drivers
    rw [hs] at hsays
    exact h.leave rfl hsays.isPrefix (Nat.le_refl _) (List.Subset.refl _)
  fit {w w' l c} hfit h := by
    have hpool := pool_of_isFit _ hfit
    exact h.leave (congrArg Pool.source hpool) (isFit_attends D hfit).isPrefix
      (Nat.le_of_eq (congrArg Pool.nextWrapper hpool.symm)) (List.Subset.refl _)
  unfit {w w' l c} hfit h := by
    have hgiven := (isFit_attends D hfit).trans (D.attends_giveUp c.conn w'.drivers)
    have hpool := pool_of_isFit _ hfit
    have hsource : w'.pool.source = w.pool.source := congrArg Pool.source hpool
    have hnext : w.pool.nextWrapper = w'.pool.nextWrapper := congrArg Pool.nextWrapper hpool.symm
    exact h.leave hsource hgiven.isPrefix (Nat.le_of_eq hnext) (List.subset_cons_self c l)
  rolledBack {w l c} h :=
    h.leave rfl (D.attends_rollbackIfManual c.conn w.drivers).isPrefix (Nat.le_refl _)
      (List.Subset.refl _)
  reclaimed {w l c} h :=
    h.replace rfl (D.attends_rollbackIfManual c.conn w.drivers).isPrefix (Nat.le_succ _) rfl
      (Or.inr (Nat.le_refl _))
  stamped _ h := h.replace rfl (List.prefix_refl _) (Nat.le_refl _) rfl (Or.inl rfl)
  kept h := h.replace rfl (List.prefix_refl _) (Nat.le_succ _) rfl (Or.inr (Nat.le_refl _))
  closed {w l c} h := h.leave rfl (D.attends_close c.conn w.drivers).isPrefix (Nat.le_refl _)
    (List.subset_cons_self c l)
  discarded {w l c} h := h.leave rfl (D.attends_giveUp c.conn w.drivers).isPrefix (Nat.le_refl _)
    (List.subset_cons_self c l)

/-- **A generation lasts** as long as the configuration is not changed. -/
theorem generation_kept : KeptBetween (D.observed .pool) (D.observed .holder)
    fun w => Generation src base first w w.pool.wrappers where
  count f h := (generation_ledger D src base first).count f h
  tryOut who startedAt budget r h :=
    (generation_ledger D src base first).rounds.tryOut who startedAt budget r h
  checkIn id h := (generation_ledger D src base first).rounds.checkIn id h
  invalidateAll h := (generation_ledger D src base first).rounds.invalidateAll h
  tolerate _ h := h.leave rfl (List.prefix_refl _) (Nat.le_refl _) (List.Subset.refl _)
  shut h := h.leave rfl (List.prefix_refl _) (Nat.le_refl _) (List.Subset.refl _)
  advance _ h := h.leave rfl (List.prefix_refl _) (Nat.le_refl _) (List.Subset.refl _)
  call _ _ h := h.leave rfl (List.prefix_append _ _) (Nat.le_refl _) (List.Subset.refl _)

end World

namespace Machine

section Runs

variable (D : Drivers σ) (source : Source) (config : PoolConfig) (s : σ)

/-- After the events `es` all wrappers are of the generation that began with `base` and `first`. -/
def OfGeneration (base : List Exchange) (first : Nat) (es : List (Event σ)) : Prop :=
  (reached D source config s es).world.Generation (sourceAt D source config s es) base first
    (reached D source config s es).world.pool.wrappers

variable {D source config s}

theorem nextWrapper_mono (es : List (Event σ)) (e : Event σ) :
    (reached D source config s es).world.pool.nextWrapper ≤
      (reached D source config s (es ++ [e])).world.pool.nextWrapper := by
  rw [reached_concat]
  rcases stepAs_hands (D.observed .pool) (D.observed .holder) (reached D source config s es)
    e.observed with ⟨-, hages, -⟩ | ⟨key, h, -, hout, -⟩
  · exact hages.nextWrapper
  · exact hout.nextWrapper

/-- A change of the configuration throws all away. -/
theorem emptied_of_reconfigure {m : Machine (Observed σ)} {change : Change}
    (h : m.admits (.reconfigure change) = true) :
    (m.observe D (.reconfigure change)).2.Emptied := by
  have hempty : ((m.onWorld (·.reconfigure (D.observed .pool) change)).wakeAll).Emptied := by
    have hall := emptied_invalidateAll (D.observed .pool) (m.onWorld (·.onPool (·.apply change)))
    exact ⟨hall.wrappers, hall.expected⟩
  have hstep : m.observe D (.reconfigure change) = (.nothing,
      ((m.onWorld (·.reconfigure (D.observed .pool) change)).wakeAll).settle (D.observed .pool)) :=
    if_pos h
  rw [hstep]
  rcases settle_cases (D.observed .pool)
    ((m.onWorld (·.reconfigure (D.observed .pool) change)).wakeAll) with e | ⟨-, e⟩
  · rw [e]
    exact hempty
  · rw [e]
    have hall := emptied_invalidateAll (D.observed .pool)
      ((m.onWorld (·.reconfigure (D.observed .pool) change)).wakeAll)
    exact ⟨hall.wrappers, hall.expected⟩

/-- What has no wrappers is of every generation. -/
theorem ofGeneration_of_emptied {base : List Exchange} {first : Nat} {es : List (Event σ)}
    (hempty : (reached D source config s es).Emptied)
    (hlog : base <+: (reached D source config s es).log)
    (hnext : first ≤ (reached D source config s es).world.pool.nextWrapper) :
    OfGeneration D source config s base first es := by
  refine ⟨rfl, hlog, hnext, ?_, ?_⟩
  all_goals
    intro c hc
    rw [hempty.wrappers] at hc
    nomatch hc

/-- **A generation goes on after every event.** -/
theorem generation_concat {base : List Exchange} {first : Nat} {es : List (Event σ)}
    (h : OfGeneration D source config s base first es) (e : Event σ) :
    OfGeneration D source config s base first (es ++ [e]) := by
  by_cases hchanges : ∃ change, e = .reconfigure change
  · obtain ⟨change, rfl⟩ := hchanges
    by_cases hadmits : (reached D source config s es).admits (.reconfigure change) = true
    · refine ofGeneration_of_emptied ?_ ?_ ?_
      · rw [reached_concat]
        exact emptied_of_reconfigure hadmits
      · exact h.log.trans (log_isPrefix D source config s (List.prefix_append _ _))
      · exact Nat.le_trans h.next (nextWrapper_mono es _)
    · have hsame : reached D source config s (es ++ [.reconfigure change]) =
          reached D source config s es := by
        rw [reached_concat]
        exact congrArg Prod.snd (if_neg hadmits)
      rw [OfGeneration, sourceAt, hsame]
      exact h
  · have hkept := observe_keptBetween
      (World.generation_kept D (sourceAt D source config s es) base first)
      (fun w f hw => hw.leave rfl (List.prefix_refl _) (Nat.le_refl _) (List.Subset.refl _))
      (reached D source config s es) e (fun change he => absurd ⟨change, he⟩ hchanges) h
    rw [← reached_concat] at hkept
    have hsource : sourceAt D source config s (es ++ [e]) = sourceAt D source config s es :=
      hkept.source
    rw [OfGeneration, hsource]
    exact hkept

theorem generation_from {base : List Exchange} {first : Nat} {es : List (Event σ)}
    (h : OfGeneration D source config s base first es) (rest : List (Event σ)) :
    OfGeneration D source config s base first (es ++ rest) := by
  induction rest using List.reverseRecOn with
  | nil => simpa using h
  | append_singleton rest e ih =>
    rw [← List.append_assoc]
    exact generation_concat ih e

/-- A new pool begins a generation. -/
theorem generation_reached (es : List (Event σ)) : OfGeneration D source config s [] 0 es := by
  have hnew : OfGeneration D source config s [] 0 [] :=
    ⟨rfl, List.nil_prefix, Nat.zero_le _, nofun, nofun⟩
  exact generation_from hnew es

/-- A change of the configuration begins a generation. -/
theorem generation_of_reconfigure {past : List (Event σ)} {change : Change}
    (h : (reached D source config s past).admits (.reconfigure change) = true)
    (rest : List (Event σ)) :
    OfGeneration D source config s (reached D source config s (past ++ [.reconfigure change])).log
      (reached D source config s past).world.pool.nextWrapper
      (past ++ .reconfigure change :: rest) := by
  have hbegins : OfGeneration D source config s
      (reached D source config s (past ++ [.reconfigure change])).log
      (reached D source config s past).world.pool.nextWrapper (past ++ [.reconfigure change]) := by
    refine ofGeneration_of_emptied ?_ (List.prefix_refl _) (nextWrapper_mono past _)
    rw [reached_concat]
    exact emptied_of_reconfigure h
  have hlasts := generation_from hbegins rest
  rwa [List.append_assoc, List.singleton_append] at hlasts

/-! ## What is handed out -/

/-- The wrapper of a handle that an event hands out is on the active list then. -/
theorem wrapper_of_acquired {es : List (Event σ)} {e : Event σ} {h : Handle}
    (ho : ((reached D source config s es).observe D e).1 = .acquired h) :
    (∃ c ∈ (reached D source config s (es ++ [e])).world.pool.active, c.handle = h) ∧
      sourceAt D source config s (es ++ [e]) = sourceAt D source config s es := by
  rw [sourceAt, reached_concat]
  rcases stepAs_hands (D.observed .pool) (D.observed .holder) (reached D source config s es)
    e.observed with ⟨hn, -, -⟩ | ⟨key, h', ho', hout, -⟩
  · rw [show (reached D source config s es).stepAs _ _ e.observed =
      (reached D source config s es).observe D e from rfl, ho] at hn
    cases hn
  · obtain rfl : h' = h := Outcome.acquired.inj (ho'.symm.trans ho)
    obtain ⟨rest, c, hactive, -, hc, -⟩ := hout.active
    refine ⟨⟨c, ?_, hc⟩, hout.source⟩
    rw [show ((reached D source config s es).observe D e).2.world.pool.active = rest ++ [c]
      from hactive]
    exact List.mem_append_right _ List.mem_cons_self

/-- What is handed out is of the generation. -/
theorem OfGeneration.openedSince {base : List Exchange} {first : Nat} {es : List (Event σ)}
    {e : Event σ} {h : Handle} (hgen : OfGeneration D source config s base first es)
    (ho : ((reached D source config s es).observe D e).1 = .acquired h) :
    (sourceAt D source config s es).OpenedSince base h.conn
      (reached D source config s (es ++ [e])).log := by
  obtain ⟨⟨c, hc, rfl⟩, hsource⟩ := wrapper_of_acquired ho
  rw [← hsource]
  exact (generation_concat hgen e).opened c (List.mem_append_left _ hc)

/-- What was handed out had been opened. -/
theorem opened_of_handedOut (es : List (Event σ)) {h : Handle}
    (hh : h ∈ handedOut (observeAll D source config s es).1) :
    h.conn ∈ openedIn (reached D source config s es).log := by
  induction es using List.reverseRecOn with
  | nil => nomatch hh
  | append_singleton es e ih =>
    have hlog := log_isPrefix D source config s (List.prefix_append es [e])
    rw [observeAll_concat] at hh
    cases ho : ((reached D source config s es).observe D e).1.handle? with
    | none =>
      rw [handedOut_append_none ho] at hh
      exact openedIn_subset hlog (ih hh)
    | some h' =>
      have ho' : ((reached D source config s es).observe D e).1 = .acquired h' := by
        cases he : ((reached D source config s es).observe D e).1 with
        | acquired _ =>
          rw [he] at ho
          exact congrArg Outcome.acquired (Option.some.inj ho)
        | _ =>
          rw [he] at ho
          nomatch ho
      rw [ho', handedOut_append_acquired] at hh
      rcases List.mem_append.1 hh with hh | hh
      · exact openedIn_subset hlog (ih hh)
      · obtain rfl := List.mem_singleton.1 hh
        obtain ⟨⟨c, hc, rfl⟩, -⟩ := wrapper_of_acquired ho'
        exact (listed_of_accounts (accounts_reached D source config s (es ++ [e]))
          (List.mem_append_left _ hc)).1

/-- The return of a handle that is not valid adds nothing to the lists. -/
theorem release_adds_nothing (D : Drivers σ) {os : List Outcome} {m : Machine (Observed σ)} {key : Key}
    {h : Handle} (howned : Owned os m) (hk : m.handle? key = some h)
    (hv : h.id ∉ m.world.pool.valid) :
    (m.observe D (.release key)).2.world.pool.idle.Sublist m.world.pool.idle ∧
      (m.observe D (.release key)).2.world.pool.active.Sublist m.world.pool.active := by
  have hworld := release_of_not_valid (D.observed .pool) howned hk hv
  have hstep : m.observe D (.release key) =
      (.nothing, (m.release (D.observed .pool) key).settle (D.observed .pool)) := rfl
  rw [hstep]
  rcases settle_cases (D.observed .pool) (m.release (D.observed .pool) key) with e | ⟨-, e⟩
  · rw [e, hworld]
    exact ⟨List.Sublist.refl _, List.Sublist.refl _⟩
  · have hempty := List.append_eq_nil_iff.1
      (emptied_invalidateAll (D.observed .pool) (m.release (D.observed .pool) key)).wrappers
    rw [e]
    exact ⟨hempty.2 ▸ List.nil_sublist _, hempty.1 ▸ List.nil_sublist _⟩

variable (D source config s)

/-- What holds after the events `es`, in which the configuration was changed after `past`. -/
structure NextGeneration (past : List (Event σ)) (change : Change) (es : List (Event σ)) : Prop where
  /-- What was handed out before is not valid. -/
  invalid : ∀ h ∈ handedOut (observeAll D source config s past).1,
    h.id ∉ (reached D source config s es).world.pool.valid
  /-- What is handed out was opened after the change, with the driver, the url, the properties, the
  timeout, the mode and the level of now. -/
  handsOut : ∀ e h, ((reached D source config s es).observe D e).1 = .acquired h →
    h.conn ∉ openedIn (reached D source config s past).log ∧
    (sourceAt D source config s es).OpenedSince
      (reached D source config s (past ++ [.reconfigure change])).log h.conn
      (reached D source config s (es ++ [e])).log
  /-- The connection of a handle from before is neither idle nor out. -/
  gone : ∀ h ∈ handedOut (observeAll D source config s past).1,
    ∀ c ∈ (reached D source config s es).world.pool.idle ++
      (reached D source config s es).world.pool.active, c.conn ≠ h.conn
  /-- The return of such a handle adds nothing to the lists. -/
  returned : ∀ key, ∀ h ∈ handedOut (observeAll D source config s past).1,
    (reached D source config s es).handle? key = some h →
      (reached D source config s (es ++ [.release key])).world.pool.idle.Sublist
        (reached D source config s es).world.pool.idle ∧
      (reached D source config s (es ++ [.release key])).world.pool.active.Sublist
        (reached D source config s es).world.pool.active

/-- **Generations do not mix.**  In every run, whatever the drivers answer: what is handed out was
    opened as it is configured at that moment; and after a change of the configuration, whatever was
    held, idle, waiting or returned around it, no handle from before is valid, what is handed out was
    opened after the change, and what was handed out before never comes back. -/
theorem generations_do_not_mix (D : Drivers σ) (source : Source) (config : PoolConfig) (s : σ) :
    (∀ es e h, ((reached D source config s es).observe D e).1 = .acquired h →
      (sourceAt D source config s es).OpenedSince [] h.conn
        (reached D source config s (es ++ [e])).log) ∧
    ∀ past change, (reached D source config s past).admits (.reconfigure change) = true →
      ∀ rest, NextGeneration D source config s past change
        (past ++ .reconfigure change :: rest) := by
  refine ⟨fun es e h ho => (generation_reached es).openedSince ho, fun past change hadmits rest => ?_⟩
  have hgen := generation_of_reconfigure hadmits rest
  have hbefore : ∀ conn ∈ openedIn (reached D source config s past).log,
      conn ∈ openedIn (reached D source config s (past ++ [.reconfigure change])).log :=
    openedIn_subset (log_isPrefix D source config s (List.prefix_append past [_]))
  have hinvalid : ∀ h ∈ handedOut (observeAll D source config s past).1,
      h.id ∉ (reached D source config s (past ++ .reconfigure change :: rest)).world.pool.valid := by
    intro h hh hvalid
    obtain ⟨c, hc, hid⟩ :=
      List.mem_map.1 (((owned_reached D source config s _).roster.valid h.id).1 hvalid)
    have hbelow := (owned_reached D source config s past).below h hh
    have hfresh := hgen.fresh c hc
    omega
  constructor
  case invalid => exact hinvalid
  case handsOut =>
    intro e h ho
    have hopened := hgen.openedSince ho
    refine ⟨fun hmem => ?_, hopened⟩
    exact hopened.not_mem (Accounted.opened (accounts_reached D source config s _)) (hbefore _ hmem)
  case gone =>
    intro h hh c hc hconn
    have hmem := hbefore _ (opened_of_handedOut past hh)
    have hopened := hgen.opened c (List.perm_append_comm.mem_iff.1 hc)
    rw [hconn] at hopened
    exact hopened.not_mem (Accounted.opened (accounts_reached D source config s _)) hmem
  case returned =>
    intro key h hh hk
    rw [reached_concat]
    exact release_adds_nothing D (owned_reached D source config s _) hk (hinvalid h hh)

end Runs

/-! ## A run that moves to another target -/

/-- One acquires, another waits, and the url is changed. -/
def moved : List (Event Bank) :=
  [.acquire 0 none, .acquire 1 none, .reconfigure (.url "mem://new")]

/-- The one who waited before the change is handed a connection that was opened after it, with the new
    url; and the return of the other handle keeps nothing. -/
theorem moved_together :
    (reached Bank.drivers target single [.scripted {}]
      [.acquire 0 none, .acquire 1 none]).admits (.reconfigure (.url "mem://new")) = true ∧
    (sourceAt Bank.drivers target single [.scripted {}] moved).config.url = "mem://new" ∧
    (∃ h, ((reached Bank.drivers target single [.scripted {}] moved).observe Bank.drivers
        (.resume 1)).1 = .acquired h ∧
      (sourceAt Bank.drivers target single [.scripted {}] moved).OpenedSince
        (reached Bank.drivers target single [.scripted {}] moved).log h.conn
        (reached Bank.drivers target single [.scripted {}] (moved ++ [.resume 1])).log) ∧
    (reached Bank.drivers target single [.scripted {}] (moved ++ [.release 0])).world.pool.idle = [] := by
  have hadmits : (reached Bank.drivers target single [.scripted {}]
      [.acquire 0 none, .acquire 1 none]).admits (.reconfigure (.url "mem://new")) = true := by
    decide +kernel
  have hnext := (generations_do_not_mix Bank.drivers target single [.scripted {}]).2 _ _ hadmits []
  refine ⟨hadmits, by decide +kernel, ?_, by decide +kernel⟩
  have ho : ((reached Bank.drivers target single [.scripted {}] moved).observe Bank.drivers
      (.resume 1)).1 = .acquired ⟨2, 2, ⟨0, 2⟩, .zero, .zero, .zero⟩ := by
    decide +kernel
  exact ⟨_, ho, (hnext.handsOut (.resume 1) _ ho).2⟩

end Machine

end ConnPool
