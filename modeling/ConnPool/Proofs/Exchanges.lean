/-
  Which connections a pool opens and closes.

  The log of an observed run tells which connections the pool opened and on which it called close,
  whatever the driver answered.  What a holder calls counts as neither.

  Each thing that a pool does with a driver continues the log in one of four ways.  It is `Quiet`, and
  nothing is opened or closed; or `About` one connection, which may be closed; or it surely `Closes`
  that connection in the end; or it `Opens` a new one.  An examination is the only thing that may or
  may not close, for a connection that fails its probe is closed at once.
-/
import ConnPool.Proofs.Observation

namespace ConnPool

variable {σ : Type}

/-! ## What a log says -/

/-- The connection that was opened. -/
def Exchange.opened? : Exchange → Option Conn
  | .connect conn _ _ (.ok _) => some conn
  | _ => none

/-- The connection on which the pool called close, whatever the answer. -/
def Exchange.closed? : Exchange → Option Conn
  | .call .pool conn .close _ => some conn
  | _ => none

/-- All connections that were opened, in order. -/
def openedIn (log : List Exchange) : List Conn := log.filterMap Exchange.opened?

/-- All connections that the pool closed, in order, each as often as it did. -/
def closedIn (log : List Exchange) : List Conn := log.filterMap Exchange.closed?

theorem openedIn_append (log log' : List Exchange) :
    openedIn (log ++ log') = openedIn log ++ openedIn log' :=
  List.filterMap_append

theorem closedIn_append (log log' : List Exchange) :
    closedIn (log ++ log') = closedIn log ++ closedIn log' :=
  List.filterMap_append

/-- An exchange that opens and closes nothing. -/
def Exchange.Silent (x : Exchange) : Prop :=
  x.opened? = none ∧ x.closed? = none

/-- An exchange that opens nothing, and closes no other connection. -/
def Exchange.On (conn : Conn) (x : Exchange) : Prop :=
  x.opened? = none ∧ ∀ c, x.closed? = some c → c = conn

theorem Exchange.Silent.on {conn : Conn} {x : Exchange} (h : x.Silent) : x.On conn :=
  ⟨h.1, fun _ hc => nomatch h.2.symm.trans hc⟩

/-- The log went on, and nothing was opened or closed. -/
abbrev Quiet : List Exchange → List Exchange → Prop :=
  Continues fun _ x => x.Silent

/-- The log went on, and nothing was done but to close one connection. -/
abbrev About (conn : Conn) : List Exchange → List Exchange → Prop :=
  Continues fun _ x => x.On conn

section Logs

variable {conn : Conn} {a b c : List Exchange}

theorem Quiet.about (h : Quiet a b) : About conn a b :=
  h.mono fun _ _ hx => hx.on

/-- Exchanges that open nothing leave what was opened as it is. -/
theorem Continues.openedIn_eq {Q : List Exchange → Exchange → Prop} (h : Continues Q a b)
    (hQ : ∀ log x, Q log x → x.opened? = none) : openedIn b = openedIn a := by
  induction h with
  | refl => rfl
  | tail _ hx ih =>
    obtain ⟨x, hx, rfl⟩ := hx
    rw [openedIn_append, ih, openedIn, openedIn, List.filterMap_cons_none (hQ _ x hx),
      List.filterMap_nil, List.append_nil]

theorem Quiet.openedIn_eq (h : Quiet a b) : openedIn b = openedIn a :=
  Continues.openedIn_eq h fun _ _ hx => hx.1

theorem About.openedIn_eq (h : About conn a b) : openedIn b = openedIn a :=
  Continues.openedIn_eq h fun _ _ hx => hx.1

theorem Quiet.closedIn_eq (h : Quiet a b) : closedIn b = closedIn a := by
  induction h with
  | refl => rfl
  | tail _ hx ih =>
    obtain ⟨x, hx, rfl⟩ := hx
    rw [closedIn_append, ih, closedIn, closedIn, List.filterMap_cons_none hx.2, List.filterMap_nil,
      List.append_nil]

/-- What was closed is what was closed before, or the one connection. -/
theorem About.mem_closedIn (h : About conn a b) {c : Conn} (hc : c ∈ closedIn b) :
    c = conn ∨ c ∈ closedIn a := by
  induction h with
  | refl => exact Or.inr hc
  | tail _ hx ih =>
    obtain ⟨x, hx, rfl⟩ := hx
    rw [closedIn_append] at hc
    rcases List.mem_append.1 hc with hc | hc
    · exact ih hc
    · obtain ⟨y, hy, hyc⟩ := List.mem_filterMap.1 hc
      obtain rfl := List.mem_singleton.1 hy
      exact Or.inl (hx.2 c hyc)

/-- A log that goes on about one connection, and ends with the pool closing it. -/
def Closes (conn : Conn) (a c : List Exchange) : Prop :=
  ∃ b x, About conn a b ∧ x.opened? = none ∧ x.closed? = some conn ∧ c = b ++ [x]

theorem Closes.after (h : About conn a b) (h' : Closes conn b c) : Closes conn a c := by
  obtain ⟨b', x, hb, hx, hx', rfl⟩ := h'
  exact ⟨b', x, h.trans hb, hx, hx', rfl⟩

theorem Closes.about (h : Closes conn a c) : About conn a c := by
  obtain ⟨b, x, hb, hx, hx', rfl⟩ := h
  exact hb.trans (.one ⟨hx, fun c hc => (Option.some.inj (hx'.symm.trans hc)).symm⟩)

/-- The one connection is closed in the end. -/
theorem Closes.mem_closedIn_iff (h : Closes conn a c) (d : Conn) :
    d ∈ closedIn c ↔ d = conn ∨ d ∈ closedIn a := by
  constructor
  · exact h.about.mem_closedIn
  · obtain ⟨b, x, hb, hx, hx', rfl⟩ := h
    rw [closedIn_append]
    rintro (rfl | hd)
    · exact List.mem_append_right _ (List.mem_filterMap.2 ⟨x, List.mem_cons_self, hx'⟩)
    · obtain ⟨rest, rfl⟩ := hb.isPrefix
      rw [closedIn_append]
      exact List.mem_append_left _ (List.mem_append_left _ hd)

end Logs

/-! ## What the pool says to the drivers -/

namespace Drivers

variable (D : Drivers σ)

/-- Every call of the pool but close is silent. -/
theorem silent_call {conn : Conn} {call : RawCall} {answer : Except ConnectionError (Option Bool)}
    (h : call ≠ .close) : (Exchange.call .pool conn call answer).Silent := by
  refine ⟨rfl, ?_⟩
  cases call with
  | close => exact absurd rfl h
  | _ => rfl

/-- Whatever a holder calls, the pool neither opens nor closes anything. -/
theorem silent_holder (conn : Conn) (call : RawCall)
    (answer : Except ConnectionError (Option Bool)) :
    (Exchange.call .holder conn call answer).Silent := ⟨rfl, rfl⟩

theorem quiet_call (conn : Conn) (call : RawCall) (h : call ≠ .close) (s : Observed σ) :
    Quiet s.log ((D.observed .pool).call conn call s).2.log :=
  says_call D conn call (fun _ _ => silent_call h) s

theorem quiet_rollbackIfManual (conn : Conn) (s : Observed σ) :
    Quiet s.log ((D.observed .pool).rollbackIfManual conn s).2.log :=
  says_rollbackIfManual D conn (fun _ _ => silent_call nofun) (fun _ _ => silent_call nofun) s

theorem closes_close (conn : Conn) (s : Observed σ) :
    Closes conn s.log (quietly ((D.observed .pool).call conn .close) s).log :=
  ⟨s.log, _, Continues.refl _, rfl, rfl, rfl⟩

/-- Giving a connection up ends with a close. -/
theorem closes_giveUp (conn : Conn) (s : Observed σ) :
    Closes conn s.log ((D.observed .pool).giveUp conn s).log :=
  (closes_close D conn _).after (quiet_rollbackIfManual D conn s).about

theorem quiet_probe (config : PoolConfig) (conn : Conn) (s : Observed σ) :
    Quiet s.log ((D.observed .pool).probe config conn s).2.log :=
  says_bind (says_call D conn (.execute config.pingQuery) fun _ _ => silent_call nofun)
    (fun _ => quiet_rollbackIfManual D conn) s

/-- An examination is silent if the connection is healthy, and may close it if it is not. -/
theorem isHealthy_log (config : PoolConfig) (now : Instant) (c : Wrapper) (s : Observed σ) :
    match (D.observed .pool).isHealthy config now c s with
    | (true, s') => Quiet s.log s'.log
    | (false, s') => About c.conn s.log s'.log := by
  have hasked := quiet_call D c.conn .isClosed nofun s
  rcases (D.observed .pool).isHealthy_cases config now c s with ⟨r, s₁, hr, -, e⟩ | ⟨s₁, hr, -, e⟩ |
    ⟨s₁, s₂, hr, -, hp, e⟩ | ⟨s₁, err, s₂, hr, -, hp, e⟩
  all_goals rw [hr] at hasked; rw [e]
  · exact hasked.about
  · exact hasked
  · have hprobed := quiet_probe D config c.conn s₁
    rw [hp] at hprobed
    exact hasked.trans hprobed
  · have hprobed := quiet_probe D config c.conn s₁
    rw [hp] at hprobed
    exact (hasked.about.trans hprobed.about).trans (closes_close D c.conn s₂).about

end Drivers

namespace SourceConfig

/-- To configure a connection is to call it, but not to close it. -/
theorem says_configure {Q : List Exchange → Exchange → Prop} (c : SourceConfig) (D : Drivers σ)
    (conn : Conn) (h : ∀ call, call ≠ .close → ∀ log answer, Q log (.call .pool conn call answer)) :
    Drivers.Says Q (c.configure (D.observed .pool) conn) := by
  have hcall : ∀ call : RawCall, call ≠ .close →
      Drivers.Says Q ((D.observed .pool).call conn call) :=
    fun call hne => Drivers.says_call D conn call (h call hne)
  refine Drivers.says_bind ?_ fun _ => Drivers.says_bind ?_ fun _ => ?_
  · unfold setTimeout
    split
    · exact hcall _ nofun
    · exact Drivers.says_pure ()
  · unfold setMode
    split
    · refine Drivers.says_bind (hcall _ nofun) fun current => ?_
      split
      · exact Drivers.says_pure ()
      · exact hcall _ nofun
    · exact Drivers.says_pure ()
  · unfold setLevel
    split
    · exact hcall _ nofun
    · exact Drivers.says_pure ()

theorem quiet_configure (c : SourceConfig) (D : Drivers σ) (conn : Conn) (s : Observed σ) :
    Quiet s.log (c.configure (D.observed .pool) conn s).2.log :=
  c.says_configure D conn (fun _ hne _ _ => Drivers.silent_call hne) s

end SourceConfig

/-- A log that goes on by opening a connection, and then silently. -/
def Opens (conn : Conn) (a c : List Exchange) : Prop :=
  ∃ x, x.opened? = some conn ∧ x.closed? = none ∧ Quiet (a ++ [x]) c

/-- A new connection is opened and configured; one that cannot be configured is closed again. -/
theorem Source.newConnection_log (D : Drivers σ) (src : Source) (who : Credentials) (conn : Conn)
    (s : Observed σ) :
    match src.newConnection (D.observed .pool) who conn s with
    | (.ok _, s') => Opens conn s.log s'.log
    | (.error _, s') => Quiet s.log s'.log ∨ ∃ b, Opens conn s.log b ∧ Closes conn b s'.log := by
  unfold Source.newConnection
  rcases hc : (D.observed .pool).connect conn src.config.url (src.config.propertiesFor who) s with
    ⟨r, s₁⟩
  have hlog : s₁.log = s.log ++ [.connect conn src.config.url (src.config.propertiesFor who) r] := by
    obtain ⟨rfl, rfl⟩ := Prod.mk.inj hc
    rfl
  rcases r with e | u
  · refine Or.inl ?_
    rw [hlog]
    exact Continues.one ⟨rfl, rfl⟩
  · have hconfigured := src.config.quiet_configure D conn s₁
    rw [hlog] at hconfigured
    rcases hf : src.config.configure (D.observed .pool) conn s₁ with ⟨r, s₂⟩
    rw [hf] at hconfigured
    have hopens : Opens conn s.log s₂.log := ⟨_, rfl, rfl, hconfigured⟩
    rcases r with e | u
    · simp only [hf]
      exact Or.inr ⟨s₂.log, hopens, Drivers.closes_close D conn s₂⟩
    · simp only [hf]
      exact hopens

end ConnPool
