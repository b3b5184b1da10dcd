/-
  Opening a connection.

  How a source opens a connection is spelled out as exchanges with the driver (`Source.opening`): the
  connect, and the calls that give the connection its timeout, mode and level.  These calls go by a
  plan (`SourceConfig.settings`), and what passes between source and driver takes one of three courses
  (`Source.Course`): the connect is refused; or everything goes as planned; or one of the calls fails,
  and then the connection is closed, however that is answered, and the failure of that call is the
  result.  Every answer of every driver leads to one of them (`Source.newConnection_course`).

  That the settings are those of the connection afterwards depends on the driver: it has to do what it
  answers to have done (`Drivers.Honours`).  The driver in memory does (`Memory.honours`).
-/
import ConnPool.Driver.Memory
import ConnPool.Proofs.Erasure
import ConnPool.Proofs.Exchanges
import ConnPool.Proofs.Plans
import ConnPool.Proofs.Unprobed

namespace ConnPool

variable {σ α β : Type}

/-! ## The plan -/

namespace SourceConfig

variable (c : SourceConfig) (conn : Conn)

/-- The call that gives a connection the configured network timeout. -/
def timeoutSettings : List Exchange :=
  match c.networkTimeout with
  | some timeout => [.call .pool conn (.setNetworkTimeout timeout) (.ok none)]
  | none => []

/-- The calls that give a connection the configured mode, when it has the mode `current`. -/
def modeSettings (current : Bool) : List Exchange :=
  match c.autoCommit with
  | some mode =>
    .call .pool conn .autoCommit (.ok (some current)) ::
      if current = mode then [] else [.call .pool conn (.setAutoCommit mode) (.ok none)]
  | none => []

/-- The call that gives a connection the configured isolation level. -/
def levelSettings : List Exchange :=
  match c.isolation with
  | some level => [.call .pool conn (.setIsolation level) (.ok none)]
  | none => []

/-- All calls on a connection that has just been opened, with the mode `current`. -/
def settings (current : Bool) : List Exchange :=
  c.timeoutSettings conn ++ (c.modeSettings conn current ++ c.levelSettings conn)

end SourceConfig

/-- What passes between a source and its driver when a connection is opened for a caller with success:
    the connect, and all settings.  The connection has the mode `current` at first. -/
def Source.opening (src : Source) (who : Credentials) (conn : Conn) (current : Bool) :
    List Exchange :=
  .connect conn src.config.url (src.config.propertiesFor who) (.ok ()) ::
    (src.config.timeoutSettings conn ++
      (src.config.modeSettings conn current ++ src.config.levelSettings conn))

namespace SourceConfig

variable (c : SourceConfig) (conn : Conn)

/-- A call that sets something on a connection, or asks for what is set. -/
def Sets (conn : Conn) (x : Exchange) : Prop :=
  ∃ call answer, x = .call .pool conn call answer ∧ call.Gentle

/-- The settings are made by gentle calls, and they are planned to succeed. -/
theorem settings_spec (current : Bool) :
    ∀ x ∈ c.settings conn current, Sets conn x ∧ x.error? = none := by
  refine List.forall_mem_append.2 ⟨?timeout, List.forall_mem_append.2 ⟨?mode, ?level⟩⟩
  case timeout =>
    unfold timeoutSettings
    split
    · exact List.forall_mem_singleton.2 ⟨⟨_, _, rfl, nofun, nofun⟩, rfl⟩
    · exact List.forall_mem_nil _
  case mode =>
    unfold modeSettings
    split
    · refine List.forall_mem_cons.2 ⟨⟨⟨_, _, rfl, nofun, nofun⟩, rfl⟩, ?_⟩
      split
      · exact List.forall_mem_nil _
      · exact List.forall_mem_singleton.2 ⟨⟨_, _, rfl, nofun, nofun⟩, rfl⟩
    · exact List.forall_mem_nil _
  case level =>
    unfold levelSettings
    split
    · exact List.forall_mem_singleton.2 ⟨⟨_, _, rfl, nofun, nofun⟩, rfl⟩
    · exact List.forall_mem_nil _

theorem sets_of_mem_settings (current : Bool) : ∀ x ∈ c.settings conn current, Sets conn x :=
  fun x hx => (c.settings_spec conn current x hx).1

theorem smooth_settings (current : Bool) : Smooth (c.settings conn current) :=
  fun x hx => (c.settings_spec conn current x hx).2

section Follows

variable (D : Drivers σ) (s : Observed σ)

theorem follows_setTimeout : Drivers.Follows (c.timeoutSettings conn) s
    (c.setTimeout (D.observed .pool) conn s) := by
  cases hconfigured : c.networkTimeout with
  | none =>
    simp only [setTimeout, timeoutSettings, hconfigured]
    exact Drivers.follows_pure () s
  | some timeout =>
    simp only [setTimeout, timeoutSettings, hconfigured]
    exact D.follows_call .pool conn _ (fun _ => rfl) s

theorem follows_setMode : ∃ current, Drivers.Follows (c.modeSettings conn current) s
    (c.setMode (D.observed .pool) conn s) := by
  cases hconfigured : c.autoCommit with
  | none =>
    simp only [setMode, modeSettings, hconfigured]
    exact ⟨false, Drivers.follows_pure () s⟩
  | some mode =>
    simp only [setMode, modeSettings, hconfigured]
    refine D.follows_ask (fun current s' => ?_) s
    -- the mode is set only if the connection has another
    by_cases hmode : current = mode
    · rw [if_pos hmode, if_pos hmode]
      exact Drivers.follows_pure () s'
    · rw [if_neg hmode, if_neg hmode]
      exact D.follows_call .pool conn _ (fun _ => rfl) s'

theorem follows_setLevel : Drivers.Follows (c.levelSettings conn) s
    (c.setLevel (D.observed .pool) conn s) := by
  cases hconfigured : c.isolation with
  | none =>
    simp only [setLevel, levelSettings, hconfigured]
    exact Drivers.follows_pure () s
  | some level =>
    simp only [setLevel, levelSettings, hconfigured]
    exact D.follows_call .pool conn _ (fun _ => rfl) s

/-- A new connection is configured by the plan. -/
theorem follows_configure : ∃ current, Drivers.Follows (c.settings conn current) s
    (c.configure (D.observed .pool) conn s) := by
  refine (c.follows_setTimeout conn D s).bind_some fun _ s₁ => ?_
  obtain ⟨current, hmode⟩ := c.follows_setMode conn D s₁
  exact ⟨current, hmode.bind fun _ s₂ _ => c.follows_setLevel conn D s₂⟩

end Follows

end SourceConfig

/-! ## The three courses -/

/-- What passes between a source and its driver when a connection is opened for a caller, and what comes
    of it. -/
inductive Source.Course (src : Source) (who : Credentials) (conn : Conn) :
    Except ConnectionError Unit → List Exchange → Prop
  /-- The driver opens nothing. -/
  | refused (e : ConnectionError) : Course src who conn (.error e)
      [.connect conn src.config.url (src.config.propertiesFor who) (.error e)]
  /-- The connection is opened, and everything is set. -/
  | opened (current : Bool) : Course src who conn (.ok ()) (src.opening who conn current)
  /-- The connection is opened, but the settings are stopped by a failure, and it is closed. -/
  | givenUp (current : Bool) (e : ConnectionError) (said : List Exchange)
      (answer : Except ConnectionError (Option Bool))
      (stopped : Stopped (src.config.settings conn current) e said) : Course src who conn (.error e)
      (.connect conn src.config.url (src.config.propertiesFor who) (.ok ()) ::
        (said ++ [.call .pool conn .close answer]))

/-- **Whatever the driver answers**, the opening of a connection takes one of the three courses. -/
theorem Source.newConnection_course (src : Source) (D : Drivers σ) (who : Credentials) (conn : Conn)
    (s : Observed σ) : ∃ said,
      (src.newConnection (D.observed .pool) who conn s).2.log = s.log ++ said ∧
      src.Course who conn (src.newConnection (D.observed .pool) who conn s).1 said := by
  unfold newConnection
  rcases hc : (D.observed .pool).connect conn src.config.url (src.config.propertiesFor who) s with
    ⟨r, s₁⟩
  have hconnect : s₁.log =
      s.log ++ [.connect conn src.config.url (src.config.propertiesFor who) r] := by
    obtain ⟨rfl, rfl⟩ := Prod.mk.inj hc
    rfl
  rcases r with e | ⟨⟩
  · exact ⟨_, hconnect, .refused e⟩
  · obtain ⟨current, hplan⟩ := src.config.follows_configure conn D s₁
    rcases hf : src.config.configure (D.observed .pool) conn s₁ with ⟨r, s₂⟩
    rw [hf] at hplan
    dsimp only
    simp only [hf]
    cases hplan with
    | through log =>
      refine ⟨src.opening who conn current, ?_, .opened current⟩
      rw [log, hconnect, List.append_assoc]
      rfl
    | stopped hstopped log =>
      refine ⟨_, ?_, .givenUp current _ _
        (((D.observed .pool).call conn .close s₂).1.map (RawCall.report .close)) hstopped⟩
      show ((D.observed .pool).call conn .close s₂).2.log = _
      rw [D.log_of_call, log, hconnect]
      simp only [List.append_assoc, List.cons_append, List.nil_append]

/-- **What passes between a source and its driver** when it opens a connection. -/
theorem Source.log_of_newConnection (src : Source) (D : Drivers σ) {who : Credentials} {conn : Conn}
    {s s' : Observed σ} (h : src.newConnection (D.observed .pool) who conn s = (.ok (), s')) :
    ∃ current, s'.log = s.log ++ src.opening who conn current := by
  obtain ⟨said, hlog, hcourse⟩ := src.newConnection_course D who conn s
  rw [h] at hlog hcourse
  cases hcourse with
  | opened current => exact ⟨current, hlog⟩

/-! ## What the courses have in common -/

/-- An attempt to open a connection. -/
def Exchange.isConnect : Exchange → Bool
  | .connect .. => true
  | .call .. => false

namespace SourceConfig

variable {conn : Conn} {x : Exchange} {l : List Exchange}

theorem Sets.isConnect_eq (h : Sets conn x) : x.isConnect = false := by
  obtain ⟨call, answer, rfl, -⟩ := h
  rfl

theorem Sets.silent (h : Sets conn x) : x.Silent := by
  obtain ⟨call, answer, rfl, hclose, -⟩ := h
  exact Drivers.silent_call hclose

theorem Sets.failing (h : Sets conn x) (e : ConnectionError) : Sets conn (x.failing e) := by
  obtain ⟨call, answer, rfl, hgentle⟩ := h
  exact ⟨call, .error e, rfl, hgentle⟩

/-- What takes place of the settings that are stopped sets something, too. -/
theorem sets_of_stopped {plan said : List Exchange} {e : ConnectionError}
    (hplan : ∀ x ∈ plan, Sets conn x) (h : Stopped plan e said) : ∀ x ∈ said, Sets conn x := by
  obtain ⟨done, x, rest, rfl, rfl⟩ := h
  refine List.forall_mem_append.2 ⟨fun y hy => hplan y (List.mem_append_left _ hy), ?_⟩
  exact List.forall_mem_singleton.2 ((hplan x (by simp)).failing e)

theorem filter_isConnect_of_sets (h : ∀ x ∈ l, Sets conn x) : l.filter Exchange.isConnect = [] :=
  List.filter_eq_nil_iff.2 fun x hx => by rw [(h x hx).isConnect_eq]; exact Bool.false_ne_true

theorem closedIn_of_sets (h : ∀ x ∈ l, Sets conn x) : closedIn l = [] :=
  List.filterMap_eq_nil_iff.2 fun x hx => (h x hx).silent.2

end SourceConfig

/-- The property map of a connect: the caller's name and password, where it brings them, and all else
    as the driver properties have it. -/
theorem SourceConfig.get?_propertiesFor (c : SourceConfig) (who : Credentials) (name : String) :
    (c.propertiesFor who).get? name =
      if name = "user" then who.username <|> c.properties.get? "user"
      else if name = "password" then who.password <|> c.properties.get? "password"
      else c.properties.get? name := by
  obtain ⟨username, password⟩ := who
  have hnames : ("user" : String) ≠ "password" := by decide
  cases username <;> cases password <;>
    simp only [propertiesFor, Properties.override, Properties.get?_set] <;> grind

namespace Source.Course

variable {src : Source} {who : Credentials} {conn : Conn} {r : Except ConnectionError Unit}
  {said : List Exchange}

/-- There is one connect, the first exchange of all. -/
theorem connects_once (h : src.Course who conn r said) : ∃ answer rest,
    said = .connect conn src.config.url (src.config.propertiesFor who) answer :: rest ∧
    rest.filter Exchange.isConnect = [] := by
  cases h with
  | refused e => exact ⟨_, [], rfl, rfl⟩
  | opened current =>
    exact ⟨_, _, rfl,
      SourceConfig.filter_isConnect_of_sets (src.config.sets_of_mem_settings conn current)⟩
  | givenUp current e said answer stopped =>
    have hsets := SourceConfig.sets_of_stopped (src.config.sets_of_mem_settings conn current) stopped
    refine ⟨_, _, rfl, ?_⟩
    rw [List.filter_append, SourceConfig.filter_isConnect_of_sets hsets]
    rfl

/-- A connection is opened for good if nothing failed. -/
theorem ok_iff_smooth (h : src.Course who conn r said) : r = .ok () ↔ Smooth said := by
  cases h with
  | refused e => exact ⟨nofun, fun hs => nomatch hs _ List.mem_cons_self⟩
  | opened current => exact ⟨fun _ => .cons rfl (src.config.smooth_settings conn current), fun _ => rfl⟩
  | givenUp current e said answer stopped =>
    refine ⟨nofun, fun hs => absurd ?_ stopped.not_smooth⟩
    exact Smooth.left fun x hx => hs x (List.mem_cons_of_mem _ hx)

/-- The result is the first failure, whatever failed afterwards. -/
theorem first_failure {e : ConnectionError} (h : src.Course who conn (.error e) said) :
    said.findSome? Exchange.error? = some e := by
  cases h with
  | refused e => rfl
  | givenUp current e said answer stopped =>
    rw [List.findSome?_cons, Exchange.error?_connect_ok]
    dsimp only
    rw [List.findSome?_append, stopped.first_failure (src.config.smooth_settings conn current),
      Option.some_or]

/-- A connection that is handed on is not closed. -/
theorem closedIn_of_ok (h : src.Course who conn (.ok ()) said) : closedIn said = [] := by
  cases h with
  | opened current =>
    show closedIn (src.config.settings conn current) = []
    exact SourceConfig.closedIn_of_sets (src.config.sets_of_mem_settings conn current)

/-- A connection that is opened but not handed on is closed, once and last. -/
theorem closed_of_error {e : ConnectionError} (h : src.Course who conn (.error e) said)
    (hopened : conn ∈ openedIn said) :
    closedIn said = [conn] ∧ ∃ answer, said.getLast? = some (.call .pool conn .close answer) := by
  cases h with
  | refused e => nomatch hopened
  | givenUp current e said answer stopped =>
    have hsets := SourceConfig.sets_of_stopped (src.config.sets_of_mem_settings conn current) stopped
    constructor
    · show closedIn (said ++ [.call .pool conn .close answer]) = _
      rw [closedIn_append, SourceConfig.closedIn_of_sets hsets]
      rfl
    · exact ⟨answer, by simp [List.getLast?_cons, List.getLast?_append]⟩

end Source.Course

/-! ## Drivers that do what they say -/

/-- What can be set on a connection. -/
structure ConnSettings where
  timeout : Option Duration
  mode : Bool
  level : Option Isolation
deriving DecidableEq, Repr

/-- Drivers whose connections have what was set on them with success, as `view` shows, and the mode that
    they answer to have. -/
structure Drivers.Honours (D : Drivers σ) (view : σ → Conn → ConnSettings) : Prop where
  setTimeout : ∀ conn timeout s s', D.call conn (.setNetworkTimeout timeout) s = (.ok (), s') →
    view s' conn = { view s conn with timeout := some timeout }
  answersMode : ∀ conn mode s s', D.call conn .autoCommit s = (.ok mode, s') →
    (view s conn).mode = mode ∧ view s' conn = view s conn
  setMode : ∀ conn mode s s', D.call conn (.setAutoCommit mode) s = (.ok (), s') →
    view s' conn = { view s conn with mode }
  setLevel : ∀ conn level s s', D.call conn (.setIsolation level) s = (.ok (), s') →
    view s' conn = { view s conn with level := some level }

/-- A connection has all that is configured for it. -/
structure ConnSettings.Meets (v : ConnSettings) (c : SourceConfig) : Prop where
  timeout : ∀ timeout, c.networkTimeout = some timeout → v.timeout = some timeout
  mode : ∀ mode, c.autoCommit = some mode → v.mode = mode
  level : ∀ level, c.isolation = some level → v.level = some level

/-- Two things done one after the other succeed if both do. -/
theorem Calls.bind_ok {action : Calls σ α} {f : α → Calls σ β} {s s'' : σ} {b : β}
    (h : (action >>= f) s = (.ok b, s'')) :
    ∃ a s', action s = (.ok a, s') ∧ f a s' = (.ok b, s'') := by
  rw [Calls.bind_run] at h
  rcases hr : action s with ⟨r, s'⟩
  rw [hr] at h
  cases r with
  | error e => nomatch h
  | ok a => exact ⟨a, s', rfl, h⟩

namespace SourceConfig

variable {c : SourceConfig} {D : Drivers σ} {view : σ → Conn → ConnSettings} {conn : Conn} {s s' : σ}

theorem view_of_setTimeout (hD : D.Honours view) (h : c.setTimeout D conn s = (.ok (), s')) :
    view s' conn =
      { view s conn with timeout := c.networkTimeout <|> (view s conn).timeout } := by
  cases hconfigured : c.networkTimeout with
  | none =>
    simp only [setTimeout, hconfigured] at h
    obtain ⟨-, rfl⟩ := Prod.mk.inj h
    rfl
  | some timeout =>
    simp only [setTimeout, hconfigured] at h
    exact hD.setTimeout conn timeout s s' h

theorem view_of_setMode (hD : D.Honours view) (h : c.setMode D conn s = (.ok (), s')) :
    view s' conn = { view s conn with mode := c.autoCommit.getD (view s conn).mode } := by
  cases hconfigured : c.autoCommit with
  | none =>
    simp only [setMode, hconfigured] at h
    obtain ⟨-, rfl⟩ := Prod.mk.inj h
    rfl
  | some mode =>
    simp only [setMode, hconfigured] at h
    obtain ⟨current, s₁, hasked, hset⟩ := Calls.bind_ok h
    obtain ⟨hcurrent, hview⟩ := hD.answersMode conn current s s₁ hasked
    by_cases hmode : current = mode
    · rw [if_pos hmode] at hset
      obtain ⟨-, rfl⟩ := Prod.mk.inj hset
      rw [hview, Option.getD_some, ← hmode, ← hcurrent]
    · rw [if_neg hmode] at hset
      rw [hD.setMode conn mode s₁ s' hset, hview, Option.getD_some]

theorem view_of_setLevel (hD : D.Honours view) (h : c.setLevel D conn s = (.ok (), s')) :
    view s' conn = { view s conn with level := c.isolation <|> (view s conn).level } := by
  cases hconfigured : c.isolation with
  | none =>
    simp only [setLevel, hconfigured] at h
    obtain ⟨-, rfl⟩ := Prod.mk.inj h
    rfl
  | some level =>
    simp only [setLevel, hconfigured] at h
    exact hD.setLevel conn level s s' h

/-- **What a configured connection has**: all that is configured, and nothing else is changed. -/
theorem view_of_configure (hD : D.Honours view) (h : c.configure D conn s = (.ok (), s')) :
    view s' conn = {
      timeout := c.networkTimeout <|> (view s conn).timeout
      mode := c.autoCommit.getD (view s conn).mode
      level := c.isolation <|> (view s conn).level } := by
  obtain ⟨⟨⟩, s₁, htimeout, hrest⟩ := Calls.bind_ok h
  obtain ⟨⟨⟩, s₂, hmode, hlevel⟩ := Calls.bind_ok hrest
  rw [view_of_setLevel hD hlevel, view_of_setMode hD hmode, view_of_setTimeout hD htimeout]

end SourceConfig

theorem Source.meets_of_newConnection {src : Source} {D : Drivers σ}
    {view : σ → Conn → ConnSettings} {who : Credentials} {conn : Conn} {s s' : σ}
    (hD : D.Honours view) (h : src.newConnection D who conn s = (.ok (), s')) :
    (view s' conn).Meets src.config := by
  unfold newConnection at h
  rcases hc : D.connect conn src.config.url (src.config.propertiesFor who) s with ⟨r, s₁⟩
  rw [hc] at h
  rcases r with e | ⟨⟩
  · nomatch h
  · rcases hf : src.config.configure D conn s₁ with ⟨r, s₂⟩
    simp only [hf] at h
    rcases r with e | ⟨⟩
    · nomatch h
    · obtain ⟨-, rfl⟩ := Prod.mk.inj h
      rw [SourceConfig.view_of_configure hD hf]
      exact ⟨fun _ ht => by rw [ht]; rfl, fun _ hm => by rw [hm]; rfl, fun _ hl => by rw [hl]; rfl⟩

namespace Memory

/-- What a connection in memory has; there is nothing to see of one that was never opened. -/
def view (m : Memory) (conn : Conn) : ConnSettings :=
  match m.find? conn.ticket with
  | some c => ⟨c.networkTimeout, c.autoCommit, c.isolation⟩
  | none => ⟨none, true, none⟩

theorem view_of_find? {m : Memory} {conn : Conn} {c : MemoryConn} (h : m.find? conn.ticket = some c) :
    m.view conn = ⟨c.networkTimeout, c.autoCommit, c.isolation⟩ := by
  rw [view, h]

/-- What a connection has, when its state was replaced. -/
theorem view_update {m : Memory} {conn : Conn} {c c' : MemoryConn}
    (h : m.find? conn.ticket = some c) (hticket : c'.ticket = conn.ticket) :
    (m.update c').view conn = ⟨c'.networkTimeout, c'.autoCommit, c'.isolation⟩ := by
  refine view_of_find? ?_
  rw [find?_update, h, Option.map_some, if_pos ((ticket_of_find? h).trans hticket.symm)]

/-- A call that succeeds, other than the questions about its liveness and its end, was made on a
    connection that is there and open. -/
theorem callOpen_of_call {m m' : Memory} {ticket : Nat} {call : RawCall} {a : call.Answer}
    (h : m.call ticket call = (.ok a, m')) (hasks : call ≠ .isClosed) (hcloses : call ≠ .close) :
    ∃ c, m.find? ticket = some c ∧ c.ticket = ticket ∧ m.callOpen c call = (.ok a, m') := by
  unfold Memory.call at h
  rcases hc : m.find? ticket with _ | c
  · rw [hc] at h
    nomatch h
  · rw [hc] at h
    refine ⟨c, rfl, ticket_of_find? hc, ?_⟩
    cases call with
    | isClosed => exact absurd rfl hasks
    | close => exact absurd rfl hcloses
    | _ =>
      by_cases hclosed : c.closed = true
      · simp only [callConn, hclosed, if_true] at h
        nomatch h
      · simp only [callConn, hclosed] at h
        exact h

/-- **A driver in memory does what it says.** -/
theorem honours : drivers.Honours view where
  setTimeout conn timeout m m' h := by
    obtain ⟨c, hc, hticket, hopen⟩ := callOpen_of_call h nofun nofun
    obtain rfl : m.update { c with networkTimeout := some timeout } = m' := congrArg Prod.snd hopen
    exact (view_update hc (by exact hticket)).trans (by rw [view_of_find? hc])
  answersMode conn mode m m' h := by
    obtain ⟨c, hc, -, hopen⟩ := callOpen_of_call h nofun nofun
    obtain rfl : m = m' := congrArg Prod.snd hopen
    refine ⟨?_, rfl⟩
    rw [view_of_find? hc]
    exact Except.ok.inj (congrArg Prod.fst hopen)
  setMode conn mode m m' h := by
    obtain ⟨c, hc, hticket, hopen⟩ := callOpen_of_call h nofun nofun
    obtain rfl : m.update { c with autoCommit := mode } = m' := congrArg Prod.snd hopen
    exact (view_update hc (by exact hticket)).trans (by rw [view_of_find? hc])
  setLevel conn level m m' h := by
    obtain ⟨c, hc, hticket, hopen⟩ := callOpen_of_call h nofun nofun
    obtain rfl : m.update { c with isolation := some level } = m' := congrArg Prod.snd hopen
    exact (view_update hc (by exact hticket)).trans (by rw [view_of_find? hc])

end Memory

/-! ## Complete, or closed -/

namespace Source

/-- An attempt to open a connection for a caller, over drivers in the state `s`, during which `said`
    passes between the source and its driver: it comes to `r` and leaves the drivers in the state
    `s'`. -/
structure OpensOrCloses (src : Source) (D : Drivers σ) (who : Credentials) (conn : Conn)
    (s : Observed σ) (said : List Exchange) (r : Except ConnectionError Unit) (s' : Observed σ) :
    Prop where
  result : src.newConnection (D.observed .pool) who conn s = (r, s')
  /-- It comes to the same, with the same drivers, when nobody takes notes. -/
  unobserved : src.newConnection D who conn s.drivers = (r, s'.drivers)
  log : s'.log = s.log ++ said
  /-- The settings are made in order, and no more of them after the first that fails. -/
  course : src.Course who conn r said
  /-- There is one connect, with the url and the properties for the caller, and it comes first. -/
  connect : ∃ answer, said.head? =
      some (.connect conn src.config.url (src.config.propertiesFor who) answer) ∧
    (said.filter Exchange.isConnect).length = 1
  /-- The properties are the configured ones, but for the name and the password that the caller
      brings. -/
  properties : ∀ name, (src.config.propertiesFor who).get? name =
    if name = "user" then who.username <|> src.config.properties.get? "user"
    else if name = "password" then who.password <|> src.config.properties.get? "password"
    else src.config.properties.get? name
  /-- After a connect that fails there is no further call, and its failure is the result. -/
  refused : ∀ e, said.head? =
      some (.connect conn src.config.url (src.config.propertiesFor who) (.error e)) →
    said.length = 1 ∧ r = .error e
  /-- The connection is handed on if nothing failed, and only then. -/
  ok_iff : r = .ok () ↔ Smooth said
  /-- A connection that is handed on was not closed, and has what is configured for it. -/
  complete : r = .ok () → closedIn said = [] ∧
    ∀ view, D.Honours view → (view s'.drivers conn).Meets src.config
  /-- The result is the first failure, also if the close fails too. -/
  failure : ∀ e, r = .error e → said.findSome? Exchange.error? = some e
  /-- A connection that was opened and is not handed on is closed once, and that is the last call. -/
  closed : r ≠ .ok () → conn ∈ openedIn said → closedIn said = [conn] ∧
    ∃ answer, said.getLast? = some (.call .pool conn .close answer)

/-- **A new connection is complete or closed**, whatever the configuration, the caller and the answers
    of the driver. -/
theorem complete_or_closed (src : Source) (D : Drivers σ) (who : Credentials) (conn : Conn)
    (s : Observed σ) : ∃ said r s', src.OpensOrCloses D who conn s said r s' := by
  obtain ⟨said, hlog, hcourse⟩ := src.newConnection_course D who conn s
  have hplain := src.newConnection_over (D.observed_over .pool) who conn s
  rcases hresult : src.newConnection (D.observed .pool) who conn s with ⟨r, s'⟩
  rw [hresult] at hlog hcourse hplain
  refine ⟨said, r, s', hresult, hplain, hlog, hcourse, ?connect, src.config.get?_propertiesFor who,
    ?refused, hcourse.ok_iff_smooth, ?complete, ?failure, ?closed⟩
  case connect =>
    obtain ⟨answer, rest, rfl, hrest⟩ := hcourse.connects_once
    exact ⟨answer, rfl, by rw [List.filter_cons_of_pos rfl, hrest]; rfl⟩
  case refused =>
    intro e he
    cases hcourse with
    | refused e' =>
      obtain rfl : e' = e := by simpa using he
      exact ⟨rfl, rfl⟩
    | opened current => simp [opening] at he
    | givenUp current e' said answer stopped => simp at he
  case complete =>
    rintro rfl
    exact ⟨hcourse.closedIn_of_ok, fun view hD => meets_of_newConnection hD hplain⟩
  case failure =>
    rintro e rfl
    exact hcourse.first_failure
  case closed =>
    intro hr hopened
    cases r with
    | ok u => exact absurd rfl hr
    | error e =>
      exact hcourse.closed_of_error hopened

end Source

end ConnPool
