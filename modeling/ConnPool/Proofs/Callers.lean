/-
  On whose credentials a connection is opened.

  The driver, the url and the properties are looked up when a connection is opened, the credentials are
  not: an acquisition that brings none takes those that are configured when it begins, and keeps them
  while it waits.  A change of the configuration wakes it, and it opens a connection to the new target
  for the former user.

  Which acquisition an event goes on with is read off the run (`Serves`): it begins with the event, or
  it began with an earlier one and has waited under its key ever since (`Begun`).  Everybody who waits
  began once (`begun_of_waits`), and only once (`Begun.unique`).  So a connect for a caller without
  credentials is as configured just when the credentials that were configured when the caller began
  come to the same as those of now (`connects_as_begun`), and `dials_for_former_user` is a run in
  which they do not.
-/
import ConnPool.Driver.Bank
import ConnPool.Proofs.Conduct
import ConnPool.Proofs.Deeds

namespace ConnPool

variable {σ : Type}

namespace Machine

/-! ## Who waits -/

/-- An acquisition waits under the key. -/
def Waits (m : Machine σ) (key : Key) : Prop :=
  key ∈ m.waiters.map (·.1)

instance (m : Machine σ) (key : Key) : Decidable (m.Waits key) :=
  inferInstanceAs (Decidable (key ∈ m.waiters.map (·.1)))

theorem waits_of_mem {m : Machine σ} {key : Key} {p : Waiter} (h : (key, p) ∈ m.waiters) :
    m.Waits key :=
  List.mem_map_of_mem h

/-- An acquisition begins under a key that nobody waits under. -/
theorem not_waits_of_admits {m : Machine σ} {key : Key} {who : Option Credentials}
    (h : m.admits (.acquire key who) = true) : ¬ m.Waits key := by
  have hfree : m.waiter? key = none := by
    simp only [admits, isFree, Bool.and_eq_true, Option.isNone_iff_eq_none] at h
    exact h.2.1.1
  intro hwaits
  obtain ⟨⟨key', p⟩, hp, rfl⟩ := List.mem_map.1 hwaits
  have := List.lookup_eq_none_iff.1 hfree _ hp
  simp at this

/-- Nobody waits in the second machine but who waited in the first, for the same user. -/
def KeepsQueue (m : Machine σ) (m' : Machine τ) : Prop :=
  ∀ key p', (key, p') ∈ m'.waiters →
    ∃ p, (key, p) ∈ m.waiters ∧ p'.acquisition.who = p.acquisition.who

theorem keepsQueue_of_subset {m : Machine σ} {m' : Machine τ} (h : m'.waiters ⊆ m.waiters) :
    m.KeepsQueue m' :=
  fun _ p' hp' => ⟨p', h hp', rfl⟩

/-- To be woken is to go on waiting. -/
theorem keepsQueue_wakeAll (m : Machine σ) : m.KeepsQueue m.wakeAll := by
  intro key p' hp'
  obtain ⟨⟨key', p⟩, hp, he⟩ := List.mem_map.1 hp'
  obtain ⟨rfl, rfl⟩ := Prod.mk.inj he
  exact ⟨p, hp, rfl⟩

/-- A pass lets nobody wait but those who did, and the acquisition that it is of. -/
theorem pass_waiters (P : Drivers σ) (m : Machine σ) (key : Key) (a : Acquisition) {key' : Key}
    {p' : Waiter} (h : (key', p') ∈ (m.pass P key a).2.waiters) :
    (key', p') ∈ m.waiters ∨ key' = key ∧ p'.acquisition.who = a.who := by
  rcases m.pass_cases P key a with ⟨-, e⟩ | ⟨-, budget, ⟨hd, w, -, e⟩ | ⟨err, w, -, e⟩ |
    ⟨r, w, f, -, e⟩ | ⟨w, -, e⟩⟩
  · rw [e] at h
    exact Or.inl h
  · rw [e] at h
    exact Or.inl h
  · rw [e] at h
    exact Or.inl h
  · rw [e] at h
    rcases List.mem_append.1 h with h | h
    · exact Or.inl h
    · obtain ⟨rfl, rfl⟩ := Prod.mk.inj (List.mem_singleton.1 h)
      exact Or.inr ⟨rfl, rfl⟩
  · rw [e] at h
    exact Or.inl h

theorem lookAt_waiters (P : Drivers σ) (m : Machine σ) (key : Key) (deadline : Instant) :
    (m.lookAt P key deadline).2.waiters = m.waiters := by
  rcases m.lookAt_cases P key deadline with ⟨out, e⟩ | ⟨drain, e⟩
  · rw [e]
    rfl
  · rw [e]

theorem settle_waiters (P : Drivers σ) (m : Machine σ) : (m.settle P).waiters = m.waiters := by
  unfold settle
  split <;> rfl

/-- **Who waits after an event** waited before it, for the same user, or begins with it. -/
theorem react_waiters (P : Drivers σ) (m : Machine σ) (e : Event σ) :
    m.KeepsQueue (m.react P e).2 ∨ ∃ key who, e = .acquire key who ∧
      ∀ key' p', (key', p') ∈ (m.react P e).2.waiters → (key', p') ∈ m.waiters ∨
        key' = key ∧ p'.acquisition.who = who.getD m.world.pool.source.config.credentials := by
  cases e with
  | acquire key who => exact Or.inr ⟨key, who, rfl, fun _ _ h => pass_waiters P m key _ h⟩
  | resume key =>
    refine Or.inl ?_
    show m.KeepsQueue (m.resume P key).2
    rcases m.resume_cases P key with ⟨o, e, -⟩ | ⟨p, f, hp, e⟩
    · rw [e]
      exact keepsQueue_of_subset (List.Subset.refl _)
    · rw [e]
      intro key' p' h
      rcases pass_waiters P _ key p.acquisition h with h | ⟨rfl, hwho⟩
      · exact ⟨p', List.mem_of_mem_filter h, rfl⟩
      · exact ⟨p, mem_of_lookup hp, hwho⟩
  | abandon key => exact Or.inl (keepsQueue_of_subset List.filter_sublist.subset)
  | release key =>
    refine Or.inl ?_
    show m.KeepsQueue (m.release P key)
    rcases m.release_cases P key with ⟨-, e⟩ | ⟨h, -, e⟩
    · rw [e]
      exact keepsQueue_of_subset (List.Subset.refl _)
    · rw [e]
      exact keepsQueue_wakeAll { m with
        handles := without key m.handles
        world := m.world.checkIn P h.id }
  | use key call =>
    refine Or.inl (keepsQueue_of_subset ?_)
    show (m.use P key call).2.waiters ⊆ m.waiters
    rcases m.use_cases P key call with ⟨-, e⟩ | ⟨h, -, -, e⟩ | ⟨h, o, -, -, e, -⟩
    all_goals rw [e]; exact List.Subset.refl _
  | reconfigure change =>
    exact Or.inl (keepsQueue_wakeAll (m.onWorld (·.reconfigure P change)))
  | setTolerance n => exact Or.inl (keepsQueue_of_subset (List.Subset.refl _))
  | shutDown key =>
    refine Or.inl ?_
    intro key' p' h
    have h' : (key', p') ∈ (m.onWorld (·.onPool fun p => { p with closed := true })).wakeAll.waiters :=
      (lookAt_waiters P _ key _) ▸ h
    exact keepsQueue_wakeAll (m.onWorld (·.onPool fun p => { p with closed := true })) key' p' h'
  | look key =>
    refine Or.inl (keepsQueue_of_subset ?_)
    show (m.look P key).2.waiters ⊆ m.waiters
    rcases m.look_cases P key with ⟨o, e, -⟩ | ⟨d, -, e⟩
    · rw [e]
      exact List.Subset.refl _
    · rw [e, lookAt_waiters]
      exact List.Subset.refl _
  | advance d => exact Or.inl (keepsQueue_of_subset (List.Subset.refl _))
  | disturb change => exact Or.inl (keepsQueue_of_subset (List.Subset.refl _))
  | letGo => exact Or.inl (keepsQueue_of_subset (List.Subset.refl _))

/-- The same of an observed event. -/
theorem observe_waiters (D : Drivers σ) {m : Machine (Observed σ)} {e : Event σ} {key : Key}
    {p' : Waiter} (h : (key, p') ∈ (m.observe D e).2.waiters) :
    (∃ p, (key, p) ∈ m.waiters ∧ p'.acquisition.who = p.acquisition.who) ∨
    ∃ who, e = .acquire key who ∧ m.admits (.acquire key who) = true ∧
      p'.acquisition.who = who.getD m.world.pool.source.config.credentials := by
  unfold observe stepAs at h
  split at h
  case isFalse => exact Or.inl ⟨p', h, rfl⟩
  case isTrue hadmits =>
    rw [show (key, p') ∈ ((m.react (e.observed.view (D.observed .pool) (D.observed .holder))
      e.observed).2.settle (D.observed .pool)).waiters ↔ _ from by rw [settle_waiters]] at h
    rcases react_waiters (e.observed.view (D.observed .pool) (D.observed .holder)) m e.observed with
      hkeeps | ⟨key', who, he, hnew⟩
    · exact Or.inl (hkeeps key p' h)
    · rcases hnew key p' h with hold | ⟨rfl, hwho⟩
      · exact Or.inl ⟨p', hold, rfl⟩
      · refine Or.inr ⟨who, ?_, he ▸ hadmits, hwho⟩
        cases e with
        | acquire _ _ =>
          obtain ⟨rfl, rfl⟩ := Event.acquire.inj he
          rfl
        | _ => nomatch he

/-! ## Which acquisition an event goes on with -/

section Runs

variable (D : Drivers σ) (source : Source) (config : PoolConfig) (s : σ)

/-- The acquisition that waits under a key after the events `es` began after the events `past`, for the
    user that it brought or for the configured one, and has waited ever since. -/
structure Begun (es : List (Event σ)) (key : Key) (who : Option Credentials)
    (past : List (Event σ)) : Prop where
  admitted : (reached D source config s past).admits (.acquire key who) = true
  waits : ∃ rest, es = past ++ .acquire key who :: rest ∧ ∀ done, done <+: rest →
    (reached D source config s (past ++ .acquire key who :: done)).Waits key

/-- After the events `es`, an event goes on with the acquisition that began after the events `past`. -/
def Serves (es : List (Event σ)) (e : Event σ) (key : Key) (who : Option Credentials)
    (past : List (Event σ)) : Prop :=
  (e = .acquire key who ∧ past = es) ∨ (e = .resume key ∧ Begun D source config s es key who past)

variable {D source config s}

/-- An acquisition that still waits after one more event began when it did. -/
theorem Begun.concat {es : List (Event σ)} {e : Event σ} {key : Key} {who : Option Credentials}
    {past : List (Event σ)} (h : Begun D source config s es key who past)
    (hwaits : (reached D source config s (es ++ [e])).Waits key) :
    Begun D source config s (es ++ [e]) key who past := by
  obtain ⟨rest, rfl, hrest⟩ := h.waits
  refine ⟨h.admitted, rest ++ [e], by simp, fun done hdone => ?_⟩
  rcases List.prefix_concat_iff.1 hdone with rfl | hdone
  · simpa using hwaits
  · exact hrest done hdone

/-- **Whoever waits began once**, for the credentials that were configured then or for its own. -/
theorem begun_of_waits (es : List (Event σ)) {key : Key} {p : Waiter}
    (h : (key, p) ∈ (reached D source config s es).waiters) :
    ∃ who past, Begun D source config s es key who past ∧ p.acquisition.who =
      who.getD (reached D source config s past).world.pool.source.config.credentials := by
  induction es using List.reverseRecOn generalizing p with
  | nil => nomatch h
  | append_singleton es e ih =>
    have hwaits := waits_of_mem h
    rw [reached_concat] at h
    rcases observe_waiters D h with ⟨p₀, hp₀, hsame⟩ | ⟨who, rfl, hadmits, hwho⟩
    · obtain ⟨who, past, hbegun, hwho⟩ := ih hp₀
      exact ⟨who, past, hbegun.concat hwaits, hsame.trans hwho⟩
    · refine ⟨who, es, ⟨hadmits, [], rfl, fun done hdone => ?_⟩, hwho⟩
      rw [List.prefix_nil.1 hdone]
      exact hwaits

/-- Nobody began under a key while somebody waited under it. -/
theorem Begun.not_before {es : List (Event σ)} {key : Key} {who who' : Option Credentials}
    {past past' : List (Event σ)} (h : Begun D source config s es key who past)
    (h' : Begun D source config s es key who' past') : past'.length ≤ past.length := by
  obtain ⟨rest, hes, hrest⟩ := h.waits
  obtain ⟨rest', hes', -⟩ := h'.waits
  by_contra hlonger
  have hbegun : past ++ [.acquire key who] <+: es := by
    refine ⟨rest, ?_⟩
    rw [hes, List.append_assoc, List.singleton_append]
  have hbegun' : past' <+: es := ⟨.acquire key who' :: rest', hes'.symm⟩
  -- the second began in the middle of the wait of the first
  obtain ⟨done, hdone⟩ : past ++ [.acquire key who] <+: past' := by
    refine List.prefix_of_prefix_length_le hbegun hbegun' ?_
    rw [List.length_append, List.length_singleton]
    omega
  have hpast' : past' = past ++ .acquire key who :: done := by
    rw [← hdone, List.append_assoc, List.singleton_append]
  refine not_waits_of_admits h'.admitted ?_
  rw [hpast']
  refine hrest done ⟨.acquire key who' :: rest', ?_⟩
  have hall := hes.symm.trans hes'
  rw [hpast', List.append_assoc, List.append_cancel_left_eq, List.cons_append] at hall
  exact (List.cons.inj hall).2.symm

/-- An acquisition that waits began once only. -/
theorem Begun.unique {es : List (Event σ)} {key : Key} {who who' : Option Credentials}
    {past past' : List (Event σ)} (h : Begun D source config s es key who past)
    (h' : Begun D source config s es key who' past') : who' = who ∧ past' = past := by
  have hlength := Nat.le_antisymm (h.not_before h') (h'.not_before h)
  obtain ⟨rest, hes, -⟩ := h.waits
  obtain ⟨rest', hes', -⟩ := h'.waits
  obtain ⟨hpast, hrest⟩ := List.append_inj (hes'.symm.trans hes) hlength
  exact ⟨(Event.acquire.inj (List.cons.inj hrest).1).2, hpast⟩

theorem Serves.unique {es : List (Event σ)} {e : Event σ} {key key' : Key}
    {who who' : Option Credentials} {past past' : List (Event σ)}
    (h : Serves D source config s es e key who past)
    (h' : Serves D source config s es e key' who' past') : who' = who ∧ past' = past := by
  rcases h with ⟨rfl, rfl⟩ | ⟨rfl, hbegun⟩
  · rcases h' with ⟨he, rfl⟩ | ⟨he, -⟩
    · exact ⟨(Event.acquire.inj he).2.symm, rfl⟩
    · nomatch he
  · rcases h' with ⟨he, -⟩ | ⟨he, hbegun'⟩
    · nomatch he
    · obtain rfl := Event.resume.inj he
      exact hbegun.unique hbegun'

/-- An acquisition that an event goes on with began, for these credentials. -/
theorem serves_of_serves? {es : List (Event σ)} {e : Event σ} {key : Key} {a : Acquisition}
    (h : (reached D source config s es).serves? e = some (key, a)) :
    ∃ who past, Serves D source config s es e key who past ∧ a.who =
      who.getD (reached D source config s past).world.pool.source.config.credentials := by
  cases e with
  | acquire key' who =>
    obtain ⟨rfl, rfl⟩ := Prod.mk.inj (Option.some.inj h)
    exact ⟨who, es, Or.inl ⟨rfl, rfl⟩, rfl⟩
  | resume key' =>
    obtain ⟨p, hp, he⟩ := Option.map_eq_some_iff.1 h
    obtain ⟨rfl, rfl⟩ := Prod.mk.inj he
    obtain ⟨who, past, hbegun, hwho⟩ := begun_of_waits es (mem_of_lookup hp)
    exact ⟨who, past, Or.inr ⟨rfl, hbegun⟩, hwho⟩
  | _ => nomatch h

end Runs

/-! ## What is asked of the drivers -/

/-- The exchange opens no connection, or it asks for one as the source has it now, for the acquisition
    that the event goes on with. -/
def MayDial (m : Machine τ) (e : Event σ) (x : Exchange) : Prop :=
  ∀ conn url properties answer, x = .connect conn url properties answer →
    ∃ key a, m.serves? e = some (key, a) ∧ conn.driver = m.world.pool.source.driver ∧
      m.world.pool.nextTicket ≤ conn.ticket ∧ url = m.world.pool.source.config.url ∧
      properties = m.world.pool.source.config.propertiesFor a.who

theorem mayDial_of_call (m : Machine τ) (e : Event σ) {who : Party} {conn : Conn} {call : RawCall}
    {answer : Except ConnectionError (Option Bool)} : m.MayDial e (.call who conn call answer) :=
  nofun

theorem mayDial_of_addresses {m : Machine τ} {e : Event σ} {conn : Conn} {x : Exchange}
    (h : x.Addresses conn) : m.MayDial e x := by
  obtain ⟨call, answer, rfl⟩ := h
  exact m.mayDial_of_call e

theorem mayDial_of_utters {m : Machine (Observed σ)} {e : Event σ} {key : Key} {a : Acquisition}
    (hserves : m.serves? e = some (key, a)) {x : Exchange} (h : m.world.Utters a.who x) :
    m.MayDial e x := by
  rcases h with ⟨conn, -, haddresses⟩ | ⟨ticket, hticket, answer, rfl⟩
  · exact mayDial_of_addresses haddresses
  · intro conn url properties answer' he
    obtain ⟨rfl, rfl, rfl, -⟩ := Exchange.connect.inj he
    exact ⟨key, a, hserves, rfl, hticket, rfl, rfl⟩

theorem mayDial_invalidateAll (D : Drivers σ) (m : Machine τ) (e : Event σ)
    (w : World (Observed σ)) : Continues (fun _ x => m.MayDial e x) w.drivers.log
      (w.invalidateAll (D.observed .pool)).drivers.log :=
  (World.invalidateAll_says D w).mono fun _ _ ⟨_, _, hx⟩ => mayDial_of_addresses hx

theorem Deed.mayDial {D : Drivers σ} {m m' : Machine (Observed σ)} {e : Event σ} {o : Outcome}
    (hd : m.Deed D e o m') (hfits : m.world.pool.Fits) :
    Continues (fun _ x => m.MayDial e x) m.log m'.log := by
  cases hd with
  | aside _ alike =>
    rw [alike.log]
    exact Continues.refl _
  | handsOut _ serves pass =>
    exact (World.conduct_of_pass hfits pass).log.mono fun _ _ => mayDial_of_utters serves
  | fails _ serves _ pass _ =>
    exact (World.conduct_of_pass hfits pass).log.mono fun _ _ => mayDial_of_utters serves
  | @release key h handle =>
    exact (World.checkIn_says D m.world h.id).mono fun _ _ ⟨_, _, _, hx⟩ => mayDial_of_addresses hx
  | use _ _ _ => exact Continues.one (m.mayDial_of_call _)
  | reconfigure change => exact mayDial_invalidateAll D m _ (m.world.onPool (·.apply change))
  | @closesAll _ _ m₁ alike =>
    have hcloses := mayDial_invalidateAll D m e m₁.world
    rw [show m₁.world.drivers.log = m.log from alike.log] at hcloses
    exact hcloses

/-- **An event asks for connections as the source has them**, for the acquisition that it goes on
    with. -/
theorem observe_mayDial (D : Drivers σ) {m : Machine (Observed σ)} (e : Event σ)
    (hfits : m.world.pool.Fits) :
    Continues (fun _ x => m.MayDial e x) m.log (m.observe D e).2.log := by
  obtain ⟨m', hdeed, hafter⟩ := m.observe_deed D e
  have hlog := hdeed.mayDial hfits
  rcases hafter with hsame | ⟨-, hclosed⟩
  · rw [hsame]
    exact hlog
  · rw [hclosed]
    exact hlog.trans (mayDial_invalidateAll D m e m'.world)

/-! ## Changes of the user -/

/-- The event changes the configured user name or password. -/
def Renames : Event σ → Prop
  | .reconfigure (.username _) => True
  | .reconfigure (.password _) => True
  | _ => False

theorem credentials_kept (P H : Drivers σ) (own : Credentials) :
    World.KeptBetween P H fun w => w.pool.source.config.credentials = own where
  count _ h := h
  tryOut {w} who startedAt budget r h := by
    rw [(World.tryOut_sameTerms P who startedAt budget r w).source]
    exact h
  checkIn {w} id h := by
    rw [(World.checkIn_takesBack P w id).source]
    exact h
  invalidateAll {w} h := by
    rw [World.invalidateAll_pool]
    exact h
  tolerate _ h := h
  shut h := h
  advance _ h := h
  call _ _ h := h

/-- Only a change of the user changes the configured credentials. -/
theorem observe_credentials (D : Drivers σ) {m : Machine (Observed σ)} {e : Event σ}
    (h : ¬ Renames e) : (m.observe D e).2.world.pool.source.config.credentials =
      m.world.pool.source.config.credentials := by
  refine observe_keptBetween (credentials_kept _ _ m.world.pool.source.config.credentials)
    (fun _ _ hw => hw) m e ?_ rfl
  rintro change rfl w hw
  show (World.invalidateAll _ _).pool.source.config.credentials = _
  rw [World.invalidateAll_pool]
  cases change with
  | username _ => exact absurd trivial h
  | password _ => exact absurd trivial h
  | _ => exact hw

/-! ## Connects for a caller without credentials -/

section Runs

variable (D : Drivers σ) (source : Source) (config : PoolConfig) (s : σ)

/-- The source as it is configured after some events. -/
def sourceAt (es : List (Event σ)) : Source :=
  (reached D source config s es).world.pool.source

/-- After the events `es`, an event makes an exchange with the drivers. -/
def Makes (es : List (Event σ)) (e : Event σ) (x : Exchange) : Prop :=
  ∃ earlier, (reached D source config s es).log <+: earlier ∧
    earlier ++ [x] <+: (reached D source config s (es ++ [e])).log

/-- Whatever the event opens for a caller without credentials, it opens as it is configured: with the
    driver, the url, the properties and the user of that moment. -/
def AsConfigured (es : List (Event σ)) (e : Event σ) : Prop :=
  ∀ key past conn url properties answer, Serves D source config s es e key none past →
    Makes D source config s es e (.connect conn url properties answer) →
      conn.driver = (sourceAt D source config s es).driver ∧
      url = (sourceAt D source config s es).config.url ∧
      properties = (sourceAt D source config s es).config.propertiesFor
        (sourceAt D source config s es).config.credentials

/-- How an event opens connections. -/
structure Dialling (es : List (Event σ)) (e : Event σ) : Prop where
  /-- Each for an acquisition. -/
  served : ∀ conn url properties answer,
    Makes D source config s es e (.connect conn url properties answer) →
      ∃ key who past, Serves D source config s es e key who past
  /-- With the driver, the url and the properties of now, and the user of the acquisition: the one that
  it brought, or the one that was configured when it began. -/
  asks : ∀ key who past conn url properties answer, Serves D source config s es e key who past →
    Makes D source config s es e (.connect conn url properties answer) →
      conn.driver = (sourceAt D source config s es).driver ∧
      url = (sourceAt D source config s es).config.url ∧
      properties = (sourceAt D source config s es).config.propertiesFor
        (who.getD (sourceAt D source config s past).config.credentials)
  /-- All is as configured just when those who brought no user have one that is the same to the
  drivers as the one of now. -/
  exact : AsConfigured D source config s es e ↔
    ∀ key past conn url properties answer, Serves D source config s es e key none past →
      Makes D source config s es e (.connect conn url properties answer) →
        (sourceAt D source config s es).config.propertiesFor
            (sourceAt D source config s past).config.credentials =
          (sourceAt D source config s es).config.propertiesFor
            (sourceAt D source config s es).config.credentials
  /-- They have another only after they waited while the user was changed. -/
  changed : ∀ key past, Serves D source config s es e key none past →
    (sourceAt D source config s past).config.credentials ≠
      (sourceAt D source config s es).config.credentials →
    e = .resume key ∧ ∃ rest, es = past ++ .acquire key none :: rest ∧ ∃ e ∈ rest, Renames e

/-- While nobody changes the user the configured credentials stay. -/
theorem credentials_of_not_renames (past : List (Event σ)) : ∀ rest : List (Event σ),
    (∀ e ∈ rest, ¬ Renames e) →
      (sourceAt D source config s (past ++ rest)).config.credentials =
        (sourceAt D source config s past).config.credentials := by
  intro rest
  induction rest using List.reverseRecOn with
  | nil => intro _; rw [List.append_nil]
  | append_singleton rest e ih =>
    intro h
    have hrest := ih fun e' he' => h e' (List.mem_append_left _ he')
    have hlast : ¬ Renames e := h e (List.mem_append_right _ List.mem_cons_self)
    rw [← List.append_assoc, ← hrest, sourceAt, reached_concat]
    exact observe_credentials D hlast

/-- **Connects.**  After every run, whatever the drivers answer: an event opens connections for one
    acquisition, with the driver, the url and the properties of now, but for the user of the moment at
    which the acquisition began.  For a caller that brought none this is the configured user just when
    the user was not changed, in the eyes of the drivers, since the caller began to wait. -/
theorem connects_as_begun (es : List (Event σ)) (e : Event σ) : Dialling D source config s es e := by
  have hdials : ∀ conn url properties answer,
      Makes D source config s es e (.connect conn url properties answer) →
      ∃ key who past, Serves D source config s es e key who past ∧
        conn.driver = (sourceAt D source config s es).driver ∧
        url = (sourceAt D source config s es).config.url ∧
        properties = (sourceAt D source config s es).config.propertiesFor
          (who.getD (sourceAt D source config s past).config.credentials) := by
    rintro conn url properties answer ⟨earlier, hbefore, hafter⟩
    rw [reached_concat] at hafter
    obtain ⟨key, a, hserves, hdriver, -, hurl, hproperties⟩ :=
      (observe_mayDial D e (fits_reached D source config s es)).allows hbefore hafter _ _ _ _ rfl
    obtain ⟨who, past, hs, hwho⟩ := serves_of_serves? hserves
    exact ⟨key, who, past, hs, hdriver, hurl, hwho ▸ hproperties⟩
  have hasks : ∀ key who past conn url properties answer,
      Serves D source config s es e key who past →
      Makes D source config s es e (.connect conn url properties answer) →
      conn.driver = (sourceAt D source config s es).driver ∧
      url = (sourceAt D source config s es).config.url ∧
      properties = (sourceAt D source config s es).config.propertiesFor
        (who.getD (sourceAt D source config s past).config.credentials) := by
    intro key who past conn url properties answer hs hmakes
    obtain ⟨key', who', past', hs', hasks⟩ := hdials conn url properties answer hmakes
    obtain ⟨rfl, rfl⟩ := hs.unique hs'
    exact hasks
  constructor
  case served =>
    intro conn url properties answer hmakes
    obtain ⟨key, who, past, hs, -⟩ := hdials conn url properties answer hmakes
    exact ⟨key, who, past, hs⟩
  case asks => exact hasks
  case exact =>
    constructor
    · intro h key past conn url properties answer hs hmakes
      obtain ⟨-, -, hproperties⟩ := h key past conn url properties answer hs hmakes
      exact (hasks _ _ _ _ _ _ _ hs hmakes).2.2.symm.trans hproperties
    · intro h key past conn url properties answer hs hmakes
      obtain ⟨hdriver, hurl, hproperties⟩ := hasks _ _ _ _ _ _ _ hs hmakes
      exact ⟨hdriver, hurl,
        hproperties.trans (h key past conn url properties answer hs hmakes)⟩
  case changed =>
    rintro key past (⟨-, rfl⟩ | ⟨rfl, hbegun⟩) hne
    · exact absurd rfl hne
    · obtain ⟨rest, rfl, -⟩ := hbegun.waits
      refine ⟨rfl, rest, rfl, ?_⟩
      by_contra hnone
      refine hne (credentials_of_not_renames D source config s past _ fun e he => ?_).symm
      rcases List.mem_cons.1 he with rfl | he
      · exact id
      · exact fun hrenames => hnone ⟨e, he, hrenames⟩

end Runs

/-! ## A run that opens a connection for a former user -/

/-- One connection at most, and none of them kept. -/
def single : PoolConfig :=
  { maxActive := 1
    maxIdle := 0
    timeToWait := .zero }

/-- A target with a user. -/
def target : Source :=
  { config :=
      { driver := "scripted"
        url := "mem://db"
        username := some "app"
        password := some "secret" } }

/-- One acquires, another waits, and the user is changed. -/
def outlived : List (Event Bank) :=
  [.acquire 0 none, .acquire 1 none, .reconfigure (.username (some "ops"))]

/-- The one who waits is woken by the change, and opens a connection for the former user. -/
theorem dials_for_former_user :
    ¬ AsConfigured Bank.drivers target single [.scripted {}] outlived (.resume 1) := by
  intro h
  have hbegun : Begun Bank.drivers target single [.scripted {}] outlived 1 none [.acquire 0 none] := by
    refine ⟨by decide +kernel, [.reconfigure (.username (some "ops"))], rfl, fun done hdone => ?_⟩
    rcases List.prefix_concat_iff.1 (show done <+: [] ++ [_] from hdone) with rfl | hdone
    · decide +kernel
    · obtain rfl := List.prefix_nil.1 hdone
      decide +kernel
  have hmakes : Makes Bank.drivers target single [.scripted {}] outlived (.resume 1)
      (.connect ⟨0, 2⟩ "mem://db" (target.config.propertiesFor target.config.credentials)
        (.ok ())) :=
    ⟨(reached Bank.drivers target single [.scripted {}] outlived).log, List.prefix_refl _,
      by decide +kernel⟩
  have hproperties := (h 1 [.acquire 0 none] _ _ _ _ (Or.inr ⟨rfl, hbegun⟩) hmakes).2.2
  revert hproperties
  decide +kernel

end Machine

end ConnPool
