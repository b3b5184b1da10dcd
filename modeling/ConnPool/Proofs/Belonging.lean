/-
  For whom a connection that is kept was opened.

  A connection comes back to the idle list if it was last handed out for the identity that the source
  has.  Who it was opened for is not asked then.  The two differ when a connection that was opened for
  one user is reclaimed by another: the caller that takes it over stamps it with its own identity.

  The history of a connection is read off the run: `OpenedAs` says with which url and for whom it was
  opened, which happens once (`OpenedAs.unique`), and `TakesOver` that an event reclaimed it for the
  configured user although it was opened for another.  What one event does to the wrappers is `Carries`.
  From it follows what is known of every wrapper after a run (`allKnown_reached`): it was opened with the
  driver and the url of now, and if it is stamped with the configured user it was opened for this user
  or was taken over.  So all that is idle belongs to the configuration just when nothing that is idle
  was ever taken over (`idle_belongs`), and `keeps_foreign` is a run in which something was.
-/
import ConnPool.Proofs.Callers

namespace ConnPool

variable {σ : Type}

/-! ## What becomes of wrappers -/

namespace World

variable (D : Drivers σ)

/-- What a return adds to the idle list was out, for the identity that is expected. -/
theorem checkIn_idle (w : World σ) (id : Nat) {c' : Wrapper}
    (h : c' ∈ (w.checkIn D id).pool.idle) : c' ∈ w.pool.idle ∨ ∃ c ∈ w.pool.active,
      c'.conn = c.conn ∧ c'.identity = c.identity ∧ c.identity = w.pool.expected := by
  rcases w.idle_of_checkIn D id with e | ⟨c, hc, -, hkeeps, e⟩
  · rw [e] at h
    exact Or.inl h
  · rw [e] at h
    rcases List.mem_append.1 h with h | h
    · exact Or.inl h
    · obtain rfl := List.mem_singleton.1 h
      simp only [Pool.keeps, Bool.and_eq_true, decide_eq_true_eq] at hkeeps
      exact Or.inr ⟨c, hc, rfl, rfl, hkeeps.2⟩

end World

namespace Machine

/-- What becomes of the wrappers in an event that does not throw all away. -/
structure Carries (m : Machine (Observed σ)) (e : Event σ) (o : Outcome)
    (m' : Machine (Observed σ)) : Prop where
  source : m'.world.pool.source = m.world.pool.source
  expected : m'.world.pool.expected = m.world.pool.expected
  /-- What is idle was idle, or came back under the expected identity. -/
  idle : ∀ c' ∈ m'.world.pool.idle, c' ∈ m.world.pool.idle ∨ ∃ c ∈ m.world.pool.active,
    c'.conn = c.conn ∧ c'.identity = c.identity ∧ c.identity = m.world.pool.expected
  /-- What is out was out, or was just handed out to a caller and stamped with its identity. -/
  active : ∀ c' ∈ m'.world.pool.active, c' ∈ m.world.pool.active ∨ ∃ key a,
    m.serves? e = some (key, a) ∧ o = .acquired c'.handle ∧ m.world.Reaches c'.conn ∧
      c'.identity = ⟨m.world.pool.source.config.url, a.who⟩

/-- All connections were thrown away. -/
structure Emptied (m : Machine σ) : Prop where
  wrappers : m.world.pool.wrappers = []
  expected : m.world.pool.expected = m.world.pool.source.identity

theorem emptied_invalidateAll (P : Drivers σ) (m : Machine σ) :
    Emptied (m.onWorld (·.invalidateAll P)) where
  wrappers := by
    show (m.world.invalidateAll P).pool.wrappers = []
    rw [World.invalidateAll_pool]
    rfl
  expected := by
    show (m.world.invalidateAll P).pool.expected = (m.world.invalidateAll P).pool.source.identity
    rw [World.invalidateAll_pool]

theorem Deed.carries {D : Drivers σ} {m m' : Machine (Observed σ)} {e : Event σ} {o : Outcome}
    (hd : m.Deed D e o m') (hfits : m.world.pool.Fits) : m.Carries e o m' ∨ m'.Emptied := by
  cases hd with
  | aside _ alike =>
    exact Or.inl ⟨alike.source, alike.expected, fun _ hc => Or.inl (alike.idle ▸ hc),
      fun _ hc => Or.inl (alike.active ▸ hc)⟩
  | @handsOut _ key a f budget h w waiters serves pass =>
    have hconduct := World.conduct_of_pass hfits pass
    have hpruned := World.tryOut_pruned (D.observed .pool) a.who a.startedAt budget a.rejected
      (m.world.onPool (·.count f))
    rw [pass] at hpruned
    refine Or.inl ⟨hpruned.source, hpruned.expected, fun _ hc => Or.inl (hpruned.idle.subset hc), ?_⟩
    intro c' hc'
    obtain ⟨hreaches, c, rest, hactive, hrest, hhandle, hidentity⟩ := hconduct.handsOut h rfl
    rw [show w.pool.active = rest ++ [c] from hactive] at hc'
    rcases List.mem_append.1 hc' with hc' | hc'
    · exact Or.inl (hrest.subset hc')
    · obtain rfl := List.mem_singleton.1 hc'
      obtain rfl := hhandle
      exact Or.inr ⟨key, a, serves, rfl, hreaches, hidentity⟩
  | @fails _ _ key a f g budget r w waiters serves out pass nothing =>
    have hpruned := World.pruned_of_tryOut pass nothing
    exact Or.inl ⟨hpruned.source, hpruned.expected, fun _ hc => Or.inl (hpruned.idle.subset hc),
      fun _ hc => Or.inl (hpruned.active.subset hc)⟩
  | @release key h handle =>
    have hback := m.world.checkIn_takesBack (D.observed .pool) h.id
    exact Or.inl ⟨hback.source, hback.expected, fun _ hc => World.checkIn_idle _ _ _ hc,
      fun _ hc => Or.inl (hback.active.subset hc)⟩
  | use _ _ _ => exact Or.inl ⟨rfl, rfl, fun _ hc => Or.inl hc, fun _ hc => Or.inl hc⟩
  | reconfigure change =>
    have hempty := emptied_invalidateAll (D.observed .pool) (m.onWorld (·.onPool (·.apply change)))
    exact Or.inr ⟨hempty.wrappers, hempty.expected⟩
  | closesAll _ => exact Or.inr (emptied_invalidateAll (D.observed .pool) _)

/-- **What an event does to the wrappers**: it carries them over, or throws all away. -/
theorem observe_carries (D : Drivers σ) {m : Machine (Observed σ)} (e : Event σ)
    (hfits : m.world.pool.Fits) :
    m.Carries e (m.observe D e).1 (m.observe D e).2 ∨ (m.observe D e).2.Emptied := by
  obtain ⟨m', hdeed, hafter⟩ := m.observe_deed D e
  rcases hafter with hsame | ⟨-, hclosed⟩
  · rw [hsame]
    exact hdeed.carries hfits
  · have hempty := emptied_invalidateAll (D.observed .pool) m'
    rw [hclosed]
    exact Or.inr ⟨hempty.wrappers, hempty.expected⟩

/-! ## The history of a connection -/

section Runs

variable (D : Drivers σ) (source : Source) (config : PoolConfig) (s : σ)

/-- In the run of the events `es`, a connection was opened with a url on behalf of a user, with the
    properties that the source had for this user. -/
def OpenedAs (es : List (Event σ)) (conn : Conn) (url : String) (who : Credentials) : Prop :=
  ∃ past e key a, past ++ [e] <+: es ∧
    (reached D source config s past).serves? e = some (key, a) ∧ a.who = who ∧
    Makes D source config s past e (.connect conn url
      ((sourceAt D source config s past).config.propertiesFor who) (.ok ()))

/-- After the events `past`, an event reclaims a connection for the configured user and hands it out,
    although it was opened for another. -/
def TakesOver (past : List (Event σ)) (e : Event σ) (conn : Conn) : Prop :=
  ∃ key a h c url who, (reached D source config s past).serves? e = some (key, a) ∧
    a.who = (sourceAt D source config s past).config.credentials ∧
    ((reached D source config s past).observe D e).1 = .acquired h ∧ h.conn = conn ∧
    (reached D source config s past).world.Reclaims c ∧ c.conn = conn ∧
    OpenedAs D source config s past conn url who ∧
    who ≠ (sourceAt D source config s past).config.credentials

/-- A connection was taken over in the run of the events `es`. -/
def TakenOver (es : List (Event σ)) (conn : Conn) : Prop :=
  ∃ past e, past ++ [e] <+: es ∧ TakesOver D source config s past e conn

/-- The log only grows. -/
theorem log_isPrefix {past es : List (Event σ)} (h : past <+: es) :
    (reached D source config s past).log <+: (reached D source config s es).log := by
  obtain ⟨rest, rfl⟩ := h
  induction rest using List.reverseRecOn with
  | nil => simp
  | append_singleton rest e ih =>
    rw [← List.append_assoc, reached_concat]
    exact ih.trans (observe_mayDial D e (fits_reached D source config s _)).isPrefix

variable {D source config s}

theorem OpenedAs.concat {es : List (Event σ)} {conn : Conn} {url : String} {who : Credentials}
    (h : OpenedAs D source config s es conn url who) (e : Event σ) :
    OpenedAs D source config s (es ++ [e]) conn url who := by
  obtain ⟨past, e', key, a, hpast, h⟩ := h
  exact ⟨past, e', key, a, hpast.trans (List.prefix_append _ _), h⟩

theorem TakenOver.concat {es : List (Event σ)} {conn : Conn}
    (h : TakenOver D source config s es conn) (e : Event σ) :
    TakenOver D source config s (es ++ [e]) conn := by
  obtain ⟨past, e', hpast, h⟩ := h
  exact ⟨past, e', hpast.trans (List.prefix_append _ _), h⟩

/-- What was taken over in a longer run was taken over before, or by the last event. -/
theorem takenOver_concat {es : List (Event σ)} {e : Event σ} {conn : Conn}
    (h : TakenOver D source config s (es ++ [e]) conn) :
    TakenOver D source config s es conn ∨ TakesOver D source config s es e conn := by
  obtain ⟨past, e', hpast, h⟩ := h
  rcases List.prefix_concat_iff.1 hpast with he | hpast
  · obtain ⟨rfl, hlast⟩ := List.append_inj' he rfl
    obtain rfl := List.singleton_inj.1 hlast
    exact Or.inr h
  · exact Or.inl ⟨past, e', hpast, h⟩

theorem openedIn_subset {log log' : List Exchange} (h : log <+: log') :
    openedIn log ⊆ openedIn log' :=
  (h.sublist.filterMap _).subset

/-- What an event opens was not opened before, and is opened afterwards. -/
theorem Makes.opened {past : List (Event σ)} {e : Event σ} {conn : Conn} {url : String}
    {properties : Properties}
    (h : Makes D source config s past e (.connect conn url properties (.ok ()))) :
    conn ∉ openedIn (reached D source config s past).log ∧
      conn ∈ openedIn (reached D source config s (past ++ [e])).log := by
  obtain ⟨earlier, hbefore, hafter⟩ := h
  have hopened : openedIn (earlier ++ [.connect conn url properties (.ok ())]) =
      openedIn earlier ++ [conn] := openedIn_append _ _
  have honce := Accounted.opened (accounts_reached D source config s (past ++ [e]))
  have hnodup : (openedIn earlier ++ [conn]).Nodup :=
    hopened ▸ honce.sublist (hafter.sublist.filterMap _)
  refine ⟨fun hmem => ?_, ?_⟩
  · exact (List.nodup_append.1 hnodup).2.2 conn (openedIn_subset hbefore hmem) conn
      List.mem_cons_self rfl
  · refine openedIn_subset hafter ?_
    rw [hopened]
    exact List.mem_append_right _ List.mem_cons_self

theorem OpenedAs.mem {es : List (Event σ)} {conn : Conn} {url : String} {who : Credentials}
    (h : OpenedAs D source config s es conn url who) :
    conn ∈ openedIn (reached D source config s es).log := by
  obtain ⟨past, e, key, a, hpast, -, -, hmakes⟩ := h
  exact openedIn_subset (log_isPrefix D source config s hpast) hmakes.opened.2

/-- What is taken over was opened before. -/
theorem TakesOver.mem {past : List (Event σ)} {e : Event σ} {conn : Conn}
    (h : TakesOver D source config s past e conn) :
    conn ∈ openedIn (reached D source config s past).log := by
  obtain ⟨-, -, -, -, url, who, -, -, -, -, -, -, hopened, -⟩ := h
  exact hopened.mem

theorem TakenOver.mem {es : List (Event σ)} {conn : Conn}
    (h : TakenOver D source config s es conn) :
    conn ∈ openedIn (reached D source config s es).log := by
  obtain ⟨past, e, hpast, htakes⟩ := h
  exact openedIn_subset (log_isPrefix D source config s ((List.prefix_append _ _).trans hpast))
    htakes.mem

/-- Of two events that open one connection none is before the other. -/
theorem Makes.not_before {past past' es : List (Event σ)} {e e' : Event σ} {conn : Conn}
    {url url' : String} {properties properties' : Properties} (hpast : past ++ [e] <+: es)
    (hpast' : past' ++ [e'] <+: es)
    (h : Makes D source config s past e (.connect conn url properties (.ok ())))
    (h' : Makes D source config s past' e' (.connect conn url' properties' (.ok ()))) :
    past'.length ≤ past.length := by
  by_contra hlonger
  have hfirst : past ++ [e] <+: past' := by
    refine List.prefix_of_prefix_length_le hpast ((List.prefix_append _ _).trans hpast') ?_
    rw [List.length_append, List.length_singleton]
    omega
  exact h'.opened.1 (openedIn_subset (log_isPrefix D source config s hfirst) h.opened.2)

/-- An event opens everything with the url that is configured, and for the user that it serves. -/
theorem Makes.asks {past : List (Event σ)} {e : Event σ} {conn : Conn} {url : String}
    {properties : Properties} {key : Key} {a : Acquisition}
    (h : Makes D source config s past e (.connect conn url properties (.ok ())))
    (hserves : (reached D source config s past).serves? e = some (key, a)) :
    url = (sourceAt D source config s past).config.url ∧
      properties = (sourceAt D source config s past).config.propertiesFor a.who := by
  obtain ⟨earlier, hbefore, hafter⟩ := h
  rw [reached_concat] at hafter
  obtain ⟨key', a', hserves', -, -, hurl, hproperties⟩ :=
    (observe_mayDial D e (fits_reached D source config s past)).allows hbefore hafter _ _ _ _ rfl
  have ha : a' = a := (Prod.mk.inj (Option.some.inj (hserves'.symm.trans hserves))).2
  exact ⟨hurl, ha ▸ hproperties⟩

/-- **A connection is opened once**, with one url and for one user. -/
theorem OpenedAs.unique {es : List (Event σ)} {conn : Conn} {url url' : String}
    {who who' : Credentials} (h : OpenedAs D source config s es conn url who)
    (h' : OpenedAs D source config s es conn url' who') : url' = url ∧ who' = who := by
  obtain ⟨past, e, key, a, hpast, hserves, rfl, hmakes⟩ := h
  obtain ⟨past', e', key', a', hpast', hserves', rfl, hmakes'⟩ := h'
  have hlength := Nat.le_antisymm (hmakes.not_before hpast hpast' hmakes')
    (hmakes'.not_before hpast' hpast hmakes)
  have hsame : past' ++ [e'] = past ++ [e] := by
    refine (List.prefix_of_prefix_length_le hpast' hpast ?_).eq_of_length ?_
    all_goals rw [List.length_append, List.length_append, hlength]; simp
  obtain ⟨rfl, he⟩ := List.append_inj' hsame rfl
  obtain rfl := List.singleton_inj.1 he
  have hwho : a' = a := (Prod.mk.inj (Option.some.inj (hserves'.symm.trans hserves))).2
  have hurl := (hmakes.asks hserves).1
  exact ⟨(hmakes'.asks hserves').1.trans hurl.symm, congrArg Acquisition.who hwho⟩

/-- A connection that is there after an event, and was not opened before, was opened by it. -/
theorem makes_of_opened {past : List (Event σ)} {e : Event σ} {conn : Conn}
    (h : conn ∈ openedIn (reached D source config s (past ++ [e])).log)
    (hnew : conn ∉ openedIn (reached D source config s past).log) :
    ∃ url properties, Makes D source config s past e (.connect conn url properties (.ok ())) := by
  obtain ⟨rest, hrest⟩ := log_isPrefix D source config s (List.prefix_append past [e])
  rw [← hrest, openedIn_append] at h
  obtain ⟨x, hx, hopened⟩ := List.mem_filterMap.1 ((List.mem_append.1 h).resolve_left hnew)
  obtain ⟨front, back, rfl⟩ := List.append_of_mem hx
  have hmakes : Makes D source config s past e x :=
    ⟨(reached D source config s past).log ++ front, List.prefix_append _ _, back, by
      rw [← hrest]
      simp⟩
  match x, hopened with
  | .connect _ url properties (.ok ()), hopened =>
    obtain rfl := Option.some.inj hopened
    exact ⟨url, properties, hmakes⟩

end Runs

/-! ## What is known of the wrappers -/

section Runs

variable (D : Drivers σ) (source : Source) (config : PoolConfig) (s : σ)

/-- What is known of a wrapper in a list after a run. -/
structure Known (es : List (Event σ)) (c : Wrapper) : Prop where
  driver : c.conn.driver = (sourceAt D source config s es).driver
  url : c.identity.url = (sourceAt D source config s es).config.url
  /-- It was opened with the url of now.  If it is stamped with the configured user, it was opened for
  this user or was taken over; and if it was taken over, it was opened for another. -/
  opened : ∃ who, OpenedAs D source config s es c.conn (sourceAt D source config s es).config.url who ∧
    (c.identity.credentials = (sourceAt D source config s es).config.credentials →
      who = (sourceAt D source config s es).config.credentials ∨
        TakenOver D source config s es c.conn) ∧
    (TakenOver D source config s es c.conn →
      who ≠ (sourceAt D source config s es).config.credentials)

/-- What is known of all wrappers after a run. -/
structure AllKnown (es : List (Event σ)) : Prop where
  expected : (reached D source config s es).world.pool.expected =
    (sourceAt D source config s es).identity
  idle : ∀ c ∈ (reached D source config s es).world.pool.idle,
    c.identity = (sourceAt D source config s es).identity
  known : ∀ c ∈ (reached D source config s es).world.pool.wrappers, Known D source config s es c

variable {D source config s}

theorem allKnown_of_emptied {es : List (Event σ)} (h : (reached D source config s es).Emptied) :
    AllKnown D source config s es where
  expected := h.expected
  idle c hc := by
    have hmem : c ∈ (reached D source config s es).world.pool.wrappers :=
      List.mem_append_right _ hc
    rw [h.wrappers] at hmem
    nomatch hmem
  known c hc := by
    rw [h.wrappers] at hc
    nomatch hc

/-- What is known of a wrapper after an event, if enough was known of the one that was around the same
    connection before: when it has the stamp of the configured user, the old one had this stamp, or the
    connection was opened for this user, or was taken over. -/
theorem Known.carried {es : List (Event σ)} {e : Event σ} {c c' : Wrapper}
    (h : Known D source config s es c)
    (hsource : sourceAt D source config s (es ++ [e]) = sourceAt D source config s es)
    (hconn : c'.conn = c.conn)
    (hurl : c'.identity.url = (sourceAt D source config s es).config.url)
    (huser : c'.identity.credentials = (sourceAt D source config s es).config.credentials →
      c.identity.credentials = (sourceAt D source config s es).config.credentials ∨
      OpenedAs D source config s es c.conn (sourceAt D source config s es).config.url
        (sourceAt D source config s es).config.credentials ∨
      TakenOver D source config s (es ++ [e]) c.conn) :
    Known D source config s (es ++ [e]) c' := by
  obtain ⟨who, hopened, hown, htaken⟩ := h.opened
  constructor
  case driver =>
    rw [hsource, hconn]
    exact h.driver
  case url =>
    rw [hsource]
    exact hurl
  case opened =>
    rw [hsource, hconn]
    refine ⟨who, hopened.concat e, fun hcred => ?_, fun htaken' => ?_⟩
    · rcases huser hcred with hcred | ho | ht
      · exact (hown hcred).imp_right fun ht => ht.concat e
      · exact Or.inl (ho.unique hopened).2
      · exact Or.inr ht
    · rcases takenOver_concat htaken' with ht | ⟨-, -, -, -, url, who', -, -, -, -, -, -, ho, hne⟩
      · exact htaken ht
      · exact (hopened.unique ho).2 ▸ hne

/-- What is known of a connection that an event opened and handed out. -/
theorem known_of_new {es : List (Event σ)} {e : Event σ} {key : Key} {a : Acquisition}
    {c' : Wrapper} (hserves : (reached D source config s es).serves? e = some (key, a))
    (hsource : sourceAt D source config s (es ++ [e]) = sourceAt D source config s es)
    (hc' : c' ∈ (reached D source config s (es ++ [e])).world.pool.wrappers)
    (hdriver : c'.conn.driver = (sourceAt D source config s es).driver)
    (hticket : (reached D source config s es).world.pool.nextTicket ≤ c'.conn.ticket)
    (hidentity : c'.identity = ⟨(sourceAt D source config s es).config.url, a.who⟩) :
    Known D source config s (es ++ [e]) c' := by
  have hnew : c'.conn ∉ openedIn (reached D source config s es).log := by
    intro hmem
    have hbelow := Accounted.below (accounts_reached D source config s es) _ hmem
    omega
  obtain ⟨url, properties, hmakes⟩ :=
    makes_of_opened (listed_of_accounts (accounts_reached D source config s (es ++ [e])) hc').1 hnew
  obtain ⟨rfl, rfl⟩ := hmakes.asks hserves
  constructor
  case driver =>
    rw [hsource]
    exact hdriver
  case url => rw [hsource, hidentity]
  case opened =>
    rw [hsource, hidentity]
    refine ⟨a.who, ⟨es, e, key, a, List.prefix_refl _, hserves, rfl, hmakes⟩, Or.inl,
      fun htaken => ?_⟩
    rcases takenOver_concat htaken with htaken | htakes
    · exact absurd htaken.mem hnew
    · exact absurd htakes.mem hnew

/-- What is known of a wrapper that an event handed out. -/
theorem AllKnown.handedOut {es : List (Event σ)} {e : Event σ} {key : Key} {a : Acquisition}
    {c' : Wrapper} (h : AllKnown D source config s es)
    (hserves : (reached D source config s es).serves? e = some (key, a))
    (hout : ((reached D source config s es).observe D e).1 = .acquired c'.handle)
    (hreaches : (reached D source config s es).world.Reaches c'.conn)
    (hidentity : c'.identity = ⟨(sourceAt D source config s es).config.url, a.who⟩)
    (hsource : sourceAt D source config s (es ++ [e]) = sourceAt D source config s es)
    (hc' : c' ∈ (reached D source config s (es ++ [e])).world.pool.wrappers) :
    Known D source config s (es ++ [e]) c' := by
  have hurl := congrArg Identity.url hidentity
  rcases hreaches with ⟨c, hidle, hconn⟩ | ⟨hdriver, hticket⟩ | ⟨c, hreclaims, hconn⟩
  · -- it was idle, so it was stamped with the configured user
    have hknown := h.known c (List.mem_append_right _ hidle)
    exact hknown.carried hsource hconn.symm hurl fun _ =>
      Or.inl (congrArg Identity.credentials (h.idle c hidle))
  · exact known_of_new hserves hsource hc' hdriver hticket hidentity
  · -- it was reclaimed: by the configured user from another, if it was opened for another
    have hknown := h.known c (List.mem_append_left _ (List.mem_of_head? hreclaims.oldest))
    refine hknown.carried hsource hconn.symm hurl fun hcred => Or.inr ?_
    obtain ⟨who, hopened, -⟩ := hknown.opened
    by_cases hwho : who = (sourceAt D source config s es).config.credentials
    · exact Or.inl (hwho ▸ hopened)
    · have huser : a.who = (sourceAt D source config s es).config.credentials := by
        rw [← hcred, hidentity]
      exact Or.inr ⟨es, e, List.prefix_refl _, key, a, c'.handle, c, _, who, hserves, huser, hout,
        hconn.symm, hreclaims, rfl, hopened, hwho⟩

/-- **What is known of the wrappers is known after every event.** -/
theorem AllKnown.concat {es : List (Event σ)} (h : AllKnown D source config s es) (e : Event σ) :
    AllKnown D source config s (es ++ [e]) := by
  have hcarries := observe_carries D e (fits_reached D source config s es)
  rw [← reached_concat] at hcarries
  rcases hcarries with hcarries | hemptied
  · have hsource : sourceAt D source config s (es ++ [e]) = sourceAt D source config s es :=
      hcarries.source
    -- a wrapper of before, or a new one around the same connection with the same stamp
    have hsame : ∀ c ∈ (reached D source config s es).world.pool.wrappers, ∀ c' : Wrapper,
        c'.conn = c.conn → c'.identity = c.identity → Known D source config s (es ++ [e]) c' :=
      fun c hc c' hconn hidentity => (h.known c hc).carried hsource hconn
        (hidentity ▸ (h.known c hc).url) fun hcred => Or.inl (hidentity ▸ hcred)
    constructor
    case expected =>
      rw [hcarries.expected, hsource]
      exact h.expected
    case idle =>
      intro c' hc'
      rw [hsource]
      rcases hcarries.idle c' hc' with hold | ⟨c, -, -, hidentity, hexpected⟩
      · exact h.idle c' hold
      · exact hidentity.trans (hexpected.trans h.expected)
    case known =>
      intro c' hc'
      rcases List.mem_append.1 hc' with hactive | hidle
      · rcases hcarries.active c' hactive with hold | ⟨key, a, hserves, hout, hreaches, hidentity⟩
        · exact hsame c' (List.mem_append_left _ hold) c' rfl rfl
        · exact h.handedOut hserves hout hreaches hidentity hsource hc'
      · rcases hcarries.idle c' hidle with hold | ⟨c, hc, hconn, hidentity, -⟩
        · exact hsame c' (List.mem_append_right _ hold) c' rfl rfl
        · exact hsame c (List.mem_append_left _ hc) c' hconn hidentity
  · exact allKnown_of_emptied hemptied

theorem allKnown_reached (es : List (Event σ)) : AllKnown D source config s es := by
  induction es using List.reverseRecOn with
  | nil => exact ⟨rfl, nofun, nofun⟩
  | append_singleton es e ih => exact ih.concat e

/-! ## What is idle -/

variable (D source config s)

/-- All that is idle was opened by the driver, with the url and for the user of now. -/
def BelongsHere (es : List (Event σ)) : Prop :=
  ∀ c ∈ (reached D source config s es).world.pool.idle,
    c.conn.driver = (sourceAt D source config s es).driver ∧
    OpenedAs D source config s es c.conn (sourceAt D source config s es).config.url
      (sourceAt D source config s es).config.credentials

/-- For whom what is idle was opened. -/
structure Belonging (es : List (Event σ)) : Prop where
  /-- It was opened by the driver and with the url of now. -/
  target : ∀ c ∈ (reached D source config s es).world.pool.idle,
    c.conn.driver = (sourceAt D source config s es).driver ∧
    ∃ who, OpenedAs D source config s es c.conn (sourceAt D source config s es).config.url who
  /-- It was opened once. -/
  once : ∀ conn url url' who who', OpenedAs D source config s es conn url who →
    OpenedAs D source config s es conn url' who' → url' = url ∧ who' = who
  /-- It was opened for the user of now just when it was not taken over. -/
  user : ∀ c ∈ (reached D source config s es).world.pool.idle,
    (OpenedAs D source config s es c.conn (sourceAt D source config s es).config.url
      (sourceAt D source config s es).config.credentials ↔ ¬ TakenOver D source config s es c.conn)
  /-- So all belongs to the configuration just when nothing of it was taken over. -/
  exact : BelongsHere D source config s es ↔
    ∀ c ∈ (reached D source config s es).world.pool.idle, ¬ TakenOver D source config s es c.conn

/-- **What is idle belongs to the configuration, but for what was taken over.**  After every run,
    whatever the drivers answer: every idle connection was opened by the driver and with the url of
    now, and it was opened for the configured user unless the configured user reclaimed it from the one
    for whom it was opened. -/
theorem idle_belongs (es : List (Event σ)) : Belonging D source config s es := by
  have hall : AllKnown D source config s es := allKnown_reached es
  have htarget : ∀ c ∈ (reached D source config s es).world.pool.idle,
      c.conn.driver = (sourceAt D source config s es).driver ∧
      ∃ who, OpenedAs D source config s es c.conn (sourceAt D source config s es).config.url who := by
    intro c hc
    have hknown := hall.known c (List.mem_append_right _ hc)
    obtain ⟨who, hopened, -⟩ := hknown.opened
    exact ⟨hknown.driver, who, hopened⟩
  have huser : ∀ c ∈ (reached D source config s es).world.pool.idle,
      (OpenedAs D source config s es c.conn (sourceAt D source config s es).config.url
        (sourceAt D source config s es).config.credentials ↔
          ¬ TakenOver D source config s es c.conn) := by
    intro c hc
    obtain ⟨who, hopened, hown, htaken⟩ := (hall.known c (List.mem_append_right _ hc)).opened
    constructor
    · intro ho ht
      exact htaken ht (ho.unique hopened).2
    · intro hnot
      have hwho := (hown (congrArg Identity.credentials (hall.idle c hc))).resolve_right hnot
      exact hwho ▸ hopened
  constructor
  case target => exact htarget
  case once => exact fun _ _ _ _ _ ho ho' => ho.unique ho'
  case user => exact huser
  case exact =>
    constructor
    · exact fun h c hc => (huser c hc).1 (h c hc).2
    · exact fun h c hc => ⟨(htarget c hc).1, (huser c hc).2 (h c hc)⟩

end Runs

/-! ## A run that keeps a connection of another user -/

/-- One connection at most, kept when it comes back, and overdue soon. -/
def keeping : PoolConfig :=
  { maxActive := 1
    maxIdle := 1
    maxCheckoutTime := .ofMillis 10
    timeToWait := .zero }

/-- One acquires for another user and is overdue; the next reclaims the connection and returns it. -/
def adopted : List (Event Bank) :=
  [.acquire 0 (some ⟨some "ops", some "hunter2"⟩), .advance (.ofMillis 20), .acquire 1 none, .release 1]

/-- The connection of the other user is kept for the configured one. -/
theorem keeps_foreign : ¬ BelongsHere Bank.drivers target keeping [.scripted {}] adopted := by
  intro h
  have hmakes : Makes Bank.drivers target keeping [.scripted {}] []
      (.acquire 0 (some ⟨some "ops", some "hunter2"⟩)) (.connect ⟨0, 1⟩ "mem://db"
        (target.config.propertiesFor ⟨some "ops", some "hunter2"⟩) (.ok ())) :=
    ⟨[], List.prefix_refl _, by decide +kernel⟩
  have hforeign : OpenedAs Bank.drivers target keeping [.scripted {}] adopted ⟨0, 1⟩ "mem://db"
      ⟨some "ops", some "hunter2"⟩ :=
    ⟨[], _, 0, _, List.prefix_append _ _, rfl, rfl, hmakes⟩
  have hidle : (reached Bank.drivers target keeping [.scripted {}] adopted).world.pool.idle.map
      (·.conn) = [⟨0, 1⟩] := by
    decide +kernel
  obtain ⟨c, hc, hconn⟩ : ∃ c ∈ (reached Bank.drivers target keeping [.scripted {}]
      adopted).world.pool.idle, c.conn = ⟨0, 1⟩ :=
    List.mem_map.1 (hidle ▸ List.mem_cons_self)
  have hown := (h c hc).2
  rw [hconn] at hown
  have hsame := (hforeign.unique hown).2
  revert hsame
  decide +kernel

end Machine

end ConnPool
