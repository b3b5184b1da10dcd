/-
  Whoever holds a connection is left alone with it.

  The others work on the same two lists.  None of them takes a connection away from its holder before
  the holder is overdue, or while something else can be had, and none of them calls it: an event calls
  connections that are idle, that it opens, that it reclaims, or that its own handle is on, and these
  are other connections, since no two wrappers are around the same one.

  What an event leaves alone is shown once for each deed (`Deed.leaves`), about a wrapper that is out
  and that is not reclaimed; it then holds after every run (`holders_undisturbed`).
-/
import ConnPool.Proofs.Conduct
import ConnPool.Proofs.Deeds

namespace ConnPool

variable {σ : Type}

/-! ## What the others do to the pool -/

namespace World

variable (D : Drivers σ)

/-- Whatever becomes of a connection that came back, no other leaves the active list. -/
theorem takeBack_active (w : World σ) (c : Wrapper) :
    (w.takeBack D c).pool.active = w.pool.active := by
  rcases w.takeBack_cases D c with ⟨w₁, hfit, e⟩ | ⟨w₁, w₂, hfit, hr, -, e⟩ | ⟨w₁, r, w₂, hfit, hr, -, e⟩
  · rw [e, reject_pool, pool_of_isFit D hfit]
    rfl
  · rw [e, keep_pool, pool_of_countedBack D hfit hr]
    rfl
  · rw [e, close_pool, pool_of_countedBack D hfit hr]
    rfl

/-- The return of a handle leaves the connections of the others out. -/
theorem checkIn_keeps (w : World σ) {id : Nat} {c : Wrapper} (hc : c ∈ w.pool.active)
    (hid : c.id ≠ id) : c ∈ (w.checkIn D id).pool.active := by
  rcases w.checkIn_cases D id with ⟨-, e⟩ | ⟨c', front, back, ha, hid', -, e⟩
  · rw [e]
    exact hc
  · rw [e, takeBack_active]
    rw [ha] at hc
    show c ∈ front ++ back
    rcases List.mem_append.1 hc with hc | hc
    · exact List.mem_append_left _ hc
    · rcases List.mem_cons.1 hc with rfl | hc
      · exact absurd hid' hid
      · exact List.mem_append_right _ hc

variable {w : World σ} {c : Wrapper}

/-- Two wrappers around one connection are one wrapper. -/
theorem eq_of_conn_eq (hroster : w.pool.Roster w.pool.wrappers) {c c' : Wrapper}
    (hc : c ∈ w.pool.wrappers) (hc' : c' ∈ w.pool.wrappers) (h : c.conn = c'.conn) : c = c' :=
  List.inj_on_of_nodup_map hroster.conns hc hc' h

/-- What is out is not idle. -/
theorem conn_ne_of_idle (hroster : w.pool.Roster w.pool.wrappers) {c c' : Wrapper}
    (hc : c ∈ w.pool.active) (hc' : c' ∈ w.pool.idle) : c.conn ≠ c'.conn := by
  have hconns := hroster.conns
  rw [Pool.wrappers, List.map_append] at hconns
  exact (List.nodup_append.1 hconns).2.2 _ (List.mem_map_of_mem hc) _ (List.mem_map_of_mem hc')

/-- A pass does not reach what is out, but for what it reclaims. -/
theorem not_reaches (hroster : w.pool.Roster w.pool.wrappers) (hc : c ∈ w.pool.active)
    (hnot : ¬ w.Reclaims c) : ¬ w.Reaches c.conn := by
  have hmem : c ∈ w.pool.wrappers := List.mem_append_left _ hc
  rintro (⟨c', hidle, he⟩ | ⟨-, hnew⟩ | ⟨c', hreclaims, he⟩)
  · exact conn_ne_of_idle hroster hc hidle he.symm
  · -- what is opened has a ticket that nothing has
    have := hroster.ticketsBelow c hmem
    omega
  · have hc' : c' ∈ w.pool.active := List.mem_of_head? hreclaims.oldest
    obtain rfl := eq_of_conn_eq hroster (List.mem_append_left _ hc') hmem he
    exact hnot hreclaims

/-- So it says nothing about it. -/
theorem conn_ne_of_utters (hroster : w.pool.Roster w.pool.wrappers) (hc : c ∈ w.pool.active)
    (hnot : ¬ w.Reclaims c) {who : Credentials} {x : Exchange} (hx : w.Utters who x) :
    x.conn ≠ c.conn := by
  rcases hx with ⟨conn, hreaches, haddresses⟩ | ⟨ticket, hticket, answer, rfl⟩
  · intro he
    rw [haddresses.conn_eq] at he
    exact not_reaches hroster hc hnot (he ▸ hreaches)
  · intro he
    have hbelow := hroster.ticketsBelow c (List.mem_append_left _ hc)
    rw [← he] at hbelow
    exact absurd hticket (Nat.not_le.2 hbelow)

end World

/-! ## What an event leaves alone -/

/-- The event is something that is done with the handle under a key. -/
def Event.IsOn (key : Key) : Event σ → Prop
  | .release k => k = key
  | .use k _ => k = key
  | _ => False

namespace Machine

/-- The pool has no reason to take the connection of a handle away: the handle is not overdue, or
    something is idle, or more connections may be opened, or another one has been out for longer. -/
def Spares (m : Machine σ) (h : Handle) : Prop :=
  m.world.now - h.checkoutAt ≤ m.world.pool.config.maxCheckoutTime ∨
  m.world.pool.idle ≠ [] ∨
  m.world.pool.active.length < m.world.pool.config.maxActive ∨
  ∀ c, m.world.pool.active.head? = some c → c.id ≠ h.id

/-- A connection whose handle is spared is not reclaimed. -/
theorem Spares.not_reclaims {m : Machine σ} {c : Wrapper} (h : m.Spares c.handle) :
    ¬ m.world.Reclaims c := by
  intro hc
  rcases h with hage | hidle | hroom | hfront
  · exact absurd hc.overdue (Nat.not_lt.2 hage)
  · exact hidle hc.idle
  · exact absurd hroom (Nat.not_lt.2 hc.full)
  · exact hfront c hc.oldest rfl

/-- What is left of a handle and its wrapper. -/
structure Leaves (m : Machine (Observed σ)) (e : Key × Handle) (c : Wrapper)
    (m' : Machine (Observed σ)) : Prop where
  handle : e ∈ m'.handles
  wrapper : c ∈ m'.world.pool.active
  log : Continues (fun _ x => x.conn ≠ c.conn) m.log m'.log

/-- Two handles that are out with one identity are one handle, under one key. -/
theorem Owned.entry_eq {os : List Outcome} {m : Machine σ} (h : Owned os m) {e e' : Key × Handle}
    (he : e ∈ m.handles) (he' : e' ∈ m.handles) (hid : e.2.id = e'.2.id) : e = e' := by
  have hids : (m.handles.map fun e => e.2.id).Nodup := List.pairwise_map.2 h.handles_pairwise
  exact List.inj_on_of_nodup_map hids he he' hid

/-- **An event leaves the other holders alone**, but for one whose connection can be reclaimed, unless
    it throws away all that is there. -/
theorem Deed.leaves {D : Drivers σ} {os : List Outcome} {m m' : Machine (Observed σ)} {e : Event σ}
    {o : Outcome} {h : Key × Handle} {c : Wrapper} (hd : m.Deed D e o m') (howned : Owned os m)
    (hfits : m.world.pool.Fits) (hh : h ∈ m.handles) (hc : c ∈ m.world.pool.active)
    (hch : c.handle = h.2) (hnot : ¬ m.world.Reclaims c) (hon : ¬ e.IsOn h.1)
    (hreconfigure : ∀ change, e ≠ .reconfigure change) (hout : ∀ n, o ≠ .shutDown n) :
    m.Leaves h c m' := by
  have hmem : c ∈ m.world.pool.wrappers := List.mem_append_left _ hc
  -- a handle under another key is another handle
  have hother : ∀ {key h'}, m.handle? key = some h' → h.1 ≠ key → h'.id ≠ c.id := by
    intro key h' hk hkey hid
    have hh' := mem_of_lookup hk
    have hsame : h.2.id = h'.id := (congrArg Handle.id hch).symm.trans hid.symm
    exact hkey (congrArg Prod.fst (howned.entry_eq hh hh' hsame))
  cases hd with
  | aside _ alike =>
    refine ⟨alike.handles ▸ hh, alike.active ▸ hc, ?_⟩
    rw [alike.log]
    exact Continues.refl _
  | handsOut waiters _ pass =>
    have hconduct := World.conduct_of_pass hfits pass
    exact ⟨List.mem_append_left _ hh, hconduct.keeps c hc hnot, hconduct.log.mono fun _ x hx =>
      World.conn_ne_of_utters howned.roster hc hnot hx⟩
  | fails waiters _ _ pass _ =>
    have hconduct := World.conduct_of_pass hfits pass
    exact ⟨hh, hconduct.keeps c hc hnot, hconduct.log.mono fun _ x hx =>
      World.conn_ne_of_utters howned.roster hc hnot hx⟩
  | @release key h' handle =>
    have hkey : h.1 ≠ key := fun he => hon he.symm
    have hid : c.id ≠ h'.id := (hother handle hkey).symm
    refine ⟨List.mem_filter.2 ⟨hh, by simpa using hkey⟩, World.checkIn_keeps _ _ hc hid, ?_⟩
    refine (World.checkIn_says D m.world h'.id).mono ?_
    rintro _ x ⟨c', hc', hid', hx⟩ he
    rw [hx.conn_eq] at he
    have hcc := World.eq_of_conn_eq howned.roster (List.mem_append_left _ hc') hmem he
    exact hid (hcc ▸ hid')
  | @use key call h' _ handle valid _ =>
    have hkey : h.1 ≠ key := fun he => hon he.symm
    obtain ⟨c', hc', hch'⟩ := howned.wrapper_of_valid (mem_of_lookup handle) valid
    refine ⟨hh, hc, Continues.one fun he => ?_⟩
    have hconn : c'.conn = c.conn := (congrArg Handle.conn hch').trans he
    have hcc := World.eq_of_conn_eq howned.roster (List.mem_append_left _ hc') hmem hconn
    exact hother handle hkey (hcc ▸ (congrArg Handle.id hch').symm)
  | reconfigure change => exact absurd rfl (hreconfigure change)
  | closesAll _ => exact absurd rfl (hout _)

/-! ## Undisturbed -/

/-- What an event leaves alone, and what the return of a handle does that has lost its connection. -/
structure Undisturbed (D : Drivers σ) (m : Machine (Observed σ)) : Prop where
  /-- A valid handle that is spared is out and valid after every event that is not done with it, and
  that does not throw every connection away; and no driver was asked anything about its connection. -/
  spared : ∀ e key h, (key, h) ∈ m.handles → h.id ∈ m.world.pool.valid → m.Spares h →
    ¬ e.IsOn key → (∀ change, e ≠ .reconfigure change) → (∀ n, (m.observe D e).1 ≠ .shutDown n) →
    (key, h) ∈ (m.observe D e).2.handles ∧ h.id ∈ (m.observe D e).2.world.pool.valid ∧
      Continues (fun _ x => x.conn ≠ h.conn) m.log (m.observe D e).2.log
  /-- The return of a handle that is not valid counts as bad, and changes nothing else of the world. -/
  lost : ∀ key h, m.handle? key = some h → h.id ∉ m.world.pool.valid →
    (m.release (D.observed .pool) key).world = m.world.onPool
      (·.count fun k => { k with badConnections := k.badConnections + 1 })
  /-- It is all that happens then, but that the pool is closed when nobody refers to it any more. -/
  lostOnly : ∀ key h, m.handle? key = some h → h.id ∉ m.world.pool.valid →
    (m.release (D.observed .pool) key).unused = false →
    m.observe D (.release key) = (.nothing, m.release (D.observed .pool) key)

/-- The return of a handle that is not valid finds no wrapper. -/
theorem release_of_not_valid (P : Drivers σ) {os : List Outcome} {m : Machine σ} {key : Key}
    {h : Handle} (howned : Owned os m) (hk : m.handle? key = some h)
    (hv : h.id ∉ m.world.pool.valid) : (m.release P key).world = m.world.onPool
      (·.count fun k => { k with badConnections := k.badConnections + 1 }) := by
  have hnone : ∀ c ∈ m.world.pool.active, c.id ≠ h.id := fun c hc hid =>
    hv ((howned.valid_iff (mem_of_lookup hk)).2 ⟨c, hc, hid⟩)
  rcases m.release_cases P key with ⟨hn, -⟩ | ⟨h', hk', e⟩
  · rw [hn] at hk
    nomatch hk
  · obtain rfl := Option.some.inj (hk'.symm.trans hk)
    rcases m.world.checkIn_cases P h'.id with ⟨-, e'⟩ | ⟨c, front, back, ha, hid, -, -⟩
    · rw [e]
      exact e'
    · refine absurd hid (hnone c ?_)
      rw [ha]
      exact List.mem_append_right _ List.mem_cons_self

/-- **Holders are left alone.**  After every run, whatever the drivers answer: a valid handle keeps its
    connection, and nobody else calls it, through every event that is not done with the handle itself
    and does not throw every connection away, unless the connection is the oldest that is out, overdue,
    and nothing else can be had.  The return of a handle that has lost its connection is counted, and
    changes nothing else. -/
theorem holders_undisturbed (D : Drivers σ) (source : Source) (config : PoolConfig) (s : σ)
    (es : List (Event σ)) : Undisturbed D (observeAll D source config s es).2 := by
  have howned := owned_reached D source config s es
  have hfits := fits_reached D source config s es
  show Undisturbed D (reached D source config s es)
  generalize (observeAll D source config s es).1 = os at howned
  generalize reached D source config s es = m at howned hfits ⊢
  constructor
  case spared =>
    intro e key h hh hv hspares hon hreconfigure hout
    obtain ⟨c, hc, hch⟩ := howned.wrapper_of_valid hh hv
    have hnot : ¬ m.world.Reclaims c := (hch ▸ hspares : m.Spares c.handle).not_reclaims
    obtain ⟨m', hdeed, hafter⟩ := m.observe_deed D e
    have hleaves := hdeed.leaves howned hfits hh hc hch hnot hon hreconfigure hout
    -- a handle is out, so the pool is not closed
    have hsame : (m.observe D e).2 = m' := by
      rcases hafter with hsame | ⟨hunused, -⟩
      · exact hsame
      · obtain ⟨-, -, -, hnil⟩ := unused_iff.1 hunused
        exact absurd hleaves.handle (hnil ▸ List.not_mem_nil)
    have hroster : (m.observe D e).2.world.pool.Roster (m.observe D e).2.world.pool.wrappers :=
      (stepAs_owned (D.observed .pool) (D.observed .holder) e.observed howned).roster
    rw [hsame] at hroster ⊢
    obtain rfl : c.handle = h := hch
    refine ⟨hleaves.handle, (hroster.valid c.id).2 ?_, hleaves.log⟩
    exact List.mem_map_of_mem (List.mem_append_left _ hleaves.wrapper)
  case lost => exact fun key h hk hv => release_of_not_valid _ howned hk hv
  case lostOnly =>
    intro key h hk hv hused
    show ((m.react (D.observed .pool) (.release key)).1,
      (m.release (D.observed .pool) key).settle (D.observed .pool)) = _
    rcases (m.release (D.observed .pool) key).settle_cases (D.observed .pool) with e | ⟨hunused, -⟩
    · rw [e]
      rfl
    · exact absurd (hunused.symm.trans hused) Bool.noConfusion

end Machine

end ConnPool
