/-
  Who has which connection.

  A `Roster` of a pool is the list of all its wrappers: those of the active list, those of the idle
  list and, in the middle of an operation, the one that is in hand.  No two of them share an identity,
  a number or a connection, and the valid identities are exactly theirs.  Identities, numbers and
  tickets are given out in ascending order, so that what is given out next is new.

  Connections change hands in four ways, and each is one lemma: a wrapper is struck off
  (`Roster.strike`), a connection is entered (`Roster.enter`), a wrapper is replaced by a new one
  around the same connection (`Roster.replace`), and a wrapper is stamped (`Roster.stamp`).  The order
  of a roster does not matter (`Roster.perm`), so moving a wrapper between lists is no change at all.
-/
import ConnPool.Proofs.Ledger

namespace ConnPool

namespace Pool

/-- All wrappers of a pool, wherever they are. -/
structure Roster (p : Pool) (l : List Wrapper) : Prop where
  ids : (l.map (·.id)).Nodup
  rawIds : (l.map (·.rawId)).Nodup
  conns : (l.map (·.conn)).Nodup
  valid : ∀ id, id ∈ p.valid ↔ id ∈ l.map (·.id)
  idsBelow : ∀ c ∈ l, c.id < p.nextWrapper
  rawIdsBelow : ∀ c ∈ l, c.rawId < p.nextRaw
  ticketsBelow : ∀ c ∈ l, c.conn.ticket < p.nextTicket

theorem roster_new (source : Source) (config : PoolConfig) :
    (Pool.new source config).Roster (Pool.new source config).wrappers :=
  ⟨List.nodup_nil, List.nodup_nil, List.nodup_nil, fun _ => Iff.rfl, nofun, nofun, nofun⟩

namespace Roster

variable {p p' : Pool} {l l' : List Wrapper} {c c' : Wrapper}

/-- A roster is a roster in any order. -/
theorem perm (h : p.Roster l) (hl : l.Perm l') : p.Roster l' where
  ids := (hl.map _).nodup_iff.1 h.ids
  rawIds := (hl.map _).nodup_iff.1 h.rawIds
  conns := (hl.map _).nodup_iff.1 h.conns
  valid id := (h.valid id).trans (hl.map _).mem_iff
  idsBelow c hc := h.idsBelow c (hl.mem_iff.2 hc)
  rawIdsBelow c hc := h.rawIdsBelow c (hl.mem_iff.2 hc)
  ticketsBelow c hc := h.ticketsBelow c (hl.mem_iff.2 hc)

/-- Nothing is out twice. -/
theorem active_nodup (h : p.Roster p.wrappers) : p.active.Nodup := by
  have hids := h.ids
  rw [wrappers, List.map_append] at hids
  have hactive := List.pairwise_map.1 (List.nodup_append.1 hids).1
  exact hactive.imp fun hne he => hne (congrArg _ he)

/-- A roster depends on the valid identities and on what is given out next, not on the lists. -/
theorem congr (h : p.Roster l) (hvalid : p'.valid = p.valid)
    (hid : p'.nextWrapper = p.nextWrapper) (hraw : p'.nextRaw = p.nextRaw)
    (hticket : p.nextTicket ≤ p'.nextTicket) : p'.Roster l where
  ids := h.ids
  rawIds := h.rawIds
  conns := h.conns
  valid id := by rw [hvalid]; exact h.valid id
  idsBelow c hc := by rw [hid]; exact h.idsBelow c hc
  rawIdsBelow c hc := by rw [hraw]; exact h.rawIdsBelow c hc
  ticketsBelow c hc := Nat.lt_of_lt_of_le (h.ticketsBelow c hc) hticket

/-- A wrapper whose validity is taken away is struck off. -/
theorem strike (h : p.Roster (c :: l)) : (p.invalidate c.id).Roster l where
  ids := (List.nodup_cons.1 h.ids).2
  rawIds := (List.nodup_cons.1 h.rawIds).2
  conns := (List.nodup_cons.1 h.conns).2
  valid id := by
    have hnot : c.id ∉ l.map (·.id) := (List.nodup_cons.1 h.ids).1
    have hmem : id ∈ (p.invalidate c.id).valid ↔ id ∈ p.valid ∧ id ≠ c.id := by
      simp only [invalidate, List.mem_filter, decide_eq_true_eq]
    rw [hmem, h.valid id, List.map_cons, List.mem_cons]
    constructor
    · rintro ⟨rfl | hid, hne⟩
      · exact absurd rfl hne
      · exact hid
    · intro hid
      exact ⟨Or.inr hid, fun he => hnot (he ▸ hid)⟩
  idsBelow c' hc' := h.idsBelow c' (List.mem_cons_of_mem _ hc')
  rawIdsBelow c' hc' := h.rawIdsBelow c' (List.mem_cons_of_mem _ hc')
  ticketsBelow c' hc' := h.ticketsBelow c' (List.mem_cons_of_mem _ hc')

/-- A connection that was just opened is entered under what is given out next. -/
theorem enter (h : p.Roster l) (hid : c.id = p.nextWrapper) (hraw : c.rawId = p.nextRaw)
    (hticket : c.conn.ticket = p.nextTicket) :
    Roster { p.enroll c with nextTicket := p.nextTicket + 1, nextRaw := p.nextRaw + 1 }
      (c :: l) where
  ids := by
    refine List.nodup_cons.2 ⟨fun hmem => ?_, h.ids⟩
    obtain ⟨c', hc', he⟩ := List.mem_map.1 hmem
    have hbelow := h.idsBelow c' hc'
    have hsame : c'.id = c.id := he
    omega
  rawIds := by
    refine List.nodup_cons.2 ⟨fun hmem => ?_, h.rawIds⟩
    obtain ⟨c', hc', he⟩ := List.mem_map.1 hmem
    have hbelow := h.rawIdsBelow c' hc'
    have hsame : c'.rawId = c.rawId := he
    omega
  conns := by
    refine List.nodup_cons.2 ⟨fun hmem => ?_, h.conns⟩
    obtain ⟨c', hc', he⟩ := List.mem_map.1 hmem
    have hbelow := h.ticketsBelow c' hc'
    have hsame : c'.conn = c.conn := he
    rw [hsame] at hbelow
    omega
  valid id := by
    show id ∈ c.id :: p.valid ↔ id ∈ c.id :: l.map (·.id)
    rw [List.mem_cons, List.mem_cons, h.valid id]
  idsBelow := by
    intro c' hc'
    show c'.id < p.nextWrapper + 1
    rcases List.mem_cons.1 hc' with rfl | hc'
    · omega
    · have := h.idsBelow c' hc'
      omega
  rawIdsBelow := by
    intro c' hc'
    show c'.rawId < p.nextRaw + 1
    rcases List.mem_cons.1 hc' with rfl | hc'
    · omega
    · have := h.rawIdsBelow c' hc'
      omega
  ticketsBelow := by
    intro c' hc'
    show c'.conn.ticket < p.nextTicket + 1
    rcases List.mem_cons.1 hc' with rfl | hc'
    · omega
    · have := h.ticketsBelow c' hc'
      omega

/-- Two wrappers around the same connection are the same to a roster that has neither of them twice,
    but for their identities. -/
theorem stamp (h : p.Roster (c :: l)) (hid : c'.id = c.id) (hraw : c'.rawId = c.rawId)
    (hconn : c'.conn = c.conn) : p.Roster (c' :: l) where
  ids := by
    rw [List.map_cons, hid]
    exact h.ids
  rawIds := by
    rw [List.map_cons, hraw]
    exact h.rawIds
  conns := by
    rw [List.map_cons, hconn]
    exact h.conns
  valid id := by
    rw [List.map_cons, hid]
    exact h.valid id
  idsBelow := by
    intro c₁ hc₁
    rcases List.mem_cons.1 hc₁ with rfl | hc₁
    · exact hid ▸ h.idsBelow c List.mem_cons_self
    · exact h.idsBelow c₁ (List.mem_cons_of_mem _ hc₁)
  rawIdsBelow := by
    intro c₁ hc₁
    rcases List.mem_cons.1 hc₁ with rfl | hc₁
    · exact hraw ▸ h.rawIdsBelow c List.mem_cons_self
    · exact h.rawIdsBelow c₁ (List.mem_cons_of_mem _ hc₁)
  ticketsBelow := by
    intro c₁ hc₁
    rcases List.mem_cons.1 hc₁ with rfl | hc₁
    · exact hconn ▸ h.ticketsBelow c List.mem_cons_self
    · exact h.ticketsBelow c₁ (List.mem_cons_of_mem _ hc₁)

/-- A new wrapper around the same connection takes the place of the old one, whose validity goes. -/
theorem replace (h : p.Roster (c :: l)) (c' : Wrapper) (hid : c'.id = p.nextWrapper)
    (hraw : c'.rawId = c.rawId) (hconn : c'.conn = c.conn) :
    ((p.invalidate c.id).enroll c').Roster (c' :: l) where
  ids := by
    refine List.nodup_cons.2 ⟨fun hmem => ?_, (List.nodup_cons.1 h.ids).2⟩
    obtain ⟨c₁, hc₁, he⟩ := List.mem_map.1 hmem
    have hbelow := h.idsBelow c₁ (List.mem_cons_of_mem _ hc₁)
    have hsame : c₁.id = c'.id := he
    omega
  rawIds := by
    rw [List.map_cons, hraw]
    exact h.rawIds
  conns := by
    rw [List.map_cons, hconn]
    exact h.conns
  valid id := by
    show id ∈ c'.id :: (p.invalidate c.id).valid ↔ id ∈ c'.id :: l.map (·.id)
    rw [List.mem_cons, List.mem_cons, h.strike.valid id]
  idsBelow := by
    intro c₁ hc₁
    show c₁.id < p.nextWrapper + 1
    rcases List.mem_cons.1 hc₁ with rfl | hc₁
    · omega
    · have := h.idsBelow c₁ (List.mem_cons_of_mem _ hc₁)
      omega
  rawIdsBelow := by
    intro c₁ hc₁
    rcases List.mem_cons.1 hc₁ with rfl | hc₁
    · exact hraw ▸ h.rawIdsBelow c List.mem_cons_self
    · exact h.rawIdsBelow c₁ (List.mem_cons_of_mem _ hc₁)
  ticketsBelow := by
    intro c₁ hc₁
    rcases List.mem_cons.1 hc₁ with rfl | hc₁
    · exact hconn ▸ h.ticketsBelow c List.mem_cons_self
    · exact h.ticketsBelow c₁ (List.mem_cons_of_mem _ hc₁)

/-- Invalidating and enrolling may be done in either order when the new identity is new. -/
theorem replace' (h : p.Roster (c :: l)) (c' : Wrapper) (hid : c'.id = p.nextWrapper)
    (hraw : c'.rawId = c.rawId) (hconn : c'.conn = c.conn) :
    ((p.enroll c').invalidate c.id).Roster (c' :: l) := by
  have hne : c'.id ≠ c.id := by
    have := h.idsBelow c List.mem_cons_self
    omega
  refine (h.replace c' hid hraw hconn).congr ?_ rfl rfl (Nat.le_refl _)
  show (c'.id :: p.valid).filter (· ≠ c.id) = c'.id :: p.valid.filter (· ≠ c.id)
  rw [List.filter_cons_of_pos (by simpa using hne)]

end Roster

end Pool

/-! ## Every event -/

namespace World

variable {σ : Type}

/-- **A roster is a ledger.** -/
theorem roster_ledger (P : Drivers σ) : Ledger P fun w l => w.pool.Roster l where
  perm h hl := h.perm hl
  lists _ _ _ _ h := h.congr rfl rfl rfl (Nat.le_refl _)
  opened _ _ h := h.enter rfl rfl rfl
  refused _ _ h := h.congr rfl rfl rfl (Nat.le_succ _)
  fit hfit h := by
    rw [pool_of_isFit P hfit]
    exact h
  unfit hfit h := by
    rw [discard_pool, pool_of_isFit P hfit]
    exact h.strike
  rolledBack h := h
  reclaimed {w _ c} h := by
    rw [reclaim_pool, reclaim_fst]
    exact (h.replace (w.pool.rewrapped c w.now) rfl rfl rfl).congr rfl rfl rfl (Nat.le_refl _)
  stamped _ h := h.stamp rfl rfl rfl
  kept {w _ c} h := by
    rw [keep_pool]
    exact (h.replace' (w.pool.rewrapped c w.now) rfl rfl rfl).congr rfl rfl rfl (Nat.le_refl _)
  closed h := h.strike
  discarded h := h.strike

/-- **The wrappers of the two lists are always a roster**, whatever happens to the pool. -/
theorem roster_kept (P H : Drivers σ) : Kept P H fun w => w.pool.Roster w.pool.wrappers :=
  (roster_ledger P).kept_of (fun _ _ _ _ h => h.congr rfl rfl rfl (Nat.le_refl _)) fun _ _ h => h

end World

end ConnPool
