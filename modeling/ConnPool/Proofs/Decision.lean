/-
  A pass is decided by its first search.

  Whether an acquisition has to wait, or finds that there is nothing to wait for, is known after the
  first search of a pass, and then the pass is over (`tryOut_first`).  A search that finds something takes
  it out of the lists, so that there is room for another connection (`Roomy`), and there still is when
  the candidate was thrown away.  So no later search of the pass has to wait: it takes what is idle, or
  it opens a connection.

  There is no later search if the budget does not fit in a word.  Then the pass breaks off, and it does
  so just when it has thrown a candidate away (`overflowed_iff`).
-/
import ConnPool.Proofs.Counting
import ConnPool.Proofs.Limits

namespace ConnPool

variable {τ : Type}

/-- An end to which a pass comes that has found something to try out. -/
def PassEnd.IsDecision : PassEnd → Prop
  | .handedOut _ => True
  | .failed (.connection _) => True
  | .failed (.exhausted _) => True
  | .overflowed => True
  | _ => False

namespace World

variable (P : Drivers τ)

/-- A search finds something to try out. -/
def Obtains (w : World τ) (who : Credentials) : Prop :=
  ∃ c w', w.takeCandidate P who = (.found c, w')

/-! ## After the first search -/

/-- There is room for another connection. -/
structure Roomy (w : World τ) : Prop where
  fits : w.pool.Fits
  space : w.pool.active.length + w.pool.idle.length < w.pool.config.maxActive

variable {P} {w w₁ w₂ : World τ} {who : Credentials} {c : Wrapper}

/-- What a search finds leaves its place behind. -/
theorem roomy_of_found (h : w.pool.Fits) (ht : w.takeCandidate P who = (.found c, w₁)) : w₁.Roomy :=
  ⟨(takeCandidate_fits P ht h).1, (takeCandidate_fits P ht h).2⟩

/-- A candidate that is thrown away does not come back to its place. -/
theorem Roomy.rejected {good : Bool} (h : w₁.Roomy) (hg : w₁.isGood P c = (good, w₂)) :
    (w₂.reject P c).Roomy := by
  have hpool := pool_of_isGood P hg
  have hfits := h.fits
  have hspace := h.space
  rw [← hpool] at hfits hspace
  exact ⟨⟨hfits.idle, hfits.total⟩, hspace⟩

/-- With room for another connection no search has to wait, and none finds that it could wait for
    ever. -/
theorem Roomy.decided (startedAt : Instant) (budget r : Nat) (h : w.Roomy) :
    (w.tryOut P who startedAt budget r).1.IsDecision := by
  refine tryOut_rule P (I := fun _ w => w.Roomy) (Q := fun e _ => e.IsDecision)
    ?_ ?_ ?_ ?_ ?_ ?_ budget r w h
  · intro r w e w' hroom ht
    rcases takeCandidate_failed P ht with ⟨-, -, cause, s, -, rfl, -⟩ | ⟨-, -, hz, -, -⟩
    · trivial
    · have hspace := hroom.space
      omega
  · intro r w w' hroom ht
    obtain ⟨-, -, oldest, rest, -, hfull, -⟩ := takeCandidate_mustWait P ht
    have hspace := hroom.space
    omega
  · intro r w c w₁ w₂ hroom ht hg
    trivial
  · intro r w c w₁ w₂ hroom ht hg
    exact (roomy_of_found hroom.fits ht).rejected hg
  · intro r w hroom
    trivial
  · intro r w hroom
    trivial

/-- **The first search decides**: it finds something, and the pass comes to a decision; or it fails, or
    has to wait, and the pass does at once what it does. -/
theorem tryOut_first (P : Drivers τ) (who : Credentials) (startedAt : Instant) (budget r : Nat)
    (h : w.pool.Fits) :
    (w.Obtains P who ∧ (w.tryOut P who startedAt budget r).1.IsDecision) ∨
    (∃ e w', w.takeCandidate P who = (.failed e, w') ∧
      w.tryOut P who startedAt budget r = (.failed e, w')) ∨
    (w.takeCandidate P who = (.mustWait, w) ∧
      w.tryOut P who startedAt budget r = (.mustWait r, w)) := by
  refine tryOut_turn P (G := fun end_ => (w.Obtains P who ∧ end_.1.IsDecision) ∨
    (∃ e w', w.takeCandidate P who = (.failed e, w') ∧ end_ = (.failed e, w')) ∨
    (w.takeCandidate P who = (.mustWait, w) ∧ end_ = (.mustWait r, w))) ?_ ?_ ?_ ?_
  · intro e w' ht
    exact Or.inr (Or.inl ⟨e, w', ht, rfl⟩)
  · intro w' ht
    obtain rfl := (takeCandidate_mustWait P ht).1
    exact Or.inr (Or.inr ⟨ht, rfl⟩)
  · intro c w₁ w₂ ht hg
    exact Or.inl ⟨⟨c, w₁, ht⟩, trivial⟩
  · intro c w₁ w₂ ht hg
    refine Or.inl ⟨⟨c, w₁, ht⟩, ?_⟩
    split
    · -- the candidate has left its place, so no later search of the pass has to wait
      cases budget with
      | zero => trivial
      | succ budget => exact ((roomy_of_found h ht).rejected hg).decided startedAt budget (r + 1)
    · trivial

/-- Only a pool that may have no connection out has nothing to wait for. -/
theorem maxActive_of_internal (P : Drivers τ) {startedAt : Instant} {budget r : Nat} {detail : String}
    (h : w.pool.Fits) (hend : (w.tryOut P who startedAt budget r).1 = .failed (.internal detail)) :
    w.pool.config.maxActive = 0 := by
  rcases w.tryOut_first P who startedAt budget r h with ⟨-, hdecision⟩ | ⟨e, w', ht, hw⟩ | ⟨-, hw⟩
  · rw [hend] at hdecision
    exact hdecision.elim
  · rw [hw] at hend
    obtain rfl := PassEnd.failed.inj hend
    rcases takeCandidate_failed P ht with ⟨-, -, cause, s, -, he, -⟩ | ⟨-, -, hz, -, -⟩
    · nomatch he
    · exact hz
  · rw [hw] at hend
    nomatch hend

/-- Why a pass fails: a connection could not be opened, the budget was used up, or there was nothing to
    wait for. -/
theorem tryOut_failed_cases (P : Drivers τ) (w : World τ) (who : Credentials) (startedAt : Instant)
    (budget r : Nat) : ∀ err, (w.tryOut P who startedAt budget r).1 = .failed err →
      (∃ cause, err = .connection cause) ∨ (∃ n, err = .exhausted n) ∨
        ∃ detail, err = .internal detail := by
  refine tryOut_rule P (I := fun _ _ => True) (Q := fun end_ _ => ∀ err, end_ = .failed err →
    (∃ cause, err = .connection cause) ∨ (∃ n, err = .exhausted n) ∨ ∃ detail, err = .internal detail)
    ?_ ?_ ?_ ?_ ?_ ?_ budget r w trivial
  · rintro r w e w' - ht err he
    obtain rfl := PassEnd.failed.inj he
    rcases takeCandidate_failed P ht with ⟨-, -, cause, s, -, rfl, -⟩ | ⟨-, -, -, ⟨detail, rfl⟩, -⟩
    · exact Or.inl ⟨cause, rfl⟩
    · exact Or.inr (Or.inr ⟨detail, rfl⟩)
  · intro r w w' _ _ err he
    cases he
  · intro r w c w₁ w₂ _ _ _ err he
    cases he
  · intro r w c w₁ w₂ _ _ _
    trivial
  · rintro r w - err he
    obtain rfl := PassEnd.failed.inj he
    exact Or.inr (Or.inl ⟨r + 1, rfl⟩)
  · intro r w _ err he
    cases he

/-- What a pass finds it hands out or throws away. -/
theorem obtains_iff (P : Drivers τ) (who : Credentials) (startedAt : Instant) :
    ∀ (budget r : Nat) (w : World τ), w.Obtains P who ↔ w.rejects P who budget ≠ [] ∨
      ∃ h, (w.tryOut P who startedAt budget r).1 = .handedOut h := by
  refine rejects_rule P (G := fun _ _ w rejected end_ =>
    w.Obtains P who ↔ rejected ≠ [] ∨ ∃ h, end_.1 = .handedOut h) ?_ ?_ ?_ ?_ ?_ ?_
  · intro budget r w e w' ht
    simp [Obtains, ht]
  · intro budget r w w' ht
    simp [Obtains, ht]
  · exact fun ht _ => ⟨fun _ => Or.inr ⟨_, rfl⟩, fun _ => ⟨_, _, ht⟩⟩
  · exact fun ht _ _ => ⟨fun _ => Or.inl (List.cons_ne_nil _ _), fun _ => ⟨_, _, ht⟩⟩
  · exact fun ht _ _ => ⟨fun _ => Or.inl (List.cons_ne_nil _ _), fun _ => ⟨_, _, ht⟩⟩
  · exact fun ht _ _ _ => ⟨fun _ => Or.inl (List.cons_ne_nil _ _), fun _ => ⟨_, _, ht⟩⟩

/-- **A pass breaks off just when it throws something away** and its budget does not fit in a word. -/
theorem overflowed_iff (P : Drivers τ) (who : Credentials) (startedAt : Instant) :
    ∀ (budget r : Nat) (w : World τ), (w.tryOut P who startedAt budget r).1 = .overflowed ↔
      ¬ w.pool.config.badBudget < wordLimit ∧ w.rejects P who budget ≠ [] := by
  refine rejects_rule P (G := fun _ _ w rejected end_ =>
    end_.1 = .overflowed ↔ ¬ w.pool.config.badBudget < wordLimit ∧ rejected ≠ []) ?_ ?_ ?_ ?_ ?_ ?_
  · exact fun _ => ⟨nofun, fun h => absurd rfl h.2⟩
  · exact fun _ => ⟨nofun, fun h => absurd rfl h.2⟩
  · exact fun _ _ => ⟨nofun, fun h => absurd rfl h.2⟩
  · exact fun _ _ hword => ⟨nofun, fun h => absurd hword h.1⟩
  · exact fun _ _ hword => ⟨fun _ => ⟨hword, List.cons_ne_nil _ _⟩, fun _ => rfl⟩
  · intro budget r w c w₁ w₂ ht hg hword hlater
    rw [config_of_rejected ht hg] at hlater
    exact ⟨fun h => absurd hword (hlater.1 h).1, fun h => absurd hword h.1⟩

/-- What was counted does not matter to a search. -/
theorem obtains_counting (k : Counters) : (w.counting k).Obtains P who ↔ w.Obtains P who := by
  unfold Obtains
  rw [takeCandidate_counting]
  rcases w.takeCandidate P who with ⟨candidate, w₁⟩
  constructor
  · rintro ⟨c, w', h⟩
    exact ⟨c, w₁, congrArg (·, w₁) (congrArg Prod.fst h)⟩
  · rintro ⟨c, w', h⟩
    exact ⟨c, w₁.counting k, congrArg (·, w₁.counting k) (congrArg Prod.fst h)⟩

end World

end ConnPool
