/-
  How many bad connections an acquisition puts up with.

  A pass counts down a budget and gives up when a candidate is bad and nothing is left of it, so it
  throws away one candidate more than the budget at most, and is exhausted just when it does (`Spent`).
  A pass that lets its acquisition wait has thrown nothing away, so an acquisition that goes on has its
  whole budget (`AllFresh`), and what it rejects at all it rejects in its last pass (`rejectedIn_eq`).

  The budget is the sum of two settings, and is worked out when a candidate was bad.  If the sum fits in a
  word, it is what an acquisition puts up with, to the letter.  If it does not, the acquisition breaks off
  at the first bad connection.  So the promise is kept in all acquisitions if the sum fits, and otherwise
  in just those that reject nothing (`budget_is_kept`), and a pool that was meant to be without a limit
  does not put up with one bad connection (`breaks_off_at_once`).
-/
import ConnPool.Proofs.Atomicity
import ConnPool.Proofs.Statistics

namespace ConnPool

variable {σ τ : Type}

namespace World

/-! ## One pass -/

/-- What a pass has rejected at its end, that had met `r` bad connections before, and had so much of its
    budget left. -/
structure Spent (budget r : Nat) (rejected : List Wrapper) (end_ : PassEnd) : Prop where
  atMost : rejected.length ≤ budget + 1
  exhausted : end_ ≠ .overflowed → ∀ n, end_ = .failed (.exhausted n) ↔
    rejected.length = budget + 1 ∧ n = r + (budget + 1)
  overflowed : end_ = .overflowed → rejected.length = 1

section Spent

variable {budget r : Nat} {rejected : List Wrapper} {c : Wrapper} {end_ : PassEnd}

theorem Spent.nothing (h : ∀ n, end_ ≠ .failed (.exhausted n)) (hword : end_ ≠ .overflowed) :
    Spent budget r [] end_ where
  atMost := Nat.zero_le _
  exhausted _ n := ⟨fun he => absurd he (h n), fun ⟨hlength, _⟩ => nomatch hlength⟩
  overflowed he := absurd he hword

theorem Spent.last : Spent 0 r [c] (.failed (.exhausted (r + 1))) := by
  refine ⟨Nat.le_refl _, fun _ n => ?_, nofun⟩
  simp only [PassEnd.failed.injEq, PoolError.exhausted.injEq, List.length_singleton, true_and,
    Nat.zero_add]
  exact eq_comm

theorem Spent.breaks_off : Spent budget r [c] .overflowed where
  atMost := Nat.le_add_left 1 budget
  exhausted h := absurd rfl h
  overflowed _ := rfl

theorem Spent.one_more (h : Spent budget (r + 1) rejected end_) (hword : end_ ≠ .overflowed) :
    Spent (budget + 1) r (c :: rejected) end_ := by
  constructor
  case atMost =>
    have hatMost := h.atMost
    rw [List.length_cons]
    omega
  case exhausted =>
    intro _ n
    rw [h.exhausted hword n, List.length_cons]
    omega
  case overflowed => exact fun he => absurd he hword

end Spent

/-- No search finds that the budget is used up. -/
theorem failed_ne_exhausted {P : Drivers τ} {w w' : World τ} {who : Credentials} {e : PoolError}
    (ht : w.takeCandidate P who = (.failed e, w')) (n : Nat) :
    PassEnd.failed e ≠ .failed (.exhausted n) := by
  rcases takeCandidate_failed P ht with ⟨-, -, cause, s, -, rfl, -⟩ | ⟨-, -, -, ⟨detail, rfl⟩, -⟩
  all_goals exact nofun

/-- **A pass throws away one candidate more than its budget at most**, and is exhausted just when it
    does, unless it breaks off after the first. -/
theorem tryOut_spent (P : Drivers τ) (who : Credentials) (startedAt : Instant) :
    ∀ (budget r : Nat) (w : World τ),
      Spent budget r (w.rejects P who budget) (w.tryOut P who startedAt budget r).1 := by
  refine rejects_rule P (G := fun budget r _ rejected end_ => Spent budget r rejected end_.1)
    ?_ ?_ ?_ ?_ ?_ ?_
  · exact fun ht => .nothing (failed_ne_exhausted ht) nofun
  · exact fun _ => .nothing nofun nofun
  · exact fun _ _ => .nothing nofun nofun
  · exact fun _ _ _ => .last
  · exact fun _ _ _ => .breaks_off
  · intro budget r w c w₁ w₂ ht hg hword hlater
    refine hlater.one_more fun hend => ?_
    rw [overflowed_iff, config_of_rejected ht hg] at hend
    exact hend.1 hword

end World

namespace Machine

/-! ## The whole budget -/

/-- Whoever waits has rejected nothing. -/
def AllFresh (m : Machine τ) : Prop :=
  ∀ key p, (key, p) ∈ m.waiters → p.acquisition.rejected = 0

section Events

variable {D : Drivers σ} {m m₀ : Machine (Observed σ)} {e : Event σ} {key : Key} {a : Acquisition}

theorem rejected_of_pass? (hfresh : m.AllFresh) (hpass : m.pass? e = some (m₀, key, a)) :
    a.rejected = 0 := by
  rcases pass?_cases hpass with ⟨who, -, -, -, rfl⟩ | ⟨-, p, hk, -, -, rfl⟩
  · rfl
  · exact hfresh key p (mem_of_lookup hk)

/-- An acquisition that comes to wait has thrown nothing away. -/
theorem observe_fresh (e : Event σ) (hfits : m.world.pool.Fits) (hfresh : m.AllFresh) :
    (m.observe D e).2.AllFresh := by
  intro key p' hp'
  cases observe_queue D hp' with
  | stayed old stays _ =>
    rw [stays.acquisition]
    exact hfresh _ _ old
  | parked passes waiting _ =>
    rw [(observe_of_waiting hfits passes waiting).2] at hp'
    rcases List.mem_append.1 hp' with hold | hnew
    · exact absurd rfl (mem_without.1 hold).2
    · obtain ⟨-, rfl⟩ := Prod.mk.inj (List.mem_singleton.1 hnew)
      have hnone := rejected_of_pass? hfresh passes
      exact hnone

/-- The candidates that an acquisition rejects, and what it comes to, if it puts up with so many bad
    connections: it is refused as exhausted just when it has rejected one more, and it does not break off
    before. -/
structure WithinBudget (limit : Nat) (rejected : List Wrapper) (o : Outcome) : Prop where
  atMost : rejected.length ≤ limit + 1
  exhausted : ∀ n, o = .refused (.exhausted n) ↔ rejected.length = limit + 1 ∧ n = limit + 1
  goesOn : rejected.length ≤ limit → o ≠ .overflowed

/-- An acquisition that rejects nothing is within any budget. -/
theorem WithinBudget.nothing (limit : Nat) {o : Outcome} (h : ∀ n, o ≠ .refused (.exhausted n))
    (hword : o ≠ .overflowed) : WithinBudget limit [] o :=
  ⟨Nat.zero_le _, fun n => ⟨fun he => absurd he (h n), fun ⟨hlength, _⟩ => nomatch hlength⟩,
    fun _ => hword⟩

/-- How an acquisition keeps its budget, that has rejected so many candidates and comes to this, while
    the two settings are those of the configuration. -/
structure KeepsBudget (c : PoolConfig) (rejected : List Wrapper) (o : Outcome) : Prop where
  /-- It puts up with the sum of the two settings just when the sum fits in a word, or nothing was bad … -/
  exactly : WithinBudget (c.maxIdle + c.badConnectionTolerance) rejected o ↔
    c.maxIdle + c.badConnectionTolerance < wordLimit ∨ rejected = []
  /-- … and breaks off at the first bad connection otherwise. -/
  otherwise : wordLimit ≤ c.maxIdle + c.badConnectionTolerance → rejected ≠ [] →
    rejected.length = 1 ∧ o = .overflowed

theorem KeepsBudget.nothing (c : PoolConfig) {o : Outcome} (h : ∀ n, o ≠ .refused (.exhausted n))
    (hword : o ≠ .overflowed) : KeepsBudget c [] o :=
  ⟨iff_of_true (.nothing _ h hword) (Or.inr rfl), fun _ hsome => absurd rfl hsome⟩

/-- A pass keeps the budget that it spends. -/
theorem keepsBudget_of_spent {c : PoolConfig} {rejected : List Wrapper} {end_ : PassEnd}
    (hspent : World.Spent c.badBudget 0 rejected end_)
    (hword : end_.outcome = .overflowed ↔ wordLimit ≤ c.badBudget ∧ rejected ≠ []) :
    KeepsBudget c rejected end_.outcome := by
  rw [PassEnd.outcome_eq_overflowed] at hword
  have hbreaks : wordLimit ≤ c.badBudget → rejected ≠ [] →
      rejected.length = 1 ∧ end_.outcome = .overflowed := fun hlarge hsome =>
    have hend := hword.2 ⟨hlarge, hsome⟩
    ⟨hspent.overflowed hend, PassEnd.outcome_eq_overflowed.2 hend⟩
  refine ⟨⟨fun hwithin => ?_, fun hfits => ?_⟩, hbreaks⟩
  · by_contra hnot
    obtain ⟨hlarge, hsome⟩ := not_or.1 hnot
    obtain ⟨hone, hout⟩ := hbreaks (Nat.not_lt.1 hlarge) hsome
    -- one is not more than a sum that does not fit in a word
    refine hwithin.goesOn ?_ hout
    have hword : 0 < wordLimit := by decide
    omega
  · have hend : end_ ≠ .overflowed := fun he => by
      obtain ⟨hlarge, hsome⟩ := hword.1 he
      exact hfits.elim (Nat.not_lt.2 hlarge) hsome
    refine ⟨hspent.atMost, fun n => ?_, fun _ hout => hend (PassEnd.outcome_eq_overflowed.1 hout)⟩
    rw [PassEnd.outcome_eq_refused, hspent.exhausted hend, Nat.zero_add]
    exact Iff.rfl

/-- **The pass of an event keeps the budget** that is configured then. -/
theorem keepsBudget_of_pass? (hfresh : m.AllFresh) (hpass : m.pass? e = some (m₀, key, a)) :
    KeepsBudget m.world.pool.config (m.rejectedBy D e) (m.observe D e).1 := by
  cases hclosed : m.world.pool.closed with
  | true =>
    obtain ⟨hout, hrejected⟩ := observe_of_shut (D := D) hpass hclosed
    rw [hout, hrejected]
    refine .nothing _ (fun n => ?_) nofun
    split <;> exact nofun
  | false =>
    have hword := overflowed_iff (D := D) hpass
    obtain ⟨hout, hrejected, -⟩ := observe_of_open (D := D) hpass hclosed
    rw [rejected_of_pass? hfresh hpass, Nat.sub_zero] at hout hrejected
    rw [hout, hrejected] at hword ⊢
    exact keepsBudget_of_spent (World.tryOut_spent ..) hword

/-- What the pass of the acquisition under a key rejects in an event. -/
def rejectedUnder (D : Drivers σ) (key : Key) (m : Machine (Observed σ)) (e : Event σ) :
    List Wrapper :=
  match m.pass? e with
  | some (_, key', _) => if key' = key then m.rejectedBy D e else []
  | none => []

/-- Whoever waits after an event has rejected nothing in it. -/
theorem rejectedUnder_of_waits (hfits : m.world.pool.Fits) (hafter : (m.observe D e).2.Waits key) :
    rejectedUnder D key m e = [] := by
  rcases hpass : m.pass? e with _ | ⟨m₀, key', a⟩
  · simp only [rejectedUnder, hpass]
  · simp only [rejectedUnder, hpass]
    split
    case isFalse => rfl
    case isTrue hkey =>
      subst hkey
      obtain ⟨⟨key', p⟩, hp, rfl⟩ := List.mem_map.1 hafter
      cases observe_queue D hp with
      | stayed _ _ passes => exact absurd hpass (passes m₀ a)
      | parked _ waiting _ =>
        have hsearch := (observe_of_waiting hfits hpass waiting).1
        cases hclosed : m.world.pool.closed with
        | true => exact (observe_of_shut hpass hclosed).2
        | false =>
          rw [(observe_of_open hpass hclosed).2.1]
          exact World.rejects_of_mustWait _ hsearch

end Events

/-! ## A whole acquisition -/

section Runs

variable (D : Drivers σ) (source : Source) (config : PoolConfig) (s : σ)

theorem fresh_reached (es : List (Event σ)) : (reached D source config s es).AllFresh := by
  induction es using List.reverseRecOn with
  | nil => exact fun _ _ h => nomatch h
  | append_singleton es e ih =>
    rw [reached_concat]
    exact observe_fresh e (fits_reached D source config s es) ih

/-- What the acquisition under a key rejects in the events `later`, after the events `past`. -/
def rejectedIn (past later : List (Event σ)) (key : Key) : List Wrapper :=
  alongFrom D (rejectedUnder D key) (reached D source config s past) later

theorem reached_append (past : List (Event σ)) : ∀ later : List (Event σ),
    reached D source config s (past ++ later) = ((reached D source config s past).runAs
      (D.observed .pool) (D.observed .holder) (later.map .observed)).2 := by
  intro later
  induction later using List.reverseRecOn with
  | nil => rw [List.append_nil]; rfl
  | append_singleton later e ih =>
    rw [← List.append_assoc, reached_concat, ih, List.map_append]
    exact (congrArg Prod.snd (runAs_concat ..)).symm

theorem rejectedIn_concat (past later : List (Event σ)) (e : Event σ) (key : Key) :
    rejectedIn D source config s past (later ++ [e]) key = rejectedIn D source config s past later key ++
      rejectedUnder D key (reached D source config s (past ++ later)) e := by
  rw [reached_append]
  exact alongFrom_concat D _ e later _

variable {D source config s}

/-- Who waits all along rejects nothing. -/
theorem rejectedIn_of_waits {past : List (Event σ)} {key : Key} : ∀ later : List (Event σ),
    (∀ front, front <+: later → front ≠ [] → (reached D source config s (past ++ front)).Waits key) →
    rejectedIn D source config s past later key = [] := by
  intro later
  induction later using List.reverseRecOn with
  | nil => exact fun _ => rfl
  | append_singleton later e ih =>
    intro hwaits
    have hnow := hwaits (later ++ [e]) (List.prefix_refl _) (by simp)
    rw [← List.append_assoc, reached_concat] at hnow
    rw [rejectedIn_concat, ih fun front h => hwaits front (h.trans (List.prefix_append _ _)),
      rejectedUnder_of_waits (fits_reached ..) hnow, List.append_nil]

/-- **What an acquisition rejects it rejects in its last pass.** -/
theorem rejectedIn_eq {es past later : List (Event σ)} {e : Event σ} {key : Key}
    {who : Option Credentials} (hserves : Serves D source config s es e key who past)
    (hlater : es ++ [e] = past ++ later) : rejectedIn D source config s past later key =
      rejectedUnder D key (reached D source config s es) e := by
  rcases hserves with ⟨-, rfl⟩ | ⟨-, hbegun⟩
  · obtain rfl := List.append_cancel_left hlater
    exact List.append_nil _
  · obtain ⟨rest, rfl, hwaits⟩ := hbegun.waits
    obtain rfl : .acquire key who :: rest ++ [e] = later := by
      rw [List.append_assoc] at hlater
      exact List.append_cancel_left hlater
    -- in all the events before this one it came to wait, or it waited already
    rw [rejectedIn_concat, rejectedIn_of_waits, List.nil_append]
    intro front hfront hne
    rcases front with _ | ⟨e', done⟩
    · exact absurd rfl hne
    · obtain ⟨rfl, hdone⟩ := List.cons_prefix_cons.1 hfront
      exact hwaits done hdone

/-- An event that goes on with an acquisition and makes no pass for it does nothing. -/
theorem outcome_of_no_pass {es past : List (Event σ)} {e : Event σ} {key : Key}
    {who : Option Credentials} (hserves : Serves D source config s es e key who past)
    (hpass : (reached D source config s es).pass? e = none) :
    ((reached D source config s es).observe D e).1 = .nothing ∨
      ((reached D source config s es).observe D e).1 = .waiting := by
  generalize reached D source config s es = m at hpass
  rcases hserves with ⟨rfl, -⟩ | ⟨rfl, -⟩
  · have hnot : ¬ m.admits (Event.acquire key who : Event σ).observed = true := fun hadmits => by
      cases hpass.symm.trans (pass?_acquire hadmits)
    exact Or.inl (by simp [observe, stepAs, hnot])
  · obtain ⟨o, he, ho⟩ := resume_of_pass?_eq_none (D.observed .pool) hpass
    have hout : (m.observe D (.resume key)).1 = (m.resume (D.observed .pool) key).1 := rfl
    rw [hout, he]
    exact ho

/-- **The budget of an acquisition is the sum of the two settings, as far as that fits in a word.** -/
theorem budget_is_kept (D : Drivers σ) (source : Source) (config : PoolConfig) (s : σ)
    {es : List (Event σ)} {e : Event σ} {key : Key} {who : Option Credentials}
    {past later : List (Event σ)} (hserves : Serves D source config s es e key who past)
    (hlater : es ++ [e] = past ++ later) :
    KeepsBudget (reached D source config s es).world.pool.config
      (rejectedIn D source config s past later key)
      ((reached D source config s es).observe D e).1 := by
  rw [rejectedIn_eq hserves hlater]
  rcases hpass : (reached D source config s es).pass? e with _ | ⟨m₀, key', a⟩
  · simp only [rejectedUnder, hpass]
    rcases outcome_of_no_pass hserves hpass with hout | hout
    all_goals
      rw [hout]
      exact .nothing _ nofun nofun
  · obtain rfl : key' = key := by
      rcases pass?_cases hpass with ⟨who', rfl, -⟩ | ⟨rfl, -⟩
      all_goals
        rcases hserves with ⟨he, -⟩ | ⟨he, -⟩ <;> cases he
        rfl
    simp only [rejectedUnder, hpass, if_true]
    exact keepsBudget_of_pass? (fresh_reached D source config s es) hpass

end Runs

/-- With three bad connections an acquisition of a standard pool is still served. -/
theorem budget_is_kept_shaky :
    (rejectedIn Bank.drivers target single (shaky 3) [] [.acquire 0 none] 0).length = 3 ∧
    KeepsBudget (reached Bank.drivers target single (shaky 3) []).world.pool.config
      (rejectedIn Bank.drivers target single (shaky 3) [] [.acquire 0 none] 0)
      ((reached Bank.drivers target single (shaky 3) []).observe Bank.drivers (.acquire 0 none)).1 :=
  ⟨by decide +kernel, budget_is_kept Bank.drivers target single (shaky 3) (Or.inl ⟨rfl, rfl⟩) rfl⟩

/-- One of a pool without limits should put up with more bad connections than there can be, and breaks
    off after the first. -/
theorem breaks_off_at_once :
    ¬ WithinBudget (unlimited.maxIdle + unlimited.badConnectionTolerance)
      (rejectedIn Bank.drivers target unlimited (shaky 3) [] [.acquire 0 none] 0)
      ((reached Bank.drivers target unlimited (shaky 3) []).observe Bank.drivers
        (.acquire 0 none)).1 :=
  fun h => h.goesOn (by decide +kernel) (by decide +kernel)

end Machine

end ConnPool
