/-
  From a configuration file to a rehearsal.

  A configuration that was accepted is one whose durations can be read and whose pool may have a
  connection out, so a pool can be made from it; and a rehearsal of it is the run of that pool.

  The numbers of a configuration were read from integers with a sign, so two of them together fit in a
  word.  No acquisition of a rehearsal breaks off (`Config.budget_of_parse`).
-/
import ConnPool.Commands
import ConnPool.Proofs.Config.Resolution

namespace ConnPool

namespace Config

/-- **An accepted configuration describes a pool** that lets a connection be out. -/
theorem resolves {config : Config} (h : config.validate = .ok ()) : ∃ source limits,
    PoolConfig.ofSettings? config.pool = .ok limits ∧ 0 < limits.maxActive ∧
      Pool.ofConfig config 0 = .ok (.new source limits) := by
  obtain ⟨r, hr, hactive, -⟩ := resolved_of_valid h
  refine ⟨⟨r.source, 0⟩, r.pool, (ofConfig_ok hr).2, hactive, ?_⟩
  rw [pool_ofConfig, hr]
  rfl

/-- A number that was read and stands in a document, or a default that does. -/
theorem getD_lt_of_fits {n : Option Nat} {d : Nat} (h : fits n = true) (hd : d < signedLimit) :
    n.getD d < signedLimit := by
  cases n with
  | none => exact hd
  | some n => exact fits_iff.1 h n rfl

/-- **The budget of an accepted text fits in a word.** -/
theorem budget_of_parse {text : String} {config : Config} {limits : PoolConfig}
    (hparse : parse text = .ok config) (hlimits : PoolConfig.ofSettings? config.pool = .ok limits) :
    limits.badBudget < wordLimit := by
  obtain ⟨entries, hentries, hdecode, -⟩ := parse_cases hparse
  have hwritable := writable_of_decode (Toml.inWords_parse hentries) hdecode
  unfold writable at hwritable
  cases hp : config.pool with
  | none =>
    rw [hp] at hlimits
    obtain rfl := Except.ok.inj hlimits
    decide
  | some p =>
    rw [hp] at hwritable hlimits
    simp only [Bool.and_eq_true] at hwritable
    obtain ⟨⟨-, hidle⟩, htolerance⟩ := hwritable
    obtain ⟨-, -, -, hbudget⟩ := given_of_ofSettings hlimits
    have hfirst := getD_lt_of_fits (d := 5) hidle (by decide)
    have hsecond := getD_lt_of_fits (d := 3) htolerance (by decide)
    rw [hbudget]
    unfold signedLimit at hfirst hsecond
    unfold wordLimit
    omega

end Config

/-- A rehearsal of an accepted configuration over the driver in memory is a run of its pool. -/
theorem Commands.simulate_ok {text : String} {config : Config} {pool : Pool}
    (hparse : Config.parse text = .ok config) (hdriver : config.source.driver = "memory")
    (hpool : Pool.ofConfig config 0 = .ok pool) (load : Workload) :
    Commands.simulate (.ok text) load = .ok (Simulation.run pool load).report := by
  have hload : load.simulate config = .ok (Simulation.run pool load).report := by
    simp only [Workload.simulate, hpool]
    rfl
  simp only [Commands.simulate, Config.ofFile, hparse, hdriver, hload, if_true]

end ConnPool
