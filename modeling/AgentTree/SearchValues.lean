import AgentTree.PolicyUpdates
import AgentTree.SearchSteps

/-!
What the constructors of a search accept, and the range of the values that its simulations
back up.  Numbers are exact here.
-/

namespace AgentTree.Engine

open Outcome Relational PolicyValueModel

variable {F H : Type} [Field F] [LinearOrder F] [IsStrictOrderedRing F] {runtime : Runtime F} {hashing : Hashing F H}

omit [IsStrictOrderedRing F] in
theorem Move.postInit_cost {move : Move F} (built : move.postInit runtime = .ok ()) : 0 ≤ move.cost := by
  simp only [Move.postInit, bind_eq_ok, ensure_eq_ok, Bool.and_eq_true, Bool.not_eq_true', decide_eq_false_iff_not,
    not_lt] at built
  obtain ⟨_, _, _, _, _, ⟨_, cost⟩, _⟩ := built
  exact cost

namespace BenchmarkSuite

variable {suite : BenchmarkSuite F H}

/-- The ranges that the constructor of a suite checks. -/
structure Ranged (suite : BenchmarkSuite F H) : Prop where
  costWeight : 0 ≤ suite.costWeight
  violationReward : -1 ≤ suite.violationReward ∧ suite.violationReward ≤ 0
  abstainReward : -1 ≤ suite.abstainReward ∧ suite.abstainReward ≤ 0

omit [IsStrictOrderedRing F] in
theorem postInit_ranged (built : suite.postInit runtime hashing = .ok ()) : suite.Ranged := by
  simp only [postInit, bind_eq_ok, ensure_eq_ok, Bool.and_eq_true, decide_eq_true_eq] at built
  obtain ⟨_, _, _, _, _, _, _, _, _, _, _, ⟨⟨_, cost⟩, _⟩, _, _, _, ⟨⟨_, violation⟩, none⟩, _,
    ⟨⟨_, abstain⟩, above⟩, _⟩ := built
  exact ⟨cost, ⟨violation, none⟩, abstain, above⟩

variable [DecidableEq H]

/-- The reward of a position whose cost is not negative. -/
theorem evaluate_reward {position : Position F} {card : ScoreCard F} (ranged : suite.Ranged)
    (cost : 0 ≤ position.spentCost) (evaluated : suite.evaluate runtime hashing position = .ok card) :
    -1 ≤ card.reward ∧ card.reward ≤ 1 := by
  have penalty : 0 ≤ suite.costWeight * position.spentCost := mul_nonneg ranged.costWeight cost
  have violation := ranged.violationReward
  have abstain := ranged.abstainReward
  unfold evaluate at evaluated
  split at evaluated
  next =>
    unfold evaluateAbstained at evaluated
    split at evaluated
    next =>
      obtain rfl := Except.ok.inj evaluated
      exact ⟨abstain.1, by linarith [abstain.2]⟩
    next =>
      obtain ⟨tally, _, same⟩ := bind_eq_ok.mp evaluated
      obtain rfl := pure_eq_ok.mp same
      simp only [pyMax_eq_max]
      exact ⟨le_max_left _ _, max_le (by linarith) (by linarith)⟩
  next =>
    obtain ⟨tally, _, same⟩ := bind_eq_ok.mp evaluated
    obtain rfl := pure_eq_ok.mp same
    simp only [pyMax_eq_max, pyMin_eq_min]
    split
    · exact ⟨le_max_left _ _, max_le (by linarith) (min_le_left _ _)⟩
    · exact ⟨violation.1, by linarith⟩

end BenchmarkSuite

/-- The learned share is at most a half. -/
theorem PolicyValueModel.blendValue_bounds (exact : runtime.Exact) {model : PolicyValueModel F} (valid : model.Valid)
    (position : Position F) {heuristic : F} (bounds : -1 ≤ heuristic ∧ heuristic ≤ 1) :
    -1 ≤ model.blendValue runtime position heuristic ∧ model.blendValue runtime position heuristic ≤ 1 := by
  have learned := exact.tanh
  obtain ⟨low, high⟩ : -1 ≤ model.learnedValue runtime position ∧ model.learnedValue runtime position ≤ 1 :=
    learned _
  have counted : (0 : F) ≤ (model.valueUpdates : F) := by exact_mod_cast valid.valueUpdates
  simp only [blendValue, pyMin_eq_min]
  have share : 0 ≤ min (0.50 : F) ((model.valueUpdates : F) / 120.0) :=
    le_min (by norm_num) (div_nonneg counted (by norm_num))
  have half : min (0.50 : F) ((model.valueUpdates : F) / 120.0) ≤ 1 :=
    (min_le_left _ _).trans (by norm_num)
  constructor
  · nlinarith
  · nlinarith

namespace PUCTSearch

variable [DecidableEq H] {search : PUCTSearch F H}

/-- What the constructors of the scenario and its moves, of the suite and its metrics, of the model and of the
search have checked. -/
structure Accepted (runtime : Runtime F) (hashing : Hashing F H) (search : PUCTSearch F H) : Prop where
  scenario : search.scenario.postInit hashing = .ok ()
  moves : ∀ phase ∈ search.scenario.phases, ∀ move ∈ phase, move.postInit runtime = .ok ()
  benchmark : search.benchmark.postInit runtime hashing = .ok ()
  metrics : ∀ metric ∈ search.benchmark.metrics, metric.postInit runtime = .ok ()
  search : ∃ model, init runtime hashing search.scenario search.benchmark model search.cPuct search.seed
    search.rootNoiseFraction = .ok search

theorem Accepted.valid (accepted : search.Accepted runtime hashing) (exact : runtime.Exact) : search.model.Valid := by
  obtain ⟨model, built⟩ := accepted.search
  simp only [init, bind_eq_ok, pure_eq_ok] at built
  obtain ⟨_, _, _, _, _, _, _, _, _, _, copied, copy, same⟩ := built
  obtain ⟨_, checked, unchanged⟩ := bind_eq_ok.mp copy
  obtain rfl := pure_eq_ok.mp unchanged
  rw [← same]
  exact (postInit_ok exact).mp checked

theorem Reached.cost (accepted : search.Accepted runtime hashing) {position : Position F}
    (reached : Reached runtime hashing search position) : 0 ≤ position.spentCost := by
  have scenario := Scenario.postInit_accepted accepted.scenario
  induction reached with
  | initial => exact le_refl _
  | step _ _ applied ih =>
      obtain ⟨legal, canonical, _, listed, member, _, _, _, rfl⟩ := Scenario.apply_cases scenario applied
      obtain ⟨_, phase, there, present, _⟩ := (Scenario.mem_legalMoves listed).mp member
      exact add_nonneg ih (Move.postInit_cost (accepted.moves phase (List.mem_of_getElem? there) canonical present))

/-- Every simulation backs up a value in [-1, 1], and the cache stays faithful. -/
theorem Simulated.bounds {before after : Scores F H} {value : F} {node next : SearchNode F} (exact : runtime.Exact)
    (accepted : search.Accepted runtime hashing) (faithful : Faithful runtime hashing search before)
    (simulated : Simulated runtime hashing search before value after node next)
    (reached : Reached runtime hashing search node.position)
    (children : node.Everywhere fun other => Reached runtime hashing search other.position) :
    Faithful runtime hashing search after ∧ -1 ≤ value ∧ value ≤ 1 := by
  have ranged := BenchmarkSuite.postInit_ranged accepted.benchmark
  have violation := ranged.violationReward
  induction simulated with
  | terminal _ scored same =>
      obtain ⟨kept, other, there, _, evaluated⟩ := score_ok faithful reached scored
      rw [same]
      exact ⟨kept, BenchmarkSuite.evaluate_reward ranged (there.cost accepted) evaluated⟩
  | expanded _ _ applied _ evaluated =>
      obtain ⟨kept, same | ⟨other, card, there, evaluated, same⟩⟩ :=
        evaluateLeaf_ok faithful (reached.step rfl applied) evaluated
      · exact ⟨kept, by linarith [violation.1], by linarith [violation.2]⟩
      · rw [same]
        exact ⟨kept, blendValue_bounds exact (accepted.valid exact) _
          (BenchmarkSuite.evaluate_reward ranged (there.cost accepted) evaluated)⟩
  | dead _ _ _ same cached => exact ⟨cached ▸ faithful, by linarith [violation.1], by linarith [violation.2]⟩
  | descended _ _ _ there _ ih =>
      have below := children.children _ (List.mem_of_getElem? there)
      exact ih below.here below

end PUCTSearch

end AgentTree.Engine
