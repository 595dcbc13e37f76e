import AgentTree.GenuineResults
import AgentTree.SearchSeeds

/-!
Chains of accepted promotion reports.  The mean reward of a model is a number between -1 and 1 that only
the model decides, and an accepted report raises it by a fixed amount.  Numbers are exact here.
-/

set_option linter.unusedSectionVars false

namespace AgentTree.Engine

open Outcome Relational

section Exact

variable {F H : Type} [Field F] [LinearOrder F] [IsStrictOrderedRing F] [DecidableEq H]
  {runtime : Runtime F} {hashing : Hashing F H}

/-! Chains along which a quantity rises. -/

section Rising

variable {α : Type} {measure : α → F} {amount : F} {chain : Nat → α} {count : Nat}

theorem rises_between (rises : ∀ i < count, measure (chain i) + amount ≤ measure (chain (i + 1))) {i j : Nat}
    (order : i ≤ j) (within : j ≤ count) : measure (chain i) + ((j - i : Nat) : F) * amount ≤ measure (chain j) := by
  induction j, order using Nat.le_induction with
  | base => simp
  | succ j order ih =>
      have earlier := ih (by omega)
      have step := rises j (by omega)
      rw [Nat.succ_sub order, Nat.cast_succ, add_mul, one_mul]
      linarith

theorem rises_distinct (positive : 0 < amount)
    (rises : ∀ i < count, measure (chain i) + amount ≤ measure (chain (i + 1))) {i j : Nat}
    (order : i < j) (within : j ≤ count) : chain i ≠ chain j := by
  intro same
  have higher := rises_between rises order.le within
  rw [same] at higher
  have steps : 0 < ((j - i : Nat) : F) := by exact_mod_cast Nat.sub_pos_of_lt order
  have := mul_pos steps positive
  linarith

theorem rises_bounded {low high : F} (rises : ∀ i < count, measure (chain i) + amount ≤ measure (chain (i + 1)))
    (first : low ≤ measure (chain 0)) (last : measure (chain count) ≤ high) : (count : F) * amount ≤ high - low := by
  have whole := rises_between rises (Nat.zero_le count) le_rfl
  rw [Nat.sub_zero] at whole
  linarith

end Rising

/-! The reward of every result. -/

namespace PUCTSearch

variable {search : PUCTSearch F H} {before after : Scores F H}

theorem Faithful.reward (accepted : search.Accepted runtime hashing) (faithful : Faithful runtime hashing search before)
    {position : Position F} {card : ScoreCard F} (cost : 0 ≤ position.spentCost)
    (scored : search.score runtime hashing before position = .ok (card, after)) : -1 ≤ card.reward ∧ card.reward ≤ 1 := by
  have ranged := BenchmarkSuite.postInit_ranged accepted.benchmark
  unfold score at scored
  split at scored
  next cached found =>
    obtain ⟨rfl, rfl⟩ := by simpa using scored
    obtain ⟨other, there, _, evaluated⟩ := faithful _ _ found
    exact BenchmarkSuite.evaluate_reward ranged (there.cost accepted) evaluated
  next =>
    obtain ⟨fresh, evaluated, same⟩ := bind_eq_ok.mp scored
    obtain ⟨rfl, _⟩ := by simpa [pure, Except.pure] using same
    exact BenchmarkSuite.evaluate_reward ranged cost evaluated

theorem feasibleTerminals_rewards (accepted : search.Accepted runtime hashing) {paths : List (List (SearchNode F))}
    {found : List (Found F)} (faithful : Faithful runtime hashing search before)
    (reached : ∀ path ∈ paths, ∀ terminal, path.getLast? = some terminal →
      Reached runtime hashing search terminal.position)
    (listed : search.feasibleTerminals runtime hashing paths before = .ok (found, after)) :
    Faithful runtime hashing search after ∧ ∀ one ∈ found, -1 ≤ one.score.reward ∧ one.score.reward ≤ 1 := by
  induction paths generalizing before found with
  | nil =>
      obtain ⟨rfl, rfl⟩ := by simpa [feasibleTerminals] using listed
      exact ⟨faithful, by simp⟩
  | cons path rest ih =>
      have later := fun other there => reached other (List.mem_cons_of_mem path there)
      unfold feasibleTerminals at listed
      split at listed
      next => exact ih faithful later listed
      next terminal last =>
        obtain ⟨⟨card, middle⟩, scored, remaining⟩ := bind_eq_ok.mp listed
        obtain ⟨⟨others, final⟩, looped, same⟩ := bind_eq_ok.mp remaining
        obtain ⟨rfl, rfl⟩ := by simpa [pure, Except.pure] using same
        have there := reached path List.mem_cons_self terminal last
        have own := faithful.reward accepted (there.cost accepted) scored
        obtain ⟨kept, each⟩ := ih (score_ok faithful there scored).1 later looped
        refine ⟨kept, fun one member => ?_⟩
        split at member
        next =>
          rcases List.mem_cons.mp member with rfl | inside
          · exact own
          · exact each one inside
        next => exact each one member

/-- Whether a search commits, abstains or falls back, its reward is between -1 and 1. -/
theorem run_reward (exact : runtime.Exact) (accepted : search.Accepted runtime hashing) {count : Int}
    {result : SearchResult F H} (ran : search.run runtime hashing count = .ok result) :
    -1 ≤ result.score.reward ∧ result.score.reward ≤ 1 := by
  obtain ⟨_, scores, found, middle, choice, last, simulated, listed, chosen, reports⟩ := run_ok ran
  obtain ⟨faithful, linked⟩ := simulations_faithful exact accepted simulated
  obtain ⟨kept, each⟩ := feasibleTerminals_rewards accepted faithful (terminalPaths_reached linked) listed
  rw [reports.score]
  rcases choose_ok chosen with ⟨_, position, card, abstains, scored, rfl⟩ | ⟨best, greatest, rfl⟩
  · have free : 0 ≤ position.spentCost := by
      simp only [Scenario.safeAbstain, bind_eq_ok, pure_eq_ok] at abstains
      obtain ⟨_, _, _, _, rfl⟩ := abstains
      exact le_refl _
    exact kept.reward accepted free scored
  · exact each best (maximum_mem greatest)

/-- What the constructor makes it makes again from its fields. -/
theorem init_again {scenario : Scenario F} {suite : BenchmarkSuite F H} {model : PolicyValueModel F}
    {cPuct rootNoiseFraction : F} {seed : Int}
    (built : init runtime hashing scenario suite model cPuct seed rootNoiseFraction = .ok search) :
    init runtime hashing search.scenario search.benchmark model search.cPuct search.seed search.rootNoiseFraction =
      .ok search := by
  have fields : search.scenario = scenario ∧ search.benchmark = suite ∧ search.cPuct = cPuct ∧ search.seed = seed ∧
      search.rootNoiseFraction = rootNoiseFraction := by
    simp only [init, bind_eq_ok, pure_eq_ok] at built
    obtain ⟨_, _, _, _, _, _, _, _, _, _, _, _, rfl⟩ := built
    exact ⟨rfl, rfl, rfl, rfl, rfl⟩
  obtain ⟨rfl, rfl, rfl, rfl, rfl⟩ := fields
  exact built

end PUCTSearch

namespace OfflineLearner

/-- What the constructors of the scenario and its moves, and of the suite and its metrics, have checked. -/
structure Accepted (runtime : Runtime F) (hashing : Hashing F H) (learner : OfflineLearner F H) : Prop where
  scenario : learner.scenario.postInit hashing = .ok ()
  moves : ∀ phase ∈ learner.scenario.phases, ∀ move ∈ phase, move.postInit runtime = .ok ()
  benchmark : learner.benchmark.postInit runtime hashing = .ok ()
  metrics : ∀ metric ∈ learner.benchmark.metrics, metric.postInit runtime = .ok ()

variable {reporting : Reporting F} {learner : OfflineLearner F H} {model : PolicyValueModel F}

theorem evaluations_rewards (exact : runtime.Exact) (accepted : learner.Accepted runtime hashing)
    {results : List (SearchResult F H)} (ran : learner.evaluations hashing runtime model = .ok results) :
    ∀ result ∈ results, -1 ≤ result.score.reward ∧ result.score.reward ≤ 1 := by
  obtain ⟨groups, looped, same⟩ := bind_eq_ok.mp ran
  obtain rfl := pure_eq_ok.mp same
  intro result member
  obtain ⟨group, listed, inside⟩ := List.mem_flatten.mp member
  obtain ⟨budget, _, acted⟩ := mapM_mem looped listed
  obtain ⟨_, _, searched⟩ := bind_eq_ok.mp acted
  obtain ⟨seed, _, one⟩ := mapM_mem searched inside
  obtain ⟨search, built, found⟩ := bind_eq_ok.mp one
  obtain ⟨scenario, benchmark, _⟩ := PUCTSearch.init_ok built
  refine PUCTSearch.run_reward exact ⟨?_, ?_, ?_, ?_, model, PUCTSearch.init_again built⟩ found
  · exact scenario ▸ accepted.scenario
  · exact scenario ▸ accepted.moves
  · exact benchmark ▸ accepted.benchmark
  · exact benchmark ▸ accepted.metrics

/-- `statistics.mean` of exact numbers. -/
def Averages (reporting : Reporting F) : Prop :=
  ∀ values : List F, values ≠ [] → reporting.mean values = values.sum / values.length

theorem mean_bounds (averages : Averages reporting) {values : List F} (some : values ≠ [])
    (each : ∀ value ∈ values, -1 ≤ value ∧ value ≤ 1) :
    -1 ≤ reporting.mean values ∧ reporting.mean values ≤ 1 := by
  have positive : (0 : F) < values.length := by exact_mod_cast List.length_pos_of_ne_nil some
  have low := List.card_nsmul_le_sum values (-1) fun value member => (each value member).1
  have high := List.sum_le_card_nsmul values 1 fun value member => (each value member).2
  rw [nsmul_eq_mul] at low high
  rw [averages values some, le_div_iff₀ positive, div_le_iff₀ positive]
  constructor <;> linarith

theorem evaluate_meanReward (exact : runtime.Exact) (averages : Averages reporting)
    (accepted : learner.Accepted runtime hashing) {summary : EvaluationSummary F}
    (evaluated : learner.evaluate hashing reporting runtime model = .ok summary) :
    -1 ≤ summary.meanReward ∧ summary.meanReward ≤ 1 := by
  obtain ⟨results, ran, described⟩ := bind_eq_ok.mp evaluated
  have each := evaluations_rewards exact accepted ran
  split at described
  next => simp at described
  next first rest rewards =>
    obtain rfl := pure_eq_ok.mp described
    refine mean_bounds averages (by simp) fun value member => ?_
    rw [← rewards] at member
    obtain ⟨result, inside, rfl⟩ := List.mem_map.mp member
    exact each result inside

/-- The policy that `promotion_report` takes by default. -/
def defaultPolicy : PromotionPolicy F where
  minimumMeanRewardDelta := 0.02
  maximumEvaluationRatio := 1.25
  requireNoNewHardFailures := true
  requireNoMoreAbstentions := true

/-- The report on a challenger is made, and accepts it. -/
def Promotes (numerals : Numerals runtime) (hashing : Hashing F H) (reporting : Reporting F)
    (learner : OfflineLearner F H) (champion challenger : PolicyValueModel F) : Prop :=
  ∃ report, learner.promotionReport numerals hashing reporting champion challenger defaultPolicy = .ok report ∧
    report.accepted = true

/-- The mean reward that `evaluate` gives a model. -/
def meanReward (runtime : Runtime F) (hashing : Hashing F H) (reporting : Reporting F) (learner : OfflineLearner F H)
    (model : PolicyValueModel F) : F :=
  match learner.evaluate hashing reporting runtime model with
  | .ok summary => summary.meanReward
  | .error _ => 0

variable {numerals : Numerals runtime} {champion challenger : PolicyValueModel F}

theorem meanReward_ok {summary : EvaluationSummary F}
    (evaluated : learner.evaluate hashing reporting runtime model = .ok summary) :
    meanReward runtime hashing reporting learner model = summary.meanReward := by
  simp [meanReward, evaluated]

/-- An accepted report raises the mean reward by what its policy asks for. -/
theorem Promotes.rises (promotes : Promotes numerals hashing reporting learner champion challenger) :
    ∃ before after, learner.evaluate hashing reporting runtime champion = .ok before ∧
      learner.evaluate hashing reporting runtime challenger = .ok after ∧
      before.meanReward + 0.02 ≤ after.meanReward := by
  obtain ⟨report, reported, accepted⟩ := promotes
  simp only [promotionReport, bind_eq_ok, pure_eq_ok] at reported
  obtain ⟨before, first, after, second, _, _, rfl⟩ := reported
  refine ⟨before, after, first, second, ?_⟩
  simp only [List.isEmpty_iff, objections, List.append_eq_nil_iff] at accepted
  have enough : ¬(after.meanReward - before.meanReward < (defaultPolicy : PromotionPolicy F).minimumMeanRewardDelta) := by
    intro little
    simp [little] at accepted
  have least : (0.02 : F) ≤ after.meanReward - before.meanReward := not_lt.mp enough
  linarith

/-- Along a chain of accepted reports the mean reward rises by a fiftieth at every step, no model comes twice,
and the chain has at most a hundred steps; no two models are each accepted over the other. -/
theorem promotions_acyclic (numerals : Numerals runtime) (hashing : Hashing F H) (reporting : Reporting F)
    (learner : OfflineLearner F H) (exact : runtime.Exact) (averages : Averages reporting)
    (accepted : learner.Accepted runtime hashing) :
    (∀ (models : Nat → PolicyValueModel F) (count : Nat),
      (∀ i < count, Promotes numerals hashing reporting learner (models i) (models (i + 1))) →
      (∀ i < count, ∃ before after, learner.evaluate hashing reporting runtime (models i) = .ok before ∧
        learner.evaluate hashing reporting runtime (models (i + 1)) = .ok after ∧
        before.meanReward + 0.02 ≤ after.meanReward) ∧
      (∀ i j, i < j → j ≤ count → models i ≠ models j) ∧ count ≤ 100) ∧
    ∀ first second, Promotes numerals hashing reporting learner first second →
      ¬ Promotes numerals hashing reporting learner second first := by
  have steps : ∀ {first second}, Promotes numerals hashing reporting learner first second →
      meanReward runtime hashing reporting learner first + 0.02 ≤
        meanReward runtime hashing reporting learner second := by
    intro first second promotes
    obtain ⟨before, after, evaluated, again, rises⟩ := promotes.rises
    rwa [meanReward_ok evaluated, meanReward_ok again]
  have bounds : ∀ model, -1 ≤ meanReward runtime hashing reporting learner model ∧
      meanReward runtime hashing reporting learner model ≤ 1 := by
    intro model
    unfold meanReward
    split
    next summary evaluated => exact evaluate_meanReward exact averages accepted evaluated
    next => norm_num
  have positive : (0 : F) < 0.02 := by norm_num
  constructor
  · intro models count chain
    have rises := fun i (bound : i < count) => steps (chain i bound)
    refine ⟨fun i bound => (chain i bound).rises, fun i j => rises_distinct positive rises, ?_⟩
    have total := rises_bounded rises (bounds _).1 (bounds _).2
    have hundred : (count : F) ≤ 100 := by linarith
    exact_mod_cast hundred
  · intro first second forward back
    have := steps forward
    have := steps back
    linarith

end OfflineLearner

end Exact

namespace AcceptedSample

open Binary64 Sample

def digests : Hashing ℚ (List (Token ℚ)) := { spelled ℚ with text := fun _ => String.ofList (List.replicate 64 '0') }

noncomputable def numerals : Numerals runtime where
  floats := ArtifactSample.numerals.floats
  write value := ArtifactSample.numerals.write (.number value)
  read text := match ArtifactSample.numerals.read text with
    | .number value => value
    | _ => 0
  finite value _ := ArtifactSample.numerals.finite (.number value) rfl
  special value special := absurd special (by simp [runtime])
  back value _ := by rw [ArtifactSample.numerals.back (.number value) rfl]

def reporting : Reporting ℚ where
  mean values := values.sum / values.length
  fixed6 _ := ""
  sha256 _ := ""

def learner : OfflineLearner ℚ (List (Token ℚ)) where
  family := "family"
  scenario := scenario none
  benchmark := suite (scenario none) 1

/-- The only agent is benched, so that every search abstains. -/
def champion : PolicyValueModel ℚ := { model with agentRecords := Dict.ofList [("agent", ⟨1, 8, true⟩)] }

theorem learner_accepted : learner.Accepted runtime digests where
  scenario := by decide +kernel
  moves := by decide +kernel
  benchmark := by decide +kernel
  metrics := by decide +kernel

/-- What an acceptance looks at. -/
def figures (summary : EvaluationSummary ℚ) : ℚ × Nat × Nat × ℚ :=
  (summary.meanReward, summary.hardGateFailures, summary.abstentions, summary.meanBenchmarkEvaluations)

/-- What an evaluation looks at in a search. -/
def glance (result : SearchResult ℚ (List (Token ℚ))) : ℚ × Bool × Bool × Nat :=
  (result.score.reward, result.score.feasible, result.abstained, result.benchmarkEvaluations)

theorem returned_of_glance {outcome : Except PyError (SearchResult ℚ (List (Token ℚ)))} {seen : ℚ × Bool × Bool × Nat}
    (found : outcome.toOption.map glance = some seen) : ∃ result, outcome = .ok result ∧ glance result = seen := by
  cases outcome with
  | ok result => exact ⟨result, rfl, Option.some.inj found⟩
  | error error => simp [Except.toOption] at found

/-- One search for each budget tells what the evaluation comes to. -/
theorem evaluated_of_trials {model : PolicyValueModel ℚ} {seen : ℚ × Bool × Bool × Nat}
    (small : (learner.trial digests runtime model 16 7).toOption.map glance = some seen)
    (middle : (learner.trial digests runtime model 32 7).toOption.map glance = some seen)
    (large : (learner.trial digests runtime model 64 7).toOption.map glance = some seen) :
    ∃ summary, learner.evaluate digests reporting runtime model = .ok summary ∧ figures summary =
      (seen.1, if seen.2.1 then 0 else 12, if seen.2.2.1 then 12 else 0, (seen.2.2.2 : ℚ)) := by
  obtain ⟨first, ranFirst, sawFirst⟩ := returned_of_glance small
  obtain ⟨second, ranSecond, sawSecond⟩ := returned_of_glance middle
  obtain ⟨third, ranThird, sawThird⟩ := returned_of_glance large
  obtain ⟨reward, feasible, abstained, evaluations⟩ := seen
  simp only [glance, Prod.mk.injEq] at sawFirst sawSecond sawThird
  have searched : learner.evaluations digests runtime model = .ok ([first, second, third].flatMap (List.replicate 4)) := by
    rw [learner.evaluations_repeat (by norm_num)]
    simp [OfflineLearner.simulationBudgets, OfflineLearner.seeds, ranFirst, ranSecond, ranThird, bind, Except.bind,
      pure, Except.pure, Except.map]
  refine ⟨_, bind_eq_ok.mpr ⟨_, searched, rfl⟩, ?_⟩
  cases feasible <;> cases abstained <;>
    simp [figures, reporting, List.replicate, sawFirst, sawSecond, sawThird]
  all_goals constructor <;> ring

theorem champion_evaluated : ∃ summary, learner.evaluate digests reporting runtime champion = .ok summary ∧
    figures summary = (0, 0, 12, 1) :=
  @evaluated_of_trials champion (0, true, true, 1) (by decide +kernel) (by decide +kernel) (by decide +kernel)

theorem challenger_evaluated : ∃ summary, learner.evaluate digests reporting runtime model = .ok summary ∧
    figures summary = (1, 0, 0, 1) :=
  @evaluated_of_trials model (1, true, false, 1) (by decide +kernel) (by decide +kernel) (by decide +kernel)

theorem challenger_accepted : OfflineLearner.Promotes numerals digests reporting learner champion model := by
  obtain ⟨before, first, one⟩ := champion_evaluated
  obtain ⟨after, second, another⟩ := challenger_evaluated
  simp only [figures, Prod.mk.injEq] at one another
  have valid : model.Valid := (PolicyValueModel.postInit_ok runtime_exact).mp (by decide +kernel)
  obtain ⟨_, described⟩ := toPayload_ok runtime digests valid learner.family
  refine ⟨_, bind_eq_ok.mpr ⟨before, first, bind_eq_ok.mpr ⟨after, second, bind_eq_ok.mpr ⟨_, bind_eq_ok.mpr
    ⟨_, described, rfl⟩, rfl⟩⟩⟩, ?_⟩
  simp [OfflineLearner.objections, OfflineLearner.defaultPolicy, one, another, pyMax]
  norm_num

end AcceptedSample

open Sample AcceptedSample in
theorem OfflineLearner.promotions_acyclic_sample :
    Promotes numerals digests reporting learner champion model ∧
      ¬ Promotes numerals digests reporting learner model champion := by
  obtain ⟨-, oneWay⟩ := promotions_acyclic numerals digests reporting learner runtime_exact (fun _ _ => rfl)
    learner_accepted
  exact ⟨challenger_accepted, oneWay champion model challenger_accepted⟩

end AgentTree.Engine
