import AgentTree.PromotionReports

/-!
A search without root noise draws nothing: its seed does not matter.  The evaluation of a promotion searches without
noise, so its seeds only repeat one search for each budget.
-/

set_option linter.unusedSectionVars false

namespace AgentTree.Engine

open Outcome

variable {F H : Type} [Zero F] [One F] [Add F] [Sub F] [Mul F] [Div F] [Neg F] [LT F] [LE F] [DecidableLT F]
  [DecidableLE F] [DecidableEq F] [OfScientific F] [NatCast F] [IntCast F] [DecidableEq H]
  {runtime : Runtime F} {hashing : Hashing F H}

namespace PUCTSearch

variable (search : PUCTSearch F H) (seed : Int)

/-- The same search with another seed. -/
def reseeded : PUCTSearch F H := { search with seed }

theorem greedyCompletion_reseeded (plies : Nat) (position : Position F) :
    (search.reseeded seed).greedyCompletion runtime hashing plies position =
      search.greedyCompletion runtime hashing plies position := by
  induction plies generalizing position with
  | zero => rfl
  | succ plies ih =>
      simp only [greedyCompletion, ih]
      rfl

theorem turn_reseeded (node : SearchNode F) (scores : Scores F H) :
    (search.reseeded seed).turn runtime hashing node scores = search.turn runtime hashing node scores := by
  have leaf : (search.reseeded seed).evaluateLeaf runtime hashing = search.evaluateLeaf runtime hashing := by
    funext scores position
    simp only [evaluateLeaf, greedyCompletion_reseeded]
    rfl
  have proceeds : (search.reseeded seed).proceed runtime hashing = search.proceed runtime hashing := by
    funext node unexpanded scores
    simp only [proceed, expand, leaf]
    rfl
  simp only [turn, proceeds]
  rfl

mutual

theorem simulate_reseeded : ∀ (node : SearchNode F) (scores : Scores F H),
    (search.reseeded seed).simulate runtime hashing node scores = search.simulate runtime hashing node scores
  | ⟨position, move, prior, visits, valueSum, children, unexpanded, candidatePriors⟩, scores => by
      simp only [simulate, turn_reseeded, simulateAt_reseeded children]

theorem simulateAt_reseeded : ∀ (children : List (SearchNode F)) (index : Nat) (scores : Scores F H),
    (search.reseeded seed).simulateAt runtime hashing children index scores =
      search.simulateAt runtime hashing children index scores
  | [], _, _ => rfl
  | child :: rest, 0, scores => by simp only [simulateAt, simulate_reseeded child]
  | child :: rest, index + 1, scores => by simp only [simulateAt, simulateAt_reseeded rest]

end

variable {search}

theorem makeRoot_reseeded (quiet : ¬0 < search.rootNoiseFraction) :
    (search.reseeded seed).makeRoot runtime = search.makeRoot runtime := by
  have priors : ∀ legal priors, (search.reseeded seed).startPriors runtime true legal priors =
      search.startPriors runtime true legal priors := by
    intro legal priors
    have still : ¬0 < (search.reseeded seed).rootNoiseFraction := quiet
    simp only [startPriors, quiet, still, decide_false, Bool.and_false]
    rfl
  simp only [makeRoot, initialise, priors]
  rfl

theorem simulations_reseeded (quiet : ¬0 < search.rootNoiseFraction) (count : Nat) :
    (search.reseeded seed).simulations runtime hashing count = search.simulations runtime hashing count := by
  induction count with
  | zero => simp only [simulations, makeRoot_reseeded seed quiet]
  | succ count ih => simp only [simulations, ih, simulate_reseeded]

theorem conclude_reseeded (simulations : Nat) (root : SearchNode F) (scores : Scores F H) :
    (search.reseeded seed).conclude runtime hashing simulations root scores =
      search.conclude runtime hashing simulations root scores := by
  have feasible : ∀ paths scores, (search.reseeded seed).feasibleTerminals runtime hashing paths scores =
      search.feasibleTerminals runtime hashing paths scores := by
    intro paths
    induction paths with
    | nil => intro scores; rfl
    | cons path rest ih =>
        intro scores
        simp only [feasibleTerminals, ih]
        rfl
  simp only [conclude, feasible]
  rfl

/-- Without root noise the seed does not matter. -/
theorem run_reseeded (quiet : ¬0 < search.rootNoiseFraction) (simulations : Int) :
    (search.reseeded seed).run runtime hashing simulations = search.run runtime hashing simulations := by
  simp only [run, simulations_reseeded seed quiet, conclude_reseeded]

theorem init_reseeded (scenario : Scenario F) (benchmark : BenchmarkSuite F H) (model : PolicyValueModel F)
    (cPuct rootNoiseFraction : F) (other : Int) :
    init runtime hashing scenario benchmark model cPuct seed rootNoiseFraction =
      (init runtime hashing scenario benchmark model cPuct other rootNoiseFraction).map fun search =>
        search.reseeded seed := by
  have pushed : ∀ {α β γ : Type} (outcome : Except PyError α) (rest : α → Except PyError β) (f : β → γ),
      (outcome >>= rest).map f = outcome >>= fun value => (rest value).map f := by
    intro α β γ outcome rest f
    cases outcome <;> rfl
  simp only [init, pushed]
  rfl

end PUCTSearch

namespace OfflineLearner

variable (learner : OfflineLearner F H) {reporting : Reporting F} {model : PolicyValueModel F}

/-- One search of an evaluation. -/
def trial (hashing : Hashing F H) (runtime : Runtime F) (model : PolicyValueModel F) (budget seed : Int) :
    Except PyError (SearchResult F H) := do
  let search ← PUCTSearch.init runtime hashing learner.scenario learner.benchmark model 1.5 seed 0.0
  search.run runtime hashing budget

theorem trial_seed (quiet : ¬(0 : F) < 0.0) (budget seed other : Int) :
    learner.trial hashing runtime model budget seed = learner.trial hashing runtime model budget other := by
  unfold trial
  rw [PUCTSearch.init_reseeded seed _ _ _ _ _ other]
  cases built : PUCTSearch.init runtime hashing learner.scenario learner.benchmark model 1.5 other 0.0 with
  | error error => rfl
  | ok search =>
      have fraction : search.rootNoiseFraction = 0.0 := by
        simp only [PUCTSearch.init, bind_eq_ok, pure_eq_ok] at built
        obtain ⟨_, _, _, _, _, _, _, _, _, _, _, _, rfl⟩ := built
        rfl
      exact PUCTSearch.run_reseeded seed (fraction ▸ quiet) budget

theorem mapM_same {α ε : Type} {items : List α} {β : Type} (outcome : Except ε β) (nonempty : items ≠ []) :
    items.mapM (fun _ => outcome) = outcome.map (List.replicate items.length) := by
  cases outcome with
  | error error =>
      cases items with
      | nil => exact absurd rfl nonempty
      | cons item rest => rfl
  | ok value =>
      induction items with
      | nil => exact absurd rfl nonempty
      | cons item rest ih =>
          rw [List.mapM_cons]
          by_cases last : rest = []
          · subst last
            rfl
          · rw [ih last]
            rfl

/-- The seeds of an evaluation repeat one search for each budget. -/
theorem evaluations_repeat (quiet : ¬(0 : F) < 0.0) :
    learner.evaluations hashing runtime model =
      (simulationBudgets.mapM fun budget => learner.trial hashing runtime model budget 7).map fun once =>
        once.flatMap (List.replicate seeds.length) := by
  have batch : ∀ budget : Int, 1 ≤ budget → budget ≤ 100000 → (do
      ensure (1 ≤ budget && budget ≤ 100000) (PyError.valueError "evaluation simulation budget outside safe bounds")
      seeds.mapM fun seed => learner.trial hashing runtime model budget seed) =
      (learner.trial hashing runtime model budget 7).map (List.replicate seeds.length) := by
    intro budget least most
    have passed : ensure (1 ≤ budget && budget ≤ 100000)
        (PyError.valueError "evaluation simulation budget outside safe bounds") = .ok () :=
      ensure_eq_ok.mpr (by simp [least, most])
    rw [passed, ← mapM_same _ (by decide : seeds ≠ [])]
    simp only [learner.trial_seed quiet budget _ 7]
    rfl
  have small := batch 16 (by decide) (by decide)
  have middle := batch 32 (by decide) (by decide)
  have large := batch 64 (by decide) (by decide)
  simp only [trial] at small middle large
  simp only [evaluations, simulationBudgets, List.mapM_cons, List.mapM_nil, small, middle, large, trial]
  generalize (PUCTSearch.init runtime hashing learner.scenario learner.benchmark model 1.5 7 0.0 >>= fun search =>
    search.run runtime hashing 16) = first
  generalize (PUCTSearch.init runtime hashing learner.scenario learner.benchmark model 1.5 7 0.0 >>= fun search =>
    search.run runtime hashing 32) = second
  generalize (PUCTSearch.init runtime hashing learner.scenario learner.benchmark model 1.5 7 0.0 >>= fun search =>
    search.run runtime hashing 64) = third
  cases first <;> cases second <;> cases third <;>
    simp [bind, Except.bind, pure, Except.pure, Except.map, List.flatMap_cons]

/-- An evaluation learns nothing from its seeds: each budget is searched once, and its result stands for every seed. -/
theorem seeds_idle (quiet : ¬(0 : F) < 0.0) :
    (∀ budget seed other, learner.trial hashing runtime model budget seed =
      learner.trial hashing runtime model budget other) ∧
    ∀ results, learner.evaluations hashing runtime model = .ok results →
      ∃ once, simulationBudgets.mapM (fun budget => learner.trial hashing runtime model budget 7) = .ok once ∧
        results = once.flatMap (List.replicate seeds.length) := by
  refine ⟨learner.trial_seed quiet, fun results evaluated => ?_⟩
  rw [learner.evaluations_repeat quiet] at evaluated
  cases searched : simulationBudgets.mapM fun budget => learner.trial hashing runtime model budget 7 with
  | error error =>
      rw [searched] at evaluated
      exact absurd evaluated (by simp [Except.map])
  | ok once =>
      rw [searched] at evaluated
      exact ⟨once, rfl, (Except.ok.inj evaluated).symm⟩

end OfflineLearner

open PromotionSample in
theorem OfflineLearner.seeds_idle_sample :
    learner.trial DoubleSample.digests DoubleSample.runtime champion 16 7 =
      learner.trial DoubleSample.digests DoubleSample.runtime champion 16 43 :=
  (learner.seeds_idle (by decide +kernel)).1 16 7 43

end AgentTree.Engine
