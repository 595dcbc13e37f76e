import AgentTree.ModelPayloads
import AgentTree.PolicyUpdates
import AgentTree.Transitions

/-!
Runs of the operations that change or copy a model: it stays one that its constructor
accepts, its counters do not fall, and an agent that is benched stays benched.
-/

namespace AgentTree.Engine

open Outcome Relational PolicyValueModel

variable {F H : Type}

/-- An operation on a model. -/
inductive Step (F H : Type) : Type
  | learnPolicy (moves : List (Move F)) (targets : Dict String F) (rate : F)
  | learnValue (position : Position F) (reward rate : F)
  | observeBenchmark (move : Move F) (suite : BenchmarkSuite F H)
  | shadowBenchmarkAgents (scenario : Scenario F) (suite : BenchmarkSuite F H)
  | learnFromResult (scenario : Scenario F) (suite : BenchmarkSuite F H) (result : SearchResult F H)
  | frozenCopy
  /-- `model_from_payload(model_to_payload(model))`. -/
  | reload (family : String)

/-- The run goes on with a new model where there is one. -/
def replaced {σ : Type} (outcome : Except PyError σ) (model : σ) : Except PyError Unit × σ :=
  match outcome with
  | .ok after => (.ok (), after)
  | .error error => (.error error, model)

section Runs

variable [Zero F] [One F] [Add F] [Sub F] [Mul F] [Div F] [Neg F] [LT F] [LE F] [DecidableLT F] [DecidableLE F]
  [DecidableEq F] [OfScientific F] [NatCast F] [IntCast F] [DecidableEq H]
  (runtime : Runtime F) (hashing : Hashing F H) (coercions : Coercions F)

def Step.perform (model : PolicyValueModel F) : Step F H → Except PyError Unit × PolicyValueModel F
  | .learnPolicy moves targets rate => model.learnPolicy runtime moves targets rate
  | .learnValue position reward rate => model.learnValue runtime position reward rate
  | .observeBenchmark move suite => model.observeBenchmark runtime hashing move suite
  | .shadowBenchmarkAgents scenario suite => model.shadowBenchmarkAgents runtime hashing scenario suite
  | .learnFromResult scenario suite result => Engine.learnFromResult runtime hashing scenario suite model result
  | .frozenCopy => replaced (model.frozenCopy runtime) model
  | .reload family => replaced (model.toPayload runtime hashing family >>= fromPayload runtime hashing coercions) model

/-- The model after some operations, whether they return or raise. -/
def perform (steps : List (Step F H)) (model : PolicyValueModel F) : PolicyValueModel F :=
  steps.foldl (fun model step => (step.perform runtime hashing coercions model).2) model

/-- The model after some observations, whether they return or raise. -/
def observeAll (turns : List (Move F × BenchmarkSuite F H)) (model : PolicyValueModel F) : PolicyValueModel F :=
  turns.foldl (fun model turn => (model.observeBenchmark runtime hashing turn.1 turn.2).2) model

omit [One F] [Neg F] [NatCast F] in
/-- A shadow benchmark is a run of observations. -/
theorem observeMoves_turns [One F] (suite : BenchmarkSuite F H) (moves : List (Move F)) (model : PolicyValueModel F) :
    ∃ turns, (observeMoves runtime hashing suite moves model).2 = observeAll runtime hashing turns model := by
  induction moves generalizing model with
  | nil => exact ⟨[], rfl⟩
  | cons move rest ih =>
      unfold observeMoves
      split
      next => exact ih model
      next =>
        split
        next error after raised => exact ⟨[(move, suite)], by simp [observeAll, raised]⟩
        next after returned =>
          obtain ⟨turns, same⟩ := ih after
          exact ⟨(move, suite) :: turns, by simp [observeAll, returned, same]⟩

end Runs

section Exact

variable [Field F] [LinearOrder F] [IsStrictOrderedRing F] [DecidableEq H] {runtime : Runtime F}
  {hashing : Hashing F H} {coercions : Coercions F} {model after last : PolicyValueModel F}

/-- What every operation keeps of a model. -/
structure Keeps (before after : PolicyValueModel F) : Prop where
  valid : before.Valid → after.Valid
  generation : before.generation ≤ after.generation
  valueUpdates : before.valueUpdates ≤ after.valueUpdates
  benched : ∀ actor, before.isBenched actor = true → after.isBenched actor = true

omit [IsStrictOrderedRing F] in
theorem Keeps.refl (model : PolicyValueModel F) : Keeps model model :=
  ⟨id, le_refl _, le_refl _, fun _ => id⟩

omit [IsStrictOrderedRing F] in
theorem Keeps.trans (early : Keeps model after) (late : Keeps after last) : Keeps model last :=
  ⟨late.valid ∘ early.valid, early.generation.trans late.generation, early.valueUpdates.trans late.valueUpdates,
    fun actor => late.benched actor ∘ early.benched actor⟩

omit [LinearOrder F] [IsStrictOrderedRing F] in
theorem isBenched_of_records (same : ∀ actor, after.agentRecords.get? actor = model.agentRecords.get? actor)
    (actor : String) : after.isBenched actor = model.isBenched actor := by
  rw [isBenched, isBenched, same]

theorem PolicyValueModel.Trained.keeps {count : Nat} (trained : Trained model after count) : Keeps model after := by
  refine ⟨trained.valid, ?_, ?_, fun actor benched => ?_⟩
  · rw [trained.frame]
  · rw [trained.frame]
    show model.valueUpdates ≤ model.valueUpdates + count
    omega
  · rw [isBenched_of_records fun actor => by rw [trained.frame]]
    exact benched

omit [IsStrictOrderedRing F] in
theorem PolicyValueModel.Observed.keeps {actor : String} (observed : Observed runtime model after actor) : Keeps model after := by
  refine ⟨observed.valid, ?_, ?_, fun other benched => ?_⟩
  · obtain ⟨records, rfl⟩ := observed.frame
    exact le_refl _
  · obtain ⟨records, rfl⟩ := observed.frame
    exact le_refl _
  · by_cases same : other = actor
    · subst same
      rcases observed.benched with kept | ⟨now, _⟩
      · exact kept.trans benched
      · exact now
    · rw [isBenched, observed.others other same]
      exact benched

omit [LinearOrder F] [IsStrictOrderedRing F] [DecidableEq H] in
theorem isBenched_recordFor (model : PolicyValueModel F) (actor other : String) :
    (model.recordFor actor).isBenched other = model.isBenched other := by
  obtain ⟨records, recorded, own, others⟩ := recordFor_frame model actor
  rw [recorded, isBenched, isBenched]
  by_cases same : other = actor
  · rw [same, own]
    rfl
  · rw [others other same]

omit [DecidableEq H] in
theorem recordFor_keeps (model : PolicyValueModel F) (actor : String) : Keeps model (model.recordFor actor) := by
  obtain ⟨records, recorded, _⟩ := recordFor_frame model actor
  refine ⟨fun valid => valid.recordFor actor, ?_, ?_, fun other benched => ?_⟩
  · rw [recorded]
  · rw [recorded]
  · rwa [isBenched_recordFor]

variable (hashing) in
theorem observeBenchmark_keeps (exact : runtime.Exact) (valid : model.Valid) (move : Move F)
    (suite : BenchmarkSuite F H) : Keeps model (model.observeBenchmark runtime hashing move suite).2 := by
  rcases observeBenchmark_cases exact hashing valid move suite with ⟨error, raised⟩ | ⟨after, returned, observed⟩
  · rw [raised]
    exact recordFor_keeps model move.actor
  · rw [returned]
    exact observed.keeps

variable (hashing) in
theorem observeAll_keeps (exact : runtime.Exact) (valid : model.Valid) (turns : List (Move F × BenchmarkSuite F H)) :
    Keeps model (observeAll runtime hashing turns model) := by
  induction turns generalizing model with
  | nil => exact .refl model
  | cons turn rest ih =>
      have first := observeBenchmark_keeps hashing exact valid turn.1 turn.2
      exact first.trans (ih (first.valid valid))

/-! Copies. -/

omit [IsStrictOrderedRing F] [DecidableEq H] in
theorem frozenCopy_ok (built : model.postInit runtime = .ok ()) : model.frozenCopy runtime = .ok model := by
  simp [frozenCopy, built, bind, Except.bind, pure, Except.pure]

omit [DecidableEq H] in
theorem toPayload_ok (runtime : Runtime F) (hashing : Hashing F H) (valid : model.Valid) (family : String) :
    ∃ summary, model.toPayload runtime hashing family = .ok (model.payload hashing family summary) := by
  have agents : ∃ agents, (model.sortedRecords.mapM fun entry => do
      return (entry.1, ← agentSummary (H := H) runtime entry.2)) = .ok agents := by
    refine mapM_total fun entry member => ?_
    have positive := valid.agentRecords entry (by simpa [sortedRecords] using member)
    obtain ⟨upper, confident⟩ := positive.upperConfidence runtime
    simp [agentSummary, positive.mean, confident, bind, Except.bind, pure, Except.pure]
  obtain ⟨agents, summed⟩ := agents
  refine ⟨_, bind_eq_ok.mpr ⟨_, bind_eq_ok.mpr ⟨agents, summed, rfl⟩, rfl⟩⟩

omit [DecidableEq H] in
theorem reload_ok (exact : runtime.Exact) (hashing : Hashing F H) (coercions : Coercions F) (valid : model.Valid)
    (family : String) :
    (model.toPayload runtime hashing family >>= fromPayload runtime hashing coercions) = .ok model.inOrder := by
  obtain ⟨summary, written⟩ := toPayload_ok runtime hashing valid family
  exact bind_eq_ok.mpr ⟨_, written, fromPayload_payload coercions ((postInit_ok exact).mpr valid) family summary⟩

omit [DecidableEq H] in
theorem inOrder_keeps (exact : runtime.Exact) (model : PolicyValueModel F) : Keeps model model.inOrder := by
  refine ⟨fun valid => ?_, le_refl _, le_refl _, fun actor benched => ?_⟩
  · rw [← postInit_ok exact, postInit_inOrder, postInit_ok exact]
    exact valid
  · rw [isBenched_of_records (Dict.get?_congr fun _ => Dict.mem_sorted)]
    exact benched

/-! Runs. -/

variable (hashing coercions) in
theorem Step.keeps (exact : runtime.Exact) (valid : model.Valid) (step : Step F H) :
    Keeps model (step.perform runtime hashing coercions model).2 := by
  cases step with
  | learnPolicy moves targets rate => exact (learnPolicy_trained runtime model moves targets rate).keeps
  | learnValue position reward rate =>
      simp only [Step.perform]
      rcases learnValue_cases runtime model position reward rate with ⟨error, raised⟩ | updated
      · rw [raised]
        exact .refl model
      · rw [updated]
        exact (shiftValue_trained runtime model position reward rate).keeps
  | observeBenchmark move suite => exact observeBenchmark_keeps hashing exact valid move suite
  | shadowBenchmarkAgents scenario suite =>
      obtain ⟨turns, same⟩ := observeMoves_turns runtime hashing suite scenario.phases.flatten model
      have kept := observeAll_keeps hashing exact valid turns
      rwa [← same] at kept
  | learnFromResult scenario suite result =>
      simp only [Step.perform]
      rcases learnFromResult_cases runtime model hashing scenario suite result with ⟨error, raised⟩ | ⟨taught, count, _, trained, published⟩
      · rw [raised]
        exact .refl model
      · rw [published]
        have kept := trained.keeps
        have same : taught.generation = model.generation := by rw [trained.frame]
        have counted : 0 ≤ model.generation + 1 := by
          have before := valid.generation
          omega
        refine kept.trans ⟨fun valid => { valid with generation := counted }, ?_, le_refl _, fun _ => id⟩
        show taught.generation ≤ model.generation + 1
        omega
  | frozenCopy =>
      simp only [Step.perform, frozenCopy_ok ((postInit_ok exact).mpr valid), replaced]
      exact .refl model
  | reload family =>
      simp only [Step.perform, reload_ok exact hashing coercions valid family, replaced]
      exact inOrder_keeps exact model

variable (hashing coercions) in
theorem perform_keeps (exact : runtime.Exact) (valid : model.Valid) (steps : List (Step F H)) :
    Keeps model (perform runtime hashing coercions steps model) := by
  induction steps generalizing model with
  | nil => exact .refl model
  | cons step rest ih =>
      have first := Step.keeps hashing coercions exact valid step
      exact first.trans (ih (first.valid valid))

/-! When an agent is benched. -/

/-- An observation benches its actor: the record that it leaves has the samples, and an upper confidence below
the threshold. -/
structure BenchedBy (runtime : Runtime F) (hashing : Hashing F H) (before : PolicyValueModel F)
    (turn : Move F × BenchmarkSuite F H) (actor : String) : Prop where
  named : turn.1.actor = actor
  active : before.isBenched actor = false
  meets : before.Meets runtime ((before.observeBenchmark runtime hashing turn.1 turn.2).2.recordOf actor)

theorem observeBenchmark_benches (exact : runtime.Exact) (valid : model.Valid)
    (turn : Move F × BenchmarkSuite F H) {actor : String} (active : model.isBenched actor = false)
    (benched : (model.observeBenchmark runtime hashing turn.1 turn.2).2.isBenched actor = true) :
    BenchedBy runtime hashing model turn actor := by
  rcases observeBenchmark_cases exact hashing valid turn.1 turn.2 with ⟨error, raised⟩ | ⟨after, returned, observed⟩
  · rw [raised, isBenched_recordFor, active] at benched
    simp at benched
  · rw [returned] at benched
    have own : actor = turn.1.actor := by
      by_contra other
      rw [isBenched, observed.others actor other, ← isBenched, active] at benched
      simp at benched
    subst own
    rcases observed.benched with kept | ⟨_, meets⟩
    · have same : after.isBenched turn.1.actor = model.isBenched turn.1.actor := kept
      rw [same, active] at benched
      simp at benched
    · exact ⟨rfl, active, by rwa [returned]⟩

theorem observeAll_benches (exact : runtime.Exact) (valid : model.Valid) (turns : List (Move F × BenchmarkSuite F H))
    {actor : String} (active : model.isBenched actor = false)
    (benched : (observeAll runtime hashing turns model).isBenched actor = true) :
    ∃ earlier turn later, turns = earlier ++ turn :: later ∧
      BenchedBy runtime hashing (observeAll runtime hashing earlier model) turn actor := by
  induction turns generalizing model with
  | nil => simp [observeAll, active] at benched
  | cons turn rest ih =>
      by_cases now : (model.observeBenchmark runtime hashing turn.1 turn.2).2.isBenched actor = true
      · exact ⟨[], turn, rest, rfl, observeBenchmark_benches exact valid turn active now⟩
      · have kept := observeBenchmark_keeps hashing exact valid turn.1 turn.2
        obtain ⟨earlier, other, later, rfl, found⟩ := ih (kept.valid valid) (by simpa using now) benched
        exact ⟨turn :: earlier, other, later, rfl, found⟩

/-- Only observations bench. -/
theorem Step.benches (exact : runtime.Exact) (valid : model.Valid) (step : Step F H) {actor : String}
    (active : model.isBenched actor = false)
    (benched : (step.perform runtime hashing coercions model).2.isBenched actor = true) :
    ∃ earlier turn later,
      (step.perform runtime hashing coercions model).2 =
        observeAll runtime hashing (earlier ++ turn :: later) model ∧
      BenchedBy runtime hashing (observeAll runtime hashing earlier model) turn actor := by
  have unchanged : ∀ {after : PolicyValueModel F}, after.isBenched actor = true →
      (∀ other, after.agentRecords.get? other = model.agentRecords.get? other) → False := by
    intro after now same
    rw [isBenched_of_records same, active] at now
    simp at now
  cases step with
  | learnPolicy moves targets rate =>
      have trained := learnPolicy_trained runtime model moves targets rate
      exact (unchanged benched fun other => by rw [Step.perform, trained.frame]).elim
  | learnValue position reward rate =>
      refine (unchanged benched fun other => ?_).elim
      rcases learnValue_cases runtime model position reward rate with ⟨error, raised⟩ | updated
      · rw [Step.perform, raised]
      · rw [Step.perform, updated]
        rfl
  | observeBenchmark move suite =>
      exact ⟨[], (move, suite), [], rfl, observeBenchmark_benches exact valid (move, suite) active benched⟩
  | shadowBenchmarkAgents scenario suite =>
      obtain ⟨turns, same⟩ := observeMoves_turns runtime hashing suite scenario.phases.flatten model
      simp only [Step.perform, PolicyValueModel.shadowBenchmarkAgents] at benched ⊢
      rw [same] at benched
      obtain ⟨earlier, turn, later, rfl, found⟩ := observeAll_benches exact valid turns active benched
      exact ⟨earlier, turn, later, same, found⟩
  | learnFromResult scenario suite result =>
      refine (unchanged benched fun other => ?_).elim
      rcases learnFromResult_cases runtime model hashing scenario suite result with ⟨error, raised⟩ | ⟨taught, count, _, trained, published⟩
      · rw [Step.perform, raised]
      · rw [Step.perform, published]
        show taught.agentRecords.get? other = _
        rw [trained.frame]
  | frozenCopy =>
      refine (unchanged benched fun other => ?_).elim
      rw [Step.perform, frozenCopy_ok ((postInit_ok exact).mpr valid), replaced]
  | reload family =>
      refine (unchanged benched fun other => ?_).elim
      rw [Step.perform, reload_ok exact hashing coercions valid family, replaced]
      exact Dict.get?_congr (fun _ => Dict.mem_sorted) other

/-- What holds of a model after any run from another. -/
structure StaysValid (runtime : Runtime F) (hashing : Hashing F H) (coercions : Coercions F)
    (before after : PolicyValueModel F) : Prop where
  constructs : after.postInit runtime = .ok ()
  copies : after.frozenCopy runtime = .ok after
  loads : ∀ family,
    (after.toPayload runtime hashing family >>= fromPayload runtime hashing coercions) = .ok after.inOrder
  generation : before.generation ≤ after.generation
  valueUpdates : before.valueUpdates ≤ after.valueUpdates
  observes : ∀ (move : Move F) (suite : BenchmarkSuite F H) (observed : PolicyValueModel F),
    after.observeBenchmark runtime hashing move suite = (.ok (), observed) → Observed runtime after observed move.actor
  benches : ∀ (step : Step F H) (actor : String), after.isBenched actor = false →
    (step.perform runtime hashing coercions after).2.isBenched actor = true →
    ∃ earlier turn later,
      (step.perform runtime hashing coercions after).2 =
        observeAll runtime hashing (earlier ++ turn :: later) after ∧
      BenchedBy runtime hashing (observeAll runtime hashing earlier after) turn actor
  sticky : ∀ actor, before.isBenched actor = true → after.isBenched actor = true

theorem perform_staysValid (runtime : Runtime F) (hashing : Hashing F H) (coercions : Coercions F)
    (model : PolicyValueModel F) (steps : List (Step F H)) (exact : runtime.Exact)
    (built : model.postInit runtime = .ok ()) :
    StaysValid runtime hashing coercions model (perform runtime hashing coercions steps model) := by
  have valid := (postInit_ok exact).mp built
  have kept := perform_keeps hashing coercions exact valid steps
  have later := kept.valid valid
  have constructs := (postInit_ok exact).mpr later
  refine ⟨constructs, frozenCopy_ok constructs, reload_ok exact hashing coercions later, kept.generation,
    kept.valueUpdates, fun move suite observed returned => ?_, fun step actor => step.benches exact later, kept.benched⟩
  rcases observeBenchmark_cases exact hashing later move suite with ⟨error, raised⟩ | ⟨other, found, sound⟩
  · simp [raised] at returned
  · rw [found] at returned
    exact (Prod.mk.inj returned).2 ▸ sound

end Exact

/-! A run of the operations. -/

namespace Sample

theorem runtime_exact : runtime.Exact := ⟨fun _ => rfl, by simp [runtime]⟩

def coercions : Coercions ℚ where
  floatOfInt value := .ok value
  floatOfText _ := .error (.valueError "could not convert string to float")
  intOfFloat value := .ok value.num
  intOfText _ := .error (.valueError "invalid literal for int()")

def model : PolicyValueModel ℚ where
  policyWeights := Table.empty
  valueWeights := Table.empty
  valueBias := 0
  valueUpdates := 0
  generation := 0
  agentRecords := Dict.ofList [("agent", ⟨1, 8, false⟩)]
  policyLimit := 2.5
  valueLimit := 2.5
  benchMinSamples := 8
  benchUpperThreshold := 0.58

/-- Every move of a scenario has the same receipt. -/
def suite (scenario : Scenario ℚ) (value : ℚ) : BenchmarkSuite ℚ (List (Token ℚ)) where
  version := "1"
  scenarioManifestHash := scenario.manifestHash (spelled ℚ)
  metrics := [⟨"safety", 1, none⟩]
  receiptMetrics := Dict.ofList (scenario.phases.flatten.map fun move =>
    (move.contentHash (spelled ℚ), Dict.ofList [("safety", value)]))
  phaseImportance := [1, 1, 1, 1]
  costWeight := 0
  criticalSafetyMinimum := 0
  violationReward := -1
  abstainReward := 0
  trustedEvidencePrefixes := ["trace://"]

/-- A policy and a value are learned, an agent is benched, and the model is copied and written down. -/
def steps : List (Step ℚ (List (Token ℚ))) := [
  .learnPolicy [move "p" .propose none none] (Dict.ofList [("p", 1)]) policyRate,
  .learnValue (scenario none).initialPosition 1 valueRate,
  .observeBenchmark (move "p" .propose none none) (suite (scenario none) 0),
  .frozenCopy,
  .shadowBenchmarkAgents (scenario none) (suite (scenario none) 0),
  .reload "family"]

end Sample

open Sample in
theorem perform_staysValid_sample :
    StaysValid runtime (spelled ℚ) coercions model (perform runtime (spelled ℚ) coercions steps model) ∧
      (perform runtime (spelled ℚ) coercions steps model).isBenched "agent" = true :=
  ⟨perform_staysValid runtime (spelled ℚ) coercions model steps runtime_exact (by decide +kernel),
    by decide +kernel⟩

end AgentTree.Engine
