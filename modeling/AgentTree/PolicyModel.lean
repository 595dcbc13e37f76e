import AgentTree.Benchmarks

/-!
The policy and value model of `engine.py`: what it predicts, how it learns, and when it
benches an agent.  A call that changes the model gives its outcome and the model it leaves,
whether it returns or raises.
-/

namespace AgentTree.Engine

open Outcome Relational

variable {F H : Type}

structure AgentRecord (F : Type) where
  alpha : F
  beta : F
  benched : Bool
  deriving DecidableEq

structure PolicyValueModel (F : Type) where
  policyWeights : Dict String F
  valueWeights : Dict String F
  valueBias : F
  valueUpdates : Int
  generation : Int
  agentRecords : Dict String (AgentRecord F)
  policyLimit : F
  valueLimit : F
  benchMinSamples : Int
  benchUpperThreshold : F

/-- `max(items, key=...)`. -/
def maximum {α : Type} (less : α → α → Bool) : List α → Except PyError α
  | [] => .error (.valueError "max() iterable argument is empty")
  | first :: rest => .ok (maxBy less first rest)

namespace AgentRecord

/-- `AgentRecord()`. -/
def fresh [One F] : AgentRecord F := ⟨1, 1, false⟩

variable [Zero F] [One F] [Add F] [Sub F] [Mul F] [Div F] [LT F] [DecidableLT F] [DecidableEq F]
  [OfScientific F]

def samples (record : AgentRecord F) : F := record.alpha + record.beta - 2.0

def mean (record : AgentRecord F) : Except PyError F := pyDiv record.alpha (record.alpha + record.beta)

def standardDeviation (runtime : Runtime F) (record : AgentRecord F) : Except PyError F := do
  let total := record.alpha + record.beta
  let variance ← pyDiv (record.alpha * record.beta) (total * total * (total + 1))
  ensure (!variance < 0) (.valueError "math domain error")
  return runtime.sqrt variance

def upperConfidence (runtime : Runtime F) (record : AgentRecord F) : Except PyError F := do
  let mean ← record.mean
  let deviation ← record.standardDeviation runtime
  return pyMin 1 (mean + 1.64 * deviation)

def observe (runtime : Runtime F) (record : AgentRecord F) (quality : F) : Except PyError (AgentRecord F) := do
  ensure (runtime.isFinite quality) (.valueError "agent quality observation must be finite")
  let bounded := pyMax 0 (pyMin 1 quality)
  return { record with alpha := record.alpha + bounded, beta := record.beta + (1 - bounded) }

end AgentRecord

namespace PolicyValueModel

section Construction

variable [Zero F] [One F] [Neg F] [LT F] [LE F] [DecidableLT F] [DecidableLE F]

/-- A weight within its limit. -/
def within (runtime : Runtime F) (limit value : F) : Bool := runtime.isFinite value && !limit < pyAbs value

/-- The checks of `__post_init__`. -/
def postInit (runtime : Runtime F) (model : PolicyValueModel F) : Except PyError Unit := do
  ensure (runtime.isFinite model.policyLimit && !model.policyLimit ≤ 0 &&
      (runtime.isFinite model.valueLimit && !model.valueLimit ≤ 0))
    (.valueError "model coordinate limits must be finite and positive")
  ensure (0 < model.benchMinSamples) (.valueError "bench_min_samples must be a positive integer")
  ensure (runtime.isFinite model.benchUpperThreshold && 0 ≤ model.benchUpperThreshold &&
      model.benchUpperThreshold ≤ 1) (.valueError "bench threshold must be finite and in [0, 1]")
  ensure (0 ≤ model.generation) (.valueError "model generation must be a nonnegative integer")
  ensure (0 ≤ model.valueUpdates) (.valueError "value update count must be a nonnegative integer")
  ensure (within runtime model.valueLimit model.valueBias)
    (.valueError "value bias must be finite and within its configured limit")
  model.policyWeights.rows.forM fun (name, value) =>
    ensure (within runtime model.policyLimit value) (.valueError ("policy weight " ++ name ++ " is invalid"))
  model.valueWeights.rows.forM fun (name, value) =>
    ensure (within runtime model.valueLimit value) (.valueError ("value weight " ++ name ++ " is invalid"))
  model.agentRecords.rows.forM fun (actor, record) =>
    ensure (runtime.isFinite record.alpha && runtime.isFinite record.beta && !record.alpha ≤ 0 && !record.beta ≤ 0)
      (.valueError ("agent record " ++ actor ++ " has invalid posterior counts"))

/-- The constructor is given copies of every field. -/
def frozenCopy (runtime : Runtime F) (model : PolicyValueModel F) : Except PyError (PolicyValueModel F) := do
  model.postInit runtime
  return model

end Construction

def modelVersion (hashing : Hashing F H) (model : PolicyValueModel F) : String :=
  let records := model.agentRecords.rows.insertionSort fun a b => a.1 ≤ b.1
  "overlay-g" ++ toString model.generation ++ "-" ++ hashing.short (hashing.digest (.obj [
    ("agents", .obj (records.map fun (actor, record) => (actor, .obj [
      ("alpha", .num record.alpha),
      ("benched", .bool record.benched),
      ("beta", .num record.beta)]))),
    ("generation", .int model.generation),
    ("limits", .obj [
      ("bench_n", .int model.benchMinSamples),
      ("bench_threshold", .num model.benchUpperThreshold),
      ("policy", .num model.policyLimit),
      ("value", .num model.valueLimit)]),
    ("policy", .sorted model.policyWeights),
    ("value", .sorted model.valueWeights),
    ("value_bias", .num model.valueBias),
    ("value_updates", .int model.valueUpdates)]))

def benchedAgents (model : PolicyValueModel F) : List String :=
  (model.agentRecords.rows.filter fun entry => entry.2.benched).map Prod.fst

/-- `is_benched`. -/
def isBenched [One F] (model : PolicyValueModel F) (actor : String) : Bool :=
  ((model.agentRecords.get? actor).getD .fresh).benched

/-- `record_for`: the model in which the actor has a record. -/
def recordFor [One F] (model : PolicyValueModel F) (actor : String) : PolicyValueModel F :=
  if model.agentRecords.contains actor then model
  else { model with agentRecords := model.agentRecords.set actor .fresh }

variable [Zero F] [One F] [Add F] [Sub F] [Mul F] [Div F] [LT F] [DecidableLT F] [OfScientific F]

section Prediction

variable [LE F] [DecidableLE F] [DecidableEq F] [NatCast F] (runtime : Runtime F)

def rawPolicyLogit (model : PolicyValueModel F) (move : Move F) : Except PyError F := do
  let base := runtime.log (pyMax move.basePrior 1e-9)
  let learned := pySum (move.tags.map fun tag => (model.policyWeights.get? tag).getD 0)
  let reliability ← ((model.agentRecords.get? move.actor).getD .fresh).mean
  let odds ← pyDiv (pyMax reliability 1e-4) (pyMax (1 - reliability) 1e-4)
  return base + learned + 0.20 * runtime.log odds

/-- The softmax of the logits; equal priors where its denominator is of no use. -/
def priorsOf (moves : List (Move F)) (logits : Dict String F) : Except PyError (Dict String F) := do
  ensure (logits.values.all runtime.isFinite) (.valueError "policy produced a non-finite logit")
  let peak ← maximum (fun a b => decide (a < b)) logits.values
  let exps := logits.mapValues fun _ logit => runtime.exp (logit - peak)
  let denominator := pySum exps.values
  return if !runtime.isFinite denominator || denominator ≤ 0 then
      Dict.ofList (moves.map fun move => (move.id, 1 / (moves.length : F)))
    else exps.mapValues fun _ value => value / denominator

def priors (model : PolicyValueModel F) (moves : List (Move F)) : Except PyError (Dict String F) :=
  match moves with
  | [] => .ok Table.empty
  | _ => do
      let logits ← moves.mapM fun move => do return (move.id, ← model.rawPolicyLogit runtime move)
      priorsOf runtime moves (Dict.ofList logits)

end Prediction

def valueFeatures (position : Position F) : List String := fromKeys (position.trajectory.flatMap Move.tags)

def learnedValue [NatCast F] (runtime : Runtime F) (model : PolicyValueModel F) (position : Position F) : F :=
  let features := valueFeatures position
  runtime.tanh <|
    if features.isEmpty then model.valueBias
    else model.valueBias +
      pySum (features.map fun tag => (model.valueWeights.get? tag).getD 0) / (features.length : F)

def blendValue [NatCast F] [IntCast F] (runtime : Runtime F) (model : PolicyValueModel F) (position : Position F)
    (heuristic : F) : F :=
  let learnedShare := pyMin 0.50 ((model.valueUpdates : F) / 120.0)
  (1 - learnedShare) * heuristic + learnedShare * model.learnedValue runtime position

section Learning

variable [Neg F] [LE F] [DecidableLE F] [DecidableEq F] [NatCast F] (runtime : Runtime F)

def clip (value limit : F) : F := pyMax (-limit) (pyMin limit value)

/-- The weights after a shift of every tag, each clipped to the limit. -/
def shiftTags (limit shift : F) (weights : Dict String F) (tags : List String) : Dict String F :=
  tags.foldl (fun weights tag => weights.set tag (clip ((weights.get? tag).getD 0 + shift) limit)) weights

def checkRate (what : String) (rate : F) : Except PyError Unit :=
  ensure (runtime.isFinite rate && 0 < rate && rate ≤ 1)
    (.valueError (what ++ " learning rate must be in (0, 1]"))

/-- What `learn_policy` does before the first weight changes. -/
def predictTargets (model : PolicyValueModel F) (moves : List (Move F)) (targets : Dict String F) (rate : F) :
    Except PyError (Dict String F) := do
  ensure (targets.keys.all (· ∈ moves.map Move.id)) (.valueError "policy target contains an unknown move")
  ensure (targets.values.all fun value => runtime.isFinite value && !value < 0)
    (.valueError "policy target probabilities must be finite and nonnegative")
  let total := pySum targets.values
  ensure (isClose runtime total 1 1e-8) (.valueError ("policy target probabilities must sum to 1.0, got " ++
    if targets.values.isEmpty then "0" else runtime.text total))
  checkRate runtime "policy" rate
  model.priors runtime moves

/-- The loop over the moves. -/
def learnMoves (targets predicted : Dict String F) (rate : F) :
    List (Move F) → PolicyValueModel F → Except PyError Unit × PolicyValueModel F
  | [], model => (.ok (), model)
  | move :: rest, model =>
      match predicted.get? move.id with
      | none => (.error (.other "KeyError" move.id), model)
      | some prior =>
          let error := (targets.get? move.id).getD 0 - prior
          let scale := rate * error / ((max 1 move.tags.length : Nat) : F)
          learnMoves targets predicted rate rest
            { model with policyWeights := shiftTags model.policyLimit scale model.policyWeights move.tags }

def learnPolicy (model : PolicyValueModel F) (moves : List (Move F)) (targets : Dict String F) (rate : F) :
    Except PyError Unit × PolicyValueModel F :=
  match moves with
  | [] => (.ok (), model)
  | _ =>
      match model.predictTargets runtime moves targets rate with
      | .error error => (.error error, model)
      | .ok predicted => learnMoves targets predicted rate moves model

def checkReward (reward rate : F) : Except PyError Unit := do
  ensure (runtime.isFinite reward && -1 ≤ reward && reward ≤ 1)
    (.valueError "actual reward must be finite and in [-1, 1]")
  checkRate runtime "value" rate

/-- The update of the bias and of the weights of the features. -/
def shiftValue (model : PolicyValueModel F) (position : Position F) (reward rate : F) : PolicyValueModel F :=
  let predicted := model.learnedValue runtime position
  let derivative := 1 - predicted * predicted
  let error := (reward - predicted) * derivative
  let features := valueFeatures position
  { model with
    valueBias := clip (model.valueBias + rate * error) model.valueLimit
    valueWeights := shiftTags model.valueLimit (rate * error / (features.length : F)) model.valueWeights features
    valueUpdates := model.valueUpdates + 1 }

def learnValue (model : PolicyValueModel F) (position : Position F) (reward rate : F) :
    Except PyError Unit × PolicyValueModel F :=
  match checkReward runtime reward rate with
  | .error error => (.error error, model)
  | .ok () => (.ok (), model.shiftValue runtime position reward rate)

end Learning

section Benching

variable [LE F] [DecidableLE F] [DecidableEq F] [IntCast F] [DecidableEq H]
  (runtime : Runtime F) (hashing : Hashing F H)

def setRecord (model : PolicyValueModel F) (actor : String) (record : AgentRecord F) : PolicyValueModel F :=
  { model with agentRecords := model.agentRecords.set actor record }

/-- Whether an observed record is to be benched. -/
def benches (model : PolicyValueModel F) (record : AgentRecord F) : Except PyError Bool :=
  if !record.benched && (model.benchMinSamples : F) ≤ record.samples then do
    let upper ← record.upperConfidence runtime
    return upper < model.benchUpperThreshold
  else .ok false

/-- The record is there before anything can raise, and the observation before the confidence is asked for. -/
def observeBenchmark (model : PolicyValueModel F) (move : Move F) (suite : BenchmarkSuite F H) :
    Except PyError Unit × PolicyValueModel F :=
  let recorded := model.recordFor move.actor
  let record := (recorded.agentRecords.get? move.actor).getD .fresh
  match suite.receiptMoveQuality hashing move >>= record.observe runtime with
  | .error error => (.error error, recorded)
  | .ok observed =>
      let after := recorded.setRecord move.actor observed
      match after.benches runtime observed with
      | .error error => (.error error, after)
      | .ok false => (.ok (), after)
      | .ok true => (.ok (), recorded.setRecord move.actor { observed with benched := true })

/-- The loop of `shadow_benchmark_agents` over the moves of a scenario. -/
def observeMoves (suite : BenchmarkSuite F H) :
    List (Move F) → PolicyValueModel F → Except PyError Unit × PolicyValueModel F
  | [], model => (.ok (), model)
  | move :: rest, model =>
      if move.kind = .abstain then observeMoves suite rest model
      else match model.observeBenchmark runtime hashing move suite with
        | (.error error, after) => (.error error, after)
        | (.ok (), after) => observeMoves suite rest after

def shadowBenchmarkAgents (scenario : Scenario F) (suite : BenchmarkSuite F H) (model : PolicyValueModel F) :
    Except PyError Unit × PolicyValueModel F :=
  observeMoves runtime hashing suite scenario.phases.flatten model

end Benching

end PolicyValueModel

end AgentTree.Engine
