import AgentTree.Search

/-!
The result of a search and what is learned from it, as `engine.py` has them.
-/

namespace AgentTree.Engine

open Outcome Relational

variable {F H : Type}

structure PolicyTargetReceipt (F H : Type) where
  position : Position F
  candidateHashes : List (String × H)
  targetProbabilities : Dict String F

structure SearchResult (F H : Type) where
  root : SearchNode F
  terminalNode : Option (SearchNode F)
  trajectory : List (Move F)
  finalPosition : Position F
  score : ScoreCard F
  simulations : Nat
  benchmarkEvaluations : Nat
  scenarioVersion : String
  scenarioManifestHash : H
  benchmarkProfileHash : H
  modelVersion : String
  abstained : Bool
  policyTargets : List (PolicyTargetReceipt F H)
  learningReceiptHash : H

/-- `(move.id, move.content_hash)` of every move. -/
def candidates (hashing : Hashing F H) (legal : List (Move F)) : List (String × H) :=
  legal.map fun move => (move.id, move.contentHash hashing)

namespace PolicyTargetReceipt

/-- The checks of `__post_init__`. -/
def postInit [Zero F] [One F] [Add F] [Sub F] [Mul F] [Neg F] [LT F] [LE F] [DecidableLT F] [DecidableLE F]
    [OfScientific F] (runtime : Runtime F) (hashing : Hashing F H) (receipt : PolicyTargetReceipt F H) :
    Except PyError Unit := do
  let ids := receipt.candidateHashes.map Prod.fst
  ensure (decide ids.Nodup) (.valueError "policy target contains duplicate candidate IDs")
  receipt.candidateHashes.forM fun (id, contentHash) =>
    ensure (id ≠ "" && (hashing.text contentHash).length = 64)
      (.valueError "policy target candidate identity is invalid")
  let targets := receipt.targetProbabilities
  ensure (targets.keys.all (· ∈ ids)) (.valueError "policy target references an unknown candidate")
  ensure (targets.values.all fun value => runtime.isFinite value && !value < 0)
    (.valueError "policy target values must be finite and nonnegative")
  ensure (isClose runtime (pySum targets.values) 1 1e-8) (.valueError "policy target values must sum to 1.0")

def receiptHash (hashing : Hashing F H) (receipt : PolicyTargetReceipt F H) : H := hashing.digest (.obj [
  ("candidate_hashes", .arr (receipt.candidateHashes.map fun (id, contentHash) => .arr [.str id, .hash contentHash])),
  ("state_hash", .hash (receipt.position.stateHash hashing)),
  ("target_probabilities", .sorted receipt.targetProbabilities)])

end PolicyTargetReceipt

/-- `_scorecard_payload`. -/
def ScoreCard.payload (score : ScoreCard F) : Value F H := .obj [
  ("composite", .num score.composite),
  ("cost_penalty", .num score.costPenalty),
  ("feasible", .bool score.feasible),
  ("gate_failures", .texts score.gateFailures),
  ("metrics", .sorted score.metrics),
  ("outcome_status", .optional (score.outcomeStatus.map TerminalStatus.value)),
  ("reward", .num score.reward)]

def experienceDigest (hashing : Hashing F H) (scenarioManifestHash benchmarkProfileHash : H) (modelVersion : String)
    (trajectory : List (Move F)) (finalPosition : Position F) (score : ScoreCard F)
    (policyTargets : List (PolicyTargetReceipt F H)) (abstained : Bool) : H := hashing.digest (.obj [
  ("abstained", .bool abstained),
  ("benchmark_profile_hash", .hash benchmarkProfileHash),
  ("final_state_hash", .hash (finalPosition.stateHash hashing)),
  ("model_version", .str modelVersion),
  ("policy_targets", .arr (policyTargets.map fun target => .hash (target.receiptHash hashing))),
  ("scenario_manifest_hash", .hash scenarioManifestHash),
  ("score", score.payload),
  ("trajectory", .arr (trajectory.map fun move => .hash (move.contentHash hashing)))])

/-- The only check of `__post_init__`. -/
def SearchResult.postInit (hashing : Hashing F H) (result : SearchResult F H) : Except PyError Unit :=
  ensure (hashing.isFull result.learningReceiptHash) (.valueError "learning receipt must use a full content hash")

section Search

variable [Zero F] [One F] [Add F] [Sub F] [Mul F] [Div F] [Neg F] [LT F] [LE F] [DecidableLT F] [DecidableLE F]
  [DecidableEq F] [OfScientific F] [NatCast F] [IntCast F] [DecidableEq H]
  (runtime : Runtime F) (hashing : Hashing F H)

namespace PUCTSearch

variable (search : PUCTSearch F H)

/-- A feasible terminal: the nodes of its path from the root, the terminal last, and its scorecard. -/
structure Found (F : Type) where
  path : List (SearchNode F)
  terminal : SearchNode F
  score : ScoreCard F

/-- `_path_to`. -/
def Found.moves (found : Found F) : List (Move F) := found.path.filterMap SearchNode.move

/-- The terminals of the tree that score as feasible. -/
def feasibleTerminals : List (List (SearchNode F)) → Scores F H → Except PyError (List (Found F) × Scores F H)
  | [], scores => .ok ([], scores)
  | path :: rest, scores =>
      match path.getLast? with
      | none => feasibleTerminals rest scores
      | some terminal => do
          let (score, scores) ← search.score runtime hashing scores terminal.position
          let (found, scores) ← feasibleTerminals rest scores
          return (if score.feasible then ⟨path, terminal, score⟩ :: found else found, scores)

/-- Python's order of the keys by which the best terminal is chosen. -/
def foundBefore (a b : Found F) : Bool :=
  let costs := (-a.terminal.position.spentCost, -b.terminal.position.spentCost)
  if a.score.reward ≠ b.score.reward then a.score.reward < b.score.reward
  else if costs.1 ≠ costs.2 then costs.1 < costs.2
  else if a.terminal.visits ≠ b.terminal.visits then a.terminal.visits < b.terminal.visits
  else a.moves.map Move.id < b.moves.map Move.id

/-- The receipt of a node on the path to the terminal; a node without children has none. -/
def policyTarget (node : SearchNode F) : Except PyError (Option (PolicyTargetReceipt F H)) :=
  let target := node.visitTarget
  if target.rows.isEmpty then .ok none
  else do
    let legal ← search.scenario.legalMoves node.position search.benched
    let receipt : PolicyTargetReceipt F H := ⟨node.position, candidates hashing legal, target⟩
    receipt.postInit runtime hashing
    return some receipt

/-- What the search has come to: the terminal node, the trajectory, the final position, its score, whether it
abstains, and the nodes to learn from. -/
structure Choice (F : Type) where
  terminalNode : Option (SearchNode F)
  trajectory : List (Move F)
  finalPosition : Position F
  score : ScoreCard F
  abstained : Bool
  selected : List (SearchNode F)

def choose (found : List (Found F)) (scores : Scores F H) : Except PyError (Choice F × Scores F H) := do
  match found with
  | [] =>
      let finalPosition ← search.scenario.safeAbstain Scenario.systemAbstainText
      let (score, scores) ← search.score runtime hashing scores finalPosition
      return (⟨none, finalPosition.trajectory, finalPosition, score, true, []⟩, scores)
  | _ =>
      let best ← maximum foundBefore found
      let position := best.terminal.position
      let abstained := position.terminalStatus = some .abstained
      return (⟨some best.terminal, best.moves, position, best.score, abstained, best.path.dropLast⟩, scores)

/-- What `run` does with the tree when the simulations are done. -/
def conclude (simulations : Nat) (root : SearchNode F) (scores : Scores F H) : Except PyError (SearchResult F H) := do
  let (found, scores) ← search.feasibleTerminals runtime hashing (SearchNode.terminalPaths [] root) scores
  let (choice, scores) ← search.choose runtime hashing found scores
  let targets ← choice.selected.mapM (search.policyTarget runtime hashing)
  let policyTargets := targets.filterMap fun target => target
  let manifestHash := search.scenario.manifestHash hashing
  let profileHash := search.benchmark.profileHash hashing
  let modelVersion := search.model.modelVersion hashing
  let result : SearchResult F H := {
    root
    terminalNode := choice.terminalNode
    trajectory := choice.trajectory
    finalPosition := choice.finalPosition
    score := choice.score
    simulations
    benchmarkEvaluations := scores.evaluations
    scenarioVersion := search.scenario.version
    scenarioManifestHash := manifestHash
    benchmarkProfileHash := profileHash
    modelVersion
    abstained := choice.abstained
    policyTargets
    learningReceiptHash := experienceDigest hashing manifestHash profileHash modelVersion choice.trajectory
      choice.finalPosition choice.score policyTargets choice.abstained }
  result.postInit hashing
  return result

def run (simulations : Int) : Except PyError (SearchResult F H) := do
  ensure (0 < simulations) (.valueError "simulations must be positive")
  let (root, scores) ← search.simulations runtime hashing simulations.toNat
  search.conclude runtime hashing simulations.toNat root scores

end PUCTSearch

/-! Learning from a result. -/

/-- The replay of a result: the positions before each of its moves, and the last. -/
def replayStates (scenario : Scenario F) (benched : List String) :
    List (Move F) → Position F → Except PyError (List (Position F) × Position F)
  | [], position => .ok ([], position)
  | move :: rest, position => do
      let next ← scenario.apply runtime hashing position move benched
      let (states, last) ← replayStates scenario benched rest next
      return (position :: states, last)

def isSystemAbstain (trajectory : List (Move F)) : Bool :=
  match trajectory with
  | [move] => move.id = "SYSTEM_ABSTAIN"
  | _ => false

/-- The position that a result's trajectory leads to, and those that it leads through. -/
def SearchResult.replay (scenario : Scenario F) (benched : List String) (result : SearchResult F H) :
    Except PyError (List (Position F) × Position F) :=
  if isSystemAbstain result.trajectory then do
    return ([], ← scenario.safeAbstain Scenario.systemAbstainText)
  else replayStates runtime hashing scenario benched result.trajectory scenario.initialPosition

/-- The checks of the versions and hashes that a result names. -/
def checkBinding (scenario : Scenario F) (suite : BenchmarkSuite F H) (model : PolicyValueModel F)
    (result : SearchResult F H) : Except PyError Unit := do
  ensure (result.scenarioVersion = scenario.version)
    (.valueError "result scenario version does not match learner scenario")
  ensure (result.scenarioManifestHash = scenario.manifestHash hashing)
    (.valueError "result scenario manifest does not match learner scenario")
  ensure (suite.scenarioManifestHash = scenario.manifestHash hashing)
    (.valueError "benchmark is bound to a different scenario manifest")
  ensure (result.benchmarkProfileHash = suite.profileHash hashing)
    (.valueError "result benchmark profile does not match learner benchmark")
  ensure (result.modelVersion = model.modelVersion hashing)
    (.valueError "result was produced by a different policy generation")
  ensure (result.learningReceiptHash = experienceDigest hashing result.scenarioManifestHash
      result.benchmarkProfileHash result.modelVersion result.trajectory result.finalPosition result.score
      result.policyTargets result.abstained)
    (.valueError "learning receipt content hash does not match result")

/-- The checks of the replayed position against the result. -/
def checkReplay (result : SearchResult F H) (replayed : Position F) (score : ScoreCard F) : Except PyError Unit := do
  ensure (hashing.digest score.payload = hashing.digest result.score.payload)
    (.valueError "benchmark replay does not reproduce the full scorecard")
  let abstained := decide (replayed.terminalStatus = some .abstained)
  ensure (result.abstained = abstained)
    (.valueError "result abstention flag does not match terminal state")
  ensure (abstained || replayed.terminalStatus = some .committed)
    (.valueError "non-abstained result lacks an explicit COMMIT")

/-- A target that has been validated: the position, its legal moves and the probabilities. -/
structure Lesson (F : Type) where
  position : Position F
  legal : List (Move F)
  targetProbabilities : Dict String F

/-- The loop over the policy targets of a result, with the states that were already seen. -/
def validateTargets (scenario : Scenario F) (benched : List String) (selected : Dict H (Position F)) :
    (seen : List H) → List (PolicyTargetReceipt F H) → Except PyError (List (Lesson F))
  | _, [] => .ok []
  | seen, receipt :: rest => do
      let stateHash := receipt.position.stateHash hashing
      ensure (!(stateHash ∈ seen || !selected.contains stateHash))
        (.valueError "policy target is duplicate or not on the selected path")
      let position ← orRaise (selected.get? stateHash) (.other "KeyError" (hashing.text stateHash))
      let legal ← scenario.legalMoves position benched
      ensure (candidates hashing legal = receipt.candidateHashes)
        (.valueError "policy target candidate manifest does not replay")
      let lessons ← validateTargets scenario benched selected (stateHash :: seen) rest
      return ⟨position, legal, receipt.targetProbabilities⟩ :: lessons

/-- The defaults of `learn_policy` and `learn_value`. -/
def policyRate : F := 0.18

def valueRate : F := 0.12

/-- What a call leaves where it returns; its error ends the training where it raises. -/
def settled {σ : Type} (outcome : Except PyError Unit × σ) : Except PyError σ := outcome.1.map fun _ => outcome.2

/-- One lesson: the policy learns from it unless the result is the system's own abstention. -/
def learnLesson (systemAbstain : Bool) (reward : F) (challenger : PolicyValueModel F) (lesson : Lesson F) :
    Except PyError (PolicyValueModel F) := do
  let taught ← settled <|
    if systemAbstain then (.ok (), challenger)
    else challenger.learnPolicy runtime lesson.legal lesson.targetProbabilities policyRate
  settled (taught.learnValue runtime lesson.position reward valueRate)

/-- The loop over the lessons on the challenger; without a lesson it learns the value of the start. -/
def learnLessons (scenario : Scenario F) (systemAbstain : Bool) (reward : F) (lessons : List (Lesson F))
    (challenger : PolicyValueModel F) : Except PyError (PolicyValueModel F) := do
  let taught ← lessons.foldlM (learnLesson runtime systemAbstain reward) challenger
  settled <|
    if lessons.isEmpty then taught.learnValue runtime scenario.initialPosition reward valueRate
    else (.ok (), taught)

/-- Everything that `learn_from_result` does before it publishes: the challenger it has trained. -/
def trainChallenger (scenario : Scenario F) (suite : BenchmarkSuite F H) (model : PolicyValueModel F)
    (result : SearchResult F H) : Except PyError (PolicyValueModel F) := do
  checkBinding hashing scenario suite model result
  let (states, replayed) ← result.replay runtime hashing scenario model.benchedAgents
  ensure (replayed.stateHash hashing = result.finalPosition.stateHash hashing)
    (.valueError "trajectory replay does not match result state")
  let score ← suite.evaluate runtime hashing replayed
  checkReplay hashing result replayed score
  let selected := Dict.ofList (states.map fun position => (position.stateHash hashing, position))
  let lessons ← validateTargets hashing scenario model.benchedAgents selected [] result.policyTargets
  let challenger ← model.frozenCopy runtime
  let challenger ← learnLessons runtime scenario (isSystemAbstain result.trajectory) score.reward lessons challenger
  return { challenger with generation := challenger.generation + 1 }

/-- The challenger is published at once: its weights, bias, counts and records. -/
def learnFromResult (scenario : Scenario F) (suite : BenchmarkSuite F H) (model : PolicyValueModel F)
    (result : SearchResult F H) : Except PyError Unit × PolicyValueModel F :=
  match trainChallenger runtime hashing scenario suite model result with
  | .error error => (.error error, model)
  | .ok challenger =>
      (.ok (), { model with
        policyWeights := challenger.policyWeights
        valueWeights := challenger.valueWeights
        valueBias := challenger.valueBias
        valueUpdates := challenger.valueUpdates
        generation := challenger.generation
        agentRecords := challenger.agentRecords })

end Search

end AgentTree.Engine
