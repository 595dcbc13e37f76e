import AgentTree.EngineCore

/-!
The benchmark suites of `engine.py`: what their constructor checks, and how they score
a position.
-/

namespace AgentTree.Engine

open Outcome Relational

variable {F H : Type}

structure BenchmarkMetric (F : Type) where
  name : String
  weight : F
  hardMinimum : Option F

structure ScoreCard (F : Type) where
  metrics : Dict String F
  composite : F
  costPenalty : F
  reward : F
  feasible : Bool
  gateFailures : List String
  outcomeStatus : Option TerminalStatus

structure BenchmarkSuite (F H : Type) where
  version : String
  scenarioManifestHash : H
  metrics : List (BenchmarkMetric F)
  /-- By the content hash of a move. -/
  receiptMetrics : Dict H (Dict String F)
  phaseImportance : List F
  costWeight : F
  criticalSafetyMinimum : F
  violationReward : F
  abstainReward : F
  trustedEvidencePrefixes : List String

def allowedEvidencePrefixes : List String := ["trace://", "env://", "device://", "cloud://"]

def hasPrefix (text scheme : String) : Bool := scheme.toList.isPrefixOf text.toList

def missingReceipt (move : Move F) : String := "missing independent benchmark receipt for " ++ move.id

section Construction

variable [Zero F] [One F] [Add F] [Sub F] [Mul F] [Neg F] [LT F] [LE F] [DecidableLT F] [DecidableLE F]
  [OfScientific F]

/-- The checks of `__post_init__`. -/
def BenchmarkMetric.postInit (runtime : Runtime F) (metric : BenchmarkMetric F) : Except PyError Unit := do
  ensure (metric.name ≠ "") (.valueError "benchmark metric name must not be empty")
  ensure (runtime.isFinite metric.weight && !metric.weight < 0)
    (.valueError ("metric " ++ metric.name ++ ": weight must be finite and nonnegative"))
  match metric.hardMinimum with
  | none => return ()
  | some minimum =>
      ensure (runtime.isFinite minimum && 0 ≤ minimum && minimum ≤ 1)
        (.valueError ("metric " ++ metric.name ++ ": hard minimum must be in [0, 1]"))

namespace BenchmarkSuite

def names (suite : BenchmarkSuite F H) : List String := suite.metrics.map BenchmarkMetric.name

/-- One receipt of `__post_init__`. -/
def checkReceipt (runtime : Runtime F) (hashing : Hashing F H) (names : List String) (moveHash : H)
    (values : Dict String F) : Except PyError Unit := do
  ensure (hashing.isFull moveHash) (.valueError "benchmark receipt key must be a canonical move hash")
  let missing := names.filter (!values.contains ·)
  ensure missing.isEmpty (.valueError ("receipt " ++ hashing.text moveHash ++
    ": missing benchmark metrics " ++ runtime.list missing))
  values.rows.forM fun (name, value) =>
    ensure (runtime.isFinite value && 0 ≤ value && value ≤ 1)
      (.valueError ("receipt " ++ hashing.text moveHash ++ ": metric " ++ name ++ " must be in [0, 1]"))

/-- The checks of `__post_init__`. -/
def postInit (runtime : Runtime F) (hashing : Hashing F H) (suite : BenchmarkSuite F H) :
    Except PyError Unit := do
  ensure (suite.version ≠ "") (.valueError "benchmark version must not be empty")
  ensure (hashing.isFull suite.scenarioManifestHash)
    (.valueError "benchmark must bind a full scenario manifest hash")
  ensure (!suite.names.isEmpty && decide suite.names.Nodup)
    (.valueError "benchmark metric names must be nonempty and unique")
  let total := pySum (suite.metrics.map BenchmarkMetric.weight)
  ensure (isClose runtime total 1 1e-9)
    (.valueError ("benchmark weights must sum to 1.0, got " ++ runtime.text total))
  ensure (!suite.phaseImportance.isEmpty &&
      suite.phaseImportance.all fun value => runtime.isFinite value && !value ≤ 0)
    (.valueError "phase importance values must be finite and positive")
  ensure (runtime.isFinite suite.costWeight && 0 ≤ suite.costWeight && suite.costWeight ≤ 1)
    (.valueError "cost_weight must be finite and in [0, 1]")
  ensure (runtime.isFinite suite.criticalSafetyMinimum && 0 ≤ suite.criticalSafetyMinimum &&
      suite.criticalSafetyMinimum ≤ 1) (.valueError "critical safety minimum must be in [0, 1]")
  ensure (runtime.isFinite suite.violationReward && -1 ≤ suite.violationReward && suite.violationReward ≤ 0)
    (.valueError "violation_reward must be finite and in [-1, 0]")
  ensure (runtime.isFinite suite.abstainReward && -1 ≤ suite.abstainReward && suite.abstainReward ≤ 0)
    (.valueError "abstain_reward must be finite and in [-1, 0]")
  let prefixes := suite.trustedEvidencePrefixes
  ensure (!prefixes.isEmpty && decide prefixes.Nodup && prefixes.all (· ≠ "") &&
      prefixes.all allowedEvidencePrefixes.contains)
    (.valueError "trusted evidence prefixes must be unique, nonempty, and fixture-approved")
  suite.receiptMetrics.rows.forM fun (moveHash, values) =>
    checkReceipt runtime hashing suite.names moveHash values

end BenchmarkSuite

end Construction

namespace BenchmarkSuite

def profileHash (hashing : Hashing F H) (suite : BenchmarkSuite F H) : H := hashing.digest (.obj [
  ("abstain_reward", .num suite.abstainReward),
  ("cost_weight", .num suite.costWeight),
  ("critical_safety_minimum", .num suite.criticalSafetyMinimum),
  ("metrics", .arr (suite.metrics.map fun metric => .obj [
    ("hard_minimum", match metric.hardMinimum with
      | none => .null
      | some minimum => .num minimum),
    ("name", .str metric.name),
    ("weight", .num metric.weight)])),
  ("phase_importance", .arr (suite.phaseImportance.map .num)),
  ("receipts", .obj ((suite.receiptMetrics.rows.insertionSort fun a b => hashing.before a.1 b.1 = true).map
    fun receipt => (hashing.text receipt.1, .sorted receipt.2))),
  ("scenario_manifest_hash", .hash suite.scenarioManifestHash),
  ("trusted_evidence_prefixes", .texts suite.trustedEvidencePrefixes),
  ("version", .str suite.version),
  ("violation_reward", .num suite.violationReward)])

variable [Zero F] [One F] [Add F] [Sub F] [Mul F] [Div F] [Neg F] [LT F] [LE F] [DecidableLT F]
  [DecidableLE F] [OfScientific F]

/-- Cheap proposer estimate for the rollout policy. -/
def predictedMoveQuality (runtime : Runtime F) (suite : BenchmarkSuite F H) (move : Move F) :
    Except PyError F := do
  let missing := suite.names.filter (!move.predictedMetrics.contains ·)
  ensure missing.isEmpty
    (.valueError ("move " ++ move.id ++ ": missing predicted metrics " ++ runtime.list missing))
  let quality := pySum (suite.metrics.map fun metric =>
    metric.weight * (move.predictedMetrics.get? metric.name).getD 0)
  return pyMax 0 (pyMin 1 (quality - suite.costWeight * move.cost))

variable [DecidableEq H] (runtime : Runtime F) (hashing : Hashing F H) (suite : BenchmarkSuite F H)

def receiptMoveQuality (move : Move F) : Except PyError F := do
  let values ← orRaise (suite.receiptMetrics.get? (move.contentHash hashing))
    (.valueError ("missing independent receipt for move " ++ move.id))
  let terms ← suite.metrics.mapM fun metric => do
    let value ← orRaise (values.get? metric.name) (.other "KeyError" metric.name)
    return metric.weight * value
  return pySum terms

/-! The loops of `evaluate`. -/

structure Tally (F : Type) where
  totals : String → F
  denominator : F
  remarks : List String

def addReceipt (receipt : Dict String F) (importance : F) (totals : String → F) :
    Except PyError (String → F) :=
  suite.metrics.foldlM (fun totals metric => do
    let value ← orRaise (receipt.get? metric.name) (.other "KeyError" metric.name)
    return Function.update totals metric.name (totals metric.name + value * importance)) totals

/-- One turn: the receipt of a move is weighed, and a critical safety value is remarked. -/
def tallyMove (remark : Move F → F → String) (phase : Nat) (tally : Tally F) (move : Move F) :
    Except PyError (Tally F) :=
  match suite.receiptMetrics.get? (move.contentHash hashing) with
  | none => .ok { tally with remarks := tally.remarks ++ [missingReceipt move] }
  | some receipt => do
      let importance := (suite.phaseImportance[phase]?).getD 0
      let totals ← suite.addReceipt receipt importance tally.totals
      let remarks := match receipt.get? "safety" with
        | some safety =>
            if safety < suite.criticalSafetyMinimum then tally.remarks ++ [remark move safety]
            else tally.remarks
        | none => tally.remarks
      return { totals, denominator := tally.denominator + importance, remarks }

/-- The loop over a trajectory, with the moves that it passes over. -/
def tallyMoves (passes : Move F → Bool) (remark : Move F → F → String) :
    (phase : Nat) → Tally F → List (Move F) → Except PyError (Tally F)
  | _, tally, [] => .ok tally
  | phase, tally, move :: rest =>
      if passes move then tallyMoves passes remark (phase + 1) tally rest
      else do
        let tally ← suite.tallyMove hashing remark phase tally move
        tallyMoves passes remark (phase + 1) tally rest

def Tally.value (tally : Tally F) (name : String) : F :=
  if 0 < tally.denominator then tally.totals name / tally.denominator else 0

def values (tally : Tally F) : Dict String F :=
  Dict.ofList (suite.metrics.map fun metric => (metric.name, tally.value metric.name))

def composite (tally : Tally F) : F :=
  pySum (suite.metrics.map fun metric => metric.weight * tally.value metric.name)

def isSystemFallback (position : Position F) : Bool :=
  match position.trajectory with
  | [move] => move.id = "SYSTEM_ABSTAIN"
  | _ => false

/-- `evaluate` of an abstention. -/
def evaluateAbstained (position : Position F) : Except PyError (ScoreCard F) :=
  if isSystemFallback position then
    .ok {
      metrics := Dict.ofList (suite.metrics.map fun metric => (metric.name, 0))
      composite := 0
      costPenalty := 0
      reward := suite.abstainReward
      feasible := true
      gateFailures := []
      outcomeStatus := position.terminalStatus }
  else do
    let tally ← suite.tallyMoves hashing (fun move => move.kind = .abstain)
      (fun move safety => move.id ++ " safety=" ++ runtime.fixed3 safety ++ " below critical threshold")
      0 ⟨fun _ => 0, 0, position.violations⟩ position.trajectory
    let costPenalty := suite.costWeight * position.spentCost
    return {
      metrics := suite.values tally
      composite := suite.composite tally
      costPenalty
      reward := pyMax (-1) (suite.abstainReward - costPenalty)
      -- An abstention has no effect, so its warnings do not make it infeasible.
      feasible := true
      gateFailures := fromKeys tally.remarks
      outcomeStatus := position.terminalStatus }

/-- The failures that are found before the receipts are weighed. -/
def earlyFailures (position : Position F) : List String :=
  position.violations ++
  (if position.terminalStatus = some .committed then []
    else ["position has no explicit COMMIT or ABSTAIN terminal"]) ++
  (if position.openQuestions.isEmpty then [] else ["unresolved proof obligation"]) ++
  (if position.trajectory.length = suite.phaseImportance.length then []
    else ["terminal path has " ++ toString position.trajectory.length ++ " plies; expected " ++
      toString suite.phaseImportance.length]) ++
  if position.evidenceRefs.any fun ref => suite.trustedEvidencePrefixes.any (hasPrefix ref) then []
  else ["no trusted evidence receipt"]

/-- The failure of a metric below its hard minimum. -/
def gateFailure (tally : Tally F) (metric : BenchmarkMetric F) : List String :=
  match metric.hardMinimum with
  | some minimum =>
      if tally.value metric.name < minimum then
        [metric.name ++ "=" ++ runtime.fixed3 (tally.value metric.name) ++ " < gate=" ++
          runtime.fixed3 minimum]
      else []
  | none => []

def evaluate (position : Position F) : Except PyError (ScoreCard F) :=
  if position.terminalStatus = some .abstained then suite.evaluateAbstained runtime hashing position
  else do
    let tally ← suite.tallyMoves hashing (fun _ => false)
      (fun move safety => move.id ++ " safety=" ++ runtime.fixed3 safety ++ " < critical=" ++
        runtime.fixed3 suite.criticalSafetyMinimum)
      0 ⟨fun _ => 0, 0, suite.earlyFailures position⟩ position.trajectory
    let failures := fromKeys (tally.remarks ++ suite.metrics.flatMap (gateFailure runtime tally))
    let composite := suite.composite tally
    let costPenalty := suite.costWeight * position.spentCost
    let unconstrained := pyMax (-1) (pyMin 1 (2.0 * composite - 1 - costPenalty))
    return {
      metrics := suite.values tally
      composite
      costPenalty
      reward := if failures.isEmpty then unconstrained else suite.violationReward
      feasible := failures.isEmpty
      gateFailures := failures
      outcomeStatus := position.terminalStatus }

end BenchmarkSuite

end AgentTree.Engine
