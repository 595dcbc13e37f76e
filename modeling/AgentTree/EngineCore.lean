import AgentTree.Dictionary
import AgentTree.Outcome
import AgentTree.StoreSchema

/-!
The moves, positions and scenarios of `engine.py`.  A number is of any type with the
arithmetic of Python's floats; the digests are a parameter.
-/

namespace AgentTree.Engine

open Outcome Relational

/-- What the engine takes from Python besides the arithmetic of floats. -/
structure Runtime (F : Type) where
  isFinite : F → Bool
  log : F → F
  exp : F → F
  sqrt : F → F
  tanh : F → F
  /-- `random.Random(seed).gammavariate(0.3, 1.0)`, draw by draw. -/
  gammas : Int → Nat → F
  /-- The texts of a number, of a number with three digits, and of a quoted string. -/
  text : F → String
  fixed3 : F → String
  repr : String → String

/-- What is digested. -/
inductive Value (F H : Type) : Type
  | null
  | bool (value : Bool)
  | int (value : Int)
  | num (value : F)
  | str (text : String)
  | hash (hash : H)
  | arr (items : List (Value F H))
  | obj (members : List (String × Value F H))

/-- `_digest`, and the texts of digests: whether one is 64 hexadecimal digits, its order, its first
twelve digits and its whole text. -/
structure Hashing (F H : Type) where
  digest : Value F H → H
  isFull : H → Bool
  before : H → H → Bool
  short : H → String
  text : H → String

variable {F H : Type}

def Value.optional (value : Option String) : Value F H :=
  match value with
  | none => .null
  | some text => .str text

def Value.texts (values : List String) : Value F H := .arr (values.map .str)

/-- `dict(sorted(values.items()))`. -/
def Value.sorted (values : Dict String F) : Value F H :=
  .obj ((values.rows.insertionSort fun a b => a.1 ≤ b.1).map fun entry => (entry.1, .num entry.2))

/-- `sorted` on texts. -/
def sortedTexts (values : List String) : List String := values.insertionSort (· ≤ ·)

/-- `tuple(dict.fromkeys(values))`: the first of each. -/
def fromKeys (values : List String) : List String :=
  values.foldl (fun seen value => if value ∈ seen then seen else seen ++ [value]) []

/-- Whether a text is there and is not empty. -/
def truthy : Option String → Bool
  | none => false
  | some text => text ≠ ""

/-- The list of texts as Python prints it. -/
def Runtime.list (runtime : Runtime F) (values : List String) : String :=
  "[" ++ ", ".intercalate (values.map runtime.repr) ++ "]"

section Comparison

variable [LT F] [DecidableLT F]

/-- `max` of two arguments; a NaN never replaces the first. -/
def pyMax (first second : F) : F := if first < second then second else first

def pyMin (first second : F) : F := if second < first then second else first

/-- `max(items, key=...)`: the first of the items that no later one exceeds. -/
def maxBy (less : α → α → Bool) : (best : α) → List α → α
  | best, [] => best
  | best, item :: rest => maxBy less (if less best item then item else best) rest

end Comparison

def pySum [Zero F] [Add F] (values : List F) : F := values.foldl (· + ·) 0

def pyAbs [Zero F] [Neg F] [LT F] [DecidableLT F] (value : F) : F := if value < 0 then -value else value

/-- `x / y`. -/
def pyDiv [Zero F] [Div F] [DecidableEq F] (x y : F) : Except PyError F :=
  if y = 0 then .error (.other "ZeroDivisionError" "float division by zero") else .ok (x / y)

/-- `math.isclose(a, b, abs_tol=tolerance)`. -/
def isClose [Zero F] [Sub F] [Mul F] [Neg F] [LT F] [LE F] [DecidableLT F] [DecidableLE F]
    [OfScientific F] (runtime : Runtime F) (a b tolerance : F) : Bool :=
  let difference := pyAbs (b - a)
  a ≤ b && b ≤ a || runtime.isFinite a && runtime.isFinite b &&
    (difference ≤ pyAbs (1e-9 * b) || difference ≤ pyAbs (1e-9 * a) || difference ≤ tolerance)

/-! Moves. -/

inductive MoveKind : Type
  | propose
  | question
  | answer
  | commit
  | abstain
  deriving DecidableEq

def MoveKind.value : MoveKind → String
  | propose => "PROPOSE"
  | question => "QUESTION"
  | answer => "ANSWER"
  | commit => "COMMIT"
  | abstain => "ABSTAIN"

inductive TerminalStatus : Type
  | committed
  | abstained
  deriving DecidableEq

def TerminalStatus.value : TerminalStatus → String
  | committed => "COMMITTED"
  | abstained => "ABSTAINED"

structure Move (F : Type) where
  id : String
  actionKey : String
  kind : MoveKind
  actor : String
  text : String
  basePrior : F
  predictedMetrics : Dict String F
  cost : F
  tags : List String
  opensQuestion : Option String
  requiresQuestion : Option String
  resolvesQuestion : Option String
  evidenceRefs : List String
  violations : List String

namespace Move

/-- The checks of `__post_init__`. -/
def postInit [Zero F] [One F] [LT F] [LE F] [DecidableLT F] [DecidableLE F] (runtime : Runtime F)
    (move : Move F) : Except PyError Unit := do
  ensure (move.id ≠ "" && move.actionKey ≠ "" && move.actor ≠ "")
    (.valueError "move id, action_key, and actor must not be empty")
  ensure (runtime.isFinite move.basePrior && !move.basePrior ≤ 0)
    (.valueError ("move " ++ move.id ++ ": base_prior must be finite and positive"))
  ensure (runtime.isFinite move.cost && !move.cost < 0)
    (.valueError ("move " ++ move.id ++ ": cost must be finite and nonnegative"))
  move.predictedMetrics.rows.forM fun (name, value) =>
    ensure (runtime.isFinite value && 0 ≤ value && value ≤ 1)
      (.valueError ("move " ++ move.id ++ ": predicted metric " ++ name ++ " must be in [0, 1]"))

variable (hashing : Hashing F H)

def semanticSignature (move : Move F) : H := hashing.digest (.obj [
  ("action_key", .str move.actionKey),
  ("actor", .str move.actor),
  ("evidence_refs", .texts (sortedTexts move.evidenceRefs)),
  ("kind", .str move.kind.value),
  ("opens", .optional move.opensQuestion),
  ("requires", .optional move.requiresQuestion),
  ("resolves", .optional move.resolvesQuestion),
  ("tags", .texts (sortedTexts move.tags)),
  ("violations", .texts (sortedTexts move.violations))])

def contentHash (move : Move F) : H := hashing.digest (.obj [
  ("action_key", .str move.actionKey),
  ("actor", .str move.actor),
  ("base_prior", .num move.basePrior),
  ("cost", .num move.cost),
  ("evidence_refs", .texts move.evidenceRefs),
  ("id", .str move.id),
  ("kind", .str move.kind.value),
  ("opens", .optional move.opensQuestion),
  ("predicted_metrics", .sorted move.predictedMetrics),
  ("requires", .optional move.requiresQuestion),
  ("resolves", .optional move.resolvesQuestion),
  ("tags", .texts move.tags),
  ("text", .str move.text),
  ("violations", .texts move.violations)])

end Move

/-! Positions. -/

structure Position (F : Type) where
  scenario : String
  scenarioVersion : String
  phase : Nat
  trajectory : List (Move F)
  openQuestions : List String
  evidenceRefs : List String
  spentCost : F
  violations : List String
  terminalStatus : Option TerminalStatus

namespace Position

def terminal (position : Position F) : Bool := position.terminalStatus.isSome

def stateHash (hashing : Hashing F H) (position : Position F) : H := hashing.digest (.obj [
  ("evidence_refs", .texts (sortedTexts position.evidenceRefs)),
  ("move_hashes", .arr (position.trajectory.map fun move => .hash (move.contentHash hashing))),
  ("open_questions", .texts (sortedTexts position.openQuestions)),
  ("phase", .int position.phase),
  ("scenario", .str position.scenario),
  ("scenario_version", .str position.scenarioVersion),
  ("spent_cost", .num position.spentCost),
  ("terminal_status", .optional (position.terminalStatus.map TerminalStatus.value)),
  ("violations", .texts (sortedTexts position.violations))])

end Position

/-! Scenarios. -/

structure Scenario (F : Type) where
  name : String
  version : String
  description : String
  phases : List (List (Move F))

namespace Scenario

/-- The kinds of moves of the four phases. -/
def expected : List (List MoveKind) := [[.propose], [.question], [.answer], [.commit, .abstain]]

section Construction

variable [DecidableEq H] (hashing : Hashing F H)

/-- The questions that a move of its kind opens, requires and resolves. -/
def checkLinkage (move : Move F) : Except PyError Unit :=
  match move.kind with
  | .question => do
      ensure (truthy move.opensQuestion)
        (.valueError ("question " ++ move.id ++ " must open an obligation"))
      ensure (!(truthy move.requiresQuestion || truthy move.resolvesQuestion))
        (.valueError ("question " ++ move.id ++ " has invalid Q&A linkage"))
  | .answer =>
      ensure (truthy move.requiresQuestion && truthy move.resolvesQuestion &&
          move.requiresQuestion = move.resolvesQuestion)
        (.valueError ("answer " ++ move.id ++ " must require and resolve the same open question"))
  | kind =>
      ensure (!(truthy move.opensQuestion || truthy move.requiresQuestion ||
          truthy move.resolvesQuestion))
        (.valueError ("move " ++ move.id ++ ": Q&A linkage invalid for MoveKind." ++ kind.value))

/-- One turn of the loop over a phase, with the ids of the scenario and the signatures of the phase. -/
def checkMove (index : Nat) (kinds : List MoveKind) (ids : List String) (signatures : List H)
    (move : Move F) : Except PyError Unit := do
  ensure (move.kind ∈ kinds)
    (.valueError ("move " ++ move.id ++ ": " ++ move.kind.value ++ " illegal in phase " ++ toString index))
  ensure (move.id ∉ ids) (.valueError ("duplicate move id " ++ move.id))
  ensure (move.semanticSignature hashing ∉ signatures)
    (.valueError ("phase " ++ toString index ++ ": duplicate semantic move " ++ move.id))
  checkLinkage move

def checkMoves (index : Nat) (kinds : List MoveKind) :
    (ids : List String) → (signatures : List H) → List (Move F) → Except PyError (List String)
  | ids, _, [] => .ok ids
  | ids, signatures, move :: rest => do
      checkMove hashing index kinds ids signatures move
      checkMoves index kinds (move.id :: ids) (move.semanticSignature hashing :: signatures) rest

def checkPhases : (index : Nat) → List (List MoveKind) → (ids : List String) → List (List (Move F)) →
    Except PyError Unit
  | index, kinds :: others, ids, phase :: rest => do
      ensure (!phase.isEmpty) (.valueError ("phase " ++ toString index ++ " must contain candidates"))
      let ids ← checkMoves hashing index kinds ids [] phase
      checkPhases (index + 1) others ids rest
  | _, _, _, _ => .ok ()

/-- The checks of `__post_init__`. -/
def postInit (scenario : Scenario F) : Except PyError Unit := do
  ensure (scenario.name ≠ "" && scenario.version ≠ "")
    (.valueError "scenario name and version must not be empty")
  ensure (scenario.phases.length = expected.length)
    (.valueError "synthetic scenario must contain exactly four typed phases")
  checkPhases hashing 0 expected [] scenario.phases

end Construction

def initialPosition [Zero F] (scenario : Scenario F) : Position F where
  scenario := scenario.name
  scenarioVersion := scenario.version
  phase := 0
  trajectory := []
  openQuestions := []
  evidenceRefs := []
  spentCost := 0
  violations := []
  terminalStatus := none

def manifestHash (hashing : Hashing F H) (scenario : Scenario F) : H := hashing.digest (.obj [
  ("description", .str scenario.description),
  ("name", .str scenario.name),
  ("phases", .arr (scenario.phases.map fun phase =>
    .arr (phase.map fun move => .hash (move.contentHash hashing)))),
  ("version", .str scenario.version)])

def assertPosition (scenario : Scenario F) (position : Position F) : Except PyError Unit :=
  ensure (position.scenario = scenario.name && position.scenarioVersion = scenario.version)
    (.valueError "position belongs to a different scenario version")

/-- A candidate of the phase that may be played. -/
def playable (position : Position F) (benched : List String) (move : Move F) : Bool :=
  move.actor ∉ benched &&
    (move.kind ≠ .answer || match move.requiresQuestion with
      | some question => question ∈ position.openQuestions
      | none => false)

def legalMoves (scenario : Scenario F) (position : Position F) (benched : List String) :
    Except PyError (List (Move F)) := do
  scenario.assertPosition position
  return if position.terminal then []
    else ((scenario.phases[position.phase]?).getD []).filter (playable position benched)

/-- The open questions after a move. -/
def questionsAfter (runtime : Runtime F) (openQuestions : List String) (move : Move F) :
    Except PyError (List String) := do
  let opened ← match move.opensQuestion with
    | some question =>
        if question = "" then .ok openQuestions
        else if question ∈ openQuestions then
          .error (.valueError ("question " ++ runtime.repr question ++ " is already open"))
        else .ok (openQuestions ++ [question])
    | none => .ok openQuestions
  match move.resolvesQuestion with
  | some question =>
      if question = "" then .ok opened
      else if question ∈ opened then .ok (opened.erase question)
      else .error (.valueError ("answer " ++ move.id ++ " targets a question that is not open"))
  | none => .ok opened

def statusAfter : MoveKind → Option TerminalStatus
  | .commit => some .committed
  | .abstain => some .abstained
  | _ => none

/-- The position after a canonical move. -/
def advance [Add F] (position : Position F) (move : Move F) (openQuestions : List String) : Position F :=
  { position with
    phase := position.phase + 1
    trajectory := position.trajectory ++ [move]
    openQuestions
    evidenceRefs := fromKeys (position.evidenceRefs ++ move.evidenceRefs)
    spentCost := position.spentCost + move.cost
    violations := fromKeys (position.violations ++ move.violations)
    terminalStatus := statusAfter move.kind }

def apply [Add F] [DecidableEq H] (runtime : Runtime F) (hashing : Hashing F H) (scenario : Scenario F)
    (position : Position F) (move : Move F) (benched : List String) : Except PyError (Position F) := do
  let legal ← scenario.legalMoves position benched
  let canonicalById := Dict.ofList (legal.map fun candidate => (candidate.id, candidate))
  let canonical ← orRaise (canonicalById.get? move.id)
    (.valueError ("illegal move " ++ runtime.repr move.id ++ " at phase " ++ toString position.phase))
  ensure (move.contentHash hashing = canonical.contentHash hashing)
    (.valueError ("move " ++ runtime.repr move.id ++ " does not match canonical content"))
  let openQuestions ← questionsAfter runtime position.openQuestions canonical
  return advance position canonical openQuestions

def systemAbstainText : String := "No searched terminal branch passed every hard gate."

/-- The move of `safe_abstain`; its predicted metrics are those of the first candidate, all zero. -/
def systemAbstain [Zero F] [One F] (predicted : Dict String F) (reason : String) : Move F where
  id := "SYSTEM_ABSTAIN"
  actionKey := "system.safe-abstain"
  kind := .abstain
  actor := "Orchestrator"
  text := reason
  basePrior := 1
  predictedMetrics := predicted.mapValues fun _ _ => 0
  cost := 0
  tags := ["safe-abstain"]
  opensQuestion := none
  requiresQuestion := none
  resolvesQuestion := none
  evidenceRefs := []
  violations := []

def safeAbstain [Zero F] [One F] (scenario : Scenario F) (reason : String) :
    Except PyError (Position F) := do
  let candidates ← orRaise scenario.phases.head? (.other "IndexError" "tuple index out of range")
  let first ← orRaise candidates.head? (.other "StopIteration" "")
  return { scenario.initialPosition with
    trajectory := [systemAbstain first.predictedMetrics reason]
    terminalStatus := some .abstained }

end Scenario

end AgentTree.Engine
