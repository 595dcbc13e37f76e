import AgentTree.PolicyModel

/-!
The tree search of `engine.py`.  A node holds its children in the order in which they were
expanded; where the source follows parents up from a node, the nodes of its path are given.
-/

namespace AgentTree.Engine

open Outcome Relational

variable {F H : Type}

structure SearchNode (F : Type) where
  position : Position F
  move : Option (Move F)
  prior : F
  visits : Nat
  valueSum : F
  children : List (SearchNode F)
  unexpanded : Option (List (Move F))
  candidatePriors : Dict String F

/-- Python's order of a pair of a number and a text. -/
def keyBefore [LT F] [DecidableLT F] [DecidableEq F] (a b : F × String) : Bool :=
  if a.1 = b.1 then a.2 < b.2 else a.1 < b.1

namespace SearchNode

/-- The key of a child, `""` at the root. -/
def id (node : SearchNode F) : String :=
  match node.move with
  | none => ""
  | some move => move.id

/-- `SearchNode(position, parent, move, prior)`. -/
def make [Zero F] (position : Position F) (move : Option (Move F)) (prior : F) : SearchNode F where
  position
  move
  prior
  visits := 0
  valueSum := 0
  children := []
  unexpanded := none
  candidatePriors := Table.empty

/-- `node.children[child.move.id] = child`. -/
def setChild (child : SearchNode F) : List (SearchNode F) → List (SearchNode F)
  | [] => [child]
  | other :: rest => if other.id = child.id then child :: rest else other :: setChild child rest

/-- What a simulation adds to a node of its path. -/
def visit [Add F] (value : F) (node : SearchNode F) : SearchNode F :=
  { node with visits := node.visits + 1, valueSum := node.valueSum + value }

def qValue [Zero F] [Div F] [NatCast F] (node : SearchNode F) : F :=
  if node.visits = 0 then 0 else node.valueSum / (node.visits : F)

/-- `visit_target` at its temperature of one, at which the power of a count is the count. -/
def visitTarget [Zero F] [Add F] [Div F] [NatCast F] (node : SearchNode F) : Dict String F :=
  let powers := Dict.ofList (node.children.map fun child => (child.id, ((max child.visits 1 : Nat) : F)))
  let total := pySum powers.values
  powers.mapValues fun _ value => value / total

def rootDistribution [Div F] [NatCast F] (root : SearchNode F) : Dict String F :=
  let total := (root.children.map SearchNode.visits).sum
  if total = 0 then Table.empty
  else Dict.ofList (root.children.map fun child => (child.id, (child.visits : F) / (total : F)))

mutual

/-- The paths to the terminal nodes at or below a node, in the order in which the stack finds them. -/
def terminalPaths (above : List (SearchNode F)) : SearchNode F → List (List (SearchNode F))
  | ⟨position, move, prior, visits, valueSum, children, unexpanded, candidatePriors⟩ =>
      let path := above ++ [⟨position, move, prior, visits, valueSum, children, unexpanded, candidatePriors⟩]
      (if position.terminal then [path] else []) ++ terminalPathsOf path children

def terminalPathsOf (above : List (SearchNode F)) : List (SearchNode F) → List (List (SearchNode F))
  | [] => []
  -- The stack gives the last child back first.
  | child :: rest => terminalPathsOf above rest ++ terminalPaths above child

end

end SearchNode

/-- The cache of scorecards and the count of evaluations. -/
structure Scores (F H : Type) where
  cards : Dict H (ScoreCard F)
  evaluations : Nat

structure PUCTSearch (F H : Type) where
  scenario : Scenario F
  benchmark : BenchmarkSuite F H
  model : PolicyValueModel F
  cPuct : F
  seed : Int
  rootNoiseFraction : F

namespace PUCTSearch

variable [Zero F] [One F] [Add F] [Sub F] [Mul F] [Div F] [Neg F] [LT F] [LE F] [DecidableLT F] [DecidableLE F]
  [DecidableEq F] [OfScientific F] [NatCast F] [IntCast F] [DecidableEq H]
  (runtime : Runtime F) (hashing : Hashing F H)

/-- The constructor. -/
def init (scenario : Scenario F) (benchmark : BenchmarkSuite F H) (model : PolicyValueModel F) (cPuct : F)
    (seed : Int) (rootNoiseFraction : F) : Except PyError (PUCTSearch F H) := do
  ensure (runtime.isFinite cPuct && !cPuct < 0) (.valueError "c_puct must be finite and nonnegative")
  ensure (0 ≤ rootNoiseFraction && rootNoiseFraction ≤ 1) (.valueError "root noise fraction must be in [0, 1]")
  ensure (benchmark.scenarioManifestHash = scenario.manifestHash hashing)
    (.valueError "benchmark is bound to a different scenario manifest")
  let hashes := (scenario.phases.flatten.filter fun move => move.kind ≠ .abstain).map (Move.contentHash hashing)
  let missing := hashes.dedup.filter (!benchmark.receiptMetrics.contains ·)
  ensure missing.isEmpty (.valueError ("benchmark lacks canonical move receipts: " ++
    runtime.list (sortedTexts (missing.map hashing.text))))
  ensure (benchmark.phaseImportance.length = scenario.phases.length)
    (.valueError "benchmark phase weights do not match scenario")
  let model ← model.frozenCopy runtime
  return { scenario, benchmark, model, cPuct, seed, rootNoiseFraction }

variable (search : PUCTSearch F H)

def benched : List String := search.model.benchedAgents

def score (scores : Scores F H) (position : Position F) : Except PyError (ScoreCard F × Scores F H) :=
  match scores.cards.get? (position.stateHash hashing) with
  | some card => .ok (card, scores)
  | none => do
      let card ← search.benchmark.evaluate runtime hashing position
      return (card, ⟨scores.cards.set (position.stateHash hashing) card, scores.evaluations + 1⟩)

/-- One turn of the loop over the moves of the root and their draws. -/
def mixNoise (total : F) (priors : Dict String F) (drawn : Move F × F) : Except PyError (Dict String F) := do
  let original ← orRaise (priors.get? drawn.1.id) (.other "KeyError" drawn.1.id)
  let share ← pyDiv (search.rootNoiseFraction * drawn.2) total
  return priors.set drawn.1.id ((1 - search.rootNoiseFraction) * original + share)

/-- The noise of the root, drawn from the seeded generator. -/
def addNoise (legal : List (Move F)) (priors : Dict String F) : Except PyError (Dict String F) :=
  let noise := (List.range legal.length).map (runtime.gammas search.seed)
  (legal.zip noise).foldlM (search.mixNoise (pySum noise)) priors

def startPriors (root : Bool) (legal : List (Move F)) (priors : Dict String F) : Except PyError (Dict String F) :=
  if root && !legal.isEmpty && 0 < search.rootNoiseFraction then search.addNoise runtime legal priors else .ok priors

/-- `sorted(legal, key=lambda move: (-priors[move.id], move.id))`. -/
def ranked (legal : List (Move F)) (priors : Dict String F) : Except PyError (List (Move F)) := do
  let keyed ← legal.mapM fun move => do
    let prior ← orRaise (priors.get? move.id) (.other "KeyError" move.id)
    return ((-prior, move.id), move)
  return (keyed.insertionSort fun a b => !keyBefore b.1 a.1).map Prod.snd

/-- The candidates of a position, the likeliest first, and their priors. -/
def initialise (root : Bool) (position : Position F) : Except PyError (List (Move F) × Dict String F) := do
  let legal ← search.scenario.legalMoves position search.benched
  let priors ← search.startPriors runtime root legal (← search.model.priors runtime legal)
  return (← ranked legal priors, priors)

/-- What `_select_child` prefers by. -/
def preference (parentVisits : Nat) (child : SearchNode F) : F × String :=
  let exploration := search.cPuct * child.prior * runtime.sqrt ((max 1 parentVisits : Nat) : F) /
    ((1 + child.visits : Nat) : F)
  (child.qValue + exploration, child.id)

/-- The place of the selected child. -/
def selectChild (parentVisits : Nat) (children : List (SearchNode F)) : Except PyError Nat := do
  let best ← maximum (fun a b => keyBefore a.1 b.1)
    (children.map (search.preference runtime parentVisits)).zipIdx
  return best.2

/-- One turn of `_greedy_completion`: the best of the legal moves. -/
def greedyMove (legal : List (Move F)) : Except PyError (Move F) := do
  let priors ← search.model.priors runtime legal
  let keyed ← legal.mapM fun candidate => do
    let quality ← search.benchmark.predictedMoveQuality runtime candidate
    let prior ← orRaise (priors.get? candidate.id) (.other "KeyError" candidate.id)
    return ((0.78 * quality + 0.22 * prior, candidate.id), candidate)
  let best ← maximum (fun a b => keyBefore a.1 b.1) keyed
  return best.2

/-- `_greedy_completion` with the plies that are left; with none left there is no legal move. -/
def greedyCompletion : (plies : Nat) → Position F → Except PyError (Position F)
  | 0, current => .ok current
  | plies + 1, current =>
      if current.terminal then .ok current
      else do
        let legal ← search.scenario.legalMoves current search.benched
        if legal.isEmpty then return current
        let move ← search.greedyMove runtime legal
        let next ← search.scenario.apply runtime hashing current move search.benched
        greedyCompletion plies next

def evaluateLeaf (scores : Scores F H) (position : Position F) : Except PyError (F × Scores F H) := do
  let plies := search.scenario.phases.length - position.phase
  let completed ← search.greedyCompletion runtime hashing plies position
  if !completed.terminal then return (search.benchmark.violationReward, scores)
  let (card, scores) ← search.score runtime hashing scores completed
  return (search.model.blendValue runtime position card.reward, scores)

/-- What a simulation does at a node: it stops there with a value, or goes on to a child. -/
inductive Turn (F H : Type) : Type
  | stop (value : F) (node : SearchNode F) (scores : Scores F H)
  | descend (node : SearchNode F) (index : Nat)

/-- The first unexpanded move becomes a child. -/
def expand (node : SearchNode F) (move : Move F) (rest : List (Move F)) (scores : Scores F H) :
    Except PyError (Turn F H) := do
  let position ← search.scenario.apply runtime hashing node.position move search.benched
  let prior ← orRaise (node.candidatePriors.get? move.id) (.other "KeyError" move.id)
  let child := SearchNode.make position (some move) prior
  let (value, scores) ← search.evaluateLeaf runtime hashing scores position
  let node := { node with unexpanded := some rest, children := SearchNode.setChild (child.visit value) node.children }
  return .stop value node scores

/-- The unexpanded moves and the priors of a node, initialised if they are not there yet. -/
def prepare (node : SearchNode F) : Except PyError (List (Move F) × Dict String F) :=
  match node.unexpanded with
  | some moves => .ok (moves, node.candidatePriors)
  | none => search.initialise runtime false node.position

/-- A turn at a node that is not terminal. -/
def proceed (node : SearchNode F) (unexpanded : List (Move F)) (scores : Scores F H) : Except PyError (Turn F H) :=
  match unexpanded with
  | move :: rest => search.expand runtime hashing node move rest scores
  | [] =>
      if node.children.isEmpty then .ok (.stop search.benchmark.violationReward node scores)
      else do
        let index ← search.selectChild runtime node.visits node.children
        return .descend node index

def turn (node : SearchNode F) (scores : Scores F H) : Except PyError (Turn F H) :=
  if node.position.terminal then do
    let (card, scores) ← search.score runtime hashing scores node.position
    return .stop card.reward node scores
  else do
    let (unexpanded, candidatePriors) ← search.prepare runtime node
    search.proceed runtime hashing { node with unexpanded := some unexpanded, candidatePriors } unexpanded scores

mutual

/-- One simulation from a node down, with what it backs up. -/
def simulate : SearchNode F → Scores F H → Except PyError (F × SearchNode F × Scores F H)
  | ⟨position, move, prior, visits, valueSum, children, unexpanded, candidatePriors⟩, scores => do
      match ← search.turn runtime hashing
        ⟨position, move, prior, visits, valueSum, children, unexpanded, candidatePriors⟩ scores with
      | .stop value node scores => return (value, node.visit value, scores)
      | .descend node index =>
          let (value, children, scores) ← simulateAt children index scores
          return (value, { node with children }.visit value, scores)

/-- One simulation from the child of a place. -/
def simulateAt : List (SearchNode F) → Nat → Scores F H →
    Except PyError (F × List (SearchNode F) × Scores F H)
  | [], _, _ => .error (.other "IndexError" "list index out of range")
  | child :: rest, 0, scores => do
      let (value, child, scores) ← simulate child scores
      return (value, child :: rest, scores)
  | child :: rest, index + 1, scores => do
      let (value, rest, scores) ← simulateAt rest index scores
      return (value, child :: rest, scores)

end

def makeRoot : Except PyError (SearchNode F) := do
  let position := search.scenario.initialPosition
  let (unexpanded, candidatePriors) ← search.initialise runtime true position
  return { SearchNode.make position none 1 with unexpanded := some unexpanded, candidatePriors }

/-- The tree and the cache after some simulations. -/
def simulations : Nat → Except PyError (SearchNode F × Scores F H)
  | 0 => do return (← search.makeRoot runtime, ⟨Table.empty, 0⟩)
  | count + 1 => do
      let (root, scores) ← simulations count
      let (_, root, scores) ← search.simulate runtime hashing root scores
      return (root, scores)

end PUCTSearch

end AgentTree.Engine
