import AgentTree.Learning
import AgentTree.Positions
import AgentTree.SearchTree

/-!
What a search returns: the terminals of its tree, the one that is chosen among them, and the
receipts along its path.
-/

set_option linter.unusedSectionVars false

namespace AgentTree.Engine

open Outcome Relational

variable {F H : Type}

/-! Paths of a tree. -/

namespace SearchNode

/-- The nodes of a path down a tree. -/
inductive Path : SearchNode F → List (SearchNode F) → Prop
  | here (node : SearchNode F) : Path node [node]
  | step {node child : SearchNode F} {path : List (SearchNode F)} : child ∈ node.children → Path child path →
      Path node (node :: path)

theorem terminalPaths_eq (above : List (SearchNode F)) (node : SearchNode F) :
    terminalPaths above node =
      (if node.position.terminal then [above ++ [node]] else []) ++ terminalPathsOf (above ++ [node]) node.children := by
  cases node
  rfl

theorem mem_terminalPathsOf {above path : List (SearchNode F)} {children : List (SearchNode F)} :
    path ∈ terminalPathsOf above children ↔ ∃ child ∈ children, path ∈ terminalPaths above child := by
  induction children with
  | nil => simp [terminalPathsOf]
  | cons child rest ih => simp [terminalPathsOf, ih, or_comm]

/-- The paths that are found are those that end in a terminal. -/
theorem mem_terminalPaths {above path : List (SearchNode F)} {node : SearchNode F} :
    path ∈ terminalPaths above node ↔ ∃ below terminal, path = above ++ below ∧ node.Path below ∧
      below.getLast? = some terminal ∧ terminal.position.terminal = true := by
  induction node using SearchNode.induct generalizing above with
  | step node ih =>
    rw [terminalPaths_eq, List.mem_append, mem_terminalPathsOf]
    constructor
    · rintro (own | ⟨child, member, inside⟩)
      · split at own
        next terminal => exact ⟨[node], node, by simpa using own, .here node, rfl, terminal⟩
        next => simp at own
      · obtain ⟨below, terminal, rfl, there, last, stops⟩ := (ih child member).mp inside
        refine ⟨node :: below, terminal, by simp, .step member there, ?_, stops⟩
        rw [List.getLast?_cons, last]
        rfl
    · rintro ⟨below, terminal, rfl, there, last, stops⟩
      cases there with
      | here =>
          obtain rfl : node = terminal := by simpa using last
          simp [stops]
      | @step _ child rest member there =>
          right
          refine ⟨child, member, (ih child member).mpr ⟨rest, terminal, by simp, there, ?_, stops⟩⟩
          cases there <;> simpa using last

theorem Path.last {node : SearchNode F} {path : List (SearchNode F)} (there : node.Path path) :
    ∃ rest found, path = node :: rest ∧ path.getLast? = some found ∧ node.At (rest.filterMap SearchNode.move) found := by
  induction there with
  | here node => exact ⟨[], node, rfl, rfl, .here node⟩
  | @step node child path member _ ih =>
      obtain ⟨rest, found, rfl, last, there⟩ := ih
      refine ⟨child :: rest, found, rfl, by rw [List.getLast?_cons, last]; rfl, ?_⟩
      have moves : (child :: rest).filterMap SearchNode.move =
          child.move.toList ++ rest.filterMap SearchNode.move := by
        cases named : child.move <;> simp [named]
      rw [moves]
      exact .step member there

theorem At.path {node found : SearchNode F} {moves : List (Move F)} (there : node.At moves found) :
    ∃ path, node.Path path ∧ path.getLast? = some found := by
  induction there with
  | here node => exact ⟨[node], .here node, rfl⟩
  | step member _ ih =>
      obtain ⟨path, inside, last⟩ := ih
      exact ⟨_, .step member inside, by rw [List.getLast?_cons, last]; rfl⟩

theorem Path.everywhere {P : SearchNode F → Prop} {node : SearchNode F} {path : List (SearchNode F)}
    (each : node.Everywhere P) (there : node.Path path) : ∀ inner ∈ path, inner.Everywhere P := by
  induction there with
  | here => simpa using each
  | step member _ ih =>
      intro inner inside
      rcases List.mem_cons.mp inside with rfl | below
      · exact each
      · exact ih (each.children _ member) inner below

/-- A node of a path that is not its last has a child. -/
theorem Path.parents {node : SearchNode F} {path : List (SearchNode F)} (there : node.Path path) :
    ∀ inner ∈ path.dropLast, inner.children ≠ [] := by
  induction there with
  | here => simp
  | @step node child path member below ih =>
      intro inner inside
      obtain ⟨rest, _, rfl, _⟩ := below.last
      rw [List.dropLast_cons_of_ne_nil (List.cons_ne_nil _ _)] at inside
      rcases List.mem_cons.mp inside with rfl | deeper
      · exact List.ne_nil_of_mem member
      · exact ih inner deeper

end SearchNode

/-! What is chosen. -/

namespace PUCTSearch

variable [Zero F] [One F] [Add F] [Sub F] [Mul F] [Div F] [Neg F] [LT F] [LE F] [DecidableLT F] [DecidableLE F]
  [DecidableEq F] [OfScientific F] [NatCast F] [IntCast F] [DecidableEq H]
  {runtime : Runtime F} {hashing : Hashing F H} {search : PUCTSearch F H} {before after : Scores F H}

/-- The cache holds the scorecard of the very position. -/
theorem score_exact (scenario : search.scenario.Accepted) (injective : Function.Injective hashing.digest)
    {position : Position F} {card : ScoreCard F} (faithful : Faithful runtime hashing search before)
    (reached : Reached runtime hashing search position)
    (scored : search.score runtime hashing before position = .ok (card, after)) :
    Faithful runtime hashing search after ∧ search.benchmark.evaluate runtime hashing position = .ok card := by
  obtain ⟨kept, other, there, same, evaluated⟩ := score_ok faithful reached scored
  rw [Scenario.Reachable.determined scenario injective reached there same.symm]
  exact ⟨kept, evaluated⟩

/-- The abstention of the system is none of the reached positions. -/
theorem score_safeAbstain (scenario : search.scenario.Accepted) (injective : Function.Injective hashing.digest)
    {reason : String} {position : Position F} {card : ScoreCard F} (faithful : Faithful runtime hashing search before)
    (abstains : search.scenario.safeAbstain reason = .ok position)
    (scored : search.score runtime hashing before position = .ok (card, after)) :
    search.benchmark.evaluate runtime hashing position = .ok card := by
  unfold score at scored
  split at scored
  next cached found =>
    obtain ⟨other, there, same, _⟩ := faithful _ _ found
    have coherent := Scenario.Reachable.coherent scenario there
    simp only [Scenario.safeAbstain, bind_eq_ok, pure_eq_ok] at abstains
    obtain ⟨_, _, _, _, rfl⟩ := abstains
    obtain ⟨moves, early⟩ := Scenario.stateHash_moves injective same
    have length := congrArg List.length moves
    simp only [List.length_map, List.length_singleton] at length
    have zero : other.phase = 0 := early
    have counted := coherent.length
    omega
  next =>
    obtain ⟨evaluated, there, same⟩ := bind_eq_ok.mp scored
    obtain ⟨rfl, _⟩ := by simpa [pure, Except.pure] using same
    exact there

/-- A terminal that is found: the end of its path, with its own scorecard, which is feasible. -/
structure Found.Genuine (runtime : Runtime F) (hashing : Hashing F H) (search : PUCTSearch F H) (found : Found F) :
    Prop where
  last : found.path.getLast? = some found.terminal
  scored : search.benchmark.evaluate runtime hashing found.terminal.position = .ok found.score
  feasible : found.score.feasible = true

theorem feasibleTerminals_ok (scenario : search.scenario.Accepted) (injective : Function.Injective hashing.digest)
    {paths : List (List (SearchNode F))} {found : List (Found F)} (faithful : Faithful runtime hashing search before)
    (reached : ∀ path ∈ paths, ∀ terminal, path.getLast? = some terminal →
      Reached runtime hashing search terminal.position)
    (listed : search.feasibleTerminals runtime hashing paths before = .ok (found, after)) :
    Faithful runtime hashing search after ∧
      (∀ one ∈ found, one.path ∈ paths ∧ one.Genuine runtime hashing search) ∧
      ∀ path ∈ paths, ∀ terminal card, path.getLast? = some terminal →
        search.benchmark.evaluate runtime hashing terminal.position = .ok card → card.feasible = true →
        ⟨path, terminal, card⟩ ∈ found := by
  induction paths generalizing before found with
  | nil =>
      obtain ⟨rfl, rfl⟩ := by simpa [feasibleTerminals] using listed
      exact ⟨faithful, by simp, by simp⟩
  | cons path rest ih =>
      unfold feasibleTerminals at listed
      split at listed
      next none =>
        obtain ⟨kept, sound, complete⟩ := ih faithful (fun other there => reached other (List.mem_cons_of_mem _ there)) listed
        refine ⟨kept, fun one member => ?_, fun other there terminal card last => ?_⟩
        · exact ⟨List.mem_cons_of_mem _ (sound one member).1, (sound one member).2⟩
        · rcases List.mem_cons.mp there with rfl | inside
          · simp [none] at last
          · exact complete other inside terminal card last
      next terminal last =>
        obtain ⟨⟨card, middle⟩, scored, remaining⟩ := bind_eq_ok.mp listed
        obtain ⟨⟨others, final⟩, found', same⟩ := bind_eq_ok.mp remaining
        obtain ⟨rfl, rfl⟩ := by simpa [pure, Except.pure] using same
        obtain ⟨exact, evaluated⟩ := score_exact scenario injective faithful
          (reached path List.mem_cons_self terminal last) scored
        obtain ⟨kept, sound, complete⟩ := ih exact (fun other there => reached other (List.mem_cons_of_mem _ there)) found'
        refine ⟨kept, fun one member => ?_, fun other there end_ card' last' evaluated' feasible => ?_⟩
        · have inside : one = ⟨path, terminal, card⟩ ∧ card.feasible = true ∨ one ∈ others := by
            split at member
            next feasible =>
              rcases List.mem_cons.mp member with rfl | inside
              · exact .inl ⟨rfl, feasible⟩
              · exact .inr inside
            next => exact .inr member
          rcases inside with ⟨rfl, feasible⟩ | inside
          · exact ⟨List.mem_cons_self, last, evaluated, feasible⟩
          · exact ⟨List.mem_cons_of_mem _ (sound one inside).1, (sound one inside).2⟩
        · rcases List.mem_cons.mp there with rfl | inside
          · obtain rfl := Option.some.inj (last'.symm.trans last)
            obtain rfl := Except.ok.inj (evaluated'.symm.trans evaluated)
            rw [if_pos feasible]
            exact List.mem_cons_self
          · have listed := complete other inside end_ card' last' evaluated' feasible
            split
            next => exact List.mem_cons_of_mem _ listed
            next => exact listed

/-- What the result says of the choice. -/
structure Reports (runtime : Runtime F) (hashing : Hashing F H) (search : PUCTSearch F H) (choice : Choice F)
    (result : SearchResult F H) : Prop where
  terminalNode : result.terminalNode = choice.terminalNode
  trajectory : result.trajectory = choice.trajectory
  finalPosition : result.finalPosition = choice.finalPosition
  score : result.score = choice.score
  abstained : result.abstained = choice.abstained
  policyTargets : ∃ targets, choice.selected.mapM (search.policyTarget runtime hashing) = .ok targets ∧
    result.policyTargets = targets.filterMap fun target => target
  bindings : result.scenarioVersion = search.scenario.version ∧
    result.scenarioManifestHash = search.scenario.manifestHash hashing ∧
    result.benchmarkProfileHash = search.benchmark.profileHash hashing ∧
    result.modelVersion = search.model.modelVersion hashing
  receipt : result.learningReceiptHash = experienceDigest hashing result.scenarioManifestHash
    result.benchmarkProfileHash result.modelVersion result.trajectory result.finalPosition result.score
    result.policyTargets result.abstained

theorem run_ok {count : Int} {result : SearchResult F H} (ran : search.run runtime hashing count = .ok result) :
    0 < count ∧ ∃ scores found middle choice last,
      search.simulations runtime hashing count.toNat = .ok (result.root, scores) ∧
      search.feasibleTerminals runtime hashing (SearchNode.terminalPaths [] result.root) scores = .ok (found, middle) ∧
      search.choose runtime hashing found middle = .ok (choice, last) ∧
      Reports runtime hashing search choice result := by
  simp only [run, conclude, bind_eq_ok, ensure_eq_ok, decide_eq_true_eq, pure_eq_ok] at ran
  obtain ⟨_, positive, ⟨root, scores⟩, simulated, ⟨found, middle⟩, listed, ⟨choice, last⟩, chosen, targets, receipts,
    _, _, rfl⟩ := ran
  exact ⟨positive, scores, found, middle, choice, last, simulated, listed, chosen,
    ⟨rfl, rfl, rfl, rfl, rfl, ⟨targets, receipts, rfl⟩, ⟨rfl, rfl, rfl, rfl⟩, rfl⟩⟩

/-- The choice: the system's abstention if nothing is found, else a greatest of what is found. -/
theorem choose_ok {found : List (Found F)} {choice : Choice F}
    (chosen : search.choose runtime hashing found before = .ok (choice, after)) :
    (found = [] ∧ ∃ position card,
      search.scenario.safeAbstain Scenario.systemAbstainText = .ok position ∧
      search.score runtime hashing before position = .ok (card, after) ∧
      choice = ⟨none, position.trajectory, position, card, true, []⟩) ∨
    (∃ best, maximum foundBefore found = .ok best ∧
      choice = ⟨some best.terminal, best.moves, best.terminal.position, best.score,
        best.terminal.position.terminalStatus = some .abstained, best.path.dropLast⟩) := by
  unfold choose at chosen
  split at chosen
  next =>
    obtain ⟨position, abstains, rest⟩ := bind_eq_ok.mp chosen
    obtain ⟨⟨card, scores⟩, scored, same⟩ := bind_eq_ok.mp rest
    obtain ⟨rfl, rfl⟩ := by simpa [pure, Except.pure] using same
    exact .inl ⟨rfl, position, card, abstains, scored, rfl⟩
  next =>
    obtain ⟨best, greatest, same⟩ := bind_eq_ok.mp chosen
    obtain ⟨rfl, rfl⟩ := by simpa [pure, Except.pure] using same
    exact .inr ⟨best, greatest, rfl⟩

end PUCTSearch

end AgentTree.Engine
