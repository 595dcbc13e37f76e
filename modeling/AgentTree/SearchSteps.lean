import AgentTree.Learning
import AgentTree.Transitions

/-!
What one simulation does to the tree, as a relation with a case for each way in which it can
stop or go on, and the positions that the search comes upon.
-/

namespace AgentTree.Engine

open Outcome Relational

variable {F H : Type}

namespace SearchNode

/-- Induction over a tree. -/
theorem induct {P : SearchNode F → Prop} (step : ∀ node, (∀ child ∈ node.children, P child) → P node)
    (node : SearchNode F) : P node := by
  refine SearchNode.rec (motive_1 := P) (motive_2 := fun children => ∀ child ∈ children, P child) ?_ ?_ ?_ node
  · intro position move prior visits valueSum children unexpanded candidatePriors each
    exact step _ each
  · simp
  · intro child rest first others other member
    rcases List.mem_cons.mp member with rfl | member
    · exact first
    · exact others other member

/-- A condition on every node of a tree. -/
inductive Everywhere (P : SearchNode F → Prop) : SearchNode F → Prop
  | intro {node : SearchNode F} : P node → (∀ child ∈ node.children, Everywhere P child) → Everywhere P node

theorem Everywhere.here {P : SearchNode F → Prop} {node : SearchNode F} (each : Everywhere P node) : P node := by
  cases each with
  | intro own _ => exact own

theorem Everywhere.children {P : SearchNode F → Prop} {node : SearchNode F} (each : Everywhere P node) :
    ∀ child ∈ node.children, Everywhere P child := by
  cases each with
  | intro _ below => exact below

theorem Everywhere.mono {P Q : SearchNode F → Prop} (weaker : ∀ node, P node → Q node) {node : SearchNode F}
    (each : Everywhere P node) : Everywhere Q node := by
  induction each with
  | intro own _ ih => exact .intro (weaker _ own) ih

theorem setChild_fresh {child : SearchNode F} {children : List (SearchNode F)}
    (fresh : child.id ∉ children.map SearchNode.id) : setChild child children = children ++ [child] := by
  induction children with
  | nil => rfl
  | cons other rest ih =>
      simp only [List.map_cons, List.mem_cons, not_or] at fresh
      rw [setChild, if_neg (Ne.symm fresh.1), ih fresh.2]
      rfl

theorem mem_setChild {child other : SearchNode F} {children : List (SearchNode F)}
    (member : other ∈ setChild child children) : other = child ∨ other ∈ children := by
  induction children with
  | nil => simpa [setChild] using member
  | cons first rest ih =>
      unfold setChild at member
      split at member
      next =>
        rcases List.mem_cons.mp member with rfl | there
        · exact .inl rfl
        · exact .inr (List.mem_cons_of_mem _ there)
      next =>
        rcases List.mem_cons.mp member with rfl | there
        · exact .inr List.mem_cons_self
        · exact (ih there).imp_right (List.mem_cons_of_mem _)

end SearchNode

namespace PUCTSearch

variable [Zero F] [One F] [Add F] [Sub F] [Mul F] [Div F] [Neg F] [LT F] [LE F] [DecidableLT F] [DecidableLE F]
  [DecidableEq F] [OfScientific F] [NatCast F] [IntCast F] [DecidableEq H]
  {runtime : Runtime F} {hashing : Hashing F H} {search : PUCTSearch F H}

/-- One simulation: the scores before and after it, the value that it backs up, and the node before and after. -/
inductive Simulated (runtime : Runtime F) (hashing : Hashing F H) (search : PUCTSearch F H) (before : Scores F H)
    (value : F) (after : Scores F H) : SearchNode F → SearchNode F → Prop
  | terminal {node : SearchNode F} {card : ScoreCard F} : node.position.terminal = true →
      search.score runtime hashing before node.position = .ok (card, after) → value = card.reward →
      Simulated runtime hashing search before value after node (node.visit value)
  | expanded {node : SearchNode F} {move : Move F} {rest : List (Move F)} {priors : Dict String F}
      {position : Position F} {prior : F} : node.position.terminal = false →
      search.prepare runtime node = .ok (move :: rest, priors) →
      search.scenario.apply runtime hashing node.position move search.benched = .ok position →
      priors.get? move.id = some prior →
      search.evaluateLeaf runtime hashing before position = .ok (value, after) →
      Simulated runtime hashing search before value after node ({ node with
        unexpanded := some rest
        candidatePriors := priors
        children := SearchNode.setChild ((SearchNode.make position (some move) prior).visit value) node.children
        }.visit value)
  | dead {node : SearchNode F} {priors : Dict String F} : node.position.terminal = false →
      search.prepare runtime node = .ok ([], priors) → node.children = [] → value = search.benchmark.violationReward →
      after = before →
      Simulated runtime hashing search before value after node ({ node with
        unexpanded := some []
        candidatePriors := priors
        }.visit value)
  | descended {node child next : SearchNode F} {priors : Dict String F} {index : Nat} :
      node.position.terminal = false → search.prepare runtime node = .ok ([], priors) →
      search.selectChild runtime node.visits node.children = .ok index → node.children[index]? = some child →
      Simulated runtime hashing search before value after child next →
      Simulated runtime hashing search before value after node ({ node with
        unexpanded := some []
        candidatePriors := priors
        children := node.children.set index next
        }.visit value)

variable {before after : Scores F H} {value : F} {node next : SearchNode F}

theorem simulateAt_ok {children others : List (SearchNode F)} {index : Nat}
    (simulated : search.simulateAt runtime hashing children index before = .ok (value, others, after)) :
    ∃ child next, children[index]? = some child ∧
      search.simulate runtime hashing child before = .ok (value, next, after) ∧ others = children.set index next := by
  induction children generalizing index others with
  | nil => simp [simulateAt] at simulated
  | cons child rest ih =>
      cases index with
      | zero =>
          simp only [simulateAt, bind_eq_ok, pure_eq_ok] at simulated
          obtain ⟨⟨result, next, scores⟩, found, same⟩ := simulated
          obtain ⟨rfl, rfl, rfl⟩ : result = value ∧ next :: rest = others ∧ scores = after := by simpa using same
          exact ⟨child, next, rfl, found, rfl⟩
      | succ index =>
          simp only [simulateAt, bind_eq_ok, pure_eq_ok] at simulated
          obtain ⟨⟨result, remaining, scores⟩, found, same⟩ := simulated
          obtain ⟨rfl, rfl, rfl⟩ : result = value ∧ child :: remaining = others ∧ scores = after := by simpa using same
          obtain ⟨other, next, there, ran, rfl⟩ := ih found
          exact ⟨other, next, there, ran, rfl⟩

theorem simulate_eq (node : SearchNode F) (scores : Scores F H) :
    search.simulate runtime hashing node scores = (search.turn runtime hashing node scores >>= fun turn =>
      match turn with
      | .stop value node scores => .ok (value, node.visit value, scores)
      | .descend prepared index => do
          let (value, children, scores) ← search.simulateAt runtime hashing node.children index scores
          return (value, { prepared with children }.visit value, scores)) := by
  cases node
  rfl

theorem simulate_ok (simulated : search.simulate runtime hashing node before = .ok (value, next, after)) :
    Simulated runtime hashing search before value after node next := by
  induction node using SearchNode.induct generalizing next with
  | step node ih =>
    rw [simulate_eq, bind_eq_ok] at simulated
    obtain ⟨turn, turned, acted⟩ := simulated
    unfold PUCTSearch.turn at turned
    by_cases terminal : node.position.terminal = true
    · rw [if_pos terminal] at turned
      obtain ⟨⟨card, scores⟩, scored, same⟩ := bind_eq_ok.mp turned
      obtain rfl := pure_eq_ok.mp same
      obtain ⟨rfl, rfl, rfl⟩ : card.reward = value ∧ node.visit card.reward = next ∧ scores = after := by
        simpa using acted
      exact .terminal terminal scored rfl
    · rw [if_neg terminal] at turned
      replace terminal : node.position.terminal = false := by simpa using terminal
      obtain ⟨⟨unexpanded, priors⟩, prepared, proceeds⟩ := bind_eq_ok.mp turned
      cases unexpanded with
      | cons move rest =>
          simp only [proceed, expand, bind_eq_ok, orRaise_eq_ok, pure_eq_ok] at proceeds
          obtain ⟨position, applied, prior, found, ⟨result, scores⟩, evaluated, rfl⟩ := proceeds
          obtain ⟨rfl, rfl, rfl⟩ := by simpa using acted
          exact .expanded terminal prepared applied found evaluated
      | nil =>
          by_cases empty : node.children = []
          · simp only [proceed, empty, List.isEmpty_nil, if_true] at proceeds
            obtain rfl := Except.ok.inj proceeds
            obtain ⟨rfl, rfl, rfl⟩ := by simpa using acted
            have dead : Simulated runtime hashing search before _ before node _ :=
              .dead terminal prepared empty rfl rfl
            exact empty ▸ dead
          · have filled : node.children.isEmpty = false := by simpa using empty
            simp only [proceed, filled, Bool.false_eq_true, if_false, bind_eq_ok, pure_eq_ok] at proceeds
            obtain ⟨index, selected, rfl⟩ := proceeds
            simp only [bind_eq_ok, pure_eq_ok] at acted
            obtain ⟨⟨result, children, scores⟩, ran, same⟩ := acted
            obtain ⟨rfl, rfl, rfl⟩ := by simpa using same
            obtain ⟨child, changed, there, simulated, rfl⟩ := simulateAt_ok ran
            exact .descended terminal prepared selected there (ih child (List.mem_of_getElem? there) simulated)

/-! The positions that the search comes upon, and the cache of their scorecards. -/

/-- A position that moves of the scenario lead to, past the benched agents. -/
def Reached (runtime : Runtime F) (hashing : Hashing F H) (search : PUCTSearch F H) (position : Position F) : Prop :=
  search.scenario.Reachable runtime hashing (· = search.benched) position

omit [Neg F] [IntCast F] in
theorem greedyCompletion_reached {plies : Nat} {current completed : Position F}
    (reached : Reached runtime hashing search current)
    (done : search.greedyCompletion runtime hashing plies current = .ok completed) :
    Reached runtime hashing search completed := by
  induction plies generalizing current with
  | zero => exact Except.ok.inj done ▸ reached
  | succ plies ih =>
      unfold greedyCompletion at done
      split at done
      next => exact Except.ok.inj done ▸ reached
      next =>
        obtain ⟨legal, _, plays⟩ := bind_eq_ok.mp done
        split at plays
        next => exact pure_eq_ok.mp plays ▸ reached
        next =>
          obtain ⟨move, _, moved⟩ := bind_eq_ok.mp plays
          obtain ⟨next, applied, later⟩ := bind_eq_ok.mp moved
          exact ih (reached.step rfl applied) later

/-- Every scorecard in the cache is that of a position with its hash. -/
def Faithful (runtime : Runtime F) (hashing : Hashing F H) (search : PUCTSearch F H) (scores : Scores F H) : Prop :=
  ∀ hash card, scores.cards.get? hash = some card → ∃ position, Reached runtime hashing search position ∧
    position.stateHash hashing = hash ∧ search.benchmark.evaluate runtime hashing position = .ok card

omit [LE F] [DecidableLE F] [DecidableEq F] [NatCast F] [IntCast F] in
theorem score_ok {position : Position F} {card : ScoreCard F} (faithful : Faithful runtime hashing search before)
    (reached : Reached runtime hashing search position)
    (scored : search.score runtime hashing before position = .ok (card, after)) :
    Faithful runtime hashing search after ∧ ∃ other, Reached runtime hashing search other ∧
      other.stateHash hashing = position.stateHash hashing ∧
      search.benchmark.evaluate runtime hashing other = .ok card := by
  unfold score at scored
  split at scored
  next cached found =>
    obtain ⟨rfl, rfl⟩ := by simpa using scored
    exact ⟨faithful, faithful _ _ found⟩
  next =>
    obtain ⟨evaluated, scores, same⟩ := bind_eq_ok.mp scored
    obtain ⟨rfl, rfl⟩ := by simpa [pure, Except.pure] using same
    refine ⟨fun hash other found => ?_, position, reached, rfl, scores⟩
    rw [Dict.get?_set] at found
    split at found
    next same => exact ⟨position, reached, same.symm, Option.some.inj found ▸ scores⟩
    next => exact faithful hash other found

/-- A leaf is worth the violation reward, or its estimate is blended with the scorecard of a completion. -/
theorem evaluateLeaf_ok {position : Position F} (faithful : Faithful runtime hashing search before)
    (reached : Reached runtime hashing search position)
    (evaluated : search.evaluateLeaf runtime hashing before position = .ok (value, after)) :
    Faithful runtime hashing search after ∧ (value = search.benchmark.violationReward ∨
      ∃ other card, Reached runtime hashing search other ∧
        search.benchmark.evaluate runtime hashing other = .ok card ∧
        value = search.model.blendValue runtime position card.reward) := by
  obtain ⟨completed, done, rest⟩ := bind_eq_ok.mp evaluated
  split at rest
  next =>
    obtain ⟨rfl, rfl⟩ := by simpa [pure, Except.pure] using rest
    exact ⟨faithful, .inl rfl⟩
  next =>
    obtain ⟨⟨card, scores⟩, scored, same⟩ := bind_eq_ok.mp rest
    obtain ⟨rfl, rfl⟩ := by simpa [pure, Except.pure] using same
    obtain ⟨kept, other, there, _, found⟩ := score_ok faithful (greedyCompletion_reached reached done) scored
    exact ⟨kept, .inr ⟨other, card, there, found, rfl⟩⟩

end PUCTSearch

end AgentTree.Engine
