import AgentTree.SearchOutcomes

/-!
The cache of `PUCTSearch._score`.  The hash of a position that a search scores determines the position, so
that every call returns what the suite says of the very position that is asked for.
-/

set_option linter.unusedSectionVars false

namespace AgentTree.Engine

open Outcome Relational

section Caching

variable {F H : Type} [Zero F] [One F] [Add F] [Sub F] [Mul F] [Div F] [Neg F] [LT F] [LE F] [DecidableLT F]
  [DecidableLE F] [DecidableEq F] [OfScientific F] [NatCast F] [IntCast F] [DecidableEq H]
  {runtime : Runtime F} {hashing : Hashing F H}

namespace PUCTSearch

variable {search : PUCTSearch F H} {before after : Scores F H} {position other : Position F}

/-- What a search scores: a position that moves lead to, whatever agents are benched, or the abstention of
the system. -/
inductive Scorable (runtime : Runtime F) (hashing : Hashing F H) (search : PUCTSearch F H) (position : Position F) : Prop
  | reached (roster : List String → Prop) : search.scenario.Reachable runtime hashing roster position →
      Scorable runtime hashing search position
  | fallback (reason : String) : search.scenario.safeAbstain reason = .ok position →
      Scorable runtime hashing search position

theorem reached_ne_fallback (accepted : search.scenario.Accepted) (injective : Function.Injective hashing.digest)
    {roster : List String → Prop} {reason : String}
    (reached : search.scenario.Reachable runtime hashing roster position)
    (abstains : search.scenario.safeAbstain reason = .ok other) :
    position.stateHash hashing ≠ other.stateHash hashing := by
  intro same
  obtain ⟨moves, phase⟩ := Scenario.stateHash_moves injective same
  have coherent := reached.coherent accepted
  simp only [Scenario.safeAbstain, bind_eq_ok, pure_eq_ok] at abstains
  obtain ⟨_, _, _, _, rfl⟩ := abstains
  have length := congrArg List.length moves
  simp only [List.length_map, List.length_singleton] at length
  have zero : position.phase = 0 := phase
  have counted := coherent.length
  omega

theorem fallback_determined (injective : Function.Injective hashing.digest) {reason another : String}
    (abstains : search.scenario.safeAbstain reason = .ok position)
    (again : search.scenario.safeAbstain another = .ok other)
    (same : position.stateHash hashing = other.stateHash hashing) : position = other := by
  obtain ⟨moves, _⟩ := Scenario.stateHash_moves injective same
  have texts : reason = another := by
    simp only [Scenario.safeAbstain, bind_eq_ok, pure_eq_ok] at abstains again
    obtain ⟨_, _, _, _, rfl⟩ := abstains
    obtain ⟨_, _, _, _, rfl⟩ := again
    simp only [List.map_cons, List.map_nil, List.cons.injEq, and_true] at moves
    have payload := injective moves
    simp only [Value.obj.injEq, List.cons.injEq, Prod.mk.injEq, Value.str.injEq, true_and,
      Scenario.systemAbstain] at payload
    exact payload.2.1
  subst texts
  exact Except.ok.inj (abstains.symm.trans again)

/-- No two positions that are scored have one hash. -/
theorem Scorable.determined (accepted : search.scenario.Accepted) (injective : Function.Injective hashing.digest)
    (scorable : Scorable runtime hashing search position) (another : Scorable runtime hashing search other)
    (same : position.stateHash hashing = other.stateHash hashing) : position = other := by
  cases scorable with
  | reached roster reached =>
      cases another with
      | reached _ elsewhere => exact reached.determined accepted injective elsewhere same
      | fallback _ abstains => exact absurd same (reached_ne_fallback accepted injective reached abstains)
  | fallback reason abstains =>
      cases another with
      | reached _ elsewhere => exact absurd same.symm (reached_ne_fallback accepted injective elsewhere abstains)
      | fallback _ again => exact fallback_determined injective abstains again same

/-- Every scorecard in the cache is that of a position that was scored, under its hash. -/
def Cached (runtime : Runtime F) (hashing : Hashing F H) (search : PUCTSearch F H) (scores : Scores F H) : Prop :=
  ∀ hash card, scores.cards.get? hash = some card → ∃ position, Scorable runtime hashing search position ∧
    position.stateHash hashing = hash ∧ search.benchmark.evaluate runtime hashing position = .ok card

theorem cached_empty : Cached runtime hashing search ⟨Table.empty, 0⟩ := by
  intro hash card found
  simp [Dict.get?, Table.find?, Table.empty] at found

/-- One call: what it returns, and what it leaves in the cache. -/
theorem score_cached (accepted : search.scenario.Accepted) (injective : Function.Injective hashing.digest)
    (cached : Cached runtime hashing search before) (scorable : Scorable runtime hashing search position) :
    (search.score runtime hashing before position).map Prod.fst = search.benchmark.evaluate runtime hashing position ∧
      ∀ card after, search.score runtime hashing before position = .ok (card, after) →
        Cached runtime hashing search after := by
  unfold score
  split
  next card found =>
    obtain ⟨other, another, same, evaluated⟩ := cached _ _ found
    obtain rfl := scorable.determined accepted injective another same.symm
    refine ⟨evaluated.symm, fun again after same => ?_⟩
    obtain ⟨rfl, rfl⟩ := Prod.mk.inj (Except.ok.inj same)
    exact cached
  next =>
    cases evaluated : search.benchmark.evaluate runtime hashing position with
    | error error => exact ⟨rfl, fun _ _ same => by simp [bind, Except.bind] at same⟩
    | ok card =>
        refine ⟨rfl, fun again after same => ?_⟩
        obtain ⟨rfl, rfl⟩ := Prod.mk.inj (Except.ok.inj same)
        intro hash other found
        rw [Dict.get?_set] at found
        split at found
        next same => exact ⟨position, scorable, same.symm, Option.some.inj found ▸ evaluated⟩
        next => exact cached hash other found

/-- The outcomes of the calls of `_score`, one after the other; a call that raises leaves the cache as it is. -/
def scoreAll (runtime : Runtime F) (hashing : Hashing F H) (search : PUCTSearch F H) :
    List (Position F) → Scores F H → List (Except PyError (ScoreCard F))
  | [], _ => []
  | position :: rest, scores =>
      match search.score runtime hashing scores position with
      | .ok (card, after) => .ok card :: scoreAll runtime hashing search rest after
      | .error error => .error error :: scoreAll runtime hashing search rest scores

theorem scoreAll_eq (accepted : search.scenario.Accepted) (injective : Function.Injective hashing.digest)
    {positions : List (Position F)} (cached : Cached runtime hashing search before)
    (scorable : ∀ position ∈ positions, Scorable runtime hashing search position) :
    scoreAll runtime hashing search positions before =
      positions.map (search.benchmark.evaluate runtime hashing) := by
  induction positions generalizing before with
  | nil => rfl
  | cons position rest ih =>
      obtain ⟨first, later⟩ := List.forall_mem_cons.mp scorable
      obtain ⟨returned, kept⟩ := score_cached accepted injective cached first
      rw [scoreAll, List.map_cons, ← returned]
      cases ran : search.score runtime hashing before position with
      | error error => exact congrArg (Except.error error :: ·) (ih cached later)
      | ok result => exact congrArg (Except.ok result.1 :: ·) (ih (kept _ _ ran) later)

end PUCTSearch

namespace Scenario

variable {scenario : Scenario F}

/-- A position recounts its trajectory. -/
structure Recounts (scenario : Scenario F) (position : Position F) : Prop where
  length : position.phase = position.trajectory.length
  bound : position.phase ≤ 4
  moves : ∀ (index : Nat) (move : Move F), position.trajectory[index]? = some move →
    ∃ phase, scenario.phases[index]? = some phase ∧ move ∈ phase
  terminal : position.terminal = true ↔ position.phase = 4
  questions : position.openQuestions = (opened position.trajectory).filter (· ∉ resolved position.trajectory) ∧
    position.openQuestions.Nodup
  evidence : position.evidenceRefs = (position.trajectory.flatMap Move.evidenceRefs).eraseDups ∧
    position.evidenceRefs.Nodup
  violations : position.violations = (position.trajectory.flatMap Move.violations).eraseDups ∧
    position.violations.Nodup
  cost : position.spentCost = (position.trajectory.map Move.cost).foldl (· + ·) 0

theorem Reachable.recounts (accepted : scenario.Accepted) {roster : List String → Prop} {position : Position F}
    (reached : scenario.Reachable runtime hashing roster position) : Recounts scenario position := by
  have coherent := reached.coherent accepted
  have told := reached.told accepted
  constructor
  · exact coherent.length.symm
  · exact coherent.bound
  · exact coherent.moves
  · exact coherent.terminal
  · exact told.questions.questions
  · rw [told.evidence]
    exact ⟨fromKeys_eq _, fromKeys_nodup _⟩
  · rw [told.violations]
    exact ⟨fromKeys_eq _, fromKeys_nodup _⟩
  · exact told.cost

/-- Reached positions, whatever agents are benched at each step, recount their trajectories and are told apart
by their hashes; and the cache of a search answers every call as the suite would. -/
theorem positions_coherent (runtime : Runtime F) (hashing : Hashing F H) (scenario : Scenario F)
    (built : scenario.postInit hashing = .ok ()) (injective : Function.Injective hashing.digest) :
    (∀ position, scenario.Reachable runtime hashing (fun _ => True) position → Recounts scenario position) ∧
    (∀ position other, scenario.Reachable runtime hashing (fun _ => True) position →
      scenario.Reachable runtime hashing (fun _ => True) other →
      position.stateHash hashing = other.stateHash hashing → position = other) ∧
    ∀ search : PUCTSearch F H, search.scenario = scenario → ∀ positions : List (Position F),
      (∀ position ∈ positions, PUCTSearch.Scorable runtime hashing search position) →
      PUCTSearch.scoreAll runtime hashing search positions ⟨Table.empty, 0⟩ =
        positions.map (search.benchmark.evaluate runtime hashing) := by
  have accepted := postInit_accepted built
  refine ⟨fun _ => Reachable.recounts accepted, fun _ _ => Reachable.determined accepted injective, ?_⟩
  rintro search rfl positions scorable
  exact PUCTSearch.scoreAll_eq accepted injective PUCTSearch.cached_empty scorable

end Scenario

end Caching

open Sample in
theorem Scenario.positions_coherent_sample : ∃ position, asked none = .ok position ∧
    Recounts (scenario none) position ∧
    PUCTSearch.scoreAll runtime (spelled ℚ) search [position, (scenario none).initialPosition, position] ⟨Table.empty, 0⟩ =
      [position, (scenario none).initialPosition, position].map (search.benchmark.evaluate runtime (spelled ℚ)) := by
  have returned : (asked none).toOption.isSome = true := by decide +kernel
  cases found : asked none with
  | error error => simp [found, Except.toOption] at returned
  | ok position =>
      obtain ⟨recounts, _, scores⟩ := positions_coherent runtime (spelled ℚ) (scenario none) (by decide +kernel)
        spelled_injective
      have reached : (scenario none).Reachable runtime (spelled ℚ) (fun _ => True) position :=
        reachable_replay trivial .initial found
      refine ⟨position, rfl, recounts position reached, scores search rfl _ ?_⟩
      simp only [List.forall_mem_cons]
      exact ⟨.reached _ reached, .reached (fun _ => True) .initial, .reached _ reached, by simp⟩

end AgentTree.Engine
