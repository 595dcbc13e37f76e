import AgentTree.Transitions
import Mathlib.Data.List.Induction

/-!
What a reached position says of its trajectory.  Every other field is a function of the trajectory, whatever
agents were benched at each step, so that the hash of a position tells it from every other.
-/

set_option linter.unusedSectionVars false

namespace AgentTree.Engine

open Outcome Relational

variable {F H : Type}

/-! The first of each. -/

theorem fromKeys_append (values : List String) (value : String) :
    fromKeys (values ++ [value]) = if value ∈ fromKeys values then fromKeys values else fromKeys values ++ [value] := by
  rw [fromKeys, List.foldl_append]
  rfl

theorem fromKeys_eq (values : List String) : fromKeys values = values.eraseDups := by
  induction values using List.reverseRecOn with
  | nil => rfl
  | append_singleton rest value ih =>
      rw [fromKeys_append, ih, List.eraseDups_append]
      by_cases seen : value ∈ rest
      · simp [seen, List.removeAll]
      · simp [seen, List.removeAll, List.eraseDups_cons]

theorem fromKeys_nodup (values : List String) : (fromKeys values).Nodup := by
  induction values using List.reverseRecOn with
  | nil => exact List.nodup_nil
  | append_singleton rest value ih =>
      rw [fromKeys_append]
      split
      · exact ih
      · rw [List.nodup_append]
        refine ⟨ih, List.nodup_singleton value, fun first seen second last same => ?_⟩
        obtain rfl := List.mem_singleton.mp last
        exact absurd (same ▸ seen) ‹_›

/-- What was kept before is kept again. -/
theorem fromKeys_fromKeys (values more : List String) : fromKeys (fromKeys values ++ more) = fromKeys (values ++ more) := by
  induction more using List.reverseRecOn with
  | nil =>
      rw [List.append_nil, List.append_nil]
      induction values using List.reverseRecOn with
      | nil => rfl
      | append_singleton rest value ih =>
          rw [fromKeys_append]
          split
          next => exact ih
          next fresh => rw [fromKeys_append, ih, if_neg fresh]
  | append_singleton rest value ih => rw [← List.append_assoc, ← List.append_assoc, fromKeys_append, fromKeys_append, ih]

namespace Scenario

/-! The questions of a trajectory. -/

/-- A question that is there and is not empty. -/
def named (question : Option String) : Option String := question.filter (· ≠ "")

def opened (moves : List (Move F)) : List String := moves.filterMap fun move => named move.opensQuestion

def resolved (moves : List (Move F)) : List String := moves.filterMap fun move => named move.resolvesQuestion

theorem named_untruthy {question : Option String} (untruthy : ¬truthy question) : named question = none := by
  cases question with
  | none => rfl
  | some text => simpa [truthy, named, Option.filter] using untruthy

theorem named_truthy {question : Option String} (filled : truthy question) : named question = question := by
  cases question with
  | none => rfl
  | some text => simpa [truthy, named, Option.filter] using filled

theorem opened_append (moves : List (Move F)) (move : Move F) :
    opened (moves ++ [move]) = opened moves ++ (named move.opensQuestion).toList := by
  rw [opened, List.filterMap_append]
  cases name : named move.opensQuestion <;> simp [opened, name]

theorem resolved_append (moves : List (Move F)) (move : Move F) :
    resolved (moves ++ [move]) = resolved moves ++ (named move.resolvesQuestion).toList := by
  rw [resolved, List.filterMap_append]
  cases name : named move.resolvesQuestion <;> simp [resolved, name]

/-- The questions that are open at each phase: none, the one that was asked, and what is open once it is answered. -/
inductive Asked (moves : List (Move F)) (openQuestions : List String) (phase : Nat) : Prop
  | unasked : phase ≤ 1 → opened moves = [] → resolved moves = [] → openQuestions = [] → Asked moves openQuestions phase
  | asked (question : String) : phase = 2 → opened moves = [question] → resolved moves = [] →
      openQuestions = [question] → Asked moves openQuestions phase
  | answered (question : String) : 3 ≤ phase → opened moves = question :: openQuestions →
      resolved moves = [question] → (question :: openQuestions).Nodup → Asked moves openQuestions phase

/-- Open are those that were opened and not resolved. -/
theorem Asked.questions {moves : List (Move F)} {openQuestions : List String} {phase : Nat}
    (asked : Asked moves openQuestions phase) :
    openQuestions = (opened moves).filter (· ∉ resolved moves) ∧ openQuestions.Nodup := by
  cases asked with
  | unasked _ opens _ none => simp [opens, none]
  | asked question _ opens resolves one => simp [opens, resolves, one]
  | answered question _ opens resolves distinct =>
      obtain ⟨apart, rest⟩ := List.nodup_cons.mp distinct
      refine ⟨?_, rest⟩
      rw [opens, resolves, List.filter_cons_of_neg (by simp)]
      refine (List.filter_eq_self.mpr fun other member => ?_).symm
      have differs : other ≠ question := fun same => apart (same ▸ member)
      simpa using differs

section Moves

variable {runtime : Runtime F} {hashing : Hashing F H} {scenario : Scenario F} {position : Position F}
  {canonical : Move F} {benched : List String} {legal : List (Move F)}

/-- A move without questions. -/
theorem Asked.unlinked (asked : Asked position.trajectory position.openQuestions position.phase) {openQuestions : List String}
    (opens : ¬truthy canonical.opensQuestion) (resolves : ¬truthy canonical.resolvesQuestion)
    (apart : position.phase = 0 ∨ position.phase = 3)
    (booked : questionsAfter runtime position.openQuestions canonical = .ok openQuestions) :
    Asked (position.trajectory ++ [canonical]) openQuestions (position.phase + 1) := by
  rw [questionsAfter_unlinked opens resolves] at booked
  obtain rfl := Except.ok.inj booked
  have openedSame := opened_append position.trajectory canonical
  have resolvedSame := resolved_append position.trajectory canonical
  rw [named_untruthy opens, Option.toList_none, List.append_nil] at openedSame
  rw [named_untruthy resolves, Option.toList_none, List.append_nil] at resolvedSame
  cases asked with
  | unasked early none unresolved empty =>
      exact .unasked (by omega) (openedSame.trans none) (resolvedSame.trans unresolved) empty
  | asked question second => omega
  | answered question later one answered distinct =>
      exact .answered question (by omega) (openedSame.trans one) (resolvedSame.trans answered) distinct

/-- An answer resolves the question that was asked, and may open another. -/
theorem questionsAfter_answer {question : String} {openQuestions : List String}
    (resolves : canonical.resolvesQuestion = some question) (filled : question ≠ "")
    (booked : questionsAfter runtime [question] canonical = .ok openQuestions) :
    (named canonical.opensQuestion).toList = openQuestions ∧ (question :: openQuestions).Nodup := by
  cases opening : canonical.opensQuestion with
  | none =>
      obtain rfl : [] = openQuestions := by
        simpa [questionsAfter, resolves, opening, filled, bind, Except.bind] using booked
      simp [named]
  | some other =>
      by_cases empty : other = ""
      · obtain rfl : [] = openQuestions := by
          simpa [questionsAfter, resolves, opening, empty, filled, bind, Except.bind] using booked
        simp [named, empty]
      · by_cases already : other = question
        · simp [questionsAfter, opening, filled, already, bind, Except.bind] at booked
        · obtain rfl : [other] = openQuestions := by
            simpa [questionsAfter, resolves, opening, empty, filled, already, bind, Except.bind] using booked
          have differs : question ≠ other := fun same => already same.symm
          simp [named, empty, differs]

theorem Asked.advance (accepted : scenario.Accepted)
    (asked : Asked position.trajectory position.openQuestions position.phase)
    (listed : scenario.legalMoves position benched = .ok legal) (member : canonical ∈ legal)
    {openQuestions : List String} (booked : questionsAfter runtime position.openQuestions canonical = .ok openQuestions) :
    Asked (position.trajectory ++ [canonical]) openQuestions (position.phase + 1) := by
  obtain ⟨_, phase, there, listedMove, plays⟩ := (mem_legalMoves listed).mp member
  rcases accepted.linkage there listedMove with ⟨_, place, opens, resolves⟩ | ⟨_, place, opens, _, resolves⟩ |
    ⟨kind, place, requires, answers⟩ | ⟨_, place, opens, resolves⟩
  · exact asked.unlinked opens resolves (.inl place) booked
  · cases asked with
    | unasked _ none unresolved empty =>
        obtain ⟨question, opening⟩ : ∃ question, canonical.opensQuestion = some question := by
          cases name : canonical.opensQuestion with
          | none => simp [name, truthy] at opens
          | some question => exact ⟨question, rfl⟩
        have filled : question ≠ "" := by simpa [opening, truthy] using opens
        rw [questionsAfter_question opening filled resolves (by simp [empty]), empty] at booked
        obtain rfl := Except.ok.inj booked
        refine .asked question (by omega) ?_ ?_ rfl
        · rw [opened_append, none, named_truthy opens, opening]
          rfl
        · rw [resolved_append, unresolved, named_untruthy resolves]
          rfl
    | asked _ second => omega
    | answered _ later => omega
  · cases asked with
    | unasked early => omega
    | asked question _ one unresolved only =>
        obtain ⟨answered, required⟩ : ∃ answered, canonical.requiresQuestion = some answered := by
          cases name : canonical.requiresQuestion with
          | none => simp [name, truthy] at requires
          | some answered => exact ⟨answered, rfl⟩
        obtain rfl : answered = question := by
          simp only [playable, kind, required, only, Bool.and_eq_true] at plays
          simpa using plays.2
        have filled : answered ≠ "" := by simpa [required, truthy] using requires
        have resolves : canonical.resolvesQuestion = some answered := answers ▸ required
        rw [only] at booked
        obtain ⟨openedNow, distinct⟩ := questionsAfter_answer resolves filled booked
        refine .answered answered (by omega) ?_ ?_ distinct
        · rw [opened_append, one, openedNow]
          rfl
        · rw [resolved_append, unresolved, named_truthy (answers ▸ requires), resolves]
          rfl
    | answered _ later => omega
  · exact asked.unlinked opens resolves (.inr place) booked

end Moves

/-! The other fields. -/

section Fields

variable [Zero F] [Add F] [DecidableEq H] {runtime : Runtime F} {hashing : Hashing F H} {scenario : Scenario F}
  {position other : Position F} {roster otherRoster : List String → Prop}

/-- The fields of a position as its trajectory tells them. -/
structure Told (position : Position F) : Prop where
  questions : Asked position.trajectory position.openQuestions position.phase
  evidence : position.evidenceRefs = fromKeys (position.trajectory.flatMap Move.evidenceRefs)
  cost : position.spentCost = (position.trajectory.map Move.cost).foldl (· + ·) 0
  violations : position.violations = fromKeys (position.trajectory.flatMap Move.violations)
  status : position.terminalStatus = position.trajectory.getLast?.bind fun move => statusAfter move.kind

theorem told_initial (scenario : Scenario F) : Told scenario.initialPosition :=
  ⟨.unasked (Nat.zero_le _) rfl rfl rfl, rfl, rfl, rfl, rfl⟩

theorem Told.advance {canonical : Move F} {openQuestions : List String} (told : Told position)
    (questions : Asked (position.trajectory ++ [canonical]) openQuestions (position.phase + 1)) :
    Told (Scenario.advance position canonical openQuestions) where
  questions := questions
  evidence := by
    simp only [Scenario.advance, told.evidence, List.flatMap_append, List.flatMap_singleton, fromKeys_fromKeys]
  cost := by
    simp only [Scenario.advance, told.cost, List.map_append, List.foldl_append]
    rfl
  violations := by
    simp only [Scenario.advance, told.violations, List.flatMap_append, List.flatMap_singleton, fromKeys_fromKeys]
  status := by simp [Scenario.advance]

theorem Reachable.told (accepted : scenario.Accepted) (reached : Reachable runtime hashing scenario roster position) :
    Told position := by
  induction reached with
  | initial => exact told_initial scenario
  | step _ _ applied ih =>
      obtain ⟨legal, canonical, openQuestions, listed, member, _, _, booked, rfl⟩ := apply_cases accepted applied
      exact ih.advance (ih.questions.advance accepted listed member booked)

/-- A reached position is determined by its trajectory. -/
theorem Reachable.of_trajectory (accepted : scenario.Accepted)
    (reached : Reachable runtime hashing scenario roster position)
    (reachedOther : Reachable runtime hashing scenario otherRoster other)
    (same : position.trajectory = other.trajectory) : position = other := by
  have coherent := reached.coherent accepted
  have coherentOther := reachedOther.coherent accepted
  have told := reached.told accepted
  have toldOther := reachedOther.told accepted
  have phase := coherent.length.symm.trans ((congrArg List.length same).trans coherentOther.length)
  have questions := told.questions.questions.1
  have evidence := told.evidence
  have cost := told.cost
  have violations := told.violations
  have status := told.status
  rw [same] at questions evidence cost violations status
  cases position
  cases other
  simp only [Position.mk.injEq]
  exact ⟨coherent.owner.1.trans coherentOther.owner.1.symm, coherent.owner.2.trans coherentOther.owner.2.symm, phase,
    same, questions.trans toldOther.questions.questions.1.symm, evidence.trans toldOther.evidence.symm,
    cost.trans toldOther.cost.symm, violations.trans toldOther.violations.symm, status.trans toldOther.status.symm⟩

theorem Coherent.listed (coherent : Coherent scenario position) {move : Move F} (member : move ∈ position.trajectory) :
    ∃ phase ∈ scenario.phases, move ∈ phase := by
  obtain ⟨index, bound, rfl⟩ := List.getElem_of_mem member
  obtain ⟨phase, there, listed⟩ := coherent.moves index _ (List.getElem?_eq_getElem bound)
  exact ⟨phase, List.mem_of_getElem? there, listed⟩

/-- Moves of the scenario with the same contents are the same. -/
theorem Accepted.same_moves (accepted : scenario.Accepted) (injective : Function.Injective hashing.digest)
    {first second : List (Move F)} (firstListed : ∀ move ∈ first, ∃ phase ∈ scenario.phases, move ∈ phase)
    (secondListed : ∀ move ∈ second, ∃ phase ∈ scenario.phases, move ∈ phase)
    (same : first.map (Move.contentHash hashing) = second.map (Move.contentHash hashing)) : first = second := by
  induction first generalizing second with
  | nil => exact (List.map_eq_nil_iff.mp same.symm).symm
  | cons move rest ih =>
      cases second with
      | nil => simp at same
      | cons another others =>
          simp only [List.map_cons, List.cons.injEq] at same
          obtain ⟨phase, there, member⟩ := firstListed move List.mem_cons_self
          obtain ⟨other, elsewhere, present⟩ := secondListed another List.mem_cons_self
          have equal := accepted.determined there member elsewhere present (contentHash_id injective same.1)
          have remaining := ih (fun move inside => firstListed move (List.mem_cons_of_mem _ inside))
            (fun move inside => secondListed move (List.mem_cons_of_mem _ inside)) same.2
          rw [equal, remaining]

/-- The hash of a position holds the hashes of its moves and its phase. -/
theorem stateHash_moves (injective : Function.Injective hashing.digest)
    (same : position.stateHash hashing = other.stateHash hashing) :
    position.trajectory.map (Move.contentHash hashing) = other.trajectory.map (Move.contentHash hashing) ∧
      position.phase = other.phase := by
  have payload := injective same
  simp only [Value.obj.injEq, List.cons.injEq, Prod.mk.injEq, Value.arr.injEq, Value.int.injEq, true_and] at payload
  obtain ⟨_, moves, _, phase, _⟩ := payload
  have hashes := congrArg (List.filterMap fun value : Value F H => match value with
    | .hash hash => some hash
    | _ => none) moves
  exact ⟨by simpa [List.filterMap_map, Function.comp_def] using hashes, Int.ofNat_inj.mp phase⟩

/-- The hash of a reached position tells it from every other. -/
theorem Reachable.determined (accepted : scenario.Accepted) (injective : Function.Injective hashing.digest)
    (reached : Reachable runtime hashing scenario roster position)
    (reachedOther : Reachable runtime hashing scenario otherRoster other)
    (same : position.stateHash hashing = other.stateHash hashing) : position = other := by
  have coherent := reached.coherent accepted
  have coherentOther := reachedOther.coherent accepted
  exact reached.of_trajectory accepted reachedOther (accepted.same_moves injective (fun _ => coherent.listed)
    (fun _ => coherentOther.listed) (stateHash_moves injective same).1)

end Fields

end Scenario

end AgentTree.Engine
