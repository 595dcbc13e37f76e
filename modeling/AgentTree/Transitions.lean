import AgentTree.SpelledHash
import Mathlib.Algebra.Ring.Rat
import Mathlib.Data.Rat.Defs

/-!
The positions of an accepted scenario, and when a legal move can be applied.
-/

namespace AgentTree.Engine

open Outcome Relational

variable {F H : Type}

namespace Scenario

/-- What the constructor checks. -/
structure Accepted (scenario : Scenario F) : Prop where
  four : scenario.phases.length = 4
  filled : ∀ phase ∈ scenario.phases, phase ≠ []
  kinds : ∀ (index : Nat) (phase : List (Move F)), scenario.phases[index]? = some phase → ∀ move ∈ phase,
    ∃ kinds, expected[index]? = some kinds ∧ move.kind ∈ kinds
  linked : ∀ phase ∈ scenario.phases, ∀ move ∈ phase, checkLinkage move = .ok ()
  ids : (scenario.phases.flatten.map Move.id).Nodup

section Construction

variable [DecidableEq H] {hashing : Hashing F H}

theorem checkMove_ok {index : Nat} {kinds : List MoveKind} {ids : List String} {signatures : List H}
    {move : Move F} (checked : checkMove hashing index kinds ids signatures move = .ok ()) :
    move.kind ∈ kinds ∧ move.id ∉ ids ∧ checkLinkage move = .ok () := by
  simp only [checkMove, bind_eq_ok, ensure_eq_ok, decide_eq_true_eq] at checked
  obtain ⟨_, kind, _, fresh, _, _, linked⟩ := checked
  exact ⟨kind, fresh, linked⟩

theorem checkMoves_ok {index : Nat} {kinds : List MoveKind} {moves : List (Move F)} {ids after : List String}
    {signatures : List H} (checked : checkMoves hashing index kinds ids signatures moves = .ok after) :
    (∀ move ∈ moves, move.kind ∈ kinds ∧ move.id ∉ ids ∧ checkLinkage move = .ok ()) ∧
      (moves.map Move.id).Nodup ∧ ∀ id, id ∈ after ↔ id ∈ ids ∨ id ∈ moves.map Move.id := by
  induction moves generalizing ids signatures with
  | nil =>
      obtain rfl : ids = after := by simpa [checkMoves] using checked
      simp
  | cons move rest ih =>
      simp only [checkMoves, bind_eq_ok] at checked
      obtain ⟨_, first, later⟩ := checked
      obtain ⟨each, distinct, listed⟩ := ih later
      obtain ⟨kind, fresh, linked⟩ := checkMove_ok first
      refine ⟨fun other member => ?_, ?_, fun id => ?_⟩
      · rcases List.mem_cons.mp member with rfl | member
        · exact ⟨kind, fresh, linked⟩
        · obtain ⟨kind, apart, linked⟩ := each other member
          exact ⟨kind, fun old => apart (List.mem_cons_of_mem _ old), linked⟩
      · rw [List.map_cons, List.nodup_cons]
        refine ⟨fun again => ?_, distinct⟩
        obtain ⟨other, member, same⟩ := List.mem_map.mp again
        exact (each other member).2.1 (by simp [same])
      · rw [listed]
        simp only [List.mem_cons, List.map_cons]
        tauto

theorem checkPhases_ok {index : Nat} {kinds : List (List MoveKind)} {phases : List (List (Move F))}
    {ids : List String} (same : phases.length = kinds.length)
    (checked : checkPhases hashing index kinds ids phases = .ok ()) :
    (∀ phase ∈ phases, phase ≠ [] ∧ ∀ move ∈ phase, move.id ∉ ids ∧ checkLinkage move = .ok ()) ∧
      (∀ (place : Nat) (phase : List (Move F)), phases[place]? = some phase → ∀ move ∈ phase,
        ∃ allowed, kinds[place]? = some allowed ∧ move.kind ∈ allowed) ∧
      (phases.flatten.map Move.id).Nodup := by
  induction phases generalizing index kinds ids with
  | nil => simp
  | cons phase rest ih =>
      cases kinds with
      | nil => simp at same
      | cons allowed others =>
          simp only [checkPhases, bind_eq_ok, ensure_eq_ok, Bool.not_eq_true', List.isEmpty_eq_false_iff]
            at checked
          obtain ⟨_, filled, after, moves, later⟩ := checked
          obtain ⟨each, distinct, listed⟩ := checkMoves_ok moves
          obtain ⟨phases, kinds, flat⟩ := ih (by simpa using same) later
          refine ⟨fun other member => ?_, fun place other there move member => ?_, ?_⟩
          · rcases List.mem_cons.mp member with rfl | member
            · exact ⟨filled, fun move member => (each move member).2⟩
            · obtain ⟨filled, checks⟩ := phases other member
              refine ⟨filled, fun move member => ⟨fun old => ?_, (checks move member).2⟩⟩
              exact (checks move member).1 ((listed move.id).mpr (.inl old))
          · cases place with
            | zero =>
                obtain rfl : phase = other := by simpa using there
                exact ⟨allowed, rfl, (each move member).1⟩
            | succ place => exact kinds place other (by simpa using there) move member
          · rw [List.flatten_cons, List.map_append, List.nodup_append]
            refine ⟨distinct, flat, fun id first other second equal => ?_⟩
            subst equal
            obtain ⟨move, member, rfl⟩ := List.mem_map.mp second
            obtain ⟨later, there, member⟩ := List.mem_flatten.mp member
            exact ((phases later there).2 move member).1 ((listed _).mpr (.inr first))

theorem postInit_accepted {scenario : Scenario F} (built : scenario.postInit hashing = .ok ()) :
    scenario.Accepted := by
  simp only [postInit, bind_eq_ok, ensure_eq_ok, decide_eq_true_eq] at built
  obtain ⟨_, _, _, same, checked⟩ := built
  obtain ⟨phases, kinds, distinct⟩ := checkPhases_ok same checked
  exact ⟨same, fun phase member => (phases phase member).1, kinds,
    fun phase member move there => ((phases phase member).2 move there).2, distinct⟩

end Construction

namespace Accepted

variable {scenario : Scenario F} (accepted : scenario.Accepted)

include accepted

/-- A move is determined by its id. -/
theorem determined {phase other : List (Move F)} {move another : Move F} (there : phase ∈ scenario.phases)
    (member : move ∈ phase) (elsewhere : other ∈ scenario.phases) (present : another ∈ other)
    (same : move.id = another.id) : move = another :=
  List.inj_on_of_nodup_map accepted.ids (List.mem_flatten.mpr ⟨phase, there, member⟩)
    (List.mem_flatten.mpr ⟨other, elsewhere, present⟩) same

/-- What the kinds of the phases allow a move to open, require and resolve. -/
theorem linkage {index : Nat} {phase : List (Move F)} {move : Move F}
    (there : scenario.phases[index]? = some phase) (member : move ∈ phase) :
    (move.kind = .propose ∧ index = 0 ∧ ¬truthy move.opensQuestion ∧ ¬truthy move.resolvesQuestion) ∨
    (move.kind = .question ∧ index = 1 ∧ truthy move.opensQuestion ∧ ¬truthy move.requiresQuestion ∧
      ¬truthy move.resolvesQuestion) ∨
    (move.kind = .answer ∧ index = 2 ∧ truthy move.requiresQuestion ∧
      move.requiresQuestion = move.resolvesQuestion) ∨
    ((move.kind = .commit ∨ move.kind = .abstain) ∧ index = 3 ∧ ¬truthy move.opensQuestion ∧
      ¬truthy move.resolvesQuestion) := by
  obtain ⟨kinds, listed, kind⟩ := accepted.kinds index phase there move member
  have linked := accepted.linked phase (List.mem_of_getElem? there) move member
  have below : index < 4 := by
    have bound := (List.getElem?_eq_some_iff.mp listed).1
    simpa [expected] using bound
  have cases : index = 0 ∨ index = 1 ∨ index = 2 ∨ index = 3 := by omega
  unfold checkLinkage at linked
  rcases cases with rfl | rfl | rfl | rfl
  · obtain rfl : [MoveKind.propose] = kinds := by simpa [expected] using listed
    obtain named : move.kind = .propose := by simpa using kind
    simp_all [ensure_eq_ok]
  · obtain rfl : [MoveKind.question] = kinds := by simpa [expected] using listed
    obtain named : move.kind = .question := by simpa using kind
    simp_all [ensure_eq_ok, bind_eq_ok]
  · obtain rfl : [MoveKind.answer] = kinds := by simpa [expected] using listed
    obtain named : move.kind = .answer := by simpa using kind
    simp_all [ensure_eq_ok]
  · obtain rfl : [MoveKind.commit, MoveKind.abstain] = kinds := by simpa [expected] using listed
    rcases (by simpa using kind : move.kind = .commit ∨ move.kind = .abstain) with named | named
    · simp_all [ensure_eq_ok]
    · simp_all [ensure_eq_ok]

end Accepted

/-! Legal moves and their application. -/

section Moves

variable {runtime : Runtime F} {hashing : Hashing F H} {scenario : Scenario F} {position after : Position F}
  {move canonical : Move F} {benched : List String} {legal : List (Move F)}

theorem legalMoves_eq (listed : scenario.legalMoves position benched = .ok legal) :
    (position.scenario = scenario.name ∧ position.scenarioVersion = scenario.version) ∧
      legal = if position.terminal then []
        else ((scenario.phases[position.phase]?).getD []).filter (playable position benched) := by
  simp only [legalMoves, assertPosition, bind_eq_ok, ensure_eq_ok, pure_eq_ok, Bool.and_eq_true,
    decide_eq_true_eq] at listed
  obtain ⟨_, owner, rfl⟩ := listed
  exact ⟨owner, rfl⟩

theorem legalMoves_ok (owner : position.scenario = scenario.name ∧ position.scenarioVersion = scenario.version) :
    ∃ legal, scenario.legalMoves position benched = .ok legal := by
  simp [legalMoves, assertPosition, owner.1, owner.2, ensure, bind, Except.bind, pure, Except.pure]

theorem mem_legalMoves (listed : scenario.legalMoves position benched = .ok legal) :
    canonical ∈ legal ↔ position.terminal = false ∧
      ∃ phase, scenario.phases[position.phase]? = some phase ∧ canonical ∈ phase ∧
        playable position benched canonical = true := by
  obtain ⟨_, rfl⟩ := legalMoves_eq listed
  by_cases terminal : position.terminal = true
  · simp [terminal]
  · rw [if_neg terminal]
    cases scenario.phases[position.phase]? <;> simp [terminal]

theorem legalMoves_distinct (accepted : scenario.Accepted)
    (listed : scenario.legalMoves position benched = .ok legal) : (legal.map Move.id).Nodup := by
  obtain ⟨_, rfl⟩ := legalMoves_eq listed
  split
  · exact List.nodup_nil
  · cases there : scenario.phases[position.phase]? with
    | none => simp
    | some phase =>
        have member := List.mem_of_getElem? there
        have flat := accepted.ids
        rw [List.map_flatten] at flat
        have distinct := (List.nodup_flatten.mp flat).1 _ (List.mem_map_of_mem member)
        exact distinct.sublist (List.filter_sublist.map _)

theorem canonical_found (distinct : (legal.map Move.id).Nodup) {id : String} :
    (Dict.ofList (legal.map fun candidate => (candidate.id, candidate))).get? id = some canonical ↔
      canonical ∈ legal ∧ canonical.id = id := by
  have keys : ((legal.map fun candidate => (candidate.id, candidate)).map Prod.fst).Nodup := by
    simpa [List.map_map, Function.comp_def] using distinct
  rw [Dict.get?_eq_some, Dict.rows_ofList keys, List.mem_map]
  constructor
  · rintro ⟨found, member, same⟩
    cases same
    exact ⟨member, rfl⟩
  · rintro ⟨member, rfl⟩
    exact ⟨canonical, member, rfl⟩

theorem questionsAfter_unlinked {openQuestions : List String} (opens : ¬truthy move.opensQuestion)
    (resolves : ¬truthy move.resolvesQuestion) :
    questionsAfter runtime openQuestions move = .ok openQuestions := by
  simp only [questionsAfter]
  cases opened : move.opensQuestion <;> cases resolved : move.resolvesQuestion <;>
    simp_all [truthy, bind, Except.bind]

theorem questionsAfter_question {openQuestions : List String} {question : String}
    (opens : move.opensQuestion = some question) (named : question ≠ "")
    (resolves : ¬truthy move.resolvesQuestion) (fresh : question ∉ openQuestions) :
    questionsAfter runtime openQuestions move = .ok (openQuestions ++ [question]) := by
  simp only [questionsAfter, opens]
  cases resolved : move.resolvesQuestion <;> simp_all [truthy, bind, Except.bind]

variable [Add F] [DecidableEq H]

/-- Everything a successful step has done. -/
theorem apply_cases (accepted : scenario.Accepted)
    (applied : scenario.apply runtime hashing position move benched = .ok after) :
    ∃ legal canonical openQuestions, scenario.legalMoves position benched = .ok legal ∧
      canonical ∈ legal ∧ canonical.id = move.id ∧
      move.contentHash hashing = canonical.contentHash hashing ∧
      questionsAfter runtime position.openQuestions canonical = .ok openQuestions ∧
      after = advance position canonical openQuestions := by
  simp only [Scenario.apply, bind_eq_ok, orRaise_eq_ok, ensure_eq_ok, decide_eq_true_eq, pure_eq_ok] at applied
  obtain ⟨legal, listed, canonical, found, _, same, openQuestions, questions, rfl⟩ := applied
  obtain ⟨member, named⟩ := (canonical_found (legalMoves_distinct accepted listed)).mp found
  exact ⟨legal, canonical, openQuestions, listed, member, named, same, questions, rfl⟩

theorem apply_eq (accepted : scenario.Accepted) (listed : scenario.legalMoves position benched = .ok legal)
    (member : canonical ∈ legal) (named : canonical.id = move.id)
    (same : move.contentHash hashing = canonical.contentHash hashing) :
    scenario.apply runtime hashing position move benched =
      (questionsAfter runtime position.openQuestions canonical).map (advance position canonical) := by
  have found := (canonical_found (legalMoves_distinct accepted listed)).mpr ⟨member, named⟩
  simp only [Scenario.apply, listed, bind, Except.bind, found, orRaise, same, decide_true, ensure, if_true]
  cases questionsAfter runtime position.openQuestions canonical <;> rfl

variable [Zero F]

/-- The positions that successful steps lead to, from the initial one; `roster` says which agents may be
benched. -/
inductive Reachable (runtime : Runtime F) (hashing : Hashing F H) (scenario : Scenario F)
    (roster : List String → Prop) : Position F → Prop
  | initial : Reachable runtime hashing scenario roster scenario.initialPosition
  | step {position after : Position F} {move : Move F} {benched : List String} :
      Reachable runtime hashing scenario roster position → roster benched →
      scenario.apply runtime hashing position move benched = .ok after →
      Reachable runtime hashing scenario roster after

/-- What the positions of a scenario have in common. -/
structure Coherent (scenario : Scenario F) (position : Position F) : Prop where
  owner : position.scenario = scenario.name ∧ position.scenarioVersion = scenario.version
  length : position.trajectory.length = position.phase
  bound : position.phase ≤ 4
  moves : ∀ (index : Nat) (move : Move F), position.trajectory[index]? = some move →
    ∃ phase, scenario.phases[index]? = some phase ∧ move ∈ phase
  terminal : position.terminal = true ↔ position.phase = 4
  unopened : position.phase ≤ 1 → position.openQuestions = []
  opened : position.phase = 2 → ∃ question, position.openQuestions = [question]

omit [Add F] in
theorem coherent_initial (scenario : Scenario F) : Coherent scenario scenario.initialPosition where
  owner := ⟨rfl, rfl⟩
  length := rfl
  bound := Nat.zero_le _
  moves := by simp [initialPosition]
  terminal := by simp [initialPosition, Position.terminal]
  unopened _ := rfl
  opened := by simp [initialPosition]

omit [Zero F] in
/-- A step to a legal move. -/
theorem Coherent.advance (accepted : scenario.Accepted) (coherent : Coherent scenario position)
    (listed : scenario.legalMoves position benched = .ok legal) (member : canonical ∈ legal)
    {openQuestions : List String}
    (questions : questionsAfter runtime position.openQuestions canonical = .ok openQuestions) :
    Coherent scenario (Scenario.advance position canonical openQuestions) := by
  obtain ⟨running, phase, there, listedMove, _⟩ := (mem_legalMoves listed).mp member
  have below : position.phase < 4 := by
    have bound := (List.getElem?_eq_some_iff.mp there).1
    rwa [accepted.four] at bound
  have linkage := accepted.linkage there listedMove
  refine ⟨coherent.owner, ?_, below, fun index move found => ?_, ?_, fun early => ?_, fun second => ?_⟩
  · simp [Scenario.advance, coherent.length]
  · simp only [Scenario.advance] at found
    by_cases last : index < position.trajectory.length
    · rw [List.getElem?_append_left last] at found
      exact coherent.moves index move found
    · rw [List.getElem?_append_right (by omega)] at found
      have zero : index - position.trajectory.length = 0 := by
        have bound := (List.getElem?_eq_some_iff.mp found).1
        simpa using bound
      obtain rfl : canonical = move := by simpa [zero] using found
      obtain rfl : index = position.phase := by
        have := coherent.length
        omega
      exact ⟨phase, there, listedMove⟩
  · simp only [Scenario.advance, Position.terminal]
    rcases linkage with ⟨kind, place, _⟩ | ⟨kind, place, _⟩ | ⟨kind, place, _⟩ | ⟨kind | kind, place, _⟩ <;>
      simp [kind, place, statusAfter]
  · have zero : position.phase = 0 := by
      simp only [Scenario.advance] at early
      omega
    rcases linkage with ⟨_, _, opens, resolves⟩ | ⟨_, place, _⟩ | ⟨_, place, _⟩ | ⟨_, place, _⟩
    · rw [questionsAfter_unlinked opens resolves, coherent.unopened (by omega)] at questions
      exact (Except.ok.inj questions).symm
    · omega
    · omega
    · omega
  · have one : position.phase = 1 := by
      simp only [Scenario.advance] at second
      omega
    rcases linkage with ⟨_, place, _⟩ | ⟨_, _, opens, _, resolves⟩ | ⟨_, place, _⟩ | ⟨_, place, _⟩
    · omega
    · cases named : canonical.opensQuestion with
      | none => simp [named, truthy] at opens
      | some question =>
          rw [questionsAfter_question named (by simpa [named, truthy] using opens) resolves
            (by simp [coherent.unopened (by omega)]), coherent.unopened (by omega)] at questions
          exact ⟨question, (Except.ok.inj questions).symm⟩
    · omega
    · omega

theorem Reachable.coherent (accepted : scenario.Accepted) {roster : List String → Prop}
    (reached : Reachable runtime hashing scenario roster position) : Coherent scenario position := by
  induction reached with
  | initial => exact coherent_initial scenario
  | step _ _ applied ih =>
      obtain ⟨legal, canonical, openQuestions, listed, member, _, _, questions, rfl⟩ :=
        apply_cases accepted applied
      exact ih.advance accepted listed member questions

/-! Legality and application. -/

/-- Some legal move has the content of the move. -/
def offers (hashing : Hashing F H) (scenario : Scenario F) (position : Position F) (benched : List String)
    (move : Move F) : Bool :=
  match scenario.legalMoves position benched with
  | .ok legal => legal.any fun candidate => candidate.contentHash hashing = move.contentHash hashing
  | .error _ => false

/-- A move that opens the question that it answers. -/
def reopens (move : Move F) : Bool := truthy move.opensQuestion && move.opensQuestion = move.requiresQuestion

/-- A legal move with the content of the move opens the question that it answers. -/
def offersReopening (hashing : Hashing F H) (scenario : Scenario F) (position : Position F)
    (benched : List String) (move : Move F) : Bool :=
  match scenario.legalMoves position benched with
  | .ok legal => legal.any fun candidate =>
      candidate.contentHash hashing = move.contentHash hashing && reopens candidate
  | .error _ => false

omit [Add F] [DecidableEq H] [Zero F] in
theorem contentHash_id (injective : Function.Injective hashing.digest)
    (same : move.contentHash hashing = canonical.contentHash hashing) : move.id = canonical.id := by
  have payload := injective same
  simp only [Value.obj.injEq, List.cons.injEq, Prod.mk.injEq, Value.str.injEq, true_and] at payload
  exact payload.2.2.2.2.2.1

omit [Add F] [DecidableEq H] [Zero F] in
/-- The questions of a legal move can be booked unless it opens the question that it answers. -/
theorem questionsAfter_legal (accepted : scenario.Accepted) (coherent : Coherent scenario position)
    (listed : scenario.legalMoves position benched = .ok legal) (member : canonical ∈ legal) :
    (∃ openQuestions, questionsAfter runtime position.openQuestions canonical = .ok openQuestions) ↔
      reopens canonical = false := by
  obtain ⟨running, phase, there, listedMove, plays⟩ := (mem_legalMoves listed).mp member
  rcases accepted.linkage there listedMove with ⟨_, _, opens, resolves⟩ |
    ⟨_, place, opens, requires, resolves⟩ | ⟨kind, place, requires, answers⟩ | ⟨_, _, opens, resolves⟩
  · simp [questionsAfter_unlinked opens resolves, reopens, opens]
  · cases named : canonical.opensQuestion with
    | none => simp [named, truthy] at opens
    | some question =>
        rw [questionsAfter_question named (by simpa [named, truthy] using opens) resolves
          (by simp [coherent.unopened (by omega)])]
        have apart : canonical.opensQuestion ≠ canonical.requiresQuestion :=
          fun same => requires (same ▸ opens)
        simp [reopens, apart]
  · obtain ⟨question, opened⟩ := coherent.opened place
    cases required : canonical.requiresQuestion with
    | none => simp [required, truthy] at requires
    | some answered =>
        obtain rfl : answered = question := by
          simp only [playable, kind, required, opened, Bool.and_eq_true] at plays
          simpa using plays.2
        have filled : answered ≠ "" := by simpa [required, truthy] using requires
        have resolved : canonical.resolvesQuestion = some answered := answers ▸ required
        simp only [questionsAfter, opened, resolved, reopens, required]
        cases named : canonical.opensQuestion with
        | none => simp [truthy, bind, Except.bind, filled]
        | some reopened =>
            by_cases empty : reopened = ""
            · simp [truthy, bind, Except.bind, filled, empty]
            · by_cases same : reopened = answered
              · simp [truthy, bind, Except.bind, filled, same]
              · simp [truthy, bind, Except.bind, filled, empty, same]
  · simp [questionsAfter_unlinked opens resolves, reopens, opens]

/-- Legality and application agree on a move exactly if it is not offered as an answer that opens the
question it answers. -/
theorem apply_legal (runtime : Runtime F) (hashing : Hashing F H) (scenario : Scenario F)
    (benched : List String) (position : Position F) (move : Move F)
    (injective : Function.Injective hashing.digest) (built : scenario.postInit hashing = .ok ())
    (reached : Reachable runtime hashing scenario (· = benched) position) :
    ((∃ after, scenario.apply runtime hashing position move benched = .ok after) ↔
        offers hashing scenario position benched move = true) ↔
      offersReopening hashing scenario position benched move = false := by
  have accepted := postInit_accepted built
  have coherent := reached.coherent accepted
  obtain ⟨legal, listed⟩ : ∃ legal, scenario.legalMoves position benched = .ok legal := legalMoves_ok coherent.owner
  simp only [offers, offersReopening, listed]
  by_cases offered : ∃ canonical ∈ legal, canonical.contentHash hashing = move.contentHash hashing
  · obtain ⟨canonical, member, same⟩ := offered
    have named := contentHash_id injective same
    have applies : (∃ after, scenario.apply runtime hashing position move benched = .ok after) ↔
        reopens canonical = false := by
      rw [apply_eq accepted listed member named same.symm, ← questionsAfter_legal accepted coherent listed member]
      cases questionsAfter runtime position.openQuestions canonical <;> simp [Except.map]
    have only : ∀ other ∈ legal, other.contentHash hashing = move.contentHash hashing → other = canonical := by
      intro other there equal
      obtain ⟨_, phase, found, here, _⟩ := (mem_legalMoves listed).mp member
      obtain ⟨_, another, foundAgain, hereAgain, _⟩ := (mem_legalMoves listed).mp there
      exact accepted.determined (List.mem_of_getElem? foundAgain) hereAgain (List.mem_of_getElem? found) here
        (contentHash_id injective (equal.trans same.symm))
    rw [applies]
    have every : (legal.any fun candidate =>
        decide (candidate.contentHash hashing = move.contentHash hashing) && reopens candidate) =
        reopens canonical := by
      rw [Bool.eq_iff_iff, List.any_eq_true]
      constructor
      · rintro ⟨other, there, checks⟩
        simp only [Bool.and_eq_true, decide_eq_true_eq] at checks
        exact only other there checks.1 ▸ checks.2
      · exact fun reopening => ⟨canonical, member, by simp [same, reopening]⟩
    have some : (legal.any fun candidate =>
        decide (candidate.contentHash hashing = move.contentHash hashing)) = true :=
      List.any_eq_true.mpr ⟨canonical, member, by simp [same]⟩
    simp [every, some]
  · have absent : ∀ candidate ∈ legal, candidate.contentHash hashing ≠ move.contentHash hashing :=
      fun candidate member same => offered ⟨candidate, member, same⟩
    have refused : ¬∃ after, scenario.apply runtime hashing position move benched = .ok after := by
      rintro ⟨after, applied⟩
      obtain ⟨_, canonical, _, again, member, _, same, _⟩ := apply_cases accepted applied
      obtain rfl := Except.ok.inj (again.symm.trans listed)
      exact absent canonical member same.symm
    have unoffered : ∀ check : Move F → Bool, (legal.any fun candidate =>
        decide (candidate.contentHash hashing = move.contentHash hashing) && check candidate) = false := by
      intro check
      rw [List.any_eq_false]
      exact fun candidate member => by simp [absent candidate member]
    have plain := unoffered fun _ => true
    simp only [Bool.and_true] at plain
    simp [refused, plain, unoffered]

/-- The replay of moves. -/
def replay (runtime : Runtime F) (hashing : Hashing F H) (scenario : Scenario F) (benched : List String) :
    List (Move F) → Position F → Except PyError (Position F)
  | [], position => .ok position
  | move :: rest, position => do
      let next ← scenario.apply runtime hashing position move benched
      replay runtime hashing scenario benched rest next

theorem reachable_replay {moves : List (Move F)} {roster : List String → Prop} (allowed : roster benched)
    (reached : Reachable runtime hashing scenario roster position)
    (replayed : replay runtime hashing scenario benched moves position = .ok after) :
    Reachable runtime hashing scenario roster after := by
  induction moves generalizing position with
  | nil => exact Except.ok.inj replayed ▸ reached
  | cons move rest ih =>
      obtain ⟨next, applied, later⟩ := bind_eq_ok.mp replayed
      exact ih (reached.step allowed applied) later

end Moves

end Scenario

/-! Scenarios of one path. -/

namespace Sample

def runtime : Runtime ℚ where
  isFinite _ := true
  log x := x
  exp _ := 1
  sqrt x := x
  tanh _ := 0
  gammas _ _ := 1
  text _ := ""
  fixed3 _ := ""
  repr text := text

def move (id : String) (kind : MoveKind) (opens answers : Option String) : Move ℚ where
  id
  actionKey := "act-" ++ id
  kind
  actor := "agent"
  text := ""
  basePrior := 1
  predictedMetrics := Dict.ofList [("safety", 1)]
  cost := 0
  tags := ["tag"]
  opensQuestion := opens
  requiresQuestion := answers
  resolvesQuestion := answers
  evidenceRefs := ["trace://run"]
  violations := []

/-- A proposal, a question, an answer that may open a question, and a commitment. -/
def scenario (reopened : Option String) : Scenario ℚ where
  name := "case"
  version := "1"
  description := ""
  phases := [[move "p" .propose none none], [move "q" .question (some "why") none],
    [move "a" .answer reopened (some "why")], [move "c" .commit none none]]

/-- The position after the question. -/
def asked (reopened : Option String) : Except PyError (Position ℚ) :=
  (scenario reopened).replay runtime (spelled ℚ) []
    [move "p" .propose none none, move "q" .question (some "why") none] (scenario reopened).initialPosition

theorem spelled_injective : Function.Injective (spelled ℚ).digest := Token.spell_injective

theorem asked_reachable {reopened : Option String} {position : Position ℚ}
    (found : asked reopened = .ok position) :
    (scenario reopened).Reachable runtime (spelled ℚ) (· = []) position :=
  Scenario.reachable_replay rfl .initial found

end Sample

open Sample in
theorem Scenario.apply_legal_answer : ∃ position, asked none = .ok position ∧
    ((∃ after, (scenario none).apply runtime (spelled ℚ) position (move "a" .answer none (some "why")) [] =
        .ok after) ↔
      (scenario none).offers (spelled ℚ) position [] (move "a" .answer none (some "why")) = true) := by
  have checked : (match asked none with
    | .ok position => (scenario none).offersReopening (spelled ℚ) position []
        (move "a" .answer none (some "why"))
    | .error _ => true) = false := by decide +kernel
  split at checked
  next position found =>
    refine ⟨position, found, ?_⟩
    exact (Scenario.apply_legal runtime (spelled ℚ) (scenario none) [] position _ spelled_injective (by decide +kernel)
      (asked_reachable found)).mpr checked
  next => simp at checked

open Sample in
/-- An answer that opens the question it answers is legal, and cannot be applied. -/
theorem Scenario.apply_not_always_legal : ∃ position,
    (scenario (some "why")).postInit (spelled ℚ) = .ok () ∧
    (scenario (some "why")).Reachable runtime (spelled ℚ) (· = []) position ∧
    (scenario (some "why")).offers (spelled ℚ) position [] (move "a" .answer (some "why") (some "why")) = true ∧
    ¬∃ after, (scenario (some "why")).apply runtime (spelled ℚ) position
      (move "a" .answer (some "why") (some "why")) [] = .ok after := by
  have checked : (match asked (some "why") with
    | .ok position => (scenario (some "why")).offers (spelled ℚ) position []
        (move "a" .answer (some "why") (some "why")) && !((scenario (some "why")).apply runtime (spelled ℚ) position
      (move "a" .answer (some "why") (some "why")) []).isOk
    | .error _ => false) = true := by decide +kernel
  split at checked
  next position found =>
    simp only [Bool.and_eq_true, Bool.not_eq_true'] at checked
    refine ⟨position, by decide +kernel, asked_reachable found, checked.1, ?_⟩
    rintro ⟨after, applied⟩
    simp [applied, Except.isOk, Except.toBool] at checked
  next => simp at checked

end AgentTree.Engine
