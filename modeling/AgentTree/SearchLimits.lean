import AgentTree.Exploration
import AgentTree.SearchTotality

/-!
A search of enough simulations leaves nothing out.  A node is followed through the course of
a search; its unexpanded moves run out, and then selection starves none of its children.
-/

set_option linter.unusedSectionVars false

namespace AgentTree.Engine

open Outcome Relational PolicyValueModel

theorem SearchNode.At.trans {F : Type} {node middle found : SearchNode F} {path rest : List (Move F)}
    (first : node.At path middle) (second : middle.At rest found) : node.At (path ++ rest) found := by
  induction first with
  | here => exact second
  | step member _ ih =>
      rw [List.append_assoc]
      exact .step member (ih second)

namespace PUCTSearch

/-- A tree to which nothing can be added. -/
inductive Complete {F : Type} : SearchNode F → Prop
  | terminal {node : SearchNode F} : node.position.terminal = true → Complete node
  | expanded {node : SearchNode F} : node.unexpanded = some [] → (∀ child ∈ node.children, Complete child) →
      Complete node

variable {F H : Type} [Field F] [LinearOrder F] [IsStrictOrderedRing F] [DecidableEq H] {runtime : Runtime F}
  {hashing : Hashing F H} {search : PUCTSearch F H} {before after : Scores F H} {value : F} {node next : SearchNode F}

theorem prepare_opened {moves : List (Move F)} {priors : Dict String F} (opened : node.unexpanded = some [])
    (prepared : search.prepare runtime node = .ok (moves, priors)) : moves = [] := by
  simp only [PUCTSearch.prepare, opened, Except.ok.injEq, Prod.mk.injEq] at prepared
  exact prepared.1.symm

theorem Complete.simulated (complete : Complete node)
    (simulated : Simulated runtime hashing search before value after node next) : Complete next := by
  induction simulated with
  | terminal terminal _ _ => exact .terminal terminal
  | expanded running prepared _ _ _ =>
      cases complete with
      | terminal terminal => simp [running] at terminal
      | expanded opened _ => exact absurd (prepare_opened opened prepared) (List.cons_ne_nil _ _)
  | dead running _ childless _ _ => exact .expanded rfl (by simp [SearchNode.visit, childless])
  | descended running prepared _ there _ ih =>
      cases complete with
      | terminal terminal => simp [running] at terminal
      | expanded opened below =>
          refine .expanded rfl fun child member => ?_
          rcases List.mem_or_eq_of_mem_set member with old | rfl
          · exact below child old
          · exact ih (below _ (List.mem_of_getElem? there))

/-! What a search tree satisfies at any time. -/

/-- A tree whose visits are counted, whose values are bounded and whose priors are positive. -/
structure Sound (runtime : Runtime F) (hashing : Hashing F H) (search : PUCTSearch F H) (base : Nat)
    (node : SearchNode F) : Prop where
  tree : Tree runtime hashing search base node
  bounded : node.Everywhere Bounded
  prioritised : node.Everywhere Prioritised

theorem Sound.child {base : Nat} (sound : Sound runtime hashing search base node) {child : SearchNode F}
    (member : child ∈ node.children) : Sound runtime hashing search 1 child :=
  ⟨.of_everywhere (sound.tree.2 child member), sound.bounded.children child member,
    sound.prioritised.children child member⟩

theorem Sound.simulated {base : Nat} (exact : runtime.Exact) (positive : runtime.Positive)
    (accepted : search.Accepted runtime hashing) (sound : Sound runtime hashing search base node)
    (low : -1 ≤ value) (high : value ≤ 1)
    (simulated : Simulated runtime hashing search before value after node next) :
    Sound runtime hashing search base next :=
  ⟨simulated.tree (Scenario.postInit_accepted accepted.scenario) sound.tree,
    simulated.bounded low high sound.bounded,
    simulated.prioritised exact positive accepted sound.tree.linked sound.prioritised⟩

/-- A simulation at a node that is not terminal adds a child, or leaves no move unexpanded. -/
theorem Simulated.opens (scenario : search.scenario.Accepted) {base : Nat}
    (tree : Tree runtime hashing search base node) (running : node.position.terminal = false)
    (simulated : Simulated runtime hashing search before value after node next) :
    next.unexpanded = some [] ∨ next.children.length = node.children.length + 1 := by
  cases simulated with
  | terminal terminal _ _ => simp [running] at terminal
  | @expanded _ move rest priors position prior _ prepared _ _ _ =>
      right
      have fresh : ((SearchNode.make position (some move) prior).visit value).id ∉ node.children.map SearchNode.id :=
        tree.1.linked.fresh scenario prepared
      simp only [SearchNode.visit] at fresh ⊢
      rw [SearchNode.setChild_fresh fresh, List.length_append, List.length_singleton]
  | dead _ _ _ _ _ => exact .inl rfl
  | descended _ _ _ _ _ => exact .inl rfl

/-- A simulation at a node without unexpanded moves goes on to a child that no other is preferred to. -/
theorem Simulated.selects (running : node.position.terminal = false) (opened : node.unexpanded = some [])
    (some : node.children ≠ [])
    (simulated : Simulated runtime hashing search before value after node next) :
    ∃ index child below, node.children[index]? = .some child ∧
      (∀ other ∈ node.children, (search.preference runtime node.visits other).1 ≤
        (search.preference runtime node.visits child).1) ∧
      Simulated runtime hashing search before value after child below ∧
      next.children = node.children.set index below ∧ next.unexpanded = .some [] := by
  cases simulated with
  | terminal terminal _ _ => simp [running] at terminal
  | expanded _ prepared _ _ _ => exact absurd (prepare_opened opened prepared) (List.cons_ne_nil _ _)
  | dead _ _ childless _ _ => exact absurd childless some
  | @descended _ child below _ index _ _ selected there simulated =>
      obtain ⟨chosen, found, best⟩ := selectChild_spec selected
      obtain rfl := Option.some.inj (found.symm.trans there)
      exact ⟨index, chosen, below, there, best, simulated, rfl, rfl⟩

/-! The course of a search. -/

/-- A node in the course of a search: it stays as it is, or a simulation passes through it. -/
structure History (runtime : Runtime F) (hashing : Hashing F H) (search : PUCTSearch F H)
    (history : Nat → SearchNode F) : Prop where
  step : ∀ time, history (time + 1) = history time ∨ ∃ before value after, -1 ≤ value ∧ value ≤ 1 ∧
    Simulated runtime hashing search before value after (history time) (history (time + 1))
  unbounded : ∀ bound, ∃ time, bound ≤ (history time).visits

variable {history : Nat → SearchNode F} {base : Nat}

theorem History.visits_mono (passes : History runtime hashing search history) {first last : Nat}
    (earlier : first ≤ last) : (history first).visits ≤ (history last).visits := by
  induction last, earlier using Nat.le_induction with
  | base => exact le_refl _
  | succ time _ ih =>
      rcases passes.step time with same | ⟨_, _, _, _, _, simulated⟩
      · rw [same]
        exact ih
      · have more := simulated.frame.2.2.2.1
        omega

theorem History.shift (passes : History runtime hashing search history) (start : Nat) :
    History runtime hashing search fun time => history (start + time) := by
  refine ⟨fun time => passes.step (start + time), fun bound => ?_⟩
  obtain ⟨time, reached⟩ := passes.unbounded bound
  exact ⟨time, reached.trans (passes.visits_mono (by omega))⟩

theorem History.position (passes : History runtime hashing search history) (time : Nat) :
    (history time).position = (history 0).position := by
  induction time with
  | zero => rfl
  | succ time ih =>
      rcases passes.step time with same | ⟨_, _, _, _, _, simulated⟩
      · rw [same, ih]
      · rw [simulated.frame.1, ih]

theorem History.prior (passes : History runtime hashing search history) (time : Nat) :
    (history time).prior = (history 0).prior := by
  induction time with
  | zero => rfl
  | succ time ih =>
      rcases passes.step time with same | ⟨_, _, _, _, _, simulated⟩
      · rw [same, ih]
      · rw [simulated.frame.2.2.1, ih]

theorem History.sound (exact : runtime.Exact) (positive : runtime.Positive)
    (accepted : search.Accepted runtime hashing) (passes : History runtime hashing search history)
    (start : Sound runtime hashing search base (history 0)) (time : Nat) :
    Sound runtime hashing search base (history time) := by
  induction time with
  | zero => exact start
  | succ time ih =>
      rcases passes.step time with same | ⟨_, _, _, low, high, simulated⟩
      · rw [same]
        exact ih
      · exact ih.simulated exact positive accepted low high simulated

theorem History.complete_mono (passes : History runtime hashing search history) {first last : Nat}
    (earlier : first ≤ last) (complete : Complete (history first)) : Complete (history last) := by
  induction last, earlier using Nat.le_induction with
  | base => exact complete
  | succ time _ ih =>
      rcases passes.step time with same | ⟨_, _, _, _, _, simulated⟩
      · rw [same]
        exact ih
      · exact ih.simulated simulated

theorem Linked.children_length (linked : Linked runtime hashing search node) {legal : List (Move F)}
    (listed : search.scenario.legalMoves node.position search.benched = .ok legal) :
    node.children.length ≤ legal.length := by
  cases opened : node.unexpanded with
  | none => simp [linked.uninitialised opened]
  | some moves =>
      obtain ⟨others, again, _, same⟩ := linked.candidates moves opened
      obtain rfl : legal = others := by simpa [listed] using again
      have length := same.length_eq
      simp only [List.length_append, List.length_map] at length
      omega

/-- The unexpanded moves of a node run out. -/
theorem History.exhausted (exact : runtime.Exact) (positive : runtime.Positive)
    (accepted : search.Accepted runtime hashing) (passes : History runtime hashing search history)
    (start : Sound runtime hashing search base (history 0)) (running : (history 0).position.terminal = false) :
    ∃ time, (history time).unexpanded = some [] := by
  have scenario := Scenario.postInit_accepted accepted.scenario
  have sound := passes.sound exact positive accepted start
  obtain ⟨legal, listed⟩ := Reached.listed accepted start.tree.1.linked.reached
  by_contra never
  have few : ∀ time, (history time).visits ≤ (history 0).visits + (history time).children.length := by
    intro time
    induction time with
    | zero => omega
    | succ time ih =>
        rcases passes.step time with same | ⟨_, _, _, _, _, simulated⟩
        · rw [same]
          exact ih
        · have more := simulated.frame.2.2.2.1
          rcases simulated.opens scenario (sound time).tree (passes.position time ▸ running) with opened | longer
          · exact absurd ⟨_, opened⟩ never
          · omega
  obtain ⟨time, many⟩ := passes.unbounded ((history 0).visits + legal.length + 1)
  have length := (sound time).tree.1.linked.children_length ((passes.position time).symm ▸ listed)
  have visits := few time
  omega

/-! The children of a node whose unexpanded moves have run out. -/

/-- The child of a place in the course of a search. -/
def childAt (history : Nat → SearchNode F) (index time : Nat) : SearchNode F :=
  ((history time).children[index]?).getD (history 0)

/-- A node of which only the children change any more. -/
structure Settled (runtime : Runtime F) (hashing : Hashing F H) (search : PUCTSearch F H) (base : Nat)
    (history : Nat → SearchNode F) : Prop where
  passes : History runtime hashing search history
  sound : ∀ time, Sound runtime hashing search base (history time)
  running : (history 0).position.terminal = false
  opened : (history 0).unexpanded = some []
  filled : (history 0).children ≠ []

theorem Settled.open_at (settled : Settled runtime hashing search base history) (time : Nat) :
    (history time).unexpanded = some [] ∧ (history time).children.length = (history 0).children.length := by
  induction time with
  | zero => exact ⟨settled.opened, rfl⟩
  | succ time ih =>
      rcases settled.passes.step time with same | ⟨_, _, _, _, _, simulated⟩
      · rw [same]
        exact ih
      · have given : (history time).children ≠ [] :=
          List.length_pos_iff.mp (ih.2 ▸ List.length_pos_iff.mpr settled.filled)
        obtain ⟨_, _, _, _, _, _, children, opened⟩ :=
          simulated.selects (settled.passes.position time ▸ settled.running) ih.1 given
        rw [children, List.length_set]
        exact ⟨opened, ih.2⟩

theorem Settled.childAt_eq (settled : Settled runtime hashing search base history) {index : Nat}
    (listed : index < (history 0).children.length) (time : Nat) :
    (history time).children[index]? = some (childAt history index time) := by
  rw [childAt, List.getElem?_eq_getElem ((settled.open_at time).2 ▸ listed)]
  rfl

theorem Settled.childAt_mem (settled : Settled runtime hashing search base history) {index : Nat}
    (listed : index < (history 0).children.length) (time : Nat) :
    childAt history index time ∈ (history time).children :=
  List.mem_of_getElem? (settled.childAt_eq listed time)

/-- Between two times no child changes, or a simulation passes through one that no other is preferred to. -/
theorem Settled.step (settled : Settled runtime hashing search base history) (time : Nat) :
    (∀ index < (history 0).children.length, childAt history index (time + 1) = childAt history index time) ∨
      ∃ taken < (history 0).children.length,
        (∀ index < (history 0).children.length,
          (search.preference runtime (history time).visits (childAt history index time)).1 ≤
            (search.preference runtime (history time).visits (childAt history taken time)).1) ∧
        (∃ before value after, -1 ≤ value ∧ value ≤ 1 ∧ Simulated runtime hashing search before value after
          (childAt history taken time) (childAt history taken (time + 1))) ∧
        ∀ index < (history 0).children.length, index ≠ taken →
          childAt history index (time + 1) = childAt history index time := by
  obtain ⟨opened, length⟩ := settled.open_at time
  rcases settled.passes.step time with same | ⟨before, value, after, low, high, simulated⟩
  · left
    intro index _
    simp only [childAt, same]
  · right
    have given : (history time).children ≠ [] :=
      List.length_pos_iff.mp (length ▸ List.length_pos_iff.mpr settled.filled)
    obtain ⟨taken, child, below, there, best, passed, children, _⟩ :=
      simulated.selects (settled.passes.position time ▸ settled.running) opened given
    obtain ⟨bound, _⟩ := List.getElem?_eq_some_iff.mp there
    have chosen : childAt history taken time = child := by rw [childAt, there]; rfl
    have later : childAt history taken (time + 1) = below := by
      rw [childAt, children, List.getElem?_set_self bound]
      rfl
    refine ⟨taken, length ▸ bound, fun index listed => ?_, ⟨before, value, after, low, high, ?_⟩,
      fun index _ other => ?_⟩
    · rw [chosen]
      exact best _ (settled.childAt_mem listed time)
    · rwa [chosen, later]
    · rw [childAt, children, List.getElem?_set_ne (Ne.symm other)]
      rfl

theorem Settled.prior (settled : Settled runtime hashing search base history) {index : Nat}
    (listed : index < (history 0).children.length) (time : Nat) :
    (childAt history index time).prior = (childAt history index 0).prior := by
  induction time with
  | zero => rfl
  | succ time ih =>
      rcases settled.step time with same | ⟨taken, _, _, ⟨_, _, _, _, _, simulated⟩, others⟩
      · rw [same index listed, ih]
      · by_cases chosen : index = taken
        · subst chosen
          rw [simulated.frame.2.2.1, ih]
        · rw [others index listed chosen, ih]


theorem sum_range_getD {α : Type} (count : α → Nat) (default : α) (items : List α) :
    ∑ index ∈ Finset.range items.length, count ((items[index]?).getD default) = (items.map count).sum := by
  induction items with
  | nil => rfl
  | cons item rest ih =>
      rw [List.length_cons, Finset.sum_range_succ', List.map_cons, List.sum_cons, Nat.add_comm]
      simpa using ih

/-- The children of a settled node as options. -/
def course (runtime : Runtime F) (search : PUCTSearch F H) (base : Nat) (history : Nat → SearchNode F) :
    Exploration.Course F where
  size := (history 0).children.length
  base := base
  weight option := search.cPuct * (childAt history option 0).prior
  growth total := runtime.sqrt ((max 1 total : Nat) : F)
  value time option := (childAt history option time).qValue
  counts time option := (childAt history option time).visits

theorem Settled.total (settled : Settled runtime hashing search base history) (time : Nat) :
    (course runtime search base history).total time = (history time).visits := by
  obtain ⟨_, length⟩ := settled.open_at time
  have given : (history time).children ≠ [] :=
    List.length_pos_iff.mp (length ▸ List.length_pos_iff.mpr settled.filled)
  rw [(settled.sound time).tree.1.counted given, SearchNode.childVisits]
  simp only [Exploration.Course.total, course, childAt, ← length]
  rw [sum_range_getD]

theorem Settled.score (settled : Settled runtime hashing search base history) {index : Nat}
    (listed : index < (history 0).children.length) (time : Nat) :
    (course runtime search base history).score time index =
      (search.preference runtime (history time).visits (childAt history index time)).1 := by
  rw [Exploration.Course.score, settled.total]
  simp only [course, preference, settled.prior listed time]

/-- `sqrt` is the square root. -/
def Rooted (runtime : Runtime F) : Prop :=
  ∀ value, 0 ≤ value → 0 ≤ runtime.sqrt value ∧ runtime.sqrt value * runtime.sqrt value = value

theorem Rooted.unbounded [Archimedean F] (rooted : Rooted runtime) (bound : F) :
    ∃ total : Nat, ∀ later, total ≤ later → bound ≤ runtime.sqrt ((max 1 later : Nat) : F) := by
  obtain ⟨total, large⟩ := exists_nat_ge (bound * bound)
  refine ⟨total, fun later enough => ?_⟩
  obtain ⟨low, square⟩ := rooted ((max 1 later : Nat) : F) (Nat.cast_nonneg _)
  have more : (total : F) ≤ ((max 1 later : Nat) : F) := Nat.cast_le.mpr (enough.trans (le_max_right _ _))
  by_contra small
  have above := mul_self_lt_mul_self low (not_le.mp small)
  linarith

theorem Bounded.qValue (bounded : Bounded node) : |node.qValue| ≤ 1 := by
  unfold SearchNode.qValue
  split
  next => simp
  next visited =>
    have positive : (0 : F) < node.visits := Nat.cast_pos.mpr (Nat.pos_of_ne_zero visited)
    rw [abs_div, abs_of_pos positive, div_le_one positive]
    exact bounded

theorem Settled.greedy [Archimedean F] (rooted : Rooted runtime) (explores : 0 < search.cPuct)
    (settled : Settled runtime hashing search base history) :
    (course runtime search base history).Greedy where
  weight option listed := mul_pos explores
    ((settled.sound 0).prioritised.here.children _ (settled.childAt_mem listed 0))
  value time option listed :=
    ((settled.sound time).bounded.children _ (settled.childAt_mem listed time)).here.qValue
  growth := rooted.unbounded
  step time := by
    rcases settled.step time with same | ⟨taken, there, best, ⟨_, _, _, _, _, simulated⟩, others⟩
    · left
      intro option listed
      simp only [course, same option listed]
    · right
      refine ⟨taken, there, fun option listed => ?_, fun option listed => ?_⟩
      · rw [settled.score listed, settled.score there]
        exact best option listed
      · split
        next chosen =>
          subst chosen
          exact simulated.frame.2.2.2.1
        next other => exact congrArg SearchNode.visits (others option listed other)

/-- Every child of a settled node is passed through again and again. -/
theorem Settled.child [Archimedean F] (rooted : Rooted runtime) (explores : 0 < search.cPuct)
    (settled : Settled runtime hashing search base history) {index : Nat}
    (listed : index < (history 0).children.length) :
    History runtime hashing search (childAt history index) := by
  refine ⟨fun time => ?_, fun bound => ?_⟩
  · rcases settled.step time with same | ⟨taken, _, _, simulated, others⟩
    · exact .inl (same index listed)
    · by_cases chosen : index = taken
      · subst chosen
        exact .inr simulated
      · exact .inl (others index listed chosen)
  · refine (settled.greedy rooted explores).unstarved (fun bound => ?_) listed bound
    obtain ⟨time, many⟩ := settled.passes.unbounded bound
    exact ⟨time, many.trans (settled.total time).ge⟩

/-- A child is one phase further than its parent, and its parent is not yet at the end. -/
theorem Linked.child_phase (scenario : search.scenario.Accepted) (linked : Linked runtime hashing search node)
    {child : SearchNode F} (member : child ∈ node.children) :
    node.position.phase < search.scenario.phases.length ∧ child.position.phase = node.position.phase + 1 := by
  obtain ⟨_, _, _, _, _, applied⟩ := linked.children child member
  obtain ⟨legal, canonical, _, listed, inside, _, _, _, after⟩ := Scenario.apply_cases scenario applied
  obtain ⟨_, phase, there, _⟩ := (Scenario.mem_legalMoves listed).mp inside
  rw [after]
  exact ⟨(List.getElem?_eq_some_iff.mp there).1, rfl⟩

/-- In the course of a search a node is completed; the induction is on the phases that are left. -/
theorem History.completes [Archimedean F] (exact : runtime.Exact) (positive : runtime.Positive)
    (rooted : Rooted runtime) (accepted : search.Accepted runtime hashing) (explores : 0 < search.cPuct) (left : Nat)
    (passes : History runtime hashing search history) (start : Sound runtime hashing search base (history 0))
    (near : search.scenario.phases.length - (history 0).position.phase ≤ left) :
    ∃ time, Complete (history time) := by
  have scenario := Scenario.postInit_accepted accepted.scenario
  induction left generalizing history base with
  | zero =>
      cases terminal : (history 0).position.terminal with
      | true => exact ⟨0, .terminal terminal⟩
      | false =>
          obtain ⟨time, opened⟩ := passes.exhausted exact positive accepted start terminal
          refine ⟨time, .expanded opened fun child member => ?_⟩
          have linked := (passes.sound exact positive accepted start time).tree.1.linked
          have further := (linked.child_phase scenario member).1
          rw [passes.position time] at further
          omega
  | succ left ih =>
      cases terminal : (history 0).position.terminal with
      | true => exact ⟨0, .terminal terminal⟩
      | false =>
          obtain ⟨opening, opened⟩ := passes.exhausted exact positive accepted start terminal
          by_cases childless : (history opening).children = []
          · exact ⟨opening, .expanded opened (by simp [childless])⟩
          have settled : Settled runtime hashing search base fun time => history (opening + time) := {
            passes := passes.shift opening
            sound := fun time => passes.sound exact positive accepted start (opening + time)
            running := passes.position opening ▸ terminal
            opened := opened
            filled := childless }
          have every : ∀ count ≤ (history opening).children.length, ∃ time, ∀ index < count,
              Complete (childAt (fun time => history (opening + time)) index time) := by
            intro count
            induction count with
            | zero => exact fun _ => ⟨0, by simp⟩
            | succ count earlier =>
                intro listed
                have there : count < (history (opening + 0)).children.length := listed
                obtain ⟨first, completed⟩ := earlier (by omega)
                have child := settled.child rooted explores there
                have member := settled.childAt_mem there 0
                have sound := (settled.sound 0).child member
                obtain ⟨_, phase⟩ := (settled.sound 0).tree.1.linked.child_phase scenario member
                have same : (history (opening + 0)).position = (history 0).position := passes.position _
                obtain ⟨last, complete⟩ := ih child sound (by rw [phase, same]; omega)
                refine ⟨max first last, fun index below => ?_⟩
                have inside : index < (history (opening + 0)).children.length := by
                  rw [Nat.add_zero]
                  omega
                have other := settled.child rooted explores inside
                rcases Nat.lt_succ_iff_lt_or_eq.mp below with before | rfl
                · exact other.complete_mono (le_max_left _ _) (completed index before)
                · exact other.complete_mono (le_max_right _ _) complete
          obtain ⟨time, completed⟩ := every _ (le_refl _)
          obtain ⟨still, kept⟩ := settled.open_at time
          refine ⟨opening + time, .expanded still fun child member => ?_⟩
          obtain ⟨index, bound, rfl⟩ := List.getElem_of_mem member
          have below : index < (history (opening + 0)).children.length := kept ▸ bound
          have found := settled.childAt_eq below time
          rw [List.getElem?_eq_getElem bound] at found
          rw [Option.some.inj found]
          exact completed index below

theorem Complete.everywhere (complete : Complete node) (linked : node.Everywhere (Linked runtime hashing search)) :
    node.Everywhere Complete := by
  induction complete with
  | @terminal node terminal =>
      refine .intro (.terminal terminal) fun child member => ?_
      simp [linked.here.terminal terminal] at member
  | @expanded node opened below ih =>
      exact .intro (.expanded opened below) fun child member => ih child member (linked.children child member)

/-- A complete tree holds every position that can be reached by legal moves. -/
theorem Complete.reached (scenario : search.scenario.Accepted)
    (linked : node.Everywhere (Linked runtime hashing search)) (complete : Complete node)
    (start : node.position = search.scenario.initialPosition) {position : Position F}
    (reached : Reached runtime hashing search position) : ∃ path found, node.At path found ∧ found.position = position := by
  have everywhere := complete.everywhere linked
  induction reached with
  | initial => exact ⟨[], node, .here node, start⟩
  | @step position after move benched _ roster applied ih =>
      obtain ⟨path, found, there, rfl⟩ := ih
      have own := (linked.reaches there).here
      obtain rfl : benched = search.benched := roster
      obtain ⟨legal, canonical, openQuestions, listed, member, _, _, asked, rfl⟩ := Scenario.apply_cases scenario applied
      have opened : found.unexpanded = some [] := by
        cases (everywhere.reaches there).here with
        | terminal terminal => simp [((Scenario.mem_legalMoves listed).mp member).1] at terminal
        | expanded opened _ => exact opened
      obtain ⟨others, again, _, same⟩ := own.candidates [] opened
      obtain rfl : legal = others := by simpa [listed] using again
      rw [List.map_nil, List.append_nil] at same
      obtain ⟨child, childMember, named⟩ := List.mem_map.mp (same.mem_iff.mpr (List.mem_map_of_mem member))
      obtain ⟨legal', taken, move', listed', member', applied'⟩ := own.children child childMember
      obtain rfl : legal = legal' := by simpa [listed] using listed'
      have taken_eq : taken = canonical := by
        refine List.inj_on_of_nodup_map (Scenario.legalMoves_distinct scenario listed) member' member ?_
        simpa [SearchNode.id, move'] using named
      subst taken_eq
      refine ⟨path ++ (child.move.toList ++ []), child, there.trans (.step childMember (.here child)), ?_⟩
      rw [Scenario.apply_eq scenario listed member rfl rfl, asked] at applied'
      exact (Except.ok.inj applied').symm

end PUCTSearch

end AgentTree.Engine
