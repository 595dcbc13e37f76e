import AgentTree.SearchValues
import AgentTree.Training

/-!
The bookkeeping of the search tree: positions, candidates, visits and values after any
number of simulations.
-/

set_option linter.unusedSectionVars false

namespace AgentTree.Engine

open Outcome Relational

variable {F H : Type}

namespace SearchNode

/-- The visits of the children. -/
def childVisits (node : SearchNode F) : Nat := (node.children.map SearchNode.visits).sum

theorem sum_set {children : List (SearchNode F)} {index : Nat} {child next : SearchNode F}
    (there : children[index]? = some child) (more : next.visits = child.visits + 1) :
    ((children.set index next).map SearchNode.visits).sum = (children.map SearchNode.visits).sum + 1 := by
  induction children generalizing index with
  | nil => simp at there
  | cons other rest ih =>
      cases index with
      | zero =>
          obtain rfl : other = child := by simpa using there
          simp only [List.set_cons_zero, List.map_cons, List.sum_cons, more]
          omega
      | succ index =>
          have later := ih (by simpa using there)
          simp only [List.set_cons_succ, List.map_cons, List.sum_cons, later]
          omega

theorem ids_set {children : List (SearchNode F)} {index : Nat} {child next : SearchNode F}
    (there : children[index]? = some child) (same : next.id = child.id) :
    (children.set index next).map SearchNode.id = children.map SearchNode.id := by
  obtain ⟨bound, rfl⟩ := List.getElem?_eq_some_iff.mp there
  rw [List.map_set, same]
  have kept := @List.set_getElem_self _ (children.map SearchNode.id) index (by simpa using bound)
  rwa [List.getElem_map] at kept

end SearchNode

namespace PUCTSearch

section Links

variable [Zero F] [One F] [Add F] [Sub F] [Mul F] [Div F] [Neg F] [LT F] [LE F] [DecidableLT F] [DecidableLE F]
  [DecidableEq F] [OfScientific F] [NatCast F] [IntCast F] [DecidableEq H]
  {runtime : Runtime F} {hashing : Hashing F H} {search : PUCTSearch F H} {before after : Scores F H} {value : F}
  {node next : SearchNode F}

theorem ranked_perm {legal moves : List (Move F)} {priors : Dict String F}
    (sorted : ranked legal priors = .ok moves) : moves.Perm legal := by
  obtain ⟨keyed, looped, same⟩ := bind_eq_ok.mp sorted
  obtain rfl := pure_eq_ok.mp same
  have each := mapM_eq_ok.mp looped
  have unkeyed : keyed.map Prod.snd = legal := by
    clear looped sorted same
    induction each with
    | nil => rfl
    | cons first _ ih =>
        obtain ⟨prior, _, same⟩ := bind_eq_ok.mp first
        rw [List.map_cons, ih, ← pure_eq_ok.mp same]
  have permuted := List.perm_insertionSort (fun a b : (F × String) × Move F => (!keyBefore b.1 a.1) = true) keyed
  exact unkeyed ▸ permuted.map Prod.snd

/-- The candidates are the legal moves in another order. -/
theorem initialise_ok {root : Bool} {position : Position F} {moves : List (Move F)} {priors : Dict String F}
    (initialised : search.initialise runtime root position = .ok (moves, priors)) :
    ∃ legal plain, search.scenario.legalMoves position search.benched = .ok legal ∧
      search.model.priors runtime legal = .ok plain ∧ search.startPriors runtime root legal plain = .ok priors ∧
      moves.Perm legal := by
  simp only [initialise, bind_eq_ok, pure_eq_ok] at initialised
  obtain ⟨legal, listed, plain, predicted, noisy, started, sorted, ranks, same⟩ := initialised
  obtain ⟨rfl, rfl⟩ := by simpa using same
  exact ⟨legal, plain, listed, predicted, started, ranked_perm ranks⟩

/-- The position, the children and the unexpanded moves of a node fit the scenario. -/
structure Linked (runtime : Runtime F) (hashing : Hashing F H) (search : PUCTSearch F H) (node : SearchNode F) :
    Prop where
  reached : Reached runtime hashing search node.position
  children : ∀ child ∈ node.children, ∃ legal move, child.move = some move ∧
    search.scenario.legalMoves node.position search.benched = .ok legal ∧ move ∈ legal ∧
    search.scenario.apply runtime hashing node.position move search.benched = .ok child.position
  uninitialised : node.unexpanded = none → node.children = []
  candidates : ∀ moves, node.unexpanded = some moves →
    ∃ legal, search.scenario.legalMoves node.position search.benched = .ok legal ∧ (∀ move ∈ moves, move ∈ legal) ∧
      (node.children.map SearchNode.id ++ moves.map Move.id).Perm (legal.map Move.id)

theorem Linked.prepare (linked : Linked runtime hashing search node) {moves : List (Move F)} {priors : Dict String F}
    (prepared : search.prepare runtime node = .ok (moves, priors)) :
    ∃ legal, search.scenario.legalMoves node.position search.benched = .ok legal ∧ (∀ move ∈ moves, move ∈ legal) ∧
      (node.children.map SearchNode.id ++ moves.map Move.id).Perm (legal.map Move.id) := by
  unfold PUCTSearch.prepare at prepared
  split at prepared
  next listed there =>
    obtain ⟨rfl, _⟩ := by simpa using prepared
    exact linked.candidates _ there
  next absent =>
    obtain ⟨legal, _, listed, _, _, same⟩ := initialise_ok prepared
    refine ⟨legal, listed, fun move member => same.mem_iff.mp member, ?_⟩
    rw [linked.uninitialised absent]
    exact same.map Move.id

/-- A terminal node has no child. -/
theorem Linked.terminal (linked : Linked runtime hashing search node) (terminal : node.position.terminal = true) :
    node.children = [] := by
  cases opened : node.unexpanded with
  | none => exact linked.uninitialised opened
  | some moves =>
      obtain ⟨legal, listed, _, same⟩ := linked.candidates moves opened
      obtain ⟨_, rfl⟩ := Scenario.legalMoves_eq listed
      rw [if_pos terminal, List.map_nil, List.perm_nil, List.append_eq_nil_iff] at same
      exact List.map_eq_nil_iff.mp same.1

theorem Simulated.frame (simulated : Simulated runtime hashing search before value after node next) :
    next.position = node.position ∧ next.move = node.move ∧ next.prior = node.prior ∧
      next.visits = node.visits + 1 ∧ next.valueSum = node.valueSum + value := by
  cases simulated <;> exact ⟨rfl, rfl, rfl, rfl, rfl⟩

/-- A node whose visits are a base and those of its children. -/
structure Grown (runtime : Runtime F) (hashing : Hashing F H) (search : PUCTSearch F H) (base : Nat)
    (node : SearchNode F) : Prop where
  linked : Linked runtime hashing search node
  visited : base ≤ node.visits
  counted : node.children ≠ [] → node.visits = base + node.childVisits
  unopened : node.children = [] → node.position.terminal = false → node.unexpanded = some [] ∨ node.visits = base

/-- A tree of grown nodes; every node but its root has been visited once when it was made. -/
def Tree (runtime : Runtime F) (hashing : Hashing F H) (search : PUCTSearch F H) (base : Nat)
    (node : SearchNode F) : Prop :=
  Grown runtime hashing search base node ∧
    ∀ child ∈ node.children, child.Everywhere (Grown runtime hashing search 1)

theorem Tree.everywhere (tree : Tree runtime hashing search 1 node) : node.Everywhere (Grown runtime hashing search 1) :=
  .intro tree.1 tree.2

theorem Tree.of_everywhere (each : node.Everywhere (Grown runtime hashing search 1)) :
    Tree runtime hashing search 1 node :=
  ⟨each.here, each.children⟩

theorem Tree.linked {base : Nat} (tree : Tree runtime hashing search base node) :
    node.Everywhere (Linked runtime hashing search) :=
  .intro tree.1.linked fun child member => (tree.2 child member).mono fun _ grown => grown.linked

/-- A new child of a node, and the leaf that it is. -/
theorem Grown.make {position : Position F} {move : Move F} {prior : F} (reached : Reached runtime hashing search position)
    (value : F) : Tree runtime hashing search 1 ((SearchNode.make position (some move) prior).visit value) := by
  refine ⟨⟨⟨reached, ?_, fun _ => rfl, ?_⟩, le_refl _, ?_, fun _ _ => .inr rfl⟩, ?_⟩ <;>
    simp [SearchNode.make, SearchNode.visit]

/-- The child of the first unexpanded move is new. -/
theorem Linked.fresh (scenario : search.scenario.Accepted) (linked : Linked runtime hashing search node) {move : Move F}
    {rest : List (Move F)} {priors : Dict String F}
    (prepared : search.prepare runtime node = .ok (move :: rest, priors)) :
    move.id ∉ node.children.map SearchNode.id := by
  obtain ⟨legal, listed, _, same⟩ := linked.prepare prepared
  have distinct := same.nodup_iff.mpr (Scenario.legalMoves_distinct scenario listed)
  intro again
  exact (List.nodup_append.mp distinct).2.2 _ again _ (by simp) rfl

theorem Simulated.tree (scenario : search.scenario.Accepted)
    (simulated : Simulated runtime hashing search before value after node next) {base : Nat}
    (tree : Tree runtime hashing search base node) : Tree runtime hashing search base next := by
  induction simulated generalizing base with
  | @terminal node card terminal _ _ =>
      obtain ⟨⟨linked, visited, counted, unopened⟩, below⟩ := tree
      have childless := linked.terminal terminal
      refine ⟨⟨⟨linked.reached, linked.children, linked.uninitialised, linked.candidates⟩, Nat.le_succ_of_le visited,
        fun some => absurd childless some, fun _ running => ?_⟩, below⟩
      simp [SearchNode.visit, terminal] at running
  | @expanded node move rest priors position prior running prepared applied _ _ =>
      obtain ⟨⟨linked, visited, counted, unopened⟩, below⟩ := tree
      obtain ⟨legal, listed, members, same⟩ := linked.prepare prepared
      have fresh := linked.fresh scenario prepared
      have leaf : Tree runtime hashing search 1 ((SearchNode.make position (some move) prior).visit value) :=
        Grown.make (linked.reached.step rfl applied) value
      have appended : SearchNode.setChild ((SearchNode.make position (some move) prior).visit value) node.children =
          node.children ++ [(SearchNode.make position (some move) prior).visit value] := SearchNode.setChild_fresh fresh
      have before : node.visits = base + node.childVisits := by
        by_cases childless : node.children = []
        · rcases unopened childless running with exhausted | untouched
          · simp [PUCTSearch.prepare, exhausted] at prepared
          · simp [SearchNode.childVisits, childless, untouched]
        · exact counted childless
      rw [appended]
      refine ⟨⟨⟨linked.reached, fun child member => ?_, fun absent => by simp [SearchNode.visit] at absent,
        fun moves opened => ?_⟩, Nat.le_succ_of_le visited, fun _ => ?_, fun none => ?_⟩, fun child member => ?_⟩
      · rcases List.mem_append.mp member with old | new
        · exact linked.children child old
        · obtain rfl := List.mem_singleton.mp new
          exact ⟨legal, move, rfl, listed, members move List.mem_cons_self, applied⟩
      · obtain rfl : rest = moves := by simpa [SearchNode.visit] using opened
        refine ⟨legal, listed, fun other member => members other (List.mem_cons_of_mem _ member), ?_⟩
        simpa [SearchNode.visit, SearchNode.make, SearchNode.id] using same
      · simp [SearchNode.visit, SearchNode.make, SearchNode.childVisits, before]
        omega
      · simp [SearchNode.visit] at none
      · rcases List.mem_append.mp member with old | new
        · exact below child old
        · exact List.mem_singleton.mp new ▸ leaf.everywhere
  | @dead node priors running prepared childless _ _ =>
      obtain ⟨⟨linked, visited, counted, unopened⟩, below⟩ := tree
      obtain ⟨legal, listed, members, same⟩ := linked.prepare prepared
      refine ⟨⟨⟨linked.reached, linked.children, fun absent => by simp [SearchNode.visit] at absent,
        fun moves opened => ?_⟩, Nat.le_succ_of_le visited, fun some => absurd childless some,
        fun _ _ => .inl rfl⟩, below⟩
      obtain rfl : [] = moves := by simpa [SearchNode.visit] using opened
      exact ⟨legal, listed, members, same⟩
  | @descended node child next priors index running prepared _ there simulated ih =>
      obtain ⟨⟨linked, visited, counted, unopened⟩, below⟩ := tree
      obtain ⟨legal, listed, members, same⟩ := linked.prepare prepared
      obtain ⟨position, move, _, more, _⟩ := simulated.frame
      have member := List.mem_of_getElem? there
      have grown := ih (Tree.of_everywhere (below child member))
      have ids := SearchNode.ids_set there (by simp [SearchNode.id, move] : next.id = child.id)
      have some : node.children ≠ [] := List.ne_nil_of_mem member
      have others : ∀ other ∈ node.children.set index next, other = next ∨ other ∈ node.children :=
        fun other changed => (List.mem_or_eq_of_mem_set changed).symm
      refine ⟨⟨⟨linked.reached, fun other changed => ?_, fun absent => by simp [SearchNode.visit] at absent,
        fun moves opened => ?_⟩, Nat.le_succ_of_le visited, fun _ => ?_, fun none => ?_⟩, fun other changed => ?_⟩
      · rcases others other changed with rfl | old
        · rw [move, position]
          exact linked.children child member
        · exact linked.children other old
      · obtain rfl : [] = moves := by simpa [SearchNode.visit] using opened
        exact ⟨legal, listed, members, by simpa [SearchNode.visit, ids] using same⟩
      · have sum := SearchNode.sum_set there more
        have before := counted some
        simp only [SearchNode.visit, SearchNode.childVisits] at before ⊢
        omega
      · exact absurd (by simpa [SearchNode.visit] using none) some
      · rcases others other changed with rfl | old
        · exact grown.everywhere
        · exact below other old

theorem makeRoot_ok {root : SearchNode F} (made : search.makeRoot runtime = .ok root) :
    root.position = search.scenario.initialPosition ∧ root.move = none ∧ root.visits = 0 ∧ root.valueSum = 0 ∧
      root.children = [] ∧ ∃ moves priors, search.initialise runtime true root.position = .ok (moves, priors) ∧
        root.unexpanded = some moves ∧ root.candidatePriors = priors := by
  obtain ⟨⟨moves, priors⟩, initialised, same⟩ := bind_eq_ok.mp made
  obtain rfl := pure_eq_ok.mp same
  exact ⟨rfl, rfl, rfl, rfl, rfl, moves, priors, initialised, rfl, rfl⟩

theorem makeRoot_tree {root : SearchNode F} (made : search.makeRoot runtime = .ok root) :
    Tree runtime hashing search 0 root := by
  obtain ⟨position, _, visits, _, childless, moves, priors, initialised, opened, _⟩ := makeRoot_ok made
  obtain ⟨legal, _, listed, _, _, same⟩ := initialise_ok initialised
  refine ⟨⟨⟨position ▸ .initial, by simp [childless], fun _ => childless, fun others found => ?_⟩, Nat.zero_le _,
    fun some => absurd childless some, fun _ _ => .inr visits⟩, by simp [childless]⟩
  obtain rfl : moves = others := by simpa [opened] using found
  exact ⟨legal, listed, fun move member => same.mem_iff.mp member, by simpa [childless] using same.map Move.id⟩

/-- One more simulation. -/
theorem simulations_succ {count : Nat} {root : SearchNode F} {scores : Scores F H}
    (ran : search.simulations runtime hashing (count + 1) = .ok (root, scores)) :
    ∃ earlier before value, search.simulations runtime hashing count = .ok (earlier, before) ∧
      Simulated runtime hashing search before value scores earlier root := by
  obtain ⟨⟨earlier, before⟩, earlierRan, later⟩ := bind_eq_ok.mp ran
  obtain ⟨⟨value, next, scores⟩, simulated, same⟩ := bind_eq_ok.mp later
  obtain ⟨rfl, rfl⟩ := by simpa [pure, Except.pure] using same
  exact ⟨earlier, before, value, earlierRan, simulate_ok simulated⟩

/-- What every completed simulation keeps of the root holds after any number of them. -/
theorem simulations_kept {P : Nat → SearchNode F → Scores F H → Prop}
    (start : ∀ root, search.makeRoot runtime = .ok root → P 0 root ⟨Table.empty, 0⟩)
    (step : ∀ count root before value next after, search.simulations runtime hashing count = .ok (root, before) →
      P count root before → Simulated runtime hashing search before value after root next → P (count + 1) next after)
    {count : Nat} {root : SearchNode F} {scores : Scores F H}
    (ran : search.simulations runtime hashing count = .ok (root, scores)) : P count root scores := by
  induction count generalizing root scores with
  | zero =>
      obtain ⟨made, built, same⟩ := bind_eq_ok.mp ran
      obtain ⟨rfl, rfl⟩ := by simpa [pure, Except.pure] using same
      exact start made built
  | succ count ih =>
      obtain ⟨earlier, before, value, earlierRan, simulated⟩ := simulations_succ ran
      exact step count earlier before value root scores earlierRan (ih earlierRan) simulated

theorem simulations_tree (scenario : search.scenario.Accepted) {count : Nat} {root : SearchNode F}
    {scores : Scores F H} (ran : search.simulations runtime hashing count = .ok (root, scores)) :
    Tree runtime hashing search 0 root ∧ root.visits = count ∧
      root.position = search.scenario.initialPosition ∧ root.move = none := by
  refine simulations_kept (P := fun count root _ => Tree runtime hashing search 0 root ∧ root.visits = count ∧
    root.position = search.scenario.initialPosition ∧ root.move = none) (fun root made => ?_) ?_ ran
  · obtain ⟨position, move, visits, _⟩ := makeRoot_ok made
    exact ⟨makeRoot_tree made, visits, position, move⟩
  · intro count root before value next after _ ⟨tree, visits, position, move⟩ simulated
    obtain ⟨samePosition, sameMove, _, more, _⟩ := simulated.frame
    exact ⟨simulated.tree scenario tree, by rw [more, visits], samePosition.trans position, sameMove.trans move⟩

end Links

end PUCTSearch

namespace SearchNode

/-- The node that a path of moves leads to. -/
inductive At : SearchNode F → List (Move F) → SearchNode F → Prop
  | here (node : SearchNode F) : At node [] node
  | step {node child found : SearchNode F} {path : List (Move F)} : child ∈ node.children → At child path found →
      At node (child.move.toList ++ path) found

theorem Everywhere.reaches {P : SearchNode F → Prop} {node found : SearchNode F} {path : List (Move F)}
    (each : node.Everywhere P) (there : node.At path found) : found.Everywhere P := by
  induction there with
  | here => exact each
  | step member _ ih => exact ih (each.children _ member)

end SearchNode

section Distributions

variable [Field F] [LinearOrder F] [IsStrictOrderedRing F]

theorem pySum_eq_sum (values : List F) : pySum values = values.sum := by
  have from_start : ∀ start : F, values.foldl (· + ·) start = start + values.sum := by
    induction values with
    | nil => simp
    | cons value rest ih =>
        intro start
        rw [List.foldl_cons, ih, List.sum_cons, add_assoc]
  simpa [pySum] using from_start 0

theorem sum_div (values : List F) (total : F) : (values.map (· / total)).sum = values.sum / total := by
  induction values with
  | nil => simp
  | cons value rest ih => rw [List.map_cons, List.sum_cons, ih, List.sum_cons, add_div]

/-- Values that are not negative and sum to one. -/
def Distributed (distribution : Dict String F) : Prop :=
  (∀ value ∈ distribution.values, 0 ≤ value) ∧ distribution.values.sum = 1

namespace SearchNode

variable {node : SearchNode F}

theorem values_ofList (weights : SearchNode F → F) (distinct : (node.children.map id).Nodup) :
    (Dict.ofList (node.children.map fun child => (child.id, weights child))).values = node.children.map weights := by
  have keys : ((node.children.map fun child => (child.id, weights child)).map Prod.fst).Nodup := by
    simpa [List.map_map, Function.comp_def] using distinct
  simp [Dict.values, Dict.rows_ofList keys, List.map_map, Function.comp_def]

theorem visitTarget_distributed (distinct : (node.children.map id).Nodup) (some : node.children ≠ []) :
    Distributed node.visitTarget := by
  have values : node.visitTarget.values =
      (node.children.map fun child => ((max child.visits 1 : Nat) : F)).map
        (· / (node.children.map fun child => ((max child.visits 1 : Nat) : F)).sum) := by
    have powers := values_ofList (fun child => ((max child.visits 1 : Nat) : F)) distinct
    simp only [visitTarget, pySum_eq_sum, powers]
    rw [← powers]
    simp [Dict.values, Dict.mapValues, List.map_map, Function.comp_def]
  have positive : ∀ value ∈ node.children.map fun child => ((max child.visits 1 : Nat) : F), 0 < value := by
    intro value member
    obtain ⟨child, _, rfl⟩ := List.mem_map.mp member
    exact_mod_cast Nat.lt_of_lt_of_le Nat.zero_lt_one (le_max_right _ _)
  have total : 0 < (node.children.map fun child => ((max child.visits 1 : Nat) : F)).sum :=
    List.sum_pos _ positive (by simpa using some)
  refine ⟨fun value member => ?_, ?_⟩
  · rw [values] at member
    obtain ⟨weight, there, rfl⟩ := List.mem_map.mp member
    exact div_nonneg (positive weight there).le total.le
  · rw [values, sum_div, div_self total.ne']

theorem rootDistribution_distributed (distinct : (node.children.map id).Nodup) (some : node.children ≠ [])
    (visited : ∀ child ∈ node.children, 1 ≤ child.visits) : Distributed node.rootDistribution := by
  have sum : ((node.children.map visits).sum : F) = (node.children.map fun child => (child.visits : F)).sum := by
    have cast := map_list_sum (Nat.castRingHom F) (node.children.map visits)
    simpa [List.map_map, Function.comp_def] using cast
  have total : 0 < (node.children.map visits).sum := by
    refine List.sum_pos _ (fun count member => ?_) (by simpa using some)
    obtain ⟨child, there, rfl⟩ := List.mem_map.mp member
    exact visited child there
  have values : node.rootDistribution.values = (node.children.map fun child => (child.visits : F)).map
      (· / (node.children.map fun child => (child.visits : F)).sum) := by
    simp only [rootDistribution, if_neg total.ne', sum]
    rw [values_ofList _ distinct, List.map_map]
    rfl
  refine ⟨fun value member => ?_, ?_⟩
  · rw [values] at member
    obtain ⟨weight, there, rfl⟩ := List.mem_map.mp member
    obtain ⟨child, _, rfl⟩ := List.mem_map.mp there
    rw [← sum]
    exact div_nonneg (Nat.cast_nonneg _) (Nat.cast_nonneg _)
  · rw [values, sum_div, div_self]
    rw [← sum]
    exact_mod_cast total.ne'

end SearchNode

end Distributions

namespace PUCTSearch

section Replays

variable [Zero F] [One F] [Add F] [Sub F] [Mul F] [Div F] [Neg F] [LT F] [LE F] [DecidableLT F] [DecidableLE F]
  [DecidableEq F] [OfScientific F] [NatCast F] [IntCast F] [DecidableEq H]
  {runtime : Runtime F} {hashing : Hashing F H} {search : PUCTSearch F H}

theorem replay_at {path : List (Move F)} {node found : SearchNode F} (there : node.At path found)
    (linked : node.Everywhere (Linked runtime hashing search)) :
    search.scenario.replay runtime hashing search.benched path node.position = .ok found.position := by
  induction there with
  | here => rfl
  | @step node child found path member _ ih =>
      obtain ⟨_, move, named, _, _, applied⟩ := linked.here.children child member
      rw [named]
      simp only [Option.toList_some, List.singleton_append, Scenario.replay, applied, bind, Except.bind]
      exact ih (linked.children child member)

end Replays

section Exact

variable [Field F] [LinearOrder F] [IsStrictOrderedRing F] [DecidableEq H] {runtime : Runtime F}
  {hashing : Hashing F H} {search : PUCTSearch F H} {before after : Scores F H} {value : F} {node next : SearchNode F}

/-- The sum of values of a node is at most its visits. -/
def Bounded (node : SearchNode F) : Prop := |node.valueSum| ≤ node.visits

theorem Bounded.visit (bounded : Bounded node) (visits : next.visits = node.visits + 1)
    (sum : next.valueSum = node.valueSum + value) (low : -1 ≤ value) (high : value ≤ 1) : Bounded next := by
  have sides := abs_le.mp bounded
  rw [Bounded, visits, sum, abs_le]
  push_cast
  exact ⟨by linarith [sides.1], by linarith [sides.2]⟩

theorem Simulated.bounded (simulated : Simulated runtime hashing search before value after node next)
    (low : -1 ≤ value) (high : value ≤ 1) (bounded : node.Everywhere Bounded) : next.Everywhere Bounded := by
  induction simulated with
  | terminal => exact .intro (bounded.here.visit rfl rfl low high) bounded.children
  | @expanded node move rest priors position prior _ _ _ _ _ =>
      refine .intro (bounded.here.visit rfl rfl low high) fun child member => ?_
      have leaf : ((SearchNode.make position (some move) prior).visit value).Everywhere Bounded := by
        refine .intro ?_ (by simp [SearchNode.make, SearchNode.visit])
        simp only [Bounded, SearchNode.make, SearchNode.visit, zero_add, Nat.cast_one]
        exact abs_le.mpr ⟨low, high⟩
      rcases SearchNode.mem_setChild member with rfl | old
      · exact leaf
      · exact bounded.children child old
  | dead => exact .intro (bounded.here.visit rfl rfl low high) bounded.children
  | descended _ _ _ there _ ih =>
      refine .intro (bounded.here.visit rfl rfl low high) fun child member => ?_
      rcases List.mem_or_eq_of_mem_set member with old | rfl
      · exact bounded.children child old
      · exact ih (bounded.children _ (List.mem_of_getElem? there))

theorem simulations_bounded (exact : runtime.Exact) (accepted : search.Accepted runtime hashing) {count : Nat}
    {root : SearchNode F} {scores : Scores F H}
    (ran : search.simulations runtime hashing count = .ok (root, scores)) :
    Faithful runtime hashing search scores ∧ root.Everywhere Bounded := by
  have scenario := Scenario.postInit_accepted accepted.scenario
  refine simulations_kept (P := fun _ root scores => Faithful runtime hashing search scores ∧ root.Everywhere Bounded)
    (fun root made => ?_) ?_ ran
  · obtain ⟨_, _, visits, sum, childless, _⟩ := makeRoot_ok made
    refine ⟨fun hash card found => by simp [Dict.get?] at found, .intro ?_ (by simp [childless])⟩
    simp [Bounded, visits, sum]
  · intro count root before value next after ran ⟨faithful, bounded⟩ simulated
    obtain ⟨tree, _⟩ := simulations_tree scenario ran
    have reached : root.Everywhere fun other => Reached runtime hashing search other.position :=
      .intro tree.1.linked.reached fun child member => (tree.2 child member).mono fun _ grown => grown.linked.reached
    obtain ⟨kept, low, high⟩ := simulated.bounds exact accepted faithful reached.here reached
    exact ⟨kept, simulated.bounded low high bounded⟩

/-- The books of a search tree after some simulations. -/
structure Bookkeeping (runtime : Runtime F) (hashing : Hashing F H) (search : PUCTSearch F H) (count : Nat)
    (root : SearchNode F) : Prop where
  replays : ∀ path node, root.At path node → search.scenario.replay runtime hashing search.benched path
    search.scenario.initialPosition = .ok node.position
  partition : ∀ path node moves, root.At path node → node.unexpanded = some moves →
    ∃ legal, search.scenario.legalMoves node.position search.benched = .ok legal ∧
      (node.children.map SearchNode.id ++ moves.map Move.id).Perm (legal.map Move.id) ∧ (legal.map Move.id).Nodup
  rootVisits : root.visits = count
  rootSum : root.children ≠ [] → root.visits = root.childVisits
  visited : ∀ path node, root.At path node → ∀ child ∈ node.children, 1 ≤ child.visits
  counted : ∀ path node, root.At path node → ∀ child ∈ node.children, child.children ≠ [] →
    child.visits = 1 + child.childVisits
  bounded : ∀ path node, root.At path node → |node.valueSum| ≤ node.visits
  distributed : ∀ path node, root.At path node → node.children ≠ [] →
    Distributed node.rootDistribution ∧ Distributed node.visitTarget

/-- The tree that some simulations of a search have built. -/
theorem simulations_bookkeeping (runtime : Runtime F) (hashing : Hashing F H) (search : PUCTSearch F H)
    (count : Nat) (root : SearchNode F) (scores : Scores F H) (exact : runtime.Exact)
    (accepted : search.Accepted runtime hashing)
    (ran : search.simulations runtime hashing count = .ok (root, scores)) :
    Bookkeeping runtime hashing search count root := by
  have scenario := Scenario.postInit_accepted accepted.scenario
  obtain ⟨tree, visits, position, _⟩ := simulations_tree scenario ran
  obtain ⟨_, bounded⟩ := simulations_bounded exact accepted ran
  have linked := tree.linked
  have grown : root.Everywhere fun node => ∀ child ∈ node.children, Grown runtime hashing search 1 child := by
    refine .intro (fun child member => (tree.2 child member).here) fun child member => ?_
    have each := tree.2 child member
    clear member
    induction each with
    | intro _ below ih => exact .intro (fun other there => (below other there).here) ih
  have partitioned : ∀ path node moves, root.At path node → node.unexpanded = some moves →
      ∃ legal, search.scenario.legalMoves node.position search.benched = .ok legal ∧
        (node.children.map SearchNode.id ++ moves.map Move.id).Perm (legal.map Move.id) ∧
        (legal.map Move.id).Nodup := by
    intro path node moves there opened
    obtain ⟨legal, listed, _, same⟩ := (linked.reaches there).here.candidates moves opened
    exact ⟨legal, listed, same, Scenario.legalMoves_distinct scenario listed⟩
  have distinct : ∀ path node, root.At path node → (node.children.map SearchNode.id).Nodup := by
    intro path node there
    cases opened : node.unexpanded with
    | none => simp [(linked.reaches there).here.uninitialised opened]
    | some moves =>
        obtain ⟨legal, _, same, apart⟩ := partitioned path node moves there opened
        exact (List.nodup_append.mp (same.nodup_iff.mpr apart)).1
  refine ⟨fun path node there => ?_, partitioned, visits, fun some => ?_, fun path node there child member => ?_,
    fun path node there child member => ?_, fun path node there => ?_, fun path node there some => ⟨?_, ?_⟩⟩
  · exact position ▸ replay_at there linked
  · rw [tree.1.counted some, Nat.zero_add]
  · exact ((grown.reaches there).here child member).visited
  · exact ((grown.reaches there).here child member).counted
  · exact (bounded.reaches there).here
  · exact SearchNode.rootDistribution_distributed (distinct path node there) some fun child member =>
      ((grown.reaches there).here child member).visited
  · exact SearchNode.visitTarget_distributed (distinct path node there) some

end Exact

end PUCTSearch

namespace Sample

def search : PUCTSearch ℚ (List (Token ℚ)) where
  scenario := scenario none
  benchmark := suite (scenario none) 1
  model := model
  cPuct := 1
  seed := 7
  rootNoiseFraction := 0

theorem search_accepted : search.Accepted runtime (spelled ℚ) where
  scenario := by decide +kernel
  moves := by decide +kernel
  benchmark := by decide +kernel
  metrics := by decide +kernel
  search := by
    refine ⟨model, ?_⟩
    simp only [PUCTSearch.init, bind_eq_ok, ensure_eq_ok, pure_eq_ok]
    exact ⟨(), by decide +kernel, (), by decide +kernel, (), by decide +kernel, (), by decide +kernel, (),
      by decide +kernel, model, frozenCopy_ok (by decide +kernel), rfl⟩

end Sample

open Sample in
theorem PUCTSearch.simulations_bookkeeping_sample : ∃ root scores,
    search.simulations runtime (spelled ℚ) 5 = .ok (root, scores) ∧ Bookkeeping runtime (spelled ℚ) search 5 root := by
  have completes : (search.simulations runtime (spelled ℚ) 5).toOption.isSome = true := by decide +kernel
  cases ran : search.simulations runtime (spelled ℚ) 5 with
  | error error => simp [ran, Except.toOption] at completes
  | ok result =>
      exact ⟨result.1, result.2, rfl, simulations_bookkeeping runtime (spelled ℚ) search 5 result.1 result.2
        runtime_exact search_accepted ran⟩

end AgentTree.Engine
