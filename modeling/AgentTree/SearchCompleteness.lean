import AgentTree.SearchLimits
import AgentTree.SearchOutcomes
import Mathlib.Analysis.Complex.Trigonometric
import Mathlib.Analysis.SpecialFunctions.Log.Basic

/-!
What a search of enough simulations returns.  Its tree holds every position that legal moves
lead to, so that its result is the best terminal there is.
-/

set_option linter.unusedSectionVars false

namespace AgentTree.Engine

open Outcome Relational PolicyValueModel

variable {F H : Type}

/-- Digests do not collide, and their texts are those of full digests. -/
structure Hashing.Ideal (hashing : Hashing F H) : Prop where
  injective : Function.Injective hashing.digest
  full : ∀ value, hashing.isFull (hashing.digest value) = true
  text : ∀ value, (hashing.text (hashing.digest value)).length = 64

section Limit

variable [Field F] [LinearOrder F] [IsStrictOrderedRing F] [DecidableEq H] {runtime : Runtime F}
  {hashing : Hashing F H}

namespace PUCTSearch

variable {search : PUCTSearch F H} {before after : Scores F H} {node : SearchNode F}

/-! Receipts. -/

theorem visitTarget_keys (node : SearchNode F) :
    ∀ key ∈ node.visitTarget.keys, key ∈ node.children.map SearchNode.id := by
  intro key member
  simp only [SearchNode.visitTarget, Dict.keys, Dict.mapValues, List.map_map, List.mem_map, Function.comp_def] at member
  obtain ⟨entry, there, rfl⟩ := member
  obtain ⟨child, member, rfl⟩ := List.mem_map.mp (Dict.mem_ofList there)
  exact List.mem_map_of_mem member

/-- A parent in the tree has a receipt. -/
theorem policyTarget_total (exact : runtime.Exact) (ideal : hashing.Ideal) (accepted : search.Accepted runtime hashing)
    (linked : Linked runtime hashing search node) :
    ∃ target, search.policyTarget runtime hashing node = .ok target := by
  have scenario := Scenario.postInit_accepted accepted.scenario
  simp only [policyTarget]
  split
  next => exact ⟨none, rfl⟩
  next filled =>
    obtain ⟨legal, listed⟩ := Reached.listed accepted linked.reached
    have apart := Scenario.legalMoves_distinct scenario listed
    have some : node.children ≠ [] := by
      rintro childless
      simp [SearchNode.visitTarget, childless, Dict.ofList, Dict.mapValues, Table.empty] at filled
    have ids : (candidates hashing legal).map Prod.fst = legal.map Move.id := by
      simp [candidates, List.map_map, Function.comp_def]
    obtain ⟨moves, same⟩ : ∃ moves : List (Move F),
        (node.children.map SearchNode.id ++ moves.map Move.id).Perm (legal.map Move.id) := by
      cases opened : node.unexpanded with
      | none => exact absurd (linked.uninitialised opened) some
      | some moves =>
          obtain ⟨others, again, _, same⟩ := linked.candidates moves opened
          obtain rfl : legal = others := by simpa [listed] using again
          exact ⟨moves, same⟩
    obtain ⟨nonneg, total⟩ := SearchNode.visitTarget_distributed
      (List.nodup_append.mp (same.nodup_iff.mpr apart)).1 some
    refine ⟨_, bind_eq_ok.mpr ⟨legal, listed, bind_eq_ok.mpr ⟨(), ?_, rfl⟩⟩⟩
    simp only [PolicyTargetReceipt.postInit, bind_eq_ok, forM_eq_ok, ensure_eq_ok, ids, decide_eq_true_eq]
    refine ⟨(), apart, (), fun candidate member => ?_, (), ?_, (), ?_, ?_⟩
    · obtain ⟨move, there, rfl⟩ := List.mem_map.mp member
      obtain ⟨_, phase, place, present, _⟩ := (Scenario.mem_legalMoves listed).mp there
      have checked := accepted.moves phase (List.mem_of_getElem? place) move present
      simp only [Move.postInit, bind_eq_ok, ensure_eq_ok, Bool.and_eq_true, decide_eq_true_eq] at checked
      obtain ⟨_, ⟨⟨named, _⟩, _⟩, _⟩ := checked
      simp [named, Move.contentHash, ideal.text]
    · rw [List.all_eq_true]
      intro key member
      exact decide_eq_true (same.mem_iff.mp (List.mem_append_left _ (visitTarget_keys node key member)))
    · rw [List.all_eq_true]
      intro value member
      simp [exact.finite, nonneg value member]
    · rw [pySum_eq_sum, total]
      simp [isClose, pyAbs_eq_abs]

theorem feasibleTerminals_total (accepted : search.Accepted runtime hashing) (paths : List (List (SearchNode F)))
    (scores : Scores F H) : ∃ result, search.feasibleTerminals runtime hashing paths scores = .ok result := by
  induction paths generalizing scores with
  | nil => exact ⟨_, rfl⟩
  | cons path rest ih =>
      unfold feasibleTerminals
      split
      next => exact ih scores
      next terminal _ =>
        obtain ⟨card, middle, scored⟩ := score_total accepted scores terminal.position
        obtain ⟨result, listed⟩ := ih middle
        exact ⟨_, bind_eq_ok.mpr ⟨(card, middle), scored, bind_eq_ok.mpr ⟨result, listed, rfl⟩⟩⟩

theorem choose_total (accepted : search.Accepted runtime hashing) (found : List (Found F)) (scores : Scores F H) :
    ∃ result, search.choose runtime hashing found scores = .ok result := by
  have scenario := Scenario.postInit_accepted accepted.scenario
  unfold choose
  split
  next =>
    obtain ⟨phase, first⟩ : ∃ phase, search.scenario.phases.head? = some phase := by
      cases phases : search.scenario.phases with
      | nil => exact absurd scenario.four (by simp [phases])
      | cons phase rest => exact ⟨phase, rfl⟩
    obtain ⟨move, head⟩ : ∃ move, phase.head? = some move := by
      cases filled : phase with
      | nil => exact absurd filled (scenario.filled phase (List.mem_of_head? first))
      | cons move rest => exact ⟨move, rfl⟩
    have abstains : search.scenario.safeAbstain Scenario.systemAbstainText = .ok { search.scenario.initialPosition with
        trajectory := [Scenario.systemAbstain move.predictedMetrics Scenario.systemAbstainText]
        terminalStatus := some .abstained } := by
      simp [Scenario.safeAbstain, first, head, orRaise, bind, Except.bind, pure, Except.pure]
    obtain ⟨card, after, scored⟩ := score_total accepted scores { search.scenario.initialPosition with
        trajectory := [Scenario.systemAbstain move.predictedMetrics Scenario.systemAbstainText]
        terminalStatus := some .abstained }
    exact ⟨_, bind_eq_ok.mpr ⟨_, abstains, bind_eq_ok.mpr ⟨(card, after), scored, rfl⟩⟩⟩
  next others =>
    have filled : found ≠ [] := by simpa using others
    obtain ⟨best, greatest⟩ := maximum_ok foundBefore filled
    exact ⟨_, bind_eq_ok.mpr ⟨best, greatest, rfl⟩⟩

theorem simulations_faithful (exact : runtime.Exact) (accepted : search.Accepted runtime hashing) {count : Nat}
    {scores : Scores F H} (ran : search.simulations runtime hashing count = .ok (node, scores)) :
    Faithful runtime hashing search scores ∧ node.Everywhere (Linked runtime hashing search) :=
  ⟨(simulations_bounded exact accepted ran).1,
    (simulations_tree (Scenario.postInit_accepted accepted.scenario) ran).1.linked⟩

/-- Where a terminal of the tree ends. -/
theorem terminalPaths_reached (linked : node.Everywhere (Linked runtime hashing search)) :
    ∀ path ∈ SearchNode.terminalPaths [] node, ∀ terminal, path.getLast? = some terminal →
      Reached runtime hashing search terminal.position := by
  intro path member terminal last
  obtain ⟨below, _, rfl, there, _, _⟩ := SearchNode.mem_terminalPaths.mp member
  exact (there.everywhere linked terminal (List.mem_of_getLast? last)).here.reached

/-- Every positive number of simulations returns a result. -/
theorem run_total (exact : runtime.Exact) (positive : runtime.Positive) (ideal : hashing.Ideal)
    (accepted : search.Accepted runtime hashing) (playable : search.Playable runtime hashing) {count : Int}
    (some : 0 < count) : ∃ result, search.run runtime hashing count = .ok result := by
  have scenario := Scenario.postInit_accepted accepted.scenario
  obtain ⟨root, scores, ran, _⟩ := simulations_total exact positive accepted playable count.toNat
  obtain ⟨faithful, linked⟩ := simulations_faithful exact accepted ran
  obtain ⟨⟨found, middle⟩, listed⟩ := feasibleTerminals_total accepted (SearchNode.terminalPaths [] root) scores
  obtain ⟨⟨choice, last⟩, chosen⟩ := choose_total accepted found middle
  obtain ⟨_, sound, _⟩ := feasibleTerminals_ok scenario ideal.injective faithful (terminalPaths_reached linked) listed
  have selected : ∀ inner ∈ choice.selected, Linked runtime hashing search inner := by
    intro inner member
    rcases choose_ok chosen with ⟨_, _, _, _, _, rfl⟩ | ⟨best, greatest, rfl⟩
    · simp at member
    · obtain ⟨below, _, same, there, _, _⟩ :=
        SearchNode.mem_terminalPaths.mp (sound best (maximum_mem greatest)).1
      exact (there.everywhere linked inner (by simpa [same] using List.mem_of_mem_dropLast member)).here
  obtain ⟨targets, receipts⟩ := mapM_total fun inner member =>
    policyTarget_total exact ideal accepted (selected inner member)
  refine ⟨_, bind_eq_ok.mpr ⟨(), ensure_eq_ok.mpr (decide_eq_true some), bind_eq_ok.mpr ⟨(root, scores), ran,
    bind_eq_ok.mpr ⟨(found, middle), listed, bind_eq_ok.mpr ⟨(choice, last), chosen,
    bind_eq_ok.mpr ⟨targets, receipts, bind_eq_ok.mpr ⟨(), ?_, rfl⟩⟩⟩⟩⟩⟩⟩
  exact ensure_eq_ok.mpr (ideal.full _)

/-! The limit. -/

/-- A search of enough simulations has completed its tree. -/
theorem simulations_complete [Archimedean F] (exact : runtime.Exact) (positive : runtime.Positive)
    (rooted : Rooted runtime) (accepted : search.Accepted runtime hashing)
    (playable : search.Playable runtime hashing) (explores : 0 < search.cPuct) :
    ∃ enough, ∀ count, enough ≤ count → ∀ root scores,
      search.simulations runtime hashing count = .ok (root, scores) → Complete root := by
  have scenario := Scenario.postInit_accepted accepted.scenario
  choose root scores ran prioritised using simulations_total exact positive accepted playable
  have passes : History runtime hashing search root := by
    refine ⟨fun time => .inr ?_, fun bound => ⟨bound, (simulations_tree scenario (ran bound)).2.1.ge⟩⟩
    obtain ⟨earlier, before, value, again, simulated⟩ := simulations_succ (ran (time + 1))
    obtain ⟨rfl, rfl⟩ : root time = earlier ∧ scores time = before := by simpa [ran time] using again
    obtain ⟨faithful, linked⟩ := simulations_faithful exact accepted (ran time)
    obtain ⟨_, low, high⟩ := simulated.bounds exact accepted faithful linked.here.reached
      (linked.mono fun _ inner => inner.reached)
    exact ⟨_, value, _, low, high, simulated⟩
  have start : Sound runtime hashing search 0 (root 0) :=
    ⟨(simulations_tree scenario (ran 0)).1, (simulations_bounded exact accepted (ran 0)).2, prioritised 0⟩
  obtain ⟨enough, complete⟩ := passes.completes exact positive rooted accepted explores _ start (le_refl _)
  refine ⟨enough, fun count later other cache again => ?_⟩
  obtain ⟨rfl, _⟩ : root count = other ∧ scores count = cache := by simpa [ran count] using again
  exact passes.complete_mono later complete

/-- A reached terminal with its scorecard, which is feasible. -/
structure Attainable (runtime : Runtime F) (hashing : Hashing F H) (search : PUCTSearch F H) (position : Position F)
    (card : ScoreCard F) : Prop where
  reached : Reached runtime hashing search position
  terminal : position.terminal = true
  scored : search.benchmark.evaluate runtime hashing position = .ok card
  feasible : card.feasible = true

/-- The result is the abstention of the system. -/
structure SystemAbstention (search : PUCTSearch F H) (result : SearchResult F H) : Prop where
  terminalNode : result.terminalNode = none
  finalPosition : search.scenario.safeAbstain Scenario.systemAbstainText = .ok result.finalPosition
  trajectory : result.trajectory = result.finalPosition.trajectory
  abstained : result.abstained = true

/-- A result that leaves nothing out. -/
structure Conclusive (runtime : Runtime F) (hashing : Hashing F H) (search : PUCTSearch F H)
    (result : SearchResult F H) : Prop where
  covers : ∀ position, Reached runtime hashing search position →
    ∃ path node, result.root.At path node ∧ node.position = position
  best : (∃ position card, Attainable runtime hashing search position card) →
    Attainable runtime hashing search result.finalPosition result.score ∧
      ∀ position card, Attainable runtime hashing search position card → card.reward ≤ result.score.reward
  abstains : SystemAbstention search result ↔ ¬∃ position card, Attainable runtime hashing search position card

theorem foundBefore_le {a b : Found F} (less : foundBefore a b = true) : a.score.reward ≤ b.score.reward := by
  unfold foundBefore at less
  split at less
  next => exact (of_decide_eq_true less).le
  next same => exact (not_not.mp same).le

theorem foundBefore_ge {a b : Found F} (less : foundBefore a b = false) : b.score.reward ≤ a.score.reward := by
  unfold foundBefore at less
  split at less
  next => exact not_lt.mp (of_decide_eq_false less)
  next same => exact (not_not.mp same).ge

/-- A search of enough simulations has the best terminal there is, or abstains where there is none. -/
theorem run_conclusive [Archimedean F] (runtime : Runtime F) (hashing : Hashing F H) (search : PUCTSearch F H)
    (exact : runtime.Exact) (positive : runtime.Positive) (rooted : Rooted runtime) (ideal : hashing.Ideal)
    (accepted : search.Accepted runtime hashing) (playable : search.Playable runtime hashing)
    (explores : 0 < search.cPuct) :
    ∃ enough : Int, ∀ count, enough ≤ count →
      ∃ result, search.run runtime hashing count = .ok result ∧ Conclusive runtime hashing search result := by
  have scenario := Scenario.postInit_accepted accepted.scenario
  obtain ⟨enough, completed⟩ := simulations_complete exact positive rooted accepted playable explores
  refine ⟨enough + 1, fun count later => ?_⟩
  obtain ⟨result, returned⟩ := run_total exact positive ideal accepted playable (show 0 < count by omega)
  refine ⟨result, returned, ?_⟩
  obtain ⟨_, scores, found, middle, choice, last, ran, listed, chosen, reports⟩ := run_ok returned
  obtain ⟨faithful, linked⟩ := simulations_faithful exact accepted ran
  have start := (simulations_tree scenario ran).2.2.1
  have complete := completed count.toNat (by omega) _ _ ran
  obtain ⟨_, sound, every⟩ := feasibleTerminals_ok scenario ideal.injective faithful (terminalPaths_reached linked) listed
  have covers : ∀ position, Reached runtime hashing search position →
      ∃ path node, result.root.At path node ∧ node.position = position :=
    fun position reached => complete.reached scenario linked start reached
  have present : ∀ position card, Attainable runtime hashing search position card →
      ∃ one ∈ found, one.score = card := by
    intro position card attainable
    obtain ⟨path, node, there, rfl⟩ := covers position attainable.reached
    obtain ⟨nodes, inside, final⟩ := there.path
    exact ⟨_, every nodes (SearchNode.mem_terminalPaths.mpr ⟨nodes, node, rfl, inside, final, attainable.terminal⟩)
      node card final attainable.scored attainable.feasible, rfl⟩
  have attained : ∀ one ∈ found, Attainable runtime hashing search one.terminal.position one.score := by
    intro one member
    obtain ⟨inside, genuine⟩ := sound one member
    obtain ⟨below, terminal, same, _, final, stops⟩ := SearchNode.mem_terminalPaths.mp inside
    obtain rfl := Option.some.inj ((same ▸ genuine.last).symm.trans final)
    exact ⟨terminalPaths_reached linked _ inside _ genuine.last, stops, genuine.scored, genuine.feasible⟩
  rcases choose_ok chosen with ⟨none, position, card, abstains, _, rfl⟩ | ⟨best, greatest, rfl⟩
  · have nothing : ¬∃ position card, Attainable runtime hashing search position card := by
      rintro ⟨position, card, attainable⟩
      obtain ⟨one, member, _⟩ := present position card attainable
      simp [none] at member
    refine ⟨covers, fun some => absurd some nothing, fun _ => nothing, fun _ => ?_⟩
    exact ⟨reports.terminalNode, reports.finalPosition ▸ abstains, by rw [reports.trajectory, reports.finalPosition],
      reports.abstained⟩
  · have chosen := attained best (maximum_mem greatest)
    refine ⟨covers, fun _ => ⟨?_, fun position card attainable => ?_⟩, fun abstention => ?_, fun none => ?_⟩
    · rw [reports.finalPosition, reports.score]
      exact chosen
    · obtain ⟨one, member, rfl⟩ := present position card attainable
      rw [reports.score]
      exact (maximum_spec (fun a b : Found F => a.score.reward ≤ b.score.reward) (fun _ => le_refl _)
        (fun _ _ _ => le_trans) (fun _ _ => foundBefore_le) (fun _ _ => foundBefore_ge) greatest).2 one member
    · exact absurd (reports.terminalNode.symm.trans abstention.terminalNode) (by simp)
    · exact absurd ⟨_, _, chosen⟩ none

end PUCTSearch

end Limit

/-! A scenario of two proposals. -/

theorem Scenario.checkMove_intro [DecidableEq H] {hashing : Hashing F H} {index : Nat} {kinds : List MoveKind}
    {ids : List String} {signatures : List H} {move : Move F} (kind : move.kind ∈ kinds) (id : move.id ∉ ids)
    (signature : move.semanticSignature hashing ∉ signatures) (linkage : Scenario.checkLinkage move = .ok ()) :
    Scenario.checkMove hashing index kinds ids signatures move = .ok () := by
  simp [Scenario.checkMove, kind, id, signature, linkage, ensure, bind, Except.bind]

namespace RealSample

/-- The real functions; the generator is drawn on where there is noise only. -/
noncomputable def runtime : Runtime ℝ where
  isFinite _ := true
  log := Real.log
  exp := Real.exp
  sqrt := Real.sqrt
  tanh := Real.tanh
  gammas _ _ := 1
  text _ := ""
  fixed3 _ := ""
  repr text := text

/-- Digests that are spelled out, and texts of sixty-four digits. -/
def digests : Hashing ℝ (List (Token ℝ)) := { spelled ℝ with text := fun _ => String.ofList (List.replicate 64 '0') }

noncomputable def move (id : String) (kind : MoveKind) (opens answers : Option String) : Move ℝ where
  id
  actionKey := "act-" ++ id
  kind
  actor := "agent"
  text := ""
  basePrior := 1
  predictedMetrics := Dict.ofList [("safety", 1)]
  cost := 0
  tags := ["tag"]
  opensQuestion := opens
  requiresQuestion := answers
  resolvesQuestion := answers
  evidenceRefs := ["trace://run"]
  violations := []

/-- Two proposals, a question, an answer and a commitment. -/
noncomputable def scenario : Scenario ℝ where
  name := "case"
  version := "1"
  description := ""
  phases := [[move "p" .propose none none, move "r" .propose none none], [move "q" .question (some "why") none],
    [move "a" .answer none (some "why")], [move "c" .commit none none]]

noncomputable def suite : BenchmarkSuite ℝ (List (Token ℝ)) where
  version := "1"
  scenarioManifestHash := scenario.manifestHash digests
  metrics := [⟨"safety", 1, none⟩]
  receiptMetrics := Dict.ofList (scenario.phases.flatten.map fun move =>
    (move.contentHash digests, Dict.ofList [("safety", 1)]))
  phaseImportance := [1, 1, 1, 1]
  costWeight := 0
  criticalSafetyMinimum := 0
  violationReward := -1
  abstainReward := 0
  trustedEvidencePrefixes := ["trace://"]

noncomputable def model : PolicyValueModel ℝ where
  policyWeights := Table.empty
  valueWeights := Table.empty
  valueBias := 0
  valueUpdates := 0
  generation := 0
  agentRecords := Table.empty
  policyLimit := 2.5
  valueLimit := 2.5
  benchMinSamples := 8
  benchUpperThreshold := 0.58

noncomputable def search : PUCTSearch ℝ (List (Token ℝ)) where
  scenario
  benchmark := suite
  model
  cPuct := 1
  seed := 7
  rootNoiseFraction := 0

theorem runtime_exact : runtime.Exact :=
  ⟨fun _ => rfl, fun value => ⟨(Real.neg_one_lt_tanh value).le, (Real.tanh_lt_one value).le⟩⟩

theorem runtime_positive : runtime.Positive := ⟨Real.exp_pos, fun _ _ => one_pos⟩

theorem runtime_rooted : PUCTSearch.Rooted runtime :=
  fun value nonneg => ⟨Real.sqrt_nonneg value, Real.mul_self_sqrt nonneg⟩

theorem digests_ideal : digests.Ideal :=
  ⟨Token.spell_injective, fun _ => rfl, fun _ => by rw [digests, String.length_ofList, List.length_replicate]⟩

theorem signatures_differ {id other : String} (apart : id ≠ other) (kind : MoveKind) (opens answers : Option String) :
    (move id kind opens answers).semanticSignature digests ≠ (move other kind opens answers).semanticSignature digests := by
  intro same
  have payload := digests_ideal.injective same
  simp only [Value.obj.injEq, List.cons.injEq, Prod.mk.injEq, Value.str.injEq, true_and, move] at payload
  exact apart (by simpa using payload.1)

theorem scenario_postInit : scenario.postInit digests = .ok () := by
  have first : Scenario.checkMoves digests 0 [.propose] [] [] [move "p" .propose none none, move "r" .propose none none] =
      .ok ["r", "p"] :=
    bind_eq_ok.mpr ⟨(), Scenario.checkMove_intro (by simp [move]) (by simp) (by simp) rfl, bind_eq_ok.mpr ⟨(),
      Scenario.checkMove_intro (by simp [move]) (by simp [move])
        (by simpa using signatures_differ (by decide : "r" ≠ "p") .propose none none) rfl, rfl⟩⟩
  have second : Scenario.checkMoves digests 1 [.question] ["r", "p"] [] [move "q" .question (some "why") none] =
      .ok ["q", "r", "p"] :=
    bind_eq_ok.mpr ⟨(), Scenario.checkMove_intro (by simp [move]) (by simp [move]) (by simp) rfl, rfl⟩
  have third : Scenario.checkMoves digests 2 [.answer] ["q", "r", "p"] [] [move "a" .answer none (some "why")] =
      .ok ["a", "q", "r", "p"] :=
    bind_eq_ok.mpr ⟨(), Scenario.checkMove_intro (by simp [move]) (by simp [move]) (by simp) rfl, rfl⟩
  have last : Scenario.checkMoves digests 3 [.commit, .abstain] ["a", "q", "r", "p"] [] [move "c" .commit none none] =
      .ok ["c", "a", "q", "r", "p"] :=
    bind_eq_ok.mpr ⟨(), Scenario.checkMove_intro (by simp [move]) (by simp [move]) (by simp) rfl, rfl⟩
  exact bind_eq_ok.mpr ⟨(), rfl, bind_eq_ok.mpr ⟨(), rfl, bind_eq_ok.mpr ⟨(), rfl, bind_eq_ok.mpr ⟨_, first,
    bind_eq_ok.mpr ⟨(), rfl, bind_eq_ok.mpr ⟨_, second, bind_eq_ok.mpr ⟨(), rfl, bind_eq_ok.mpr ⟨_, third,
    bind_eq_ok.mpr ⟨(), rfl, bind_eq_ok.mpr ⟨_, last, rfl⟩⟩⟩⟩⟩⟩⟩⟩⟩⟩

theorem metrics_rows : (Dict.ofList [("safety", (1 : ℝ))]).rows = [("safety", 1)] := Dict.rows_ofList (by simp)

theorem move_postInit (id : String) (kind : MoveKind) (opens answers : Option String) (named : id ≠ "") :
    (move id kind opens answers).postInit runtime = .ok () := by
  simp only [Move.postInit, bind_eq_ok, forM_eq_ok, ensure_eq_ok]
  refine ⟨(), ?_, (), ?_, (), ?_, fun entry member => ?_⟩
  · simp [move, named]
  · have weighty : ¬(1 : ℝ) ≤ 0 := by norm_num
    simp only [move, runtime, Bool.true_and, Bool.not_eq_true']
    exact decide_eq_false weighty
  · simp [move, runtime]
  · obtain rfl : entry = ("safety", 1) := by simpa [move, metrics_rows] using member
    simp [runtime]

theorem suite_postInit : suite.postInit runtime digests = .ok () := by
  simp only [BenchmarkSuite.postInit, bind_eq_ok, forM_eq_ok, ensure_eq_ok]
  refine ⟨(), rfl, (), rfl, (), rfl, (), ?_, (), ?_, (), ?_, (), ?_, (), ?_, (), ?_, (), rfl, fun receipt member => ?_⟩
  · simp [suite, pySum, isClose, pyAbs_eq_abs]
  · simp [suite, runtime]
  · simp [suite, runtime]
  · simp [suite, runtime]
  · simp [suite, runtime]
  · simp [suite, runtime]
  · obtain ⟨move, _, rfl⟩ := List.mem_map.mp (Dict.mem_ofList member)
    obtain ⟨value, held⟩ := Dict.get?_ofList_some (show "safety" ∈ [("safety", (1 : ℝ))].map Prod.fst by simp)
    simp only [BenchmarkSuite.checkReceipt, bind_eq_ok, forM_eq_ok, ensure_eq_ok]
    refine ⟨(), rfl, (), ?_, fun entry member => ?_⟩
    · simp [suite, BenchmarkSuite.names, Dict.contains, held]
    · obtain rfl : entry = ("safety", 1) := by simpa [metrics_rows] using member
      simp [runtime]

theorem model_valid : model.Valid where
  policyLimit := by norm_num [model]
  valueLimit := by norm_num [model]
  benchMinSamples := by norm_num [model]
  benchUpperThreshold := by norm_num [model]
  generation := le_refl _
  valueUpdates := le_refl _
  valueBias := by norm_num [model]
  policyWeights := by simp [model, Table.empty]
  valueWeights := by simp [model, Table.empty]
  agentRecords := by simp [model, Table.empty]

theorem moves_checked : ∀ phase ∈ scenario.phases, ∀ candidate ∈ phase, candidate.postInit runtime = .ok () ∧
    Scenario.reopens candidate = false ∧ candidate.predictedMetrics.contains "safety" = true := by
  have covered : (Dict.ofList [("safety", (1 : ℝ))]).contains "safety" = true := by
    rw [Dict.contains_iff, Dict.keys, metrics_rows]
    simp
  simp only [scenario, List.mem_cons, List.not_mem_nil, or_false]
  rintro phase (rfl | rfl | rfl | rfl) candidate member
  all_goals
    simp only [List.mem_cons, List.not_mem_nil, or_false] at member
  · rcases member with rfl | rfl
    · exact ⟨move_postInit _ _ _ _ (by decide), by simp [Scenario.reopens, move, truthy], covered⟩
    · exact ⟨move_postInit _ _ _ _ (by decide), by simp [Scenario.reopens, move, truthy], covered⟩
  · subst member
    exact ⟨move_postInit _ _ _ _ (by decide), by simp [Scenario.reopens, move], covered⟩
  · subst member
    exact ⟨move_postInit _ _ _ _ (by decide), by simp [Scenario.reopens, move, truthy], covered⟩
  · subst member
    exact ⟨move_postInit _ _ _ _ (by decide), by simp [Scenario.reopens, move, truthy], covered⟩

theorem search_built : PUCTSearch.init runtime digests scenario suite model 1 7 0 = .ok search := by
  simp only [PUCTSearch.init, bind_eq_ok, ensure_eq_ok, pure_eq_ok]
  refine ⟨(), ?_, (), ?_, (), ?_, (), ?_, (), rfl, model, frozenCopy_ok ((postInit_ok runtime_exact).mpr model_valid),
    rfl⟩
  · have explores : ¬(1 : ℝ) < 0 := by norm_num
    simp only [runtime, Bool.true_and, Bool.not_eq_true']
    exact decide_eq_false explores
  · simp
  · simp [suite]
  · rw [List.isEmpty_iff, List.filter_eq_nil_iff]
    intro hash member
    obtain ⟨move, listed, rfl⟩ := List.mem_map.mp (List.mem_dedup.mp member)
    have key : move.contentHash digests ∈ (scenario.phases.flatten.map fun move =>
        (move.contentHash digests, Dict.ofList [("safety", (1 : ℝ))])).map Prod.fst := by
      rw [List.map_map]
      exact List.mem_map.mpr ⟨move, (List.mem_filter.mp listed).1, rfl⟩
    have contained : suite.receiptMetrics.contains (move.contentHash digests) = true := by
      obtain ⟨values, held⟩ := Dict.get?_ofList_some key
      exact Option.isSome_iff_exists.mpr ⟨values, held⟩
    simp [contained]

theorem search_accepted : search.Accepted runtime digests where
  scenario := scenario_postInit
  moves phase there move member := (moves_checked phase there move member).1
  benchmark := suite_postInit
  metrics metric member := by
    obtain rfl : metric = ⟨"safety", 1, none⟩ := by simpa [search, suite] using member
    simp only [BenchmarkMetric.postInit, bind_eq_ok, ensure_eq_ok]
    exact ⟨(), rfl, (), by simp [runtime], rfl⟩
  search := ⟨model, search_built⟩

theorem search_playable : search.Playable runtime digests where
  applies position legal move reached listed member := by
    have accepted := Scenario.postInit_accepted scenario_postInit
    obtain ⟨_, phase, there, present, _⟩ := (Scenario.mem_legalMoves listed).mp member
    have closed := (moves_checked phase (List.mem_of_getElem? there) move present).2.1
    obtain ⟨openQuestions, asked⟩ := (Scenario.questionsAfter_legal accepted
      (Scenario.Reachable.coherent accepted reached) listed member).mpr closed
    have applied : search.scenario.apply runtime digests position move search.benched =
        (Scenario.questionsAfter runtime position.openQuestions move).map (Scenario.advance position move) :=
      Scenario.apply_eq accepted listed member rfl rfl
    exact ⟨_, applied.trans (by rw [asked]; rfl)⟩
  predicted phase there move member name listed := by
    obtain rfl : name = "safety" := by simpa [search, suite, BenchmarkSuite.names] using listed
    exact (moves_checked phase there move member).2.2

end RealSample

open RealSample in
theorem PUCTSearch.run_conclusive_sample : ∃ enough : Int, ∀ count, enough ≤ count →
    ∃ result, search.run runtime digests count = .ok result ∧ Conclusive runtime digests search result :=
  PUCTSearch.run_conclusive runtime digests search runtime_exact runtime_positive runtime_rooted digests_ideal
    search_accepted search_playable (by simp [search])

end AgentTree.Engine
