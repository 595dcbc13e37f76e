import AgentTree.SearchCompleteness

/-!
Learning from what a search returns.  The trajectory of the result replays along a path of
the tree, and every receipt of that path passes the checks that it meets.
-/

set_option linter.unusedSectionVars false

namespace AgentTree.Engine

open Outcome Relational PolicyValueModel

variable {F H : Type}

/-! Receipts against the replay. -/

section Receipts

variable [Zero F] [One F] [Add F] [Sub F] [Mul F] [Div F] [Neg F] [LT F] [LE F] [DecidableLT F] [DecidableLE F]
  [DecidableEq F] [OfScientific F] [NatCast F] [IntCast F] [DecidableEq H]
  {runtime : Runtime F} {hashing : Hashing F H} {search : PUCTSearch F H} {node : SearchNode F}

/-- The replay of the moves of a path goes through the positions of its nodes. -/
theorem replayStates_path (linked : node.Everywhere (PUCTSearch.Linked runtime hashing search))
    {path : List (SearchNode F)} (there : node.Path path) :
    ∃ rest found, path = node :: rest ∧ path.getLast? = some found ∧
      replayStates runtime hashing search.scenario search.benched (rest.filterMap SearchNode.move) node.position =
        .ok (path.dropLast.map SearchNode.position, found.position) := by
  induction there with
  | here node => exact ⟨[], node, rfl, rfl, rfl⟩
  | @step node child path member below ih =>
      obtain ⟨rest, found, rfl, last, replayed⟩ := ih (linked.children child member)
      obtain ⟨_, move, named, _, _, applied⟩ := linked.here.children child member
      refine ⟨child :: rest, found, rfl, by rw [List.getLast?_cons, last]; rfl, ?_⟩
      rw [List.filterMap_cons, named, List.dropLast_cons_of_ne_nil (List.cons_ne_nil _ _)]
      simp only [replayStates, applied, replayed, bind, Except.bind, pure, Except.pure, List.map_cons]

/-- A receipt of a position on the path that lists the legal moves there. -/
structure Fits (hashing : Hashing F H) (scenario : Scenario F) (benched : List String)
    (selected : Dict H (Position F)) (receipt : PolicyTargetReceipt F H) (lesson : Lesson F) : Prop where
  position : selected.get? (receipt.position.stateHash hashing) = some lesson.position
  legal : scenario.legalMoves lesson.position benched = .ok lesson.legal
  candidates : candidates hashing lesson.legal = receipt.candidateHashes
  targets : lesson.targetProbabilities = receipt.targetProbabilities

theorem validateTargets_fits {scenario : Scenario F} {benched : List String} {selected : Dict H (Position F)}
    {seen : List H} {receipts : List (PolicyTargetReceipt F H)} {lessons : List (Lesson F)}
    (fits : List.Forall₂ (Fits hashing scenario benched selected) receipts lessons)
    (fresh : ∀ receipt ∈ receipts, receipt.position.stateHash hashing ∉ seen)
    (distinct : (receipts.map fun receipt => receipt.position.stateHash hashing).Nodup) :
    validateTargets hashing scenario benched selected seen receipts = .ok lessons := by
  induction fits generalizing seen with
  | nil => rfl
  | @cons receipt lesson receipts lessons first _ ih =>
      simp only [List.map_cons, List.nodup_cons] at distinct
      have apart : ∀ other ∈ receipts,
          other.position.stateHash hashing ∉ receipt.position.stateHash hashing :: seen := by
        intro other member
        simp only [List.mem_cons, not_or]
        exact ⟨fun same => distinct.1 (List.mem_map.mpr ⟨other, member, same⟩),
          fresh other (List.mem_cons_of_mem _ member)⟩
      have later := ih apart distinct.2
      obtain ⟨position, legal, listed, targets⟩ := first
      have unseen := fresh receipt List.mem_cons_self
      simp [validateTargets, position, legal, listed, later, unseen, ← targets, Dict.contains, ensure, orRaise, bind,
        Except.bind, pure, Except.pure]

/-- The phases grow along a path. -/
theorem path_phases (scenario : search.scenario.Accepted)
    (linked : node.Everywhere (PUCTSearch.Linked runtime hashing search)) {path : List (SearchNode F)}
    (there : node.Path path) : (∀ inner ∈ path, node.position.phase ≤ inner.position.phase) ∧
      path.Pairwise fun first second => first.position.phase < second.position.phase := by
  induction there with
  | here => simp
  | @step node child path member below ih =>
      obtain ⟨least, ordered⟩ := ih (linked.children child member)
      obtain ⟨_, move, _, _, _, applied⟩ := linked.here.children child member
      obtain ⟨_, _, _, _, _, _, _, _, after⟩ := Scenario.apply_cases scenario applied
      have next : child.position.phase = node.position.phase + 1 := by rw [after]; rfl
      have later : ∀ inner ∈ path, node.position.phase < inner.position.phase := by
        intro inner inside
        have bound := least inner inside
        omega
      refine ⟨fun inner inside => ?_, List.pairwise_cons.mpr ⟨later, ordered⟩⟩
      rcases List.mem_cons.mp inside with rfl | inside
      · exact le_refl _
      · exact (later inner inside).le

/-- The nodes of a path have different hashes. -/
theorem path_hashes (scenario : search.scenario.Accepted) (injective : Function.Injective hashing.digest)
    (linked : node.Everywhere (PUCTSearch.Linked runtime hashing search)) {path : List (SearchNode F)}
    (there : node.Path path) : (path.map fun inner => inner.position.stateHash hashing).Nodup := by
  have each := there.everywhere linked
  refine List.pairwise_map.mpr (List.Pairwise.imp_of_mem ?_ (path_phases scenario linked there).2)
  intro first second inFirst inSecond earlier same
  have equal := Scenario.Reachable.determined scenario injective (each first inFirst).here.reached
    (each second inSecond).here.reached same
  rw [equal] at earlier
  omega

/-- What the receipt of a parent says. -/
theorem policyTarget_ok {target : Option (PolicyTargetReceipt F H)}
    (received : search.policyTarget runtime hashing node = .ok target) :
    target = none ∨ ∃ receipt legal, target = some receipt ∧ receipt.position = node.position ∧
      search.scenario.legalMoves node.position search.benched = .ok legal ∧
      candidates hashing legal = receipt.candidateHashes ∧ receipt.postInit runtime hashing = .ok () := by
  simp only [PUCTSearch.policyTarget] at received
  split at received
  next => exact .inl (Except.ok.inj received).symm
  next =>
    obtain ⟨legal, listed, rest⟩ := bind_eq_ok.mp received
    obtain ⟨_, checked, same⟩ := bind_eq_ok.mp rest
    exact .inr ⟨_, legal, (pure_eq_ok.mp same).symm, rfl, listed, rfl, checked⟩

/-- A lesson whose target passed the checks of a receipt. -/
def Teaches (runtime : Runtime F) (hashing : Hashing F H) (lesson : Lesson F) : Prop :=
  ∃ receipt : PolicyTargetReceipt F H, receipt.postInit runtime hashing = .ok () ∧
    candidates hashing lesson.legal = receipt.candidateHashes ∧
    lesson.targetProbabilities = receipt.targetProbabilities

theorem targets_fit {nodes : List (SearchNode F)} {targets : List (Option (PolicyTargetReceipt F H))}
    (received : List.Forall₂ (fun inner target => search.policyTarget runtime hashing inner = .ok target) nodes targets)
    {selected : Dict H (Position F)}
    (held : ∀ inner ∈ nodes, selected.get? (inner.position.stateHash hashing) = some inner.position) :
    ∃ lessons, List.Forall₂ (Fits hashing search.scenario search.benched selected)
        (targets.filterMap fun target => target) lessons ∧
      (∀ lesson ∈ lessons, Teaches runtime hashing lesson) ∧
      ((targets.filterMap fun target => target).map fun receipt => receipt.position.stateHash hashing).Sublist
        (nodes.map fun inner => inner.position.stateHash hashing) := by
  induction received with
  | nil => exact ⟨[], .nil, by simp, by simp⟩
  | @cons inner target nodes targets first _ ih =>
      obtain ⟨lessons, fits, teach, sublist⟩ := ih fun other member => held other (List.mem_cons_of_mem _ member)
      rcases policyTarget_ok first with rfl | ⟨receipt, legal, rfl, position, listed, manifest, checked⟩
      · exact ⟨lessons, fits, teach, sublist.cons _⟩
      · have here := held inner List.mem_cons_self
        refine ⟨⟨inner.position, legal, receipt.targetProbabilities⟩ :: lessons, .cons ?_ fits, fun lesson member => ?_, ?_⟩
        · exact ⟨position ▸ here, listed, manifest, rfl⟩
        · rcases List.mem_cons.mp member with rfl | member
          · exact ⟨receipt, checked, manifest, rfl⟩
          · exact teach lesson member
        · simp only [List.filterMap_cons, List.map_cons, position]
          exact sublist.cons_cons _

end Receipts

/-! Lessons. -/

section Exact

variable [Field F] [LinearOrder F] [IsStrictOrderedRing F] [DecidableEq H] {runtime : Runtime F}
  {hashing : Hashing F H} {model : PolicyValueModel F}

theorem learnMoves_ok {targets predicted : Dict String F} {rate : F} {moves : List (Move F)}
    (each : ∀ move ∈ moves, ∃ prior, predicted.get? move.id = some prior) (model : PolicyValueModel F) :
    (learnMoves targets predicted rate moves model).1 = .ok () := by
  induction moves generalizing model with
  | nil => rfl
  | cons move rest ih =>
      obtain ⟨prior, found⟩ := each move List.mem_cons_self
      simp only [learnMoves, found]
      exact ih (fun other member => each other (List.mem_cons_of_mem _ member)) _

/-- The policy learns the target of a receipt. -/
theorem learnPolicy_receipt (exact : runtime.Exact) (positive : ∀ value, 0 < runtime.exp value) (valid : model.Valid)
    {receipt : PolicyTargetReceipt F H} {legal : List (Move F)}
    (checked : receipt.postInit runtime hashing = .ok ()) (listed : candidates hashing legal = receipt.candidateHashes) :
    ∃ taught, model.learnPolicy runtime legal receipt.targetProbabilities policyRate = (.ok (), taught) := by
  obtain ⟨priors, predicted, each⟩ := priors_total exact positive valid legal
  have ids : receipt.candidateHashes.map Prod.fst = legal.map Move.id := by
    rw [← listed]
    simp [candidates, List.map_map, Function.comp_def]
  simp only [PolicyTargetReceipt.postInit, bind_eq_ok, ensure_eq_ok, ids] at checked
  obtain ⟨_, _, _, _, _, known, _, finite, sums⟩ := checked
  have rate : checkRate runtime "policy" (policyRate : F) = .ok () := by
    have low : (0 : F) < policyRate := by norm_num [policyRate]
    have high : (policyRate : F) ≤ 1 := by norm_num [policyRate]
    simp [checkRate, exact.finite, low, high, ensure]
  have prepared : model.predictTargets runtime legal receipt.targetProbabilities policyRate = .ok priors := by
    simp only [predictTargets, known, finite, sums, rate, predicted, ensure, if_true, bind, Except.bind]
  unfold learnPolicy
  split
  next => exact ⟨model, rfl⟩
  next =>
    rw [prepared]
    refine ⟨_, Prod.ext (learnMoves_ok (fun move member => ?_) model) rfl⟩
    obtain ⟨prior, found, _⟩ := each move member
    exact ⟨prior, found⟩

theorem learnValue_ok (exact : runtime.Exact) (model : PolicyValueModel F) (position : Position F) {reward : F}
    (bounds : -1 ≤ reward ∧ reward ≤ 1) :
    model.learnValue runtime position reward valueRate = (.ok (), model.shiftValue runtime position reward valueRate) := by
  have low : (0 : F) < valueRate := by norm_num [valueRate]
  have high : (valueRate : F) ≤ 1 := by norm_num [valueRate]
  have checked : checkReward runtime reward (valueRate : F) = .ok () := by
    simp [checkReward, checkRate, exact.finite, bounds.1, bounds.2, low, high, ensure, bind, Except.bind]
  rw [learnValue, checked]

theorem learnLesson_ok (exact : runtime.Exact) (positive : ∀ value, 0 < runtime.exp value) (valid : model.Valid)
    {lesson : Lesson F} (teaches : Teaches runtime hashing lesson) (systemAbstain : Bool) {reward : F}
    (bounds : -1 ≤ reward ∧ reward ≤ 1) :
    ∃ taught, learnLesson runtime systemAbstain reward model lesson = .ok taught := by
  obtain ⟨receipt, checked, listed, targets⟩ := teaches
  have policy : ∃ taught, settled (if systemAbstain then (Except.ok (), model)
      else model.learnPolicy runtime lesson.legal lesson.targetProbabilities policyRate) = .ok taught := by
    cases systemAbstain with
    | true => exact ⟨model, rfl⟩
    | false =>
        obtain ⟨taught, learned⟩ := learnPolicy_receipt exact positive valid checked listed
        exact ⟨taught, by rw [targets]; exact settled_eq_ok.mpr learned⟩
  obtain ⟨taught, learned⟩ := policy
  exact ⟨_, bind_eq_ok.mpr ⟨taught, learned, settled_eq_ok.mpr (learnValue_ok exact taught lesson.position bounds)⟩⟩

theorem learnLessons_ok (exact : runtime.Exact) (positive : ∀ value, 0 < runtime.exp value) (valid : model.Valid)
    (scenario : Scenario F) {lessons : List (Lesson F)} (teach : ∀ lesson ∈ lessons, Teaches runtime hashing lesson)
    (systemAbstain : Bool) {reward : F} (bounds : -1 ≤ reward ∧ reward ≤ 1) :
    ∃ taught, learnLessons runtime scenario systemAbstain reward lessons model = .ok taught := by
  have loop : ∃ taught, lessons.foldlM (learnLesson runtime systemAbstain reward) model = .ok taught := by
    induction lessons generalizing model with
    | nil => exact ⟨model, rfl⟩
    | cons lesson rest ih =>
        obtain ⟨next, first⟩ := learnLesson_ok exact positive valid (teach lesson List.mem_cons_self) systemAbstain bounds
        obtain ⟨taught, later⟩ := ih ((learnLesson_trained first).valid valid)
          fun other member => teach other (List.mem_cons_of_mem _ member)
        exact ⟨taught, by rw [List.foldlM_cons, first]; exact later⟩
  obtain ⟨taught, looped⟩ := loop
  unfold learnLessons
  rw [looped]
  cases empty : lessons.isEmpty with
  | true => exact ⟨_, settled_eq_ok.mpr (learnValue_ok exact taught scenario.initialPosition bounds)⟩
  | false => exact ⟨taught, rfl⟩

/-- What a successful training has published. -/
theorem learnFromResult_trained {scenario : Scenario F} {suite : BenchmarkSuite F H} {result : SearchResult F H}
    {states : List (Position F)} {replayed : Position F} {score : ScoreCard F} {lessons : List (Lesson F)}
    (exact : runtime.Exact) (valid : model.Valid) (bound : checkBinding hashing scenario suite model result = .ok ())
    (replays : result.replay runtime hashing scenario model.benchedAgents = .ok (states, replayed))
    (same : replayed.stateHash hashing = result.finalPosition.stateHash hashing)
    (scored : suite.evaluate runtime hashing replayed = .ok score)
    (checked : checkReplay hashing result replayed score = .ok ())
    (validated : validateTargets hashing scenario model.benchedAgents
      (Dict.ofList (states.map fun position => (position.stateHash hashing, position))) [] result.policyTargets =
      .ok lessons)
    (learns : ∃ taught, learnLessons runtime scenario (isSystemAbstain result.trajectory) score.reward lessons model =
      .ok taught) :
    ∃ learned, learnFromResult runtime hashing scenario suite model result = (.ok (), learned) ∧
      learned.generation = model.generation + 1 ∧
      learned.valueUpdates = model.valueUpdates + (max 1 lessons.length : Nat) := by
  obtain ⟨taught, learned⟩ := learns
  have frame := (learnLessons_trained learned).frame
  have trained : trainChallenger runtime hashing scenario suite model result =
      .ok { taught with generation := taught.generation + 1 } := by
    simp only [trainChallenger, bound, replays, same, scored, checked, validated,
      frozenCopy_ok ((postInit_ok exact).mpr valid), learned, ensure, decide_true, if_true, bind, Except.bind, pure,
      Except.pure]
  refine ⟨_, by rw [learnFromResult, trained], ?_, ?_⟩
  · show taught.generation + 1 = model.generation + 1
    rw [frame]
  · show taught.valueUpdates = model.valueUpdates + (max 1 lessons.length : Nat)
    rw [frame]

namespace PUCTSearch

variable {search : PUCTSearch F H}

/-- The search holds what its constructor was given. -/
theorem init_ok {scenario : Scenario F} {suite : BenchmarkSuite F H} {cPuct rootNoiseFraction : F} {seed : Int}
    (built : init runtime hashing scenario suite model cPuct seed rootNoiseFraction = .ok search) :
    search.scenario = scenario ∧ search.benchmark = suite ∧ search.model = model ∧
      suite.scenarioManifestHash = scenario.manifestHash hashing := by
  simp only [init, frozenCopy, bind_eq_ok, ensure_eq_ok, decide_eq_true_eq, pure_eq_ok] at built
  obtain ⟨_, _, _, _, _, bound, _, _, _, _, copy, ⟨_, _, rfl⟩, rfl⟩ := built
  exact ⟨rfl, rfl, rfl, bound⟩

theorem Reports.binding {choice : Choice F} {result : SearchResult F H}
    (reports : Reports runtime hashing search choice result)
    (bound : search.benchmark.scenarioManifestHash = search.scenario.manifestHash hashing) :
    checkBinding hashing search.scenario search.benchmark search.model result = .ok () := by
  obtain ⟨version, manifest, profile, model⟩ := reports.bindings
  simp only [checkBinding, bind_eq_ok, ensure_eq_ok, decide_eq_true_eq]
  exact ⟨(), version, (), manifest, (), bound, (), profile, (), model, reports.receipt⟩

theorem Reports.replay {choice : Choice F} {result : SearchResult F H}
    (reports : Reports runtime hashing search choice result)
    (flag : choice.abstained = decide (choice.finalPosition.terminalStatus = some .abstained))
    (terminal : choice.finalPosition.terminal = true) :
    checkReplay hashing result choice.finalPosition choice.score = .ok () := by
  simp only [checkReplay, bind_eq_ok, ensure_eq_ok, decide_eq_true_eq]
  refine ⟨(), by rw [reports.score], (), by rw [reports.abstained, flag], ?_⟩
  obtain ⟨status, found⟩ := Option.isSome_iff_exists.mp terminal
  rw [found]
  cases status <;> simp

/-- Whatever a search returns, its model learns from it. -/
theorem learnFromResult_run (runtime : Runtime F) (hashing : Hashing F H) (scenario : Scenario F)
    (suite : BenchmarkSuite F H) (model : PolicyValueModel F) (cPuct rootNoiseFraction : F) (seed count : Int)
    (search : PUCTSearch F H) (result : SearchResult F H) (exact : runtime.Exact)
    (positive : ∀ value, 0 < runtime.exp value) (injective : Function.Injective hashing.digest)
    (accepted : search.Accepted runtime hashing)
    (built : init runtime hashing scenario suite model cPuct seed rootNoiseFraction = .ok search)
    (ran : search.run runtime hashing count = .ok result) :
    ∃ learned, learnFromResult runtime hashing scenario suite model result = (.ok (), learned) ∧
      learned.generation = model.generation + 1 ∧
      learned.valueUpdates = model.valueUpdates + (max 1 result.policyTargets.length : Nat) := by
  obtain ⟨rfl, rfl, rfl, bound⟩ := init_ok built
  have valid := accepted.valid exact
  have accept := Scenario.postInit_accepted accepted.scenario
  have ranged := BenchmarkSuite.postInit_ranged accepted.benchmark
  obtain ⟨_, scores, found, middle, choice, last, simulated, listed, chosen, reports⟩ := run_ok ran
  obtain ⟨faithful, linked⟩ := simulations_faithful exact accepted simulated
  have start := (simulations_tree accept simulated).2.2.1
  obtain ⟨kept, sound, _⟩ := feasibleTerminals_ok accept injective faithful (terminalPaths_reached linked) listed
  have binding := reports.binding bound
  obtain ⟨targets, received, policyTargets⟩ := reports.policyTargets
  rcases choose_ok chosen with ⟨_, position, card, abstains, scored, rfl⟩ | ⟨best, greatest, rfl⟩
  · -- The system abstains: there is nothing on the path to learn from.
    have evaluated := score_safeAbstain accept injective kept abstains scored
    have safe := abstains
    simp only [Scenario.safeAbstain, bind_eq_ok, pure_eq_ok] at abstains
    obtain ⟨_, _, first, _, same⟩ := abstains
    have alone : isSystemAbstain result.trajectory = true := by
      rw [reports.trajectory, ← same]
      rfl
    have empty : result.policyTargets = [] := by
      obtain rfl : [] = targets := by simpa [pure, Except.pure] using received
      exact policyTargets
    have checked : checkReplay hashing result position card = .ok () :=
      reports.replay (by simp [← same]) (by simp [← same, Position.terminal])
    have free : 0 ≤ position.spentCost := by simp [← same, Scenario.initialPosition]
    have none : ∀ lesson ∈ ([] : List (Lesson F)), Teaches runtime hashing lesson := by simp
    have learns := learnLessons_ok exact positive valid search.scenario none (isSystemAbstain result.trajectory)
      (BenchmarkSuite.evaluate_reward ranged free evaluated)
    have replays : result.replay runtime hashing search.scenario search.model.benchedAgents = .ok ([], position) := by
      rw [SearchResult.replay, if_pos alone, safe]
      rfl
    rw [empty]
    refine learnFromResult_trained exact valid binding replays ?_ evaluated checked (by rw [empty]; rfl) learns
    rw [reports.finalPosition]
  · obtain ⟨inside, genuine⟩ := sound best (maximum_mem greatest)
    obtain ⟨path, terminal, same, there, final, stops⟩ := SearchNode.mem_terminalPaths.mp inside
    simp only [List.nil_append] at same
    subst same
    obtain rfl := Option.some.inj (genuine.last.symm.trans final)
    have reached := terminalPaths_reached linked _ inside _ genuine.last
    obtain ⟨rest, _, cons, ends, replayed⟩ := replayStates_path linked there
    obtain rfl := Option.some.inj (final.symm.trans ends)
    have moves : best.moves = rest.filterMap SearchNode.move := by
      rw [Found.moves, cons, List.filterMap_cons, (simulations_tree accept simulated).2.2.2]
    rw [start] at replayed
    have coherent := Scenario.Reachable.coherent accept reached
    have long : isSystemAbstain result.trajectory = false := by
      show isSystemAbstain result.trajectory = false
      rw [reports.trajectory]
      simp only [moves]
      cases played : rest.filterMap SearchNode.move with
      | nil => rfl
      | cons move others =>
          cases others with
          | cons another others => rfl
          | nil =>
              rw [played] at replayed
              obtain ⟨next, applied, later⟩ := bind_eq_ok.mp replayed
              obtain ⟨_, _, _, _, _, _, _, _, after⟩ := Scenario.apply_cases accept applied
              obtain rfl : next = best.terminal.position := by
                simpa [replayStates, bind, Except.bind, pure, Except.pure] using (congrArg Prod.snd (Except.ok.inj later))
              have first : best.terminal.position.phase = 1 := by rw [after]; rfl
              have fourth := coherent.terminal.mp stops
              omega
    have each := there.everywhere linked
    have hashes := path_hashes accept injective linked there
    have held : ∀ inner ∈ best.path.dropLast, (Dict.ofList ((best.path.dropLast.map SearchNode.position).map
        fun position => (position.stateHash hashing, position))).get? (inner.position.stateHash hashing) =
        some inner.position := by
      intro inner member
      rw [Dict.get?_eq_some, Dict.rows_ofList]
      · exact List.mem_map.mpr ⟨inner.position, List.mem_map_of_mem member, rfl⟩
      · simp only [List.map_map, Function.comp_def]
        exact hashes.sublist ((List.dropLast_sublist _).map _)
    obtain ⟨lessons, fits, teach, sublist⟩ := targets_fit (mapM_eq_ok.mp received) held
    have distinct := (hashes.sublist ((List.dropLast_sublist _).map _)).sublist sublist
    have learns := learnLessons_ok exact positive valid search.scenario teach (isSystemAbstain result.trajectory)
      (BenchmarkSuite.evaluate_reward ranged (reached.cost accepted) genuine.scored)
    rw [← policyTargets] at fits distinct
    have unseen : ∀ receipt ∈ result.policyTargets, receipt.position.stateHash hashing ∉ ([] : List H) := by simp
    have validated := validateTargets_fits fits unseen distinct
    have replays : result.replay runtime hashing search.scenario search.model.benchedAgents =
        .ok (best.path.dropLast.map SearchNode.position, best.terminal.position) := by
      rw [SearchResult.replay, if_neg (by simp [long]), reports.trajectory]
      simp only [moves]
      exact replayed
    rw [fits.length_eq]
    refine learnFromResult_trained exact valid binding replays ?_ genuine.scored (reports.replay rfl stops) validated
      learns
    rw [reports.finalPosition]

end PUCTSearch

end Exact

open RealSample in
theorem PUCTSearch.learnFromResult_run_sample : ∃ result learned,
    search.run runtime digests 5 = .ok result ∧
      learnFromResult runtime digests RealSample.scenario suite RealSample.model result = (.ok (), learned) ∧
      learned.generation = RealSample.model.generation + 1 ∧
      learned.valueUpdates = RealSample.model.valueUpdates + (max 1 result.policyTargets.length : Nat) := by
  obtain ⟨result, ran⟩ := run_total runtime_exact runtime_positive digests_ideal search_accepted search_playable
    (by norm_num : (0 : Int) < 5)
  obtain ⟨learned, taught⟩ := learnFromResult_run runtime digests RealSample.scenario suite
    RealSample.model 1 0 7 5 search result runtime_exact runtime_positive.exp digests_ideal.injective search_accepted
    search_built ran
  exact ⟨result, learned, ran, taught⟩

end AgentTree.Engine
