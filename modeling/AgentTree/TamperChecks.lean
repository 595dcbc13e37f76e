import AgentTree.GenuineResults

/-!
Learning from any result whatever.  It raises and changes nothing, or the result is what its
trajectory replays to and the model has taken one step of training.  Numbers are those of the
source: only what comparisons of floats satisfy is used.
-/

set_option linter.unusedSectionVars false

namespace AgentTree.Engine

open Outcome Relational PolicyValueModel

variable {F H : Type}

/-- What the comparisons and the sign of floats satisfy. -/
structure Runtime.Comparable [Zero F] [Neg F] [LT F] [LE F] (runtime : Runtime F) : Prop where
  asymm : ∀ a b : F, a < b → ¬b < a
  pos : ∀ a : F, runtime.isFinite a = true → ¬a ≤ 0 → 0 < a
  neg_lt : ∀ a b : F, -a < b → -b < a
  neg_neg : ∀ a : F, -(-a) = a
  neg_pos : ∀ a : F, 0 < a → -a < 0
  finite_neg : ∀ a : F, runtime.isFinite a = true → runtime.isFinite (-a) = true
  between : ∀ a b c : F, runtime.isFinite a = true → runtime.isFinite b = true → a < c → c < b →
    runtime.isFinite c = true

section Limits

variable [Zero F] [Neg F] [LT F] [LE F] [DecidableLT F] {runtime : Runtime F} {limit value : F}

theorem within_limit (comparable : runtime.Comparable) (finite : runtime.isFinite limit = true)
    (positive : 0 < limit) : within runtime limit limit = true := by
  have above : ¬limit < 0 := comparable.asymm _ _ positive
  have irrefl : ¬limit < limit := fun less => comparable.asymm _ _ less less
  simp [within, pyAbs, finite, above, irrefl]

theorem within_neg (comparable : runtime.Comparable) (finite : runtime.isFinite limit = true)
    (positive : 0 < limit) : within runtime limit (-limit) = true := by
  have below : -limit < 0 := comparable.neg_pos _ positive
  have irrefl : ¬limit < limit := fun less => comparable.asymm _ _ less less
  simp [within, pyAbs, comparable.finite_neg _ finite, below, comparable.neg_neg, irrefl]

theorem within_between (comparable : runtime.Comparable) (finite : runtime.isFinite limit = true)
    (low : -limit < value) (high : value < limit) : within runtime limit value = true := by
  have inside := comparable.between _ _ _ (comparable.finite_neg _ finite) finite low high
  have mirrored : ¬limit < -value := comparable.asymm _ _ (comparable.neg_lt _ _ low)
  unfold within pyAbs
  rw [inside]
  split
  next => simp [mirrored]
  next => simp [comparable.asymm _ _ high]

/-- A clipped value is within its limit, whatever the value is. -/
theorem clip_within (comparable : runtime.Comparable) (finite : runtime.isFinite limit = true)
    (positive : 0 < limit) (value : F) : within runtime limit (clip value limit) = true := by
  unfold clip pyMax pyMin
  by_cases high : value < limit
  · rw [if_pos high]
    split
    next low => exact within_between comparable finite low high
    next => exact within_neg comparable finite positive
  · rw [if_neg high]
    split
    next => exact within_limit comparable finite positive
    next => exact within_neg comparable finite positive

end Limits

variable [Zero F] [One F] [Add F] [Sub F] [Mul F] [Div F] [Neg F] [LT F] [LE F] [DecidableLT F] [DecidableLE F]
  [DecidableEq F] [OfScientific F] [NatCast F] [IntCast F] [DecidableEq H]
  {runtime : Runtime F} {hashing : Hashing F H} {scenario : Scenario F} {suite : BenchmarkSuite F H}
  {model : PolicyValueModel F} {result : SearchResult F H}

/-! What a result is found to be. -/

/-- The same scorecard up to the order of its metrics. -/
def ScoreCard.Same (first second : ScoreCard F) : Prop :=
  (∀ name, first.metrics.get? name = second.metrics.get? name) ∧ { first with metrics := second.metrics } = second

/-- The positions that a trajectory leads through, and the last. -/
def Replays (runtime : Runtime F) (hashing : Hashing F H) (scenario : Scenario F) (benched : List String)
    (trajectory : List (Move F)) (states : List (Position F)) (replayed : Position F) : Prop :=
  if isSystemAbstain trajectory then
    scenario.safeAbstain Scenario.systemAbstainText = .ok replayed ∧ states = []
  else
    scenario.replay runtime hashing benched trajectory scenario.initialPosition = .ok replayed ∧
      states.length = trajectory.length ∧ ∀ place position, states[place]? = some position →
        scenario.replay runtime hashing benched (trajectory.take place) scenario.initialPosition = .ok position

/-- A policy target at a place of the path, with exactly the legal moves there. -/
def Sits (hashing : Hashing F H) (scenario : Scenario F) (benched : List String) (states : List (Position F))
    (receipt : PolicyTargetReceipt F H) (place : Nat) : Prop :=
  ∃ position legal, states[place]? = some position ∧
    receipt.position.stateHash hashing = position.stateHash hashing ∧
    scenario.legalMoves position benched = .ok legal ∧ receipt.candidateHashes = candidates hashing legal

/-- A result that is what its trajectory replays to. -/
structure Vouched (runtime : Runtime F) (hashing : Hashing F H) (scenario : Scenario F) (suite : BenchmarkSuite F H)
    (benched : List String) (result : SearchResult F H) (replayed : Position F) : Prop where
  finalPosition : result.finalPosition.stateHash hashing = replayed.stateHash hashing
  terminal : replayed.terminal = true
  score : ∃ score, suite.evaluate runtime hashing replayed = .ok score ∧ score.Same result.score
  targets : ∃ states places, Replays runtime hashing scenario benched result.trajectory states replayed ∧
    places.Nodup ∧ List.Forall₂ (Sits hashing scenario benched states) result.policyTargets places

/-- A model after one step of training on some targets. -/
structure Advanced (runtime : Runtime F) (model learned : PolicyValueModel F) (targets : Nat) : Prop where
  generation : learned.generation = model.generation + 1
  valueUpdates : learned.valueUpdates = model.valueUpdates + (max 1 targets : Nat)
  policyWeights : ∀ entry ∈ learned.policyWeights.rows, within runtime model.policyLimit entry.2 = true
  valueWeights : ∀ entry ∈ learned.valueWeights.rows, within runtime model.valueLimit entry.2 = true
  valueBias : within runtime model.valueLimit learned.valueBias = true
  frame : learned = { model with
    policyWeights := learned.policyWeights
    valueWeights := learned.valueWeights
    valueBias := learned.valueBias
    valueUpdates := learned.valueUpdates
    generation := learned.generation }

theorem Value.sorted_injective {first second : Dict String F}
    (same : (Value.sorted first : Value F H) = .sorted second) (name : String) : first.get? name = second.get? name := by
  have rows : first.sorted.rows = second.sorted.rows := by
    refine List.map_injective_iff.mpr ?_ (Value.obj.inj same)
    intro one other equal
    simp only [Prod.mk.injEq, Value.num.injEq] at equal
    exact Prod.ext equal.1 equal.2
  exact Dict.get?_congr (fun entry => by rw [← Dict.mem_sorted, rows, Dict.mem_sorted]) name

theorem ScoreCard.payload_same (injective : Function.Injective hashing.digest) {first second : ScoreCard F}
    (same : hashing.digest first.payload = hashing.digest second.payload) : first.Same second := by
  have payload := injective same
  simp only [ScoreCard.payload, Value.obj.injEq, List.cons.injEq, Prod.mk.injEq, Value.num.injEq, Value.bool.injEq,
    Value.texts, Value.arr.injEq, true_and, and_true] at payload
  obtain ⟨composite, costPenalty, feasible, failures, metrics, status, reward⟩ := payload
  have gateFailures : first.gateFailures = second.gateFailures :=
    List.map_injective_iff.mpr (fun _ _ equal => Value.str.inj equal) failures
  have outcomeStatus : first.outcomeStatus = second.outcomeStatus := by
    cases one : first.outcomeStatus with
    | none => cases two : second.outcomeStatus <;> simp [one, two, Value.optional] at status ⊢
    | some earlier =>
        cases two : second.outcomeStatus with
        | none => simp [one, two, Value.optional] at status
        | some later =>
            cases earlier <;> cases later <;> simp [one, two, Value.optional, TerminalStatus.value] at status ⊢
  refine ⟨Value.sorted_injective metrics, ?_⟩
  cases first
  cases second
  simp_all

/-! The replay. -/

theorem replayStates_ok {benched : List String} {moves : List (Move F)} {position replayed : Position F}
    {states : List (Position F)}
    (ran : replayStates runtime hashing scenario benched moves position = .ok (states, replayed)) :
    scenario.replay runtime hashing benched moves position = .ok replayed ∧ states.length = moves.length ∧
      ∀ place state, states[place]? = some state →
        scenario.replay runtime hashing benched (moves.take place) position = .ok state := by
  induction moves generalizing position states with
  | nil =>
      obtain ⟨rfl, rfl⟩ := by simpa [replayStates] using ran
      exact ⟨rfl, rfl, by simp⟩
  | cons move rest ih =>
      obtain ⟨next, applied, later⟩ := bind_eq_ok.mp ran
      obtain ⟨⟨others, last⟩, looped, same⟩ := bind_eq_ok.mp later
      obtain ⟨rfl, rfl⟩ := by simpa [pure, Except.pure] using same
      obtain ⟨replays, length, each⟩ := ih looped
      refine ⟨by simp [Scenario.replay, applied, replays, bind, Except.bind], by simp [length], fun place state there => ?_⟩
      cases place with
      | zero =>
          obtain rfl : position = state := by simpa using there
          rfl
      | succ place =>
          have found := each place state (by simpa using there)
          simp [Scenario.replay, applied, found, bind, Except.bind]

theorem replay_ok {benched : List String} {states : List (Position F)} {replayed : Position F}
    (ran : result.replay runtime hashing scenario benched = .ok (states, replayed)) :
    Replays runtime hashing scenario benched result.trajectory states replayed := by
  unfold SearchResult.replay at ran
  unfold Replays
  split
  next alone =>
    rw [if_pos alone] at ran
    obtain ⟨position, abstains, same⟩ := bind_eq_ok.mp ran
    obtain ⟨rfl, rfl⟩ := by simpa [pure, Except.pure] using same
    exact ⟨abstains, rfl⟩
  next long =>
    rw [if_neg long] at ran
    exact replayStates_ok ran

/-! The targets. -/

/-- Validated targets sit at different places of the path, none of them seen before. -/
theorem validateTargets_ok {benched : List String} {states : List (Position F)} {seen : List H}
    {receipts : List (PolicyTargetReceipt F H)} {lessons : List (Lesson F)}
    (validated : validateTargets hashing scenario benched
      (Dict.ofList (states.map fun position => (position.stateHash hashing, position))) seen receipts = .ok lessons) :
    lessons.length = receipts.length ∧ ∃ places : List Nat, places.Nodup ∧
      List.Forall₂ (Sits hashing scenario benched states) receipts places ∧
      ∀ place ∈ places, ∀ position, states[place]? = some position → position.stateHash hashing ∉ seen := by
  induction receipts generalizing seen lessons with
  | nil =>
      obtain rfl : [] = lessons := by simpa [validateTargets] using validated
      exact ⟨rfl, [], List.nodup_nil, .nil, by simp⟩
  | cons receipt rest ih =>
      simp only [validateTargets, bind_eq_ok, ensure_eq_ok, orRaise_eq_ok, decide_eq_true_eq, pure_eq_ok,
        Bool.not_eq_true', Bool.or_eq_false_iff, decide_eq_false_iff_not, Bool.not_eq_false'] at validated
      obtain ⟨_, ⟨unseen, _⟩, position, found, legal, listed, _, manifest, others, later, rfl⟩ := validated
      obtain ⟨length, places, distinct, sit, apart⟩ := ih later
      obtain ⟨state, member, same⟩ := List.mem_map.mp (Dict.mem_ofList (Dict.get?_eq_some.mp found))
      obtain ⟨hashed, rfl⟩ := Prod.mk.inj same
      obtain ⟨place, bound, there⟩ := List.getElem_of_mem member
      have at_place : states[place]? = some state := by rw [List.getElem?_eq_getElem bound, there]
      refine ⟨by simp [length], place :: places, List.nodup_cons.mpr ⟨fun again => ?_, distinct⟩,
        .cons ⟨state, legal, at_place, hashed.symm, listed, manifest.symm⟩ sit, fun other inside position found => ?_⟩
      · exact apart place again state at_place (hashed ▸ List.mem_cons_self)
      · rcases List.mem_cons.mp inside with rfl | inside
        · obtain rfl := Option.some.inj (at_place.symm.trans found)
          exact hashed ▸ unseen
        · exact fun old => apart other inside position found (List.mem_cons_of_mem _ old)

/-! The model. -/

/-- The limits and the weights of a model that its constructor accepts. -/
structure Limited (runtime : Runtime F) (model : PolicyValueModel F) : Prop where
  policyLimit : runtime.isFinite model.policyLimit = true ∧ ¬model.policyLimit ≤ 0
  valueLimit : runtime.isFinite model.valueLimit = true ∧ ¬model.valueLimit ≤ 0
  policyWeights : ∀ entry ∈ model.policyWeights.rows, within runtime model.policyLimit entry.2 = true
  valueWeights : ∀ entry ∈ model.valueWeights.rows, within runtime model.valueLimit entry.2 = true
  valueBias : within runtime model.valueLimit model.valueBias = true

theorem postInit_limited (built : model.postInit runtime = .ok ()) : Limited runtime model := by
  simp only [postInit, bind_eq_ok, ensure_eq_ok, forM_eq_ok, Bool.and_eq_true, Bool.not_eq_true',
    decide_eq_false_iff_not] at built
  obtain ⟨_, ⟨policyLimit, valueLimit⟩, _, _, _, _, _, _, _, _, _, valueBias, _, policyWeights, _, valueWeights, _⟩ := built
  exact ⟨policyLimit, valueLimit, policyWeights, valueWeights, valueBias⟩

theorem clipped_limited (comparable : runtime.Comparable) {limit : F} {before after : Dict String F}
    (limits : runtime.isFinite limit = true ∧ ¬limit ≤ 0) (clipped : Clipped limit before after)
    (inside : ∀ entry ∈ before.rows, within runtime limit entry.2 = true) :
    ∀ entry ∈ after.rows, within runtime limit entry.2 = true := by
  intro entry member
  rcases clipped entry member with old | ⟨value, same⟩
  · exact inside entry old
  · rw [same]
    exact clip_within comparable limits.1 (comparable.pos _ limits.1 limits.2) value

/-- What training publishes. -/
theorem PolicyValueModel.Trained.advanced (comparable : runtime.Comparable) (limited : Limited runtime model)
    {taught : PolicyValueModel F} {targets : Nat} (trained : Trained model taught (max 1 targets)) :
    Advanced runtime model { taught with generation := taught.generation + 1 } targets := by
  have frame := trained.frame
  refine ⟨?_, ?_, clipped_limited comparable limited.policyLimit trained.policyWeights limited.policyWeights,
    clipped_limited comparable limited.valueLimit trained.valueWeights limited.valueWeights, ?_, ?_⟩
  · rw [frame]
  · rw [frame]
  · rcases trained.valueBias with same | ⟨value, same⟩
    · exact same ▸ limited.valueBias
    · show within runtime model.valueLimit taught.valueBias = true
      rw [same]
      exact clip_within comparable limited.valueLimit.1
        (comparable.pos _ limited.valueLimit.1 limited.valueLimit.2) value
  · rw [frame]

/-- Learning raises and changes nothing, or the result has been vouched for and the model is one step further. -/
theorem learnFromResult_guarded (runtime : Runtime F) (hashing : Hashing F H) (scenario : Scenario F)
    (suite : BenchmarkSuite F H) (model : PolicyValueModel F) (result : SearchResult F H)
    (comparable : runtime.Comparable) (injective : Function.Injective hashing.digest) :
    (∃ error, learnFromResult runtime hashing scenario suite model result = (.error error, model)) ∨
      ∃ learned replayed, learnFromResult runtime hashing scenario suite model result = (.ok (), learned) ∧
        Vouched runtime hashing scenario suite model.benchedAgents result replayed ∧
        Advanced runtime model learned result.policyTargets.length := by
  unfold learnFromResult
  split
  next error _ => exact .inl ⟨error, rfl⟩
  next challenger trained =>
    right
    obtain ⟨states, replayed, score, lessons, taught, _, replays, same, scored, checked, validated, built, learned, rfl⟩ :=
      trainChallenger_ok trained
    obtain ⟨length, places, distinct, sit, _⟩ := validateTargets_ok validated
    have kept := learnLessons_trained learned
    rw [length] at kept
    have advanced := kept.advanced comparable (postInit_limited built)
    simp only [checkReplay, bind_eq_ok, ensure_eq_ok, decide_eq_true_eq, Bool.or_eq_true] at checked
    obtain ⟨_, payload, _, _, status⟩ := checked
    have terminal : replayed.terminal = true := by
      rcases status with abstained | committed
      · simp [Position.terminal, abstained]
      · simp [Position.terminal, committed]
    refine ⟨_, replayed, rfl, ⟨same.symm, terminal, ⟨score, scored, ScoreCard.payload_same injective payload⟩,
      ⟨states, places, replay_ok replays, distinct, sit⟩⟩, ?_⟩
    have frame := kept.frame
    have records : taught.agentRecords = model.agentRecords := by rw [frame]
    exact ⟨advanced.generation, advanced.valueUpdates, advanced.policyWeights, advanced.valueWeights,
      advanced.valueBias, by rw [records]⟩

theorem RealSample.runtime_comparable : RealSample.runtime.Comparable where
  asymm _ _ := lt_asymm
  pos _ _ above := not_le.mp above
  neg_lt _ _ below := neg_lt.mp below
  neg_neg := neg_neg
  neg_pos _ := neg_lt_zero.mpr
  finite_neg _ _ := rfl
  between _ _ _ _ _ _ _ := rfl

open RealSample in
theorem learnFromResult_guarded_sample : ∃ result learned replayed,
    search.run RealSample.runtime digests 5 = .ok result ∧
      learnFromResult RealSample.runtime digests RealSample.scenario RealSample.suite RealSample.model result =
        (.ok (), learned) ∧
      Vouched RealSample.runtime digests RealSample.scenario RealSample.suite RealSample.model.benchedAgents result replayed ∧
      Advanced RealSample.runtime RealSample.model learned result.policyTargets.length := by
  obtain ⟨result, ran⟩ := PUCTSearch.run_total runtime_exact runtime_positive digests_ideal search_accepted
    search_playable (by norm_num : (0 : Int) < 5)
  obtain ⟨learned, taught, _⟩ := PUCTSearch.learnFromResult_run RealSample.runtime digests RealSample.scenario
    RealSample.suite RealSample.model 1 0 7 5 search result runtime_exact runtime_positive.exp digests_ideal.injective
    search_accepted search_built ran
  rcases learnFromResult_guarded RealSample.runtime digests RealSample.scenario RealSample.suite RealSample.model result
    runtime_comparable digests_ideal.injective with ⟨error, raised⟩ | ⟨after, replayed, learns, vouched, advanced⟩
  · simp [taught] at raised
  · obtain rfl := (Prod.mk.inj (taught.symm.trans learns)).2
    exact ⟨result, learned, replayed, ran, taught, vouched, advanced⟩

end AgentTree.Engine
