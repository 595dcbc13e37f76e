import AgentTree.SearchTree

/-!
A search raises nothing: priors are positive, scorecards and completions are always there,
and so is every simulation.  Numbers are exact here.
-/

set_option linter.unusedSectionVars false

namespace AgentTree.Engine

open Outcome Relational PolicyValueModel

variable {F H : Type}

/-- What `max` returns is one of the items, and none is greater: for items that can be compared. -/
theorem maxBy_among {α : Type} {less : α → α → Bool} (comparable : α → Prop) (le : α → α → Prop)
    (refl : ∀ a, comparable a → le a a) (trans : ∀ a b c, le a b → le b c → le a c)
    (below : ∀ a b, comparable a → comparable b → less a b = true → le a b)
    (above : ∀ a b, comparable a → comparable b → less a b = false → le b a) (best : α) (items : List α)
    (all : ∀ item ∈ best :: items, comparable item) :
    maxBy less best items ∈ best :: items ∧ ∀ item ∈ best :: items, le item (maxBy less best items) := by
  induction items generalizing best with
  | nil => simpa [maxBy] using refl best (all best List.mem_cons_self)
  | cons item rest ih =>
      have first := all best List.mem_cons_self
      have second := all item (List.mem_cons_of_mem _ List.mem_cons_self)
      have others : ∀ other ∈ (if less best item then item else best) :: rest, comparable other := by
        intro other member
        rcases List.mem_cons.mp member with rfl | there
        · split
          · exact second
          · exact first
        · exact all other (List.mem_cons_of_mem _ (List.mem_cons_of_mem _ there))
      obtain ⟨member, greatest⟩ := ih (if less best item then item else best) others
      simp only [maxBy]
      cases less' : less best item with
      | true =>
          simp only [less', if_true] at member greatest ⊢
          refine ⟨List.mem_cons_of_mem _ member, fun other there => ?_⟩
          rcases List.mem_cons.mp there with rfl | there
          · exact trans _ _ _ (below _ _ first second less') (greatest item List.mem_cons_self)
          · exact greatest other there
      | false =>
          simp only [less', Bool.false_eq_true, if_false] at member greatest ⊢
          refine ⟨?_, fun other there => ?_⟩
          · rcases List.mem_cons.mp member with same | member
            · exact List.mem_cons.mpr (.inl same)
            · exact List.mem_cons_of_mem _ (List.mem_cons_of_mem _ member)
          · rcases List.mem_cons.mp there with rfl | there
            · exact greatest _ List.mem_cons_self
            · rcases List.mem_cons.mp there with rfl | there
              · exact trans _ _ _ (above _ _ first second less') (greatest _ List.mem_cons_self)
              · exact greatest other (List.mem_cons_of_mem _ there)

theorem maximum_ok {α : Type} (less : α → α → Bool) {items : List α} (some : items ≠ []) :
    ∃ best, maximum less items = .ok best := by
  cases items with
  | nil => exact absurd rfl some
  | cons first rest => exact ⟨_, rfl⟩

theorem maximum_among {α : Type} {less : α → α → Bool} (comparable : α → Prop) (le : α → α → Prop)
    (refl : ∀ a, comparable a → le a a) (trans : ∀ a b c, le a b → le b c → le a c)
    (below : ∀ a b, comparable a → comparable b → less a b = true → le a b)
    (above : ∀ a b, comparable a → comparable b → less a b = false → le b a) {items : List α} {best : α}
    (all : ∀ item ∈ items, comparable item) (found : maximum less items = .ok best) :
    best ∈ items ∧ ∀ item ∈ items, le item best := by
  cases items with
  | nil => simp [maximum] at found
  | cons first rest =>
      obtain rfl := Except.ok.inj found
      exact maxBy_among comparable le refl trans below above first rest all

theorem maximum_spec {α : Type} {less : α → α → Bool} (le : α → α → Prop) (refl : ∀ a, le a a)
    (trans : ∀ a b c, le a b → le b c → le a c) (below : ∀ a b, less a b = true → le a b)
    (above : ∀ a b, less a b = false → le b a) {items : List α} {best : α} (found : maximum less items = .ok best) :
    best ∈ items ∧ ∀ item ∈ items, le item best :=
  maximum_among (fun _ => True) le (fun a _ => refl a) trans (fun a b _ _ => below a b) (fun a b _ _ => above a b)
    (fun _ _ => trivial) found

/-- What is found among the items. -/
theorem maximum_mem {α : Type} {less : α → α → Bool} {items : List α} {best : α}
    (found : maximum less items = .ok best) : best ∈ items :=
  (maximum_spec (fun _ _ => True) (fun _ => trivial) (fun _ _ _ _ _ => trivial) (fun _ _ _ => trivial)
    (fun _ _ _ => trivial) found).1

variable [Field F] [LinearOrder F] [IsStrictOrderedRing F] {runtime : Runtime F} {hashing : Hashing F H}

/-- The exponential and the gamma variates are positive. -/
structure Runtime.Positive (runtime : Runtime F) : Prop where
  exp : ∀ value, 0 < runtime.exp value
  gammas : ∀ seed draw, 0 < runtime.gammas seed draw

namespace PolicyValueModel

variable {model : PolicyValueModel F}

variable (runtime) in
theorem rawPolicyLogit_total (valid : model.Valid) (move : Move F) :
    ∃ logit, model.rawPolicyLogit runtime move = .ok logit := by
  have mean := (valid.recordOf move.actor).mean
  unfold recordOf at mean
  have divisor : ∀ reliability : F, pyMax (1 - reliability) 1e-4 ≠ 0 := by
    intro reliability
    rw [pyMax_eq_max]
    exact (lt_of_lt_of_le (by norm_num) (le_max_right _ _)).ne'
  simp [rawPolicyLogit, mean, pyDiv_ok (divisor _), bind, Except.bind, pure, Except.pure]

/-- A prior of every move, and positive. -/
def Priors (moves : List (Move F)) (priors : Dict String F) : Prop :=
  ∀ move ∈ moves, ∃ prior, priors.get? move.id = some prior ∧ 0 < prior

theorem logits_named {moves : List (Move F)} {logits : List (String × F)}
    (computed : moves.mapM (fun move => do return (move.id, ← model.rawPolicyLogit runtime move)) = .ok logits) :
    logits.map Prod.fst = moves.map Move.id := by
  have each := mapM_eq_ok.mp computed
  clear computed
  induction each with
  | nil => rfl
  | cons first _ ih =>
      obtain ⟨logit, _, same⟩ := bind_eq_ok.mp first
      rw [List.map_cons, List.map_cons, ih, ← pure_eq_ok.mp same]

theorem priorsOf_total (exact : runtime.Exact) (positive : ∀ value, 0 < runtime.exp value) {moves : List (Move F)}
    {logits : List (String × F)} (given : moves ≠ []) (named : logits.map Prod.fst = moves.map Move.id) :
    ∃ priors, priorsOf runtime moves (Dict.ofList logits) = .ok priors ∧ Priors moves priors := by
  have each : ∀ move ∈ moves, ∃ logit, (Dict.ofList logits).get? move.id = some logit := by
    intro move member
    have key : move.id ∈ logits.map Prod.fst := named ▸ List.mem_map_of_mem member
    obtain ⟨logit, found⟩ := Dict.get?_ofList_some key
    exact ⟨logit, found⟩
  have filled : (Dict.ofList logits).values ≠ [] := by
    obtain ⟨move, member⟩ := List.exists_mem_of_ne_nil moves given
    obtain ⟨logit, found⟩ := each move member
    exact List.ne_nil_of_mem (List.mem_map_of_mem (Dict.get?_eq_some.mp found))
  obtain ⟨peak, peaked⟩ := maximum_ok (fun a b : F => decide (a < b)) filled
  have finite : ((Dict.ofList logits).values.all runtime.isFinite) = true := by simp [exact.finite]
  have denominator : 0 < pySum ((Dict.ofList logits).mapValues fun _ logit => runtime.exp (logit - peak)).values := by
    rw [pySum_eq_sum]
    refine List.sum_pos _ (fun value member => ?_) ?_
    · obtain ⟨entry, there, rfl⟩ := List.mem_map.mp member
      obtain ⟨source, _, rfl⟩ := List.mem_map.mp there
      exact positive _
    · simpa [Dict.values, Dict.mapValues] using filled
  refine ⟨_, by
    simp only [priorsOf, finite, peaked, ensure, exact.finite, denominator.not_ge, bind, Except.bind, pure,
      Except.pure, if_true, Bool.not_true, decide_false, Bool.or_false, Bool.false_eq_true, if_false]
    rfl, fun move member => ?_⟩
  obtain ⟨logit, found⟩ := each move member
  refine ⟨_, by rw [Dict.get?_mapValues, Dict.get?_mapValues, found]; rfl, ?_⟩
  exact div_pos (positive _) denominator

theorem priors_total (exact : runtime.Exact) (positive : ∀ value, 0 < runtime.exp value) (valid : model.Valid)
    (moves : List (Move F)) : ∃ priors, model.priors runtime moves = .ok priors ∧ Priors moves priors := by
  cases moves with
  | nil => exact ⟨Table.empty, rfl, by simp [Priors]⟩
  | cons move rest =>
      have logits : ∃ logits, ((move :: rest).mapM fun move => do
          return (move.id, ← model.rawPolicyLogit runtime move)) = .ok logits := by
        refine mapM_total fun other _ => ?_
        obtain ⟨logit, computed⟩ := rawPolicyLogit_total runtime valid other
        simp [computed, bind, Except.bind, pure, Except.pure]
      obtain ⟨logits, computed⟩ := logits
      obtain ⟨priors, found, each⟩ := priorsOf_total exact positive (List.cons_ne_nil move rest) (logits_named computed)
      exact ⟨priors, bind_eq_ok.mpr ⟨logits, computed, found⟩, each⟩

end PolicyValueModel

namespace BenchmarkSuite

variable [DecidableEq H] {suite : BenchmarkSuite F H}

/-- Every receipt has a value of every metric. -/
def Covered (suite : BenchmarkSuite F H) : Prop :=
  ∀ receipt ∈ suite.receiptMetrics.rows, ∀ name ∈ suite.names, ∃ value, receipt.2.get? name = some value

theorem postInit_covered (built : suite.postInit runtime hashing = .ok ()) : suite.Covered := by
  simp only [postInit, bind_eq_ok, forM_eq_ok] at built
  obtain ⟨_, _, _, _, _, _, _, _, _, _, _, _, _, _, _, _, _, _, _, _, receipts⟩ := built
  intro receipt member name listed
  have checked := receipts receipt member
  simp only [checkReceipt, bind_eq_ok, ensure_eq_ok] at checked
  obtain ⟨_, _, _, missing, _⟩ := checked
  have held := List.filter_eq_nil_iff.mp (List.isEmpty_iff.mp missing) name listed
  exact Option.ne_none_iff_exists'.mp (by simpa [Dict.contains] using held)

variable (hashing) in
theorem tallyMove_total (covered : suite.Covered) (remark : Move F → F → String) (phase : Nat) (tally : Tally F)
    (move : Move F) : ∃ after, suite.tallyMove hashing remark phase tally move = .ok after := by
  unfold tallyMove
  split
  next => exact ⟨_, rfl⟩
  next receipt found =>
    have member := Dict.get?_eq_some.mp found
    have each : ∀ (metrics : List (BenchmarkMetric F)) (totals : String → F), (∀ metric ∈ metrics, metric ∈ suite.metrics) →
        ∀ importance : F, ∃ totals', metrics.foldlM (fun totals metric => do
          let value ← orRaise (receipt.get? metric.name) (PyError.other "KeyError" metric.name)
          return Function.update totals metric.name (totals metric.name + value * importance)) totals = .ok totals' := by
      intro metrics
      induction metrics with
      | nil => exact fun totals _ _ => ⟨totals, rfl⟩
      | cons metric rest ih =>
          intro totals inside importance
          obtain ⟨value, held⟩ := covered _ member metric.name
            (List.mem_map_of_mem (inside metric List.mem_cons_self))
          rw [List.foldlM_cons, held]
          exact ih _ (fun other there => inside other (List.mem_cons_of_mem _ there)) importance
    obtain ⟨totals, added⟩ := each suite.metrics tally.totals (fun _ there => there)
      ((suite.phaseImportance[phase]?).getD 0)
    exact ⟨_, bind_eq_ok.mpr ⟨totals, added, rfl⟩⟩

variable (hashing) in
theorem tallyMoves_total (covered : suite.Covered) (passes : Move F → Bool) (remark : Move F → F → String)
    (phase : Nat) (tally : Tally F) (moves : List (Move F)) :
    ∃ after, suite.tallyMoves hashing passes remark phase tally moves = .ok after := by
  induction moves generalizing phase tally with
  | nil => exact ⟨tally, rfl⟩
  | cons move rest ih =>
      unfold tallyMoves
      split
      next => exact ih (phase + 1) tally
      next =>
        obtain ⟨next, weighed⟩ := tallyMove_total hashing covered remark phase tally move
        obtain ⟨after, looped⟩ := ih (phase + 1) next
        exact ⟨after, bind_eq_ok.mpr ⟨next, weighed, looped⟩⟩

variable (runtime hashing) in
/-- A suite that its constructor accepts scores every position. -/
theorem evaluate_total (covered : suite.Covered) (position : Position F) :
    ∃ card, suite.evaluate runtime hashing position = .ok card := by
  unfold evaluate
  split
  next =>
    unfold evaluateAbstained
    split
    next => exact ⟨_, rfl⟩
    next =>
      obtain ⟨tally, weighed⟩ := tallyMoves_total hashing covered (fun move => move.kind = .abstain)
        (fun move safety => move.id ++ " safety=" ++ runtime.fixed3 safety ++ " below critical threshold") 0
        ⟨fun _ => 0, 0, position.violations⟩ position.trajectory
      exact ⟨_, bind_eq_ok.mpr ⟨tally, weighed, rfl⟩⟩
  next =>
    obtain ⟨tally, weighed⟩ := tallyMoves_total hashing covered (fun _ => false)
      (fun move safety => move.id ++ " safety=" ++ runtime.fixed3 safety ++ " < critical=" ++
        runtime.fixed3 suite.criticalSafetyMinimum) 0 ⟨fun _ => 0, 0, suite.earlyFailures position⟩ position.trajectory
    exact ⟨_, bind_eq_ok.mpr ⟨tally, weighed, rfl⟩⟩

end BenchmarkSuite

namespace PUCTSearch

variable [DecidableEq H] {search : PUCTSearch F H}

/-- Legal moves can always be applied, and predicted metrics cover those of the suite. -/
structure Playable (runtime : Runtime F) (hashing : Hashing F H) (search : PUCTSearch F H) : Prop where
  applies : ∀ position legal move, Reached runtime hashing search position →
    search.scenario.legalMoves position search.benched = .ok legal → move ∈ legal →
    ∃ after, search.scenario.apply runtime hashing position move search.benched = .ok after
  predicted : ∀ phase ∈ search.scenario.phases, ∀ move ∈ phase, ∀ name ∈ search.benchmark.names,
    move.predictedMetrics.contains name = true

theorem Accepted.noise (accepted : search.Accepted runtime hashing) :
    0 ≤ search.rootNoiseFraction ∧ search.rootNoiseFraction ≤ 1 := by
  obtain ⟨model, built⟩ := accepted.search
  simp only [init, bind_eq_ok, ensure_eq_ok, Bool.and_eq_true, decide_eq_true_eq] at built
  obtain ⟨_, _, _, fraction, _⟩ := built
  exact fraction

theorem Reached.listed (accepted : search.Accepted runtime hashing) {position : Position F}
    (reached : Reached runtime hashing search position) :
    ∃ legal, search.scenario.legalMoves position search.benched = .ok legal :=
  Scenario.legalMoves_ok (reached.coherent (Scenario.postInit_accepted accepted.scenario)).owner

theorem mixNoise_total (accepted : search.Accepted runtime hashing) (noisy : 0 < search.rootNoiseFraction) {total : F}
    (positive : 0 < total) {legal : List (Move F)} {priors : Dict String F} (each : Priors legal priors)
    {drawn : Move F × F} (member : drawn.1 ∈ legal) (draw : 0 < drawn.2) :
    ∃ mixed, search.mixNoise total priors drawn = .ok mixed ∧ Priors legal mixed := by
  obtain ⟨original, found, above⟩ := each drawn.1 member
  refine ⟨_, bind_eq_ok.mpr ⟨original, orRaise_eq_ok.mpr found, bind_eq_ok.mpr ⟨_, pyDiv_ok positive.ne', rfl⟩⟩,
    fun move there => ?_⟩
  rw [Dict.get?_set]
  split
  next =>
    have share : 0 < search.rootNoiseFraction * drawn.2 / total := by positivity
    have kept : 0 ≤ (1 - search.rootNoiseFraction) * original :=
      mul_nonneg (sub_nonneg.mpr accepted.noise.2) above.le
    exact ⟨_, rfl, by linarith⟩
  next => exact each move there

theorem addNoise_total (accepted : search.Accepted runtime hashing) (positive : runtime.Positive)
    (noisy : 0 < search.rootNoiseFraction) {legal : List (Move F)} (given : legal ≠ []) {priors : Dict String F}
    (each : Priors legal priors) :
    ∃ mixed, search.addNoise runtime legal priors = .ok mixed ∧ Priors legal mixed := by
  have drawn : ∀ draw ∈ (List.range legal.length).map (runtime.gammas search.seed), 0 < draw := by
    intro draw member
    obtain ⟨index, _, rfl⟩ := List.mem_map.mp member
    exact positive.gammas _ _
  have total : 0 < pySum ((List.range legal.length).map (runtime.gammas search.seed)) := by
    rw [pySum_eq_sum]
    exact List.sum_pos _ drawn (by simpa using given)
  have loop : ∀ (pairs : List (Move F × F)) (priors : Dict String F), (∀ pair ∈ pairs, pair.1 ∈ legal ∧ 0 < pair.2) →
      Priors legal priors → ∃ mixed, pairs.foldlM
        (search.mixNoise (pySum ((List.range legal.length).map (runtime.gammas search.seed)))) priors = .ok mixed ∧
        Priors legal mixed := by
    intro pairs
    induction pairs with
    | nil => exact fun priors _ each => ⟨priors, rfl, each⟩
    | cons pair rest ih =>
        intro priors inside each
        obtain ⟨member, draw⟩ := inside pair List.mem_cons_self
        obtain ⟨next, mixed, still⟩ := mixNoise_total accepted noisy total each member draw
        obtain ⟨last, looped, kept⟩ := ih next (fun other there => inside other (List.mem_cons_of_mem _ there)) still
        exact ⟨last, by rw [List.foldlM_cons, mixed]; exact looped, kept⟩
  exact loop (legal.zip _) priors (fun pair member => ⟨(List.of_mem_zip member).1, drawn _ (List.of_mem_zip member).2⟩)
    each

/-- A position that is reached can be initialised, and its candidates have positive priors. -/
theorem initialise_total (exact : runtime.Exact) (positive : runtime.Positive)
    (accepted : search.Accepted runtime hashing) (root : Bool) {position : Position F}
    (reached : Reached runtime hashing search position) :
    ∃ moves priors, search.initialise runtime root position = .ok (moves, priors) ∧ Priors moves priors := by
  obtain ⟨legal, listed⟩ := reached.listed accepted
  obtain ⟨plain, predicted, each⟩ := priors_total exact positive.exp (accepted.valid exact) legal
  obtain ⟨priors, started, mixed⟩ : ∃ priors, search.startPriors runtime root legal plain = .ok priors ∧
      Priors legal priors := by
    unfold startPriors
    split
    next noisy =>
      simp only [Bool.and_eq_true, Bool.not_eq_true', List.isEmpty_eq_false_iff, decide_eq_true_eq] at noisy
      exact addNoise_total accepted positive noisy.2 noisy.1.2 each
    next => exact ⟨plain, rfl, each⟩
  obtain ⟨moves, ranks⟩ : ∃ moves, ranked legal priors = .ok moves := by
    obtain ⟨keyed, looped⟩ : ∃ keyed, (legal.mapM fun move => do
        let prior ← orRaise (priors.get? move.id) (PyError.other "KeyError" move.id)
        return ((-prior, move.id), move)) = .ok keyed := by
      refine mapM_total fun move member => ?_
      obtain ⟨prior, found, _⟩ := mixed move member
      simp [found, orRaise, bind, Except.bind, pure, Except.pure]
    exact ⟨_, bind_eq_ok.mpr ⟨keyed, looped, rfl⟩⟩
  refine ⟨moves, priors, ?_, fun move member => mixed move ((ranked_perm ranks).mem_iff.mp member)⟩
  simp [initialise, listed, predicted, started, ranks, bind, Except.bind, pure, Except.pure]

/-! Completions. -/

theorem greedyMove_total (exact : runtime.Exact) (positive : runtime.Positive)
    (accepted : search.Accepted runtime hashing) (playable : search.Playable runtime hashing) {position : Position F}
    {legal : List (Move F)} (listed : search.scenario.legalMoves position search.benched = .ok legal)
    (given : legal ≠ []) : ∃ move ∈ legal, search.greedyMove runtime legal = .ok move := by
  obtain ⟨priors, predicted, each⟩ := priors_total exact positive.exp (accepted.valid exact) legal
  obtain ⟨keyed, looped⟩ : ∃ keyed, (legal.mapM fun candidate => do
      let quality ← search.benchmark.predictedMoveQuality runtime candidate
      let prior ← orRaise (priors.get? candidate.id) (PyError.other "KeyError" candidate.id)
      return ((0.78 * quality + 0.22 * prior, candidate.id), candidate)) = .ok keyed := by
    refine mapM_total fun move member => ?_
    obtain ⟨_, phase, there, present, _⟩ := (Scenario.mem_legalMoves listed).mp member
    obtain ⟨prior, found, _⟩ := each move member
    have covered : (search.benchmark.names.filter (!move.predictedMetrics.contains ·)).isEmpty = true := by
      rw [List.isEmpty_iff, List.filter_eq_nil_iff]
      intro name named
      simp [playable.predicted phase (List.mem_of_getElem? there) move present name named]
    simp [BenchmarkSuite.predictedMoveQuality, covered, ensure, found, orRaise, bind, Except.bind, pure, Except.pure]
  have moves : ∀ entry ∈ keyed, entry.2 ∈ legal := by
    intro entry member
    obtain ⟨move, there, computed⟩ := mapM_mem looped member
    obtain ⟨_, _, rest⟩ := bind_eq_ok.mp computed
    obtain ⟨_, _, same⟩ := bind_eq_ok.mp rest
    exact pure_eq_ok.mp same ▸ there
  have filled : keyed ≠ [] := by
    have length := (mapM_eq_ok.mp looped).length_eq
    intro none
    rw [none, List.length_nil] at length
    exact given (List.length_eq_zero_iff.mp length)
  obtain ⟨best, found⟩ := maximum_ok (fun a b : (F × String) × Move F => keyBefore a.1 b.1) filled
  exact ⟨best.2, moves best (maximum_mem found),
    bind_eq_ok.mpr ⟨priors, predicted, bind_eq_ok.mpr ⟨keyed, looped, bind_eq_ok.mpr ⟨best, found, rfl⟩⟩⟩⟩

theorem greedyCompletion_total (exact : runtime.Exact) (positive : runtime.Positive)
    (accepted : search.Accepted runtime hashing) (playable : search.Playable runtime hashing) (plies : Nat)
    {current : Position F} (reached : Reached runtime hashing search current) :
    ∃ completed, search.greedyCompletion runtime hashing plies current = .ok completed := by
  induction plies generalizing current with
  | zero => exact ⟨current, rfl⟩
  | succ plies ih =>
      obtain ⟨legal, listed⟩ := reached.listed accepted
      unfold greedyCompletion
      split
      next => exact ⟨current, rfl⟩
      next =>
        by_cases given : legal = []
        · exact ⟨current, by simp [listed, given, bind, Except.bind, pure, Except.pure]⟩
        · obtain ⟨move, member, best⟩ := greedyMove_total exact positive accepted playable listed given
          obtain ⟨next, applied⟩ := playable.applies current legal move reached listed member
          obtain ⟨completed, done⟩ := ih (reached.step rfl applied)
          exact ⟨completed, by simp [listed, given, best, applied, done, bind, Except.bind]⟩

theorem score_total (accepted : search.Accepted runtime hashing) (scores : Scores F H) (position : Position F) :
    ∃ card after, search.score runtime hashing scores position = .ok (card, after) := by
  unfold score
  split
  next card _ => exact ⟨card, scores, rfl⟩
  next =>
    obtain ⟨card, evaluated⟩ := BenchmarkSuite.evaluate_total runtime hashing
      (BenchmarkSuite.postInit_covered accepted.benchmark) position
    exact ⟨card, _, bind_eq_ok.mpr ⟨card, evaluated, rfl⟩⟩

theorem evaluateLeaf_total (exact : runtime.Exact) (positive : runtime.Positive)
    (accepted : search.Accepted runtime hashing) (playable : search.Playable runtime hashing) (scores : Scores F H)
    {position : Position F} (reached : Reached runtime hashing search position) :
    ∃ value after, search.evaluateLeaf runtime hashing scores position = .ok (value, after) := by
  obtain ⟨completed, done⟩ := greedyCompletion_total exact positive accepted playable
    (search.scenario.phases.length - position.phase) reached
  obtain ⟨card, after, scored⟩ := score_total accepted scores completed
  by_cases terminal : completed.terminal = true
  · exact ⟨_, after, by simp [evaluateLeaf, done, scored, terminal, bind, Except.bind, pure, Except.pure]; rfl⟩
  · exact ⟨_, scores, by simp [evaluateLeaf, done, terminal, bind, Except.bind, pure, Except.pure]; rfl⟩

/-! Selection. -/

theorem keyBefore_le {a b : F × String} (before : keyBefore a b = true) : a.1 ≤ b.1 := by
  unfold keyBefore at before
  split at before
  next same => exact same.le
  next => exact (of_decide_eq_true before).le

theorem keyBefore_ge {a b : F × String} (before : keyBefore a b = false) : b.1 ≤ a.1 := by
  unfold keyBefore at before
  split at before
  next same => exact same.ge
  next => exact not_lt.mp (of_decide_eq_false before)

/-- The place of the selected child, whose score no other child exceeds. -/
theorem selectChild_spec {visits : Nat} {children : List (SearchNode F)} {index : Nat}
    (selected : search.selectChild runtime visits children = .ok index) :
    ∃ child, children[index]? = some child ∧ ∀ other ∈ children,
      (search.preference runtime visits other).1 ≤ (search.preference runtime visits child).1 := by
  obtain ⟨best, found, same⟩ := bind_eq_ok.mp selected
  obtain rfl := pure_eq_ok.mp same
  obtain ⟨member, greatest⟩ := maximum_spec (fun a b => a.1.1 ≤ b.1.1) (fun _ => le_refl _)
    (fun _ _ _ => le_trans) (fun _ _ => keyBefore_le) (fun _ _ => keyBefore_ge) found
  obtain ⟨there, keyed⟩ := List.mem_zipIdx' (x := best.1) (i := best.2) member
  rw [List.length_map] at there
  rw [List.getElem_map] at keyed
  refine ⟨children[best.2], List.getElem?_eq_getElem there, fun other listed => ?_⟩
  obtain ⟨place, bound, rfl⟩ := List.getElem_of_mem listed
  have ranked := greatest (search.preference runtime visits children[place], place) (by
    rw [List.mk_mem_zipIdx_iff_getElem?]
    simp [bound])
  rwa [keyed] at ranked

variable (runtime search) in
theorem selectChild_total (visits : Nat) {children : List (SearchNode F)} (given : children ≠ []) :
    ∃ index, search.selectChild runtime visits children = .ok index := by
  have filled : (children.map (search.preference runtime visits)).zipIdx ≠ [] := by simpa using given
  obtain ⟨best, found⟩ := maximum_ok (fun a b => keyBefore a.1 b.1) filled
  exact ⟨best.2, bind_eq_ok.mpr ⟨best, found, rfl⟩⟩

/-! Simulations. -/

/-- The priors of the children and of the candidates of a node are positive. -/
structure Prioritised (node : SearchNode F) : Prop where
  children : ∀ child ∈ node.children, 0 < child.prior
  candidates : ∀ moves, node.unexpanded = some moves → Priors moves node.candidatePriors

variable {before after : Scores F H} {value : F} {node next : SearchNode F}

theorem prepare_total (exact : runtime.Exact) (positive : runtime.Positive)
    (accepted : search.Accepted runtime hashing) (linked : Linked runtime hashing search node)
    (prioritised : Prioritised node) :
    ∃ moves priors, search.prepare runtime node = .ok (moves, priors) ∧ Priors moves priors := by
  unfold PUCTSearch.prepare
  split
  next moves opened => exact ⟨moves, node.candidatePriors, rfl, prioritised.candidates moves opened⟩
  next => exact initialise_total exact positive accepted false linked.reached

theorem prepare_priors (exact : runtime.Exact) (positive : runtime.Positive)
    (accepted : search.Accepted runtime hashing) (linked : Linked runtime hashing search node)
    (prioritised : Prioritised node) {moves : List (Move F)} {priors : Dict String F}
    (prepared : search.prepare runtime node = .ok (moves, priors)) : Priors moves priors := by
  obtain ⟨_, _, again, each⟩ := prepare_total exact positive accepted linked prioritised
  obtain ⟨rfl, rfl⟩ : _ ∧ _ := by simpa [prepared] using again
  exact each

theorem Simulated.prioritised (exact : runtime.Exact) (positive : runtime.Positive)
    (accepted : search.Accepted runtime hashing)
    (simulated : Simulated runtime hashing search before value after node next)
    (linked : node.Everywhere (Linked runtime hashing search)) (prioritised : node.Everywhere Prioritised) :
    next.Everywhere Prioritised := by
  induction simulated with
  | terminal => exact .intro ⟨prioritised.here.children, prioritised.here.candidates⟩ prioritised.children
  | @expanded node move rest priors position prior _ prepared _ found _ =>
      have each := prepare_priors exact positive accepted linked.here prioritised.here prepared
      obtain ⟨_, again, above⟩ := each move List.mem_cons_self
      obtain rfl := Option.some.inj (again.symm.trans found)
      refine .intro ⟨fun child member => ?_, fun moves opened => ?_⟩ fun child member => ?_
      · rcases SearchNode.mem_setChild member with rfl | old
        · exact above
        · exact prioritised.here.children child old
      · obtain rfl : rest = moves := by simpa [SearchNode.visit] using opened
        exact fun other there => each other (List.mem_cons_of_mem _ there)
      · rcases SearchNode.mem_setChild member with rfl | old
        · exact .intro ⟨by simp [SearchNode.visit, SearchNode.make], by simp [SearchNode.visit, SearchNode.make]⟩
            (by simp [SearchNode.visit, SearchNode.make])
        · exact prioritised.children child old
  | @dead node priors _ _ _ _ _ =>
      refine .intro ⟨prioritised.here.children, fun moves opened => ?_⟩ prioritised.children
      obtain rfl : [] = moves := by simpa [SearchNode.visit] using opened
      simp [Priors]
  | @descended node child next priors index _ _ _ there simulated ih =>
      have member := List.mem_of_getElem? there
      refine .intro ⟨fun other changed => ?_, fun moves opened => ?_⟩ fun other changed => ?_
      · rcases List.mem_or_eq_of_mem_set changed with old | rfl
        · exact prioritised.here.children other old
        · rw [simulated.frame.2.2.1]
          exact prioritised.here.children child member
      · obtain rfl : [] = moves := by simpa [SearchNode.visit] using opened
        simp [Priors]
      · rcases List.mem_or_eq_of_mem_set changed with old | rfl
        · exact prioritised.children other old
        · exact ih (linked.children child member) (prioritised.children child member)

theorem simulateAt_total {children : List (SearchNode F)} {index : Nat} {child : SearchNode F} {scores : Scores F H}
    (there : children[index]? = some child)
    (ran : ∃ result, search.simulate runtime hashing child scores = .ok result) :
    ∃ result, search.simulateAt runtime hashing children index scores = .ok result := by
  induction children generalizing index with
  | nil => simp at there
  | cons first rest ih =>
      cases index with
      | zero =>
          obtain rfl : first = child := by simpa using there
          obtain ⟨result, ran⟩ := ran
          exact ⟨_, bind_eq_ok.mpr ⟨result, ran, rfl⟩⟩
      | succ index =>
          obtain ⟨result, ran⟩ := ih (by simpa using there)
          exact ⟨_, bind_eq_ok.mpr ⟨result, ran, rfl⟩⟩

theorem simulate_total (exact : runtime.Exact) (positive : runtime.Positive)
    (accepted : search.Accepted runtime hashing) (playable : search.Playable runtime hashing) (scores : Scores F H)
    (linked : node.Everywhere (Linked runtime hashing search)) (prioritised : node.Everywhere Prioritised) :
    ∃ result, search.simulate runtime hashing node scores = .ok result := by
  induction node using SearchNode.induct with
  | step node ih =>
    rw [simulate_eq]
    unfold PUCTSearch.turn
    by_cases terminal : node.position.terminal = true
    · obtain ⟨card, after, scored⟩ := score_total accepted scores node.position
      rw [if_pos terminal]
      exact ⟨_, bind_eq_ok.mpr ⟨_, bind_eq_ok.mpr ⟨(card, after), scored, rfl⟩, rfl⟩⟩
    · rw [if_neg terminal]
      obtain ⟨moves, priors, prepared, each⟩ :=
        prepare_total exact positive accepted linked.here prioritised.here
      obtain ⟨legal, listed, members, _⟩ := linked.here.prepare prepared
      cases moves with
      | cons move rest =>
          obtain ⟨prior, found, _⟩ := each move List.mem_cons_self
          obtain ⟨position, applied⟩ := playable.applies node.position legal move linked.here.reached listed
            (members move List.mem_cons_self)
          obtain ⟨value, after, evaluated⟩ := evaluateLeaf_total exact positive accepted playable scores
            (linked.here.reached.step rfl applied)
          exact ⟨_, bind_eq_ok.mpr ⟨_, bind_eq_ok.mpr ⟨(move :: rest, priors), prepared,
            bind_eq_ok.mpr ⟨position, applied, bind_eq_ok.mpr ⟨prior, orRaise_eq_ok.mpr found,
              bind_eq_ok.mpr ⟨(value, after), evaluated, rfl⟩⟩⟩⟩, rfl⟩⟩
      | nil =>
          by_cases given : node.children = []
          · refine ⟨_, bind_eq_ok.mpr ⟨.stop search.benchmark.violationReward
              { node with unexpanded := some [], candidatePriors := priors } scores,
              bind_eq_ok.mpr ⟨([], priors), prepared, ?_⟩, rfl⟩⟩
            simp only [proceed, given, List.isEmpty_nil, if_true]
          · obtain ⟨index, selected⟩ := selectChild_total runtime search node.visits given
            obtain ⟨child, there, _⟩ := selectChild_spec selected
            have member := List.mem_of_getElem? there
            obtain ⟨result, ran⟩ := simulateAt_total there
              (ih child member (linked.children child member) (prioritised.children child member))
            have filled : node.children.isEmpty = false := by simpa using given
            refine ⟨_, bind_eq_ok.mpr ⟨.descend { node with unexpanded := some [], candidatePriors := priors } index,
              bind_eq_ok.mpr ⟨([], priors), prepared, ?_⟩, bind_eq_ok.mpr ⟨result, ran, rfl⟩⟩⟩
            simp only [proceed, filled, Bool.false_eq_true, if_false, selected, bind, Except.bind, pure, Except.pure]

/-- Every number of simulations can be run. -/
theorem simulations_total (exact : runtime.Exact) (positive : runtime.Positive)
    (accepted : search.Accepted runtime hashing) (playable : search.Playable runtime hashing) (count : Nat) :
    ∃ root scores, search.simulations runtime hashing count = .ok (root, scores) ∧ root.Everywhere Prioritised := by
  have scenario := Scenario.postInit_accepted accepted.scenario
  induction count with
  | zero =>
      obtain ⟨moves, priors, initialised, each⟩ := initialise_total exact positive accepted true
        (.initial : Reached runtime hashing search search.scenario.initialPosition)
      refine ⟨_, _, bind_eq_ok.mpr ⟨_, bind_eq_ok.mpr ⟨(moves, priors), initialised, rfl⟩, rfl⟩, .intro ⟨?_, ?_⟩ ?_⟩
      · simp [SearchNode.make]
      · intro others opened
        obtain rfl : moves = others := by simpa using opened
        exact each
      · simp [SearchNode.make]
  | succ count ih =>
      obtain ⟨root, scores, ran, prioritised⟩ := ih
      obtain ⟨tree, _⟩ := simulations_tree scenario ran
      obtain ⟨⟨value, next, after⟩, simulated⟩ :=
        simulate_total exact positive accepted playable scores tree.linked prioritised
      exact ⟨next, after, bind_eq_ok.mpr ⟨_, ran, bind_eq_ok.mpr ⟨_, simulated, rfl⟩⟩,
        (simulate_ok simulated).prioritised exact positive accepted tree.linked prioritised⟩

end PUCTSearch

end AgentTree.Engine
