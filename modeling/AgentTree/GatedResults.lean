import AgentTree.Doubles
import AgentTree.SearchOutcomes
import AgentTree.SearchTotality
import AgentTree.SpelledHash

/-!
What a search commits to has passed every gate of the suite, unless a weighted total of the
suite overflows.  Numbers are those of the source; doubles are among them.
-/

set_option linter.unusedSectionVars false

namespace AgentTree.Engine

open Outcome Relational

section Gating

variable {F H : Type} [Zero F] [One F] [Add F] [Sub F] [Mul F] [Div F] [Neg F] [LT F] [LE F] [DecidableLT F]
  [DecidableLE F] [DecidableEq F] [OfScientific F] [NatCast F] [IntCast F] [DecidableEq H]
  {runtime : Runtime F} {hashing : Hashing F H}

/-- What the order of floats satisfies: only a NaN is in no order, and a finite number over a positive one is none. -/
structure Runtime.Ordered (runtime : Runtime F) : Prop where
  finite : ∀ a : F, runtime.isFinite a = true → a ≤ a
  zero : runtime.isFinite 0 = true
  total : ∀ a b : F, a ≤ a → b ≤ b → ¬a < b → b ≤ a
  div : ∀ a b : F, runtime.isFinite a = true → 0 < b → a / b ≤ a / b

namespace BenchmarkSuite

variable {suite : BenchmarkSuite F H}

/-- What a metric sums up to along a trajectory: the values of the receipts, each times the importance of its phase. -/
def weightedTotal (suite : BenchmarkSuite F H) (hashing : Hashing F H) (name : String) :
    (phase : Nat) → (total : F) → List (Move F) → F
  | _, total, [] => total
  | phase, total, move :: rest =>
      match suite.receiptMetrics.get? (move.contentHash hashing) with
      | none => weightedTotal suite hashing name (phase + 1) total rest
      | some receipt => weightedTotal suite hashing name (phase + 1)
          (total + (receipt.get? name).getD 0 * (suite.phaseImportance[phase]?).getD 0) rest

/-- A receipt adds its value to the total of every metric once. -/
theorem addReceipt_ok {receipt : Dict String F} {importance : F} {totals after : String → F}
    (distinct : suite.names.Nodup) (added : suite.addReceipt receipt importance totals = .ok after)
    {name : String} (listed : name ∈ suite.names) :
    after name = totals name + (receipt.get? name).getD 0 * importance := by
  have loop : ∀ (metrics : List (BenchmarkMetric F)) (totals : String → F),
      (metrics.map BenchmarkMetric.name).Nodup → metrics.foldlM (fun totals metric => do
        let value ← orRaise (receipt.get? metric.name) (PyError.other "KeyError" metric.name)
        return Function.update totals metric.name (totals metric.name + value * importance)) totals = .ok after →
      after name = if name ∈ metrics.map BenchmarkMetric.name then
        totals name + (receipt.get? name).getD 0 * importance else totals name := by
    intro metrics
    induction metrics with
    | nil =>
        intro totals _ looped
        obtain rfl : totals = after := by simpa [pure, Except.pure] using looped
        simp
    | cons metric rest ih =>
        intro totals apart looped
        rw [List.foldlM_cons] at looped
        obtain ⟨next, first, later⟩ := bind_eq_ok.mp looped
        obtain ⟨value, found, same⟩ := bind_eq_ok.mp first
        obtain rfl := pure_eq_ok.mp same
        rw [orRaise_eq_ok] at found
        simp only [List.map_cons, List.nodup_cons] at apart
        rw [ih _ apart.2 later]
        by_cases here : name = metric.name
        · subst here
          simp [apart.1, found]
        · simp [here]
  have total := loop suite.metrics totals distinct added
  have named : name ∈ suite.metrics.map BenchmarkMetric.name := listed
  rwa [if_pos named] at total

theorem tallyMoves_totals {remark : Move F → F → String} {phase : Nat} {tally after : Tally F} {moves : List (Move F)}
    (distinct : suite.names.Nodup)
    (tallied : suite.tallyMoves hashing (fun _ => false) remark phase tally moves = .ok after) {name : String}
    (listed : name ∈ suite.names) :
    after.totals name = suite.weightedTotal hashing name phase (tally.totals name) moves := by
  induction moves generalizing phase tally with
  | nil =>
      obtain rfl : tally = after := by simpa [tallyMoves] using tallied
      rfl
  | cons move rest ih =>
      simp only [tallyMoves, Bool.false_eq_true, if_false] at tallied
      obtain ⟨next, weighed, later⟩ := bind_eq_ok.mp tallied
      rw [ih later]
      unfold tallyMove at weighed
      cases found : suite.receiptMetrics.get? (move.contentHash hashing) with
      | none =>
          simp only [found, Except.ok.injEq] at weighed
          simp only [weightedTotal, found, ← weighed]
      | some receipt =>
          simp only [found] at weighed
          obtain ⟨totals, added, same⟩ := bind_eq_ok.mp weighed
          obtain rfl := pure_eq_ok.mp same
          simp only [weightedTotal, found, addReceipt_ok distinct added listed]

/-- A tally without remarks: every move has a receipt, and none is below the critical safety. -/
theorem tallyMoves_clean {remark : Move F → F → String} {phase : Nat} {tally after : Tally F} {moves : List (Move F)}
    (tallied : suite.tallyMoves hashing (fun _ => false) remark phase tally moves = .ok after)
    (clean : after.remarks = []) :
    tally.remarks = [] ∧ ∀ move ∈ moves, ∃ receipt,
      suite.receiptMetrics.get? (move.contentHash hashing) = some receipt ∧
      ∀ safety, receipt.get? "safety" = some safety → ¬safety < suite.criticalSafetyMinimum := by
  induction moves generalizing phase tally with
  | nil =>
      obtain rfl : tally = after := by simpa [tallyMoves] using tallied
      exact ⟨clean, by simp⟩
  | cons move rest ih =>
      simp only [tallyMoves, Bool.false_eq_true, if_false] at tallied
      obtain ⟨next, weighed, later⟩ := bind_eq_ok.mp tallied
      obtain ⟨before, others⟩ := ih later
      unfold tallyMove at weighed
      cases found : suite.receiptMetrics.get? (move.contentHash hashing) with
      | none =>
          simp only [found, Except.ok.injEq] at weighed
          simp [← weighed] at before
      | some receipt =>
          simp only [found] at weighed
          obtain ⟨totals, _, same⟩ := bind_eq_ok.mp weighed
          obtain rfl := pure_eq_ok.mp same
          have own : tally.remarks = [] ∧
              ∀ safety, receipt.get? "safety" = some safety → ¬safety < suite.criticalSafetyMinimum := by
            cases value : receipt.get? "safety" with
            | none =>
                simp only [value] at before
                exact ⟨before, by simp⟩
            | some safety =>
                by_cases low : safety < suite.criticalSafetyMinimum
                · simp [value, low] at before
                · simp only [value, low, if_false] at before
                  refine ⟨before, fun other same => ?_⟩
                  obtain rfl := Option.some.inj same
                  exact low
          refine ⟨own.1, fun other member => ?_⟩
          rcases List.mem_cons.mp member with rfl | member
          · exact ⟨receipt, found, own.2⟩
          · exact others other member

theorem fromKeys_eq_nil {texts : List String} : fromKeys texts = [] ↔ texts = [] := by
  have grows : ∀ (rest seen : List String), seen ≠ [] →
      rest.foldl (fun seen value => if value ∈ seen then seen else seen ++ [value]) seen ≠ [] := by
    intro rest
    induction rest with
    | nil => exact fun _ some => some
    | cons text others ih =>
        intro seen some
        rw [List.foldl_cons]
        split
        next => exact ih seen some
        next => exact ih _ (by simp)
  cases texts with
  | nil => simp [fromKeys]
  | cons text rest => simpa [fromKeys] using grows rest [text] (by simp)

/-- The gates of a suite that a committed position has passed. -/
structure Passed (suite : BenchmarkSuite F H) (hashing : Hashing F H) (position : Position F) (card : ScoreCard F) :
    Prop where
  gateFailures : card.gateFailures = []
  minimums : ∀ metric ∈ suite.metrics, ∀ minimum, metric.hardMinimum = some minimum →
    ∃ value, card.metrics.get? metric.name = some value ∧ minimum ≤ value
  receipts : ∀ move ∈ position.trajectory, ∃ receipt,
    suite.receiptMetrics.get? (move.contentHash hashing) = some receipt ∧
    ∀ safety, receipt.get? "safety" = some safety → suite.criticalSafetyMinimum ≤ safety
  evidence : ∃ ref ∈ position.evidenceRefs, ∃ scheme ∈ suite.trustedEvidencePrefixes, hasPrefix ref scheme = true
  violations : position.violations = []
  openQuestions : position.openQuestions = []

/-- The finite numbers and the distinct names that the constructors have checked. -/
structure Checked (runtime : Runtime F) (suite : BenchmarkSuite F H) : Prop where
  names : suite.names.Nodup
  criticalSafetyMinimum : runtime.isFinite suite.criticalSafetyMinimum = true
  receipts : ∀ receipt ∈ suite.receiptMetrics.rows, ∀ entry ∈ receipt.2.rows, runtime.isFinite entry.2 = true
  minimums : ∀ metric ∈ suite.metrics, ∀ minimum, metric.hardMinimum = some minimum →
    runtime.isFinite minimum = true

theorem postInit_checked (built : suite.postInit runtime hashing = .ok ())
    (metrics : ∀ metric ∈ suite.metrics, metric.postInit runtime = .ok ()) : Checked runtime suite := by
  simp only [postInit, bind_eq_ok, ensure_eq_ok, forM_eq_ok, Bool.and_eq_true, decide_eq_true_eq] at built
  obtain ⟨_, _, _, _, _, ⟨_, names⟩, _, _, _, _, _, _, _, ⟨⟨safety, _⟩, _⟩, _, _, _, _, _, _, receipts⟩ := built
  refine ⟨names, safety, fun receipt member entry inside => ?_, fun metric member minimum hard => ?_⟩
  · have checked := receipts receipt member
    simp only [checkReceipt, bind_eq_ok, ensure_eq_ok, forM_eq_ok, Bool.and_eq_true] at checked
    obtain ⟨_, _, _, _, values⟩ := checked
    exact (values entry inside).1.1
  · have checked := metrics metric member
    simp only [BenchmarkMetric.postInit, hard, bind_eq_ok, ensure_eq_ok, Bool.and_eq_true] at checked
    obtain ⟨_, _, _, _, ⟨finite, _⟩, _⟩ := checked
    exact finite

/-- A committed position that scores as feasible has passed the gates, if the totals of its gated metrics are finite. -/
theorem evaluate_passed (ordered : runtime.Ordered) (checked : Checked runtime suite) {position : Position F}
    {card : ScoreCard F} (scored : suite.evaluate runtime hashing position = .ok card) (feasible : card.feasible = true)
    (committed : position.terminalStatus = some .committed)
    (moderate : ∀ metric ∈ suite.metrics, metric.hardMinimum ≠ none →
      runtime.isFinite (suite.weightedTotal hashing metric.name 0 0 position.trajectory) = true) :
    suite.Passed hashing position card := by
  unfold evaluate at scored
  rw [if_neg (by simp [committed])] at scored
  obtain ⟨tally, tallied, same⟩ := bind_eq_ok.mp scored
  obtain rfl := pure_eq_ok.mp same
  simp only [List.isEmpty_iff, fromKeys_eq_nil, List.append_eq_nil_iff, List.flatMap_eq_nil_iff] at feasible
  obtain ⟨clean, gates⟩ := feasible
  obtain ⟨early, moves⟩ := tallyMoves_clean tallied clean
  simp only [earlyFailures, List.append_eq_nil_iff, committed, if_true] at early
  obtain ⟨⟨⟨⟨violations, _⟩, questions⟩, _⟩, evidence⟩ := early
  refine ⟨?_, fun metric member minimum hard => ?_, fun move member => ?_, ?_, violations, ?_⟩
  · exact fromKeys_eq_nil.mpr (List.append_eq_nil_iff.mpr ⟨clean, List.flatMap_eq_nil_iff.mpr gates⟩)
  · have listed : metric.name ∈ suite.names := List.mem_map_of_mem member
    have finite := moderate metric member (by simp [hard])
    rw [← tallyMoves_totals checked.names tallied listed] at finite
    have number : tally.value metric.name ≤ tally.value metric.name := by
      unfold Tally.value
      split
      next positive => exact ordered.div _ _ finite positive
      next => exact ordered.finite _ ordered.zero
    have above : ¬tally.value metric.name < minimum := by
      intro below
      have gate := gates metric member
      simp [gateFailure, hard, below] at gate
    refine ⟨tally.value metric.name, ?_, ordered.total _ _ number
      (ordered.finite _ (checked.minimums metric member minimum hard)) above⟩
    have keys : ((suite.metrics.map fun metric => (metric.name, tally.value metric.name)).map Prod.fst).Nodup := by
      have names := checked.names
      simp only [BenchmarkSuite.names] at names
      simpa [List.map_map, Function.comp_def] using names
    rw [values, Dict.get?_eq_some, Dict.rows_ofList keys]
    exact List.mem_map.mpr ⟨metric, member, rfl⟩
  · obtain ⟨receipt, found, safe⟩ := moves move member
    refine ⟨receipt, found, fun safety held => ?_⟩
    have finite := checked.receipts _ (Dict.get?_eq_some.mp found) _ (Dict.get?_eq_some.mp held)
    exact ordered.total _ _ (ordered.finite _ finite) (ordered.finite _ checked.criticalSafetyMinimum) (safe safety held)
  · by_contra none
    refine absurd evidence ?_
    rw [if_neg]
    · simp
    · simpa using none
  · by_contra some
    simp [some] at questions

end BenchmarkSuite

namespace PUCTSearch

variable {search : PUCTSearch F H} {before after : Scores F H} {value : F} {node next : SearchNode F}

/-- What the constructors have checked, whatever the numbers are. -/
structure Constructed (runtime : Runtime F) (hashing : Hashing F H) (search : PUCTSearch F H) : Prop where
  scenario : search.scenario.postInit hashing = .ok ()
  moves : ∀ phase ∈ search.scenario.phases, ∀ move ∈ phase, move.postInit runtime = .ok ()
  benchmark : search.benchmark.postInit runtime hashing = .ok ()
  metrics : ∀ metric ∈ search.benchmark.metrics, metric.postInit runtime = .ok ()
  search : ∃ model, init runtime hashing search.scenario search.benchmark model search.cPuct search.seed
    search.rootNoiseFraction = .ok search

/-- A search is built as it is given, with its model. -/
theorem init_same (built : (init runtime hashing search.scenario search.benchmark search.model search.cPuct search.seed
    search.rootNoiseFraction).toOption.isSome = true) :
    init runtime hashing search.scenario search.benchmark search.model search.cPuct search.seed
      search.rootNoiseFraction = .ok search := by
  cases done : init runtime hashing search.scenario search.benchmark search.model search.cPuct search.seed
      search.rootNoiseFraction with
  | error error => simp [done, Except.toOption] at built
  | ok other =>
      simp only [init, bind_eq_ok, pure_eq_ok] at done
      obtain ⟨_, _, _, _, _, _, _, _, _, _, copied, copy, rfl⟩ := done
      obtain ⟨_, _, same⟩ := bind_eq_ok.mp copy
      obtain rfl := pure_eq_ok.mp same
      rfl

theorem Simulated.faithful (simulated : Simulated runtime hashing search before value after node next)
    (faithful : Faithful runtime hashing search before)
    (reached : node.Everywhere fun other => Reached runtime hashing search other.position) :
    Faithful runtime hashing search after := by
  induction simulated with
  | terminal _ scored _ => exact (score_ok faithful reached.here scored).1
  | expanded _ _ applied _ evaluated => exact (evaluateLeaf_ok faithful (reached.here.step rfl applied) evaluated).1
  | dead _ _ _ _ same => exact same ▸ faithful
  | descended _ _ _ there _ ih => exact ih (reached.children _ (List.mem_of_getElem? there))

theorem simulations_cached (scenario : search.scenario.Accepted) {count : Nat} {root : SearchNode F}
    {scores : Scores F H} (ran : search.simulations runtime hashing count = .ok (root, scores)) :
    Faithful runtime hashing search scores := by
  refine simulations_kept (P := fun _ _ scores => Faithful runtime hashing search scores) (fun root _ => ?_) ?_ ran
  · intro hash card found
    simp [Dict.get?] at found
  · intro count root before value next after ran faithful simulated
    exact simulated.faithful faithful ((simulations_tree scenario ran).1.linked.mono fun _ inner => inner.reached)

/-- No move along a path down the tree is by a benched agent. -/
theorem At.unbenched {node found : SearchNode F} {path : List (Move F)} (there : node.At path found)
    (linked : node.Everywhere (Linked runtime hashing search)) : ∀ move ∈ path, move.actor ∉ search.benched := by
  induction there with
  | here => simp
  | @step node child found path member _ ih =>
      obtain ⟨legal, played, named, listed, offered, _⟩ := linked.here.children child member
      intro move inside
      rw [named, Option.toList_some, List.singleton_append] at inside
      rcases List.mem_cons.mp inside with rfl | below
      · obtain ⟨_, _, _, _, playable⟩ := (Scenario.mem_legalMoves listed).mp offered
        simp only [Scenario.playable, Bool.and_eq_true, decide_eq_true_eq] at playable
        exact playable.1
      · exact ih (linked.children child member) move below

/-- Where a result comes from: the abstention of the system, or moves by agents that are not benched. -/
inductive Origin (runtime : Runtime F) (hashing : Hashing F H) (search : PUCTSearch F H) (result : SearchResult F H) :
    Prop
  | abstention : search.scenario.safeAbstain Scenario.systemAbstainText = .ok result.finalPosition →
      Origin runtime hashing search result
  | played : search.scenario.replay runtime hashing search.benched result.trajectory search.scenario.initialPosition =
      .ok result.finalPosition → (∀ move ∈ result.trajectory, move.actor ∉ search.benched) →
      Origin runtime hashing search result

/-- A result that the suite has gated. -/
structure Gated (runtime : Runtime F) (hashing : Hashing F H) (search : PUCTSearch F H) (result : SearchResult F H) :
    Prop where
  scored : search.benchmark.evaluate runtime hashing result.finalPosition = .ok result.score
  feasible : result.score.feasible = true
  origin : Origin runtime hashing search result
  abstained : result.abstained = true ↔ result.finalPosition.terminalStatus = some .abstained
  committed : result.finalPosition.terminalStatus = some .committed →
    search.benchmark.Passed hashing result.finalPosition result.score

/-- The totals of the gated metrics are finite where a reached position commits and scores as feasible. -/
def Moderate (runtime : Runtime F) (hashing : Hashing F H) (search : PUCTSearch F H) : Prop :=
  ∀ position card, Reached runtime hashing search position → position.terminalStatus = some .committed →
    search.benchmark.evaluate runtime hashing position = .ok card → card.feasible = true →
    ∀ metric ∈ search.benchmark.metrics, metric.hardMinimum ≠ none →
      runtime.isFinite (search.benchmark.weightedTotal hashing metric.name 0 0 position.trajectory) = true

theorem evaluate_systemAbstain {suite : BenchmarkSuite F H} {scenario : Scenario F} {position : Position F}
    {card : ScoreCard F} {reason : String} (abstains : scenario.safeAbstain reason = .ok position)
    (scored : suite.evaluate runtime hashing position = .ok card) :
    position.terminalStatus = some .abstained ∧ card.feasible = true := by
  simp only [Scenario.safeAbstain, bind_eq_ok, pure_eq_ok] at abstains
  obtain ⟨_, _, _, _, rfl⟩ := abstains
  refine ⟨rfl, ?_⟩
  simp only [BenchmarkSuite.evaluate, if_true, BenchmarkSuite.evaluateAbstained, BenchmarkSuite.isSystemFallback,
    Scenario.systemAbstain, decide_true] at scored
  exact (Except.ok.inj scored) ▸ rfl

/-- A search commits to nothing that the gates of its suite have not passed, unless a weighted total overflows. -/
theorem run_gated (runtime : Runtime F) (hashing : Hashing F H) (search : PUCTSearch F H) (count : Int)
    (result : SearchResult F H) (ordered : runtime.Ordered) (injective : Function.Injective hashing.digest)
    (constructed : search.Constructed runtime hashing) (moderate : search.Moderate runtime hashing)
    (ran : search.run runtime hashing count = .ok result) : Gated runtime hashing search result := by
  have scenario := Scenario.postInit_accepted constructed.scenario
  have checked := BenchmarkSuite.postInit_checked constructed.benchmark constructed.metrics
  obtain ⟨_, scores, found, middle, choice, last, simulated, listed, chosen, reports⟩ := run_ok ran
  obtain ⟨tree, _, start, unmoved⟩ := simulations_tree scenario simulated
  have reached : ∀ path ∈ SearchNode.terminalPaths [] result.root, ∀ terminal, path.getLast? = some terminal →
      Reached runtime hashing search terminal.position := by
    intro path member terminal ends
    obtain ⟨below, _, rfl, there, _, _⟩ := SearchNode.mem_terminalPaths.mp member
    exact (there.everywhere tree.linked terminal (List.mem_of_getLast? ends)).here.reached
  obtain ⟨kept, sound, _⟩ := feasibleTerminals_ok scenario injective (simulations_cached scenario simulated) reached listed
  rcases choose_ok chosen with ⟨_, position, card, abstains, scored, rfl⟩ | ⟨best, greatest, rfl⟩
  · have evaluated := score_safeAbstain scenario injective kept abstains scored
    obtain ⟨status, feasible⟩ := evaluate_systemAbstain abstains evaluated
    refine ⟨?_, by rw [reports.score]; exact feasible, .abstention ?_, ?_, fun committed => ?_⟩
    · rw [reports.finalPosition, reports.score]
      exact evaluated
    · rw [reports.finalPosition]
      exact abstains
    · simp [reports.abstained, reports.finalPosition, status]
    · rw [reports.finalPosition, status] at committed
      simp at committed
  · obtain ⟨inside, genuine⟩ := sound best (maximum_mem greatest)
    obtain ⟨path, terminal, same, there, final, _⟩ := SearchNode.mem_terminalPaths.mp inside
    simp only [List.nil_append] at same
    subst same
    obtain rfl := Option.some.inj (genuine.last.symm.trans final)
    obtain ⟨rest, _, cons, ends, down⟩ := there.last
    obtain rfl := Option.some.inj (final.symm.trans ends)
    have moves : best.moves = rest.filterMap SearchNode.move := by
      rw [Found.moves, cons, List.filterMap_cons, unmoved]
    refine ⟨?_, by rw [reports.score]; exact genuine.feasible, .played ?_ ?_, ?_, fun committed => ?_⟩
    · rw [reports.finalPosition, reports.score]
      exact genuine.scored
    · rw [reports.finalPosition, reports.trajectory, ← start]
      exact moves ▸ replay_at down tree.linked
    · rw [reports.trajectory]
      exact moves ▸ At.unbenched down tree.linked
    · simp [reports.abstained, reports.finalPosition]
    · rw [reports.finalPosition] at committed ⊢
      rw [reports.score]
      have arrived := reached _ inside _ final
      exact BenchmarkSuite.evaluate_passed ordered checked genuine.scored genuine.feasible committed
        (moderate _ _ arrived committed genuine.scored genuine.feasible)

end PUCTSearch

end Gating

namespace DoubleSample

open Binary64

/-- The functions of doubles at the numbers that the search below asks for. -/
def runtime : Runtime Double where
  isFinite := Double.isFinite
  log value := if value = 1 then 0 else .nan
  exp value := if value = 0 then 1 else .nan
  sqrt value := if value = 1 then 1 else if value = 2 then 1.4142135623730951 else
    if value = 3 then 1.7320508075688772 else .nan
  tanh value := if value = 0 then 0 else .nan
  gammas _ _ := 1
  text _ := ""
  fixed3 _ := ""
  repr text := text

/-- Digests that are spelled out, and texts of sixty-four digits. -/
def digests : Hashing Double (List (Token Double)) :=
  { spelled Double with text := fun _ => String.ofList (List.replicate 64 '0') }

def move (id : String) (kind : MoveKind) (opens answers : Option String) : Move Double where
  id
  actionKey := "act-" ++ id
  kind
  actor := "agent"
  text := ""
  basePrior := 1
  predictedMetrics := Dict.ofList [("safety", 1)]
  cost := 0
  tags := ["tag"]
  opensQuestion := opens
  requiresQuestion := answers
  resolvesQuestion := answers
  evidenceRefs := ["trace://run"]
  violations := []

/-- A proposal, a question, an answer and a commitment. -/
def scenario : Scenario Double where
  name := "case"
  version := "1"
  description := ""
  phases := [[move "p" .propose none none], [move "q" .question (some "why") none],
    [move "a" .answer none (some "why")], [move "c" .commit none none]]

/-- A suite that asks for a safety of one, with phases of one importance and receipts of one safety. -/
def suite (importance safety : Double) : BenchmarkSuite Double (List (Token Double)) where
  version := "1"
  scenarioManifestHash := scenario.manifestHash digests
  metrics := [⟨"safety", 1, some 1⟩]
  receiptMetrics := Dict.ofList (scenario.phases.flatten.map fun move =>
    (move.contentHash digests, Dict.ofList [("safety", safety)]))
  phaseImportance := [importance, importance, importance, importance]
  costWeight := 0
  criticalSafetyMinimum := 0
  violationReward := -1
  abstainReward := 0
  trustedEvidencePrefixes := ["trace://"]

def model : PolicyValueModel Double where
  policyWeights := Table.empty
  valueWeights := Table.empty
  valueBias := 0
  valueUpdates := 0
  generation := 0
  agentRecords := Dict.ofList [("agent", ⟨8, 8, false⟩)]
  policyLimit := 2.5
  valueLimit := 2.5
  benchMinSamples := 8
  benchUpperThreshold := 0.58

def search (importance safety : Double) : PUCTSearch Double (List (Token Double)) where
  scenario
  benchmark := suite importance safety
  model
  cPuct := 1.25
  seed := 7
  rootNoiseFraction := 0

theorem runtime_ordered : runtime.Ordered where
  finite _ finite := Double.le_self.mpr (Double.ne_nan_of_finite finite)
  zero := rfl
  total _ _ := Double.le_of_not_lt
  div _ _ := Double.div_le_self

theorem digests_injective : Function.Injective digests.digest := Token.spell_injective

theorem search_constructed {importance safety : Double}
    (accepted : (suite importance safety).postInit runtime digests = .ok ())
    (built : (PUCTSearch.init runtime digests scenario (suite importance safety) model 1.25 7 0).toOption.isSome = true) :
    (search importance safety).Constructed runtime digests where
  scenario := by
    show scenario.postInit digests = .ok ()
    decide +kernel
  moves := by
    show ∀ phase ∈ scenario.phases, ∀ move ∈ phase, move.postInit runtime = .ok ()
    decide +kernel
  benchmark := accepted
  metrics := by
    show ∀ metric ∈ [BenchmarkMetric.mk "safety" (1 : Double) (some 1)], metric.postInit runtime = .ok ()
    decide +kernel
  search := ⟨model, PUCTSearch.init_same built⟩

/-- There is one way through the scenario. -/
theorem trajectory_committed {importance safety : Double} {position : Position Double}
    (reached : PUCTSearch.Reached runtime digests (search importance safety) position)
    (committed : position.terminalStatus = some .committed) : position.trajectory = scenario.phases.flatten := by
  have same : scenario.postInit digests = .ok () := by decide +kernel
  have accepted : scenario.Accepted := Scenario.postInit_accepted same
  have coherent := Scenario.Reachable.coherent accepted reached
  have last : position.phase = 4 := coherent.terminal.mp (by simp [Position.terminal, committed])
  have four := coherent.length.trans last
  refine List.ext_getElem (by rw [four]; rfl) fun index first second => ?_
  obtain ⟨phase, there, member⟩ := coherent.moves index _ (List.getElem?_eq_getElem first)
  have small : index < 4 := four ▸ first
  rcases index with _ | _ | _ | _ | index
  iterate 4 simpa [scenario, ← Option.some.inj there] using member
  omega

end DoubleSample

open DoubleSample Binary64 in
theorem PUCTSearch.run_gated_sample : ∃ result, (search 1 1).run runtime digests 4 = .ok result ∧
    PUCTSearch.Gated runtime digests (search 1 1) result := by
  have completes : ((search 1 1).run runtime digests 4).toOption.isSome = true := by decide +kernel
  cases ran : (search 1 1).run runtime digests 4 with
  | error error => simp [ran, Except.toOption] at completes
  | ok result =>
      refine ⟨result, rfl, run_gated runtime digests (search 1 1) 4 result runtime_ordered digests_injective
        (search_constructed (by decide +kernel) (by decide +kernel)) ?_ ran⟩
      intro position card reached committed _ _ metric member _
      rw [trajectory_committed reached committed]
      obtain rfl := List.mem_singleton.mp member
      decide +kernel

open DoubleSample Binary64 in
/-- A total that overflows is no number once it is divided, and no number is below the gate. -/
theorem PUCTSearch.run_not_gated : runtime.Ordered ∧ Function.Injective digests.digest ∧
    (search 1e308 0.5).Constructed runtime digests ∧
    ∃ result, (search 1e308 0.5).run runtime digests 4 = .ok result ∧
      ¬PUCTSearch.Gated runtime digests (search 1e308 0.5) result := by
  refine ⟨runtime_ordered, digests_injective, search_constructed (by decide +kernel) (by decide +kernel), ?_⟩
  have checked : (match (search 1e308 0.5).run runtime digests 4 with
      | .ok result => decide (result.finalPosition.terminalStatus = some .committed) &&
          decide (result.score.metrics.get? "safety" = some .nan)
      | .error _ => false) = true := by decide +kernel
  cases ran : (search 1e308 0.5).run runtime digests 4 with
  | error error => simp [ran] at checked
  | ok result =>
      simp only [ran, Bool.and_eq_true, decide_eq_true_eq] at checked
      refine ⟨result, rfl, fun gated => ?_⟩
      obtain ⟨value, measured, above⟩ := (gated.committed checked.1).minimums
        ⟨"safety", 1, some 1⟩ (List.mem_singleton.mpr rfl) 1 rfl
      obtain rfl : Double.nan = value := Option.some.inj (checked.2.symm.trans measured)
      exact (Double.le_def.mp above).2.1 rfl

end AgentTree.Engine
