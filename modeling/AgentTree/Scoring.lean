import AgentTree.GatedResults
import AgentTree.SearchTree
import AgentTree.Training

/-!
The scores of a suite are bounded, and no worse when its receipts are no lower.  Numbers
are exact here.
-/

namespace AgentTree.Engine

namespace BenchmarkSuite

open Outcome Relational

variable {F H : Type} [Field F] [LinearOrder F] [IsStrictOrderedRing F] [DecidableEq H] {runtime : Runtime F}
  {hashing : Hashing F H} {suite better : BenchmarkSuite F H}

/-- What the constructors of a suite and of its metrics check of the numbers that are weighed. -/
structure Rated (suite : BenchmarkSuite F H) : Prop where
  distinct : suite.names.Nodup
  weights : ∀ metric ∈ suite.metrics, 0 ≤ metric.weight
  importance : ∀ value ∈ suite.phaseImportance, 0 < value
  receipts : ∀ hash receipt, suite.receiptMetrics.get? hash = some receipt →
    ∀ name value, receipt.get? name = some value → 0 ≤ value ∧ value ≤ 1

omit [IsStrictOrderedRing F] in
theorem postInit_rated (built : suite.postInit runtime hashing = .ok ())
    (metrics : ∀ metric ∈ suite.metrics, metric.postInit runtime = .ok ()) : suite.Rated := by
  have weights : ∀ metric ∈ suite.metrics, 0 ≤ metric.weight := by
    intro metric member
    have checked := metrics metric member
    simp only [BenchmarkMetric.postInit, bind_eq_ok, ensure_eq_ok, Bool.and_eq_true, Bool.not_eq_true',
      decide_eq_false_iff_not, not_lt] at checked
    obtain ⟨_, _, _, ⟨_, weight⟩, _⟩ := checked
    exact weight
  simp only [postInit, bind_eq_ok, ensure_eq_ok, forM_eq_ok, Bool.and_eq_true, decide_eq_true_eq, List.all_eq_true,
    Bool.not_eq_true', decide_eq_false_iff_not, not_le] at built
  obtain ⟨_, _, _, _, _, ⟨_, distinct⟩, _, _, _, ⟨_, importance⟩, _, _, _, _, _, _, _, _, _, _, receipts⟩ := built
  refine ⟨distinct, weights, fun value member => (importance value member).2, fun hash receipt found name value held => ?_⟩
  have checked := receipts (hash, receipt) (Dict.get?_eq_some.mp found)
  simp only [checkReceipt, bind_eq_ok, ensure_eq_ok, forM_eq_ok, Bool.and_eq_true, decide_eq_true_eq] at checked
  obtain ⟨_, _, _, _, ranged⟩ := checked
  obtain ⟨⟨_, low⟩, high⟩ := ranged (name, value) (Dict.get?_eq_some.mp held)
  exact ⟨low, high⟩

omit [IsStrictOrderedRing F] [DecidableEq H] in
theorem Rated.phase [DecidableEq H] (rated : suite.Rated) (phase : Nat) : 0 ≤ (suite.phaseImportance[phase]?).getD 0 := by
  cases found : suite.phaseImportance[phase]? with
  | none => exact le_refl _
  | some value => exact (rated.importance value (List.mem_of_getElem? found)).le

/-- The totals of the metrics lie between zero and the denominator. -/
structure Tally.Fair (suite : BenchmarkSuite F H) (tally : Tally F) : Prop where
  nonneg : 0 ≤ tally.denominator
  low : ∀ name ∈ suite.names, 0 ≤ tally.totals name
  high : ∀ name ∈ suite.names, tally.totals name ≤ tally.denominator

theorem tallyMove_fair {remark : Move F → F → String} {phase : Nat} {tally after : Tally F} {move : Move F}
    (rated : suite.Rated) (fair : tally.Fair suite)
    (tallied : suite.tallyMove hashing remark phase tally move = .ok after) : after.Fair suite := by
  unfold tallyMove at tallied
  split at tallied
  next =>
    obtain rfl := Except.ok.inj tallied
    exact ⟨fair.nonneg, fair.low, fair.high⟩
  next receipt found =>
    obtain ⟨totals, added, same⟩ := bind_eq_ok.mp tallied
    obtain rfl := pure_eq_ok.mp same
    have weight := rated.phase phase
    have share : ∀ name, 0 ≤ (receipt.get? name).getD 0 * (suite.phaseImportance[phase]?).getD 0 ∧
        (receipt.get? name).getD 0 * (suite.phaseImportance[phase]?).getD 0 ≤ (suite.phaseImportance[phase]?).getD 0 := by
      intro name
      cases held : receipt.get? name with
      | none => simpa using weight
      | some value =>
          obtain ⟨low, high⟩ := rated.receipts _ receipt found name value held
          exact ⟨mul_nonneg low weight, mul_le_of_le_one_left weight high⟩
    refine ⟨add_nonneg fair.nonneg weight, fun name listed => ?_, fun name listed => ?_⟩
    · show 0 ≤ totals name
      rw [addReceipt_ok rated.distinct added listed]
      exact add_nonneg (fair.low name listed) (share name).1
    · show totals name ≤ tally.denominator + _
      rw [addReceipt_ok rated.distinct added listed]
      exact add_le_add (fair.high name listed) (share name).2

theorem tallyMoves_fair {passes : Move F → Bool} {remark : Move F → F → String} {phase : Nat} {tally after : Tally F}
    {moves : List (Move F)} (rated : suite.Rated) (fair : tally.Fair suite)
    (tallied : suite.tallyMoves hashing passes remark phase tally moves = .ok after) : after.Fair suite := by
  induction moves generalizing phase tally with
  | nil =>
      obtain rfl : tally = after := by simpa [tallyMoves] using tallied
      exact fair
  | cons move rest ih =>
      unfold tallyMoves at tallied
      split at tallied
      next => exact ih fair tallied
      next =>
        obtain ⟨next, weighed, later⟩ := bind_eq_ok.mp tallied
        exact ih (tallyMove_fair rated fair weighed) later

omit [DecidableEq H] in
theorem Tally.Fair.value {tally : Tally F} (fair : tally.Fair suite) {name : String} (listed : name ∈ suite.names) :
    0 ≤ tally.value name ∧ tally.value name ≤ 1 := by
  unfold Tally.value
  split
  next positive =>
    exact ⟨div_nonneg (fair.low name listed) positive.le, (div_le_one positive).mpr (fair.high name listed)⟩
  next => exact ⟨le_refl _, zero_le_one⟩

omit [DecidableEq H] in
theorem Tally.Fair.values {tally : Tally F} (fair : tally.Fair suite) {name : String} {value : F}
    (held : (suite.values tally).get? name = some value) : 0 ≤ value ∧ value ≤ 1 := by
  obtain ⟨metric, member, same⟩ := List.mem_map.mp (Dict.mem_ofList (Dict.get?_eq_some.mp held))
  obtain ⟨rfl, rfl⟩ := Prod.mk.inj same
  exact fair.value (List.mem_map_of_mem member)

/-- Every reported metric is a share. -/
theorem evaluate_metrics (rated : suite.Rated) {position : Position F} {card : ScoreCard F}
    (evaluated : suite.evaluate runtime hashing position = .ok card) {name : String} {value : F}
    (held : card.metrics.get? name = some value) : 0 ≤ value ∧ value ≤ 1 := by
  have start : ∀ remarks, (⟨fun _ => 0, 0, remarks⟩ : Tally F).Fair suite :=
    fun remarks => ⟨le_refl _, fun _ _ => le_refl _, fun _ _ => le_refl _⟩
  unfold evaluate at evaluated
  split at evaluated
  next =>
    unfold evaluateAbstained at evaluated
    split at evaluated
    next =>
      obtain rfl := Except.ok.inj evaluated
      obtain ⟨metric, _, same⟩ := List.mem_map.mp (Dict.mem_ofList (Dict.get?_eq_some.mp held))
      obtain rfl := (Prod.mk.inj same).2
      exact ⟨le_refl _, zero_le_one⟩
    next =>
      obtain ⟨tally, tallied, same⟩ := bind_eq_ok.mp evaluated
      obtain rfl := pure_eq_ok.mp same
      exact (tallyMoves_fair rated (start _) tallied).values held
  next =>
    obtain ⟨tally, tallied, same⟩ := bind_eq_ok.mp evaluated
    obtain rfl := pure_eq_ok.mp same
    exact (tallyMoves_fair rated (start _) tallied).values held

/-- The same suite, with receipts of the same metrics that are nowhere lower. -/
structure Raised (suite better : BenchmarkSuite F H) : Prop where
  same : better = { suite with receiptMetrics := better.receiptMetrics }
  receipts : ∀ hash, Option.Rel (fun values raised => ∀ name, Option.Rel (· ≤ ·) (values.get? name) (raised.get? name))
    (suite.receiptMetrics.get? hash) (better.receiptMetrics.get? hash)

/-- Totals that are nowhere lower over one denominator, without remarks where there were none. -/
structure Tally.Under (names : List String) (first second : Tally F) : Prop where
  denominator : first.denominator = second.denominator
  totals : ∀ name ∈ names, first.totals name ≤ second.totals name
  remarks : first.remarks = [] → second.remarks = []

theorem tallyMove_under {remark : Move F → F → String} {phase : Nat} {first second after improved : Tally F}
    {move : Move F} (rated : suite.Rated) (raised : suite.Raised better) (under : first.Under suite.names second)
    (tallied : suite.tallyMove hashing remark phase first move = .ok after)
    (other : better.tallyMove hashing remark phase second move = .ok improved) : after.Under suite.names improved := by
  have weight := rated.phase phase
  have named : better.names = suite.names := by rw [raised.same]; rfl
  have phases : better.phaseImportance = suite.phaseImportance := by rw [raised.same]
  have critical : better.criticalSafetyMinimum = suite.criticalSafetyMinimum := by rw [raised.same]
  have receipts := raised.receipts (move.contentHash hashing)
  unfold tallyMove at tallied other
  cases found : suite.receiptMetrics.get? (move.contentHash hashing) with
  | none =>
      cases known : better.receiptMetrics.get? (move.contentHash hashing) with
      | some _ => simp [found, known] at receipts
      | none =>
          simp only [found, known, Except.ok.injEq] at tallied other
          subst tallied other
          exact ⟨under.denominator, under.totals, fun none => by simp at none⟩
  | some receipt =>
      cases known : better.receiptMetrics.get? (move.contentHash hashing) with
      | none => simp [found, known] at receipts
      | some risen =>
          simp only [found, known, phases, critical] at tallied other receipts
          rw [Option.rel_some_some] at receipts
          obtain ⟨totals, added, same⟩ := bind_eq_ok.mp tallied
          obtain ⟨larger, more, again⟩ := bind_eq_ok.mp other
          obtain rfl := pure_eq_ok.mp same
          obtain rfl := pure_eq_ok.mp again
          refine ⟨congrArg (· + _) under.denominator, fun name listed => ?_, ?_⟩
          · show totals name ≤ larger name
            rw [addReceipt_ok rated.distinct added listed, addReceipt_ok (named ▸ rated.distinct) more (named ▸ listed)]
            have value : (receipt.get? name).getD 0 ≤ (risen.get? name).getD 0 := by
              have each := receipts name
              cases low : receipt.get? name <;> cases high : risen.get? name <;> simp_all
            exact add_le_add (under.totals name listed) (mul_le_mul_of_nonneg_right value weight)
          · have safety := receipts "safety"
            cases low : receipt.get? "safety" with
            | none =>
                cases high : risen.get? "safety" with
                | none => exact under.remarks
                | some _ => simp [low, high] at safety
            | some value =>
                cases high : risen.get? "safety" with
                | none => simp [low, high] at safety
                | some better =>
                    have above : value ≤ better := by simpa [low, high] using safety
                    intro clean
                    by_cases critical : value < suite.criticalSafetyMinimum
                    · simp [critical] at clean
                    · have safe : ¬better < suite.criticalSafetyMinimum := fun below => critical (above.trans_lt below)
                      simp only [critical, safe, if_false] at clean ⊢
                      exact under.remarks clean

theorem tallyMoves_under {passes : Move F → Bool} {remark : Move F → F → String} {phase : Nat}
    {first second after improved : Tally F} {moves : List (Move F)} (rated : suite.Rated) (raised : suite.Raised better)
    (under : first.Under suite.names second)
    (tallied : suite.tallyMoves hashing passes remark phase first moves = .ok after)
    (other : better.tallyMoves hashing passes remark phase second moves = .ok improved) :
    after.Under suite.names improved := by
  induction moves generalizing phase first second with
  | nil =>
      obtain rfl : first = after := by simpa [tallyMoves] using tallied
      obtain rfl : second = improved := by simpa [tallyMoves] using other
      exact under
  | cons move rest ih =>
      unfold tallyMoves at tallied other
      by_cases passed : passes move = true
      · rw [if_pos passed] at tallied other
        exact ih under tallied other
      · rw [if_neg passed] at tallied other
        obtain ⟨next, weighed, later⟩ := bind_eq_ok.mp tallied
        obtain ⟨following, more, rest⟩ := bind_eq_ok.mp other
        exact ih (tallyMove_under rated raised under weighed more) later rest

theorem Tally.Under.value {names : List String} {first second : Tally F} (under : first.Under names second) {name : String}
    (listed : name ∈ names) : first.value name ≤ second.value name := by
  unfold Tally.value
  rw [under.denominator]
  split
  next positive => exact div_le_div_of_nonneg_right (under.totals name listed) positive.le
  next => exact le_refl _

theorem Tally.Under.composite {first second : Tally F} (rated : suite.Rated) (under : first.Under suite.names second) :
    suite.composite first ≤ suite.composite second := by
  unfold BenchmarkSuite.composite
  rw [pySum_eq_sum, pySum_eq_sum]
  refine List.sum_le_sum fun metric member => ?_
  exact mul_le_mul_of_nonneg_left (under.value (List.mem_map_of_mem member)) (rated.weights metric member)

/-- A position that is feasible stays so, with no lower reward. -/
theorem evaluate_raised (rated : suite.Rated) (raised : suite.Raised better) {position : Position F}
    {card improved : ScoreCard F} (evaluated : suite.evaluate runtime hashing position = .ok card)
    (other : better.evaluate runtime hashing position = .ok improved) (feasible : card.feasible = true) :
    improved.feasible = true ∧ card.reward ≤ improved.reward := by
  obtain ⟨receipts, same⟩ : ∃ receipts, better = { suite with receiptMetrics := receipts } := ⟨_, raised.same⟩
  subst same
  unfold evaluate at evaluated other
  split at evaluated
  next abstained =>
    rw [if_pos abstained] at other
    unfold evaluateAbstained at evaluated other
    split at evaluated
    next fallback =>
      rw [if_pos fallback] at other
      obtain rfl := Except.ok.inj evaluated
      obtain rfl := Except.ok.inj other
      exact ⟨rfl, le_refl _⟩
    next fallback =>
      rw [if_neg fallback] at other
      obtain ⟨_, _, same⟩ := bind_eq_ok.mp evaluated
      obtain ⟨_, _, again⟩ := bind_eq_ok.mp other
      obtain rfl := pure_eq_ok.mp same
      obtain rfl := pure_eq_ok.mp again
      exact ⟨rfl, le_refl _⟩
  next abstained =>
    rw [if_neg abstained] at other
    obtain ⟨tally, tallied, same⟩ := bind_eq_ok.mp evaluated
    obtain ⟨larger, more, again⟩ := bind_eq_ok.mp other
    obtain rfl := pure_eq_ok.mp same
    obtain rfl := pure_eq_ok.mp again
    have under := tallyMoves_under rated raised ⟨rfl, fun _ _ => le_refl _, fun clean => clean⟩ tallied more
    have composite := under.composite rated
    simp only [List.isEmpty_iff, fromKeys_eq_nil, List.append_eq_nil_iff, List.flatMap_eq_nil_iff] at feasible ⊢
    obtain ⟨clean, gates⟩ := feasible
    have passed : ∀ metric ∈ suite.metrics, gateFailure runtime larger metric = [] := by
      intro metric member
      have gate := gates metric member
      unfold gateFailure at gate ⊢
      split at gate
      next minimum hard =>
        split at gate
        next => simp at gate
        next above =>
          have value := under.value (List.mem_map_of_mem member)
          rw [if_neg fun below => above (value.trans_lt below)]
      next => rfl
    refine ⟨⟨under.remarks clean, passed⟩, ?_⟩
    rw [if_pos ⟨clean, gates⟩, if_pos ⟨under.remarks clean, passed⟩, pyMax_eq_max, pyMax_eq_max, pyMin_eq_min,
      pyMin_eq_min]
    have double : 2.0 * suite.composite tally - 1 - suite.costWeight * position.spentCost ≤
        2.0 * suite.composite larger - 1 - suite.costWeight * position.spentCost := by
      have two : (0 : F) ≤ 2.0 := by norm_num
      exact sub_le_sub_right (sub_le_sub_right (mul_le_mul_of_nonneg_left composite two) 1) _
    exact max_le_max (le_refl _) (min_le_min (le_refl _) double)

end BenchmarkSuite

end AgentTree.Engine
