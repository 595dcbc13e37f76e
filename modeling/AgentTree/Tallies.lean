import AgentTree.AggregateReceipts
import Mathlib.Algebra.BigOperators.Group.List.Basic

/-!
The numbers of a hidden benchmark: what the worker's loop computes from weights and outcomes, and which numbers the
controller's check leaves.
-/

namespace AgentTree.HiddenBenchmark

open Outcome

/-- The weights of the cases that passed, or that failed. -/
def weightsOf (flag : Bool) (cases : List (Nat × Bool)) : List Nat := (cases.filter (·.2 = flag)).map Prod.fst

section Scores

variable {cases : List (Nat × Bool)}

@[simp] theorem weightsOf_nil (flag : Bool) : weightsOf flag [] = [] := rfl

@[simp] theorem weightsOf_cons (flag : Bool) (weight : Nat) (outcome : Bool) (rest : List (Nat × Bool)) :
    weightsOf flag ((weight, outcome) :: rest) =
      if outcome = flag then weight :: weightsOf flag rest else weightsOf flag rest := by
  by_cases same : outcome = flag <;> simp [weightsOf, same]

theorem scoreCases_eq (passed weighted : Nat) (cases : List (Nat × Bool)) :
    scoreCases passed weighted cases =
      (passed + (weightsOf true cases).length, weighted + (weightsOf true cases).sum) := by
  induction cases generalizing passed weighted with
  | nil => simp [scoreCases]
  | cons first rest ih =>
      obtain ⟨weight, flag⟩ := first
      cases flag
      · simp [scoreCases, ih]
      · simp [scoreCases, ih, Nat.add_assoc, Nat.add_comm 1]

theorem weights_split (cases : List (Nat × Bool)) :
    cases.length = (weightsOf true cases).length + (weightsOf false cases).length ∧
      (cases.map Prod.fst).sum = (weightsOf true cases).sum + (weightsOf false cases).sum := by
  induction cases with
  | nil => simp
  | cons first rest ih =>
      obtain ⟨weight, flag⟩ := first
      cases flag <;> simp <;> omega

/-- The weights that the loader accepts. -/
def Weighed (weights : List Nat) : Prop := ∀ weight ∈ weights, 1 ≤ weight ∧ weight ≤ maxWeightMicros

theorem Weighed.bounds {weights : List Nat} (weighed : Weighed weights) :
    weights.length ≤ weights.sum ∧ weights.sum ≤ weights.length * maxWeightMicros := by
  induction weights with
  | nil => simp
  | cons weight rest ih =>
      obtain ⟨⟨low, high⟩, others⟩ := List.forall_mem_cons.mp weighed
      have := ih others
      simp only [List.length_cons, List.sum_cons, Nat.add_mul]
      omega

/-- Every sum between the least and the greatest is that of some weights. -/
theorem exists_weights {count sum : Nat} (low : count ≤ sum) (high : sum ≤ count * maxWeightMicros) :
    ∃ weights, Weighed weights ∧ weights.length = count ∧ weights.sum = sum := by
  induction count generalizing sum with
  | zero =>
      obtain rfl : sum = 0 := by omega
      exact ⟨[], by simp [Weighed], rfl, rfl⟩
  | succ count ih =>
      -- The first weight takes what the others do not need, up to the greatest weight.
      have positive : 1 ≤ maxWeightMicros := by decide
      have others : count * 1 ≤ count * maxWeightMicros := Nat.mul_le_mul_left _ positive
      rw [Nat.add_mul] at high
      let weight := min maxWeightMicros (sum - count)
      obtain ⟨weights, weighed, length, total⟩ : ∃ weights, Weighed weights ∧ weights.length = count ∧
          weights.sum = sum - weight := ih (by omega) (by omega)
      refine ⟨weight :: weights, List.forall_mem_cons.mpr ⟨⟨by omega, by omega⟩, weighed⟩, ?_, ?_⟩
      · rw [List.length_cons, length]
      · rw [List.sum_cons, total]
        omega

/-- The result is that of some nonempty list of weights and outcomes. -/
def Realisable (result : Tally) : Prop :=
  ∃ cases : List (Nat × Bool), cases ≠ [] ∧ Weighed (cases.map Prod.fst) ∧ tally cases = result

/-- There is a case, and the scores of the passed and of the failed cases are those of as many weights. -/
structure Attainable (result : Tally) : Prop where
  nonempty : 0 < result.total
  passed : result.passed ≤ result.weightedScoreMicros ∧
    result.weightedScoreMicros ≤ result.passed * maxWeightMicros
  failed : result.failed ≤ result.maxScoreMicros - result.weightedScoreMicros ∧
    result.maxScoreMicros - result.weightedScoreMicros ≤ result.failed * maxWeightMicros

/-- The identities and bounds that the controller checks. -/
structure Consistent (result : Tally) : Prop where
  nonnegative : 0 ≤ result.passed ∧ 0 ≤ result.failed ∧ 0 ≤ result.total ∧ 0 ≤ result.weightedScoreMicros ∧
    0 ≤ result.maxScoreMicros
  counts : result.passed + result.failed = result.total
  scores : result.weightedScoreMicros ≤ result.maxScoreMicros
  bounded : 0 ≤ result.normalizedScorePpm ∧ result.normalizedScorePpm ≤ 1000000
  normalized : result.normalizedScorePpm =
    if result.maxScoreMicros ≠ 0 then result.weightedScoreMicros * 1000000 / result.maxScoreMicros else 0

theorem tally_eq (cases : List (Nat × Bool)) : tally cases =
    { passed := (weightsOf true cases).length, failed := (weightsOf false cases).length, total := cases.length
      weightedScoreMicros := (weightsOf true cases).sum
      maxScoreMicros := ((weightsOf true cases).sum + (weightsOf false cases).sum : Nat)
      normalizedScorePpm :=
        ((weightsOf true cases).sum * 1000000 / ((weightsOf true cases).sum + (weightsOf false cases).sum) : Nat) } := by
  obtain ⟨length, sum⟩ := weights_split cases
  simp only [tally, scoreCases_eq, Nat.zero_add, sum, Tally.mk.injEq, true_and, and_true]
  omega

theorem Weighed.of (flag : Bool) (weighed : Weighed (cases.map Prod.fst)) : Weighed (weightsOf flag cases) := by
  intro weight member
  obtain ⟨pair, filtered, rfl⟩ := List.mem_map.mp member
  exact weighed _ (List.mem_map_of_mem (List.mem_of_mem_filter filtered))

theorem realisable_attainable {result : Tally} (realisable : Realisable result) : Attainable result := by
  obtain ⟨cases, nonempty, weighed, rfl⟩ := realisable
  have positive := List.length_pos_of_ne_nil nonempty
  have passed := (weighed.of true).bounds
  have failed := (weighed.of false).bounds
  rw [tally_eq]
  constructor <;> dsimp only <;> omega

theorem weightsOf_append (flag : Bool) (first second : List (Nat × Bool)) :
    weightsOf flag (first ++ second) = weightsOf flag first ++ weightsOf flag second := by
  simp [weightsOf]

theorem weightsOf_same (flag outcome : Bool) (weights : List Nat) :
    weightsOf flag (weights.map fun weight => (weight, outcome)) = if outcome = flag then weights else [] := by
  induction weights with
  | nil => simp
  | cons weight rest ih =>
      rw [List.map_cons, weightsOf_cons, ih]
      by_cases same : outcome = flag <;> simp [same]

/-- Consistent numbers are realisable if and only if they are attainable. -/
theorem Consistent.realisable_iff {result : Tally} (consistent : Consistent result) :
    Realisable result ↔ Attainable result := by
  refine ⟨realisable_attainable, fun attainable => ?_⟩
  obtain ⟨passed, failed, total, weighted, maximum, ppm⟩ := result
  obtain ⟨⟨passed_nonneg, failed_nonneg, _, weighted_nonneg, _⟩, counts, scores, _, normalized⟩ := consistent
  obtain ⟨some, ⟨passedLow, passedHigh⟩, failedLow, failedHigh⟩ := attainable
  simp only at *
  obtain ⟨missed, rfl⟩ : ∃ missed : Nat, maximum = weighted + missed := ⟨(maximum - weighted).toNat, by omega⟩
  lift passed to ℕ using passed_nonneg
  lift failed to ℕ using failed_nonneg
  lift weighted to ℕ using weighted_nonneg
  rw [add_sub_cancel_left] at failedLow failedHigh
  norm_cast at passedLow passedHigh failedLow failedHigh
  obtain ⟨succeeding, weighedPassed, rfl, rfl⟩ := exists_weights passedLow passedHigh
  obtain ⟨failing, weighedFailed, rfl, rfl⟩ := exists_weights failedLow failedHigh
  have first (flag : Bool) := weightsOf_same flag true succeeding
  have second (flag : Bool) := weightsOf_same flag false failing
  refine ⟨succeeding.map (·, true) ++ failing.map (·, false), ?_, ?_, ?_⟩
  · intro empty
    have lengths := congrArg List.length empty
    simp only [List.length_append, List.length_map, List.length_nil] at lengths
    omega
  · intro weight member
    simp only [List.map_append, List.map_map, Function.comp_def, List.map_id', List.mem_append] at member
    exact member.elim (weighedPassed weight) (weighedFailed weight)
  · rw [tally_eq]
    simp only [weightsOf_append, first, second, if_true, Bool.false_eq_true, Bool.true_eq_false, if_false, List.append_nil,
      List.nil_append, List.length_append, List.length_map, Tally.mk.injEq, true_and]
    refine ⟨by omega, by push_cast; rfl, ?_⟩
    rw [normalized]
    split
    next => push_cast; rfl
    next zero =>
      have none : succeeding.sum + failing.sum = 0 := by omega
      simp [none]

theorem checkTally_ok {integral : String → Option Int} {caseCount : Json} {result : Tally} {done : Unit} :
    checkTally integral caseCount result = .ok done ↔
      equalsInt integral caseCount result.total = true ∧ Consistent result := by
  simp only [checkTally, bind_eq_ok, ensure_eq_ok, Bool.and_eq_true, decide_eq_true_eq]
  constructor
  · rintro ⟨_, ⟨⟨⟨⟨⟨passed, failed⟩, total⟩, weighted⟩, maximum⟩, _⟩, _, counts, _, count, _, scores, _, bounded,
      normalized⟩
    exact ⟨count, ⟨passed, failed, total, weighted, maximum⟩, counts, scores, bounded, normalized⟩
  · rintro ⟨count, ⟨passed, failed, total, weighted, maximum⟩, counts, scores, bounded, normalized⟩
    exact ⟨(), ⟨⟨⟨⟨⟨passed, failed⟩, total⟩, weighted⟩, maximum⟩, bounded.1⟩, (), counts, (), count, (), scores, (), bounded,
      normalized⟩

theorem tally_maximum (nonempty : cases ≠ []) (weighed : Weighed (cases.map Prod.fst)) :
    0 < (weightsOf true cases).sum + (weightsOf false cases).sum := by
  have positive := List.length_pos_of_ne_nil nonempty
  have total := weighed.bounds.1
  obtain ⟨_, sum⟩ := weights_split cases
  rw [List.length_map] at total
  omega

theorem tally_consistent (nonempty : cases ≠ []) (weighed : Weighed (cases.map Prod.fst)) : Consistent (tally cases) := by
  have positive := tally_maximum nonempty weighed
  have below : (weightsOf true cases).sum * 1000000 /
      ((weightsOf true cases).sum + (weightsOf false cases).sum) ≤ 1000000 := by
    refine Nat.div_le_of_le_mul ?_
    rw [Nat.add_mul]
    omega
  obtain ⟨length, _⟩ := weights_split cases
  rw [tally_eq]
  refine ⟨by simp only; omega, by simp only; omega, by simp only; omega,
    ⟨Int.natCast_nonneg _, Int.ofNat_le.mpr below⟩, ?_⟩
  have apart : ((((weightsOf true cases).sum + (weightsOf false cases).sum : Nat) : Int)) ≠ 0 := by omega
  rw [if_pos apart]
  push_cast
  rfl

theorem weightsOf_false_sum (weighed : Weighed (cases.map Prod.fst)) :
    (weightsOf false cases).sum = 0 ↔ ∀ outcome ∈ cases, outcome.2 = true := by
  have bounds := (weighed.of false).bounds.1
  constructor
  · intro zero outcome member
    have empty : weightsOf false cases = [] := List.length_eq_zero_iff.mp (by omega)
    have absent := List.filter_eq_nil_iff.mp (List.map_eq_nil_iff.mp empty) outcome member
    simpa using absent
  · intro all
    have empty : weightsOf false cases = [] := by
      rw [weightsOf, List.map_eq_nil_iff, List.filter_eq_nil_iff]
      intro outcome member
      simp [all outcome member]
    simp [empty]

/-- The score is full if and only if every case passed. -/
theorem tally_full (nonempty : cases ≠ []) (weighed : Weighed (cases.map Prod.fst)) :
    (tally cases).normalizedScorePpm = 1000000 ↔ ∀ outcome ∈ cases, outcome.2 = true := by
  have positive := tally_maximum nonempty weighed
  rw [← weightsOf_false_sum weighed, tally_eq]
  generalize (weightsOf true cases).sum = weighted at *
  generalize (weightsOf false cases).sum = missed at *
  have cast : ((weighted * 1000000 / (weighted + missed) : Nat) : Int) = 1000000 ↔
      weighted * 1000000 / (weighted + missed) = 1000000 := by norm_cast
  refine cast.trans ?_
  constructor
  · intro full
    have := Nat.div_mul_le_self (weighted * 1000000) (weighted + missed)
    rw [full] at this
    omega
  · rintro rfl
    exact Nat.mul_div_cancel_left _ (by omega)

theorem weightsOf_mono {first second : List (Nat × Bool)}
    (better : List.Forall₂ (fun before after => before.1 = after.1 ∧ (before.2 = true → after.2 = true)) first second) :
    first.map Prod.fst = second.map Prod.fst ∧ (weightsOf true first).sum ≤ (weightsOf true second).sum := by
  induction better with
  | nil => simp
  | @cons before after rest others first _ ih =>
      obtain ⟨weight, flag⟩ := before
      obtain ⟨other, outcome⟩ := after
      obtain ⟨rfl, passed⟩ := first
      refine ⟨by simp [ih.1], ?_⟩
      cases flag <;> cases outcome <;> simp at passed ⊢ <;> omega

/-- A case that passes after all does not lower the score. -/
theorem tally_mono {first second : List (Nat × Bool)}
    (better : List.Forall₂ (fun before after => before.1 = after.1 ∧ (before.2 = true → after.2 = true)) first second) :
    (tally first).normalizedScorePpm ≤ (tally second).normalizedScorePpm := by
  obtain ⟨weights, scores⟩ := weightsOf_mono better
  have maximum : (weightsOf true first).sum + (weightsOf false first).sum =
      (weightsOf true second).sum + (weightsOf false second).sum := by
    rw [← (weights_split first).2, ← (weights_split second).2, weights]
  rw [tally_eq, tally_eq, maximum]
  have scaled := Nat.div_le_div_right (c := (weightsOf true second).sum + (weightsOf false second).sum)
    (Nat.mul_le_mul_right 1000000 scores)
  exact Int.ofNat_le.mpr scaled

end Scores

end AgentTree.HiddenBenchmark
