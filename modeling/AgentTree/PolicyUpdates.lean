import AgentTree.PolicyFrames
import AgentTree.Serde
import Mathlib.Algebra.Order.Field.Basic
import Mathlib.Data.Rat.Cast.OfScientific
import Mathlib.Data.String.Basic
import Mathlib.Tactic.Linarith
import Mathlib.Tactic.NormNum.OfScientific
import Mathlib.Tactic.Positivity
import Mathlib.Tactic.Ring

/-!
What every update of a model keeps: the conditions of its constructor, the order of its
counters, and the agents that are benched.  Numbers are exact here.
-/

namespace AgentTree.Engine

open Outcome Relational

variable {F H : Type} [Field F] [LinearOrder F] [IsStrictOrderedRing F]

/-- No number is infinite or undefined, and `tanh` keeps to its range. -/
structure Runtime.Exact (runtime : Runtime F) : Prop where
  finite : ∀ value, runtime.isFinite value = true
  tanh : ∀ value, -1 ≤ runtime.tanh value ∧ runtime.tanh value ≤ 1

section Numbers

omit [Field F] [IsStrictOrderedRing F]

theorem pyMax_eq_max (a b : F) : pyMax a b = max a b := by
  rw [pyMax, max_def_lt]

theorem pyMin_eq_min (a b : F) : pyMin a b = min a b := by
  rw [pyMin, min_comm, min_def_lt]

end Numbers

omit [IsStrictOrderedRing F] in
theorem pyAbs_eq_abs [IsOrderedAddMonoid F] (a : F) : pyAbs a = |a| := by
  unfold pyAbs
  split
  next below => rw [abs_of_neg below]
  next above => rw [abs_of_nonneg (not_lt.mp above)]

omit [IsStrictOrderedRing F] in
theorem pyDiv_ok {x y : F} (nonzero : y ≠ 0) : pyDiv x y = .ok (x / y) := by
  simp [pyDiv, nonzero]

namespace AgentRecord

variable {runtime : Runtime F} {record : AgentRecord F}

/-- Both counts are positive. -/
def Positive (record : AgentRecord F) : Prop := 0 < record.alpha ∧ 0 < record.beta

theorem fresh_positive : (fresh : AgentRecord F).Positive := by
  simp [Positive, fresh]

theorem Positive.mean (positive : record.Positive) :
    record.mean = .ok (record.alpha / (record.alpha + record.beta)) :=
  pyDiv_ok (add_pos positive.1 positive.2).ne'

theorem Positive.upperConfidence (positive : record.Positive) (runtime : Runtime F) :
    ∃ upper, record.upperConfidence runtime = .ok upper := by
  obtain ⟨alpha, beta⟩ := positive
  have total : 0 < record.alpha + record.beta := add_pos alpha beta
  have divisor : 0 < (record.alpha + record.beta) * (record.alpha + record.beta) * (record.alpha + record.beta + 1) := by
    positivity
  have variance : ¬record.alpha * record.beta /
      ((record.alpha + record.beta) * (record.alpha + record.beta) * (record.alpha + record.beta + 1)) < 0 := by
    rw [not_lt]
    positivity
  simp [AgentRecord.upperConfidence, Positive.mean ⟨alpha, beta⟩, standardDeviation, pyDiv_ok divisor.ne', variance,
    ensure, bind, Except.bind, pure, Except.pure]

/-- An observation is worth one, shared between the counts. -/
theorem observe_ok (exact : runtime.Exact) (record : AgentRecord F) (quality : F) :
    ∃ observed, record.observe runtime quality = .ok observed ∧ record.alpha ≤ observed.alpha ∧
      record.beta ≤ observed.beta ∧ observed.alpha + observed.beta = record.alpha + record.beta + 1 ∧
      observed.benched = record.benched := by
  have low : 0 ≤ pyMax 0 (pyMin 1 quality) := by
    rw [pyMax_eq_max]
    exact le_max_left _ _
  have high : pyMax 0 (pyMin 1 quality) ≤ 1 := by
    rw [pyMax_eq_max, pyMin_eq_min]
    exact max_le zero_le_one (min_le_left _ _)
  have observed : record.observe runtime quality = .ok { record with
      alpha := record.alpha + pyMax 0 (pyMin 1 quality)
      beta := record.beta + (1 - pyMax 0 (pyMin 1 quality)) } := by
    simp [observe, exact.finite, ensure, bind, Except.bind, pure, Except.pure]
  refine ⟨_, observed, ?_, ?_, ?_, rfl⟩
  · linarith
  · linarith
  · ring

end AgentRecord

namespace PolicyValueModel

variable {runtime : Runtime F} {model : PolicyValueModel F}

/-- What the constructor accepts. -/
structure Valid (model : PolicyValueModel F) : Prop where
  policyLimit : 0 < model.policyLimit
  valueLimit : 0 < model.valueLimit
  benchMinSamples : 0 < model.benchMinSamples
  benchUpperThreshold : 0 ≤ model.benchUpperThreshold ∧ model.benchUpperThreshold ≤ 1
  generation : 0 ≤ model.generation
  valueUpdates : 0 ≤ model.valueUpdates
  valueBias : |model.valueBias| ≤ model.valueLimit
  policyWeights : ∀ entry ∈ model.policyWeights.rows, |entry.2| ≤ model.policyLimit
  valueWeights : ∀ entry ∈ model.valueWeights.rows, |entry.2| ≤ model.valueLimit
  agentRecords : ∀ entry ∈ model.agentRecords.rows, entry.2.Positive

theorem postInit_ok (exact : runtime.Exact) : model.postInit runtime = .ok () ↔ model.Valid := by
  simp only [postInit, bind_eq_ok, ensure_eq_ok, forM_eq_ok, within, exact.finite, pyAbs_eq_abs, Bool.and_eq_true,
    Bool.not_eq_true', decide_eq_true_eq, decide_eq_false_iff_not, not_le, not_lt, true_and]
  constructor
  · rintro ⟨_, limits, _, samples, _, threshold, _, generation, _, updates, _, bias, _, policy, _, value, records⟩
    exact ⟨limits.1, limits.2, samples, threshold, generation, updates, bias, policy, value, records⟩
  · intro valid
    exact ⟨(), ⟨valid.policyLimit, valid.valueLimit⟩, (), valid.benchMinSamples, (), valid.benchUpperThreshold, (),
      valid.generation, (), valid.valueUpdates, (), valid.valueBias, (), valid.policyWeights, (), valid.valueWeights,
      valid.agentRecords⟩

/-! Clipped updates. -/

theorem abs_clip_le {limit : F} (positive : 0 < limit) (value : F) : |clip value limit| ≤ limit := by
  rw [clip, pyMax_eq_max, pyMin_eq_min, abs_le]
  exact ⟨le_max_left _ _, max_le (by linarith) (min_le_left _ _)⟩

theorem Clipped.within {limit : F} {before after : Dict String F} (positive : 0 < limit)
    (clipped : Clipped limit before after) (within : ∀ entry ∈ before.rows, |entry.2| ≤ limit) :
    ∀ entry ∈ after.rows, |entry.2| ≤ limit := by
  intro entry member
  rcases clipped entry member with old | ⟨value, same⟩
  · exact within entry old
  · exact same ▸ abs_clip_le positive value

/-- Training keeps a model valid. -/
theorem Trained.valid {after : PolicyValueModel F} {count : Nat} (trained : Trained model after count)
    (valid : model.Valid) : after.Valid := by
  have bias : |after.valueBias| ≤ model.valueLimit := by
    rcases trained.valueBias with same | ⟨value, same⟩
    · exact same ▸ valid.valueBias
    · exact same ▸ abs_clip_le valid.valueLimit value
  have counted := valid.valueUpdates
  have policy := trained.policyWeights.within valid.policyLimit valid.policyWeights
  have value := trained.valueWeights.within valid.valueLimit valid.valueWeights
  rw [trained.frame]
  exact { valid with
    valueUpdates := by
      show 0 ≤ model.valueUpdates + count
      omega
    valueBias := bias
    policyWeights := policy
    valueWeights := value }

/-! Observations. -/

/-- The record of an actor, fresh where the model has none. -/
def recordOf (model : PolicyValueModel F) (actor : String) : AgentRecord F :=
  (model.agentRecords.get? actor).getD .fresh

theorem Valid.recordOf (valid : model.Valid) (actor : String) : (model.recordOf actor).Positive := by
  unfold PolicyValueModel.recordOf
  cases found : model.agentRecords.get? actor with
  | none => exact AgentRecord.fresh_positive
  | some record => exact valid.agentRecords _ (Dict.get?_eq_some.mp found)

omit [LinearOrder F] [IsStrictOrderedRing F] in
theorem recordFor_frame (model : PolicyValueModel F) (actor : String) :
    ∃ records, model.recordFor actor = { model with agentRecords := records } ∧
      records.get? actor = some (model.recordOf actor) ∧
      ∀ other, other ≠ actor → records.get? other = model.agentRecords.get? other := by
  unfold recordFor recordOf
  split
  next there =>
    obtain ⟨record, found⟩ := Option.isSome_iff_exists.mp there
    exact ⟨model.agentRecords, rfl, by simp [found], fun _ _ => rfl⟩
  next absent =>
    have missing : model.agentRecords.get? actor = none := by simpa [Dict.contains] using absent
    exact ⟨_, rfl, by simp [Dict.get?_set, missing], fun other apart => by simp [Dict.get?_set, apart]⟩

/-- The record has the samples to be benched, and its upper confidence is below the threshold. -/
def Meets (runtime : Runtime F) (model : PolicyValueModel F) (record : AgentRecord F) : Prop :=
  (model.benchMinSamples : F) ≤ record.samples ∧
    ∃ upper, record.upperConfidence runtime = .ok upper ∧ upper < model.benchUpperThreshold

/-- What a successful observation of an actor has done. -/
structure Observed (runtime : Runtime F) (before after : PolicyValueModel F) (actor : String) : Prop where
  counted : (after.recordOf actor).alpha + (after.recordOf actor).beta =
    (before.recordOf actor).alpha + (before.recordOf actor).beta + 1
  positive : (after.recordOf actor).Positive
  others : ∀ other, other ≠ actor → after.agentRecords.get? other = before.agentRecords.get? other
  benched : (after.recordOf actor).benched = (before.recordOf actor).benched ∨
    (after.recordOf actor).benched = true ∧ before.Meets runtime (after.recordOf actor)
  frame : ∃ records, after = { before with agentRecords := records }

theorem benches_ok (runtime : Runtime F) (model : PolicyValueModel F) {record : AgentRecord F}
    (positive : record.Positive) :
    ∃ flag, model.benches runtime record = .ok flag ∧
      (flag = true ↔ record.benched = false ∧ model.Meets runtime record) := by
  obtain ⟨upper, confident⟩ := positive.upperConfidence runtime
  unfold benches Meets
  by_cases asked : (!record.benched && decide ((model.benchMinSamples : F) ≤ record.samples)) = true
  · refine ⟨_, by simp [asked, confident, bind, Except.bind, pure, Except.pure]; rfl, ?_⟩
    simp only [Bool.and_eq_true, Bool.not_eq_true', decide_eq_true_eq] at asked
    simp [asked, confident]
  · refine ⟨false, by simp [asked], ?_⟩
    simp only [Bool.and_eq_true, Bool.not_eq_true', decide_eq_true_eq] at asked
    simpa using fun active enough => absurd ⟨active, enough⟩ asked

/-- An observation that raises leaves the record of the actor at most. -/
theorem observeBenchmark_cases [DecidableEq H] (exact : runtime.Exact) (hashing : Hashing F H) (valid : model.Valid)
    (move : Move F) (suite : BenchmarkSuite F H) :
    (∃ error, model.observeBenchmark runtime hashing move suite = (.error error, model.recordFor move.actor)) ∨
      ∃ after, model.observeBenchmark runtime hashing move suite = (.ok (), after) ∧
        Observed runtime model after move.actor := by
  obtain ⟨records, recorded, own, others⟩ := recordFor_frame model move.actor
  simp only [observeBenchmark, recorded, own, Option.getD_some]
  cases weighed : suite.receiptMoveQuality hashing move with
  | error error => exact .inl ⟨error, rfl⟩
  | ok quality =>
      right
      obtain ⟨observed, looked, alpha, beta, counted, benched⟩ :=
        AgentRecord.observe_ok exact (model.recordOf move.actor) quality
      have positive : observed.Positive :=
        ⟨(valid.recordOf _).1.trans_le alpha, (valid.recordOf _).2.trans_le beta⟩
      have set : ∀ flag, flag = (model.recordOf move.actor).benched ∨ flag = true ∧ model.Meets runtime observed →
          Observed runtime model
            { model with agentRecords := records.set move.actor { observed with benched := flag } } move.actor := by
        intro flag flagged
        have found : recordOf { model with
            agentRecords := records.set move.actor { observed with benched := flag } } move.actor =
            { observed with benched := flag } := by simp [recordOf, Dict.get?_set]
        refine ⟨by rw [found]; exact counted, by rw [found]; exact positive, fun other apart => ?_,
          by rw [found]; exact flagged, _, rfl⟩
        simp [Dict.get?_set, apart, others other apart]
      obtain ⟨flag, decided, criterion⟩ := benches_ok runtime
        (setRecord { model with agentRecords := records } move.actor observed) positive
      simp only [looked, bind, Except.bind, decided]
      cases flag with
      | false => exact ⟨_, rfl, set observed.benched (.inl benched)⟩
      | true => exact ⟨_, rfl, set true (.inr ⟨rfl, (criterion.mp rfl).2⟩)⟩

theorem Valid.recordFor (valid : model.Valid) (actor : String) : (model.recordFor actor).Valid := by
  unfold PolicyValueModel.recordFor
  split
  next => exact valid
  next =>
    refine { valid with agentRecords := fun entry member => ?_ }
    rcases Dict.mem_set member with rfl | member
    · exact AgentRecord.fresh_positive
    · exact valid.agentRecords entry member

omit [IsStrictOrderedRing F] in
theorem Observed.valid {after : PolicyValueModel F} {actor : String} (observed : Observed runtime model after actor)
    (valid : model.Valid) : after.Valid := by
  obtain ⟨records, rfl⟩ := observed.frame
  refine { valid with agentRecords := fun entry member => ?_ }
  have held := Dict.get?_eq_some.mpr member
  by_cases same : entry.1 = actor
  · have own := observed.positive
    rw [recordOf, ← same, held] at own
    exact own
  · rw [observed.others entry.1 same] at held
    exact valid.agentRecords entry (Dict.get?_eq_some.mp held)

end PolicyValueModel

end AgentTree.Engine
