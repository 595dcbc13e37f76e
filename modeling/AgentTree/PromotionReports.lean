import AgentTree.ArtifactRoundTrips
import AgentTree.AsciiJson
import AgentTree.ControlCore
import AgentTree.GatedResults
import AgentTree.Learning

/-!
The promotion report of the offline learner (`learner.py`): how a challenger is compared
with its champion, and the identity by which the report names the challenger.
-/

set_option linter.unusedSectionVars false

namespace AgentTree.Engine

open Outcome Relational

variable {F H : Type}

structure EvaluationSummary (F : Type) where
  meanReward : F
  minimumReward : F
  hardGateFailures : Nat
  abstentions : Nat
  meanBenchmarkEvaluations : F
  cases : Nat

structure PromotionReport (F : Type) where
  accepted : Bool
  reasons : List String
  champion : EvaluationSummary F
  challenger : EvaluationSummary F
  rewardDelta : F
  artifactId : String

structure PromotionPolicy (F : Type) where
  minimumMeanRewardDelta : F
  maximumEvaluationRatio : F
  requireNoNewHardFailures : Bool
  requireNoMoreAbstentions : Bool

/-- `statistics.mean`, a number with six digits, and the digest of bytes in hexadecimal. -/
structure Reporting (F : Type) where
  mean : List F → F
  fixed6 : F → String
  sha256 : Bytes → String

/-- The learner with the built-in scenario and suite. -/
structure OfflineLearner (F H : Type) where
  family : String
  scenario : Scenario F
  benchmark : BenchmarkSuite F H

namespace OfflineLearner

variable [Zero F] [One F] [Add F] [Sub F] [Mul F] [Div F] [Neg F] [LT F] [LE F] [DecidableLT F] [DecidableLE F]
  [DecidableEq F] [OfScientific F] [NatCast F] [IntCast F] [DecidableEq H]
  {runtime : Runtime F} (numerals : Numerals runtime) (hashing : Hashing F H) (reporting : Reporting F)
  (learner : OfflineLearner F H)

def seeds : List Int := [7, 17, 29, 43]

def simulationBudgets : List Int := [16, 32, 64]

/-- The searches of `evaluate`, seed by seed for each budget. -/
def evaluations (runtime : Runtime F) (model : PolicyValueModel F) : Except PyError (List (SearchResult F H)) := do
  let results ← simulationBudgets.mapM fun budget => do
    ensure (1 ≤ budget && budget ≤ 100000) (.valueError "evaluation simulation budget outside safe bounds")
    seeds.mapM fun seed => do
      let search ← PUCTSearch.init runtime hashing learner.scenario learner.benchmark model 1.5 seed 0.0
      search.run runtime hashing budget
  return results.flatten

def evaluate (runtime : Runtime F) (model : PolicyValueModel F) : Except PyError (EvaluationSummary F) := do
  let results ← learner.evaluations hashing runtime model
  match results.map fun result => result.score.reward with
  | [] => .error (.valueError "evaluation set must not be empty")
  | first :: rest =>
      return {
        meanReward := reporting.mean (first :: rest)
        minimumReward := rest.foldl pyMin first
        hardGateFailures := results.countP fun result => !result.score.feasible
        abstentions := results.countP fun result => result.abstained
        meanBenchmarkEvaluations := reporting.mean (results.map fun result => (result.benchmarkEvaluations : F))
        cases := results.length }

/-- The reasons against a promotion. -/
def objections (policy : PromotionPolicy F) (champion challenger : EvaluationSummary F) (delta : F) : List String :=
  (if delta < policy.minimumMeanRewardDelta then
    ["mean reward delta " ++ reporting.fixed6 delta ++ " below " ++ reporting.fixed6 policy.minimumMeanRewardDelta]
    else []) ++
  (if policy.requireNoNewHardFailures && champion.hardGateFailures < challenger.hardGateFailures then
    ["challenger introduces hard-gate failures"] else []) ++
  (if policy.requireNoMoreAbstentions && champion.abstentions < challenger.abstentions then
    ["challenger increases abstention count"] else []) ++
  let allowed := pyMax 1 (champion.meanBenchmarkEvaluations * policy.maximumEvaluationRatio)
  if allowed < challenger.meanBenchmarkEvaluations then ["challenger exceeds benchmark-evaluation cost ratio"] else []

/-- The identity of a challenger in its report. -/
def reportedArtifact (model : PolicyValueModel F) : Except PyError String := do
  let payload ← model.toPayload runtime hashing learner.family
  return "sha256:" ++ reporting.sha256 (Json.dumps (payload.json numerals hashing))

def promotionReport (champion challenger : PolicyValueModel F) (policy : PromotionPolicy F) :
    Except PyError (PromotionReport F) := do
  let championSummary ← learner.evaluate hashing reporting runtime champion
  let challengerSummary ← learner.evaluate hashing reporting runtime challenger
  let delta := challengerSummary.meanReward - championSummary.meanReward
  let reasons := objections reporting policy championSummary challengerSummary delta
  let artifactId ← learner.reportedArtifact numerals hashing reporting challenger
  return {
    accepted := reasons.isEmpty
    reasons
    champion := championSummary
    challenger := challengerSummary
    rewardDelta := delta
    artifactId }

end OfflineLearner

namespace PolicyValueModel

section Names

variable {runtime : Runtime F} {numerals : Numerals runtime} {hashing : Hashing F H}

/-- Every tag and every actor of a model is plain. -/
structure PlainNames (model : PolicyValueModel F) : Prop where
  policyTags : ∀ tag ∈ model.policyWeights.keys, Json.Plain tag
  valueTags : ∀ tag ∈ model.valueWeights.keys, Json.Plain tag
  actors : ∀ actor ∈ model.agentRecords.keys, Json.Plain actor

theorem plain_obj {members : List (String × Value F H)} :
    ((Value.obj members).json numerals hashing).PlainTexts ↔
      ∀ member ∈ members, Json.Plain member.1 ∧ (member.2.json numerals hashing).PlainTexts := by
  simp only [Value.json, Json.PlainTexts, Value.jsonMembers_eq, Json.plainMembers_iff, List.forall_mem_map]

theorem plain_sorted {weights : Dict String F} :
    ((Value.sorted weights : Value F H).json numerals hashing).PlainTexts ↔ ∀ tag ∈ weights.keys, Json.Plain tag := by
  rw [Value.sorted, plain_obj]
  simp only [List.forall_mem_map, Value.json, Json.PlainTexts, and_true, Dict.keys, List.mem_insertionSort]

theorem modelVersion_plain (short : ∀ hash, Json.Plain (hashing.short hash)) (model : PolicyValueModel F) :
    Json.Plain (model.modelVersion hashing) := by
  have number : Json.Plain (toString model.generation) := Json.plain_of_utf8 (Json.int_below model.generation)
  exact Json.plain_append.mpr ⟨Json.plain_append.mpr ⟨Json.plain_append.mpr ⟨by decide, number⟩, by decide⟩, short _⟩

end Names

section Payloads

variable [Zero F] [One F] [Add F] [Sub F] [Mul F] [Div F] [Neg F] [LT F] [LE F] [DecidableLT F] [DecidableLE F]
  [DecidableEq F] [OfScientific F] {runtime : Runtime F} {numerals : Numerals runtime} {hashing : Hashing F H}
  {model : PolicyValueModel F}

theorem snapshot_plain (short : ∀ hash, Json.Plain (hashing.short hash)) {summary : Value F H}
    (taken : model.snapshot runtime hashing = .ok summary) (names : model.PlainNames) :
    (summary.json numerals hashing).PlainTexts := by
  obtain ⟨agents, looped, described⟩ := bind_eq_ok.mp taken
  obtain rfl := pure_eq_ok.mp described
  refine plain_obj.mpr ?_
  simp only [List.forall_mem_cons]
  refine ⟨⟨by decide, modelVersion_plain short model⟩, ⟨by decide, plain_sorted.mpr names.policyTags⟩,
    ⟨by decide, plain_sorted.mpr names.valueTags⟩, ⟨by decide, trivial⟩, ⟨by decide, trivial⟩,
    ⟨by decide, plain_obj.mpr fun agent member => ?_⟩, by simp⟩
  obtain ⟨entry, inside, acted⟩ := mapM_mem looped member
  obtain ⟨_, summarised, same⟩ := bind_eq_ok.mp acted
  obtain rfl := pure_eq_ok.mp same
  simp only [agentSummary, bind_eq_ok, pure_eq_ok] at summarised
  obtain ⟨_, _, _, _, rfl⟩ := summarised
  refine ⟨names.actors _ (List.mem_map_of_mem (Dict.mem_sorted.mp inside)), plain_obj.mpr ?_⟩
  simp only [List.forall_mem_cons]
  refine ⟨⟨by decide, trivial⟩, ⟨by decide, trivial⟩, ⟨by decide, trivial⟩, ⟨by decide, ?_⟩, by simp⟩
  show Json.Plain (if entry.2.benched = true then "BENCHED" else "ACTIVE")
  split <;> decide

theorem payload_plain (short : ∀ hash, Json.Plain (hashing.short hash)) {family : String} {summary : Value F H}
    (taken : model.snapshot runtime hashing = .ok summary) :
    ((model.payload hashing family summary).json numerals hashing).PlainTexts ↔
      Json.Plain family ∧ model.PlainNames := by
  constructor
  · intro plain
    have each := plain_obj.mp plain
    have records := plain_obj.mp (each ("agent_records", .obj (model.sortedRecords.map fun entry =>
      (entry.1, recordPayload entry.2))) (by simp [recordPayload])).2
    refine ⟨(each ("family", .str family) (by simp)).2,
      plain_sorted.mp (each ("policy_weights", .sorted model.policyWeights) (by simp)).2,
      plain_sorted.mp (each ("value_weights", .sorted model.valueWeights) (by simp)).2, fun actor member => ?_⟩
    obtain ⟨entry, inside, rfl⟩ := List.mem_map.mp member
    exact (records _ (List.mem_map_of_mem (Dict.mem_sorted.mpr inside))).1
  · rintro ⟨plain, names⟩
    refine plain_obj.mpr ?_
    simp only [List.forall_mem_cons]
    refine ⟨⟨by decide, ?_⟩, ⟨by decide, ?_⟩, ⟨by decide, plain⟩, ⟨by decide, modelVersion_plain short model⟩,
      ⟨by decide, trivial⟩, ⟨by decide, plain_sorted.mpr names.policyTags⟩, ⟨by decide, plain_sorted.mpr names.valueTags⟩,
      ⟨by decide, trivial⟩, ⟨by decide, trivial⟩, ⟨by decide, plain_obj.mpr fun entry member => ?_⟩,
      ⟨by decide, plain_obj.mpr ?_⟩, ⟨by decide, snapshot_plain short taken names⟩, by simp⟩
    · show Json.Plain schemaVersion
      decide
    · show Json.Plain artifactKind
      decide
    · obtain ⟨record, inside, rfl⟩ := List.mem_map.mp member
      refine ⟨names.actors _ (List.mem_map_of_mem (Dict.mem_sorted.mp inside)), plain_obj.mpr ?_⟩
      simp only [List.forall_mem_cons]
      exact ⟨⟨by decide, trivial⟩, ⟨by decide, trivial⟩, ⟨by decide, trivial⟩, by simp⟩
    · simp only [List.forall_mem_cons]
      exact ⟨⟨by decide, trivial⟩, ⟨by decide, trivial⟩, ⟨by decide, trivial⟩, ⟨by decide, trivial⟩, by simp⟩

/-- The identity of a model in the registry, and the digest that its row holds (`_persist_artifact`). -/
def storedArtifact (numerals : Numerals runtime) (hashing : Hashing F H) (sha256 : Bytes → String)
    (model : PolicyValueModel F) (family : String) : Except PyError (String × String) := do
  let contentHash := sha256 (← model.artifactBytes numerals hashing family)
  return ("policy-" ++ contentHash, contentHash)

/-- The digest of the control plane is that of the bytes of the artifact. -/
theorem encodeArtifact_stored {plane : ControlPlane (PolicyValueModel F)} {tenantId family : String}
    {payload : Value F H} {path : ArtifactPath} {encoded : Bytes} {digest : String}
    (described : model.toPayload runtime hashing family = .ok payload)
    (wired : plane.modelToPayload model family = payload.json numerals hashing)
    (coded : plane.encodeArtifact tenantId family model = .ok (path, encoded, digest)) :
    model.artifactBytes numerals hashing family = .ok encoded ∧
      model.storedArtifact numerals hashing plane.store.sha256 family = .ok ("policy-" ++ digest, digest) := by
  simp only [ControlPlane.encodeArtifact, wired, bind_eq_ok, pure_eq_ok, Prod.mk.injEq] at coded
  obtain ⟨text, written, _, _, _, rfl, rfl⟩ := coded
  have made : model.artifactBytes numerals hashing family = .ok (canonicalBytes text) := by
    refine bind_eq_ok.mpr ⟨payload, described, bind_eq_ok.mpr ⟨text, written, ?_⟩⟩
    unfold jsonText at written
    split at written
    next =>
      rw [canonicalBytes, ← Except.ok.inj written, Json.canonical_canonical]
      rfl
    next => simp at written
  exact ⟨made, bind_eq_ok.mpr ⟨_, made, rfl⟩⟩

end Payloads

end PolicyValueModel

namespace OfflineLearner

variable [Zero F] [One F] [Add F] [Sub F] [Mul F] [Div F] [Neg F] [LT F] [LE F] [DecidableLT F] [DecidableLE F]
  [DecidableEq F] [OfScientific F] [NatCast F] [IntCast F] [DecidableEq H]

variable {runtime : Runtime F} {numerals : Numerals runtime} {hashing : Hashing F H} {reporting : Reporting F}
  {learner : OfflineLearner F H} {challenger : PolicyValueModel F}

/-- A report holds the identity of the challenger. -/
theorem promotionReport_identity {champion : PolicyValueModel F} {policy : PromotionPolicy F} {report : PromotionReport F}
    (reported : learner.promotionReport numerals hashing reporting champion challenger policy = .ok report) :
    learner.reportedArtifact numerals hashing reporting challenger = .ok report.artifactId := by
  simp only [promotionReport, bind_eq_ok, pure_eq_ok] at reported
  obtain ⟨_, _, _, _, _, identity, rfl⟩ := reported
  exact identity

/-- The two digests are of the same bytes if and only if every text of the payload is plain. -/
theorem reportedArtifact_names {identity artifactId contentSha256 : String}
    (injective : Function.Injective reporting.sha256) (short : ∀ hash, Json.Plain (hashing.short hash))
    (reported : learner.reportedArtifact numerals hashing reporting challenger = .ok identity)
    (stored : challenger.storedArtifact numerals hashing reporting.sha256 learner.family =
      .ok (artifactId, contentSha256)) :
    identity = "sha256:" ++ contentSha256 ↔ Json.Plain learner.family ∧ challenger.PlainNames := by
  obtain ⟨encoded, made, same⟩ := bind_eq_ok.mp stored
  obtain ⟨rfl, rfl⟩ := Prod.mk.inj (pure_eq_ok.mp same)
  obtain ⟨summary, taken, valid, rfl⟩ := PolicyValueModel.artifactBytes_eq_ok.mp made
  simp only [reportedArtifact, PolicyValueModel.toPayload, bind_eq_ok, pure_eq_ok] at reported
  obtain ⟨_, ⟨again, retaken, rfl⟩, rfl⟩ := reported
  obtain rfl := Except.ok.inj (retaken.symm.trans taken)
  have accepted : Json.Accepted numerals.floats
      ((challenger.payload hashing learner.family again).json numerals hashing) :=
    ⟨PolicyValueModel.payload_genuine taken learner.family, valid⟩
  have plain : ((challenger.payload hashing learner.family again).json numerals hashing).PlainTexts ↔
      Json.Plain learner.family ∧ challenger.PlainNames := PolicyValueModel.payload_plain short taken
  rw [← plain, ← Json.dumps_canonicalBytes accepted]
  simp [injective.eq_iff]

theorem storedArtifact_policy {artifactId contentSha256 : String}
    (stored : challenger.storedArtifact numerals hashing reporting.sha256 learner.family =
      .ok (artifactId, contentSha256)) : artifactId = "policy-" ++ contentSha256 := by
  obtain ⟨_, _, same⟩ := bind_eq_ok.mp stored
  obtain ⟨rfl, rfl⟩ := Prod.mk.inj (pure_eq_ok.mp same)
  rfl

/-- A report names the artifact that is stored if and only if every text of its payload is plain. -/
theorem promotionReport_names (runtime : Runtime F) (numerals : Numerals runtime) (hashing : Hashing F H)
    (reporting : Reporting F) (learner : OfflineLearner F H) (champion challenger : PolicyValueModel F)
    (policy : PromotionPolicy F) (report : PromotionReport F) (artifactId contentSha256 : String)
    (injective : Function.Injective reporting.sha256) (short : ∀ hash, Json.Plain (hashing.short hash))
    (reported : learner.promotionReport numerals hashing reporting champion challenger policy = .ok report)
    (stored : challenger.storedArtifact numerals hashing reporting.sha256 learner.family =
      .ok (artifactId, contentSha256)) :
    (report.artifactId = "sha256:" ++ contentSha256 ∧ artifactId = "policy-" ++ contentSha256) ↔
      Json.Plain learner.family ∧ challenger.PlainNames := by
  have names := reportedArtifact_names injective short (promotionReport_identity reported) stored
  constructor
  · rintro ⟨same, _⟩
    exact names.mp same
  · intro plain
    exact ⟨names.mpr plain, storedArtifact_policy stored⟩

end OfflineLearner

namespace PromotionSample

open Binary64

/-- The functions of doubles at the numbers that the searches and the snapshot below ask for. -/
def runtime : Runtime Double :=
  { ArtifactSample.runtime with
    log := DoubleSample.runtime.log
    exp := DoubleSample.runtime.exp
    tanh := DoubleSample.runtime.tanh }

noncomputable def numerals : Numerals runtime :=
  { ArtifactSample.numerals with }

/-- A digest that spells every byte as a character. -/
def reporting : Reporting Double where
  mean values := values.sum / values.length
  fixed6 _ := ""
  sha256 bytes := String.ofList (bytes.map Char.ofUInt8)

theorem sha256_injective : Function.Injective reporting.sha256 := by
  intro first second same
  have bytes : Function.Injective Char.ofUInt8 := by
    intro byte other same
    have values : byte.toUInt32.toNat = other.toUInt32.toNat := congrArg (fun c => c.val.toNat) same
    exact UInt8.toNat_inj.mp (by simpa using values)
  exact List.map_injective_iff.mpr bytes (String.ofList_injective same)

def learner : OfflineLearner Double (List (Token Double)) where
  family := "family"
  scenario := DoubleSample.scenario
  benchmark := DoubleSample.suite 1 1

def champion : PolicyValueModel Double := ArtifactSample.model 1.5 1.5

/-- The champion with another tag. -/
def challenger (tag : String) : PolicyValueModel Double :=
  { champion with policyWeights := Dict.ofList [(tag, 0.5)] }

def policy : PromotionPolicy Double where
  minimumMeanRewardDelta := 0
  maximumEvaluationRatio := (2 : Nat)
  requireNoNewHardFailures := true
  requireNoMoreAbstentions := true

theorem runtime_floating : runtime.Floating :=
  { ArtifactSample.runtime_floating with }

/-- The artifact of a challenger is stored. -/
theorem challenger_stored {tag : String} (built : (challenger tag).postInit runtime = .ok ()) : ∃ artifactId contentSha256,
    (challenger tag).storedArtifact numerals DoubleSample.digests reporting.sha256 learner.family =
      .ok (artifactId, contentSha256) := by
  have moderate : ∀ entry ∈ (challenger tag).agentRecords.rows, entry.2.Moderate runtime := by
    intro entry member
    obtain rfl : entry = ("agent", ⟨1.5, 1.5, true⟩) := by
      have rows : (Dict.ofList [("agent", (⟨1.5, 1.5, true⟩ : AgentRecord Double))]).rows =
          [("agent", ⟨1.5, 1.5, true⟩)] := Dict.rows_ofList (by simp)
      exact List.mem_singleton.mp (rows ▸ member)
    exact ⟨by decide +kernel, by decide +kernel⟩
  obtain ⟨encoded, made⟩ := (PolicyValueModel.artifactBytes_made numerals DoubleSample.digests runtime_floating built
    learner.family).mpr moderate
  exact ⟨_, _, bind_eq_ok.mpr ⟨encoded, made, rfl⟩⟩

theorem short_plain (hash : List (Token Double)) : Json.Plain (DoubleSample.digests.short hash) := by
  show Json.Plain "000000000000"
  decide

/-- A promotion of a challenger is reported. -/
theorem challenger_reported {tag : String} (built : (challenger tag).postInit runtime = .ok ())
    (evaluated : (learner.evaluate DoubleSample.digests reporting runtime (challenger tag)).toOption.isSome = true) :
    ∃ report, learner.promotionReport numerals DoubleSample.digests reporting champion (challenger tag) policy =
      .ok report := by
  have returned : (learner.evaluate DoubleSample.digests reporting runtime champion).toOption.isSome = true := by
    decide +kernel
  obtain ⟨_, _, stored⟩ := challenger_stored built
  obtain ⟨_, made, _⟩ := bind_eq_ok.mp stored
  obtain ⟨payload, described, _⟩ := bind_eq_ok.mp made
  cases first : learner.evaluate DoubleSample.digests reporting runtime champion with
  | error error => simp [first, Except.toOption] at returned
  | ok before =>
      cases second : learner.evaluate DoubleSample.digests reporting runtime (challenger tag) with
      | error error => simp [second, Except.toOption] at evaluated
      | ok after =>
          simp only [OfflineLearner.promotionReport, OfflineLearner.reportedArtifact, first, second, described]
          exact ⟨_, rfl⟩

end PromotionSample

open PromotionSample in
theorem OfflineLearner.promotionReport_names_sample : ∃ report artifactId contentSha256,
    learner.promotionReport numerals DoubleSample.digests reporting champion (challenger "tag") policy = .ok report ∧
    (challenger "tag").storedArtifact numerals DoubleSample.digests reporting.sha256 learner.family =
      .ok (artifactId, contentSha256) ∧
    report.artifactId = "sha256:" ++ contentSha256 ∧ artifactId = "policy-" ++ contentSha256 := by
  have built : (challenger "tag").postInit runtime = .ok () := by decide +kernel
  obtain ⟨report, reported⟩ := challenger_reported built (by decide +kernel)
  obtain ⟨artifactId, contentSha256, stored⟩ := challenger_stored built
  refine ⟨report, artifactId, contentSha256, reported, stored, ?_⟩
  refine (promotionReport_names runtime numerals DoubleSample.digests reporting learner champion (challenger "tag") policy
    report artifactId contentSha256 sha256_injective short_plain reported stored).mpr ⟨by decide, ?_⟩
  exact ⟨by decide +kernel, by decide +kernel, by decide +kernel⟩

open PromotionSample in
/-- The report escapes the tag, and the registry stores it as it is. -/
theorem OfflineLearner.promotionReport_misnames : (challenger "é").postInit runtime = .ok () ∧
    ∃ report artifactId contentSha256,
      learner.promotionReport numerals DoubleSample.digests reporting champion (challenger "é") policy = .ok report ∧
      (challenger "é").storedArtifact numerals DoubleSample.digests reporting.sha256 learner.family =
        .ok (artifactId, contentSha256) ∧
      report.artifactId ≠ "sha256:" ++ contentSha256 := by
  have built : (challenger "é").postInit runtime = .ok () := by decide +kernel
  obtain ⟨report, reported⟩ := challenger_reported built (by decide +kernel)
  obtain ⟨artifactId, contentSha256, stored⟩ := challenger_stored built
  refine ⟨built, report, artifactId, contentSha256, reported, stored, fun same => ?_⟩
  have plain := ((reportedArtifact_names sha256_injective short_plain (promotionReport_identity reported) stored).mp same).2
  exact absurd (plain.policyTags "é" (by decide +kernel)) (by decide +kernel)

end AgentTree.Engine
