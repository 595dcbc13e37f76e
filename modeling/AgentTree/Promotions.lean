import AgentTree.CommitRuns
import Mathlib.Data.List.Dedup

/-!
Promotions.  The producers, the champion, its model and the suite are read one after
the other, and only the artifact of the champion is compared when the promotion
commits.  What was read stays true of the rows, which are only ever added.
-/

namespace AgentTree

open Outcome Relational Concurrent ControlPlane

/-- The member at the end of a path of names. -/
def Json.path? (value : Json) (names : List String) : Option Json :=
  names.foldlM (fun value name => value.get? name) value

namespace EvidenceRow

/-- The artifact that a hidden benchmark receipt is bound to. -/
def benchmarked (row : EvidenceRow) : Option Json := row.envelope.path? ["payload", "policy_artifact_id"]

def suite (row : EvidenceRow) : Option Json :=
  row.envelope.path? ["payload", "aggregate", "payload", "benchmark", "suite_sha256"]

def score (row : EvidenceRow) : Option Json :=
  row.envelope.path? ["payload", "aggregate", "payload", "result", "normalized_score_ppm"]

end EvidenceRow

section Facts

variable {Model : Type} (plane : ControlPlane Model)

/-- The model in the file of an artifact, which has the registered digest. -/
def ControlPlane.ModelOf (db : Db) (tenantId artifactId : String) (model : Model) : Prop :=
  ∃ row encoded payload, db.artifacts.find? (tenantId, artifactId) = some row ∧
    plane.store.sha256 encoded = row.contentSha256 ∧ plane.jsonLoads encoded = some payload ∧
    plane.modelFromPayload payload = .ok model

/-- A validated receipt: bound to the artifact, for the suite that was read, with the score. -/
def ControlPlane.Benchmarked (db : Db) (tenantId artifactId : String) (result : HiddenResult)
    (suite : Bytes) : Prop :=
  ∃ row, db.evidence.find? (tenantId, result.receiptId) = some row ∧
    row.benchmarked = some (.str artifactId) ∧ row.suite = some (.str (plane.store.sha256 suite)) ∧
    row.score = some (.int result.normalizedScorePpm)

/-- A training run of an artifact by one subject. -/
def Db.Produced (db : Db) (tenantId artifactId subjectId : String) : Prop :=
  ∃ run ∈ db.trainingRuns.rows, run.tenantId = tenantId ∧ run.artifactId = artifactId ∧
    run.trainedBy = subjectId

variable {plane} {before after : Db} {tenantId artifactId : String}

theorem Retains.modelOf (retains : Retains before after) {model : Model}
    (holds : plane.ModelOf before tenantId artifactId model) :
    plane.ModelOf after tenantId artifactId model := by
  obtain ⟨row, encoded, payload, found, rest⟩ := holds
  obtain ⟨_, there, rfl⟩ := retains.artifacts _ row found
  exact ⟨row, encoded, payload, there, rest⟩

theorem Retains.benchmarked (retains : Retains before after) {result : HiddenResult} {suite : Bytes}
    (holds : plane.Benchmarked before tenantId artifactId result suite) :
    plane.Benchmarked after tenantId artifactId result suite := by
  obtain ⟨row, found, rest⟩ := holds
  obtain ⟨_, there, rfl⟩ := retains.evidence _ row found
  exact ⟨row, there, rest⟩

theorem Retains.produced (retains : Retains before after) {subjectId : String}
    (holds : before.Produced tenantId artifactId subjectId) :
    after.Produced tenantId artifactId subjectId := by
  obtain ⟨run, member, rest⟩ := holds
  obtain ⟨_, there, rfl⟩ := retains.trainingRuns run.key run (Table.find?_eq_some.mpr ⟨member, rfl⟩)
  exact ⟨run, (Table.find?_eq_some.mp there).1, rest⟩

theorem mem_trainingProducers {db : Db} {subjectId : String} :
    subjectId ∈ trainingProducers tenantId artifactId db ↔ db.Produced tenantId artifactId subjectId := by
  simp only [trainingProducers, Db.Produced, List.mem_dedup, List.mem_map, List.mem_filter,
    Bool.and_eq_true, decide_eq_true_eq]
  exact ⟨fun ⟨run, ⟨member, tenant, artifact⟩, same⟩ => ⟨run, member, tenant, artifact, same⟩,
    fun ⟨run, member, tenant, artifact, same⟩ => ⟨run, ⟨member, tenant, artifact⟩, same⟩⟩

end Facts

/-! What the reads of a promotion find out. -/

section Reads

variable {Model : Type} {plane : ControlPlane Model} {good : Commit → Prop} {call : Call} {s : World}

/-- What the separation of duties has read. -/
def ControlPlane.Separate (plane : ControlPlane Model) (db : Db) (tenantId artifactId subjectId : String)
    (producers : List String) : Prop :=
  plane.settings.requireSeparationOfDuties = true → producers ≠ [] ∧ subjectId ∉ producers ∧
    ∀ producer ∈ producers, db.Produced tenantId artifactId producer

theorem Retains.separate {before after : Db} (retains : Retains before after)
    {tenantId artifactId subjectId : String} {producers : List String}
    (holds : plane.Separate before tenantId artifactId subjectId producers) :
    plane.Separate after tenantId artifactId subjectId producers := by
  intro required
  obtain ⟨present, other, all⟩ := holds required
  exact ⟨present, other, fun producer member => retains.produced (all producer member)⟩

theorem separateDuties_yields (inv : CommitInv good s) (principal : Principal) (challengerId : String) :
    Yields good (plane.separateDuties principal challengerId) (fun producers t =>
      plane.Separate t.db principal.tenantId challengerId principal.subjectId producers) s := by
  unfold separateDuties
  split
  next =>
    refine yields_read inv fun producers t u _ found invU later => ?_
    obtain rfl := Except.ok.inj found
    refine yields_require fun present => yields_require fun other => ?_
    refine yields_pure fun v since _ => ⟨?_, ?_, fun producer member => ?_⟩
    · simpa using present
    · simpa using other
    · exact (later.trans since).produced (mem_trainingProducers.mp member)
  next off => exact yields_pure fun _ _ required => absurd required off

theorem loadArtifact_yields (inv : CommitInv good s) (tenantId artifactId : String) :
    Yields good (plane.loadArtifact tenantId artifactId) (fun payload t => ∀ model,
      plane.modelFromPayload payload = .ok model → plane.ModelOf t.db tenantId artifactId model) s := by
  refine yields_read inv fun row t u _ found invU later => ?_
  refine yields_ofExcept fun path _ => ?_
  refine yields_read invU fun encoded v w since read invW last => ?_
  refine Prog.wp_done fun x _ later' value loaded model decoded => ?_
  simp only [getPolicyArtifact, orRaise_eq_ok] at found
  simp only [readVerifiedPolicy, bind_eq_ok, ensure_eq_ok, decide_eq_true_eq, pure_eq_ok] at read
  obtain ⟨_, _, _, _, _, _, _, digest, rfl⟩ := read
  simp only [bind_eq_ok, orRaise_eq_ok] at loaded
  obtain ⟨payload, parsed, result⟩ := loaded
  obtain rfl : payload = value := by
    split at result
    · simpa [pure_eq_ok] using result
    · simp at result
  have retains := ((later.trans since).trans last).trans later'
  obtain ⟨_, there, rfl⟩ := retains.artifacts _ row found
  exact ⟨row, _, payload, there, digest, parsed, decoded⟩

theorem championModel_yields (inv : CommitInv good s) (tenantId family : String) :
    Yields good (plane.championModel tenantId family) (fun (compared, model) t =>
      ∀ artifactId, compared = some artifactId → plane.ModelOf t.db tenantId artifactId model) s := by
  unfold championModel storeRead
  refine yields_read inv fun champion t u _ found invU _ => ?_
  cases champion with
  | none => exact yields_pure fun _ _ => by simp
  | some champion =>
      refine yields_bind (loadArtifact_yields invU tenantId champion.row.artifactId) invU
        fun payload v _ _ loaded => ?_
      refine yields_ofExcept fun model decoded => ?_
      refine yields_pure fun w since artifactId same => ?_
      obtain rfl := Option.some.inj same
      exact since.modelOf (loaded model decoded)

theorem path_cons {value child : Json} {name : String} {names : List String}
    (member : value.get? name = some child) : value.path? (name :: names) = child.path? names := by
  simp [Json.path?, List.foldlM, member]

theorem validatePromotionBenchmark_yields (call : Call) (inv : CommitInv good s)
    (tenantId artifactId receiptId : String) (enforce : Bool) :
    Yields good (plane.validatePromotionBenchmark tenantId artifactId receiptId enforce)
      (fun (result, suite) t => plane.Benchmarked t.db tenantId artifactId result suite ∧
        (enforce = true → plane.settings.minimumHiddenBenchmarkScorePpm ≤ result.normalizedScorePpm))
      s := by
  unfold validatePromotionBenchmark storeRead opaqueSuiteDigest
  refine yields_ofExcept fun workerTenantId _ => ?_
  refine yields_read inv fun record t u _ found invU since => ?_
  refine yields_require fun _ => ?_
  refine yields_ofExcept fun issuedAt _ => ?_
  refine yields_read invU fun _ _ v before _ invV later => ?_
  replace since := (since.trans before).trans later
  refine yields_require fun bound => ?_
  refine yields_read invV fun artifact _ w before _ invW later => ?_
  replace since := (since.trans before).trans later
  refine yields_require fun _ => ?_
  refine yields_ofExcept fun aggregate isAggregate => ?_
  refine yields_only call (Prog.Only.tryCatch (only_readWorld _) fun error =>
    Prog.Only.bind (Prog.only_require _ _) fun _ => only_throw _) invW fun authenticated x later invX => ?_
  replace since := since.trans later
  refine yields_ofExcept fun aggregatePayload isPayload => ?_
  refine yields_require fun _ => ?_
  refine yields_ofExcept fun ⟨benchmark, candidate, result⟩ members => ?_
  refine yields_read invX fun ⟨suite, suiteDigest⟩ _ y before digest invY later => ?_
  replace since := (since.trans before).trans later
  obtain ⟨rfl, rfl⟩ := Prod.mk.inj (Except.ok.inj digest)
  refine yields_require fun targeted => ?_
  refine yields_ofExcept fun path _ => ?_
  refine yields_read invY fun _ _ z before _ invZ later => ?_
  replace since := (since.trans before).trans later
  refine yields_read invZ fun fingerprint _ r before _ invR later => ?_
  replace since := (since.trans before).trans later
  refine yields_require fun _ => ?_
  refine yields_ofExcept fun total _ => ?_
  refine yields_ofExcept fun score scored => ?_
  refine yields_require fun passes => ?_
  refine yields_pure fun q later => ⟨?_, fun enforced => by simpa [enforced] using passes⟩
  replace since := since.trans later
  simp only [getEvidenceReceipt, bind_eq_ok, orRaise_eq_ok] at found
  obtain ⟨_, _, found⟩ := found
  obtain ⟨_, there, rfl⟩ := since.evidence _ record found
  -- The members that the checks have looked at, as paths from the envelope.
  cases envelope : record.envelope.get? "payload" with
  | none =>
      rw [envelope] at bound
      simp [Json.get?] at bound
  | some payload =>
      simp only [envelope, Option.getD_some, decide_eq_true_eq] at bound isAggregate
      have isAggregate : payload.get? "aggregate" = some aggregate := by
        split at isAggregate
        next members same => rw [same, Except.ok.inj isAggregate]
        next => simp at isAggregate
      have isPayload : aggregate.get? "payload" = some aggregatePayload := by
        split at isPayload
        next members same => rw [same, Except.ok.inj isPayload]
        next => simp at isPayload
      have members : aggregatePayload.get? "benchmark" = some benchmark ∧
          aggregatePayload.get? "result" = some result := by
        split at members
        next first _ third isBenchmark _ isResult =>
          obtain ⟨rfl, rest⟩ := Prod.mk.inj (Except.ok.inj members)
          obtain ⟨_, rfl⟩ := Prod.mk.inj rest
          exact ⟨isBenchmark, isResult⟩
        next => simp at members
      have scored : result.get? "normalized_score_ppm" = some (.int score) := by
        split at scored
        next value same => rw [same, Except.ok.inj scored]
        next => simp at scored
      refine ⟨record, there, ?_, ?_, ?_⟩
      · rw [EvidenceRow.benchmarked, path_cons envelope, path_cons bound]
        rfl
      · rw [EvidenceRow.suite, path_cons envelope, path_cons isAggregate, path_cons isPayload,
          path_cons members.1, path_cons (of_decide_eq_true targeted)]
        rfl
      · rw [EvidenceRow.score, path_cons envelope, path_cons isAggregate, path_cons isPayload,
          path_cons members.2, path_cons scored]
        rfl

theorem validateChampion_yields (call : Call) (inv : CommitInv good s) (principal : Principal) (request : Json)
    (champion : Option Champion) (hidden : HiddenResult) :
    Yields good (plane.validateChampion principal request champion hidden) (fun validated t =>
      ∀ replaced, champion = some replaced → ∃ result suite, validated = some (result, suite) ∧
        plane.Benchmarked t.db principal.tenantId replaced.row.artifactId result suite ∧
        result.normalizedScorePpm ≤ hidden.normalizedScorePpm) s := by
  cases champion with
  | none => exact yields_pure fun _ _ => by simp
  | some champion =>
      refine yields_ofExcept fun receiptId _ => ?_
      refine yields_bind (validatePromotionBenchmark_yields call inv _ _ _ _) inv
        fun ⟨result, suite⟩ t _ _ holds => ?_
      refine yields_require fun paired => yields_pure fun u since replaced same => ?_
      obtain rfl := Option.some.inj same
      exact ⟨result, suite, rfl, since.benchmarked holds.1, of_decide_eq_true paired⟩

end Reads

/-! What a promotion keeps. -/

section Promote

variable {Model : Type} (plane : ControlPlane Model)

/-- What is known of a promotion from its reads and from the comparison at its commit. -/
structure PromoteCommit.Checked (c : PromoteCommit) : Prop where
  separate : plane.Separate c.before c.tenantId c.challengerId c.subjectId c.producers
  expected : c.expected =
    (c.before.champions.find? (c.tenantId, c.family)).map ChampionRow.artifactId
  report : ∃ championModel challenger,
    plane.ModelOf c.before c.tenantId c.challengerId challenger ∧
    plane.promotionReport championModel challenger = .ok c.report ∧
    ∀ artifactId, c.compared = some artifactId →
      plane.ModelOf c.before c.tenantId artifactId championModel
  hidden : plane.Benchmarked c.before c.tenantId c.challengerId c.hidden.1 c.hidden.2 ∧
    plane.settings.minimumHiddenBenchmarkScorePpm ≤ c.hidden.1.normalizedScorePpm
  paired : ∀ artifactId, c.expected = some artifactId → ∃ result suite,
    c.championHidden = some (result, suite) ∧
    plane.Benchmarked c.before c.tenantId artifactId result suite ∧
    result.normalizedScorePpm ≤ c.hidden.1.normalizedScorePpm

def Commit.checked : Commit → Prop
  | .promoted c => c.Checked plane
  | _ => True

variable {plane}

theorem promoteTransaction_commits {draws : Draws} {principal : Principal}
    {challengerId family reason benchmarkReceiptId : String} {producers : List String}
    {expected compared : Option String} {report : PromotionReport} {hidden : HiddenResult × Bytes}
    {championHidden : Option (HiddenResult × Bytes)} {now : Int} {db later : Db} {response : Json}
    {commit : Commit}
    (ran : plane.promoteTransaction draws principal challengerId family reason benchmarkReceiptId
      producers expected compared report hidden championHidden now db = .ok (response, commit, later)) :
    expected = (db.champions.find? (principal.tenantId, family)).map ChampionRow.artifactId ∧
    commit = .promoted {
      before := db
      family, challengerId, producers, expected, compared, report, hidden, championHidden
      tenantId := principal.tenantId
      subjectId := principal.subjectId } := by
  simp only [promoteTransaction, bind_eq_ok, pure_eq_ok, Prod.exists, Prod.mk.injEq] at ran
  obtain ⟨_, middle, reported, _, _, promoted, _, _, _, _, rfl, _⟩ := ran
  obtain ⟨_, matched, _⟩ := promotePolicy_cases promoted
  simp only [recordPromotionReport, bind_eq_ok, pure_eq_ok, Prod.exists, Prod.mk.injEq] at reported
  obtain ⟨_, _, _, _, stored, written, recorded, _, rfl⟩ := reported
  obtain ⟨nonces, evidence, _, rfl, _⟩ := recordEvidenceReceipt_cases recorded
  exact ⟨matched, rfl⟩

theorem promoteOperation_keeps {index : Nat} {call : Call} {s : World} (named : call.scope = "promote")
    (inv : CommitInv (Commit.checked plane) s) (request : Json) (challengerId : String) :
    Keeps (Commit.checked plane)
      (plane.promoteOperation index call.key call.draws call.principal request challengerId) s := by
  refine yields_ofExcept fun family _ => ?_
  refine yields_ofExcept fun reason _ => ?_
  refine yields_read inv fun artifact _ t _ _ invT _ => ?_
  refine yields_require fun _ => ?_
  refine yields_bind (separateDuties_yields invT _ _) invT fun producers u _ invU separate => ?_
  refine yields_bind (loadArtifact_yields invU _ _) invU fun candidate v sinceU invV loaded => ?_
  refine yields_ofExcept fun challenger decoded => ?_
  refine yields_read invV fun champion w x toW read invX toX => ?_
  obtain rfl := Except.ok.inj read
  have sinceV := toW.trans toX
  refine yields_bind (championModel_yields invX _ _) invX fun ⟨compared, championModel⟩ y sinceX invY
    comparedModel => ?_
  refine yields_ofExcept fun report reported => ?_
  refine yields_require fun accepted => ?_
  refine yields_ofExcept fun benchmarkReceiptId _ => ?_
  refine yields_bind (validatePromotionBenchmark_yields call invY _ _ _ _) invY
    fun ⟨hidden, suite⟩ z sinceY invZ ⟨benchmarked, passes⟩ => ?_
  refine yields_bind (validateChampion_yields call invZ _ _ _ _) invZ
    fun championHidden q sinceZ invQ paired => ?_
  refine keeps_commit_then invQ (.promote named ..) (fun _ => Prog.Only.bind Prog.only_mayRaise
    fun _ => only_pure _) fun r response commit db sinceQ invR ran => ?_
  obtain ⟨matched, rfl⟩ := promoteTransaction_commits ran
  have fromZ := sinceZ.trans sinceQ
  have fromY := sinceY.trans fromZ
  have fromV := (sinceV.trans sinceX).trans fromY
  refine ⟨(sinceU.trans fromV).separate separate, matched, ⟨championModel, challenger, ?_, reported, ?_⟩,
    ⟨fromZ.benchmarked benchmarked, passes rfl⟩, fun artifactId same => ?_⟩
  · exact fromV.modelOf (loaded challenger decoded)
  · exact fun artifactId same => fromY.modelOf (comparedModel artifactId same)
  · obtain ⟨replaced, isChampion, rfl⟩ := Option.map_eq_some_iff.mp same
    obtain ⟨result, championSuite, validated, bound, ordered⟩ := paired replaced isChampion
    exact ⟨result, championSuite, validated, sinceQ.benchmarked bound, ordered⟩

theorem operation_checked (index : Nat) (call : Call) (s : World)
    (inv : CommitInv (Commit.checked plane) s) :
    Keeps (Commit.checked plane) (plane.operation index call) s := by
  cases request : call.request with
  | promote challengerId body =>
      simp only [operation, request]
      exact promoteOperation_keeps (by simp [Call.scope, request]) inv body challengerId
  | _ =>
      refine operation_keeps inv fun commit scope => ?_
      cases commit with
      | promoted c => simp [Commit.scope, Call.scope, request] at scope
      | _ => trivial

/-- Every promotion of every run is checked. -/
theorem promotions_checked (plane : ControlPlane Model) (calls : Nat → Call) {start : World}
    {config : Config Nat World PyError Json} {c : PromoteCommit} (chained : start.db.chained)
    (unused : start.notes = [])
    (run : (plane.service calls World.Around).Reachable (.start start) config)
    (committed : .promoted c ∈ config.state.commits) : c.Checked plane :=
  commits_good calls (Commit.checked plane) chained unused
    (fun i s => operation_checked i (calls i) s) run _ committed

end Promote

def World.promotions (w : World) : List PromoteCommit :=
  w.commits.filterMap fun commit => match commit with
    | .promoted c => some c
    | _ => none

theorem World.mem_promotions {w : World} {c : PromoteCommit} :
    c ∈ w.promotions ↔ .promoted c ∈ w.commits := by
  simp only [World.promotions, List.mem_filterMap]
  constructor
  · rintro ⟨commit, member, same⟩
    cases commit with
    | promoted other =>
        obtain rfl := Option.some.inj same
        exact member
    | _ => simp at same
  · exact fun member => ⟨_, member, rfl⟩

/-! The gates against the champion that is replaced. -/

namespace PromoteCommit

/-- The promotion replaced a champion, which was another artifact. -/
def Replaces (c : PromoteCommit) (artifactId : String) : Prop :=
  (c.before.champions.find? (c.tenantId, c.family)).map ChampionRow.artifactId = some artifactId ∧
    artifactId ≠ c.challengerId

instance (c : PromoteCommit) (artifactId : String) : Decidable (c.Replaces artifactId) :=
  inferInstanceAs (Decidable (_ ∧ _))

def ownReceipt (c : PromoteCommit) : Option EvidenceRow :=
  c.before.evidence.find? (c.tenantId, c.hidden.1.receiptId)

def championReceipt (c : PromoteCommit) : Option EvidenceRow :=
  c.championHidden.bind fun validated => c.before.evidence.find? (c.tenantId, validated.1.receiptId)

/-- The offline report and the two receipts are about the challenger and this artifact, on one
suite, and the scores are in order. -/
structure Gated {Model : Type} (plane : ControlPlane Model) (c : PromoteCommit) (artifactId : String) :
    Prop where
  report : ∃ championModel challenger,
    plane.ModelOf c.before c.tenantId artifactId championModel ∧
    plane.ModelOf c.before c.tenantId c.challengerId challenger ∧
    plane.promotionReport championModel challenger = .ok c.report
  receipts : ∃ own paired suite score championScore,
    c.ownReceipt = some own ∧ c.championReceipt = some paired ∧
    own.benchmarked = some (.str c.challengerId) ∧ paired.benchmarked = some (.str artifactId) ∧
    own.suite = some suite ∧ paired.suite = some suite ∧
    own.score = some (.int score) ∧ paired.score = some (.int championScore) ∧
    championScore ≤ score ∧ plane.settings.minimumHiddenBenchmarkScorePpm ≤ score

/-- Both reads of the champion found one artifact, and both validations read one suite file. -/
def Steady (c : PromoteCommit) : Prop :=
  c.compared = c.expected ∧ ∀ validated, c.championHidden = some validated → validated.2 = c.hidden.2

instance (c : PromoteCommit) : Decidable c.Steady :=
  decidable_of_iff (c.compared = c.expected ∧ c.championHidden.all (·.2 = c.hidden.2) = true) <| by
    simp [Steady, Option.all_eq_true]

end PromoteCommit

/-- In every run, a promotion whose reads of the champion and of the suite agree holds its
gates against the champion it replaces. -/
theorem promotion_gated {Model : Type} (plane : ControlPlane Model) (calls : Nat → Call) {start : World}
    {config : Config Nat World PyError Json} {c : PromoteCommit} {artifactId : String}
    (chained : start.db.chained) (unused : start.notes = [])
    (run : (plane.service calls World.Around).Reachable (.start start) config)
    (committed : .promoted c ∈ config.state.commits) (replaces : c.Replaces artifactId)
    (steady : c.Steady) : c.Gated plane artifactId := by
  have checked := promotions_checked plane calls chained unused run committed
  have expected := checked.expected.trans replaces.1
  obtain ⟨championModel, challenger, isChallenger, reported, isChampion⟩ := checked.report
  obtain ⟨⟨own, ownFound, ownBound, ownSuite, ownScore⟩, passes⟩ := checked.hidden
  obtain ⟨result, suite, validated, ⟨paired, found, bound, isSuite, isScore⟩, ordered⟩ :=
    checked.paired artifactId expected
  have sameSuite : suite = c.hidden.2 := steady.2 _ validated
  refine ⟨⟨championModel, challenger, isChampion artifactId (steady.1.trans expected), isChallenger,
    reported⟩, own, paired, _, _, _, ownFound, ?_, ownBound, bound, ownSuite, sameSuite ▸ isSuite,
    ownScore, isScore, ordered, passes⟩
  rw [PromoteCommit.championReceipt, validated]
  exact found

def Sample.promotions : Nat → Call := fun call => promotion call "promoter" (if call = 0 then [1] else [1, 2])

theorem promotion_gated_third : ∃ (config : Config Nat World PyError Json) (c : PromoteCommit),
    .promoted c ∈ config.state.commits ∧ c.Replaces (Sample.artifactId "second") ∧
      c.Gated Sample.plane (Sample.artifactId "second") := by
  obtain ⟨config, run, checked⟩ := (Sample.plane.service Sample.promotions World.Around).play_exists
    (.spawn 0 :: List.replicate 50 (.act 0)) (.start Sample.ready)
    (fun config => config.state.promotions.any fun c =>
      c.Replaces (Sample.artifactId "second") ∧ c.Steady) (by simp) (by decide +kernel)
  obtain ⟨c, member, holds⟩ := List.any_eq_true.mp checked
  obtain ⟨replaces, steady⟩ := of_decide_eq_true holds
  have committed := World.mem_promotions.mp member
  exact ⟨config, c, committed, replaces, promotion_gated Sample.plane Sample.promotions
    Sample.ready_chained Sample.ready_notes run committed replaces steady⟩

/-- The suite is replaced between the two validations, and each receipt is for one of the suites. -/
theorem promotion_not_always_gated : ∃ (config : Config Nat World PyError Json) (c : PromoteCommit),
    (Sample.plane.service Sample.promotions World.Around).Reachable (.start Sample.ready) config ∧
      .promoted c ∈ config.state.commits ∧ c.Replaces (Sample.artifactId "second") ∧
      ¬c.Gated Sample.plane (Sample.artifactId "second") := by
  obtain ⟨config, run, checked⟩ := (Sample.plane.service Sample.promotions World.Around).play_exists
    (.spawn 1 :: List.replicate 31 (.act 1) ++ .change (fun w => { w with suite := [1, 2] }) ::
      List.replicate 19 (.act 1)) (.start Sample.ready)
    (fun config => config.state.promotions.any fun c => c.Replaces (Sample.artifactId "second") ∧
      c.ownReceipt.bind EvidenceRow.suite ≠ c.championReceipt.bind EvidenceRow.suite)
    (by
      intro effect member
      obtain rfl : effect = fun w => { w with suite := [1, 2] } := by simpa using member
      exact fun _ => ⟨rfl, rfl⟩)
    (by decide +kernel)
  obtain ⟨c, member, holds⟩ := List.any_eq_true.mp checked
  obtain ⟨replaces, differ⟩ := of_decide_eq_true holds
  refine ⟨config, c, run, World.mem_promotions.mp member, replaces, fun gated => differ ?_⟩
  obtain ⟨own, paired, suite, _, _, isOwn, isPaired, _, _, ownSuite, pairedSuite, _⟩ := gated.receipts
  rw [isOwn, isPaired]
  exact ownSuite.trans pairedSuite.symm

/-! Separation of duties. -/

/-- When the promotion commits, the artifact has a training run and none by the promoter. -/
def PromoteCommit.Separated (c : PromoteCommit) : Prop :=
  (∃ subjectId, c.before.Produced c.tenantId c.challengerId subjectId) ∧
    ¬c.before.Produced c.tenantId c.challengerId c.subjectId

/-- In every run, the duties are separate at a commit exactly if no training run by the
promoter has been added since the producers were read. -/
theorem promotion_separated {Model : Type} (plane : ControlPlane Model) (calls : Nat → Call)
    {start : World} {config : Config Nat World PyError Json} {c : PromoteCommit}
    (required : plane.settings.requireSeparationOfDuties = true) (chained : start.db.chained)
    (unused : start.notes = [])
    (run : (plane.service calls World.Around).Reachable (.start start) config)
    (committed : .promoted c ∈ config.state.commits) :
    c.Separated ↔
      (c.before.Produced c.tenantId c.challengerId c.subjectId → c.subjectId ∈ c.producers) := by
  obtain ⟨present, other, produced⟩ :=
    (promotions_checked plane calls chained unused run committed).separate required
  constructor
  · exact fun separated joined => absurd joined separated.2
  · intro unjoined
    obtain ⟨producer, member⟩ := List.exists_mem_of_ne_nil _ present
    exact ⟨⟨producer, produced producer member⟩, fun joined => other (unjoined joined)⟩

/-- A promotion, and a training run by the same subject that ends with the same artifact. -/
def Sample.duties : Nat → Call := fun call =>
  if call = 0 then promotion 0 "promoter" [1] else training call "promoter"

theorem promotion_separated_third : ∃ (config : Config Nat World PyError Json) (c : PromoteCommit),
    .promoted c ∈ config.state.commits ∧
      (c.Separated ↔
        (c.before.Produced c.tenantId c.challengerId c.subjectId → c.subjectId ∈ c.producers)) := by
  obtain ⟨config, run, checked⟩ := (Sample.plane.service Sample.duties World.Around).play_exists
    (.spawn 0 :: List.replicate 50 (.act 0)) (.start Sample.ready)
    (fun config => config.state.promotions.any fun _ => true) (by simp) (by decide +kernel)
  obtain ⟨c, member, _⟩ := List.any_eq_true.mp checked
  have committed := World.mem_promotions.mp member
  exact ⟨config, c, committed, promotion_separated Sample.plane Sample.duties rfl Sample.ready_chained
    Sample.ready_notes run committed⟩

theorem promotion_not_always_separated : ∃ (config : Config Nat World PyError Json) (c : PromoteCommit),
    (Sample.plane.service Sample.duties World.Around).Reachable (.start Sample.ready) config ∧
      .promoted c ∈ config.state.commits ∧ ¬c.Separated := by
  obtain ⟨config, run, checked⟩ := (Sample.plane.service Sample.duties World.Around).play_exists
    (.spawn 0 :: List.replicate 5 (.act 0) ++ .spawn 1 :: List.replicate 32 (.act 1) ++
      List.replicate 45 (.act 0)) (.start Sample.ready)
    (fun config => config.state.promotions.any fun c =>
      c.subjectId ∈ trainingProducers c.tenantId c.challengerId c.before) (by simp) (by decide +kernel)
  obtain ⟨c, member, joined⟩ := List.any_eq_true.mp checked
  exact ⟨config, c, run, World.mem_promotions.mp member, fun separated =>
    separated.2 (mem_trainingProducers.mp (of_decide_eq_true joined))⟩

end AgentTree
