import AgentTree.ControlCore

/-!
The six operations of `ControlPlane` that go through `_idempotent`.  Each has an
operation body, as in the source, and the method that wraps it.
-/

namespace AgentTree

open Outcome Relational Concurrent

/-- `value[name]`. -/
def Json.member (value : Json) (name : String) : Except PyError Json :=
  orRaise (value.get? name) (.other "KeyError" name)

/-- `str(value)`. -/
def ControlPlane.str {Model : Type} (plane : ControlPlane Model) : Json → String
  | .null => "None"
  | .bool true => "True"
  | .bool false => "False"
  | .int value => toString value
  | .float text => text
  | .str value => value
  | value => plane.pyStr value

/-- `asdict(promotion)`. -/
def Promotion.toJson (promotion : Promotion) : Json := .obj [
  ("audit_id", .str promotion.auditId),
  ("tenant_id", .str promotion.tenantId),
  ("policy_name", .str promotion.policyName),
  ("artifact_id", .str promotion.artifactId),
  ("previous_artifact_id", .optional .str promotion.previousArtifactId),
  ("generation", .int promotion.generation),
  ("decided_by", .str promotion.decidedBy),
  ("reason", .str promotion.reason),
  ("benchmark_receipt_id", .optional .str promotion.benchmarkReceiptId),
  ("promoted_at", .int promotion.promotedAt)]

def HiddenResult.toJson (result : HiddenResult) : Json := .obj [
  ("receipt_id", .str result.receiptId),
  ("suite_digest", .str result.suiteDigest),
  ("candidate_fingerprint", .str result.candidateFingerprint),
  ("total", .int result.total),
  ("normalized_score_ppm", .int result.normalizedScorePpm)]

namespace ControlPlane

variable {Model : Type} (plane : ControlPlane Model)

/-- `create_budget`: the transaction and the read after it. -/
def openBudget (tenantId budgetId : String) (limitUnits : Int) : Op Unit := do
  storeCall fun now db => createBudget now tenantId budgetId limitUnits db
  let _ ← storeRead (getBudget tenantId budgetId)
  return ()

def sign (nonce : String) (payload : Json) (purpose tenantId : String) : Op Json :=
  readWorld fun w => plane.signer.sign w.clock nonce payload purpose tenantId none

/-- `self.metrics.increment`, which changes nothing that is modelled here. -/
def metricsIncrement : Op Unit := .mayRaise

section Operations

variable (call : Nat) (key : OperationKey) (draws : Draws) (principal : Principal) (request : Json)

/-! `run_decision`. -/

def decisionTransaction (runId reservation family : String) (result : DecisionResult) (envelope : Json)
    (now : Int) (db : Db) : Except PyError (Json × Commit × Db) := do
  let (stored, db) ← plane.store.recordExperienceReceipt plane.rewardInRange now principal.tenantId
    envelope none db
  let (_, db) ← plane.store.appendEvent now (draws.uuid 1) principal.tenantId ("run:" ++ runId)
    "DECISION_COMPLETED" (.obj [
      ("family", .str family),
      ("requested_by", .str principal.subjectId),
      ("reward", result.reward),
      ("feasible", .bool result.feasible),
      ("abstained", .bool result.abstained),
      ("experience_receipt_id", .str stored.receiptId)]) none none none db
  let (_, db) ← consumeBudget now principal.tenantId "api-compute" reservation db
  let response : Json := .obj [
    ("run_id", .str runId),
    ("family", .str family),
    ("model_version", .str result.modelVersion),
    ("trajectory", .arr (result.trajectory.map .str)),
    ("reward", result.reward),
    ("feasible", .bool result.feasible),
    ("abstained", .bool result.abstained),
    ("benchmark_evaluations", .int result.benchmarkEvaluations),
    ("experience_receipt_id", .str stored.receiptId)]
  return (response, .decision, db)

def decisionWork (runId reservation family : String) (simulations seed : Int) : Op Json := do
  let (_, model) ← plane.championModel principal.tenantId family
  let result ← Prog.ofExcept (plane.search model seed simulations)
  let experience := result.experience principal.tenantId family runId
  let trajectory ← Prog.ofExcept (experience.member "trajectory")
  let trajectoryText ← Prog.ofExcept (jsonText trajectory)
  let envelope ← plane.sign (draws.nonce 0) (.obj [
    ("run_id", .str runId),
    ("episode_id", .str runId),
    ("trajectory_hash", .str (plane.store.sha256Hex trajectoryText)),
    ("reward", result.reward),
    ("experience", experience)]) "experience" principal.tenantId
  let response ← stateTransaction call key
    (plane.decisionTransaction draws principal runId reservation family result envelope)
  metricsIncrement
  return response

def decisionOperation : Op Json := do
  let simulations ← Prog.ofExcept (boundedInt request "simulations" 128 8 4096)
  let seed ← Prog.ofExcept (boundedInt request "seed" 7 0 (2 ^ 31 - 1))
  let family ← Prog.ofExcept (boundedText request "family" policyFamily 128)
  Prog.require (family = policyFamily) (.valueError "unregistered policy family")
  let runId := draws.uuid 0
  let reservation := "decision-" ++ runId
  openBudget principal.tenantId "api-compute" plane.settings.defaultTenantBudget
  let _ ← storeCall fun now db =>
    reserveBudget now principal.tenantId "api-compute" reservation simulations db
  (plane.decisionWork call key draws principal runId reservation family simulations seed).tryCatch
    fun error => do
      let _ ← storeCall fun now db =>
        releaseBudget now principal.tenantId "api-compute" reservation db
      throw error

/-! `run_evidence`. -/

/-- A list of at most 64 bounded texts. -/
def boundedTexts (value : Json) : Option (List String) :=
  match value with
  | .arr items =>
      if items.length ≤ 64 then
        items.mapM fun item => match item with
          | .str text => if boundedBytes 4096 text then some text else none
          | _ => none
      else none
  | _ => none

def evidenceArguments : Except PyError (String × List String × String × List String) := do
  ensure plane.runnerConfigured (.valueError "evidence runner is not configured")
  let invalid := PyError.valueError
    "allowlisted command_id, bounded arguments list, and cwd are required"
  let commandId ← match request.get? "command_id" with
    | some (.str value) => Except.ok value
    | _ => .error invalid
  ensure ((List.range plane.settings.allowedCommands.length).any fun index =>
    commandId = "cmd" ++ toString index) invalid
  let arguments ← orRaise (boundedTexts ((request.get? "arguments").getD (.arr []))) invalid
  let cwd ← match request.get? "cwd" with
    | some (.str value) => if boundedBytes 4096 value then Except.ok value else .error invalid
    | _ => .error invalid
  let artifacts ← orRaise (boundedTexts ((request.get? "artifacts").getD (.arr [])))
    (.valueError "artifacts must be a bounded list of paths")
  return (commandId, arguments, cwd, artifacts)

def evidenceTransaction (subjectId : String) (rawPayload normalized : Json) (now : Int) (db : Db) :
    Except PyError (Json × Commit × Db) := do
  let outcome := (rawPayload.get? "outcome").getD .null
  let (stored, db) ← plane.store.recordEvidenceReceipt now principal.tenantId normalized none db
  let (_, db) ← plane.store.appendEvent now (draws.uuid 1) principal.tenantId
    ("evidence:" ++ subjectId) "EVIDENCE_RECORDED" (.obj [
      ("receipt_id", .str stored.receiptId),
      ("requested_by", .str principal.subjectId),
      ("outcome", outcome)]) none none none db
  let response : Json := .obj [
    ("receipt_id", .str stored.receiptId),
    ("subject_id", .str subjectId),
    ("outcome", outcome),
    ("duration_ms", (rawPayload.get? "duration_ms").getD .null),
    ("output", (rawPayload.get? "output").getD .null)]
  return (response, .evidence, db)

def evidenceOperation : Op Json := do
  let (commandId, arguments, cwd, artifacts) ← Prog.ofExcept (plane.evidenceArguments request)
  let receipt ← Prog.ofExcept (draws.evidence (commandId :: arguments) cwd artifacts key.key)
  let rawPayload ← readWorld fun w => plane.verifier.verify w.clock receipt
    (some "subprocess-evidence") (some principal.tenantId)
  Prog.ofExcept (match rawPayload with
    | .obj _ => .ok ()
    | _ => .error (.valueError "subprocess evidence receipt payload must be an object"))
  let receiptId ← Prog.ofExcept (rawPayload.member "receipt_id")
  let subjectId := plane.str receiptId
  let receiptText ← Prog.ofExcept (jsonText receipt)
  let normalized ← plane.sign (draws.nonce 0) (.obj [
    ("evidence_kind", .str "subprocess"),
    ("subject_id", .str subjectId),
    ("artifact_uri", .str ("receipt://subprocess/" ++ subjectId)),
    ("content_sha256", .str (plane.store.sha256Hex receiptText)),
    ("outcome", (rawPayload.get? "outcome").getD .null),
    ("attestation", receipt)]) "evidence" principal.tenantId
  let response ← stateTransaction call key
    (plane.evidenceTransaction draws principal subjectId rawPayload normalized)
  metricsIncrement
  return response

/-! `evaluate_hidden_benchmark`. -/

def hiddenTransaction (challengerId budgetId reservation : String)
    (fingerprint suiteDigest : Json) (result normalized : Json) (now : Int) (db : Db) :
    Except PyError (Json × Commit × Db) := do
  let score ← result.member "normalized_score_ppm"
  let (_, db) ← consumeBudget now principal.tenantId budgetId reservation db
  let (stored, db) ← plane.store.recordEvidenceReceipt now principal.tenantId normalized none db
  let (_, db) ← plane.store.appendEvent now (draws.uuid 1) principal.tenantId
    ("policy:" ++ challengerId) "HIDDEN_BENCHMARK_COMPLETED" (.obj [
      ("receipt_id", .str stored.receiptId),
      ("requested_by", .str principal.subjectId),
      ("suite_digest", suiteDigest),
      ("normalized_score_ppm", score)]) none none none db
  let response : Json := .obj [
    ("receipt_id", .str stored.receiptId),
    ("challenger_id", .str challengerId),
    ("suite_digest", suiteDigest),
    ("candidate_fingerprint", fingerprint),
    ("passed", ← result.member "passed"),
    ("failed", ← result.member "failed"),
    ("total", ← result.member "total"),
    ("normalized_score_ppm", score)]
  let commit : HiddenCommit := {
    challengerId, budgetId
    tenantId := principal.tenantId
    reservationId := reservation
    receiptId := stored.receiptId }
  return (response, .hiddenBenchmark commit, db)

def hiddenWork (challengerId budgetId reservation contentSha256 : String) (path : ArtifactPath) :
    Op Json := do
  let aggregate ← Prog.ofExcept (draws.hiddenBenchmark path key.key)
  let payload ← Prog.ofExcept (aggregate.member "payload")
  let candidate ← Prog.ofExcept (payload.member "candidate")
  let fingerprint ← Prog.ofExcept (candidate.member "fingerprint_sha256")
  let aggregateText ← Prog.ofExcept (jsonText aggregate)
  let normalized ← plane.sign (draws.nonce 0) (.obj [
    ("evidence_kind", .str "hidden-benchmark"),
    ("subject_id", .str (plane.str fingerprint)),
    ("artifact_uri", .str "benchmark://hidden/aggregate"),
    ("content_sha256", .str (plane.store.sha256Hex aggregateText)),
    ("policy_artifact_id", .str challengerId),
    ("policy_content_sha256", .str contentSha256),
    ("aggregate", aggregate)]) "evidence" principal.tenantId
  let result ← Prog.ofExcept (payload.member "result")
  let benchmark ← Prog.ofExcept (payload.member "benchmark")
  let suiteDigest ← Prog.ofExcept (benchmark.member "suite_sha256")
  stateTransaction call key (plane.hiddenTransaction draws principal challengerId budgetId reservation
    fingerprint suiteDigest result normalized)

def challengerArgument : Except PyError String :=
  match request.get? "challenger_id" with
  | some (.str value) =>
      if boundedBytes 256 value then .ok value else .error (.valueError "challenger_id is required")
  | _ => .error (.valueError "challenger_id is required")

/-- Raise nothing on a conflict. -/
def ignoreConflict (cleanup : Op Unit) : Op Unit :=
  cleanup.tryCatch fun error => .require error.isConflict error

def hiddenOperation : Op Json := do
  Prog.require plane.hiddenBenchmark.isSome
    (.valueError "hidden benchmark worker is not configured")
  let challengerId ← Prog.ofExcept (challengerArgument request)
  let _ ← plane.loadArtifact principal.tenantId challengerId
  let artifact ← storeRead (getPolicyArtifact principal.tenantId challengerId)
  let path ← Prog.ofExcept (plane.resolvePolicyArtifact principal.tenantId artifact.contentSha256
    artifact.artifactUri)
  let _ ← readWorld fun w => orRaise (w.files path) (.other "FileNotFoundError" path.2)
  let (_, suiteDigest) ← plane.opaqueSuiteDigest
  let quotaWindow ← readWorld fun w =>
    .ok (w.clock / plane.settings.hiddenBenchmarkQuotaWindowSeconds)
  let budgetId := "hidden-benchmark:" ++ challengerId ++ ":" ++
    asciiText ((utf8 suiteDigest).take 16) ++ ":" ++ toString quotaWindow
  let reservation := "attempt:" ++ key.key
  openBudget principal.tenantId budgetId plane.settings.hiddenBenchmarkAttemptLimit
  let _ ← storeCall fun now db => reserveBudget now principal.tenantId budgetId reservation 1 db
  let response ← (plane.hiddenWork call key draws principal challengerId budgetId reservation
    artifact.contentSha256 path).tryCatch fun error => do
      ignoreConflict do
        let _ ← storeCall fun now db => releaseBudget now principal.tenantId budgetId reservation db
        return ()
      throw error
  metricsIncrement
  return response

/-! `train_challenger`. -/

/-- `acquire_lease`: the transaction and the read after it. -/
def acquire (tenantId resourceId holder : String) (ttlSeconds : Int) : Op LeaseRow := do
  storeCall fun now db => acquireLease now tenantId resourceId holder ttlSeconds none db
  storeRead (getLease tenantId resourceId)

/-- `renew_lease`: the transaction and the read after it. -/
def renew (tenantId resourceId holder : String) (fencingToken ttlSeconds : Int) : Op Unit := do
  storeCall fun now db => renewLease now tenantId resourceId holder fencingToken ttlSeconds none db
  let _ ← storeRead (getLease tenantId resourceId)
  return ()

/-- `OfflineLearner.train_challenger` from one episode on: a heartbeat before each episode. -/
def trainEpisodes (simulations : Int) (heartbeat : Op Unit) :
    (remaining : Nat) → (episode : Int) → Model → Op Model
  | 0, _, challenger => return challenger
  | remaining + 1, episode, challenger => do
      heartbeat
      let next ← Prog.ofExcept (plane.trainEpisode challenger (1000 + episode) simulations)
      trainEpisodes simulations heartbeat remaining (episode + 1) next

def trainTransaction (family holder reservation : String) (fencingToken leaseTtl : Int)
    (challenger : Model) (contentHash : String) (report : PromotionReport) (now : Int) (db : Db) :
    Except PyError (Json × Commit × Db) := do
  -- The renewal is the fencing check.
  let (_, db) ← renewLease now principal.tenantId ("train:" ++ family) holder fencingToken leaseTtl none
    db
  let _ ← getLease principal.tenantId ("train:" ++ family) db
  let (artifact, db) ← plane.registerArtifact now principal.tenantId family challenger contentHash
    (.obj [("status", .str "challenger")]) db
  let (_, db) ← recordTrainingRun now principal.tenantId key.key family artifact.artifactId
    principal.subjectId fencingToken report.payload db
  let (_, db) ← plane.store.appendEvent now (draws.uuid 1) principal.tenantId ("policy:" ++ family)
    "CHALLENGER_TRAINED" (.obj [
      ("artifact_id", .str artifact.artifactId),
      ("training_id", .str key.key),
      ("trained_by", .str principal.subjectId),
      ("lease_fencing_token", .int fencingToken),
      ("promotion_report", report.payload),
      ("accepted_by_offline_gate", .bool report.accepted)]) none none none db
  let (_, db) ← consumeBudget now principal.tenantId "api-compute" reservation db
  let response : Json := .obj [
    ("challenger_id", .str artifact.artifactId),
    ("training_id", .str key.key),
    ("model_version", .str (plane.modelVersion challenger)),
    ("promotion_report", report.payload)]
  return (response, .trained, db)

def trainWork (family holder reservation : String) (episodes simulations leaseTtl : Int)
    (lease : LeaseRow) : Op Json := do
  let (_, champion) ← plane.championModel principal.tenantId family
  let heartbeat := renew principal.tenantId ("train:" ++ family) holder lease.fencingToken leaseTtl
  let challenger ← plane.trainEpisodes simulations heartbeat episodes.toNat 0 champion
  let report ← Prog.ofExcept (plane.promotionReport champion challenger)
  -- The file is not part of the transaction: it stays when the transaction is rolled back.
  let (path, encoded, contentHash) ←
    Prog.ofExcept (plane.encodeArtifact principal.tenantId family challenger)
  writeArtifact path encoded
  let response ← stateTransaction call key (plane.trainTransaction key draws principal family holder
    reservation lease.fencingToken leaseTtl challenger contentHash report)
  .mayRaise
  return response

/-- The finally clause; `lease` is there once it has been acquired. -/
def trainCleanup (family holder reservation : String) (lease : Option LeaseRow) : Op Unit := do
  (do
    let budget ← storeRead (getBudget principal.tenantId "api-compute")
    if budget.reservedUnits ≠ 0 then do
      let _ ← storeCall fun now db =>
        releaseBudget now principal.tenantId "api-compute" reservation db
      return ()
    else return () : Op Unit).tryCatch
      fun error => .require (error.isConflict || error.isNotFound) error
  match lease with
  | none => return ()
  | some lease => ignoreConflict (storeCall fun now db =>
      releaseLease now principal.tenantId ("train:" ++ family) holder lease.fencingToken db)

def trainOperation : Op Json := do
  let family ← Prog.ofExcept (boundedText request "family" policyFamily 128)
  Prog.require (family = policyFamily) (.valueError "unregistered policy family")
  let episodes ← Prog.ofExcept (boundedInt request "episodes" 12 1 1000)
  let simulations ← Prog.ofExcept (boundedInt request "simulations" 128 8 4096)
  let holder := draws.uuid 0
  let reservation := "training-" ++ holder
  openBudget principal.tenantId "api-compute" plane.settings.defaultTenantBudget
  let _ ← storeCall fun now db =>
    reserveBudget now principal.tenantId "api-compute" reservation (episodes * simulations) db
  let leaseTtl := max plane.settings.leaseSeconds (min 3600 (episodes * 2))
  let lease ← (acquire principal.tenantId ("train:" ++ family) holder leaseTtl).tryCatch
    fun error => do
      trainCleanup principal family holder reservation none
      throw error
  Prog.tryFinally
    (plane.trainWork call key draws principal family holder reservation episodes simulations leaseTtl
      lease)
    (trainCleanup principal family holder reservation (some lease))

/-! `promote`. -/

/-- `_validate_promotion_benchmark`, together with the suite file it has read. -/
def validatePromotionBenchmark (tenantId artifactId receiptId : String)
    (enforceAbsoluteThreshold : Bool) : Op (HiddenResult × Bytes) := do
  let workerTenantId ← Prog.ofExcept (orRaise plane.hiddenBenchmark
    (.conflict "hidden benchmark worker is not configured"))
  let record ← storeRead (getEvidenceReceipt tenantId receiptId)
  Prog.require (record.evidenceKind = "hidden-benchmark")
    (.conflict "promotion receipt is not a hidden benchmark")
  let issuedAt ← Prog.ofExcept (match record.envelope.get? "issued_at" with
    | some (.int value) => .ok value
    | _ => .error (.conflict "promotion receipt issue time is invalid"))
  readWorld fun w => ensure (-60 ≤ w.clock - issuedAt &&
      w.clock - issuedAt ≤ plane.settings.benchmarkReceiptMaxAgeSeconds)
    (.conflict "hidden benchmark receipt is stale or future-dated")
  let payload := (record.envelope.get? "payload").getD .null
  Prog.require (payload.get? "policy_artifact_id" = some (.str artifactId))
    (.conflict "hidden benchmark is bound to a different challenger")
  let artifact ← storeRead (getPolicyArtifact tenantId artifactId)
  Prog.require (payload.get? "policy_content_sha256" = some (.str artifact.contentSha256))
    (.conflict "hidden benchmark policy content hash does not match")
  let aggregate ← Prog.ofExcept (match payload.get? "aggregate" with
    | some (.obj members) => .ok (Json.obj members)
    | _ => .error (.conflict "hidden benchmark aggregate is missing"))
  let authenticated ← (readWorld fun w => plane.verifier.verify w.clock aggregate
      (some "hidden-benchmark-aggregate") (some workerTenantId)).tryCatch fun error => do
    .require (match error with | .receipt _ _ => false | _ => true)
      (.conflict "hidden benchmark aggregate authentication failed")
    throw error
  let aggregatePayload ← Prog.ofExcept (match aggregate.get? "payload" with
    | some (.obj members) => .ok (Json.obj members)
    | _ => .error (.conflict "hidden benchmark aggregate payload is invalid"))
  Prog.require (authenticated = aggregatePayload)
    (.conflict "hidden benchmark aggregate payload does not authenticate")
  let (benchmark, candidate, result) ← Prog.ofExcept (match aggregatePayload.get? "benchmark",
      aggregatePayload.get? "candidate", aggregatePayload.get? "result" with
    | some (.obj benchmark), some (.obj candidate), some (.obj result) =>
        .ok (Json.obj benchmark, Json.obj candidate, Json.obj result)
    | _, _, _ => .error (.conflict "hidden benchmark aggregate fields are invalid"))
  let (suite, suiteDigest) ← plane.opaqueSuiteDigest
  Prog.require (benchmark.get? "suite_sha256" = some (.str suiteDigest))
    (.conflict "hidden benchmark receipt targets an obsolete suite")
  let path ← Prog.ofExcept (plane.resolvePolicyArtifact tenantId artifact.contentSha256
    artifact.artifactUri)
  let _ ← readWorld fun w => orRaise (w.files path) (.other "FileNotFoundError" path.2)
  let fingerprint ← readWorld fun w => plane.candidateFingerprint path (w.files path)
  Prog.require (candidate.get? "fingerprint_sha256" = some (.str fingerprint))
    (.conflict "hidden benchmark candidate fingerprint does not match")
  let total ← Prog.ofExcept (match result.get? "total" with
    | some (.int total) =>
        if 0 < total then .ok total
        else .error (.conflict "hidden benchmark contains no evaluated cases")
    | _ => .error (.conflict "hidden benchmark contains no evaluated cases"))
  let score ← Prog.ofExcept (match result.get? "normalized_score_ppm" with
    | some (.int score) => .ok score
    | _ => .error (.conflict "hidden benchmark score is invalid"))
  Prog.require (!enforceAbsoluteThreshold || plane.settings.minimumHiddenBenchmarkScorePpm ≤ score)
    (.conflict ("hidden benchmark score below promotion threshold: " ++ toString score ++ " < " ++
      toString plane.settings.minimumHiddenBenchmarkScorePpm))
  let validated : HiddenResult := {
    receiptId, suiteDigest, total
    candidateFingerprint := fingerprint
    normalizedScorePpm := score }
  return (validated, suite)

/-- The separation of duties, where it is required; the result is the producers it has read. -/
def separateDuties (challengerId : String) : Op (List String) :=
  if plane.settings.requireSeparationOfDuties then do
    let producers ← storeRead fun db =>
      .ok (trainingProducers principal.tenantId challengerId db)
    Prog.require (!producers.isEmpty) (.conflict "challenger producer identity is missing")
    Prog.require (!producers.contains principal.subjectId)
      (.conflict "challenger producer and promoter must be different subjects")
    return producers
  else return []

/-- The benchmark of the champion that is to be replaced, where there is one. -/
def validateChampion (champion : Option Champion) (hidden : HiddenResult) :
    Op (Option (HiddenResult × Bytes)) :=
  match champion with
  | none => return none
  | some champion => do
      let receiptId ← Prog.ofExcept (requiredText request "champion_hidden_benchmark_receipt_id")
      let (result, suite) ← plane.validatePromotionBenchmark principal.tenantId champion.row.artifactId
        receiptId false
      Prog.require (result.normalizedScorePpm ≤ hidden.normalizedScorePpm)
        (.conflict "challenger regresses on the paired hidden benchmark")
      return some (result, suite)

/-- `_record_promotion_report`, with the clock reading of the transaction it is part of. -/
def recordPromotionReport (tenantId artifactId : String) (report : Json) (now : Int) (db : Db) :
    Except PyError (String × Db) := do
  let reportText ← jsonText report
  let envelope ← plane.signer.sign now (draws.nonce 0) (.obj [
    ("evidence_kind", .str "promotion-benchmark"),
    ("subject_id", .str artifactId),
    ("artifact_uri", .str ("policy://" ++ artifactId ++ "/promotion-report")),
    ("content_sha256", .str (plane.store.sha256Hex reportText)),
    ("report", report)]) "evidence" tenantId none
  let (stored, db) ← plane.store.recordEvidenceReceipt now tenantId envelope none db
  return (stored.receiptId, db)

def promoteTransaction (challengerId family reason benchmarkReceiptId : String)
    (producers : List String) (expected compared : Option String) (report : PromotionReport)
    (hidden : HiddenResult × Bytes) (championHidden : Option (HiddenResult × Bytes)) (now : Int)
    (db : Db) : Except PyError (Json × Commit × Db) := do
  let before := db
  let (reportReceiptId, db) ← plane.recordPromotionReport draws principal.tenantId challengerId
    report.payload now db
  let (promotion, db) ← promotePolicy now (draws.uuid 0) principal.tenantId family challengerId expected
    principal.subjectId reason (some benchmarkReceiptId) none db
  let (_, db) ← plane.store.appendEvent now (draws.uuid 1) principal.tenantId ("policy:" ++ family)
    "POLICY_PROMOTED" promotion.toJson none none none db
  let response : Json := .obj [
    ("promotion", promotion.toJson),
    ("report", report.payload),
    ("hidden_benchmark", hidden.1.toJson),
    ("champion_hidden_benchmark", .optional HiddenResult.toJson (championHidden.map Prod.fst)),
    ("offline_report_receipt_id", .str reportReceiptId)]
  let commit : PromoteCommit := {
    before, family, challengerId, producers, expected, compared, report, hidden, championHidden
    tenantId := principal.tenantId
    subjectId := principal.subjectId }
  return (response, .promoted commit, db)

def promoteOperation (challengerId : String) : Op Json := do
  let family ← Prog.ofExcept (boundedText request "family" policyFamily 128)
  let reason ← Prog.ofExcept
    (boundedText request "reason" "passed controlled promotion gates" 2000)
  let artifact ← storeRead (getPolicyArtifact principal.tenantId challengerId)
  Prog.require (artifact.policyName = family) (.conflict "challenger belongs to a different policy")
  let producers ← plane.separateDuties principal challengerId
  let candidate ← plane.loadArtifact principal.tenantId challengerId
  let challenger ← Prog.ofExcept (plane.modelFromPayload candidate)
  let champion ← storeRead fun db => .ok (getChampion principal.tenantId family db)
  let (compared, championModel) ← plane.championModel principal.tenantId family
  let report ← Prog.ofExcept (plane.promotionReport championModel challenger)
  Prog.require report.accepted
    (.conflict ("challenger failed promotion gates: " ++ "; ".intercalate report.reasons))
  let benchmarkReceiptId ← Prog.ofExcept (requiredText request "hidden_benchmark_receipt_id")
  let hidden ← plane.validatePromotionBenchmark principal.tenantId challengerId benchmarkReceiptId true
  let championHidden ← plane.validateChampion principal request champion hidden.1
  let expected := champion.map fun champion => champion.row.artifactId
  let response ← stateTransaction call key (plane.promoteTransaction draws principal challengerId family
    reason benchmarkReceiptId producers expected compared report hidden championHidden)
  metricsIncrement
  return response

/-! `rollback`. -/

def rollbackTransaction (family reason previous : String) (current : ChampionRow) (now : Int)
    (db : Db) : Except PyError (Json × Commit × Db) := do
  let before := db
  let (promotion, db) ← promotePolicy now (draws.uuid 0) principal.tenantId family previous
    (some current.artifactId) principal.subjectId reason none none db
  let (_, db) ← plane.store.appendEvent now (draws.uuid 1) principal.tenantId ("policy:" ++ family)
    "POLICY_ROLLED_BACK" promotion.toJson none none none db
  let commit : RollbackCommit := {
    before, family
    after := db
    tenantId := principal.tenantId
    generation := current.generation }
  return (.obj [("promotion", promotion.toJson)], .rolledBack commit, db)

def rollbackOperation (family : String) : Op Json := do
  let reason ← Prog.ofExcept (boundedText request "reason" "operator rollback" 2000)
  let champion ← storeRead fun db => .ok (getChampion principal.tenantId family db)
  let current ← Prog.ofExcept (orRaise champion (.notFound "no champion exists"))
  let audit ← storeRead fun db => getPromotionAtGeneration principal.tenantId family
    current.row.generation db
  let promotion ← Prog.ofExcept (orRaise
    (audit.filter fun promotion => promotion.artifactId = current.row.artifactId)
    (.conflict "champion promotion audit is missing or inconsistent"))
  let previous ← Prog.ofExcept (orRaise promotion.previousArtifactId
    (.conflict "champion has no rollback target"))
  let response ← stateTransaction call key (plane.rollbackTransaction draws principal family reason
    previous current.row)
  metricsIncrement
  return response

end Operations

end ControlPlane

/-! The calls. -/

inductive Request : Type
  | runDecision (request : Json)
  | runEvidence (request : Json)
  | evaluateHiddenBenchmark (request : Json)
  | trainChallenger (request : Json)
  | promote (challengerId : String) (request : Json)
  | rollback (family : String) (request : Json)

structure Call where
  principal : Principal
  request : Request
  idempotencyKey : String
  draws : Draws

def Call.scope (call : Call) : String :=
  match call.request with
  | .runDecision _ => "decision"
  | .runEvidence _ => "evidence"
  | .evaluateHiddenBenchmark _ => "hidden-benchmark"
  | .trainChallenger _ => "train"
  | .promote _ _ => "promote"
  | .rollback _ _ => "rollback"

def Call.key (call : Call) : OperationKey :=
  ⟨call.principal.tenantId, call.scope, call.idempotencyKey⟩

/-- The request that the idempotency record is claimed for. -/
def Call.payload (call : Call) : Json :=
  match call.request with
  | .runDecision request | .runEvidence request | .evaluateHiddenBenchmark request
  | .trainChallenger request => request
  | .promote challengerId request => withMember request "challenger_id" (.str challengerId)
  | .rollback family request => withMember request "family" (.str family)

namespace ControlPlane

variable {Model : Type} (plane : ControlPlane Model)

def allowedFields (call : Call) : Except PyError Unit :=
  match call.request with
  | .runDecision request => requireAllowedFields request ["simulations", "seed", "family"]
  | .runEvidence request =>
      requireAllowedFields request ["command_id", "arguments", "cwd", "artifacts"]
  | .evaluateHiddenBenchmark request => requireAllowedFields request ["challenger_id"]
  | .trainChallenger request => requireAllowedFields request ["family", "episodes", "simulations"]
  | .promote _ request => requireAllowedFields request ["family", "hidden_benchmark_receipt_id",
      "champion_hidden_benchmark_receipt_id", "reason"]
  | .rollback _ request => requireAllowedFields request ["reason"]

def operation (index : Nat) (call : Call) : Op Json :=
  match call.request with
  | .runDecision request =>
      plane.decisionOperation index call.key call.draws call.principal request
  | .runEvidence request =>
      plane.evidenceOperation index call.key call.draws call.principal request
  | .evaluateHiddenBenchmark request =>
      plane.hiddenOperation index call.key call.draws call.principal request
  | .trainChallenger request =>
      plane.trainOperation index call.key call.draws call.principal request
  | .promote challengerId request =>
      plane.promoteOperation index call.key call.draws call.principal request challengerId
  | .rollback family request =>
      plane.rollbackOperation index call.key call.draws call.principal request family

/-- One method call; its number is only used in the remarks. -/
def perform (index : Nat) (call : Call) : Op Json := do
  Prog.ofExcept (allowedFields call)
  plane.idempotent index call.key call.payload (plane.operation index call)

end ControlPlane

end AgentTree
