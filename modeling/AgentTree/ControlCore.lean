import AgentTree.Program
import AgentTree.StoreCore

/-!
The parts that the operations of `ControlPlane` (`control.py`) share.  The search,
the learner and the external commands are parameters of the plane: nothing is
assumed of what they return.  One store call is one step, and a `with
self.store.transaction()` block is one step as a whole, with one clock reading.
-/

namespace AgentTree

open Outcome Relational Concurrent

structure Settings where
  defaultTenantBudget : Int
  leaseSeconds : Int
  benchmarkReceiptMaxAgeSeconds : Int
  minimumHiddenBenchmarkScorePpm : Int
  hiddenBenchmarkAttemptLimit : Int
  hiddenBenchmarkQuotaWindowSeconds : Int
  requireSeparationOfDuties : Bool
  allowedCommands : List String

structure Principal where
  tenantId : String
  subjectId : String

/-- What `run_decision` uses of a search result. -/
structure DecisionResult where
  modelVersion : String
  trajectory : List String
  reward : Json
  feasible : Bool
  abstained : Bool
  benchmarkEvaluations : Int
  /-- `search_result_to_experience`, by tenant, family and run. -/
  experience : String → String → String → Json

structure PromotionReport where
  accepted : Bool
  reasons : List String
  payload : Json
  deriving DecidableEq

/-- A file below the artifact directory: its tenant namespace and content digest. -/
abbrev ArtifactPath := String × String

structure ControlPlane (Model : Type) where
  settings : Settings
  store : Store
  signer : ReceiptSigner
  verifier : ReceiptVerifier
  /-- The worker's tenant, where a hidden benchmark is configured. -/
  hiddenBenchmark : Option String
  runnerConfigured : Bool
  initialModel : Model
  modelFromPayload : Json → Except PyError Model
  modelToPayload : Model → String → Json
  modelVersion : Model → String
  search : Model → Int → Int → Except PyError DecisionResult
  trainEpisode : Model → Int → Int → Except PyError Model
  promotionReport : Model → Model → Except PyError PromotionReport
  jsonLoads : Bytes → Option Json
  candidateFingerprint : ArtifactPath → Option Bytes → Except PyError String
  rewardInRange : String → Bool
  /-- `str(value)` of an array or an object. -/
  pyStr : Json → String

/-- What one call draws from outside: identifiers, nonces and the results of subprocesses. -/
structure Draws where
  uuid : Nat → String
  nonce : Nat → String
  evidence : List String → String → List String → String → Except PyError Json
  hiddenBenchmark : ArtifactPath → String → Except PyError Json

/-- `(tenant, scope, idempotency key)`. -/
structure OperationKey where
  tenantId : String
  scope : String
  key : String
  deriving DecidableEq

abbrev OperationKey.row (key : OperationKey) : String × String × String :=
  (key.tenantId, key.scope, key.key)

/-- What `_validate_promotion_benchmark` returns. -/
structure HiddenResult where
  receiptId : String
  suiteDigest : String
  candidateFingerprint : String
  total : Int
  normalizedScorePpm : Int
  deriving DecidableEq

/-- A promotion: the database before the transaction, and what was read before it.  `producers`
is what the separation of duties read, `compared` the champion whose model was compared, and
a benchmark result comes with the suite file it was checked against. -/
structure PromoteCommit where
  before : Db
  tenantId : String
  subjectId : String
  family : String
  challengerId : String
  producers : List String
  expected : Option String
  compared : Option String
  report : PromotionReport
  hidden : HiddenResult × Bytes
  championHidden : Option (HiddenResult × Bytes)

/-- A hidden benchmark: the reservation that it has consumed, and its receipt. -/
structure HiddenCommit where
  tenantId : String
  challengerId : String
  budgetId : String
  reservationId : String
  receiptId : String

/-- A rollback: the database around the transaction, and the generation that was read before it. -/
structure RollbackCommit where
  before : Db
  after : Db
  tenantId : String
  family : String
  generation : Nat

/-- What a state transaction did. -/
inductive Commit : Type
  | decision
  | evidence
  | hiddenBenchmark (commit : HiddenCommit)
  | trained
  | promoted (commit : PromoteCommit)
  | rolledBack (commit : RollbackCommit)

/-- The scope of the operation that makes such a commit. -/
def Commit.scope : Commit → String
  | .decision => "decision"
  | .evidence => "evidence"
  | .hiddenBenchmark _ => "hidden-benchmark"
  | .trained => "train"
  | .promoted _ => "promote"
  | .rolledBack _ => "rollback"

/-- A remark for the statements; no operation reads the remarks. -/
inductive Note : Type
  | started (call : Nat) (key : OperationKey) (request : Json)
  | committed (call : Nat) (key : OperationKey) (response : Json) (commit : Commit)

structure World where
  db : Db
  clock : Int
  files : ArtifactPath → Option Bytes
  /-- The private suite file. -/
  suite : Bytes
  notes : List Note

abbrev Op := Prog World PyError

/-! Steps. -/

/-- A store call at the current clock reading. -/
def onStore (run : Int → Db → Except PyError (α × Db)) (w : World) : Except PyError (α × World) :=
  match run w.clock w.db with
  | .ok (value, db) => .ok (value, { w with db })
  | .error error => .error error

def storeCall (run : Int → Db → Except PyError (α × Db)) : Op α := .exposed (onStore run)

/-- A step that only reads. -/
def readWorld (read : World → Except PyError α) : Op α :=
  .exposed fun w => match read w with
    | .ok value => .ok (value, w)
    | .error error => .error error

def storeRead (read : Db → Except PyError α) : Op α := readWorld fun w => read w.db

/-- The state transaction of an operation, which ends with `_complete_atomic`. -/
def stateTransaction (call : Nat) (key : OperationKey)
    (body : Int → Db → Except PyError (Json × Commit × Db)) : Op Json :=
  .exposed fun w => do
    let (response, commit, db) ← body w.clock w.db
    let (_, db) ← completeIdempotency w.clock key.tenantId key.scope key.key response db
    return (response, { w with db, notes := w.notes ++ [.committed call key response commit] })

def IdempotencyStatus.text : IdempotencyStatus → String
  | .inProgress => "IN_PROGRESS"
  | .completed => "COMPLETED"
  | .failed => "FAILED"

/-- The stored response of a finished record. -/
def IdempotencyRow.storedResponse (row : IdempotencyRow) : Option Json :=
  match row.status, row.result with
  | .completed, some (.obj members) => some (.obj members)
  | _, _ => none

/-! Requests. -/

/-- `_require_allowed_fields`. -/
def requireAllowedFields (request : Json) (allowed : List String) : Except PyError Unit :=
  match request with
  | .obj members =>
      let unknown := ((members.map Prod.fst).filter (!allowed.contains ·)).dedup.insertionSort (· ≤ ·)
      ensure unknown.isEmpty (.valueError ("unknown request fields: " ++ ", ".intercalate unknown))
  | _ => .error (.other "AttributeError" "request")

/-- `_bounded_int`. -/
def boundedInt (request : Json) (name : String) (default minimum maximum : Int) : Except PyError Int :=
  match (request.get? name).getD (.int default) with
  | .int value =>
      if minimum ≤ value ∧ value ≤ maximum then .ok value
      else .error (.valueError (name ++ " must be in [" ++ toString minimum ++ ", " ++
        toString maximum ++ "]"))
  | _ => .error (.valueError (name ++ " must be an integer"))

/-- A nonempty text without NUL of at most so many bytes. -/
def boundedBytes (maximum : Nat) (value : String) : Bool :=
  value ≠ "" && !(utf8 value).contains 0 && (utf8 value).length ≤ maximum

/-- `_bounded_text`. -/
def boundedText (request : Json) (name default : String) (maximumBytes : Nat) : Except PyError String :=
  let error := PyError.valueError
    (name ++ " must be a nonempty string of at most " ++ toString maximumBytes ++ " bytes")
  match (request.get? name).getD (.str default) with
  | .str value => if boundedBytes maximumBytes value then .ok value else .error error
  | _ => .error error

/-- `request.get(name)` where it must be a nonempty string. -/
def requiredText (request : Json) (name : String) : Except PyError String :=
  let error := PyError.valueError (name ++ " is required")
  match request.get? name with
  | some (.str value) => if value = "" then .error error else .ok value
  | _ => .error error

/-- `{**request, name: value}`. -/
def withMember (request : Json) (name : String) (value : Json) : Json :=
  match request with
  | .obj members =>
      if members.any fun member => member.1 = name then
        .obj (members.map fun member => if member.1 = name then (name, value) else member)
      else .obj (members ++ [(name, value)])
  | other => other

namespace ControlPlane

variable {Model : Type} (plane : ControlPlane Model)

def policyFamily : String := "agent-decision-routing"

/-- `tenant_namespace`: the first 20 digits of the digest. -/
def tenantNamespace (tenantId : String) : Except PyError String :=
  if tenantId = "" then .error (.valueError "tenant_id must not be empty")
  else .ok (asciiText ((utf8 (plane.store.sha256 (utf8 tenantId))).take 20))

def contentDigest (value : String) : Except PyError Unit :=
  ensure (isSha256 value) (.valueError "content_sha256 must be 64 lowercase hexadecimal characters")

def policyArtifactUri (tenantId contentSha256 : String) : Except PyError String := do
  contentDigest contentSha256
  let directory ← plane.tenantNamespace tenantId
  return "policy-artifact://" ++ directory ++ "/" ++ contentSha256 ++ ".json"

def policyArtifactPath (tenantId contentSha256 : String) : Except PyError ArtifactPath := do
  contentDigest contentSha256
  let directory ← plane.tenantNamespace tenantId
  return (directory, contentSha256)

def resolvePolicyArtifact (tenantId contentSha256 artifactUri : String) :
    Except PyError ArtifactPath := do
  let expected ← plane.policyArtifactUri tenantId contentSha256
  ensure (artifactUri = expected) (.valueError "policy artifact URI is not canonical")
  plane.policyArtifactPath tenantId contentSha256

def maxPolicyBytes : Nat := 64 * 1024 * 1024

/-- `read_verified_policy`. -/
def readVerifiedPolicy (path : ArtifactPath) (expectedSha256 : String) (w : World) :
    Except PyError Bytes := do
  contentDigest expectedSha256
  let encoded ← orRaise (w.files path) (.other "FileNotFoundError" path.2)
  ensure (encoded.length ≤ maxPolicyBytes) (.valueError "policy artifact exceeds size cap")
  ensure (plane.store.sha256 encoded = expectedSha256)
    (.valueError "policy artifact content hash mismatch")
  return encoded

/-- `_load_artifact`: the row is read first, the file after it. -/
def loadArtifact (tenantId artifactId : String) : Op Json := do
  let row ← storeRead (getPolicyArtifact tenantId artifactId)
  let path ← Prog.ofExcept (plane.resolvePolicyArtifact tenantId row.contentSha256 row.artifactUri)
  let encoded ← readWorld (plane.readVerifiedPolicy path row.contentSha256)
  Prog.ofExcept do
    let payload ← orRaise (plane.jsonLoads encoded) (.other "JSONDecodeError" "policy artifact")
    match payload with
    | .obj _ => return payload
    | _ => .error (.valueError "policy artifact must be an object")

/-- `_champion_model`, together with the champion it has read. -/
def championModel (tenantId family : String) : Op (Option String × Model) := do
  let champion ← storeRead fun db => .ok (getChampion tenantId family db)
  match champion with
  | none => return (none, plane.initialModel)
  | some champion => do
      let payload ← plane.loadArtifact tenantId champion.row.artifactId
      let model ← Prog.ofExcept (plane.modelFromPayload payload)
      return (some champion.row.artifactId, model)

/-- The policy file of a model: its path, its bytes and its digest. -/
def encodeArtifact (tenantId family : String) (model : Model) :
    Except PyError (ArtifactPath × Bytes × String) := do
  let payload ← jsonText (plane.modelToPayload model family)
  let encoded := canonicalBytes payload
  let contentHash := plane.store.sha256 encoded
  let path ← plane.policyArtifactPath tenantId contentHash
  return (path, encoded, contentHash)

/-- The file of `_persist_artifact`: written next to its place and renamed into it. -/
def writeArtifact (path : ArtifactPath) (encoded : Bytes) : Op Unit :=
  .exposed fun w => .ok ((), match w.files path with
    | some _ => w
    | none => { w with files := Function.update w.files path (some encoded) })

/-- The registration of `_persist_artifact`. -/
def registerArtifact (now : Int) (tenantId family : String) (model : Model) (contentHash : String)
    (metadata : Json) (db : Db) : Except PyError (ArtifactRow × Db) := do
  let uri ← plane.policyArtifactUri tenantId contentHash
  registerPolicyArtifact now tenantId ("policy-" ++ contentHash) family (plane.modelVersion model)
    contentHash uri (some metadata) db

/-- `opaque_suite_digest`, after the file it has read. -/
def opaqueSuiteDigest : Op (Bytes × String) :=
  readWorld fun w => .ok (w.suite, plane.store.sha256 w.suite)

/-! The idempotency wrapper. -/

def claim (key : OperationKey) (request : Json) (note : List Note) : Op IdempotencyRecord :=
  .atomic fun w => do
    let (record, db) ← plane.store.claimIdempotency w.clock key.tenantId key.scope key.key request
      (some 86400) w.db
    return (record, { w with db, notes := w.notes ++ if record.isNew then note else [] })

/-- The error path: a response that was committed wins over the error. -/
def recoverResponse (key : OperationKey) (request : Json) (error : PyError) : Op Json := do
  let current ← plane.claim key request []
  match current.row.storedResponse with
  | some response => return response
  | none => do
      let _ ← Prog.atomic (onStore fun now db => failIdempotency now key.tenantId key.scope key.key
        (.obj [("error_type", .str error.typeName)]) db)
      throw error

/-- `_idempotent`. -/
def idempotent (call : Nat) (key : OperationKey) (request : Json) (operation : Op Json) : Op Json := do
  let record ← plane.claim key request [.started call key request]
  if record.isNew then
    (do
      let result ← operation
      let _ ← storeCall fun now db =>
        completeIdempotency now key.tenantId key.scope key.key result db
      return result : Op Json).tryCatch (plane.recoverResponse key request)
  else match record.row.storedResponse with
    | some response => return response
    | none => throw (.conflict ("idempotent operation is " ++ record.row.status.text))

end ControlPlane

end AgentTree
