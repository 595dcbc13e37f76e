import AgentTree.ControlFrames
import AgentTree.Pool

/-!
Runs of the control plane: any number of calls at once, a clock, files and a suite
that change under them, and kills followed by `reconcile_startup`.
-/

namespace AgentTree

open Outcome Relational Concurrent

namespace World

/-- The clock, the policy files and the private suite are not the control plane's alone. -/
def Around (s t : World) : Prop := t.db = s.db ∧ t.notes = s.notes

/-- A process that was killed starts again. -/
def Recovers (s t : World) : Prop :=
  ∃ report db, reconcileStartup s.clock s.db = .ok (report, db) ∧ t = { s with db }

end World

/-- The service: the calls by number, and what may change around them. -/
def ControlPlane.service {Model : Type} (plane : ControlPlane Model) (calls : Nat → Call)
    (surroundings : World → World → Prop) : Service Nat World PyError Json where
  call index := plane.perform index (calls index)
  surroundings
  recovery := World.Recovers

theorem World.Recovers.record {s t : World} (recovered : s.Recovers t) (k : String × String × String) :
    t.db.idempotency.find? k = (s.db.idempotency.find? k).map fun row =>
      if row.status = .inProgress then
        { row with
          status := .failed
          result := some interrupted
          updatedAt := s.clock
          expiresAt := none }
      else row := by
  obtain ⟨report, db, ran, rfl⟩ := recovered
  rw [reconcileStartup_cases ran, Table.find?_update]
  simp

theorem World.Recovers.retains {s t : World} (recovered : s.Recovers t) : Retains s.db t.db := by
  obtain ⟨report, db, ran, rfl⟩ := recovered
  rw [reconcileStartup_cases ran]
  exact .of_equal rfl rfl rfl rfl rfl

theorem World.Recovers.same {s t : World} (recovered : s.Recovers t) :
    t.notes = s.notes ∧ t.clock = s.clock ∧ t.db.champions = s.db.champions ∧
      t.db.artifacts = s.db.artifacts ∧ t.db.audit = s.db.audit ∧
      t.db.trainingRuns = s.db.trainingRuns ∧ t.db.events = s.db.events := by
  obtain ⟨report, db, ran, rfl⟩ := recovered
  rw [reconcileStartup_cases ran]
  exact ⟨rfl, rfl, rfl, rfl, rfl, rfl, rfl⟩

/-! A small control plane, on which single runs can be evaluated. -/

namespace Sample

/-- A checksum of the first bytes, which stands in for SHA-256 where a run is evaluated. -/
def checksum (bytes : Bytes) : Nat :=
  (bytes.take 112).foldl (fun sum byte => (sum * 257 + byte.toNat + 1) % 2 ^ 64) 0

def digits : (places : Nat) → Nat → List Char
  | 0, _ => []
  | places + 1, n => Char.ofNat (Json.hexDigit (n % 16)).toNat :: digits places (n / 16)

def hex (bytes : Bytes) : String :=
  "000000000000000000000000000000000000000000000000" ++ String.ofList (digits 16 (checksum bytes))

def hmac (key message : Bytes) : Bytes :=
  List.replicate 24 0 ++ (List.range 8).map fun place =>
    UInt8.ofNat (checksum (key ++ message) / 256 ^ place % 256)

def ring : Keyring := ⟨[("k1", [1, 2, 3])], hmac⟩

def verifier : ReceiptVerifier := ⟨ring, 30⟩

def store : Store := ⟨hex, some verifier, 30⟩

def payload (model : String) : Json := .obj [("model", .str model)]

/-- A control plane whose models are names, and whose training always ends with the same one. -/
def plane : ControlPlane String where
  settings := {
    defaultTenantBudget := 1000
    leaseSeconds := 60
    benchmarkReceiptMaxAgeSeconds := 3600
    minimumHiddenBenchmarkScorePpm := 500000
    hiddenBenchmarkAttemptLimit := 3
    hiddenBenchmarkQuotaWindowSeconds := 86400
    requireSeparationOfDuties := true
    allowedCommands := [] }
  store
  signer := ⟨ring, "k1"⟩
  verifier
  hiddenBenchmark := some "worker"
  runnerConfigured := false
  initialModel := "seed"
  modelFromPayload value := match value.get? "model" with
    | some (.str model) => .ok model
    | _ => .error (.valueError "model")
  modelToPayload model _ := payload model
  modelVersion := id
  search model _ _ := .ok {
    modelVersion := model
    trajectory := ["left"]
    reward := .float "0.5"
    feasible := true
    abstained := false
    benchmarkEvaluations := 1
    experience := fun _ _ run => .obj [("trajectory", .arr [.str run])] }
  trainEpisode _ _ _ := .ok "third"
  promotionReport champion challenger := .ok {
    accepted := true
    reasons := []
    payload := .obj [("champion", .str champion), ("challenger", .str challenger)] }
  jsonLoads encoded :=
    (["first", "second", "third"].map payload).find? (canonicalBytes · = encoded)
  candidateFingerprint path _ := .ok path.2
  rewardInRange _ := true
  pyStr _ := ""

def draws (call : Nat) : Draws where
  uuid place := "uuid-" ++ toString call ++ "-" ++ toString place
  nonce place := "nonce-" ++ toString call ++ "-" ++ toString place
  evidence _ _ _ _ := .error (.other "RunnerError" "")
  hiddenBenchmark _ _ := .error (.other "HiddenBenchmarkError" "")

def world : World := ⟨.empty, 1000, fun _ => none, [], []⟩

/-! A tenant with three artifacts and their benchmarks, whose champion is the second after the first. -/

def digest (model : String) : String := hex (canonicalBytes (payload model))

def artifactId (model : String) : String := "policy-" ++ digest model

def signed (nonce : String) (payload : Json) (purpose tenantId : String) : Json :=
  match plane.signer.sign 1000 nonce payload purpose tenantId none with
  | .ok envelope => envelope
  | .error _ => .null

/-- The receipt of a hidden benchmark of a model on a suite. -/
def receipt (model : String) (suite : Bytes) (score : Int) : Json :=
  signed (model ++ toString suite.length) (.obj [
    ("evidence_kind", .str "hidden-benchmark"),
    ("subject_id", .str (digest model)),
    ("policy_artifact_id", .str (artifactId model)),
    ("policy_content_sha256", .str (digest model)),
    ("aggregate", signed "aggregate" (.obj [
      ("benchmark", .obj [("suite_sha256", .str (hex suite))]),
      ("candidate", .obj [("fingerprint_sha256", .str (digest model))]),
      ("result", .obj [("total", .int 10), ("normalized_score_ppm", .int score)])])
      "hidden-benchmark-aggregate" "worker")]) "evidence" "tenant"

def receiptId (model : String) (suite : Bytes) (score : Int) : String :=
  store.sha256Hex (receipt model suite score)

/-- The database after a transaction, or as it was. -/
def settle (run : Db → Except PyError (α × Db)) (db : Db) : Db :=
  (transact run (fun _ _ => Except.ok ()) db).2

def register (model : String) : Db → Db :=
  settle (plane.registerArtifact 1000 "tenant" ControlPlane.policyFamily model (digest model)
    (.obj [("status", .str "challenger")]))

def install (auditId model : String) (expected : Option String) : Db → Db :=
  settle (promotePolicy 1000 auditId "tenant" ControlPlane.policyFamily (artifactId model)
    (expected.map artifactId) "operator" "initial" none none)

def evaluate (model : String) (suite : Bytes) (score : Int) : Db → Db :=
  settle (store.recordEvidenceReceipt 1000 "tenant" (receipt model suite score) none)

def train (trainedBy model : String) : Db → Db :=
  settle (recordTrainingRun 1000 "tenant" ("training-" ++ model) ControlPlane.policyFamily
    (artifactId model) trainedBy 1 (.obj []))

def prepared : Db :=
  evaluate "second" [1, 2] 600000 <| evaluate "second" [1] 600000 <| evaluate "third" [1] 700000 <|
    train "trainer" "third" <| install "audit-2" "second" (some "first") <|
      install "audit-1" "first" none <| register "third" <| register "second" <| register "first" .empty

theorem settle_chained {run : Db → Except PyError (α × Db)} {db : Db} (chained : db.chained)
    (apart : ∀ value after, run db = .ok (value, after) → Apart db after) : (settle run db).chained :=
  transact_kept Db.chained chained fun value after ran => (apart value after ran).retains.chained chained

theorem prepared_chained : prepared.chained := by
  have registers : ∀ model db, Db.chained db → (register model db).chained := fun _ _ chained =>
    settle_chained chained fun _ _ => ControlPlane.registerArtifact_apart
  have installs : ∀ auditId model expected db, Db.chained db →
      (install auditId model expected db).chained := fun _ _ _ _ chained =>
    settle_chained chained fun _ _ => Apart.promoted
  have evaluates : ∀ model suite score db, Db.chained db → (evaluate model suite score db).chained :=
    fun _ _ _ _ chained => settle_chained chained fun _ _ => Apart.evidenced
  have trains : ∀ trainedBy model db, Db.chained db → (train trainedBy model db).chained :=
    fun _ _ _ chained => settle_chained chained fun _ _ => Apart.trained
  exact evaluates _ _ _ _ (evaluates _ _ _ _ (evaluates _ _ _ _ (trains _ _ _ (installs _ _ _ _
    (installs _ _ _ _ (registers _ _ (registers _ _ (registers _ _ chained_empty))))))))

/-- The policy files are in their places, and the suite is the first one. -/
def ready : World where
  db := prepared
  clock := 1000
  files path := (["first", "second", "third"].find? fun model => digest model = path.2).map fun model =>
    canonicalBytes (payload model)
  suite := [1]
  notes := []

theorem ready_chained : ready.db.chained := by simpa only [ready] using prepared_chained

theorem ready_notes : ready.notes = [] := by simp only [ready]

def promotion (call : Nat) (subjectId : String) (championSuite : Bytes) : Call where
  principal := ⟨"tenant", subjectId⟩
  request := .promote (artifactId "third") (.obj [
    ("hidden_benchmark_receipt_id", .str (receiptId "third" [1] 700000)),
    ("champion_hidden_benchmark_receipt_id", .str (receiptId "second" championSuite 600000))])
  idempotencyKey := "key-" ++ toString call
  draws := draws call

def training (call : Nat) (subjectId : String) : Call where
  principal := ⟨"tenant", subjectId⟩
  request := .trainChallenger (.obj [("episodes", .int 1), ("simulations", .int 8)])
  idempotencyKey := "key-" ++ toString call
  draws := draws call

def rollback (call : Nat) : Call where
  principal := ⟨"tenant", "operator"⟩
  request := .rollback ControlPlane.policyFamily (.obj [])
  idempotencyKey := "key-" ++ toString call
  draws := draws call

end Sample

end AgentTree
