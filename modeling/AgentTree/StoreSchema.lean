import AgentTree.Json
import AgentTree.Outcome
import AgentTree.Table

/-!
The tables of the SQLite store and the exceptions its methods raise.  A TEXT
column that holds JSON is modelled by the canonical JSON value of that text.
-/

namespace AgentTree

open Outcome Relational

/-- The exceptions that the store and the control plane raise or see. -/
inductive PyError : Type
  | valueError (message : String)
  | storeError (message : String)
  | configuration (message : String)
  | conflict (message : String)
  | championMismatch (current expected : Option String)
  | leaseUnavailable (holderId : String) (expiresAt : Int)
  | budgetExceeded (units available : Int)
  | notFound (message : String)
  | replayDetected (message : String)
  | receipt (typeName message : String)
  | overflow (message : String)
  | other (typeName message : String)
  deriving DecidableEq

/-- `isinstance(error, ConflictError)`. -/
def PyError.isConflict : PyError → Bool
  | conflict _ | championMismatch _ _ | leaseUnavailable _ _ | budgetExceeded _ _ => true
  | _ => false

def PyError.isNotFound : PyError → Bool
  | notFound _ => true
  | _ => false

/-- `type(error).__name__`. -/
def PyError.typeName : PyError → String
  | valueError _ => "ValueError"
  | storeError _ => "StoreError"
  | configuration _ => "StoreConfigurationError"
  | conflict _ | championMismatch _ _ => "ConflictError"
  | leaseUnavailable _ _ => "LeaseUnavailableError"
  | budgetExceeded _ _ => "BudgetExceededError"
  | notFound _ => "NotFoundError"
  | replayDetected _ => "ReplayDetectedError"
  | receipt typeName _ => typeName
  | overflow _ => "OverflowError"
  | other typeName _ => typeName

structure EventRow where
  sequence : Nat
  tenantId : String
  eventId : String
  streamId : String
  streamVersion : Nat
  eventType : String
  occurredAt : Int
  payload : Json
  payloadSha256 : String
  deriving DecidableEq

structure NonceRow where
  tenantId : String
  purpose : String
  nonce : String
  expiresAt : Option Int
  consumedAt : Int
  deriving DecidableEq

structure EvidenceRow where
  tenantId : String
  receiptId : String
  evidenceKind : String
  subjectId : String
  artifactUri : Option String
  contentSha256 : Option String
  signerKeyId : String
  issuedAt : Int
  expiresAt : Option Int
  envelope : Json
  recordedAt : Int
  deriving DecidableEq

structure ExperienceRow where
  tenantId : String
  receiptId : String
  runId : String
  episodeId : String
  trajectoryHash : String
  reward : Json
  signerKeyId : String
  issuedAt : Int
  expiresAt : Option Int
  payload : Json
  envelope : Json
  recordedAt : Int
  deriving DecidableEq

inductive IdempotencyStatus : Type
  | inProgress
  | completed
  | failed
  deriving DecidableEq

structure IdempotencyRow where
  tenantId : String
  scope : String
  idempotencyKey : String
  requestHash : String
  status : IdempotencyStatus
  result : Option Json
  createdAt : Int
  updatedAt : Int
  expiresAt : Option Int
  deriving DecidableEq

structure LeaseRow where
  tenantId : String
  resourceId : String
  holderId : Option String
  fencingToken : Int
  acquiredAt : Int
  heartbeatAt : Int
  expiresAt : Int
  deriving DecidableEq

structure BudgetRow where
  tenantId : String
  budgetId : String
  limitUnits : Int
  reservedUnits : Int
  consumedUnits : Int
  version : Int
  createdAt : Int
  updatedAt : Int
  deriving DecidableEq

inductive ReservationStatus : Type
  | reserved
  | consumed
  | released
  deriving DecidableEq

structure ReservationRow where
  tenantId : String
  budgetId : String
  reservationId : String
  units : Int
  status : ReservationStatus
  createdAt : Int
  updatedAt : Int
  deriving DecidableEq

structure ArtifactRow where
  tenantId : String
  artifactId : String
  policyName : String
  version : String
  contentSha256 : String
  artifactUri : String
  metadata : Json
  registeredAt : Int
  deriving DecidableEq

structure TrainingRow where
  tenantId : String
  trainingId : String
  policyName : String
  artifactId : String
  trainedBy : String
  leaseFencingToken : Int
  report : Json
  createdAt : Int
  deriving DecidableEq

structure ChampionRow where
  tenantId : String
  policyName : String
  artifactId : String
  generation : Nat
  promotedAt : Int
  deriving DecidableEq

/-- A row of `promotion_audit`, which is also the `Promotion` the store returns. -/
structure Promotion where
  auditId : String
  tenantId : String
  policyName : String
  artifactId : String
  previousArtifactId : Option String
  generation : Nat
  decidedBy : String
  reason : String
  benchmarkReceiptId : Option String
  promotedAt : Int
  deriving DecidableEq

/-! The primary keys. -/

abbrev EventRow.key (row : EventRow) : Nat := row.sequence
abbrev NonceRow.key (row : NonceRow) : String × String × String := (row.tenantId, row.purpose, row.nonce)
abbrev EvidenceRow.key (row : EvidenceRow) : String × String := (row.tenantId, row.receiptId)
abbrev ExperienceRow.key (row : ExperienceRow) : String × String := (row.tenantId, row.receiptId)
abbrev IdempotencyRow.key (row : IdempotencyRow) : String × String × String :=
  (row.tenantId, row.scope, row.idempotencyKey)
abbrev LeaseRow.key (row : LeaseRow) : String × String := (row.tenantId, row.resourceId)
abbrev BudgetRow.key (row : BudgetRow) : String × String := (row.tenantId, row.budgetId)
abbrev ReservationRow.key (row : ReservationRow) : String × String × String :=
  (row.tenantId, row.budgetId, row.reservationId)
abbrev ArtifactRow.key (row : ArtifactRow) : String × String := (row.tenantId, row.artifactId)
abbrev TrainingRow.key (row : TrainingRow) : String × String := (row.tenantId, row.trainingId)
abbrev ChampionRow.key (row : ChampionRow) : String × String := (row.tenantId, row.policyName)
abbrev Promotion.key (row : Promotion) : String × String := (row.tenantId, row.auditId)

structure Db where
  events : Table _ _ EventRow.key
  nonces : Table _ _ NonceRow.key
  evidence : Table _ _ EvidenceRow.key
  experience : Table _ _ ExperienceRow.key
  idempotency : Table _ _ IdempotencyRow.key
  leases : Table _ _ LeaseRow.key
  budgets : Table _ _ BudgetRow.key
  reservations : Table _ _ ReservationRow.key
  artifacts : Table _ _ ArtifactRow.key
  trainingRuns : Table _ _ TrainingRow.key
  champions : Table _ _ ChampionRow.key
  audit : Table _ _ Promotion.key

/-- The database after the migrations of a new store. -/
def Db.empty : Db :=
  ⟨.empty, .empty, .empty, .empty, .empty, .empty, .empty, .empty, .empty, .empty, .empty, .empty⟩

/-! Argument checks. -/

/-- `_required`: the first empty argument is named by the error. -/
def required : List (String × String) → Except PyError Unit
  | [] => .ok ()
  | (name, value) :: rest =>
      if value = "" then .error (.valueError (name ++ " must be a nonempty string"))
      else required rest

theorem required_eq_error {arguments : List (String × String)} {error : PyError}
    (raised : required arguments = .error error) : ∃ message, error = .valueError message := by
  induction arguments with
  | nil => simp [required] at raised
  | cons argument rest ih =>
      simp only [required] at raised
      split at raised
      · exact ⟨_, (Except.error.inj raised).symm⟩
      · exact ih raised

def positiveInt (value : Int) (name : String) : Except PyError Unit :=
  ensure (0 < value) (.valueError (name ++ " must be a positive integer"))

def nonnegativeInt (value : Int) (name : String) : Except PyError Unit :=
  ensure (0 ≤ value) (.valueError (name ++ " must be a nonnegative integer"))

/-- `_timestamp`: a caller's time, or the clock. -/
def timestamp (now : Int) (value : Option Int) : Except PyError Int :=
  if 0 ≤ value.getD now then .ok (value.getD now)
  else .error (.valueError "timestamp must be a nonnegative integer")

/-- SQLite stores 64-bit integers; binding a wider one raises. -/
def bindInteger (value : Int) : Except PyError Unit :=
  ensure (-(2 ^ 63) ≤ value && value < 2 ^ 63)
    (.overflow "Python int too large to convert to SQLite INTEGER")

def bindOptional : Option Int → Except PyError Unit
  | some value => bindInteger value
  | none => .ok ()

/-- `_sha256`: 64 lowercase hexadecimal characters. -/
def isSha256 (value : String) : Bool :=
  (utf8 value).length = 64 && (utf8 value).all fun b => (0x30 ≤ b && b ≤ 0x39) || (0x61 ≤ b && b ≤ 0x66)

def sha256Value (value : String) : Except PyError Unit :=
  ensure (isSha256 value) (.storeError "SHA-256 values must be 64 lowercase hexadecimal characters")

/-- `_json_text`: the canonical value, or an error for a value that is not canonical JSON. -/
def jsonText (value : Json) : Except PyError Json :=
  if value.valid then .ok value.canonical
  else .error (.receipt "InvalidEnvelopeError" "non-finite floats are forbidden")

end AgentTree
