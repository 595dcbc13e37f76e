import AgentTree.ReceiptCore

/-!
The transactions of `SQLiteStore` (`store.py`).  Each definition is the body of
one `with self.transaction()` block: a value of type `Except` that is an error
stands for the rollback.  `now` is the clock reading of the call, and `uuid` the
fresh identifier it draws.
-/

namespace AgentTree

open Outcome Relational

/-- The arguments of the `SQLiteStore` constructor, and SHA-256. -/
structure Store where
  sha256 : Bytes → String
  receiptVerifier : Option ReceiptVerifier
  replayGraceSeconds : Int

def Store.sha256Hex (store : Store) (value : Json) : String := store.sha256 (canonicalBytes value)

/-! Events. -/

/-- `COALESCE(MAX(stream_version), 0)` of one stream. -/
def Db.streamVersion (db : Db) (tenantId streamId : String) : Nat :=
  (db.events.rows.filter fun row => row.tenantId = tenantId && row.streamId = streamId).foldl
    (fun version row => max version row.streamVersion) 0

/-- The next AUTOINCREMENT value; events are never deleted. -/
def Db.nextSequence (db : Db) : Nat :=
  db.events.rows.foldl (fun sequence row => max sequence row.sequence) 0 + 1

/-- The two UNIQUE constraints of the events table beside its key. -/
def Db.eventTaken (db : Db) (row : EventRow) : Bool :=
  db.events.rows.any fun other => other.tenantId = row.tenantId &&
    (other.eventId = row.eventId ||
      (other.streamId = row.streamId && other.streamVersion = row.streamVersion))

def Store.appendEvent (store : Store) (now : Int) (uuid tenantId streamId eventType : String)
    (payload : Json) (eventId : Option String) (expectedStreamVersion : Option Int)
    (occurredAt : Option Int) (db : Db) : Except PyError (EventRow × Db) := do
  required [("tenant_id", tenantId), ("stream_id", streamId), ("event_type", eventType)]
  let payloadJson ← jsonText payload
  let occurred ← timestamp now occurredAt
  let current := db.streamVersion tenantId streamId
  ensure (expectedStreamVersion.all fun expected => (current : Int) = expected)
    (.conflict ("stream version is " ++ toString current ++ ", expected " ++
      toString (expectedStreamVersion.getD 0)))
  bindInteger occurred
  let row : EventRow := {
    sequence := db.nextSequence
    tenantId, streamId, eventType
    eventId := match eventId with
      | some identity => if identity = "" then uuid else identity
      | none => uuid
    streamVersion := current + 1
    occurredAt := occurred
    payload := payloadJson
    payloadSha256 := store.sha256Hex payload
  }
  ensure (!db.eventTaken row) (.conflict "event identity or stream version already exists")
  let events ← orRaise (db.events.insert row) (.conflict "event identity or stream version already exists")
  return (row, { db with events })

/-! Receipts. -/

def Store.claimReplayNonce (store : Store) (now : Int) (tenantId purpose nonce : String)
    (expiresAt : Option Int) (db : Db) : Except PyError (Bool × Db) := do
  required [("tenant_id", tenantId), ("purpose", purpose), ("nonce", nonce)]
  let kept := db.nonces.delete fun row => row.expiresAt.any (· < now)
  let row : NonceRow := {
    tenantId, purpose, nonce
    expiresAt := expiresAt.map (· + store.replayGraceSeconds)
    consumedAt := now
  }
  bindOptional row.expiresAt
  match kept.insert row with
  | some nonces => return (true, { db with nonces })
  | none => return (false, { db with nonces := kept })

def pruneReplayNonces (now : Int) (before : Option Int) (db : Db) : Except PyError (Nat × Db) := do
  let cutoff ← timestamp now before
  bindInteger cutoff
  let expired : NonceRow → Bool := fun row => row.expiresAt.any (· < cutoff)
  return (db.nonces.rows.countP expired, { db with nonces := db.nonces.delete expired })

/-- A text member of an envelope whose shape the verifier has checked. -/
def envelopeText (envelope : Json) (name : String) : Except PyError String :=
  match envelope.get? name with
  | some (.str value) => .ok value
  | _ => .error (.receipt "InvalidEnvelopeError" (name ++ " must be a nonempty string"))

def envelopeInt (envelope : Json) (name : String) : Except PyError Int :=
  match envelope.get? name with
  | some (.int value) => .ok value
  | _ => .error (.receipt "InvalidEnvelopeError" (name ++ " must be a nonnegative integer"))

def envelopeExpiry (envelope : Json) : Except PyError (Option Int) :=
  match envelope.get? "expires_at" with
  | some (.int value) => .ok (some value)
  | some .null => .ok none
  | _ => .error (.receipt "InvalidEnvelopeError" "expires_at must be after issued_at")

def Store.verifyReceipt (store : Store) (now : Int) (tenantId purpose : String) (envelope : Json) :
    Except PyError Json := do
  required [("tenant_id", tenantId)]
  match store.receiptVerifier with
  | none => .error (.configuration "receipt_verifier is required to persist authenticated receipts")
  | some verifier => verifier.verify now envelope (some purpose) (some tenantId)

def Store.claimEnvelopeNonce (store : Store) (now : Int) (envelope : Json) (db : Db) :
    Except PyError Db := do
  let tenantId ← envelopeText envelope "tenant_id"
  let purpose ← envelopeText envelope "purpose"
  let nonce ← envelopeText envelope "nonce"
  let expiresAt ← envelopeExpiry envelope
  let (accepted, db) ← store.claimReplayNonce now tenantId purpose nonce expiresAt db
  ensure accepted (.replayDetected "receipt nonce has already been consumed")
  return db

/-- `_payload_text`. -/
def payloadText (payload : Json) (name : String) : Except PyError String :=
  let error := PyError.storeError ("receipt payload '" ++ name ++ "' must be a nonempty string")
  match payload.get? name with
  | some (.str value) => if value = "" then .error error else .ok value
  | _ => .error error

/-- `_optional_payload_text`. -/
def optionalPayloadText (payload : Json) (name : String) : Except PyError (Option String) :=
  let error := PyError.storeError ("receipt payload '" ++ name ++ "' must be a nonempty string or null")
  match payload.get? name with
  | none | some .null => .ok none
  | some (.str value) => if value = "" then .error error else .ok (some value)
  | _ => .error error

def payloadObject (payload : Json) (kind : String) : Except PyError Unit :=
  match payload with
  | .obj _ => .ok ()
  | _ => .error (.storeError (kind ++ " receipt payload must be an object"))

/-- `receipt_id or sha256_hex(envelope)`. -/
def Store.receiptIdOr (store : Store) (receiptId : Option String) (envelope : Json) : String :=
  match receiptId with
  | some identity => if identity = "" then store.sha256Hex envelope else identity
  | none => store.sha256Hex envelope

def Store.recordEvidenceReceipt (store : Store) (now : Int) (tenantId : String) (envelope : Json)
    (receiptId : Option String) (db : Db) : Except PyError (EvidenceRow × Db) := do
  let envelope ← jsonText envelope
  let payload ← store.verifyReceipt now tenantId "evidence" envelope
  payloadObject payload "evidence"
  let evidenceKind ← payloadText payload "evidence_kind"
  let subjectId ← payloadText payload "subject_id"
  let artifactUri ← optionalPayloadText payload "artifact_uri"
  let contentSha256 ← optionalPayloadText payload "content_sha256"
  ensure (contentSha256.all isSha256)
    (.storeError "SHA-256 values must be 64 lowercase hexadecimal characters")
  let db ← store.claimEnvelopeNonce now envelope db
  let row : EvidenceRow := {
    tenantId
    receiptId := store.receiptIdOr receiptId envelope
    evidenceKind, subjectId, artifactUri, contentSha256
    signerKeyId := ← envelopeText envelope "key_id"
    issuedAt := ← envelopeInt envelope "issued_at"
    expiresAt := ← envelopeExpiry envelope
    envelope
    recordedAt := now
  }
  bindInteger row.issuedAt
  bindOptional row.expiresAt
  let evidence ← orRaise (db.evidence.insert row) (.conflict "evidence receipt already exists")
  return (row, { db with evidence })

def getEvidenceReceipt (tenantId receiptId : String) (db : Db) : Except PyError EvidenceRow := do
  required [("tenant_id", tenantId), ("receipt_id", receiptId)]
  orRaise (db.evidence.find? (tenantId, receiptId)) (.notFound "evidence receipt not found")

/-- The reward check of `record_experience_receipt`; `inRange` compares a float with -1 and 1. -/
def rewardValue (inRange : String → Bool) (payload : Json) : Except PyError Json :=
  let error := PyError.storeError "experience reward must be in [-1, 1]"
  match payload.get? "reward" with
  | some (.int value) =>
      if -1 ≤ value ∧ value ≤ 1 then .ok (.float (toString value ++ ".0")) else .error error
  | some (.float text) => if inRange text then .ok (.float text) else .error error
  | _ => .error (.storeError "experience reward must be numeric")

def Store.recordExperienceReceipt (store : Store) (inRange : String → Bool) (now : Int)
    (tenantId : String) (envelope : Json) (receiptId : Option String) (db : Db) :
    Except PyError (ExperienceRow × Db) := do
  let envelope ← jsonText envelope
  let payload ← store.verifyReceipt now tenantId "experience" envelope
  payloadObject payload "experience"
  let runId ← payloadText payload "run_id"
  let episodeId ← payloadText payload "episode_id"
  let trajectoryHash ← payloadText payload "trajectory_hash"
  sha256Value trajectoryHash
  let reward ← rewardValue inRange payload
  let db ← store.claimEnvelopeNonce now envelope db
  let row : ExperienceRow := {
    tenantId
    receiptId := store.receiptIdOr receiptId envelope
    runId, episodeId, trajectoryHash, reward
    signerKeyId := ← envelopeText envelope "key_id"
    issuedAt := ← envelopeInt envelope "issued_at"
    expiresAt := ← envelopeExpiry envelope
    payload, envelope
    recordedAt := now
  }
  bindInteger row.issuedAt
  bindOptional row.expiresAt
  let taken := db.experience.rows.any fun other =>
    other.tenantId = tenantId && other.runId = runId && other.episodeId = episodeId
  ensure (!taken) (.conflict "experience receipt or episode already exists")
  let experience ← orRaise (db.experience.insert row)
    (.conflict "experience receipt or episode already exists")
  return (row, { db with experience })

/-! Idempotency records. -/

/-- An `IdempotencyRecord`: the row, and whether this claim created it. -/
structure IdempotencyRecord where
  row : IdempotencyRow
  isNew : Bool

def Store.claimIdempotency (store : Store) (now : Int) (tenantId scope key : String) (request : Json)
    (ttlSeconds : Option Int) (db : Db) : Except PyError (IdempotencyRecord × Db) := do
  required [("tenant_id", tenantId), ("scope", scope), ("key", key)]
  ensure (ttlSeconds.all (0 < ·)) (.valueError "ttl_seconds must be positive or None")
  let _ ← jsonText request
  let requestHash := store.sha256Hex request
  let kept := db.idempotency.delete fun row => row.expiresAt.any (· < now)
  match kept.find? (tenantId, scope, key) with
  | some row =>
      ensure (row.requestHash = requestHash)
        (.conflict "idempotency key was used for a different request")
      return (⟨row, false⟩, { db with idempotency := kept })
  | none =>
      let row : IdempotencyRow := {
        tenantId, scope, requestHash
        idempotencyKey := key
        status := .inProgress
        result := none
        createdAt := now
        updatedAt := now
        expiresAt := ttlSeconds.map (now + ·)
      }
      bindOptional row.expiresAt
      let idempotency ← orRaise (kept.insert row) (.other "IntegrityError" "idempotency_records")
      return (⟨row, true⟩, { db with idempotency })

def finishIdempotency (now : Int) (tenantId scope key : String) (status : IdempotencyStatus)
    (result : Json) (db : Db) : Except PyError (IdempotencyRecord × Db) := do
  required [("tenant_id", tenantId), ("scope", scope), ("key", key)]
  let resultJson ← jsonText result
  let row ← orRaise (db.idempotency.find? (tenantId, scope, key))
    (.notFound "idempotency record not found")
  if row.status = .inProgress then
    let finished : IdempotencyRow → IdempotencyRow := fun row =>
      { row with status, result := some resultJson, updatedAt := now }
    return (⟨finished row, false⟩,
      { db with idempotency := db.idempotency.updateAt (tenantId, scope, key) finished fun _ => rfl })
  else if row.status = status ∧ row.result = some resultJson then
    return (⟨row, false⟩, db)
  else
    .error (.conflict "idempotency record is already finalized")

def completeIdempotency (now : Int) (tenantId scope key : String) (result : Json) (db : Db) :
    Except PyError (IdempotencyRecord × Db) :=
  finishIdempotency now tenantId scope key .completed result db

def failIdempotency (now : Int) (tenantId scope key : String) (error : Json) (db : Db) :
    Except PyError (IdempotencyRecord × Db) :=
  finishIdempotency now tenantId scope key .failed error db

/-! Leases.  The methods return `get_lease`, a separate read after the transaction. -/

def acquireLease (now : Int) (tenantId resourceId holderId : String) (ttlSeconds : Int)
    (at? : Option Int) (db : Db) : Except PyError (Unit × Db) := do
  required [("tenant_id", tenantId), ("resource_id", resourceId), ("holder_id", holderId)]
  ensure (0 < ttlSeconds) (.valueError "ttl_seconds must be positive")
  let time ← timestamp now at?
  match db.leases.find? (tenantId, resourceId) with
  | none =>
      bindInteger time
      bindInteger (time + ttlSeconds)
      let row : LeaseRow := {
        tenantId, resourceId
        holderId := some holderId
        fencingToken := 1
        acquiredAt := time
        heartbeatAt := time
        expiresAt := time + ttlSeconds
      }
      let leases ← orRaise (db.leases.insert row) (.other "IntegrityError" "leases")
      return ((), { db with leases })
  | some row =>
      if row.holderId = some holderId ∧ time < row.expiresAt then
        bindInteger (time + ttlSeconds)
        let leases := db.leases.updateAt (tenantId, resourceId) (fun row =>
          { row with heartbeatAt := time, expiresAt := time + ttlSeconds }) fun _ => rfl
        return ((), { db with leases })
      else if row.holderId = none ∨ row.expiresAt ≤ time then
        bindInteger time
        bindInteger (time + ttlSeconds)
        bindInteger (row.fencingToken + 1)
        let leases := db.leases.updateAt (tenantId, resourceId) (fun row =>
          { row with
            holderId := some holderId
            fencingToken := row.fencingToken + 1
            acquiredAt := time
            heartbeatAt := time
            expiresAt := time + ttlSeconds }) fun _ => rfl
        return ((), { db with leases })
      else
        .error (.leaseUnavailable (row.holderId.getD "") row.expiresAt)

def renewLease (now : Int) (tenantId resourceId holderId : String) (fencingToken ttlSeconds : Int)
    (at? : Option Int) (db : Db) : Except PyError (Unit × Db) := do
  ensure (0 < ttlSeconds) (.valueError "ttl_seconds must be positive")
  let time ← timestamp now at?
  bindInteger time
  bindInteger (time + ttlSeconds)
  bindInteger fencingToken
  let stale := PyError.conflict "lease token is stale, released, or expired"
  let row ← orRaise (db.leases.find? (tenantId, resourceId)) stale
  ensure (row.holderId = some holderId && row.fencingToken = fencingToken && time < row.expiresAt) stale
  let leases := db.leases.updateAt (tenantId, resourceId) (fun row =>
    { row with heartbeatAt := time, expiresAt := time + ttlSeconds }) fun _ => rfl
  return ((), { db with leases })

def releaseLease (now : Int) (tenantId resourceId holderId : String) (fencingToken : Int) (db : Db) :
    Except PyError (Unit × Db) := do
  bindInteger fencingToken
  let stale := PyError.conflict "lease token is stale or already released"
  let row ← orRaise (db.leases.find? (tenantId, resourceId)) stale
  ensure (row.holderId = some holderId && row.fencingToken = fencingToken) stale
  let leases := db.leases.updateAt (tenantId, resourceId) (fun row =>
    { row with holderId := none, heartbeatAt := now, expiresAt := now }) fun _ => rfl
  return ((), { db with leases })

def getLease (tenantId resourceId : String) (db : Db) : Except PyError LeaseRow :=
  orRaise (db.leases.find? (tenantId, resourceId)) (.notFound "lease not found")

/-! Budgets. -/

structure BudgetSnapshot where
  tenantId : String
  budgetId : String
  limitUnits : Int
  reservedUnits : Int
  consumedUnits : Int
  availableUnits : Int
  version : Int
  deriving DecidableEq

/-- `_budget`. -/
def BudgetRow.snapshot (row : BudgetRow) : BudgetSnapshot where
  tenantId := row.tenantId
  budgetId := row.budgetId
  limitUnits := row.limitUnits
  reservedUnits := row.reservedUnits
  consumedUnits := row.consumedUnits
  availableUnits := row.limitUnits - row.reservedUnits - row.consumedUnits
  version := row.version

def getBudget (tenantId budgetId : String) (db : Db) : Except PyError BudgetSnapshot := do
  let row ← orRaise (db.budgets.find? (tenantId, budgetId)) (.notFound "budget not found")
  return row.snapshot

def createBudget (now : Int) (tenantId budgetId : String) (limitUnits : Int) (db : Db) :
    Except PyError (Unit × Db) := do
  required [("tenant_id", tenantId), ("budget_id", budgetId)]
  nonnegativeInt limitUnits "limit_units"
  match db.budgets.find? (tenantId, budgetId) with
  | some row =>
      ensure (row.limitUnits = limitUnits) (.conflict "budget already exists with a different limit")
      return ((), db)
  | none =>
      bindInteger limitUnits
      let row : BudgetRow := {
        tenantId, budgetId, limitUnits
        reservedUnits := 0
        consumedUnits := 0
        version := 0
        createdAt := now
        updatedAt := now
      }
      let budgets ← orRaise (db.budgets.insert row) (.other "IntegrityError" "budgets")
      return ((), { db with budgets })

def reserveBudget (now : Int) (tenantId budgetId reservationId : String) (units : Int) (db : Db) :
    Except PyError (BudgetSnapshot × Db) := do
  required [("tenant_id", tenantId), ("budget_id", budgetId), ("reservation_id", reservationId)]
  positiveInt units "units"
  match db.reservations.find? (tenantId, budgetId, reservationId) with
  | some existing =>
      ensure (existing.units = units) (.conflict "reservation ID was used for a different amount")
      return (← getBudget tenantId budgetId db, db)
  | none =>
      let budget ← orRaise (db.budgets.find? (tenantId, budgetId)) (.notFound "budget not found")
      let available := budget.limitUnits - budget.reservedUnits - budget.consumedUnits
      ensure (units ≤ available) (.budgetExceeded units available)
      let budgets := db.budgets.updateAt (tenantId, budgetId) (fun row =>
        { row with
          reservedUnits := row.reservedUnits + units
          version := row.version + 1
          updatedAt := now }) fun _ => rfl
      let row : ReservationRow := {
        tenantId, budgetId, reservationId, units
        status := .reserved
        createdAt := now
        updatedAt := now
      }
      let reservations ← orRaise (db.reservations.insert row)
        (.other "IntegrityError" "budget_reservations")
      let after := { db with budgets, reservations }
      return (← getBudget tenantId budgetId after, after)

def ReservationStatus.text : ReservationStatus → String
  | reserved => "RESERVED"
  | consumed => "CONSUMED"
  | released => "RELEASED"

def transitionReservation (now : Int) (tenantId budgetId reservationId : String)
    (target : ReservationStatus) (db : Db) : Except PyError (BudgetSnapshot × Db) := do
  let reservation ← orRaise (db.reservations.find? (tenantId, budgetId, reservationId))
    (.notFound "budget reservation not found")
  if reservation.status = target then
    return (← getBudget tenantId budgetId db, db)
  else
    ensure (reservation.status = .reserved)
      (.conflict ("cannot change " ++ reservation.status.text ++ " reservation to " ++ target.text))
    let units := reservation.units
    let consumedDelta := if target = .consumed then units else 0
    let budgets := db.budgets.updateAt (tenantId, budgetId) (fun row =>
      { row with
        reservedUnits := row.reservedUnits - units
        consumedUnits := row.consumedUnits + consumedDelta
        version := row.version + 1
        updatedAt := now }) fun _ => rfl
    let reservations := db.reservations.updateAt (tenantId, budgetId, reservationId) (fun row =>
      { row with status := target, updatedAt := now }) fun _ => rfl
    let after := { db with budgets, reservations }
    return (← getBudget tenantId budgetId after, after)

def consumeBudget (now : Int) (tenantId budgetId reservationId : String) (db : Db) :
    Except PyError (BudgetSnapshot × Db) :=
  transitionReservation now tenantId budgetId reservationId .consumed db

def releaseBudget (now : Int) (tenantId budgetId reservationId : String) (db : Db) :
    Except PyError (BudgetSnapshot × Db) :=
  transitionReservation now tenantId budgetId reservationId .released db

/-! Policy artifacts, training runs and promotions. -/

def registerPolicyArtifact (now : Int) (tenantId artifactId policyName version contentSha256
    artifactUri : String) (metadata : Option Json) (db : Db) : Except PyError (ArtifactRow × Db) := do
  required [("tenant_id", tenantId), ("artifact_id", artifactId), ("policy_name", policyName),
    ("version", version), ("artifact_uri", artifactUri)]
  sha256Value contentSha256
  let metadataJson ← jsonText (metadata.getD (.obj []))
  match db.artifacts.find? (tenantId, artifactId) with
  | some existing =>
      ensure (existing.policyName = policyName && existing.version = version &&
          existing.contentSha256 = contentSha256 && existing.artifactUri = artifactUri &&
          existing.metadata = metadataJson)
        (.conflict "artifact ID is bound to different immutable content")
      return (existing, db)
  | none =>
      let row : ArtifactRow := {
        tenantId, artifactId, policyName, version, contentSha256, artifactUri
        metadata := metadataJson
        registeredAt := now
      }
      let taken := db.artifacts.rows.any fun other =>
        other.tenantId = tenantId && other.policyName = policyName && other.version = version
      ensure (!taken) (.conflict "policy version already exists")
      let artifacts ← orRaise (db.artifacts.insert row) (.conflict "policy version already exists")
      return (row, { db with artifacts })

def getPolicyArtifact (tenantId artifactId : String) (db : Db) : Except PyError ArtifactRow :=
  orRaise (db.artifacts.find? (tenantId, artifactId)) (.notFound "policy artifact not found")

def recordTrainingRun (now : Int) (tenantId trainingId policyName artifactId trainedBy : String)
    (leaseFencingToken : Int) (report : Json) (db : Db) : Except PyError (TrainingRow × Db) := do
  required [("tenant_id", tenantId), ("training_id", trainingId), ("policy_name", policyName),
    ("artifact_id", artifactId), ("trained_by", trainedBy)]
  positiveInt leaseFencingToken "lease_fencing_token"
  let reportJson ← jsonText report
  match db.trainingRuns.find? (tenantId, trainingId) with
  | some existing =>
      ensure (existing.policyName = policyName && existing.artifactId = artifactId &&
          existing.trainedBy = trainedBy && existing.leaseFencingToken = leaseFencingToken &&
          existing.report = reportJson)
        (.conflict "training ID is bound to different immutable provenance")
      return (existing, db)
  | none =>
      let artifact ← orRaise (db.artifacts.find? (tenantId, artifactId))
        (.notFound "trained policy artifact not found")
      ensure (artifact.policyName = policyName)
        (.conflict "trained artifact belongs to a different policy")
      let row : TrainingRow := {
        tenantId, trainingId, policyName, artifactId, trainedBy, leaseFencingToken
        report := reportJson
        createdAt := now
      }
      bindInteger leaseFencingToken
      let trainingRuns ← orRaise (db.trainingRuns.insert row)
        (.conflict "training provenance identity already exists")
      return (row, { db with trainingRuns })

/-- Every producer of one artifact. -/
def trainingProducers (tenantId artifactId : String) (db : Db) : List String :=
  ((db.trainingRuns.rows.filter fun row =>
    row.tenantId = tenantId && row.artifactId = artifactId).map TrainingRow.trainedBy).dedup

/-- `SELECT * FROM promotion_audit WHERE tenant_id=? AND policy_name=? AND generation=?`. -/
def Db.promotionAt (db : Db) (tenantId policyName : String) (generation : Nat) : Option Promotion :=
  db.audit.rows.find? fun row =>
    row.tenantId = tenantId && row.policyName = policyName && row.generation = generation

def promotePolicy (now : Int) (uuid tenantId policyName artifactId : String)
    (expectedCurrentArtifactId : Option String) (decidedBy reason : String)
    (benchmarkReceiptId auditId : Option String) (db : Db) : Except PyError (Promotion × Db) := do
  required [("tenant_id", tenantId), ("policy_name", policyName), ("artifact_id", artifactId),
    ("decided_by", decidedBy), ("reason", reason)]
  let artifact ← orRaise (db.artifacts.find? (tenantId, artifactId))
    (.notFound "candidate policy artifact not found")
  ensure (artifact.policyName = policyName) (.conflict "artifact belongs to a different policy")
  let current := db.champions.find? (tenantId, policyName)
  let currentId := current.map ChampionRow.artifactId
  ensure (expectedCurrentArtifactId = currentId) (.championMismatch currentId expectedCurrentArtifactId)
  if currentId = some artifactId then
    -- `_promotion(None)` raises; the registry is trusted to name an audited generation.
    let audit ← orRaise (db.promotionAt tenantId policyName ((current.map ChampionRow.generation).getD 0))
      (.other "TypeError" "'NoneType' object is not iterable")
    return (audit, db)
  else
    let generation := match current with
      | none => 1
      | some row => row.generation + 1
    let champion : ChampionRow := { tenantId, policyName, artifactId, generation, promotedAt := now }
    let champions := db.champions.upsert champion (fun row =>
      { row with artifactId, generation, promotedAt := now }) fun _ => rfl
    let audit : Promotion := {
      auditId := match auditId with
        | some identity => if identity = "" then uuid else identity
        | none => uuid
      tenantId, policyName, artifactId, generation, decidedBy, reason, benchmarkReceiptId
      previousArtifactId := currentId
      promotedAt := now
    }
    ensure (db.promotionAt tenantId policyName generation).isNone
      (.conflict "promotion audit identity already exists")
    let audits ← orRaise (db.audit.insert audit) (.conflict "promotion audit identity already exists")
    return (audit, { db with champions, audit := audits })

/-- The champion row with the columns of its artifact, as `get_champion` joins them. -/
structure Champion where
  row : ChampionRow
  artifact : ArtifactRow
  deriving DecidableEq

def getChampion (tenantId policyName : String) (db : Db) : Option Champion := do
  let row ← db.champions.find? (tenantId, policyName)
  let artifact ← db.artifacts.find? (tenantId, row.artifactId)
  return ⟨row, artifact⟩

def getPromotionAtGeneration (tenantId policyName : String) (generation : Nat) (db : Db) :
    Except PyError (Option Promotion) := do
  ensure (1 ≤ generation) (.valueError "generation must be a positive integer")
  bindInteger generation
  return db.promotionAt tenantId policyName generation

/-! Startup recovery. -/

structure RecoveryReport where
  failedIdempotencyRecords : Nat
  releasedBudgetReservations : Nat
  releasedBudgetUnits : Int
  releasedLeases : Nat
  deriving DecidableEq

/-- The sum of one budget's reservations with one status. -/
def Db.unitsWith (db : Db) (status : ReservationStatus) (tenantId budgetId : String) : Int :=
  db.reservations.total fun row =>
    if row.tenantId = tenantId ∧ row.budgetId = budgetId ∧ row.status = status then row.units else 0

/-- The units of every reservation that is still held, over all budgets. -/
def Db.heldUnits (db : Db) : Int :=
  db.reservations.total fun row => if row.status = .reserved then row.units else 0

/-- SQLite's SUM raises when it leaves the 64-bit range. -/
def sumInRange (value : Int) : Bool := value < 2 ^ 63

/-- The result that recovery writes into an interrupted record. -/
def interrupted : Json :=
  .obj [("error_type", .str "InterruptedOperation"), ("retry_safe", .bool false)]

def BudgetRow.accounted (db : Db) (row : BudgetRow) : Bool :=
  row.reservedUnits = db.unitsWith .reserved row.tenantId row.budgetId &&
    row.consumedUnits = db.unitsWith .consumed row.tenantId row.budgetId

def BudgetRow.summable (db : Db) (row : BudgetRow) : Bool :=
  sumInRange (db.unitsWith .reserved row.tenantId row.budgetId) &&
    sumInRange (db.unitsWith .consumed row.tenantId row.budgetId)

def reconcileStartup (now : Int) (db : Db) : Except PyError (RecoveryReport × Db) := do
  let interruptedJson ← jsonText interrupted
  ensure (db.budgets.rows.all (BudgetRow.summable db)) (.other "OperationalError" "integer overflow")
  ensure (db.budgets.rows.all (BudgetRow.accounted db))
    (.storeError "budget accounting mismatch; startup recovery aborted")
  ensure (sumInRange db.heldUnits) (.other "OperationalError" "integer overflow")
  let releasedReservations := db.reservations.rows.countP fun row => row.status = .reserved
  let idempotency := db.idempotency.update (fun row => row.status = .inProgress) (fun row =>
    { row with status := .failed, result := some interruptedJson, updatedAt := now, expiresAt := none })
    fun _ => rfl
  let reservations := if releasedReservations = 0 then db.reservations else
    db.reservations.update (fun row => row.status = .reserved) (fun row =>
      { row with status := .released, updatedAt := now }) fun _ => rfl
  let budgets := if releasedReservations = 0 then db.budgets else
    db.budgets.update (fun row => 0 < row.reservedUnits) (fun row =>
      { row with reservedUnits := 0, version := row.version + 1, updatedAt := now }) fun _ => rfl
  let leases := db.leases.update (fun row => row.holderId.isSome) (fun row =>
    { row with holderId := none, heartbeatAt := now, expiresAt := now }) fun _ => rfl
  let report : RecoveryReport := {
    failedIdempotencyRecords := db.idempotency.rows.countP fun row => row.status = .inProgress
    releasedBudgetReservations := releasedReservations
    releasedBudgetUnits := db.heldUnits
    releasedLeases := db.leases.rows.countP fun row => row.holderId.isSome
  }
  return (report, { db with idempotency, reservations, budgets, leases })

end AgentTree
