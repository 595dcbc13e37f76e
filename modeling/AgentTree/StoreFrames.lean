import AgentTree.StoreCore

/-!
What each transaction of the store can write, told apart by its exits.
-/

namespace AgentTree

open Outcome Relational

theorem jsonText_eq {value canonical : Json} (text : jsonText value = .ok canonical) :
    canonical = value.canonical := by
  unfold jsonText at text
  split at text
  · exact (Except.ok.inj text).symm
  · simp at text

theorem appendEvent_cases {store : Store} {now : Int} {uuid tenantId streamId eventType : String}
    {payload : Json} {eventId : Option String} {expected occurredAt : Option Int} {db after : Db}
    {row : EventRow}
    (ran : store.appendEvent now uuid tenantId streamId eventType payload eventId expected occurredAt db =
      .ok (row, after)) :
    ∃ events, db.events.insert row = some events ∧ after = { db with events } ∧
      row.sequence = db.nextSequence ∧ row.tenantId = tenantId ∧ row.streamId = streamId ∧
      row.eventType = eventType ∧ row.payload = payload.canonical := by
  simp only [Store.appendEvent, bind_eq_ok, pure_eq_ok, orRaise_eq_ok, Prod.mk.injEq] at ran
  obtain ⟨_, _, json, text, _, _, _, _, _, _, _, _, events, inserted, rfl, rfl⟩ := ran
  exact ⟨events, inserted, rfl, rfl, rfl, rfl, rfl, jsonText_eq text⟩

/-- The nonce table without the rows that are too old for the clock. -/
def Db.retained (db : Db) (now : Int) : Table _ _ NonceRow.key :=
  db.nonces.delete fun row => row.expiresAt.any (· < now)

theorem pruneReplayNonces_ok {now : Int} {before : Option Int} {db after : Db} {count : Nat}
    (ran : pruneReplayNonces now before db = .ok (count, after)) :
    after = { db with nonces := db.retained (before.getD now) } := by
  simp only [pruneReplayNonces, timestamp, bind_eq_ok, pure_eq_ok, Prod.mk.injEq] at ran
  obtain ⟨cutoff, time, _, _, _, rfl⟩ := ran
  split at time
  · obtain rfl := Except.ok.inj time
    rfl
  · simp at time

theorem claimReplayNonce_cases {store : Store} {now : Int} {tenantId purpose nonce : String}
    {expiresAt : Option Int} {db after : Db} {accepted : Bool}
    (ran : store.claimReplayNonce now tenantId purpose nonce expiresAt db = .ok (accepted, after)) :
    ∃ nonces, after = { db with nonces } := by
  simp only [Store.claimReplayNonce, bind_eq_ok] at ran
  obtain ⟨_, _, _, _, ran⟩ := ran
  split at ran
  · simp only [pure_eq_ok, Prod.mk.injEq] at ran
    exact ⟨_, ran.2.symm⟩
  · simp only [pure_eq_ok, Prod.mk.injEq] at ran
    exact ⟨_, ran.2.symm⟩

theorem claimReplayNonce_ok {store : Store} {clock : Int} {db after : Db} {tenantId purpose nonce : String} {expiresAt : Option Int} {accepted : Bool}
    (ran : store.claimReplayNonce clock tenantId purpose nonce expiresAt db = .ok (accepted, after)) :
    ∃ nonces, after = { db with nonces } ∧
      if accepted then
        (db.retained clock).insert ⟨tenantId, purpose, nonce,
          expiresAt.map (· + store.replayGraceSeconds), clock⟩ = some nonces
      else nonces = db.retained clock := by
  simp only [Store.claimReplayNonce, bind_eq_ok] at ran
  obtain ⟨_, _, _, _, ran⟩ := ran
  split at ran
  next nonces inserted =>
    simp only [pure_eq_ok, Prod.mk.injEq] at ran
    obtain ⟨rfl, rfl⟩ := ran
    exact ⟨nonces, rfl, inserted⟩
  next =>
    simp only [pure_eq_ok, Prod.mk.injEq] at ran
    obtain ⟨rfl, rfl⟩ := ran
    exact ⟨_, rfl, rfl⟩

theorem claimEnvelopeNonce_cases {store : Store} {now : Int} {envelope : Json} {db after : Db}
    (ran : store.claimEnvelopeNonce now envelope db = .ok after) :
    ∃ nonces, after = { db with nonces } := by
  simp only [Store.claimEnvelopeNonce, bind_eq_ok, pure_eq_ok, Prod.exists] at ran
  obtain ⟨_, _, _, _, _, _, _, _, _, _, claimed, _, _, rfl⟩ := ran
  exact claimReplayNonce_cases claimed

theorem recordEvidenceReceipt_cases {store : Store} {now : Int} {tenantId : String} {envelope : Json}
    {receiptId : Option String} {db after : Db} {row : EvidenceRow}
    (ran : store.recordEvidenceReceipt now tenantId envelope receiptId db = .ok (row, after)) :
    ∃ nonces evidence, db.evidence.insert row = some evidence ∧
      after = { db with nonces, evidence } ∧ row.tenantId = tenantId ∧
      row.envelope = envelope.canonical := by
  simp only [Store.recordEvidenceReceipt, bind_eq_ok, pure_eq_ok, orRaise_eq_ok, Prod.mk.injEq] at ran
  obtain ⟨json, text, _, _, _, _, _, _, _, _, _, _, _, _, _, _, _, claimed, _, _, _, _, _, _, _, _,
    _, _, evidence, inserted, rfl, rfl⟩ := ran
  obtain ⟨nonces, rfl⟩ := claimEnvelopeNonce_cases claimed
  exact ⟨nonces, evidence, inserted, rfl, rfl, jsonText_eq text⟩

theorem recordExperienceReceipt_cases {store : Store} {inRange : String → Bool} {now : Int}
    {tenantId : String} {envelope : Json} {receiptId : Option String} {db after : Db}
    {row : ExperienceRow}
    (ran : store.recordExperienceReceipt inRange now tenantId envelope receiptId db = .ok (row, after)) :
    ∃ nonces experience, after = { db with nonces, experience } := by
  simp only [Store.recordExperienceReceipt, bind_eq_ok, pure_eq_ok, orRaise_eq_ok,
    Prod.mk.injEq] at ran
  obtain ⟨_, _, _, _, _, _, _, _, _, _, _, _, _, _, _, _, _, claimed, _, _, _, _, _, _, _, _,
    _, _, _, _, experience, _, rfl, rfl⟩ := ran
  obtain ⟨nonces, rfl⟩ := claimEnvelopeNonce_cases claimed
  exact ⟨nonces, experience, rfl⟩

/-- The idempotency table without the expired records. -/
def Db.unexpired (db : Db) (now : Int) : Table _ _ IdempotencyRow.key :=
  db.idempotency.delete fun row => row.expiresAt.any (· < now)

theorem claimIdempotency_cases {store : Store} {now : Int} {tenantId scope key : String}
    {request : Json} {ttlSeconds : Option Int} {db after : Db} {record : IdempotencyRecord}
    (ran : store.claimIdempotency now tenantId scope key request ttlSeconds db = .ok (record, after)) :
    (record.isNew = false ∧ (db.unexpired now).find? (tenantId, scope, key) = some record.row ∧
      record.row.requestHash = store.sha256Hex request ∧
      after = { db with idempotency := db.unexpired now }) ∨
    (record.isNew = true ∧ (db.unexpired now).find? (tenantId, scope, key) = none ∧
      record.row = {
        tenantId, scope
        idempotencyKey := key
        requestHash := store.sha256Hex request
        status := .inProgress
        result := none
        createdAt := now
        updatedAt := now
        expiresAt := ttlSeconds.map (now + ·) } ∧
      ∃ idempotency, (db.unexpired now).insert record.row = some idempotency ∧
        after = { db with idempotency }) := by
  simp only [Store.claimIdempotency, bind_eq_ok] at ran
  obtain ⟨_, _, _, _, _, _, ran⟩ := ran
  split at ran
  next row found =>
    simp only [bind_eq_ok, pure_eq_ok, ensure_eq_ok, decide_eq_true_eq, Prod.mk.injEq] at ran
    obtain ⟨_, same, rfl, rfl⟩ := ran
    exact .inl ⟨rfl, found, same, rfl⟩
  next absent =>
    simp only [bind_eq_ok, pure_eq_ok, orRaise_eq_ok, Prod.mk.injEq] at ran
    obtain ⟨_, _, idempotency, inserted, rfl, rfl⟩ := ran
    exact .inr ⟨rfl, absent, rfl, idempotency, inserted, rfl⟩

/-- A claim that has to agree with a record of the same request does not raise. -/
theorem claimIdempotency_found {store : Store} {now : Int} {tenantId scope key : String}
    {request : Json} {ttlSeconds : Option Int} {db : Db} {row : IdempotencyRow}
    (named : required [("tenant_id", tenantId), ("scope", scope), ("key", key)] = .ok ())
    (lifetime : ttlSeconds.all (0 < ·) = true) (valid : request.valid = true)
    (found : (db.unexpired now).find? (tenantId, scope, key) = some row)
    (same : row.requestHash = store.sha256Hex request) :
    store.claimIdempotency now tenantId scope key request ttlSeconds db =
      .ok (⟨row, false⟩, { db with idempotency := db.unexpired now }) := by
  rw [Db.unexpired] at found
  simp [Store.claimIdempotency, named, lifetime, ensure, jsonText, valid, found, same, Db.unexpired, bind,
    Except.bind, pure, Except.pure]

/-- A claim only succeeds for a named key and a JSON request. -/
theorem claimIdempotency_checked {store : Store} {now : Int} {tenantId scope key : String}
    {request : Json} {ttlSeconds : Option Int} {db after : Db} {record : IdempotencyRecord}
    (ran : store.claimIdempotency now tenantId scope key request ttlSeconds db = .ok (record, after)) :
    required [("tenant_id", tenantId), ("scope", scope), ("key", key)] = .ok () ∧
      request.valid = true := by
  simp only [Store.claimIdempotency, bind_eq_ok] at ran
  obtain ⟨_, named, _, _, _, text, _⟩ := ran
  refine ⟨named, ?_⟩
  unfold jsonText at text
  split at text
  next valid => exact valid
  next => simp at text

theorem finishIdempotency_cases {now : Int} {tenantId scope key : String} {status : IdempotencyStatus}
    {result : Json} {db after : Db} {record : IdempotencyRecord}
    (ran : finishIdempotency now tenantId scope key status result db = .ok (record, after)) :
    ∃ row, db.idempotency.find? (tenantId, scope, key) = some row ∧
      ((row.status = .inProgress ∧
        after = { db with idempotency := db.idempotency.updateAt (tenantId, scope, key) (fun row =>
          { row with status, result := some result.canonical, updatedAt := now }) fun _ => rfl }) ∨
      (row.status = status ∧ row.result = some result.canonical ∧ after = db)) := by
  simp only [finishIdempotency, bind_eq_ok, orRaise_eq_ok] at ran
  obtain ⟨_, _, json, text, row, found, ran⟩ := ran
  obtain rfl := jsonText_eq text
  refine ⟨row, found, ?_⟩
  split at ran
  next running =>
    simp only [pure_eq_ok, Prod.mk.injEq] at ran
    exact .inl ⟨running, ran.2.symm⟩
  next =>
    split at ran
    next finished =>
      simp only [pure_eq_ok, Prod.mk.injEq] at ran
      exact .inr ⟨finished.1, finished.2, ran.2.symm⟩
    next => simp at ran

theorem finishIdempotency_running (now : Int) (status : IdempotencyStatus) {tenantId scope key : String}
    {result : Json} {db : Db} {row : IdempotencyRow}
    (named : required [("tenant_id", tenantId), ("scope", scope), ("key", key)] = .ok ())
    (valid : result.valid = true) (found : db.idempotency.find? (tenantId, scope, key) = some row)
    (running : row.status = .inProgress) :
    ∃ record, finishIdempotency now tenantId scope key status result db =
      .ok (record, { db with idempotency := db.idempotency.updateAt (tenantId, scope, key) (fun row =>
        { row with status, result := some result.canonical, updatedAt := now }) fun _ => rfl }) := by
  simp [finishIdempotency, named, jsonText, valid, found, running, orRaise, bind, Except.bind, pure,
    Except.pure]

theorem recordTrainingRun_cases {now : Int} {tenantId trainingId policyName artifactId
    trainedBy : String} {leaseFencingToken : Int} {report : Json} {db after : Db} {row : TrainingRow}
    (ran : recordTrainingRun now tenantId trainingId policyName artifactId trainedBy leaseFencingToken
      report db = .ok (row, after)) :
    row.artifactId = artifactId ∧ row.tenantId = tenantId ∧ row.trainedBy = trainedBy ∧
      ((after = db ∧ db.trainingRuns.find? (tenantId, trainingId) = some row) ∨
        ∃ trainingRuns, db.trainingRuns.insert row = some trainingRuns ∧
          after = { db with trainingRuns }) := by
  simp only [recordTrainingRun, bind_eq_ok] at ran
  obtain ⟨_, _, _, _, _, _, ran⟩ := ran
  split at ran
  next existing found =>
    simp only [bind_eq_ok, pure_eq_ok, ensure_eq_ok, Bool.and_eq_true, decide_eq_true_eq,
      Prod.mk.injEq] at ran
    obtain ⟨_, same, rfl, rfl⟩ := ran
    have keyed := (Table.find?_eq_some.mp found).2
    exact ⟨same.1.1.1.2, (Prod.mk.inj keyed).1, same.1.1.2, .inl ⟨rfl, found⟩⟩
  next absent =>
    simp only [bind_eq_ok, pure_eq_ok, orRaise_eq_ok, Prod.mk.injEq] at ran
    obtain ⟨_, _, _, _, _, _, trainingRuns, inserted, rfl, rfl⟩ := ran
    exact ⟨rfl, rfl, rfl, .inr ⟨trainingRuns, inserted, rfl⟩⟩

end AgentTree
