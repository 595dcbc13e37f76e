import AgentTree.Receipts
import AgentTree.StoreFrames

/-!
The record calls of the store taken apart at their clock readings: the envelope
is verified, a transaction claims its nonce and inserts the receipt, and the row
is read back.  Other calls run in between.
-/

namespace AgentTree

open Outcome Relational

/-- The checked columns that a record call takes from the payload. -/
inductive DraftBody : Type
  | evidence (evidenceKind subjectId : String) (artifactUri contentSha256 : Option String)
  | experience (runId episodeId trajectoryHash : String) (reward payload : Json)
  deriving DecidableEq

structure Draft where
  tenantId : String
  receiptId : String
  envelope : Json
  body : DraftBody
  deriving DecidableEq

def Store.draftEvidence (store : Store) (now : Int) (tenantId : String) (envelope : Json)
    (receiptId : Option String) : Except PyError Draft := do
  let envelope ← jsonText envelope
  let payload ← store.verifyReceipt now tenantId "evidence" envelope
  payloadObject payload "evidence"
  let evidenceKind ← payloadText payload "evidence_kind"
  let subjectId ← payloadText payload "subject_id"
  let artifactUri ← optionalPayloadText payload "artifact_uri"
  let contentSha256 ← optionalPayloadText payload "content_sha256"
  ensure (contentSha256.all isSha256)
    (.storeError "SHA-256 values must be 64 lowercase hexadecimal characters")
  return ⟨tenantId, store.receiptIdOr receiptId envelope, envelope,
    .evidence evidenceKind subjectId artifactUri contentSha256⟩

def Store.draftExperience (store : Store) (inRange : String → Bool) (now : Int) (tenantId : String)
    (envelope : Json) (receiptId : Option String) : Except PyError Draft := do
  let envelope ← jsonText envelope
  let payload ← store.verifyReceipt now tenantId "experience" envelope
  payloadObject payload "experience"
  let runId ← payloadText payload "run_id"
  let episodeId ← payloadText payload "episode_id"
  let trajectoryHash ← payloadText payload "trajectory_hash"
  sha256Value trajectoryHash
  let reward ← rewardValue inRange payload
  return ⟨tenantId, store.receiptIdOr receiptId envelope, envelope,
    .experience runId episodeId trajectoryHash reward payload⟩

/-- The transaction of a record call; `recordedAt` is the reading before it, `now` the one inside. -/
def Store.insertDraft (store : Store) (recordedAt now : Int) (draft : Draft) (db : Db) :
    Except PyError Db := do
  let db ← store.claimEnvelopeNonce now draft.envelope db
  let signerKeyId ← envelopeText draft.envelope "key_id"
  let issuedAt ← envelopeInt draft.envelope "issued_at"
  let expiresAt ← envelopeExpiry draft.envelope
  bindInteger issuedAt
  bindOptional expiresAt
  match draft.body with
  | .evidence evidenceKind subjectId artifactUri contentSha256 =>
      let row : EvidenceRow := {
        tenantId := draft.tenantId
        receiptId := draft.receiptId
        evidenceKind, subjectId, artifactUri, contentSha256, signerKeyId, issuedAt, expiresAt
        envelope := draft.envelope
        recordedAt
      }
      let evidence ← orRaise (db.evidence.insert row) (.conflict "evidence receipt already exists")
      return { db with evidence }
  | .experience runId episodeId trajectoryHash reward payload =>
      let row : ExperienceRow := {
        tenantId := draft.tenantId
        receiptId := draft.receiptId
        runId, episodeId, trajectoryHash, reward, signerKeyId, issuedAt, expiresAt, payload
        envelope := draft.envelope
        recordedAt
      }
      let taken := db.experience.rows.any fun other =>
        other.tenantId = draft.tenantId && other.runId = runId && other.episodeId = episodeId
      ensure (!taken) (.conflict "experience receipt or episode already exists")
      let experience ← orRaise (db.experience.insert row)
        (.conflict "experience receipt or episode already exists")
      return { db with experience }

/-- `get_evidence_receipt` and `_experience_row`, which answer the call. -/
def Draft.readBack (draft : Draft) (db : Db) : Except PyError Unit :=
  match draft.body with
  | .evidence .. => (getEvidenceReceipt draft.tenantId draft.receiptId db).map fun _ => ()
  | .experience .. =>
      (orRaise (db.experience.find? (draft.tenantId, draft.receiptId))
        (.notFound "experience receipt not found")).map fun _ => ()

theorem map_bind {ε α β γ : Type} (value : Except ε α) (rest : α → Except ε β) (change : β → γ) :
    (value >>= rest).map change = value >>= fun a => (rest a).map change := by
  cases value <;> rfl

/-- With one clock reading the parts make up `record_evidence_receipt`. -/
theorem recordEvidenceReceipt_eq (store : Store) (now : Int) (tenantId : String) (envelope : Json)
    (receiptId : Option String) (db : Db) :
    (store.recordEvidenceReceipt now tenantId envelope receiptId db).map Prod.snd =
      store.draftEvidence now tenantId envelope receiptId >>= fun draft =>
        store.insertDraft now now draft db := by
  simp only [Store.recordEvidenceReceipt, Store.draftEvidence, Store.insertDraft, map_bind, bind_assoc,
    pure_bind]
  rfl

theorem recordExperienceReceipt_eq (store : Store) (inRange : String → Bool) (now : Int)
    (tenantId : String) (envelope : Json) (receiptId : Option String) (db : Db) :
    (store.recordExperienceReceipt inRange now tenantId envelope receiptId db).map Prod.snd =
      store.draftExperience inRange now tenantId envelope receiptId >>= fun draft =>
        store.insertDraft now now draft db := by
  simp only [Store.recordExperienceReceipt, Store.draftExperience, Store.insertDraft, map_bind,
    bind_assoc, pure_bind]
  rfl

/-! The calls and their interleavings. -/

inductive RecordCall : Type
  | evidence (tenantId : String) (envelope : Json) (receiptId : Option String)
  | experience (tenantId : String) (envelope : Json) (receiptId : Option String)

def RecordCall.envelope : RecordCall → Json
  | evidence _ envelope _ | experience _ envelope _ => envelope

def Store.draftCall (store : Store) (inRange : String → Bool) (now : Int) :
    RecordCall → Except PyError Draft
  | .evidence tenantId envelope receiptId => store.draftEvidence now tenantId envelope receiptId
  | .experience tenantId envelope receiptId => store.draftExperience inRange now tenantId envelope receiptId

inductive CallStage : Type
  | verified (draft : Draft) (verifiedAt : Int)
  | stored (draft : Draft)
  | returned (draft : Draft)
  | raised (error : PyError)

/-- The draft of a call whose transaction has committed. -/
def CallStage.accepted? : CallStage → Option Draft
  | stored draft | returned draft => some draft
  | verified .. | raised _ => none

/-- The store with its clock, and the record calls by the order of their arrival. -/
structure Desk where
  db : Db
  clock : Int
  calls : Nat → Option (RecordCall × CallStage)

def Desk.put (desk : Desk) (id : Nat) (call : RecordCall) (stage : CallStage) : Desk :=
  { desk with calls := Function.update desk.calls id (some (call, stage)) }

/-- The result of a transaction: an error leaves the database as it was. -/
def Desk.settle {α : Type} (desk : Desk) (result : Except PyError (α × Db)) : Desk :=
  match result with
  | .ok (_, db) => { desk with db }
  | .error _ => desk

/-- How long after its verification a receipt may still be claimed. -/
def Store.leeway (store : Store) : Int :=
  store.replayGraceSeconds - (store.receiptVerifier.map ReceiptVerifier.clockSkewSeconds).getD 0

inductive Store.Step (store : Store) (inRange : String → Bool) : Desk → Option Nat → Desk → Prop
  | tick {desk : Desk} (clock : Int) (later : desk.clock ≤ clock) :
      Step store inRange desk none { desk with clock }
  | refuse {desk : Desk} {id : Nat} {call : RecordCall} {error : PyError} (fresh : desk.calls id = none)
      (drafted : store.draftCall inRange desk.clock call = .error error) :
      Step store inRange desk (some id) (desk.put id call (.raised error))
  | verify {desk : Desk} {id : Nat} {call : RecordCall} {draft : Draft} (fresh : desk.calls id = none)
      (drafted : store.draftCall inRange desk.clock call = .ok draft) :
      Step store inRange desk (some id) (desk.put id call (.verified draft desk.clock))
  | rollback {desk : Desk} {id : Nat} {call : RecordCall} {draft : Draft} {verifiedAt : Int}
      {error : PyError} (recordedAt : Int) (found : desk.calls id = some (call, .verified draft verifiedAt))
      (inserted : store.insertDraft recordedAt desk.clock draft desk.db = .error error) :
      Step store inRange desk (some id) (desk.put id call (.raised error))
  | commit {desk : Desk} {id : Nat} {call : RecordCall} {draft : Draft} {verifiedAt : Int} {db : Db}
      (recordedAt : Int) (found : desk.calls id = some (call, .verified draft verifiedAt))
      (prompt : desk.clock ≤ verifiedAt + store.leeway)
      (inserted : store.insertDraft recordedAt desk.clock draft desk.db = .ok db) :
      Step store inRange desk (some id) ({ desk with db }.put id call (.stored draft))
  | answer {desk : Desk} {id : Nat} {call : RecordCall} {draft : Draft}
      (found : desk.calls id = some (call, .stored draft)) (read : draft.readBack desk.db = .ok ()) :
      Step store inRange desk (some id) (desk.put id call (.returned draft))
  | fail {desk : Desk} {id : Nat} {call : RecordCall} {draft : Draft} {error : PyError}
      (found : desk.calls id = some (call, .stored draft)) (read : draft.readBack desk.db = .error error) :
      Step store inRange desk (some id) (desk.put id call (.raised error))
  | claim {desk : Desk} (tenantId purpose nonce : String) (expiresAt : Option Int) :
      Step store inRange desk none
        (desk.settle (store.claimReplayNonce desk.clock tenantId purpose nonce expiresAt desk.db))
  | prune {desk : Desk} (before : Option Int) (past : before.getD desk.clock ≤ desk.clock) :
      Step store inRange desk none (desk.settle (pruneReplayNonces desk.clock before desk.db))

/-- One step of a run: the record call that took it, and the nonces around it. -/
structure Move where
  caller : Option Nat
  before : Table _ _ NonceRow.key
  after : Table _ _ NonceRow.key

inductive Store.Run (store : Store) (inRange : String → Bool) (start : Desk) : List Move → Desk → Prop
  | start : Run store inRange start [] start
  | step {moves : List Move} {desk next : Desk} {caller : Option Nat}
      (run : Run store inRange start moves desk) (step : store.Step inRange desk caller next) :
      Run store inRange start (moves ++ [⟨caller, desk.db.nonces, next.db.nonces⟩]) next

/-! What a verified envelope says, and the row its claim leaves. -/

def EnvelopeShape.nonceKey (shape : EnvelopeShape) : String × String × String :=
  (shape.tenantId, shape.purpose, shape.nonce)

theorem EnvelopeShape.Fits.sealed {first second : Json} {one two : EnvelopeShape}
    (fitsFirst : one.Fits first) (fitsSecond : two.Fits second) (same : unsigned first = unsigned second) :
    one.nonceKey = two.nonceKey ∧ one.expiresAt = two.expiresAt := by
  have agree : ∀ name ∈ signedFields, first.get? name = second.get? name := by
    intro name field
    rw [← get?_unsigned first field, ← get?_unsigned second field, same]
  have tenant := agree "tenant_id" (by simp [signedFields])
  have purpose := agree "purpose" (by simp [signedFields])
  have nonce := agree "nonce" (by simp [signedFields])
  have expiry := agree "expires_at" (by simp [signedFields])
  rw [fitsFirst.tenantId.1, fitsSecond.tenantId.1] at tenant
  rw [fitsFirst.purpose.1, fitsSecond.purpose.1] at purpose
  rw [fitsFirst.nonce.1, fitsSecond.nonce.1] at nonce
  rw [fitsFirst.expiresAt.1, fitsSecond.expiresAt.1] at expiry
  constructor
  · rw [EnvelopeShape.nonceKey, EnvelopeShape.nonceKey, Json.str.inj (Option.some.inj tenant),
      Json.str.inj (Option.some.inj purpose), Json.str.inj (Option.some.inj nonce)]
  · cases left : one.expiresAt <;> cases right : two.expiresAt <;>
      simp_all [Json.optional]

/-- The claim of this envelope is still on record, or is too old for any later claim. -/
def Db.Holds (db : Db) (grace clock : Int) (shape : EnvelopeShape) : Prop :=
  (∃ row, db.nonces.find? shape.nonceKey = some row ∧ row.expiresAt = shape.expiresAt.map (· + grace)) ∨
    ∃ expiry, shape.expiresAt = some expiry ∧ expiry + grace < clock

section Claims

variable {store : Store} {db after : Db} {clock : Int} {shape : EnvelopeShape}

theorem Db.Holds.later {grace time : Int} (holds : db.Holds grace clock shape) (le : clock ≤ time) :
    db.Holds grace time shape := by
  rcases holds with kept | ⟨expiry, expires, past⟩
  · exact .inl kept
  · exact .inr ⟨expiry, expires, by omega⟩

/-- A sweep up to the clock only takes rows that are too old. -/
theorem Db.Holds.sweep {grace cutoff : Int} (holds : db.Holds grace clock shape) (past : cutoff ≤ clock)
    (nonces : after.nonces = db.nonces.delete fun row => row.expiresAt.any (· < cutoff)) :
    after.Holds grace clock shape := by
  rcases holds with ⟨row, found, expires⟩ | old
  · by_cases swept : row.expiresAt.any (· < cutoff) = true
    · right
      rw [expires] at swept
      cases expiry : shape.expiresAt with
      | none => simp [expiry] at swept
      | some time =>
          have below : time + grace < cutoff := by simpa [expiry] using swept
          exact ⟨time, rfl, by omega⟩
    · left
      refine ⟨row, ?_, expires⟩
      rw [nonces, Table.find?_delete, found]
      simpa using swept
  · exact .inr old

theorem Db.Holds.claim {tenantId purpose nonce : String} {expiresAt : Option Int} {accepted : Bool}
    (holds : db.Holds store.replayGraceSeconds clock shape)
    (ran : store.claimReplayNonce clock tenantId purpose nonce expiresAt db = .ok (accepted, after)) :
    after.Holds store.replayGraceSeconds clock shape := by
  obtain ⟨nonces, rfl, written⟩ := claimReplayNonce_ok ran
  have swept : Db.Holds { db with nonces := db.retained clock } store.replayGraceSeconds clock shape :=
    holds.sweep (Int.le_refl clock) rfl
  cases accepted with
  | false =>
      obtain rfl : nonces = db.retained clock := written
      exact swept
  | true =>
      rcases swept with ⟨row, found, expires⟩ | old
      · exact .inl ⟨row, Table.found_insert written found, expires⟩
      · exact .inr old

theorem claimEnvelopeNonce_ok {envelope : Json} (fits : shape.Fits envelope)
    (ran : store.claimEnvelopeNonce clock envelope db = .ok after) :
    store.claimReplayNonce clock shape.tenantId shape.purpose shape.nonce shape.expiresAt db =
      .ok (true, after) := by
  have expiry : envelopeExpiry envelope = .ok shape.expiresAt := by
    rw [envelopeExpiry, fits.expiresAt.1]
    cases shape.expiresAt <;> rfl
  simp only [Store.claimEnvelopeNonce, envelopeText, fits.tenantId.1, fits.purpose.1, fits.nonce.1, expiry,
    bind_eq_ok, ensure_eq_ok, pure_eq_ok, Except.ok.injEq, exists_eq_left', Prod.exists] at ran
  obtain ⟨accepted, _, claimed, _, rfl, rfl⟩ := ran
  exact claimed

/-- An accepted claim found no row under its key, and leaves its own. -/
theorem claimed_nonce {accepted : Bool} (yes : accepted = true)
    (ran : store.claimReplayNonce clock shape.tenantId shape.purpose shape.nonce shape.expiresAt db =
      .ok (accepted, after)) :
    (db.retained clock).find? shape.nonceKey = none ∧ after.Holds store.replayGraceSeconds clock shape := by
  obtain ⟨nonces, rfl, written⟩ := claimReplayNonce_ok ran
  rw [if_pos yes] at written
  exact ⟨(Table.insert_eq_some.mp written).1, .inl ⟨_, Table.find?_inserted written, rfl⟩⟩

/-- A prompt claim of a receipt that was valid finds every claim of the same fields. -/
theorem Db.Holds.refuses {verifier : ReceiptVerifier} (trusted : store.receiptVerifier = some verifier)
    {verifiedAt : Int} (holds : db.Holds store.replayGraceSeconds clock shape)
    (timely : shape.timely verifier.clockSkewSeconds verifiedAt)
    (prompt : clock ≤ verifiedAt + store.leeway) :
    (db.retained clock).find? shape.nonceKey ≠ none := by
  have leeway : store.leeway = store.replayGraceSeconds - verifier.clockSkewSeconds := by
    simp [Store.leeway, trusted]
  rcases holds with ⟨row, found, expires⟩ | ⟨expiry, expires, past⟩
  · have fresh : row.expiresAt.any (· < clock) = false := by
      rw [expires]
      cases expiry : shape.expiresAt with
      | none => rfl
      | some time =>
          have valid := timely.2 time expiry
          simp only [Option.map_some, Option.any_some, decide_eq_false_iff_not]
          omega
    rw [Db.retained, Table.find?_delete, found]
    simp [fresh]
  · have valid := timely.2 expiry expires
    omega

end Claims

/-! What the steps of the calls keep. -/

theorem draftCall_ok {store : Store} {inRange : String → Bool} {now : Int} {call : RecordCall}
    {draft : Draft} (drafted : store.draftCall inRange now call = .ok draft) :
    draft.envelope = call.envelope.canonical ∧ draft.tenantId ≠ "" ∧
      (∃ receiptId, draft.receiptId = store.receiptIdOr receiptId draft.envelope) ∧
      ∃ verifier, ∃ shape : EnvelopeShape, store.receiptVerifier = some verifier ∧
        shape.Fits draft.envelope ∧ shape.timely verifier.clockSkewSeconds now := by
  have verified : ∀ {tenantId purpose envelope payload},
      store.verifyReceipt now tenantId purpose envelope = .ok payload → tenantId ≠ "" ∧
        ∃ verifier, ∃ shape : EnvelopeShape, store.receiptVerifier = some verifier ∧
          shape.Fits envelope ∧ shape.timely verifier.clockSkewSeconds now := by
    intro tenantId purpose envelope payload ran
    simp only [Store.verifyReceipt, bind_eq_ok] at ran
    obtain ⟨_, named, ran⟩ := ran
    split at ran
    next => simp at ran
    next verifier trusted =>
      obtain ⟨shape, fits, _, _, _, timely, _⟩ := verify_ok.mp ran
      refine ⟨?_, verifier, shape, trusted, fits, timely⟩
      rintro rfl
      simp [required] at named
  cases call with
  | evidence tenantId envelope receiptId =>
      simp only [Store.draftCall, Store.draftEvidence, bind_eq_ok, pure_eq_ok] at drafted
      obtain ⟨_, text, payload, ran, _, _, _, _, _, _, _, _, _, _, _, _, rfl⟩ := drafted
      obtain rfl := jsonText_eq text
      exact ⟨rfl, (verified ran).1, ⟨receiptId, rfl⟩, (verified ran).2⟩
  | experience tenantId envelope receiptId =>
      simp only [Store.draftCall, Store.draftExperience, bind_eq_ok, pure_eq_ok] at drafted
      obtain ⟨_, text, payload, ran, _, _, _, _, _, _, _, _, _, _, _, _, rfl⟩ := drafted
      obtain rfl := jsonText_eq text
      exact ⟨rfl, (verified ran).1, ⟨receiptId, rfl⟩, (verified ran).2⟩

/-- The rows of receipts: they are only added to. -/
def Db.ReceiptsGrow (before after : Db) : Prop :=
  (∀ key row, before.evidence.find? key = some row → after.evidence.find? key = some row) ∧
    ∀ key row, before.experience.find? key = some row → after.experience.find? key = some row

theorem insertDraft_ok {store : Store} {recordedAt now : Int} {draft : Draft} {db after : Db}
    (ran : store.insertDraft recordedAt now draft db = .ok after) :
    ∃ claimed, store.claimEnvelopeNonce now draft.envelope db = .ok claimed ∧
      after.nonces = claimed.nonces ∧ db.ReceiptsGrow after ∧
      (draft.tenantId ≠ "" → draft.receiptId ≠ "" → draft.readBack after = .ok ()) := by
  simp only [Store.insertDraft, bind_eq_ok] at ran
  obtain ⟨claimed, nonce, _, _, _, _, _, _, _, _, _, _, ran⟩ := ran
  obtain ⟨nonces, rfl⟩ := claimEnvelopeNonce_cases nonce
  refine ⟨_, nonce, ?_⟩
  cases body : draft.body with
  | evidence evidenceKind subjectId artifactUri contentSha256 =>
      simp only [body, bind_eq_ok, orRaise_eq_ok, pure_eq_ok] at ran
      obtain ⟨evidence, inserted, rfl⟩ := ran
      refine ⟨rfl, ⟨fun key row => Table.found_insert inserted, fun _ _ found => found⟩, ?_⟩
      intro tenant receipt
      have found := Table.find?_inserted inserted
      simp [Draft.readBack, body, getEvidenceReceipt, required, tenant, receipt, found, orRaise, bind,
        Except.bind, Except.map]
  | experience runId episodeId trajectoryHash reward payload =>
      simp only [body, bind_eq_ok, orRaise_eq_ok, pure_eq_ok] at ran
      obtain ⟨_, _, experience, inserted, rfl⟩ := ran
      refine ⟨rfl, ⟨fun _ _ found => found, fun key row => Table.found_insert inserted⟩, ?_⟩
      intro _ _
      have found := Table.find?_inserted inserted
      simp [Draft.readBack, body, found, orRaise, Except.map]

theorem Draft.readBack_grow {draft : Draft} {db after : Db} (grow : db.ReceiptsGrow after)
    (read : draft.readBack db = .ok ()) : draft.readBack after = .ok () := by
  unfold Draft.readBack at read ⊢
  cases body : draft.body with
  | evidence =>
      simp only [body, getEvidenceReceipt] at read ⊢
      cases named : required [("tenant_id", draft.tenantId), ("receipt_id", draft.receiptId)] with
      | error error => simp [named, bind, Except.bind, Except.map] at read
      | ok =>
          cases found : db.evidence.find? (draft.tenantId, draft.receiptId) with
          | none => simp [named, found, orRaise, bind, Except.bind, Except.map] at read
          | some row =>
              simp [grow.1 _ _ found, orRaise, bind, Except.bind, Except.map]
  | experience =>
      simp only [body] at read ⊢
      cases found : db.experience.find? (draft.tenantId, draft.receiptId) with
      | none => simp [found, orRaise, Except.map] at read
      | some row => simp [grow.2 _ _ found, orRaise, Except.map]

/-- A draft that the verifier let through at one reading of the clock. -/
structure Draft.Authentic (draft : Draft) (store : Store) (call : RecordCall) (verifiedAt : Int) : Prop where
  presented : draft.envelope = call.envelope.canonical
  tenant : draft.tenantId ≠ ""
  receipt : draft.receiptId ≠ ""
  timely : ∃ verifier, ∃ shape : EnvelopeShape, store.receiptVerifier = some verifier ∧
    shape.Fits draft.envelope ∧ shape.timely verifier.clockSkewSeconds verifiedAt

/-- The calls of a desk: what is verified, what is on record, and no fields twice. -/
structure Desk.Sound (store : Store) (desk : Desk) : Prop where
  verified : ∀ {id call draft verifiedAt}, desk.calls id = some (call, .verified draft verifiedAt) →
    draft.Authentic store call verifiedAt
  held : ∀ {id call stage draft}, desk.calls id = some (call, stage) → stage.accepted? = some draft →
    draft.envelope = call.envelope.canonical ∧
      ∃ shape : EnvelopeShape, shape.Fits draft.envelope ∧
        desk.db.Holds store.replayGraceSeconds desk.clock shape
  readable : ∀ {id call draft}, desk.calls id = some (call, .stored draft) →
    draft.readBack desk.db = .ok ()
  once : ∀ {first second one two stage other draft again}, first ≠ second →
    desk.calls first = some (one, stage) → stage.accepted? = some draft →
    desk.calls second = some (two, other) → other.accepted? = some again →
    unsigned one.envelope.canonical ≠ unsigned two.envelope.canonical

section Steps

variable {store : Store} {inRange : String → Bool} {desk next : Desk}

theorem Desk.put_calls (desk : Desk) (id other : Nat) (call : RecordCall) (stage : CallStage) :
    (desk.put id call stage).calls other = if other = id then some (call, stage) else desk.calls other :=
  Function.update_apply ..

/-- Nothing but the clock and the rows moves. -/
theorem Desk.Sound.world (sound : desk.Sound store) (calls : next.calls = desk.calls)
    (holds : ∀ shape, desk.db.Holds store.replayGraceSeconds desk.clock shape →
      next.db.Holds store.replayGraceSeconds next.clock shape)
    (grow : desk.db.ReceiptsGrow next.db) : next.Sound store := by
  constructor
  · intro id call draft verifiedAt found
    exact sound.verified (calls ▸ found)
  · intro id call stage draft found accepted
    obtain ⟨presented, shape, fits, held⟩ := sound.held (calls ▸ found) accepted
    exact ⟨presented, shape, fits, holds shape held⟩
  · intro id call draft found
    exact Draft.readBack_grow grow (sound.readable (calls ▸ found))
  · intro first second one two stage other draft again different foundFirst isFirst foundSecond isSecond
    exact sound.once different (calls ▸ foundFirst) isFirst (calls ▸ foundSecond) isSecond

/-- One call moves on; an accepted one has to be on record, and new. -/
theorem Desk.Sound.put {id : Nat} {call : RecordCall} {stage : CallStage} (sound : desk.Sound store)
    (verified : ∀ draft verifiedAt, stage = .verified draft verifiedAt →
      draft.Authentic store call verifiedAt)
    (readable : ∀ draft, stage = .stored draft → draft.readBack desk.db = .ok ())
    (held : ∀ draft, stage.accepted? = some draft → draft.envelope = call.envelope.canonical ∧
      (∃ shape : EnvelopeShape, shape.Fits draft.envelope ∧
        desk.db.Holds store.replayGraceSeconds desk.clock shape) ∧
      ∀ other two reached again, other ≠ id → desk.calls other = some (two, reached) →
        reached.accepted? = some again → unsigned call.envelope.canonical ≠ unsigned two.envelope.canonical) :
    (desk.put id call stage).Sound store := by
  constructor
  · intro other two draft verifiedAt found
    rw [Desk.put_calls] at found
    split at found
    · obtain ⟨rfl, rfl⟩ := Prod.mk.inj (Option.some.inj found)
      exact verified draft verifiedAt rfl
    · exact sound.verified found
  · intro other two reached draft found accepted
    rw [Desk.put_calls] at found
    split at found
    · obtain ⟨rfl, rfl⟩ := Prod.mk.inj (Option.some.inj found)
      exact ⟨(held draft accepted).1, (held draft accepted).2.1⟩
    · exact sound.held found accepted
  · intro other two draft found
    rw [Desk.put_calls] at found
    split at found
    · obtain ⟨rfl, rfl⟩ := Prod.mk.inj (Option.some.inj found)
      exact readable draft rfl
    · exact sound.readable found
  · intro first second one two reached other draft again different foundFirst isFirst foundSecond isSecond
    rw [Desk.put_calls] at foundFirst foundSecond
    by_cases isId : first = id
    · have apart : second ≠ id := fun same => different (isId.trans same.symm)
      rw [if_pos isId] at foundFirst
      rw [if_neg apart] at foundSecond
      obtain ⟨rfl, rfl⟩ := Prod.mk.inj (Option.some.inj foundFirst)
      exact (held draft isFirst).2.2 second two other again apart foundSecond isSecond
    · rw [if_neg isId] at foundFirst
      split at foundSecond
      next =>
        obtain ⟨rfl, rfl⟩ := Prod.mk.inj (Option.some.inj foundSecond)
        exact ((held again isSecond).2.2 first one reached draft isId foundFirst isFirst).symm
      next => exact sound.once different foundFirst isFirst foundSecond isSecond

/-- A transaction that commits claims fields that no accepted call has presented. -/
theorem Desk.Sound.commit {id : Nat} {call : RecordCall} {draft : Draft} {verifiedAt recordedAt : Int}
    {db : Db} (sound : desk.Sound store) (found : desk.calls id = some (call, .verified draft verifiedAt))
    (prompt : desk.clock ≤ verifiedAt + store.leeway)
    (inserted : store.insertDraft recordedAt desk.clock draft desk.db = .ok db) :
    (Desk.put { desk with db } id call (.stored draft)).Sound store := by
  have authentic := sound.verified found
  obtain ⟨verifier, shape, trusted, fits, timely⟩ := authentic.timely
  obtain ⟨claimed, nonce, nonces, grow, read⟩ := insertDraft_ok inserted
  have claim := claimEnvelopeNonce_ok fits nonce
  obtain ⟨fresh, onRecord⟩ := claimed_nonce rfl claim
  have carried : ∀ shape, claimed.Holds store.replayGraceSeconds desk.clock shape →
      db.Holds store.replayGraceSeconds desk.clock shape := by
    intro other holds
    simpa only [Db.Holds, nonces] using holds
  have moved : Desk.Sound store { desk with db } :=
    sound.world rfl (fun other holds => carried other (holds.claim claim)) grow
  refine moved.put (by simp) ?_ ?_
  · rintro _ ⟨rfl⟩
    exact read authentic.tenant authentic.receipt
  · rintro _ ⟨rfl⟩
    refine ⟨authentic.presented, ⟨shape, fits, carried shape onRecord⟩, ?_⟩
    intro other two reached again different foundOther accepted same
    obtain ⟨presented, earlier, fitsEarlier, holds⟩ := sound.held foundOther accepted
    rw [← authentic.presented, ← presented] at same
    obtain ⟨keys, expiries⟩ := fits.sealed fitsEarlier same
    have onTable : desk.db.Holds store.replayGraceSeconds desk.clock shape := by
      simpa only [Db.Holds, keys, expiries] using holds
    exact onTable.refuses trusted timely prompt fresh

theorem step_sound (digests : ∀ bytes, isSha256 (store.sha256 bytes) = true) (sound : desk.Sound store)
    {caller : Option Nat} (step : store.Step inRange desk caller next) : next.Sound store := by
  cases step with
  | tick clock later =>
      exact sound.world rfl (fun shape holds => holds.later later)
        ⟨fun _ _ found => found, fun _ _ found => found⟩
  | refuse fresh drafted =>
      exact sound.put (by simp) (by simp) (by simp [CallStage.accepted?])
  | @verify id call draft fresh drafted =>
      refine sound.put ?_ (by simp) (by simp [CallStage.accepted?])
      intro _ verifiedAt reached
      obtain ⟨rfl, rfl⟩ := CallStage.verified.inj reached
      obtain ⟨presented, tenant, ⟨receiptId, receipt⟩, timely⟩ := draftCall_ok drafted
      refine ⟨presented, tenant, ?_, timely⟩
      rw [receipt]
      have digest : store.sha256Hex draft.envelope ≠ "" := by
        intro empty
        have checked := digests (canonicalBytes draft.envelope)
        rw [Store.sha256Hex] at empty
        rw [empty] at checked
        exact absurd checked (by decide)
      unfold Store.receiptIdOr
      split
      · split
        · exact digest
        · assumption
      · exact digest
  | rollback recordedAt found inserted =>
      exact sound.put (by simp) (by simp) (by simp [CallStage.accepted?])
  | commit recordedAt found prompt inserted =>
      exact sound.commit found prompt inserted
  | @answer id call draft found read =>
      refine sound.put (by simp) (by simp) ?_
      rintro _ ⟨rfl⟩
      obtain ⟨presented, held⟩ := sound.held found rfl
      refine ⟨presented, held, ?_⟩
      intro other two reached again different foundOther accepted
      exact sound.once different.symm found rfl foundOther accepted
  | fail found read =>
      exact sound.put (by simp) (by simp) (by simp [CallStage.accepted?])
  | claim tenantId purpose nonce expiresAt =>
      cases ran : store.claimReplayNonce desk.clock tenantId purpose nonce expiresAt desk.db with
      | error error => exact sound
      | ok result =>
          obtain ⟨nonces, after, _⟩ := claimReplayNonce_ok ran
          refine sound.world rfl (fun shape holds => holds.claim ran) ?_
          simp only [Desk.settle, after]
          exact ⟨fun _ _ found => found, fun _ _ found => found⟩
  | prune before past =>
      cases ran : pruneReplayNonces desk.clock before desk.db with
      | error error => exact sound
      | ok result =>
          have after := pruneReplayNonces_ok ran
          refine sound.world rfl (fun shape holds => ?_) ?_
          · simp only [Desk.settle, after]
            exact holds.sweep past rfl
          · simp only [Desk.settle, after]
            exact ⟨fun _ _ found => found, fun _ _ found => found⟩

/-- A step of a call leaves the nonces alone unless it accepts the receipt. -/
theorem step_quiet (sound : desk.Sound store) {id : Nat} (step : store.Step inRange desk (some id) next) :
    (∃ call stage draft, next.calls id = some (call, stage) ∧ stage.accepted? = some draft) ∨
      (∀ call stage, desk.calls id = some (call, stage) → stage.accepted? = none) ∧
        next.db.nonces = desk.db.nonces := by
  cases step with
  | refuse fresh drafted => exact .inr ⟨by simp [fresh], rfl⟩
  | verify fresh drafted => exact .inr ⟨by simp [fresh], rfl⟩
  | rollback recordedAt found inserted =>
      refine .inr ⟨?_, rfl⟩
      intro call stage same
      obtain ⟨rfl, rfl⟩ := Prod.mk.inj (Option.some.inj (found.symm.trans same))
      rfl
  | @commit id call draft verifiedAt db recordedAt found prompt inserted =>
      exact .inl ⟨call, .stored draft, draft, by simp [Desk.put_calls], rfl⟩
  | @answer id call draft found read =>
      exact .inl ⟨call, .returned draft, draft, by simp [Desk.put_calls], rfl⟩
  | fail found read => simp [sound.readable found] at read

theorem step_others {caller : Option Nat} {id : Nat} (step : store.Step inRange desk caller next)
    (apart : caller ≠ some id) : next.calls id = desk.calls id := by
  cases step with
  | claim tenantId purpose nonce expiresAt => simp only [Desk.settle]; split <;> rfl
  | prune before past => simp only [Desk.settle]; split <;> rfl
  | tick => rfl
  | _ =>
      rw [Desk.put_calls, if_neg]
      rintro rfl
      exact apart rfl

end Steps

/-- The moves of a call that has not been accepted have left the nonces alone. -/
theorem run_quiet {store : Store} {inRange : String → Bool}
    (digests : ∀ bytes, isSha256 (store.sha256 bytes) = true) {start desk : Desk} {moves : List Move}
    (idle : ∀ id, start.calls id = none) (run : store.Run inRange start moves desk) :
    desk.Sound store ∧ ∀ id, (∃ call stage draft, desk.calls id = some (call, stage) ∧
      stage.accepted? = some draft) ∨ ∀ move ∈ moves, move.caller = some id → move.after = move.before := by
  induction run with
  | start =>
      refine ⟨⟨?_, ?_, ?_, ?_⟩, fun id => .inr (by simp)⟩
      · intro id call draft verifiedAt found
        simp [idle id] at found
      · intro id call stage draft found
        simp [idle id] at found
      · intro id call draft found
        simp [idle id] at found
      · intro first second one two stage other draft again different found
        simp [idle first] at found
  | @step moves desk next caller run step ih =>
      obtain ⟨sound, quiet⟩ := ih
      refine ⟨step_sound digests sound step, fun id => ?_⟩
      by_cases mine : caller = some id
      · subst mine
        rcases step_quiet sound step with accepted | ⟨refused, same⟩
        · exact .inl accepted
        · right
          have earlier := (quiet id).resolve_left (by
            rintro ⟨call, stage, draft, found, accepted⟩
            simp [refused call stage found] at accepted)
          intro move member
          rcases List.mem_append.mp member with old | last
          · exact earlier move old
          · obtain rfl := List.mem_singleton.mp last
            exact fun _ => same
      · rw [step_others step mine]
        refine (quiet id).imp_right fun earlier move member => ?_
        rcases List.mem_append.mp member with old | last
        · exact earlier move old
        · obtain rfl := List.mem_singleton.mp last
          exact fun own => absurd own mine

/-- No receipt is accepted twice, and a record call that fails leaves the nonces as they were. -/
theorem receipts_accepted_once (store : Store) (inRange : String → Bool)
    (digests : ∀ bytes, isSha256 (store.sha256 bytes) = true) (start desk : Desk) (moves : List Move)
    (idle : ∀ id, start.calls id = none) (run : store.Run inRange start moves desk) :
    (∀ first second one two draft again, first ≠ second →
      desk.calls first = some (one, .returned draft) → desk.calls second = some (two, .returned again) →
      unsigned one.envelope.canonical ≠ unsigned two.envelope.canonical) ∧
    ∀ id call error, desk.calls id = some (call, .raised error) →
      ∀ move ∈ moves, move.caller = some id → move.after = move.before := by
  obtain ⟨sound, quiet⟩ := run_quiet digests idle run
  constructor
  · intro first second one two draft again different foundFirst foundSecond
    exact sound.once different foundFirst rfl foundSecond rfl
  · intro id call error found
    refine (quiet id).resolve_left ?_
    rintro ⟨other, stage, draft, same, accepted⟩
    obtain ⟨rfl, rfl⟩ := Prod.mk.inj (Option.some.inj (found.symm.trans same))
    simp [CallStage.accepted?] at accepted

/-! One receipt, presented twice. -/

namespace Window

def members : List (String × Json) :=
  signedMembers "k1" "evidence" "tenant" "nonce" 100 (some 60)
    (.obj [("evidence_kind", .str "test"), ("subject_id", .str "suite")])

def ring : Keyring where
  keys := [("k1", List.replicate 32 7)]
  hmac _ message := List.replicate 32 (if message = canonicalBytes (.obj members) then 1 else 0)

def envelope : Json := .obj (members ++ [("signature", .str (b64urlEncode (List.replicate 32 1)))])

def store : Store where
  sha256 _ := String.ofList (List.replicate 64 'a')
  receiptVerifier := some ⟨ring, 30⟩
  replayGraceSeconds := 300

def call : RecordCall := .evidence "tenant" envelope (some "receipt")

def draft : Draft :=
  ⟨"tenant", "receipt", envelope.canonical, .evidence "test" "suite" none none⟩

/-- The database after the first of the two calls, at 140. -/
def recorded : Db := ((store.insertDraft 140 140 draft .empty).toOption).getD .empty

def desk (clock : Int) : Desk := ⟨.empty, clock, fun _ => none⟩

theorem digests (bytes : Bytes) : isSha256 (store.sha256 bytes) = true := by
  have text : isSha256 (String.ofList (List.replicate 64 'a')) = true := by decide +kernel
  exact text

theorem drafted (clock : Int) (timely : clock = 140 ∨ clock = 190) :
    store.draftCall (fun _ => true) clock call = .ok draft := by
  rcases timely with rfl | rfl <;> decide +kernel

theorem inserted : store.insertDraft 140 140 draft .empty = .ok recorded := by
  have accepted : (store.insertDraft 140 140 draft .empty).isOk = true := by decide +kernel
  unfold recorded
  cases ran : store.insertDraft 140 140 draft .empty with
  | ok db => rfl
  | error error => simp [ran, Except.isOk, Except.toBool] at accepted

theorem refused : store.insertDraft 190 460 draft recorded =
    .error (.replayDetected "receipt nonce has already been consumed") := by
  have raised : (match store.insertDraft 190 460 draft recorded with
      | .ok _ => none
      | .error error => some error) = some (.replayDetected "receipt nonce has already been consumed") := by
    decide +kernel
  cases ran : store.insertDraft 190 460 draft recorded with
  | ok db => simp [ran] at raised
  | error error => simpa [ran] using raised

/-- Both calls, up to the last moment at which the second may still claim its nonce. -/
theorem replayed : ∃ moves after,
    store.Run (fun _ => true) (desk 140) moves after ∧
      after.calls 0 = some (call, .returned draft) ∧
      after.calls 1 =
        some (call, .raised (.replayDetected "receipt nonce has already been consumed")) := by
  have read : draft.readBack recorded = .ok () := by decide +kernel
  have first : store.Run (fun _ => true) (desk 140) [] (desk 140) := .start
  have second := first.step (@Store.Step.verify _ _ _ 0 call draft rfl (drafted 140 (.inl rfl)))
  have third := second.step (@Store.Step.commit _ _ _ 0 call draft 140 recorded 140 rfl (by decide) inserted)
  have fourth := third.step (@Store.Step.answer _ _ _ 0 call draft rfl read)
  have fifth := fourth.step (.tick 190 (by decide))
  have sixth := fifth.step (@Store.Step.verify _ _ _ 1 call draft rfl (drafted 190 (.inr rfl)))
  have seventh := sixth.step (.tick 460 (by decide))
  have eighth := seventh.step (@Store.Step.rollback _ _ _ 1 call draft 190 _ 190 rfl refused)
  exact ⟨_, _, eighth, rfl, rfl⟩

end Window

open Window in
theorem receipts_accepted_once_window : ∃ moves desk,
    store.Run (fun _ => true) (Window.desk 140) moves desk ∧
      desk.calls 0 = some (call, .returned draft) ∧
      desk.calls 1 =
        some (call, .raised (.replayDetected "receipt nonce has already been consumed")) ∧
      ∀ move ∈ moves, move.caller = some 1 → move.after = move.before := by
  obtain ⟨moves, desk, run, accepted, raised⟩ := replayed
  have settled := receipts_accepted_once store _ digests _ desk moves (fun _ => rfl) run
  exact ⟨moves, desk, run, accepted, raised, settled.2 1 call _ raised⟩

end AgentTree
