import AgentTree.BudgetLedger
import AgentTree.Leases
import AgentTree.PromotionChain

/-!
The public methods of `SQLiteStore` as one type of operations.  An operation is
a transaction with the read that answers it, or a read alone.
-/

namespace AgentTree

open Outcome Relational

/-! The list queries. -/

/-- `_positive_limit`. -/
def positiveLimit (value : Int) : Except PyError Unit := do
  positiveInt value "limit"
  ensure (value ≤ 100000) (.valueError "limit must not exceed 100000")

def listEvents (tenantId : String) (streamId : Option String) (afterSequence limit : Int) (db : Db) :
    Except PyError (List EventRow) := do
  required [("tenant_id", tenantId)]
  positiveLimit limit
  bindInteger afterSequence
  let rows := db.events.rows.filter fun row => row.tenantId = tenantId && afterSequence < row.sequence &&
    streamId.all (· = row.streamId)
  return (rows.insertionSort fun a b => a.sequence ≤ b.sequence).take limit.toNat

/-- ORDER BY an integer column and a text column, which SQLite compares by its bytes. -/
def orderedBy {ρ : Type} (number : ρ → Int) (text : ρ → String) (rows : List ρ) : List ρ :=
  rows.insertionSort fun a b =>
    number a < number b ∨ number a = number b ∧ Json.nameOrder (text a) ≤ Json.nameOrder (text b)

def listExperienceReceipts (tenantId : String) (runId : Option String) (limit : Int) (db : Db) :
    Except PyError (List ExperienceRow) := do
  required [("tenant_id", tenantId)]
  positiveLimit limit
  let rows := db.experience.rows.filter fun row => row.tenantId = tenantId && runId.all (· = row.runId)
  return (orderedBy ExperienceRow.recordedAt ExperienceRow.receiptId rows).take limit.toNat

def listTrainingRuns (tenantId artifactId : String) (limit : Int) (db : Db) :
    Except PyError (List TrainingRow) := do
  required [("tenant_id", tenantId), ("artifact_id", artifactId)]
  positiveLimit limit
  let rows := db.trainingRuns.rows.filter fun row => row.tenantId = tenantId && row.artifactId = artifactId
  return (orderedBy TrainingRow.createdAt TrainingRow.trainingId rows).take limit.toNat

def listPromotionAudit (tenantId policyName : String) (limit : Int) (db : Db) :
    Except PyError (List Promotion) := do
  positiveLimit limit
  let rows := db.audit.rows.filter fun row => row.tenantId = tenantId && row.policyName = policyName
  return (rows.insertionSort fun a b => a.generation ≤ b.generation).take limit.toNat

/-! The operations. -/

inductive StoreOp : Type
  | appendEvent (tenantId streamId eventType : String) (payload : Json) (eventId : Option String)
      (expectedStreamVersion occurredAt : Option Int)
  | listEvents (tenantId : String) (streamId : Option String) (afterSequence limit : Int)
  | claimReplayNonce (tenantId purpose nonce : String) (expiresAt : Option Int)
  | pruneReplayNonces (before : Option Int)
  | recordEvidenceReceipt (tenantId : String) (envelope : Json) (receiptId : Option String)
  | getEvidenceReceipt (tenantId receiptId : String)
  | recordExperienceReceipt (tenantId : String) (envelope : Json) (receiptId : Option String)
  | listExperienceReceipts (tenantId : String) (runId : Option String) (limit : Int)
  | claimIdempotency (tenantId scope key : String) (request : Json) (ttlSeconds : Option Int)
  | completeIdempotency (tenantId scope key : String) (result : Json)
  | failIdempotency (tenantId scope key : String) (error : Json)
  | acquireLease (tenantId resourceId holderId : String) (ttlSeconds : Int) (at? : Option Int)
  | renewLease (tenantId resourceId holderId : String) (fencingToken ttlSeconds : Int) (at? : Option Int)
  | releaseLease (tenantId resourceId holderId : String) (fencingToken : Int)
  | getLease (tenantId resourceId : String)
  | createBudget (tenantId budgetId : String) (limitUnits : Int)
  | reserveBudget (tenantId budgetId reservationId : String) (units : Int)
  | consumeBudget (tenantId budgetId reservationId : String)
  | releaseBudget (tenantId budgetId reservationId : String)
  | getBudget (tenantId budgetId : String)
  | registerPolicyArtifact (tenantId artifactId policyName version contentSha256 artifactUri : String)
      (metadata : Option Json)
  | getPolicyArtifact (tenantId artifactId : String)
  | recordTrainingRun (tenantId trainingId policyName artifactId trainedBy : String)
      (leaseFencingToken : Int) (report : Json)
  | listTrainingRuns (tenantId artifactId : String) (limit : Int)
  | trainingProducers (tenantId artifactId : String)
  | promotePolicy (tenantId policyName artifactId : String) (expectedCurrentArtifactId : Option String)
      (decidedBy reason : String) (benchmarkReceiptId auditId : Option String)
  | getChampion (tenantId policyName : String)
  | getPromotionAtGeneration (tenantId policyName : String) (generation : Nat)
  | listPromotionAudit (tenantId policyName : String) (limit : Int)
  | reconcileStartup

/-- The tenant whose operation it is. -/
def StoreOp.owner? : StoreOp → Option String
  | appendEvent tenantId .. | listEvents tenantId .. | claimReplayNonce tenantId ..
  | recordEvidenceReceipt tenantId .. | getEvidenceReceipt tenantId ..
  | recordExperienceReceipt tenantId .. | listExperienceReceipts tenantId ..
  | claimIdempotency tenantId .. | completeIdempotency tenantId .. | failIdempotency tenantId ..
  | acquireLease tenantId .. | renewLease tenantId .. | releaseLease tenantId .. | getLease tenantId ..
  | createBudget tenantId .. | reserveBudget tenantId .. | consumeBudget tenantId ..
  | releaseBudget tenantId .. | getBudget tenantId .. | registerPolicyArtifact tenantId ..
  | getPolicyArtifact tenantId .. | recordTrainingRun tenantId .. | listTrainingRuns tenantId ..
  | trainingProducers tenantId .. | promotePolicy tenantId .. | getChampion tenantId ..
  | getPromotionAtGeneration tenantId .. | listPromotionAudit tenantId .. => some tenantId
  | pruneReplayNonces _ | reconcileStartup => none

/-- What an operation returns. -/
inductive Reply : Type
  | event (row : EventRow)
  | events (rows : List EventRow)
  | accepted (answer : Bool)
  | count (answer : Nat)
  | evidence (row : EvidenceRow)
  | experience (row : ExperienceRow)
  | experiences (rows : List ExperienceRow)
  | idempotency (record : IdempotencyRecord)
  | lease (row : LeaseRow)
  | budget (snapshot : BudgetSnapshot)
  | artifact (row : ArtifactRow)
  | training (row : TrainingRow)
  | trainings (rows : List TrainingRow)
  | producers (names : List String)
  | promotion (row : Promotion)
  | champion (answer : Option Champion)
  | promotionAt (answer : Option Promotion)
  | promotions (rows : List Promotion)
  | recovered (report : RecoveryReport)

/-- A read outside a transaction. -/
def readOnly {α : Type} (answer : α → Reply) (read : Db → Except PyError α) (db : Db) :
    Except PyError Reply × Db := ((read db).map answer, db)

/-- A transaction that returns its own value. -/
def commits {α : Type} (answer : α → Reply) (run : Db → Except PyError (α × Db)) (db : Db) :
    Except PyError Reply × Db := transact run (fun value _ => .ok (answer value)) db

/-- One operation with the clock reading and the identifier that it draws. -/
def StoreOp.run (store : Store) (inRange : String → Bool) (now : Int) (uuid : String) :
    StoreOp → Db → Except PyError Reply × Db
  | appendEvent tenantId streamId eventType payload eventId expected occurredAt =>
      commits .event (store.appendEvent now uuid tenantId streamId eventType payload eventId expected
        occurredAt)
  | listEvents tenantId streamId afterSequence limit =>
      readOnly .events (AgentTree.listEvents tenantId streamId afterSequence limit)
  | claimReplayNonce tenantId purpose nonce expiresAt =>
      commits .accepted (store.claimReplayNonce now tenantId purpose nonce expiresAt)
  | pruneReplayNonces before => commits .count (AgentTree.pruneReplayNonces now before)
  | recordEvidenceReceipt tenantId envelope receiptId =>
      commits .evidence (store.recordEvidenceReceipt now tenantId envelope receiptId)
  | getEvidenceReceipt tenantId receiptId =>
      readOnly .evidence (AgentTree.getEvidenceReceipt tenantId receiptId)
  | recordExperienceReceipt tenantId envelope receiptId =>
      commits .experience (store.recordExperienceReceipt inRange now tenantId envelope receiptId)
  | listExperienceReceipts tenantId runId limit =>
      readOnly .experiences (AgentTree.listExperienceReceipts tenantId runId limit)
  | claimIdempotency tenantId scope key request ttlSeconds =>
      commits .idempotency (store.claimIdempotency now tenantId scope key request ttlSeconds)
  | completeIdempotency tenantId scope key result =>
      commits .idempotency (AgentTree.completeIdempotency now tenantId scope key result)
  | failIdempotency tenantId scope key error =>
      commits .idempotency (AgentTree.failIdempotency now tenantId scope key error)
  -- `get_lease` and `get_budget` answer after the transaction.
  | acquireLease tenantId resourceId holderId ttlSeconds at? =>
      transact (AgentTree.acquireLease now tenantId resourceId holderId ttlSeconds at?) fun _ db =>
        (AgentTree.getLease tenantId resourceId db).map .lease
  | renewLease tenantId resourceId holderId fencingToken ttlSeconds at? =>
      transact (AgentTree.renewLease now tenantId resourceId holderId fencingToken ttlSeconds at?)
        fun _ db => (AgentTree.getLease tenantId resourceId db).map .lease
  | releaseLease tenantId resourceId holderId fencingToken =>
      transact (AgentTree.releaseLease now tenantId resourceId holderId fencingToken) fun _ db =>
        (AgentTree.getLease tenantId resourceId db).map .lease
  | getLease tenantId resourceId => readOnly .lease (AgentTree.getLease tenantId resourceId)
  | createBudget tenantId budgetId limitUnits =>
      transact (AgentTree.createBudget now tenantId budgetId limitUnits) fun _ db =>
        (AgentTree.getBudget tenantId budgetId db).map .budget
  | reserveBudget tenantId budgetId reservationId units =>
      commits .budget (AgentTree.reserveBudget now tenantId budgetId reservationId units)
  | consumeBudget tenantId budgetId reservationId =>
      commits .budget (AgentTree.consumeBudget now tenantId budgetId reservationId)
  | releaseBudget tenantId budgetId reservationId =>
      commits .budget (AgentTree.releaseBudget now tenantId budgetId reservationId)
  | getBudget tenantId budgetId => readOnly .budget (AgentTree.getBudget tenantId budgetId)
  | registerPolicyArtifact tenantId artifactId policyName version contentSha256 artifactUri metadata =>
      commits .artifact (AgentTree.registerPolicyArtifact now tenantId artifactId policyName version
        contentSha256 artifactUri metadata)
  | getPolicyArtifact tenantId artifactId =>
      readOnly .artifact (AgentTree.getPolicyArtifact tenantId artifactId)
  | recordTrainingRun tenantId trainingId policyName artifactId trainedBy leaseFencingToken report =>
      commits .training (AgentTree.recordTrainingRun now tenantId trainingId policyName artifactId
        trainedBy leaseFencingToken report)
  | listTrainingRuns tenantId artifactId limit =>
      readOnly .trainings (AgentTree.listTrainingRuns tenantId artifactId limit)
  | trainingProducers tenantId artifactId =>
      readOnly .producers fun db => do
        required [("tenant_id", tenantId), ("artifact_id", artifactId)]
        return AgentTree.trainingProducers tenantId artifactId db
  | promotePolicy tenantId policyName artifactId expected decidedBy reason benchmarkReceiptId auditId =>
      commits .promotion (AgentTree.promotePolicy now uuid tenantId policyName artifactId expected decidedBy
        reason benchmarkReceiptId auditId)
  | getChampion tenantId policyName =>
      readOnly .champion fun db => .ok (AgentTree.getChampion tenantId policyName db)
  | getPromotionAtGeneration tenantId policyName generation =>
      readOnly .promotionAt (AgentTree.getPromotionAtGeneration tenantId policyName generation)
  | listPromotionAudit tenantId policyName limit =>
      readOnly .promotions (AgentTree.listPromotionAudit tenantId policyName limit)
  | reconcileStartup => commits .recovered (AgentTree.reconcileStartup now)

/-! Three tables that few operations write. -/

def StoreOp.keepsRecords : StoreOp → Bool
  | claimIdempotency .. | completeIdempotency .. | failIdempotency .. | reconcileStartup => false
  | _ => true

def StoreOp.keepsEvents : StoreOp → Bool
  | appendEvent .. => false
  | _ => true

def StoreOp.keepsAudit : StoreOp → Bool
  | promotePolicy .. => false
  | _ => true

structure StoreOp.Frame (op : StoreOp) (before after : Db) : Prop where
  records : op.keepsRecords = true → after.idempotency = before.idempotency
  events : op.keepsEvents = true → after.events = before.events
  audit : op.keepsAudit = true → after.audit = before.audit

theorem StoreOp.run_frame {store : Store} {inRange : String → Bool} {now : Int} {uuid : String} {db : Db}
    (op : StoreOp) : op.Frame db (op.run store inRange now uuid db).2 := by
  let P := fun after : Db => op.Frame db after
  have still : P db := ⟨fun _ => rfl, fun _ => rfl, fun _ => rfl⟩
  cases op with
  | appendEvent =>
      refine transact_kept P still fun _ _ ran => ?_
      obtain ⟨_, _, rfl, _⟩ := appendEvent_cases ran
      exact ⟨fun _ => rfl, nofun, fun _ => rfl⟩
  | claimReplayNonce =>
      refine transact_kept P still fun _ _ ran => ?_
      obtain ⟨_, rfl⟩ := claimReplayNonce_cases ran
      exact ⟨fun _ => rfl, fun _ => rfl, fun _ => rfl⟩
  | pruneReplayNonces =>
      refine transact_kept P still fun _ _ ran => ?_
      rw [pruneReplayNonces_ok ran]
      exact ⟨fun _ => rfl, fun _ => rfl, fun _ => rfl⟩
  | recordEvidenceReceipt =>
      refine transact_kept P still fun _ _ ran => ?_
      obtain ⟨_, _, _, rfl, _⟩ := recordEvidenceReceipt_cases ran
      exact ⟨fun _ => rfl, fun _ => rfl, fun _ => rfl⟩
  | recordExperienceReceipt =>
      refine transact_kept P still fun _ _ ran => ?_
      obtain ⟨_, _, rfl⟩ := recordExperienceReceipt_cases ran
      exact ⟨fun _ => rfl, fun _ => rfl, fun _ => rfl⟩
  | claimIdempotency =>
      refine transact_kept P still fun _ _ ran => ?_
      rcases claimIdempotency_cases ran with ⟨_, _, _, rfl⟩ | ⟨_, _, _, _, _, rfl⟩ <;>
        exact ⟨nofun, fun _ => rfl, fun _ => rfl⟩
  | completeIdempotency =>
      refine transact_kept P still fun _ _ ran => ?_
      obtain ⟨_, _, ⟨_, rfl⟩ | ⟨_, _, rfl⟩⟩ := finishIdempotency_cases ran <;>
        exact ⟨nofun, fun _ => rfl, fun _ => rfl⟩
  | failIdempotency =>
      refine transact_kept P still fun _ _ ran => ?_
      obtain ⟨_, _, ⟨_, rfl⟩ | ⟨_, _, rfl⟩⟩ := finishIdempotency_cases ran <;>
        exact ⟨nofun, fun _ => rfl, fun _ => rfl⟩
  | acquireLease =>
      refine transact_kept P still fun _ _ ran => ?_
      rcases acquireLease_cases ran with ⟨_, _, _, rfl⟩ | ⟨_, _, _, _, rfl⟩ | ⟨_, _, _, rfl⟩ <;>
        exact ⟨fun _ => rfl, fun _ => rfl, fun _ => rfl⟩
  | renewLease =>
      refine transact_kept P still fun _ _ ran => ?_
      obtain ⟨_, _, _, _, _, rfl⟩ := renewLease_cases ran
      exact ⟨fun _ => rfl, fun _ => rfl, fun _ => rfl⟩
  | releaseLease =>
      refine transact_kept P still fun _ _ ran => ?_
      obtain ⟨_, _, _, _, rfl⟩ := releaseLease_cases ran
      exact ⟨fun _ => rfl, fun _ => rfl, fun _ => rfl⟩
  | createBudget =>
      refine transact_kept P still fun _ _ ran => ?_
      rcases createBudget_cases ran with rfl | ⟨_, _, _, _, rfl⟩ <;>
        exact ⟨fun _ => rfl, fun _ => rfl, fun _ => rfl⟩
  | reserveBudget =>
      refine transact_kept P still fun _ _ ran => ?_
      rcases reserveBudget_cases ran with rfl | ⟨_, _, _, _, _, _, _, rfl⟩ <;>
        exact ⟨fun _ => rfl, fun _ => rfl, fun _ => rfl⟩
  | consumeBudget =>
      refine transact_kept P still fun _ _ ran => ?_
      rcases transitionReservation_cases ran with ⟨rfl, _⟩ | ⟨_, _, _, _, rfl⟩ <;>
        exact ⟨fun _ => rfl, fun _ => rfl, fun _ => rfl⟩
  | releaseBudget =>
      refine transact_kept P still fun _ _ ran => ?_
      rcases transitionReservation_cases ran with ⟨rfl, _⟩ | ⟨_, _, _, _, rfl⟩ <;>
        exact ⟨fun _ => rfl, fun _ => rfl, fun _ => rfl⟩
  | registerPolicyArtifact =>
      refine transact_kept P still fun _ _ ran => ?_
      rcases registerPolicyArtifact_cases ran with ⟨rfl, _⟩ | ⟨_, _, rfl, _⟩ <;>
        exact ⟨fun _ => rfl, fun _ => rfl, fun _ => rfl⟩
  | recordTrainingRun =>
      refine transact_kept P still fun _ _ ran => ?_
      obtain ⟨_, _, _, ⟨rfl, _⟩ | ⟨_, _, rfl⟩⟩ := recordTrainingRun_cases ran <;>
        exact ⟨fun _ => rfl, fun _ => rfl, fun _ => rfl⟩
  | promotePolicy =>
      refine transact_kept P still fun _ _ ran => ?_
      obtain ⟨_, _, ⟨rfl, _⟩ | ⟨_, _, _, _, _, _, _, _, _, _, _, rfl, _⟩⟩ := promotePolicy_cases ran <;>
        exact ⟨fun _ => rfl, fun _ => rfl, nofun⟩
  | reconcileStartup =>
      refine transact_kept P still fun _ _ ran => ?_
      rw [reconcileStartup_cases ran]
      exact ⟨nofun, fun _ => rfl, fun _ => rfl⟩
  | _ => exact still

/-- An operation of a run, with what it takes from the clock and the random source. -/
structure Timed where
  now : Int
  uuid : String
  op : StoreOp

def Timed.run (store : Store) (inRange : String → Bool) (call : Timed) (db : Db) :
    Except PyError Reply × Db := call.op.run store inRange call.now call.uuid db

/-- The database after a sequence of operations. -/
def runOps (store : Store) (inRange : String → Bool) (calls : List Timed) (db : Db) : Db :=
  calls.foldl (fun db call => (call.run store inRange db).2) db

end AgentTree
