import AgentTree.BudgetLedger
import AgentTree.ControlSteps
import AgentTree.Leases
import AgentTree.PromotionChain

/-!
What the steps of a call leave alone: the idempotency records outside the wrapper
and the state transaction, and the rows that are only ever added.
-/

namespace AgentTree

open Outcome Relational Concurrent

/-- Receipts, artifacts, audit rows and training runs are only ever added, and the
audit rows stay chained. -/
structure Retains (before after : Db) : Prop where
  evidence : before.evidence.Evolves Eq after.evidence
  artifacts : before.artifacts.Evolves Eq after.artifacts
  audit : before.audit.Evolves Eq after.audit
  trainingRuns : before.trainingRuns.Evolves Eq after.trainingRuns
  chained : before.chained → after.chained

/-- The audit chain is a matter of three tables. -/
theorem chained_frame {before after : Db} (artifacts : after.artifacts = before.artifacts)
    (champions : after.champions = before.champions) (audit : after.audit = before.audit)
    (chained : before.chained) : after.chained := by
  intro tenantId policyName
  refine (chained tenantId policyName).frame ?_ (by rw [champions])
    (artifacts ▸ .refl (fun _ => rfl) _)
  rw [Db.lineage, Db.lineage, audit]

namespace Retains

theorem refl (db : Db) : Retains db db :=
  ⟨.refl (fun _ => rfl) _, .refl (fun _ => rfl) _, .refl (fun _ => rfl) _, .refl (fun _ => rfl) _, id⟩

theorem trans {first second third : Db} (one : Retains first second) (two : Retains second third) :
    Retains first third :=
  ⟨.trans Eq.trans one.evidence two.evidence, .trans Eq.trans one.artifacts two.artifacts,
    .trans Eq.trans one.audit two.audit, .trans Eq.trans one.trainingRuns two.trainingRuns,
    two.chained ∘ one.chained⟩

/-- Writes to the other tables. -/
theorem of_equal {before after : Db} (evidence : after.evidence = before.evidence)
    (artifacts : after.artifacts = before.artifacts) (champions : after.champions = before.champions)
    (audit : after.audit = before.audit) (trainingRuns : after.trainingRuns = before.trainingRuns) :
    Retains before after :=
  ⟨evidence ▸ .refl (fun _ => rfl) _, artifacts ▸ .refl (fun _ => rfl) _,
    audit ▸ .refl (fun _ => rfl) _, trainingRuns ▸ .refl (fun _ => rfl) _,
    chained_frame artifacts champions audit⟩

end Retains

/-! Each store call keeps the records, and retains the rest. -/

/-- The records of idempotency are as before, and the rows are retained. -/
structure Apart (before after : Db) : Prop where
  idempotency : after.idempotency = before.idempotency
  retains : Retains before after

namespace Apart

theorem refl (db : Db) : Apart db db := ⟨rfl, .refl db⟩

theorem trans {first second third : Db} (one : Apart first second) (two : Apart second third) :
    Apart first third :=
  ⟨two.idempotency.trans one.idempotency, one.retains.trans two.retains⟩

theorem budgets (db : Db) (budgets : Budgets) (reservations : Reservations) :
    Apart db { db with budgets, reservations } := ⟨rfl, .of_equal rfl rfl rfl rfl rfl⟩

theorem leases (db : Db) (leases : LeaseTable) : Apart db { db with leases } :=
  ⟨rfl, .of_equal rfl rfl rfl rfl rfl⟩

variable {store : Store} {now : Int} {tenantId : String} {db after : Db}

theorem created {budgetId : String} {limitUnits : Int}
    (ran : createBudget now tenantId budgetId limitUnits db = .ok ((), after)) : Apart db after := by
  rcases createBudget_cases ran with rfl | ⟨_, _, _, _, rfl⟩
  · exact .refl _
  · exact .budgets ..

theorem reserved {budgetId reservationId : String} {units : Int} {snapshot : BudgetSnapshot}
    (ran : reserveBudget now tenantId budgetId reservationId units db = .ok (snapshot, after)) :
    Apart db after := by
  rcases reserveBudget_cases ran with rfl | ⟨_, _, _, _, _, _, _, rfl⟩
  · exact .refl _
  · exact .budgets ..

theorem settled {budgetId reservationId : String} {target : ReservationStatus}
    {snapshot : BudgetSnapshot}
    (ran : transitionReservation now tenantId budgetId reservationId target db = .ok (snapshot, after)) :
    Apart db after := by
  rcases transitionReservation_cases ran with ⟨rfl, _⟩ | ⟨_, _, _, _, rfl⟩
  · exact .refl _
  · exact .budgets ..

theorem acquired {resourceId holderId : String} {ttlSeconds : Int} {at? : Option Int}
    (ran : acquireLease now tenantId resourceId holderId ttlSeconds at? db = .ok ((), after)) :
    Apart db after := by
  rcases acquireLease_cases ran with ⟨_, _, _, rfl⟩ | ⟨_, _, _, _, rfl⟩ | ⟨_, _, _, rfl⟩
  · exact .leases ..
  · exact .leases ..
  · exact .leases ..

theorem renewed {resourceId holderId : String} {fencingToken ttlSeconds : Int} {at? : Option Int}
    (ran : renewLease now tenantId resourceId holderId fencingToken ttlSeconds at? db = .ok ((), after)) :
    Apart db after := by
  obtain ⟨_, _, _, _, _, rfl⟩ := renewLease_cases ran
  exact .leases ..

theorem freed {resourceId holderId : String} {fencingToken : Int}
    (ran : releaseLease now tenantId resourceId holderId fencingToken db = .ok ((), after)) :
    Apart db after := by
  obtain ⟨_, _, _, _, rfl⟩ := releaseLease_cases ran
  exact .leases ..

theorem appended {uuid streamId eventType : String} {payload : Json} {eventId : Option String}
    {expected occurredAt : Option Int} {row : EventRow}
    (ran : store.appendEvent now uuid tenantId streamId eventType payload eventId expected occurredAt db =
      .ok (row, after)) : Apart db after := by
  obtain ⟨_, _, rfl, _⟩ := appendEvent_cases ran
  exact ⟨rfl, .of_equal rfl rfl rfl rfl rfl⟩

theorem evidenced {envelope : Json} {receiptId : Option String} {row : EvidenceRow}
    (ran : store.recordEvidenceReceipt now tenantId envelope receiptId db = .ok (row, after)) :
    Apart db after := by
  obtain ⟨_, _, inserted, rfl, _⟩ := recordEvidenceReceipt_cases ran
  exact ⟨rfl, { Retains.refl db with
    evidence := Table.evolves_insert (fun _ => rfl) inserted
    chained := chained_frame rfl rfl rfl }⟩

theorem experienced {inRange : String → Bool} {envelope : Json} {receiptId : Option String}
    {row : ExperienceRow}
    (ran : store.recordExperienceReceipt inRange now tenantId envelope receiptId db = .ok (row, after)) :
    Apart db after := by
  obtain ⟨_, _, rfl⟩ := recordExperienceReceipt_cases ran
  exact ⟨rfl, .of_equal rfl rfl rfl rfl rfl⟩

theorem registered {artifactId policyName version contentSha256 artifactUri : String}
    {metadata : Option Json} {row : ArtifactRow}
    (ran : registerPolicyArtifact now tenantId artifactId policyName version contentSha256 artifactUri
      metadata db = .ok (row, after)) : Apart db after := by
  have chained := fun (chain : db.chained) => (registerPolicyArtifact_kept chain ran).1
  rcases registerPolicyArtifact_cases ran with ⟨rfl, _⟩ | ⟨_, inserted, rfl, _⟩
  · exact .refl _
  · exact ⟨rfl, { Retains.refl db with
      artifacts := Table.evolves_insert (fun _ => rfl) inserted
      chained }⟩

theorem trained {trainingId policyName artifactId trainedBy : String} {leaseFencingToken : Int}
    {report : Json} {row : TrainingRow}
    (ran : recordTrainingRun now tenantId trainingId policyName artifactId trainedBy leaseFencingToken
      report db = .ok (row, after)) : Apart db after := by
  obtain ⟨_, _, _, ⟨rfl, _⟩ | ⟨_, inserted, rfl⟩⟩ := recordTrainingRun_cases ran
  · exact .refl _
  · exact ⟨rfl, { Retains.refl db with
      trainingRuns := Table.evolves_insert (fun _ => rfl) inserted
      chained := chained_frame rfl rfl rfl }⟩

theorem promoted {uuid policyName artifactId : String} {expected : Option String}
    {decidedBy reason : String} {benchmarkReceiptId auditId : Option String} {promotion : Promotion}
    (ran : promotePolicy now uuid tenantId policyName artifactId expected decidedBy reason
      benchmarkReceiptId auditId db = .ok (promotion, after)) : Apart db after := by
  have chained := fun (chain : db.chained) => (promotePolicy_kept chain ran).1
  obtain ⟨_, _, ⟨rfl, _⟩ | ⟨_, _, _, _, _, _, _, _, _, _, inserted, rfl, _⟩⟩ := promotePolicy_cases ran
  · exact .refl _
  · exact ⟨rfl, { Retains.refl db with
      audit := Table.evolves_insert (fun _ => rfl) inserted
      chained }⟩

end Apart

namespace ControlPlane

variable {Model : Type} {plane : ControlPlane Model} {index : Nat} {call : Call}

theorem PlaneStep.apart {w after : World} (step : PlaneStep call w after) :
    Apart w.db after.db ∧ after.notes = w.notes ∧ after.clock = w.clock := by
  cases step with
  | still => exact ⟨.refl _, rfl, rfl⟩
  | opened ran => exact ⟨.created ran, rfl, rfl⟩
  | reserved ran => exact ⟨.reserved ran, rfl, rfl⟩
  | released ran => exact ⟨.settled ran, rfl, rfl⟩
  | acquired ran => exact ⟨.acquired ran, rfl, rfl⟩
  | renewed ran => exact ⟨.renewed ran, rfl, rfl⟩
  | freed ran => exact ⟨.freed ran, rfl, rfl⟩
  | wrote absent => exact ⟨.refl _, rfl, rfl⟩

theorem registerArtifact_apart {now : Int} {tenantId family : String} {model : Model}
    {contentHash : String} {metadata : Json} {db after : Db} {row : ArtifactRow}
    (ran : plane.registerArtifact now tenantId family model contentHash metadata db = .ok (row, after)) :
    Apart db after := by
  simp only [registerArtifact, bind_eq_ok] at ran
  obtain ⟨_, _, ran⟩ := ran
  exact .registered ran

theorem recordPromotionReport_apart {draws : Draws} {tenantId artifactId receiptId : String}
    {report : Json} {now : Int} {db after : Db}
    (ran : plane.recordPromotionReport draws tenantId artifactId report now db =
      .ok (receiptId, after)) : Apart db after := by
  simp only [recordPromotionReport, bind_eq_ok, pure_eq_ok, Prod.exists, Prod.mk.injEq] at ran
  obtain ⟨_, _, _, _, stored, middle, recorded, _, rfl⟩ := ran
  exact .evidenced recorded

theorem StateBody.apart {body : Int → Db → Except PyError (Json × Commit × Db)}
    (listed : plane.StateBody call body) {now : Int} {db after : Db} {response : Json} {commit : Commit}
    (ran : body now db = .ok (response, commit, after)) : Apart db after := by
  cases listed with
  | decision =>
      simp only [decisionTransaction, bind_eq_ok, pure_eq_ok, Prod.exists, Prod.mk.injEq] at ran
      obtain ⟨_, _, recorded, _, _, appended, _, _, consumed, _, _, rfl⟩ := ran
      exact (Apart.experienced recorded).trans ((Apart.appended appended).trans (.settled consumed))
  | evidence =>
      simp only [evidenceTransaction, bind_eq_ok, pure_eq_ok, Prod.exists, Prod.mk.injEq] at ran
      obtain ⟨_, _, recorded, _, _, appended, _, _, rfl⟩ := ran
      exact (Apart.evidenced recorded).trans (.appended appended)
  | hidden =>
      simp only [hiddenTransaction, bind_eq_ok, pure_eq_ok, Prod.exists, Prod.mk.injEq] at ran
      obtain ⟨_, _, _, _, consumed, _, _, recorded, _, _, appended, _, _, _, _, _, _, _, _, rfl⟩ := ran
      exact (Apart.settled consumed).trans ((Apart.evidenced recorded).trans (.appended appended))
  | train =>
      simp only [trainTransaction, bind_eq_ok, pure_eq_ok, Prod.exists, Prod.mk.injEq] at ran
      obtain ⟨_, _, renewed, _, _, _, _, registered, _, _, trained, _, _, appended, _, _, consumed, _, _,
        rfl⟩ := ran
      exact (Apart.renewed renewed).trans ((registerArtifact_apart registered).trans
        ((Apart.trained trained).trans ((Apart.appended appended).trans (.settled consumed))))
  | promote =>
      simp only [promoteTransaction, bind_eq_ok, pure_eq_ok, Prod.exists, Prod.mk.injEq] at ran
      obtain ⟨_, _, reported, _, _, promoted, _, _, appended, _, _, rfl⟩ := ran
      exact (recordPromotionReport_apart reported).trans
        ((Apart.promoted promoted).trans (.appended appended))
  | rollback =>
      simp only [rollbackTransaction, bind_eq_ok, pure_eq_ok, Prod.exists, Prod.mk.injEq] at ran
      obtain ⟨_, _, promoted, _, _, appended, _, _, rfl⟩ := ran
      exact (Apart.promoted promoted).trans (.appended appended)

end ControlPlane

end AgentTree
