import AgentTree.CommitRuns

/-!
Lease fencing: the lease calls with any holder, token and time, the training requests
that use them, and a recovery at any point.  A training run commits while its holder
has the lease, so a later token has not been granted yet.
-/

namespace AgentTree

open Outcome Relational Concurrent ControlPlane

/-- A lease call on its own, or a request to the control plane. -/
inductive FencedCall : Type
  | acquireLease (tenantId resourceId holderId : String) (ttlSeconds : Int) (at? : Option Int)
  | renewLease (tenantId resourceId holderId : String) (fencingToken ttlSeconds : Int)
      (at? : Option Int)
  | releaseLease (tenantId resourceId holderId : String) (fencingToken : Int)
  | request (call : Call)

def FencedCall.run {Model : Type} (plane : ControlPlane Model) (index : Nat) : FencedCall → Op Json
  | acquireLease tenantId resourceId holderId ttlSeconds at? => do
      storeCall fun now db =>
        AgentTree.acquireLease now tenantId resourceId holderId ttlSeconds at? db
      let row ← storeRead (getLease tenantId resourceId)
      return .int row.fencingToken
  | renewLease tenantId resourceId holderId fencingToken ttlSeconds at? => do
      storeCall fun now db =>
        AgentTree.renewLease now tenantId resourceId holderId fencingToken ttlSeconds at? db
      let row ← storeRead (getLease tenantId resourceId)
      return .int row.fencingToken
  | releaseLease tenantId resourceId holderId fencingToken => do
      storeCall fun now db =>
        AgentTree.releaseLease now tenantId resourceId holderId fencingToken db
      return .null
  | request call => plane.perform index call

/-- The holder that a training request draws for its lease. -/
def FencedCall.trainer : FencedCall → Option String
  | request call => if call.scope = "train" then some (call.draws.uuid 0) else none
  | _ => none

/-- Lease calls and requests, with a recovery that may come without a kill. -/
def ControlPlane.fencedService {Model : Type} (plane : ControlPlane Model) (calls : Nat → FencedCall) :
    Service Nat World PyError Json where
  call index := (calls index).run plane index
  surroundings s t := s.Around t ∨ s.Recovers t
  recovery := World.Recovers

/-- The tokens of the training events of one policy family, in commit order. -/
def Db.trainedTokens (db : Db) (tenantId family : String) : List (Option Json) :=
  (db.events.rows.filter fun row => row.tenantId = tenantId && row.streamId = "policy:" ++ family &&
    row.eventType = "CHALLENGER_TRAINED").map fun row => row.payload.get? "lease_fencing_token"

def Note.trained? : Note → Option Nat
  | .committed call _ _ .trained => some call
  | _ => none

/-- The calls that have committed a training run. -/
def World.trained (w : World) : List Nat := w.notes.filterMap Note.trained?

section Invariant

variable (calls : Nat → FencedCall) (tenantId family : String)

/-- No training event has a later token than the lease; one with the same token is of a call that is done. -/
def Behind (w : World) (token : Int) : Prop :=
  ∃ row, w.db.leases.find? (tenantId, "train:" ++ family) = some row ∧
    (token < row.fencingToken ∨ token = row.fencingToken ∧ ∀ holder, row.holderId = some holder →
      ∃ i ∈ w.trained, (calls i).trainer = some holder)

def FenceInv (w : World) : Prop :=
  ∃ tokens : List Int, w.db.trainedTokens tenantId family = tokens.map (some ∘ Json.int) ∧
    tokens.Pairwise (· < ·) ∧ ∀ token ∈ tokens, Behind calls tenantId family w token

end Invariant

/-- A step that commits no training run. -/
structure Unfenced (s t : World) : Prop where
  moves : LeaseMoves s.db t.db
  tokens : ∀ tenantId family, t.db.trainedTokens tenantId family = s.db.trainedTokens tenantId family
  trained : t.trained = s.trained

/-- A training run that commits under the lease of its holder. -/
structure Trains (index : Nat) (holder : String) (s t : World) : Prop where
  moves : LeaseMoves s.db t.db
  trained : t.trained = s.trained ++ [index]
  fenced : ∃ tenantId family token row later,
    s.db.leases.find? (tenantId, "train:" ++ family) = some row ∧ row.holderId = some holder ∧
    row.fencingToken = token ∧ t.db.leases.find? (tenantId, "train:" ++ family) = some later ∧
    row.refreshes later ∧
    t.db.trainedTokens tenantId family =
      s.db.trainedTokens tenantId family ++ [some (.int token)] ∧
    ∀ otherTenant otherFamily, (otherTenant, otherFamily) ≠ (tenantId, family) →
      t.db.trainedTokens otherTenant otherFamily = s.db.trainedTokens otherTenant otherFamily

section Rules

variable {calls : Nat → FencedCall} {tenantId family : String} {s t : World}

theorem Behind.moved {token : Int} (moves : LeaseMoves s.db t.db)
    (grown : ∀ i ∈ s.trained, i ∈ t.trained) (behind : Behind calls tenantId family s token) :
    Behind calls tenantId family t token := by
  obtain ⟨row, found, bound⟩ := behind
  have move := moves (tenantId, "train:" ++ family)
  rw [found] at move
  unfold Behind
  generalize t.db.leases.find? (tenantId, "train:" ++ family) = after at move
  have done : token = row.fencingToken ∧ (∀ holder, row.holderId = some holder →
      ∃ i ∈ s.trained, (calls i).trainer = some holder) → token = row.fencingToken ∧
      ∀ holder, row.holderId = some holder → ∃ i ∈ t.trained, (calls i).trainer = some holder :=
    fun ⟨same, all⟩ => ⟨same, fun holder held =>
      let ⟨i, member, trainer⟩ := all holder held
      ⟨i, grown i member, trainer⟩⟩
  cases move with
  | same => exact ⟨row, rfl, bound.imp_right done⟩
  | @refreshed _ later moved =>
      refine ⟨later, rfl, ?_⟩
      rw [moved.1, moved.2]
      exact bound.imp_right done
  | @freed _ later moved =>
      refine ⟨later, rfl, ?_⟩
      rw [moved.1, moved.2]
      exact bound.imp_right fun same => ⟨same.1, by simp⟩
  | @granted _ later time moved =>
      have := moved.2.2
      exact ⟨later, rfl, .inl (by omega)⟩

theorem Unfenced.kept (step : Unfenced s t) (inv : FenceInv calls tenantId family s) :
    FenceInv calls tenantId family t := by
  obtain ⟨tokens, listed, ordered, behind⟩ := inv
  exact ⟨tokens, (step.tokens _ _).trans listed, ordered, fun token member =>
    (behind token member).moved step.moves fun i trained => step.trained ▸ trained⟩

theorem Trains.kept {index : Nat} {holder : String}
    (distinct : ∀ i j holder, (calls i).trainer = some holder → (calls j).trainer = some holder → i = j)
    (own : (calls index).trainer = some holder) (fresh : index ∉ s.trained) (step : Trains index holder s t)
    (inv : FenceInv calls tenantId family s) : FenceInv calls tenantId family t := by
  obtain ⟨tenant, policy, token, row, later, found, held, same, there, refreshed, added, elsewhere⟩ :=
    step.fenced
  obtain ⟨tokens, listed, ordered, behind⟩ := inv
  by_cases here : (tenantId, family) = (tenant, policy)
  · obtain ⟨rfl, rfl⟩ := Prod.mk.inj here
    -- The holder is not one that has trained, so its token is later than all of them.
    have earlier : ∀ old ∈ tokens, old < token := by
      intro old member
      obtain ⟨_, present, less | ⟨_, done⟩⟩ := behind old member
      · obtain rfl := Option.some.inj (found.symm.trans present)
        omega
      · obtain rfl := Option.some.inj (found.symm.trans present)
        obtain ⟨i, member, trainer⟩ := done holder held
        exact absurd (distinct _ _ _ own trainer ▸ member) fresh
    refine ⟨tokens ++ [token], by simp [added, listed], ?_, fun old member => ?_⟩
    · rw [List.pairwise_append]
      exact ⟨ordered, List.pairwise_singleton _ _, by simpa using earlier⟩
    · refine ⟨later, there, ?_⟩
      rw [refreshed.1, refreshed.2]
      rcases List.mem_append.mp member with before | last
      · exact .inl (same ▸ earlier old before)
      · obtain rfl := List.mem_singleton.mp last
        refine .inr ⟨same.symm, fun other is => ⟨index, by simp [step.trained], ?_⟩⟩
        rw [own, ← held, is]
  · exact ⟨tokens, (elsewhere _ _ here).trans listed, ordered, fun old member =>
      (behind old member).moved step.moves fun i trained => by simp [step.trained, trained]⟩

end Rules

/-! The steps of the calls. -/

section Steps

variable {Model : Type} {plane : ControlPlane Model} {index : Nat} {call : Call} {w after : World}

theorem trainedTokens_append {db : Db} {events : Table _ _ EventRow.key} {row : EventRow}
    (inserted : db.events.insert row = some events) (tenantId family : String) :
    Db.trainedTokens { db with events } tenantId family = db.trainedTokens tenantId family ++
      if row.tenantId = tenantId ∧ row.streamId = "policy:" ++ family ∧
        row.eventType = "CHALLENGER_TRAINED" then [row.payload.get? "lease_fencing_token"] else [] := by
  have rows := (Table.insert_eq_some.mp inserted).2
  simp only [Db.trainedTokens, rows, List.filter_append, List.map_append]
  congr 1
  by_cases fits : row.tenantId = tenantId ∧ row.streamId = "policy:" ++ family ∧
      row.eventType = "CHALLENGER_TRAINED"
  · simp [fits]
  · rw [if_neg fits, List.filter_eq_nil_iff.mpr, List.map_nil]
    simpa [and_assoc] using fits

/-- The leases are as before, and so are the training events. -/
structure Calm (before after : Db) : Prop where
  leases : after.leases = before.leases
  tokens : ∀ tenantId family, after.trainedTokens tenantId family = before.trainedTokens tenantId family

namespace Calm

variable {first second third : Db}

theorem trans (one : Calm first second) (two : Calm second third) : Calm first third :=
  ⟨two.leases.trans one.leases, fun tenantId family =>
    (two.tokens tenantId family).trans (one.tokens tenantId family)⟩

theorem of_equal (leases : second.leases = first.leases) (events : second.events = first.events) :
    Calm first second := ⟨leases, fun _ _ => by simp [Db.trainedTokens, events]⟩

/-- An event of another type. -/
theorem appended {store : Store} {now : Int} {uuid tenantId streamId eventType : String}
    {payload : Json} {eventId : Option String} {expected occurredAt : Option Int} {row : EventRow}
    (other : eventType ≠ "CHALLENGER_TRAINED")
    (ran : store.appendEvent now uuid tenantId streamId eventType payload eventId expected occurredAt
      first = .ok (row, second)) : Calm first second := by
  obtain ⟨events, inserted, rfl, _, _, _, type, _⟩ := appendEvent_cases ran
  refine ⟨rfl, fun _ _ => ?_⟩
  rw [trainedTokens_append inserted, if_neg (by simp [type, other]), List.append_nil]

theorem settled {now : Int} {tenantId budgetId reservationId : String} {target : ReservationStatus}
    {snapshot : BudgetSnapshot}
    (ran : transitionReservation now tenantId budgetId reservationId target first =
      .ok (snapshot, second)) : Calm first second := by
  rcases transitionReservation_cases ran with ⟨rfl, _⟩ | ⟨_, _, _, _, rfl⟩ <;> exact .of_equal rfl rfl

theorem evidenced {store : Store} {now : Int} {tenantId : String} {envelope : Json}
    {receiptId : Option String} {row : EvidenceRow}
    (ran : store.recordEvidenceReceipt now tenantId envelope receiptId first = .ok (row, second)) :
    Calm first second := by
  obtain ⟨_, _, _, rfl, _⟩ := recordEvidenceReceipt_cases ran
  exact .of_equal rfl rfl

theorem experienced {store : Store} {inRange : String → Bool} {now : Int} {tenantId : String}
    {envelope : Json} {receiptId : Option String} {row : ExperienceRow}
    (ran : store.recordExperienceReceipt inRange now tenantId envelope receiptId first =
      .ok (row, second)) : Calm first second := by
  obtain ⟨_, _, rfl⟩ := recordExperienceReceipt_cases ran
  exact .of_equal rfl rfl

theorem registered {Model : Type} {plane : ControlPlane Model} {now : Int} {tenantId family : String}
    {model : Model} {contentHash : String} {metadata : Json} {row : ArtifactRow}
    (ran : plane.registerArtifact now tenantId family model contentHash metadata first =
      .ok (row, second)) : Calm first second := by
  simp only [registerArtifact, bind_eq_ok] at ran
  obtain ⟨_, _, ran⟩ := ran
  rcases registerPolicyArtifact_cases ran with ⟨rfl, _⟩ | ⟨_, _, rfl, _⟩ <;> exact .of_equal rfl rfl

theorem recorded {now : Int} {tenantId trainingId policyName artifactId trainedBy : String}
    {leaseFencingToken : Int} {report : Json} {row : TrainingRow}
    (ran : recordTrainingRun now tenantId trainingId policyName artifactId trainedBy leaseFencingToken
      report first = .ok (row, second)) : Calm first second := by
  obtain ⟨_, _, _, ⟨rfl, _⟩ | ⟨_, _, rfl⟩⟩ := recordTrainingRun_cases ran <;> exact .of_equal rfl rfl

theorem finished {now : Int} {tenantId scope key : String} {status : IdempotencyStatus} {result : Json}
    {record : IdempotencyRecord}
    (ran : finishIdempotency now tenantId scope key status result first = .ok (record, second)) :
    Calm first second := by
  obtain ⟨_, _, ⟨_, rfl⟩ | ⟨_, _, rfl⟩⟩ := finishIdempotency_cases ran <;> exact .of_equal rfl rfl

theorem promoted {now : Int} {uuid tenantId policyName artifactId : String} {expected : Option String}
    {decidedBy reason : String} {benchmarkReceiptId auditId : Option String} {promotion : Promotion}
    (ran : promotePolicy now uuid tenantId policyName artifactId expected decidedBy reason
      benchmarkReceiptId auditId first = .ok (promotion, second)) : Calm first second := by
  obtain ⟨_, _, ⟨rfl, _⟩ | ⟨_, _, _, _, _, _, _, _, _, _, _, rfl, _⟩⟩ := promotePolicy_cases ran <;>
    exact .of_equal rfl rfl

end Calm

theorem Unfenced.of_leases {db : Db}
    (moved : LeaseMoves w.db db ∧ ∃ leases, db = { w.db with leases }) :
    Unfenced w { w with db } := by
  obtain ⟨moves, leases, rfl⟩ := moved
  exact ⟨moves, fun _ _ => rfl, rfl⟩

theorem Unfenced.of_equal {db : Db} (leases : db.leases = w.db.leases) (events : db.events = w.db.events) :
    Unfenced w { w with db } :=
  ⟨.of_equal leases, fun _ _ => by simp [Db.trainedTokens, events], rfl⟩

theorem PlaneStep.unfenced (step : PlaneStep call w after) : Unfenced w after := by
  cases step with
  | still => exact .of_equal rfl rfl
  | opened ran =>
      rcases createBudget_cases ran with rfl | ⟨_, _, _, _, rfl⟩ <;> exact .of_equal rfl rfl
  | reserved ran =>
      rcases reserveBudget_cases ran with rfl | ⟨_, _, _, _, _, _, _, rfl⟩ <;> exact .of_equal rfl rfl
  | released ran =>
      rcases transitionReservation_cases ran with ⟨rfl, _⟩ | ⟨_, _, _, _, rfl⟩ <;>
        exact .of_equal rfl rfl
  | acquired ran => exact .of_leases (acquireLease_moves ran)
  | renewed ran => exact .of_leases (renewLease_moves ran)
  | freed ran => exact .of_leases (releaseLease_moves ran)
  | wrote absent => exact ⟨.of_equal rfl, fun _ _ => rfl, rfl⟩

theorem WrapperStep.unfenced (step : plane.WrapperStep index call w after) : Unfenced w after := by
  cases step with
  | operation step => exact PlaneStep.unfenced step
  | @claimed record db note claimed remarks =>
      have silent : (if record.isNew then note else []).filterMap Note.trained? = [] := by
        rw [List.filterMap_eq_nil_iff]
        intro remark member
        split at member
        · simp [remarks remark member, Note.trained?]
        · simp at member
      rcases claimIdempotency_cases claimed with ⟨_, _, _, rfl⟩ | ⟨_, _, _, _, _, rfl⟩
      · exact ⟨.of_equal rfl, fun _ _ => rfl, by simp [World.trained, silent]⟩
      · exact ⟨.of_equal rfl, fun _ _ => rfl, by simp [World.trained, silent]⟩
  | finished finished =>
      obtain ⟨row, found, ⟨_, rfl⟩ | ⟨_, _, rfl⟩⟩ := finishIdempotency_cases finished
      · exact .of_equal rfl rfl
      · exact .of_equal rfl rfl

/-- A recovery frees every lease that is held. -/
theorem World.Recovers.unfenced {s t : World} (recovered : s.Recovers t) : Unfenced s t := by
  obtain ⟨report, db, ran, rfl⟩ := recovered
  rw [reconcileStartup_cases ran]
  refine ⟨fun k => ?_, fun _ _ => rfl, rfl⟩
  simp only [Table.find?_update]
  cases s.db.leases.find? k with
  | none => exact .same _
  | some row =>
      simp only [Option.map_some]
      split
      next => exact .freed ⟨rfl, rfl⟩
      next => exact .same _

/-- No other state transaction touches the leases or the training events. -/
theorem StateBody.calm {body : Int → Db → Except PyError (Json × Commit × Db)}
    (listed : plane.StateBody call body) {now : Int} {db later : Db} {response : Json} {commit : Commit}
    (ran : body now db = .ok (response, commit, later)) (other : commit ≠ .trained) : Calm db later := by
  cases listed with
  | decision =>
      simp only [decisionTransaction, bind_eq_ok, pure_eq_ok, Prod.exists, Prod.mk.injEq] at ran
      obtain ⟨_, _, recorded, _, _, appended, _, _, consumed, _, _, rfl⟩ := ran
      exact (Calm.experienced recorded).trans ((Calm.appended (by decide) appended).trans (.settled consumed))
  | evidence =>
      simp only [evidenceTransaction, bind_eq_ok, pure_eq_ok, Prod.exists, Prod.mk.injEq] at ran
      obtain ⟨_, _, recorded, _, _, appended, _, _, rfl⟩ := ran
      exact (Calm.evidenced recorded).trans (.appended (by decide) appended)
  | hidden =>
      simp only [hiddenTransaction, bind_eq_ok, pure_eq_ok, Prod.exists, Prod.mk.injEq] at ran
      obtain ⟨_, _, _, _, consumed, _, _, recorded, _, _, appended, _, _, _, _, _, _, _, _, rfl⟩ := ran
      exact (Calm.settled consumed).trans ((Calm.evidenced recorded).trans
        (.appended (by decide) appended))
  | train =>
      simp only [trainTransaction, bind_eq_ok, pure_eq_ok, Prod.exists, Prod.mk.injEq] at ran
      obtain ⟨_, _, _, _, _, _, _, _, _, _, _, _, _, _, _, _, _, _, rfl, _⟩ := ran
      exact absurd rfl other
  | promote =>
      simp only [promoteTransaction, bind_eq_ok, pure_eq_ok, Prod.exists, Prod.mk.injEq] at ran
      obtain ⟨_, _, reported, _, _, promoted, _, _, appended, _, _, rfl⟩ := ran
      simp only [recordPromotionReport, bind_eq_ok, pure_eq_ok, Prod.exists, Prod.mk.injEq] at reported
      obtain ⟨_, _, _, _, _, _, recorded, _, rfl⟩ := reported
      exact (Calm.evidenced recorded).trans ((Calm.promoted promoted).trans
        (.appended (by decide) appended))
  | rollback =>
      simp only [rollbackTransaction, bind_eq_ok, pure_eq_ok, Prod.exists, Prod.mk.injEq] at ran
      obtain ⟨_, _, promoted, _, _, appended, _, _, rfl⟩ := ran
      exact (Calm.promoted promoted).trans (.appended (by decide) appended)

/-- The payload of a training event keeps its token in the canonical form. -/
theorem trained_payload (artifactId trainingId trainedBy : Json) (token : Int) (report accepted : Json) :
    (Json.obj [
      ("artifact_id", artifactId),
      ("training_id", trainingId),
      ("trained_by", trainedBy),
      ("lease_fencing_token", .int token),
      ("promotion_report", report),
      ("accepted_by_offline_gate", accepted)]).canonical.get? "lease_fencing_token" =
      some (.int token) := by
  rfl

/-- The training transaction renews the lease of its holder and appends its token. -/
theorem trainTransaction_trains {family holder reservation : String} {fencingToken leaseTtl : Int}
    {key : OperationKey} {draws : Draws} {principal : Principal} {challenger : Model}
    {contentHash : String} {report : PromotionReport} {now : Int} {db later : Db} {response : Json}
    {commit : Commit}
    (ran : plane.trainTransaction key draws principal family holder reservation fencingToken leaseTtl
      challenger contentHash report now db = .ok (response, commit, later)) :
    LeaseMoves db later ∧ ∃ row renewed,
      db.leases.find? (principal.tenantId, "train:" ++ family) = some row ∧
      row.holderId = some holder ∧ row.fencingToken = fencingToken ∧
      later.leases.find? (principal.tenantId, "train:" ++ family) = some renewed ∧
      row.refreshes renewed ∧
      later.trainedTokens principal.tenantId family =
        db.trainedTokens principal.tenantId family ++ [some (.int fencingToken)] ∧
      ∀ tenantId other, (tenantId, other) ≠ (principal.tenantId, family) →
        later.trainedTokens tenantId other = db.trainedTokens tenantId other := by
  simp only [trainTransaction, bind_eq_ok, pure_eq_ok, Prod.exists, Prod.mk.injEq] at ran
  obtain ⟨_, _, renewal, _, _, _, second, registered, _, third, trained, _, fourth, appended, _, fifth,
    consumed, _, _, rfl⟩ := ran
  have moves := (renewLease_moves renewal).1
  obtain ⟨row, found, held, same, _, rfl⟩ := renewLease_cases renewal
  have calm := (Calm.registered registered).trans (.recorded trained)
  obtain ⟨events, inserted, rfl, _, tenant, stream, type, payload⟩ := appendEvent_cases appended
  have last := Calm.settled consumed
  have tokens : ∀ tenantId other, fifth.trainedTokens tenantId other =
      db.trainedTokens tenantId other ++ if principal.tenantId = tenantId ∧
        "policy:" ++ family = "policy:" ++ other then [some (.int fencingToken)] else [] := by
    intro tenantId other
    rw [last.tokens, trainedTokens_append inserted, tenant, stream, type, payload, trained_payload,
      calm.tokens]
    simp [Db.trainedTokens]
  have leases : fifth.leases = _ := last.leases.trans calm.leases
  have renewed : fifth.leases.find? (principal.tenantId, "train:" ++ family) =
      some { row with
        heartbeatAt := now
        expiresAt := now + leaseTtl } := by
    rw [leases, Table.find?_updateAt, if_pos rfl, found]
    rfl
  refine ⟨fun k => leases ▸ moves k, row, _, found, held, same, renewed, ⟨rfl, rfl⟩, ?_, ?_⟩
  · simp [tokens]
  · intro tenantId other apart
    rw [tokens, if_neg, List.append_nil]
    rintro ⟨rfl, equal⟩
    exact apart (by rw [(String.append_right_inj _).mp equal])

/-- A state transaction commits a training run under its lease, or no training run. -/
theorem StateCommit.fences {response : Json}
    (committed : plane.StateCommit index call response w after) :
    Unfenced w after ∨ call.scope = "train" ∧ Trains index (call.draws.uuid 0) w after := by
  obtain ⟨body, listed, commit, middle, record, db, ran, completed, rfl⟩ := committed
  have finished := Calm.finished completed
  have scope := StateBody.scope listed ran
  by_cases kind : commit = .trained
  · subst kind
    refine .inr ⟨scope.symm, ?_⟩
    cases listed with
    | train named family reservation fencingToken leaseTtl challenger contentHash report =>
        obtain ⟨moves, row, renewed, found, held, same, there, refreshed, added, elsewhere⟩ :=
          trainTransaction_trains ran
        refine ⟨fun k => finished.leases ▸ moves k, by simp [World.trained, Note.trained?], ?_⟩
        exact ⟨_, family, _, row, renewed, found, held, same, finished.leases ▸ there, refreshed,
          (finished.tokens _ _).trans added,
          fun tenantId other apart => (finished.tokens _ _).trans (elsewhere tenantId other apart)⟩
    | decision named | evidence named | hidden named | promote named | rollback named =>
        exact absurd (named.symm.trans scope.symm) (by decide)
  · refine .inl ⟨.of_equal ?_, ?_, ?_⟩
    · exact ((StateBody.calm listed ran kind).trans finished).leases
    · exact ((StateBody.calm listed ran kind).trans finished).tokens
    · have silent : Note.trained? (.committed index call.key response commit) = none := by
        cases commit <;> simp_all [Note.trained?]
      simp [World.trained, silent]

end Steps

/-! The calls keep the order of the tokens. -/

section Runs

variable {Model : Type} {plane : ControlPlane Model} {calls : Nat → FencedCall} {tenantId family : String}
  {i : Nat} {s : World}

/-- A call relies on the others not to commit its training run. -/
def fenceContract (calls : Nat → FencedCall) (tenantId family : String) (i : Nat) : Contract World where
  inv := FenceInv calls tenantId family
  rely s t := i ∈ t.trained → i ∈ s.trained
  guar s t := LeaseMoves s.db t.db ∧ ∀ j ∈ t.trained, j ∈ s.trained ∨ j = i
  rely_refl _ := id
  rely_trans first second := first ∘ second

theorem wp_unfenced {program : Op α} {P : World → Prop} (only : program.Only Unfenced)
    (inv : FenceInv calls tenantId family s) (holds : P s)
    (stable : ∀ s t : World, (i ∈ t.trained → i ∈ s.trained) → P s → P t) :
    program.wp (fenceContract calls tenantId family i) (fun _ t => P t) s := by
  refine Prog.wp_of_only only inv holds (fun s t _ _ => stable s t) fun s t inv before step => ?_
  have trained := step.trained
  exact ⟨step.kept inv, ⟨step.moves, fun j member => .inl (trained ▸ member)⟩,
    stable s t (fun member => trained ▸ member) before⟩

theorem only_unfenced {run : Int → Db → Except PyError (α × Db)}
    (moves : ∀ now db value after, run now db = .ok (value, after) →
      LeaseMoves db after ∧ ∃ leases, after = { db with leases }) : (storeCall run).Only Unfenced := by
  have still : ∀ w, Unfenced w w := fun w => .of_equal rfl rfl
  refine Prog.only_exposed still fun w value t ran => ?_
  unfold onStore at ran
  split at ran
  next value db stored =>
    obtain ⟨_, rfl⟩ := Prod.mk.inj (Except.ok.inj ran)
    exact .of_leases (moves _ _ _ _ stored)
  next => simp at ran

theorem only_unfencedRead (read : Db → Except PyError α) : (storeRead read).Only Unfenced := by
  refine Prog.only_exposed (fun w => .of_equal rfl rfl) fun w value t ran => ?_
  split at ran
  · obtain ⟨_, rfl⟩ := Prod.mk.inj (Except.ok.inj ran)
    exact .of_equal rfl rfl
  · simp at ran

/-- A lease call commits no training run. -/
theorem only_leaseCall (plane : ControlPlane Model) (index : Nat) :
    ∀ call : FencedCall, call.trainer = none → (∀ request, call ≠ .request request) →
      (call.run plane index).Only Unfenced
  | .acquireLease .., _, _ => Prog.Only.bind (only_unfenced fun _ _ _ _ => acquireLease_moves) fun _ =>
      Prog.Only.bind (only_unfencedRead _) fun _ => trivial
  | .renewLease .., _, _ => Prog.Only.bind (only_unfenced fun _ _ _ _ => renewLease_moves) fun _ =>
      Prog.Only.bind (only_unfencedRead _) fun _ => trivial
  | .releaseLease .., _, _ => Prog.Only.bind (only_unfenced fun _ _ _ _ => releaseLease_moves) fun _ =>
      trivial
  | .request request, _, other => absurd rfl (other request)

/-- An operation commits its training run under the lease of a holder of its own. -/
theorem operation_fenced {call : Call}
    (distinct : ∀ i j holder, (calls i).trainer = some holder → (calls j).trainer = some holder → i = j)
    (mine : calls i = .request call) (inv : FenceInv calls tenantId family s) (fresh : i ∉ s.trained) :
    (plane.operation i call).wp (fenceContract calls tenantId family i) (fun _ _ => True) s := by
  refine Prog.wp_mono (fun _ _ _ _ => trivial) (Prog.wp_of_commits
    (P := fun committed t => committed = none → i ∉ t.trained) (commits_operation plane i call) inv
    (fun _ => fresh) ?_ ?_ ?_)
  · exact fun state s t _ _ relied before first member => before first (relied member)
  · intro state s t inv before step
    have quiet := PlaneStep.unfenced step
    have trained := quiet.trained
    exact ⟨quiet.kept inv, ⟨quiet.moves, fun j member => .inl (trained ▸ member)⟩,
      fun first => trained ▸ before first⟩
  · intro value s t inv before committed
    rcases StateCommit.fences committed with quiet | ⟨named, trains⟩
    · have trained := quiet.trained
      exact ⟨quiet.kept inv, ⟨quiet.moves, fun j member => .inl (trained ▸ member)⟩, by simp⟩
    · have own : (calls i).trainer = some (call.draws.uuid 0) := by
        simp [mine, FencedCall.trainer, named]
      refine ⟨trains.kept distinct own (before rfl) inv, ⟨trains.moves, fun j member => ?_⟩, by simp⟩
      simpa [trains.trained] using member

theorem request_fenced {call : Call}
    (distinct : ∀ i j holder, (calls i).trainer = some holder → (calls j).trainer = some holder → i = j)
    (mine : calls i = .request call) (inv : FenceInv calls tenantId family s) (fresh : i ∉ s.trained) :
    (plane.perform i call).wp (fenceContract calls tenantId family i) (fun _ _ => True) s := by
  have quiet : ∀ s t, plane.WrapperStep i call s t → Unfenced s t := fun _ _ => WrapperStep.unfenced
  have wrapped : ∀ {β : Type} {program : Op β} {t : World}, program.Only (plane.WrapperStep i call) →
      FenceInv calls tenantId family t →
      program.wp (fenceContract calls tenantId family i) (fun _ _ => True) t :=
    fun only inv => wp_unfenced (P := fun _ => True) (only.mono quiet) inv trivial fun _ _ _ _ => trivial
  refine Prog.wp_bind (p := Prog.ofExcept (allowedFields call)) inv (Prog.wp_done fun t invT relied => ?_)
  cases allowedFields call with
  | error _ => trivial
  | ok _ =>
  refine Prog.wp_bind invT (Prog.wp_mono ?_ (wp_unfenced (P := fun t => i ∉ t.trained)
    ((only_claim (by simp)).mono quiet) invT (fun member => fresh (relied member))
    fun _ _ relied before member => before (relied member)))
  intro result u invU unused
  cases result with
  | error _ => trivial
  | ok record =>
      dsimp only
      split
      · refine Prog.wp_tryCatch invU (Prog.wp_bind invU (Prog.wp_mono ?_
          (operation_fenced distinct mine invU unused)))
        intro result v invV _
        cases result with
        | error error => exact wrapped (only_recoverResponse error) invV
        | ok response =>
            refine Prog.wp_mono ?_ (wrapped (Prog.Only.bind ⟨only_finish _ _, fun _ => trivial⟩
              fun _ => trivial) invV)
            intro result x invX _
            cases result with
            | error error => exact wrapped (only_recoverResponse error) invX
            | ok _ => trivial
      · split
        · exact Prog.wp_done fun _ _ _ => trivial
        · exact Prog.wp_done fun _ _ _ => trivial

def fencedVerified (plane : ControlPlane Model) (calls : Nat → FencedCall) (tenantId family : String)
    (distinct : ∀ i j holder,
      (calls i).trainer = some holder → (calls j).trainer = some holder → i = j) :
    (plane.fencedService calls).Verified where
  inv := FenceInv calls tenantId family
  rely i s t := i ∈ t.trained → i ∈ s.trained
  guar i s t := LeaseMoves s.db t.db ∧ ∀ j ∈ t.trained, j ∈ s.trained ∨ j = i
  pre i s := i ∉ s.trained
  post _ _ _ := True
  dead _ _ := True
  rely_refl _ _ := id
  rely_trans _ _ _ _ first second := first ∘ second
  compatible other _ _ promised member := (promised.2 _ member).resolve_right (Ne.symm other)
  pre_stable _ _ relied before member := before (relied member)
  post_stable _ _ _ _ := trivial
  dead_stable _ _ _ _ := trivial
  surroundings_kept := by
    rintro s t inv (⟨db, notes⟩ | recovered)
    · have quiet : Unfenced s t := ⟨.of_equal (by rw [db]), by simp [db], by simp [World.trained, notes]⟩
      exact ⟨quiet.kept inv, fun i => by simp [quiet.trained]⟩
    · have quiet := recovered.unfenced
      exact ⟨quiet.kept inv, fun i => by simp [quiet.trained]⟩
  recovery_kept := by
    intro s t inv recovered
    have quiet := World.Recovers.unfenced recovered
    exact ⟨quiet.kept inv, fun i => ⟨trivial, by simp [quiet.trained], fun _ _ => trivial⟩⟩
  calls_kept := by
    intro i s inv fresh
    simp only [fencedService]
    have alone : (calls i).trainer = none → (∀ request, calls i ≠ .request request) →
        ((calls i).run plane i).wp (fenceContract calls tenantId family i) (fun _ _ => True) s :=
      fun silent other => wp_unfenced (P := fun _ => True) (only_leaseCall plane i _ silent other) inv
        trivial fun _ _ _ _ => trivial
    cases mine : calls i with
    | request call => exact request_fenced distinct mine inv fresh
    | acquireLease | renewLease | releaseLease =>
        rw [mine] at alone
        exact alone rfl (by simp)

end Runs

/-- What holds of the leases and of the training events of one family in a configuration of a run. -/
structure Fenced {Model : Type} (plane : ControlPlane Model) (calls : Nat → FencedCall)
    (tenantId family : String) (config : Config Nat World PyError Json) : Prop where
  moves : ∀ next, (plane.fencedService calls).Step config next →
    LeaseMoves config.state.db next.state.db
  /-- A grant has a token that no earlier grant had. -/
  apart : ∀ next later final k, (plane.fencedService calls).Step config next →
    (plane.fencedService calls).Reachable next later → (plane.fencedService calls).Step later final →
    leaseToken (config.state.db.leases.find? k) ≠ leaseToken (next.state.db.leases.find? k) →
    leaseToken (later.state.db.leases.find? k) ≠ leaseToken (final.state.db.leases.find? k) →
    leaseToken (next.state.db.leases.find? k) < leaseToken (final.state.db.leases.find? k)
  monotone : ∀ later k, (plane.fencedService calls).Reachable config later →
    leaseToken (config.state.db.leases.find? k) ≤ leaseToken (later.state.db.leases.find? k)
  renewed : ∀ now tenantId resourceId holderId fencingToken ttlSeconds at? after,
    renewLease now tenantId resourceId holderId fencingToken ttlSeconds at? config.state.db =
      .ok ((), after) →
    ∃ row, config.state.db.leases.find? (tenantId, resourceId) = some row ∧
      row.holderId = some holderId ∧ row.fencingToken = fencingToken
  released : ∀ now tenantId resourceId holderId fencingToken after,
    releaseLease now tenantId resourceId holderId fencingToken config.state.db = .ok ((), after) →
    ∃ row, config.state.db.leases.find? (tenantId, resourceId) = some row ∧
      row.holderId = some holderId ∧ row.fencingToken = fencingToken
  excluded : ∀ now tenantId resourceId holderId ttlSeconds at? row holder,
    config.state.db.leases.find? (tenantId, resourceId) = some row → row.holderId = some holder →
    at?.getD now < row.expiresAt → holderId ≠ holder →
    ∃ error, acquireLease now tenantId resourceId holderId ttlSeconds at? config.state.db = .error error
  increasing : ∃ tokens : List Int, tokens.Pairwise (· < ·) ∧
    config.state.db.trainedTokens tenantId family = tokens.map (some ∘ Json.int)

/-- Two training requests, and calls that release a lease they do not have. -/
def Sample.trainings (call : Nat) : FencedCall :=
  if call < 2 then .request (Sample.training call "trainer")
  else .releaseLease "tenant" ("train:" ++ policyFamily) "stranger" 1

end AgentTree
