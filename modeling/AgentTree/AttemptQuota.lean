import AgentTree.CommitRuns
import AgentTree.NothingLeaked

/-!
The quota of a hidden benchmark: how many evaluations of one artifact on one suite commit in one window of the clock.
-/

namespace AgentTree

open Outcome Relational Concurrent ControlPlane

def Commit.hidden? : Commit → Option HiddenCommit
  | .hiddenBenchmark commit => some commit
  | _ => none

/-- The evaluations that have committed, in order. -/
def World.attempts (w : World) : List HiddenCommit := w.commits.filterMap Commit.hidden?

/-- The unit that an evaluation has spent. -/
def HiddenCommit.key (commit : HiddenCommit) : String × String × String :=
  (commit.tenantId, commit.budgetId, commit.reservationId)

/-- The budget of an artifact, a suite and a window. -/
def attemptBudget (challengerId suitePrefix : String) (quotaWindow : Int) : String :=
  "hidden-benchmark:" ++ challengerId ++ ":" ++ suitePrefix ++ ":" ++ toString quotaWindow

def World.attemptsIn (w : World) (tenantId budgetId : String) : List HiddenCommit :=
  w.attempts.filter fun commit => commit.tenantId = tenantId && commit.budgetId = budgetId

def HiddenCommit.Named (commit : HiddenCommit) : Prop :=
  ∃ suitePrefix quotaWindow, commit.budgetId = attemptBudget commit.challengerId suitePrefix quotaWindow

def HiddenCommit.Spent (commit : HiddenCommit) (db : Db) : Prop :=
  ∃ row, db.reservations.find? commit.key = some row ∧ row.status = .consumed

/-- An evaluation commits only while its reservation is not consumed. -/
def World.Unspent (s t : World) : Prop :=
  ∀ commit, t.attempts = s.attempts ++ [commit] → ¬commit.Spent s.db

/-- The clock does not go back. -/
def World.Onward (s t : World) : Prop := s.Around t ∧ s.clock ≤ t.clock

/-- Every budget but the shared one has the limit of the attempts, and what is reserved in it are single units. -/
structure Db.Metered (limit : Int) (db : Db) : Prop where
  ledger : db.inLedger
  limited : ∀ row ∈ db.budgets.rows, row.budgetId ≠ "api-compute" → row.limitUnits = limit
  single : ∀ row ∈ db.reservations.rows, row.budgetId ≠ "api-compute" → row.units = 1

theorem append_apart {first rest other : String} {c : Char} (starts : first.toList.head? = some c)
    (differs : other.toList.head? ≠ some c) : first ++ rest ≠ other := by
  intro same
  rw [← same, String.toList_append, List.head?_append, starts] at differs
  exact differs rfl

theorem attemptBudget_apart (challengerId suitePrefix : String) (quotaWindow : Int) :
    attemptBudget challengerId suitePrefix quotaWindow ≠ "api-compute" := by
  unfold attemptBudget
  rw [String.append_assoc, String.append_assoc, String.append_assoc, String.append_assoc]
  exact append_apart (c := 'h') (by decide) (by decide)

theorem HiddenCommit.Spent.forward {commit : HiddenCommit} {before after : Db} (forward : Forward before after)
    (spent : commit.Spent before) : commit.Spent after := by
  obtain ⟨row, found, consumed⟩ := spent
  obtain ⟨later, there, _, settled⟩ := forward.reservations commit.key row found
  refine ⟨later, there, ?_⟩
  rcases settled with same | ⟨held, _⟩
  · exact same.trans consumed
  · exact absurd (held.symm.trans consumed) (by simp)

/-! What each store call does to the quota. -/

/-- The two tables of the ledger are as before. -/
structure Unbudgeted (before after : Db) : Prop where
  budgets : after.budgets = before.budgets
  reservations : after.reservations = before.reservations

namespace Unbudgeted

variable {store : Store} {now : Int} {tenantId : String} {first second third : Db}

theorem refl (db : Db) : Unbudgeted db db := ⟨rfl, rfl⟩

theorem trans (one : Unbudgeted first second) (two : Unbudgeted second third) : Unbudgeted first third :=
  ⟨two.budgets.trans one.budgets, two.reservations.trans one.reservations⟩

theorem acquired {resourceId holderId : String} {ttlSeconds : Int} {at? : Option Int}
    (ran : acquireLease now tenantId resourceId holderId ttlSeconds at? first = .ok ((), second)) :
    Unbudgeted first second := by
  rcases acquireLease_cases ran with ⟨_, _, _, rfl⟩ | ⟨_, _, _, _, rfl⟩ | ⟨_, _, _, rfl⟩ <;> exact ⟨rfl, rfl⟩

theorem renewed {resourceId holderId : String} {fencingToken ttlSeconds : Int} {at? : Option Int}
    (ran : renewLease now tenantId resourceId holderId fencingToken ttlSeconds at? first = .ok ((), second)) :
    Unbudgeted first second := by
  obtain ⟨_, _, _, _, _, rfl⟩ := renewLease_cases ran
  exact ⟨rfl, rfl⟩

theorem freed {resourceId holderId : String} {fencingToken : Int}
    (ran : releaseLease now tenantId resourceId holderId fencingToken first = .ok ((), second)) :
    Unbudgeted first second := by
  obtain ⟨_, _, _, _, rfl⟩ := releaseLease_cases ran
  exact ⟨rfl, rfl⟩

theorem appended {uuid streamId eventType : String} {payload : Json} {eventId : Option String}
    {expected occurredAt : Option Int} {row : EventRow}
    (ran : store.appendEvent now uuid tenantId streamId eventType payload eventId expected occurredAt first =
      .ok (row, second)) : Unbudgeted first second := by
  obtain ⟨_, _, rfl, _⟩ := appendEvent_cases ran
  exact ⟨rfl, rfl⟩

theorem evidenced {envelope : Json} {receiptId : Option String} {row : EvidenceRow}
    (ran : store.recordEvidenceReceipt now tenantId envelope receiptId first = .ok (row, second)) :
    Unbudgeted first second := by
  obtain ⟨_, _, _, rfl, _⟩ := recordEvidenceReceipt_cases ran
  exact ⟨rfl, rfl⟩

theorem experienced {inRange : String → Bool} {envelope : Json} {receiptId : Option String} {row : ExperienceRow}
    (ran : store.recordExperienceReceipt inRange now tenantId envelope receiptId first = .ok (row, second)) :
    Unbudgeted first second := by
  obtain ⟨_, _, rfl⟩ := recordExperienceReceipt_cases ran
  exact ⟨rfl, rfl⟩

theorem registered {Model : Type} {plane : ControlPlane Model} {family : String} {model : Model}
    {contentHash : String} {metadata : Json} {row : ArtifactRow}
    (ran : plane.registerArtifact now tenantId family model contentHash metadata first = .ok (row, second)) :
    Unbudgeted first second := by
  simp only [ControlPlane.registerArtifact, bind_eq_ok] at ran
  obtain ⟨_, _, ran⟩ := ran
  rcases registerPolicyArtifact_cases ran with ⟨rfl, _⟩ | ⟨_, _, rfl, _⟩ <;> exact ⟨rfl, rfl⟩

theorem trained {trainingId policyName artifactId trainedBy : String} {leaseFencingToken : Int} {report : Json}
    {row : TrainingRow}
    (ran : recordTrainingRun now tenantId trainingId policyName artifactId trainedBy leaseFencingToken report first =
      .ok (row, second)) : Unbudgeted first second := by
  obtain ⟨_, _, _, ⟨rfl, _⟩ | ⟨_, _, rfl⟩⟩ := recordTrainingRun_cases ran <;> exact ⟨rfl, rfl⟩

theorem promoted {uuid policyName artifactId : String} {expected : Option String} {decidedBy reason : String}
    {benchmarkReceiptId auditId : Option String} {promotion : Promotion}
    (ran : promotePolicy now uuid tenantId policyName artifactId expected decidedBy reason benchmarkReceiptId auditId
      first = .ok (promotion, second)) : Unbudgeted first second := by
  obtain ⟨_, _, ⟨rfl, _⟩ | ⟨_, _, _, _, _, _, _, _, _, _, _, rfl, _⟩⟩ := promotePolicy_cases ran <;>
    exact ⟨rfl, rfl⟩

theorem finished {scope key : String} {status : IdempotencyStatus} {result : Json} {record : IdempotencyRecord}
    (ran : finishIdempotency now tenantId scope key status result first = .ok (record, second)) :
    Unbudgeted first second := by
  obtain ⟨_, _, ⟨_, rfl⟩ | ⟨_, _, rfl⟩⟩ := finishIdempotency_cases ran <;> exact ⟨rfl, rfl⟩

theorem claimed {scope key : String} {request : Json} {ttlSeconds : Option Int} {record : IdempotencyRecord}
    (ran : store.claimIdempotency now tenantId scope key request ttlSeconds first = .ok (record, second)) :
    Unbudgeted first second := by
  rcases claimIdempotency_cases ran with ⟨_, _, _, rfl⟩ | ⟨_, _, _, _, _, rfl⟩ <;> exact ⟨rfl, rfl⟩

end Unbudgeted

/-- The quota is kept, and what is spent stays spent. -/
def Charges (limit : Int) (before after : Db) : Prop :=
  before.Metered limit → after.Metered limit ∧ Forward before after

namespace Charges

variable {limit now : Int} {tenantId budgetId reservationId : String} {first second third : Db}

theorem trans (one : Charges limit first second) (two : Charges limit second third) : Charges limit first third := by
  intro metered
  obtain ⟨middle, forward⟩ := one metered
  obtain ⟨last, onward⟩ := two middle
  exact ⟨last, forward.trans onward⟩

theorem unbudgeted (same : Unbudgeted first second) : Charges limit first second := by
  obtain ⟨budgets, reservations⟩ := same
  intro metered
  refine ⟨⟨?_, ?_, ?_⟩, ?_⟩
  · rw [Db.inLedger, budgets, reservations]
    exact metered.ledger
  · rw [budgets]
    exact metered.limited
  · rw [reservations]
    exact metered.single
  · exact ⟨budgets ▸ (Forward.refl first).budgets, reservations ▸ (Forward.refl first).reservations⟩

theorem refl (db : Db) : Charges limit db db := unbudgeted (.refl db)

theorem created {limitUnits : Int} (own : budgetId = "api-compute" ∨ limitUnits = limit)
    (ran : createBudget now tenantId budgetId limitUnits first = .ok ((), second)) : Charges limit first second := by
  intro metered
  obtain ⟨ledger, forward⟩ := createBudget_kept metered.ledger ran
  refine ⟨⟨ledger, ?_, ?_⟩, forward⟩ <;> rcases createBudget_cases ran with rfl | ⟨_, _, _, inserted, rfl⟩
  · exact metered.limited
  · intro row member
    rw [(Table.insert_eq_some.mp inserted).2, List.mem_append, List.mem_singleton] at member
    rcases member with old | rfl
    · exact metered.limited row old
    · exact own.resolve_left
  · exact metered.single
  · exact metered.single

theorem reserved {units : Int} {snapshot : BudgetSnapshot} (own : budgetId = "api-compute" ∨ units = 1)
    (ran : reserveBudget now tenantId budgetId reservationId units first = .ok (snapshot, second)) :
    Charges limit first second := by
  intro metered
  obtain ⟨ledger, forward⟩ := reserveBudget_kept metered.ledger ran
  refine ⟨⟨ledger, ?_, ?_⟩, forward⟩ <;>
    rcases reserveBudget_cases ran with rfl | ⟨_, _, _, _, _, _, inserted, rfl⟩
  · exact metered.limited
  · intro row member
    simp only [Table.updateAt, Table.mem_update] at member
    obtain ⟨old, before, rfl⟩ := member
    split <;> exact metered.limited old before
  · exact metered.single
  · intro row member
    rw [(Table.insert_eq_some.mp inserted).2, List.mem_append, List.mem_singleton] at member
    rcases member with old | rfl
    · exact metered.single row old
    · exact own.resolve_left

theorem settled {target : ReservationStatus} {snapshot : BudgetSnapshot}
    (ran : transitionReservation now tenantId budgetId reservationId target first = .ok (snapshot, second)) :
    Charges limit first second := by
  intro metered
  obtain ⟨ledger, forward⟩ := transitionReservation_kept metered.ledger ran
  refine ⟨⟨ledger, ?_, ?_⟩, forward⟩ <;>
    rcases transitionReservation_cases ran with ⟨rfl, _⟩ | ⟨_, _, _, _, rfl⟩
  · exact metered.limited
  · intro row member
    simp only [Table.updateAt, Table.mem_update] at member
    obtain ⟨old, before, rfl⟩ := member
    split <;> exact metered.limited old before
  · exact metered.single
  · intro row member
    simp only [Table.updateAt, Table.mem_update] at member
    obtain ⟨old, before, rfl⟩ := member
    split <;> exact metered.single old before

theorem recovered {report : RecoveryReport} (ran : reconcileStartup now first = .ok (report, second)) :
    Charges limit first second := by
  intro metered
  obtain ⟨ledger, forward⟩ := reconcileStartup_kept metered.ledger ran
  refine ⟨⟨ledger, ?_, ?_⟩, forward⟩ <;> rw [reconcileStartup_cases ran] <;> dsimp only <;> split
  · exact metered.limited
  · intro row member
    rw [Table.mem_update] at member
    obtain ⟨old, before, rfl⟩ := member
    split <;> exact metered.limited old before
  · exact metered.single
  · intro row member
    rw [Table.mem_update] at member
    obtain ⟨old, before, rfl⟩ := member
    split <;> exact metered.single old before

end Charges

/-! The steps of a call. -/

/-- The quota is kept, and an evaluation that commits has spent its unit. -/
structure AttemptStep (limit : Int) (s t : World) : Prop where
  charges : Charges limit s.db t.db
  attempts : t.attempts = s.attempts ∨
    ∃ commit, t.attempts = s.attempts ++ [commit] ∧ commit.Named ∧ commit.Spent t.db

instance (limit : Int) : Std.Refl (AttemptStep limit) := ⟨fun _ => ⟨.refl _, .inl rfl⟩⟩

section Steps

variable {Model : Type} {plane : ControlPlane Model} {limit : Int} {index : Nat} {call : Call} {w after : World}

theorem AttemptStep.quiet {db : Db} (charges : Charges limit w.db db) : AttemptStep limit w { w with db } :=
  ⟨charges, .inl rfl⟩

theorem attempt_openBudget {tenantId budgetId : String} {limitUnits : Int}
    (own : budgetId = "api-compute" ∨ limitUnits = limit) :
    (openBudget tenantId budgetId limitUnits).Only (AttemptStep limit) :=
  Prog.Only.bind (only_storeCall fun _ _ _ ran => .quiet (.created own ran)) fun _ =>
    Prog.Only.bind (only_storeRead _) fun _ => only_pure _

theorem attempt_reserve {tenantId budgetId reservationId : String} {units : Int}
    (own : budgetId = "api-compute" ∨ units = 1) :
    (storeCall fun now db => reserveBudget now tenantId budgetId reservationId units db).Only (AttemptStep limit) :=
  only_storeCall fun _ _ _ ran => .quiet (.reserved own ran)

theorem attempt_release (tenantId budgetId reservationId : String) :
    (storeCall fun now db => releaseBudget now tenantId budgetId reservationId db).Only (AttemptStep limit) :=
  only_storeCall fun _ _ _ ran => .quiet (.settled ran)

theorem attempt_acquire (tenantId resourceId holder : String) (ttlSeconds : Int) :
    (acquire tenantId resourceId holder ttlSeconds).Only (AttemptStep limit) :=
  Prog.Only.bind (only_storeCall fun _ _ _ ran => .quiet (.unbudgeted (.acquired ran))) fun _ => only_storeRead _

theorem attempt_renew (tenantId resourceId holder : String) (fencingToken ttlSeconds : Int) :
    (renew tenantId resourceId holder fencingToken ttlSeconds).Only (AttemptStep limit) :=
  Prog.Only.bind (only_storeCall fun _ _ _ ran => .quiet (.unbudgeted (.renewed ran))) fun _ =>
    Prog.Only.bind (only_storeRead _) fun _ => only_pure _

theorem attempt_writeArtifact (path : ArtifactPath) (encoded : Bytes) :
    (writeArtifact path encoded).Only (AttemptStep limit) := by
  refine Prog.only_exposed (fun _ => Std.Refl.refl _) fun w value t ran => ?_
  obtain ⟨_, rfl⟩ := Prod.mk.inj (Except.ok.inj ran)
  split
  next => exact Std.Refl.refl _
  next => exact ⟨.refl _, .inl rfl⟩

theorem attempt_cleanup (principal : Principal) (family holder reservation : String) (lease : Option LeaseRow) :
    (trainCleanup principal family holder reservation lease).Only (AttemptStep limit) := by
  refine Prog.Only.bind (Prog.Only.tryCatch (Prog.Only.bind (only_storeRead _) fun budget => ?_)
    fun _ => Prog.only_require _ _) fun _ => ?_
  · split
    · exact Prog.Only.bind (attempt_release _ _ _) fun _ => only_pure _
    · exact only_pure _
  · cases lease with
    | none => exact only_pure _
    | some lease =>
        exact only_ignoreConflict (only_storeCall fun _ _ _ ran => .quiet (.unbudgeted (.freed ran)))

/-! The state transactions. -/

theorem attempt_body {body : Int → Db → Except PyError (Json × Commit × Db)} {response : Json}
    (charges : ∀ response commit middle, body w.clock w.db = .ok (response, commit, middle) →
      Charges limit w.db middle ∧ ∀ attempt ∈ commit.hidden?, attempt.Named ∧ attempt.Spent middle)
    (committed : BodyCommit index call.key body response w after) : AttemptStep limit w after := by
  obtain ⟨commit, middle, record, db, ran, completed, rfl⟩ := committed
  obtain ⟨first, spent⟩ := charges _ _ _ ran
  have finished : Unbudgeted middle db := .finished completed
  refine ⟨first.trans (.unbudgeted finished), ?_⟩
  cases hidden : commit.hidden? with
  | none => exact .inl (by simp [World.attempts, World.commits, Note.commit?, hidden])
  | some attempt =>
      obtain ⟨named, row, found, consumed⟩ := spent attempt hidden
      refine .inr ⟨attempt, by simp [World.attempts, World.commits, Note.commit?, hidden], named, row, ?_, consumed⟩
      rw [finished.reservations]
      exact found

/-- A reservation that is consumed is there, with the status. -/
theorem consumeBudget_consumed {now : Int} {tenantId budgetId reservationId : String} {snapshot : BudgetSnapshot}
    {before later : Db} (ran : consumeBudget now tenantId budgetId reservationId before = .ok (snapshot, later)) :
    ∃ row, later.reservations.find? (tenantId, budgetId, reservationId) = some row ∧ row.status = .consumed := by
  rcases transitionReservation_cases ran with ⟨rfl, row, found, consumed⟩ | ⟨_, row, found, _, rfl⟩
  · exact ⟨row, found, consumed⟩
  · refine ⟨{ row with status := .consumed, updatedAt := now }, ?_, rfl⟩
    rw [Table.find?_updateAt, if_pos rfl, found]
    rfl

theorem attempt_decision {runId reservation family : String} {result : DecisionResult} {envelope response : Json}
    (committed : BodyCommit index call.key (plane.decisionTransaction call.draws call.principal runId
      reservation family result envelope) response w after) : AttemptStep limit w after := by
  refine attempt_body (fun response commit middle ran => ?_) committed
  simp only [decisionTransaction, bind_eq_ok, pure_eq_ok, Prod.exists, Prod.mk.injEq] at ran
  obtain ⟨_, _, recorded, _, _, appended, _, _, consumed, _, rfl, rfl⟩ := ran
  have first : Unbudgeted w.db _ := (Unbudgeted.experienced recorded).trans (.appended appended)
  exact ⟨(Charges.unbudgeted first).trans (.settled consumed), by simp [Commit.hidden?]⟩

theorem attempt_hidden {challengerId budgetId reservation suitePrefix : String} {quotaWindow : Int}
    {fingerprint suiteDigest result normalized response : Json}
    (named : budgetId = attemptBudget challengerId suitePrefix quotaWindow)
    (committed : BodyCommit index call.key (plane.hiddenTransaction call.draws call.principal challengerId
      budgetId reservation fingerprint suiteDigest result normalized) response w after) :
    AttemptStep limit w after := by
  refine attempt_body (fun response commit middle ran => ?_) committed
  simp only [hiddenTransaction, bind_eq_ok, pure_eq_ok, Prod.exists, Prod.mk.injEq] at ran
  obtain ⟨_, _, _, second, consumed, _, _, recorded, _, _, appended, _, _, _, _, _, _, _, rfl, rfl⟩ := ran
  have last : Unbudgeted second _ := (Unbudgeted.evidenced recorded).trans (.appended appended)
  refine ⟨(Charges.settled consumed).trans (.unbudgeted last), fun attempt same => ?_⟩
  obtain rfl := Option.some.inj same
  obtain ⟨row, found, spent⟩ := consumeBudget_consumed consumed
  refine ⟨⟨suitePrefix, quotaWindow, named⟩, row, ?_, spent⟩
  rw [last.reservations]
  exact found

theorem attempt_train {family holder reservation contentHash : String} {fencingToken leaseTtl : Int}
    {challenger : Model} {report : PromotionReport} {response : Json}
    (committed : BodyCommit index call.key (plane.trainTransaction call.key call.draws call.principal
      family holder reservation fencingToken leaseTtl challenger contentHash report) response w after) :
    AttemptStep limit w after := by
  refine attempt_body (fun response commit middle ran => ?_) committed
  simp only [trainTransaction, bind_eq_ok, pure_eq_ok, Prod.exists, Prod.mk.injEq] at ran
  obtain ⟨_, _, renewed, _, _, _, _, registered, _, _, trained, _, _, appended, _, _, consumed, _, rfl, rfl⟩ := ran
  have first : Unbudgeted w.db _ := (Unbudgeted.renewed renewed).trans (.trans (.registered registered)
    (.trans (.trained trained) (.appended appended)))
  exact ⟨(Charges.unbudgeted first).trans (.settled consumed), by simp [Commit.hidden?]⟩

/-- The other state transactions leave the ledger alone. -/
theorem attempt_others {response : Json} (others : call.scope ≠ "decision" ∧ call.scope ≠ "hidden-benchmark" ∧
    call.scope ≠ "train") (committed : plane.StateCommit index call response w after) :
    AttemptStep limit w after := by
  obtain ⟨body, listed, committed⟩ := committed
  refine attempt_body (fun response commit middle ran => ?_) committed
  cases listed with
  | decision named => exact absurd named others.1
  | hidden named => exact absurd named others.2.1
  | train named => exact absurd named others.2.2
  | evidence =>
      simp only [evidenceTransaction, bind_eq_ok, pure_eq_ok, Prod.exists, Prod.mk.injEq] at ran
      obtain ⟨_, _, recorded, _, _, appended, _, rfl, rfl⟩ := ran
      exact ⟨.unbudgeted ((Unbudgeted.evidenced recorded).trans (.appended appended)), by simp [Commit.hidden?]⟩
  | promote =>
      simp only [promoteTransaction, recordPromotionReport, bind_eq_ok, pure_eq_ok, Prod.exists,
        Prod.mk.injEq] at ran
      obtain ⟨_, _, ⟨_, _, _, _, _, _, recorded, _, rfl⟩, _, _, promoted, _, _, appended, _, rfl, rfl⟩ := ran
      exact ⟨.unbudgeted ((Unbudgeted.evidenced recorded).trans (.trans (.promoted promoted) (.appended appended))),
        by simp [Commit.hidden?]⟩
  | rollback =>
      simp only [rollbackTransaction, bind_eq_ok, pure_eq_ok, Prod.exists, Prod.mk.injEq] at ran
      obtain ⟨_, _, promoted, _, _, appended, _, rfl, rfl⟩ := ran
      exact ⟨.unbudgeted ((Unbudgeted.promoted promoted).trans (.appended appended)), by simp [Commit.hidden?]⟩

/-! Whole calls. -/

theorem attempt_operation (plane : ControlPlane Model) (index : Nat) (call : Call) :
    (plane.operation index call).Only (AttemptStep plane.settings.hiddenBenchmarkAttemptLimit) := by
  let R := AttemptStep plane.settings.hiddenBenchmarkAttemptLimit
  have commits : (plane.operation index call).Commits R (fun _ => R) none := by
    have scope : call.scope = call.scope := rfl
    conv at scope => rhs; unfold Call.scope
    unfold operation
    cases request : call.request with
    | runDecision request =>
        refine .after_quiet (only_ofExcept _) fun simulations => ?_
        refine .after_quiet (only_ofExcept _) fun seed => ?_
        refine .after_quiet (only_ofExcept _) fun family => ?_
        refine .after_quiet (Prog.only_require _ _) fun _ => ?_
        refine .after_quiet (attempt_openBudget (.inl rfl)) fun _ => ?_
        refine .after_quiet (attempt_reserve (.inl rfl)) fun _ => ?_
        refine .tryCatch (commits_decisionWork _ _ _ _ _ fun _ _ _ _ _ => attempt_decision) fun error state => ?_
        exact .after_quiet (attempt_release _ _ _) fun _ => Prog.commits_error error
    | evaluateHiddenBenchmark request =>
        refine .after_quiet (Prog.only_require _ _) fun _ => ?_
        refine .after_quiet (only_ofExcept _) fun challengerId => ?_
        refine .after_quiet (only_loadArtifact _ _) fun _ => ?_
        refine .after_quiet (only_storeRead _) fun artifact => ?_
        refine .after_quiet (only_ofExcept _) fun path => ?_
        refine .after_quiet (only_readWorld _) fun _ => ?_
        refine .after_quiet (only_readWorld _) fun ⟨_, suiteDigest⟩ => ?_
        refine .after_quiet (only_readWorld _) fun quotaWindow => ?_
        refine .after_quiet (attempt_openBudget (.inr rfl)) fun _ => ?_
        refine .after_quiet (attempt_reserve (.inr rfl)) fun _ => ?_
        refine .bind (.tryCatch (commits_hiddenWork _ _ _ _ _ fun _ _ _ _ _ _ _ => attempt_hidden rfl)
          fun error state => ?_) fun response => ?_
        · refine .after_quiet (only_ignoreConflict ?_) fun _ => Prog.commits_error error
          exact Prog.Only.bind (attempt_release _ _ _) fun _ => only_pure _
        · exact .after_quiet Prog.only_mayRaise fun _ => rfl
    | trainChallenger request =>
        refine .after_quiet (only_ofExcept _) fun family => ?_
        refine .after_quiet (Prog.only_require _ _) fun _ => ?_
        refine .after_quiet (only_ofExcept _) fun episodes => ?_
        refine .after_quiet (only_ofExcept _) fun simulations => ?_
        refine .after_quiet (attempt_openBudget (.inl rfl)) fun _ => ?_
        refine .after_quiet (attempt_reserve (.inl rfl)) fun _ => ?_
        refine .after_quiet (Prog.Only.tryCatch (attempt_acquire _ _ _ _) fun _ => ?_) fun lease => ?_
        · exact Prog.Only.bind (attempt_cleanup _ _ _ _ _) fun _ => only_throw _
        · exact .tryFinally (commits_trainWork _ _ _ _ _ _ _ (attempt_renew _ _ _ _ _) attempt_writeArtifact
            fun _ _ _ _ _ _ => attempt_train) (attempt_cleanup _ _ _ _ _)
    | runEvidence request =>
        exact .mono (fun _ _ _ => attempt_others (by simp [scope, request]))
          (commits_evidenceOperation (by rw [scope, ‹call.request = _›]) _)
    | promote challengerId request =>
        exact .mono (fun _ _ _ => attempt_others (by simp [scope, request]))
          (commits_promoteOperation (by rw [scope, ‹call.request = _›]) _ _)
    | rollback family request =>
        exact .mono (fun _ _ _ => attempt_others (by simp [scope, request]))
          (commits_rollbackOperation (by rw [scope, ‹call.request = _›]) _ _)
  exact commits.only.mono fun _ _ step => step.elim id fun ⟨_, step⟩ => step

theorem attempt_perform (plane : ControlPlane Model) (index : Nat) (call : Call) :
    (plane.perform index call).Only (AttemptStep plane.settings.hiddenBenchmarkAttemptLimit) := by
  have finishes : ∀ {w : World} {status : IdempotencyStatus} {result : Json} {record : IdempotencyRecord} {db : Db},
      finishIdempotency w.clock call.key.tenantId call.key.scope call.key.key status result w.db = .ok (record, db) →
      AttemptStep plane.settings.hiddenBenchmarkAttemptLimit w { w with db } :=
    fun ran => .quiet (.unbudgeted (.finished ran))
  refine Prog.Only.bind (p := Prog.ofExcept (allowedFields call)) trivial fun _ => ?_
  refine Prog.Only.bind (only_claimed fun w record db ran => ⟨.unbudgeted (.claimed ran), .inl ?_⟩) fun record => ?_
  · by_cases isNew : record.isNew <;> simp [World.attempts, World.commits, Note.commit?, isNew]
  split
  · refine Prog.Only.tryCatch (Prog.Only.bind (attempt_operation plane index call) fun result => ?_) fun error => ?_
    · exact Prog.Only.bind (only_storeCall fun _ _ _ ran => finishes ran) fun _ => trivial
    · exact only_recovers error (fun _ _ _ ran => .quiet (.unbudgeted (.claimed ran)))
        fun _ _ _ _ _ ran => finishes ran
  · split <;> trivial

end Steps

/-! Runs. -/

/-- The quota is kept, and every evaluation that has committed has spent a unit of the budget of its artifact. -/
structure Attempted (limit : Int) (w : World) : Prop where
  metered : w.db.Metered limit
  attempts : ∀ commit ∈ w.attempts, commit.Named ∧ commit.Spent w.db

section Runs

variable {Model : Type} {limit : Int} {s t : World}

theorem Attempted.step (attempted : Attempted limit s) (step : AttemptStep limit s t) : Attempted limit t := by
  obtain ⟨metered, forward⟩ := step.charges attempted.metered
  have kept : ∀ commit ∈ s.attempts, commit.Named ∧ commit.Spent t.db := fun commit member =>
    ⟨(attempted.attempts commit member).1, (attempted.attempts commit member).2.forward forward⟩
  refine ⟨metered, fun commit member => ?_⟩
  rcases step.attempts with same | ⟨new, added, named, spent⟩
  · exact kept commit (same ▸ member)
  · rw [added, List.mem_append, List.mem_singleton] at member
    rcases member with old | rfl
    · exact kept commit old
    · exact ⟨named, spent⟩

theorem World.Onward.attempt (onward : s.Onward t) : AttemptStep limit s t := by
  obtain ⟨⟨db, notes⟩, _⟩ := onward
  exact ⟨db ▸ .refl _, .inl (by simp [World.attempts, World.commits, notes])⟩

theorem World.Recovers.attempt (recovered : s.Recovers t) : AttemptStep limit s t := by
  obtain ⟨report, db, ran, rfl⟩ := recovered
  exact .quiet (.recovered ran)

def attemptVerified (plane : ControlPlane Model) (calls : Nat → Call) :
    (plane.service calls World.Onward).Verified where
  inv := Attempted plane.settings.hiddenBenchmarkAttemptLimit
  rely _ _ _ := True
  guar _ s t := AttemptStep plane.settings.hiddenBenchmarkAttemptLimit s t
  pre _ _ := True
  post _ _ _ := True
  dead _ _ := True
  rely_refl _ _ := trivial
  rely_trans _ _ _ _ _ _ := trivial
  compatible _ _ _ _ := trivial
  pre_stable _ _ _ _ := trivial
  post_stable _ _ _ _ := trivial
  dead_stable _ _ _ _ := trivial
  surroundings_kept := fun inv onward => ⟨inv.step onward.attempt, fun _ => trivial⟩
  recovery_kept := fun inv recovered =>
    ⟨inv.step (World.Recovers.attempt recovered), fun _ => ⟨trivial, fun _ => trivial, fun _ _ => trivial⟩⟩
  calls_kept := fun {i _} inv _ =>
    Prog.wp_of_only (P := fun _ => True) (attempt_perform plane i (calls i)) inv trivial
      (fun _ _ _ _ _ _ => trivial) fun _ _ inv _ step => ⟨inv.step step, step, trivial⟩

/-- Under the condition no unit is spent twice. -/
theorem AttemptStep.distinct (attempted : Attempted limit s) (step : AttemptStep limit s t) (unspent : s.Unspent t)
    (distinct : (s.attempts.map HiddenCommit.key).Nodup) : (t.attempts.map HiddenCommit.key).Nodup := by
  rcases step.attempts with same | ⟨new, added, _, _⟩
  · rwa [same]
  · rw [added, List.map_append, List.nodup_append]
    refine ⟨distinct, List.nodup_singleton _, ?_⟩
    rintro _ old _ last rfl
    obtain ⟨commit, member, keyed⟩ := List.mem_map.mp old
    rw [List.map_cons, List.map_nil, List.mem_singleton] at last
    obtain ⟨row, found, consumed⟩ := (attempted.attempts commit member).2
    exact unspent new added ⟨row, by rw [← last, ← keyed]; exact found, consumed⟩

theorem sum_indicator {α : Type} (p : α → Prop) [DecidablePred p] (items : List α) :
    (items.map fun item => if p item then (1 : Int) else 0).sum = (items.filter fun item => p item).length := by
  induction items with
  | nil => rfl
  | cons item rest ih =>
      by_cases held : p item
      · simp [held, ih]
        omega
      · simp [held, ih]

/-- Distinct units of one budget that are spent are within its limit. -/
theorem Db.Metered.bounds {db : Db} (metered : db.Metered limit) {tenantId budgetId : String}
    (apart : budgetId ≠ "api-compute") {attempts : List HiddenCommit}
    (distinct : (attempts.map HiddenCommit.key).Nodup)
    (spent : ∀ commit ∈ attempts, commit.tenantId = tenantId ∧ commit.budgetId = budgetId ∧ commit.Spent db) :
    attempts.length ≤ limit.toNat := by
  let consumed := db.reservations.rows.filter fun row =>
    row.tenantId = tenantId ∧ row.budgetId = budgetId ∧ row.status = .consumed
  have rows : ∀ commit ∈ attempts, ∃ row ∈ consumed, row.key = commit.key := by
    intro commit member
    obtain ⟨rfl, rfl, row, found, status⟩ := spent commit member
    obtain ⟨there, keyed⟩ := Table.find?_eq_some.mp found
    obtain ⟨tenant, rest⟩ := Prod.mk.inj keyed
    exact ⟨row, List.mem_filter.mpr ⟨there, by simp [tenant, (Prod.mk.inj rest).1, status]⟩, keyed⟩
  have fewer : attempts.length ≤ consumed.length := by
    have subset : attempts.map HiddenCommit.key ⊆ consumed.map ReservationRow.key := by
      intro key member
      obtain ⟨commit, listed, rfl⟩ := List.mem_map.mp member
      obtain ⟨row, there, keyed⟩ := rows commit listed
      exact List.mem_map.mpr ⟨row, there, keyed⟩
    simpa using (List.subperm_of_subset distinct subset).length_le
  have units : unitsIn db.reservations .consumed tenantId budgetId = consumed.length := by
    have single : ∀ row ∈ db.reservations.rows, row.unitsFor .consumed tenantId budgetId =
        if row.tenantId = tenantId ∧ row.budgetId = budgetId ∧ row.status = .consumed then 1 else 0 := by
      intro row member
      unfold ReservationRow.unitsFor
      split
      next own => exact metered.single row member (own.2.1 ▸ apart)
      next => rfl
    rw [unitsIn, Table.total, List.map_congr_left single, sum_indicator]
  cases attempts with
  | nil => simp
  | cons first rest =>
      obtain ⟨row, there, _⟩ := rows first (by simp)
      obtain ⟨present, own⟩ := List.mem_filter.mp there
      obtain ⟨rfl, rfl, _⟩ := of_decide_eq_true own
      obtain ⟨budget, found⟩ := metered.ledger.funded row present
      obtain ⟨listed, keyed⟩ := Table.find?_eq_some.mp found
      obtain ⟨tenant, named⟩ := Prod.mk.inj keyed
      have bounded := metered.ledger.bounded budget listed
      have spends := metered.ledger.consumed budget listed
      have reserves := metered.ledger.reserved budget listed
      have nonneg := metered.ledger.units_nonneg .reserved budget.tenantId budget.budgetId
      have limited := metered.limited budget listed (named ▸ apart)
      rw [tenant, named, units] at spends
      omega

end Runs

namespace Sample

/-- One attempt a day. -/
def daily : ControlPlane String :=
  { plane with settings := { plane.settings with hiddenBenchmarkAttemptLimit := 1 } }

/-- Evaluations with one key; the worker answers each of them. -/
def evaluations (call : Nat) : Call where
  principal := ⟨"tenant", "subject"⟩
  request := .evaluateHiddenBenchmark (.obj [("challenger_id", .str (artifactId "third"))])
  idempotencyKey := "key"
  draws := { draws call with
    hiddenBenchmark := fun _ _ => .ok (.obj [("payload", .obj [
      ("candidate", .obj [("fingerprint_sha256", .str (digest "third"))]),
      ("benchmark", .obj [("suite_sha256", .str (hex [1]))]),
      ("result", .obj [("passed", .int 7), ("failed", .int 3), ("total", .int 10),
        ("normalized_score_ppm", .int 700000)])])]) }

def dailyBudget : String := attemptBudget (artifactId "third") (asciiText ((utf8 (hex [1])).take 16)) 1

theorem ready_metered (limit : Int) : ready.db.Metered limit := by
  obtain ⟨budgets, reservations, _⟩ := ready_unused
  exact ⟨ready_ledger, by simp [budgets], by simp [reservations]⟩

def wait (clock : Int) (w : World) : World := { w with clock := max w.clock clock }

theorem wait_onward (clock : Int) (w : World) : w.Onward (wait clock w) := ⟨⟨rfl, rfl⟩, le_max_left _ _⟩

def unspent (s t : World) : Bool :=
  (t.attempts.drop s.attempts.length).all fun commit =>
    !(s.db.reservations.find? commit.key).any fun row => row.status = .consumed

theorem unspent_sound (s t : World) (checked : unspent s t = true) : s.Unspent t := by
  intro commit added ⟨row, found, consumed⟩
  simp [unspent, added, found, consumed] at checked

theorem waits_onward {moves : List (Service.Move Nat World)}
    (waits : ∀ effect, .change effect ∈ moves → ∃ clock, effect = wait clock) (effect : World → World)
    (member : .change effect ∈ moves) (w : World) : w.Onward (effect w) := by
  obtain ⟨clock, rfl⟩ := waits effect member
  exact wait_onward clock w

/-- One evaluation, which claims its key just before the window begins. -/
def firstUse : List (Service.Move Nat World) :=
  .change (wait 86398) :: .spawn 0 :: .act 0 :: .change (wait 86400) :: List.replicate 25 (.act 0)

/-- Another one in the last second of the window. -/
def secondUse : List (Service.Move Nat World) :=
  firstUse ++ .change (wait 172799) :: .spawn 1 :: List.replicate 26 (.act 1)

end Sample

end AgentTree
