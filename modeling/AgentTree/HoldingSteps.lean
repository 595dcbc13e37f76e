import AgentTree.Holdings
import AgentTree.ExactlyOnce

/-!
The steps of a request and its holdings: outside the state transaction only its own
reservation and leases move, and the state transaction consumes its reservation.
-/

namespace AgentTree

open Outcome Relational Concurrent ControlPlane

/-- Tenant and id of the reservation that the operation of a call makes. -/
def Call.reservation? (call : Call) : Option (String × String) :=
  match call.request with
  | .runDecision _ => some (call.principal.tenantId, "decision-" ++ call.draws.uuid 0)
  | .evaluateHiddenBenchmark _ => some (call.principal.tenantId, "attempt:" ++ call.key.key)
  | .trainChallenger _ => some (call.principal.tenantId, "training-" ++ call.draws.uuid 0)
  | .runEvidence _ | .promote _ _ | .rollback _ _ => none

/-- The holder of the lease that the operation of a call acquires. -/
def Call.holder? (call : Call) : Option String :=
  match call.request with
  | .trainChallenger _ => some (call.draws.uuid 0)
  | _ => none

/-- A step outside the state transaction. -/
structure QuietStep (own? : Option (String × String)) (holder? : Option String) (s t : World) : Prop where
  notes : t.notes = s.notes
  clock : t.clock = s.clock
  records : ∀ k, (t.record k).map IdempotencyRow.expiresAt = (s.record k).map IdempotencyRow.expiresAt
  confined : Confined own? holder? s.db t.db

/-- The state transaction of a call: a remark, and the reservation is consumed. -/
structure Consumes (index : Nat) (call : Call) (s t : World) : Prop where
  notes : ∃ response commit, t.notes = s.notes ++ [.committed index call.key response commit]
  clock : t.clock = s.clock
  records : ∀ k, (t.record k).map IdempotencyRow.expiresAt = (s.record k).map IdempotencyRow.expiresAt
  confined : Confined call.reservation? none s.db t.db
  consumed : ∀ tenantId reservationId entry, call.reservation? = some (tenantId, reservationId) →
    s.db.held tenantId reservationId = [entry] →
    t.db.held tenantId reservationId = [(entry.1, .consumed)]

instance (own? : Option (String × String)) (holder? : Option String) :
    Std.Refl (QuietStep own? holder?) := ⟨fun _ => ⟨rfl, rfl, fun _ => rfl, .refl _⟩⟩

section Steps

variable {Model : Type} {plane : ControlPlane Model} {index : Nat} {call : Call} {w after : World}
  {own? : Option (String × String)} {holder? : Option String}

theorem QuietStep.widen (step : QuietStep none none w after) : QuietStep own? holder? w after :=
  ⟨step.notes, step.clock, step.records, step.confined.widen⟩

theorem QuietStep.of_idempotency {db : Db} (confined : Confined own? holder? w.db db)
    (same : db.idempotency = w.db.idempotency) : QuietStep own? holder? w { w with db } :=
  ⟨rfl, rfl, fun _ => by simp [World.record, same], confined⟩

theorem quiet_created {tenantId budgetId : String} {limitUnits : Int} {db : Db}
    (ran : createBudget w.clock tenantId budgetId limitUnits w.db = .ok ((), db)) :
    QuietStep own? holder? w { w with db } :=
  .of_idempotency (.created ran) (Apart.created ran).idempotency

theorem quiet_reserved {tenantId budgetId reservationId : String} {units : Int}
    {snapshot : BudgetSnapshot} {db : Db}
    (ran : reserveBudget w.clock tenantId budgetId reservationId units w.db = .ok (snapshot, db)) :
    QuietStep (some (tenantId, reservationId)) holder? w { w with db } :=
  .of_idempotency (.reserved ran) (Apart.reserved ran).idempotency

theorem quiet_released {tenantId budgetId reservationId : String} {snapshot : BudgetSnapshot} {db : Db}
    (ran : releaseBudget w.clock tenantId budgetId reservationId w.db = .ok (snapshot, db)) :
    QuietStep (some (tenantId, reservationId)) holder? w { w with db } :=
  .of_idempotency (.settled ran) (Apart.settled ran).idempotency

theorem quiet_acquired {tenantId resourceId holderId : String} {ttlSeconds : Int} {db : Db}
    (ran : acquireLease w.clock tenantId resourceId holderId ttlSeconds none w.db = .ok ((), db)) :
    QuietStep own? (some holderId) w { w with db } :=
  .of_idempotency (.acquired ran) (Apart.acquired ran).idempotency

theorem quiet_renewed {tenantId resourceId holderId : String} {fencingToken ttlSeconds : Int} {db : Db}
    (ran : renewLease w.clock tenantId resourceId holderId fencingToken ttlSeconds none w.db =
      .ok ((), db)) : QuietStep own? holder? w { w with db } :=
  .of_idempotency (.renewed ran) (Apart.renewed ran).idempotency

theorem quiet_freed {tenantId resourceId holderId : String} {fencingToken : Int} {db : Db}
    (ran : releaseLease w.clock tenantId resourceId holderId fencingToken w.db = .ok ((), db)) :
    QuietStep own? holder? w { w with db } :=
  .of_idempotency (.freed ran) (Apart.freed ran).idempotency

/-- A record that is finished keeps its lifetime. -/
theorem finished_records {tenantId scope key : String} {status : IdempotencyStatus} {result : Json}
    {record : IdempotencyRecord} {now : Int} {first second : Db}
    (ran : finishIdempotency now tenantId scope key status result first = .ok (record, second))
    (k : String × String × String) :
    (second.idempotency.find? k).map IdempotencyRow.expiresAt =
      (first.idempotency.find? k).map IdempotencyRow.expiresAt := by
  obtain ⟨row, found, ⟨_, rfl⟩ | ⟨_, _, rfl⟩⟩ := finishIdempotency_cases ran
  · simp only [Table.find?_updateAt]
    split
    next same => rw [same, found]; rfl
    next => rfl
  · rfl

theorem quiet_finished {tenantId scope key : String} {status : IdempotencyStatus} {result : Json}
    {record : IdempotencyRecord} {db : Db}
    (ran : finishIdempotency w.clock tenantId scope key status result w.db = .ok (record, db)) :
    QuietStep own? holder? w { w with db } :=
  ⟨rfl, rfl, fun k => finished_records ran k.row, .finished ran⟩

/-- One reservation is consumed, among steps that leave it alone. -/
def Spends (now : Int) (tenantId reservationId : String) (before after : Db) : Prop :=
  ∃ budgetId first second snapshot, Confined none none before first ∧ Apart before first ∧
    consumeBudget now tenantId budgetId reservationId first = .ok (snapshot, second) ∧
    Confined none none second after ∧ Apart second after

theorem body_consumes {body : Int → Db → Except PyError (Json × Commit × Db)} {response : Json}
    {tenantId reservationId : String} (own : call.reservation? = some (tenantId, reservationId))
    (spends : ∀ db response commit middle, body w.clock db = .ok (response, commit, middle) →
      Spends w.clock tenantId reservationId db middle)
    (committed : BodyCommit index call.key body response w after) : Consumes index call w after := by
  obtain ⟨commit, middle, record, db, ran, completed, rfl⟩ := committed
  obtain ⟨_, first, second, snapshot, before, apart, consumed, later, still⟩ := spends _ _ _ _ ran
  have same := (apart.trans ((Apart.settled consumed).trans still)).idempotency
  have finished : Confined none none middle db := .finished completed
  refine ⟨⟨response, commit, rfl⟩, rfl, fun k => ?_, ?_, fun tenant reservation entry here held => ?_⟩
  · rw [World.record, World.record, finished_records completed k.row, same]
  · rw [own]
    exact before.widen.trans (.trans (.settled consumed) (later.trans finished).widen)
  · obtain ⟨rfl, rfl⟩ := Prod.mk.inj (Option.some.inj (own.symm.trans here))
    rw [(later.trans finished).held _ _ (by simp)]
    exact consumed_held consumed ((before.held _ _ (by simp)).trans held)

theorem consumes_decision {runId reservation family : String} {result : DecisionResult}
    {envelope response : Json} (own : call.reservation? = some (call.principal.tenantId, reservation))
    (committed : BodyCommit index call.key (plane.decisionTransaction call.draws call.principal runId
      reservation family result envelope) response w after) : Consumes index call w after := by
  refine body_consumes own (fun db response commit middle ran => ?_) committed
  simp only [decisionTransaction, bind_eq_ok, pure_eq_ok, Prod.exists, Prod.mk.injEq] at ran
  obtain ⟨_, _, recorded, _, first, appended, snapshot, _, consumed, _, _, rfl⟩ := ran
  exact ⟨_, first, _, snapshot, (Confined.experienced recorded).trans (.appended appended),
    (Apart.experienced recorded).trans (.appended appended), consumed, .refl _, .refl _⟩

theorem consumes_hidden {challengerId budgetId reservation : String}
    {fingerprint suiteDigest result normalized response : Json}
    (own : call.reservation? = some (call.principal.tenantId, reservation))
    (committed : BodyCommit index call.key (plane.hiddenTransaction call.draws call.principal challengerId
      budgetId reservation fingerprint suiteDigest result normalized) response w after) :
    Consumes index call w after := by
  refine body_consumes own (fun db response commit middle ran => ?_) committed
  simp only [hiddenTransaction, bind_eq_ok, pure_eq_ok, Prod.exists, Prod.mk.injEq] at ran
  obtain ⟨_, _, snapshot, second, consumed, _, _, recorded, _, _, appended, _, _, _, _, _, _, _, _,
    rfl⟩ := ran
  exact ⟨_, db, second, snapshot, .refl _, .refl _, consumed,
    (Confined.evidenced recorded).trans (.appended appended),
    (Apart.evidenced recorded).trans (.appended appended)⟩

theorem consumes_train {family holder reservation contentHash : String} {fencingToken leaseTtl : Int}
    {challenger : Model} {report : PromotionReport} {response : Json}
    (own : call.reservation? = some (call.principal.tenantId, reservation))
    (committed : BodyCommit index call.key (plane.trainTransaction call.key call.draws call.principal
      family holder reservation fencingToken leaseTtl challenger contentHash report) response w after) :
    Consumes index call w after := by
  refine body_consumes own (fun db response commit middle ran => ?_) committed
  simp only [trainTransaction, bind_eq_ok, pure_eq_ok, Prod.exists, Prod.mk.injEq] at ran
  obtain ⟨_, _, renewed, _, _, _, _, registered, _, _, trained, _, first, appended, snapshot, _,
    consumed, _, _, rfl⟩ := ran
  refine ⟨_, first, _, snapshot, ?_, ?_, consumed, .refl _, .refl _⟩
  · exact (Confined.renewed renewed).trans (.trans (.registered registered)
      (.trans (.recorded trained) (.appended appended)))
  · exact (Apart.renewed renewed).trans (.trans (registerArtifact_apart registered)
      (.trans (.trained trained) (.appended appended)))

/-- The other state transactions consume nothing. -/
theorem consumes_unreserved {response : Json} (unreserved : call.reservation? = none)
    (committed : plane.StateCommit index call response w after) : Consumes index call w after := by
  have others : call.scope ≠ "decision" ∧ call.scope ≠ "hidden-benchmark" ∧ call.scope ≠ "train" := by
    unfold Call.reservation? at unreserved
    unfold Call.scope
    split at unreserved <;> simp_all
  obtain ⟨body, listed, commit, middle, record, db, ran, completed, rfl⟩ := committed
  have apart := StateBody.apart listed ran
  have confined : Confined none none w.db middle := by
    cases listed with
    | decision named => exact absurd named others.1
    | hidden named => exact absurd named others.2.1
    | train named => exact absurd named others.2.2
    | evidence =>
        simp only [evidenceTransaction, bind_eq_ok, pure_eq_ok, Prod.exists, Prod.mk.injEq] at ran
        obtain ⟨_, _, recorded, _, _, appended, _, _, rfl⟩ := ran
        exact (Confined.evidenced recorded).trans (.appended appended)
    | promote =>
        simp only [promoteTransaction, recordPromotionReport, bind_eq_ok, pure_eq_ok, Prod.exists,
          Prod.mk.injEq] at ran
        obtain ⟨_, _, ⟨_, _, _, _, _, _, recorded, _, rfl⟩, _, _, promoted, _, _, appended, _, _, rfl⟩ := ran
        exact (Confined.evidenced recorded).trans (.trans (.promoted promoted) (.appended appended))
    | rollback =>
        simp only [rollbackTransaction, bind_eq_ok, pure_eq_ok, Prod.exists, Prod.mk.injEq] at ran
        obtain ⟨_, _, promoted, _, _, appended, _, _, rfl⟩ := ran
        exact (Confined.promoted promoted).trans (.appended appended)
  refine ⟨⟨response, commit, rfl⟩, rfl, fun k => ?_, ?_, by simp [unreserved]⟩
  · rw [World.record, World.record, finished_records completed k.row, apart.idempotency]
  · rw [unreserved]
    exact confined.trans (.finished completed)

/-! Each operation body. -/

theorem quiet_openBudget (tenantId budgetId : String) (limitUnits : Int) :
    (openBudget tenantId budgetId limitUnits).Only (QuietStep own? holder?) :=
  Prog.Only.bind (only_storeCall fun _ _ _ => quiet_created) fun _ =>
    Prog.Only.bind (only_storeRead _) fun _ => only_pure _

theorem quiet_renew (tenantId resourceId holder : String) (fencingToken ttlSeconds : Int) :
    (renew tenantId resourceId holder fencingToken ttlSeconds).Only (QuietStep own? holder?) :=
  Prog.Only.bind (only_storeCall fun _ _ _ => quiet_renewed) fun _ =>
    Prog.Only.bind (only_storeRead _) fun _ => only_pure _

theorem quiet_writeArtifact (path : ArtifactPath) (encoded : Bytes) :
    (writeArtifact path encoded).Only (QuietStep own? holder?) := by
  refine Prog.only_exposed (fun _ => Std.Refl.refl _) fun w value t ran => ?_
  obtain ⟨_, rfl⟩ := Prod.mk.inj (Except.ok.inj ran)
  split
  next => exact Std.Refl.refl _
  next => exact ⟨rfl, rfl, fun _ => rfl, .refl _⟩

theorem only_storedRead {R : World → World → Prop} [Std.Refl R] (read : Db → Except PyError α) :
    (storedRead read).Only R := (only_storeRead read).1

theorem only_stored {R : World → World → Prop} [Std.Refl R] {run : Int → Db → Except PyError (α × Db)}
    (writes : ∀ (w : World) value db, run w.clock w.db = .ok (value, db) → R w { w with db }) :
    (stored run).Only R := only_onStore writes

theorem quiet_cleanup (principal : Principal) (family holder reservation : String)
    (lease : Option LeaseRow) :
    (settledCleanup principal family holder reservation lease).Only
      (QuietStep (some (principal.tenantId, reservation)) holder?) := by
  refine Prog.Only.bind (Prog.Only.tryCatch (Prog.Only.bind (only_storedRead _) fun budget => ?_)
    fun _ => Prog.only_require _ _) fun _ => ?_
  · split
    · exact Prog.Only.bind (only_stored fun _ _ _ => quiet_released) fun _ => only_pure _
    · exact only_pure _
  · cases lease with
    | none => exact only_pure _
    | some lease => exact only_ignoreConflict (only_stored fun _ _ _ => quiet_freed)

theorem commits_settledDecision {request : Json} (made : call.request = .runDecision request) :
    (plane.settledDecision index call.key call.draws call.principal request).Commits
      (QuietStep call.reservation? call.holder?) (fun _ => Consumes index call) none := by
  have own : call.reservation? = some (call.principal.tenantId, "decision-" ++ call.draws.uuid 0) := by
    simp [Call.reservation?, made]
  refine .after_quiet (only_ofExcept _) fun simulations => ?_
  refine .after_quiet (only_ofExcept _) fun seed => ?_
  refine .after_quiet (only_ofExcept _) fun family => ?_
  refine .after_quiet (Prog.only_require _ _) fun _ => ?_
  refine .after_quiet (quiet_openBudget _ _ _) fun _ => ?_
  rw [own]
  refine .after_quiet (only_storeCall fun _ _ _ => quiet_reserved) fun _ => ?_
  refine .tryCatch (commits_decisionWork _ _ _ _ _ fun _ _ _ _ _ => consumes_decision own)
    fun error state => ?_
  exact .after_quiet (only_stored fun _ _ _ => quiet_released) fun _ => Prog.commits_error error

theorem commits_settledHidden {request : Json}
    (made : call.request = .evaluateHiddenBenchmark request) :
    (plane.settledHidden index call.key call.draws call.principal request).Commits
      (QuietStep call.reservation? call.holder?) (fun _ => Consumes index call) none := by
  have own : call.reservation? = some (call.principal.tenantId, "attempt:" ++ call.key.key) := by
    simp [Call.reservation?, made]
  rw [own]
  refine .after_quiet (Prog.only_require _ _) fun _ => ?_
  refine .after_quiet (only_ofExcept _) fun challengerId => ?_
  refine .after_quiet (only_loadArtifact _ _) fun _ => ?_
  refine .after_quiet (only_storeRead _) fun artifact => ?_
  refine .after_quiet (only_ofExcept _) fun path => ?_
  refine .after_quiet (only_readWorld _) fun _ => ?_
  refine .after_quiet (only_readWorld _) fun ⟨_, suiteDigest⟩ => ?_
  refine .after_quiet (only_readWorld _) fun quotaWindow => ?_
  refine .after_quiet (quiet_openBudget _ _ _) fun _ => ?_
  refine .after_quiet (only_storeCall fun _ _ _ => quiet_reserved) fun _ => ?_
  refine .bind (.tryCatch (commits_hiddenWork _ _ _ _ _ fun _ _ _ _ _ _ _ => consumes_hidden own)
    fun error state => ?_) fun response => ?_
  · refine .after_quiet (only_ignoreConflict ?_) fun _ => Prog.commits_error error
    exact Prog.Only.bind (only_stored fun _ _ _ => quiet_released) fun _ => only_pure _
  · exact .after_quiet Prog.only_mayRaise fun _ => rfl

theorem commits_settledTrain {request : Json} (made : call.request = .trainChallenger request) :
    (plane.settledTrain index call.key call.draws call.principal request).Commits
      (QuietStep call.reservation? call.holder?) (fun _ => Consumes index call) none := by
  have own : call.reservation? = some (call.principal.tenantId, "training-" ++ call.draws.uuid 0) := by
    simp [Call.reservation?, made]
  have holder : call.holder? = some (call.draws.uuid 0) := by simp [Call.holder?, made]
  rw [own, holder]
  refine .after_quiet (only_ofExcept _) fun family => ?_
  refine .after_quiet (Prog.only_require _ _) fun _ => ?_
  refine .after_quiet (only_ofExcept _) fun episodes => ?_
  refine .after_quiet (only_ofExcept _) fun simulations => ?_
  refine .after_quiet (quiet_openBudget _ _ _) fun _ => ?_
  refine .after_quiet (only_storeCall fun _ _ _ => quiet_reserved) fun _ => ?_
  refine .after_quiet (Prog.Only.tryCatch ?_ fun _ => ?_) fun lease => ?_
  · exact Prog.Only.bind (only_storeCall fun _ _ _ => quiet_acquired) fun _ => only_storedRead _
  · exact Prog.Only.bind (quiet_cleanup _ _ _ _ _) fun _ => only_throw _
  · exact .tryFinally (commits_trainWork _ _ _ _ _ _ _ (quiet_renew _ _ _ _ _) quiet_writeArtifact
      fun _ _ _ _ _ _ => consumes_train own) (quiet_cleanup _ _ _ _ _)

/-- Whatever the request, its operation moves its own reservation and leases, and consumes the
reservation when it commits. -/
theorem commits_settledOperation (plane : ControlPlane Model) (index : Nat) (call : Call) :
    (plane.settledOperation index call).Commits (QuietStep call.reservation? call.holder?)
      (fun _ => Consumes index call) none := by
  have scope : call.scope = call.scope := rfl
  conv at scope => rhs; unfold Call.scope
  have own : call.reservation? = call.reservation? := rfl
  conv at own => rhs; unfold Call.reservation?
  unfold settledOperation
  cases request : call.request with
  | runDecision request => exact commits_settledDecision ‹_›
  | evaluateHiddenBenchmark request => exact commits_settledHidden ‹_›
  | trainChallenger request => exact commits_settledTrain ‹_›
  | runEvidence request =>
      exact .mono (fun _ _ _ => consumes_unreserved (by rw [own, ‹call.request = _›]))
        (commits_evidenceOperation (by rw [scope, ‹call.request = _›]) _)
  | promote challengerId request =>
      exact .mono (fun _ _ _ => consumes_unreserved (by rw [own, ‹call.request = _›]))
        (commits_promoteOperation (by rw [scope, ‹call.request = _›]) _ _)
  | rollback family request =>
      exact .mono (fun _ _ _ => consumes_unreserved (by rw [own, ‹call.request = _›]))
        (commits_rollbackOperation (by rw [scope, ‹call.request = _›]) _ _)

end Steps

end AgentTree
