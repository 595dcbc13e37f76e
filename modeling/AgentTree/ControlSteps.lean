import AgentTree.ControlOperations
import AgentTree.StoreFrames

/-!
What a step of an operation can do: a store call, a written file or, once, the
state transaction.  The invariants of the later modules are checked against these
relations and not against the operations.
-/

namespace AgentTree

open Outcome Relational Concurrent

namespace ControlPlane

variable {Model : Type} (plane : ControlPlane Model)

/-- A step of an operation outside its state transaction. -/
inductive PlaneStep (call : Call) : World → World → Prop
  | still {w} : PlaneStep call w w
  | opened {w budgetId limitUnits db} :
      createBudget w.clock call.principal.tenantId budgetId limitUnits w.db = .ok ((), db) →
      PlaneStep call w { w with db }
  | reserved {w budgetId reservationId units snapshot db} :
      reserveBudget w.clock call.principal.tenantId budgetId reservationId units w.db =
        .ok (snapshot, db) →
      PlaneStep call w { w with db }
  | released {w budgetId reservationId snapshot db} :
      releaseBudget w.clock call.principal.tenantId budgetId reservationId w.db = .ok (snapshot, db) →
      PlaneStep call w { w with db }
  | acquired {w resourceId holderId ttlSeconds db} :
      acquireLease w.clock call.principal.tenantId resourceId holderId ttlSeconds none w.db =
        .ok ((), db) →
      PlaneStep call w { w with db }
  | renewed {w resourceId holderId fencingToken ttlSeconds db} :
      renewLease w.clock call.principal.tenantId resourceId holderId fencingToken ttlSeconds none w.db =
        .ok ((), db) →
      PlaneStep call w { w with db }
  | freed {w resourceId holderId fencingToken db} :
      releaseLease w.clock call.principal.tenantId resourceId holderId fencingToken w.db = .ok ((), db) →
      PlaneStep call w { w with db }
  | wrote {w path encoded} : w.files path = none →
      PlaneStep call w { w with files := Function.update w.files path (some encoded) }

/-- The bodies of the state transactions. -/
inductive StateBody (call : Call) : (Int → Db → Except PyError (Json × Commit × Db)) → Prop
  | decision (named : call.scope = "decision") (runId reservation family result envelope) :
      StateBody call (plane.decisionTransaction call.draws call.principal runId reservation family result
        envelope)
  | evidence (named : call.scope = "evidence") (subjectId rawPayload normalized) :
      StateBody call (plane.evidenceTransaction call.draws call.principal subjectId rawPayload normalized)
  | hidden (named : call.scope = "hidden-benchmark")
      (challengerId budgetId reservation fingerprint suiteDigest result normalized) :
      StateBody call (plane.hiddenTransaction call.draws call.principal challengerId budgetId reservation
        fingerprint suiteDigest result normalized)
  | train (named : call.scope = "train")
      (family reservation fencingToken leaseTtl challenger contentHash report) :
      StateBody call (plane.trainTransaction call.key call.draws call.principal family
        (call.draws.uuid 0) reservation fencingToken leaseTtl challenger contentHash report)
  | promote (named : call.scope = "promote")
      (challengerId family reason benchmarkReceiptId producers expected compared report hidden
        championHidden) :
      StateBody call (plane.promoteTransaction call.draws call.principal challengerId family reason
        benchmarkReceiptId producers expected compared report hidden championHidden)
  | rollback (named : call.scope = "rollback") (family reason previous current) :
      StateBody call (plane.rollbackTransaction call.draws call.principal family reason previous current)

/-- The state transaction of a call: its body, the completed record and the remark. -/
def StateCommit (index : Nat) (call : Call) (response : Json) (w after : World) : Prop :=
  ∃ body, plane.StateBody call body ∧ ∃ commit middle record db,
    body w.clock w.db = .ok (response, commit, middle) ∧
    completeIdempotency w.clock call.key.tenantId call.key.scope call.key.key response middle =
      .ok (record, db) ∧
    after = { w with db, notes := w.notes ++ [.committed index call.key response commit] }

instance (call : Call) : Std.Refl (PlaneStep call) := ⟨fun _ => .still⟩

section Steps

variable {plane} {call : Call} {R : World → World → Prop} [Std.Refl R]

omit [Std.Refl R] in
theorem only_ofExcept (result : Except PyError α) : (Prog.ofExcept result : Op α).Only R := trivial

omit [Std.Refl R] in
theorem only_pure (value : α) : (pure value : Op α).Only R := trivial

omit [Std.Refl R] in
theorem only_throw (error : PyError) : (throw error : Op α).Only R := trivial

theorem only_readWorld (read : World → Except PyError α) : (readWorld read).Only R := by
  refine Prog.only_exposed Std.Refl.refl fun w value t ran => ?_
  split at ran
  · obtain ⟨_, rfl⟩ := Prod.mk.inj (Except.ok.inj ran)
    exact Std.Refl.refl _
  · simp at ran

theorem only_storeRead (read : Db → Except PyError α) : (storeRead read).Only R := only_readWorld _

theorem only_onStore {run : Int → Db → Except PyError (α × Db)}
    (writes : ∀ (w : World) value db, run w.clock w.db = .ok (value, db) → R w { w with db }) :
    (Prog.atomic (onStore run)).Only R := by
  refine Prog.only_atomic Std.Refl.refl fun w value t ran => ?_
  unfold onStore at ran
  split at ran
  next value db stored =>
    obtain ⟨_, rfl⟩ := Prod.mk.inj (Except.ok.inj ran)
    exact writes w _ _ stored
  next => simp at ran

theorem only_storeCall {run : Int → Db → Except PyError (α × Db)}
    (writes : ∀ (w : World) value db, run w.clock w.db = .ok (value, db) → R w { w with db }) :
    (storeCall run).Only R := ⟨only_onStore writes, fun _ => trivial⟩

theorem only_openBudget (budgetId : String) (limitUnits : Int) :
    (openBudget call.principal.tenantId budgetId limitUnits).Only (PlaneStep call) :=
  Prog.Only.bind (only_storeCall fun _ _ _ => .opened) fun _ =>
    Prog.Only.bind (only_storeRead _) fun _ => only_pure _

theorem only_loadArtifact (tenantId artifactId : String) :
    (plane.loadArtifact tenantId artifactId).Only R :=
  Prog.Only.bind (only_storeRead _) fun _ => Prog.Only.bind (only_ofExcept _) fun _ =>
    Prog.Only.bind (only_readWorld _) fun _ => only_ofExcept _

theorem only_championModel (tenantId family : String) :
    (plane.championModel tenantId family).Only R := by
  refine Prog.Only.bind (only_storeRead _) fun champion => ?_
  cases champion with
  | none => exact only_pure _
  | some champion =>
      exact Prog.Only.bind (only_loadArtifact _ _) fun _ =>
        Prog.Only.bind (only_ofExcept _) fun _ => only_pure _

theorem only_writeArtifact (path : ArtifactPath) (encoded : Bytes) :
    (writeArtifact path encoded).Only (PlaneStep call) := by
  refine Prog.only_exposed (fun _ => .still) fun w value t ran => ?_
  obtain ⟨_, rfl⟩ := Prod.mk.inj (Except.ok.inj ran)
  split
  next => exact .still
  next absent => exact .wrote absent

/-- What a state transaction with this body does. -/
def BodyCommit (index : Nat) (key : OperationKey) (body : Int → Db → Except PyError (Json × Commit × Db))
    (response : Json) (w after : World) : Prop :=
  ∃ commit middle record db, body w.clock w.db = .ok (response, commit, middle) ∧
    completeIdempotency w.clock key.tenantId key.scope key.key response middle = .ok (record, db) ∧
    after = { w with db, notes := w.notes ++ [.committed index key response commit] }

theorem commits_body {index : Nat} {body : Int → Db → Except PyError (Json × Commit × Db)}
    {effects : Json → World → World → Prop}
    (listed : ∀ response w after, BodyCommit index call.key body response w after →
      effects response w after) :
    (stateTransaction index call.key body).Commits R effects none := by
  refine Prog.commits_exposed Std.Refl.refl fun w response after ran => listed response w after ?_
  simp only [bind_eq_ok, pure_eq_ok, Prod.exists, Prod.mk.injEq] at ran
  obtain ⟨result, commit, middle, stored, record, db, completed, rfl, rfl⟩ := ran
  exact ⟨commit, middle, record, db, stored, completed, rfl⟩

theorem commits_stateTransaction {index : Nat} {body : Int → Db → Except PyError (Json × Commit × Db)}
    (listed : plane.StateBody call body) :
    (stateTransaction index call.key body).Commits R (plane.StateCommit index call) none :=
  commits_body fun _ _ _ committed => ⟨body, listed, committed⟩

end Steps

/-! Each operation body takes these steps and commits at most once. -/

section Operations

variable {plane} {index : Nat} {call : Call} {R : World → World → Prop} [Std.Refl R]
  {effects : Json → World → World → Prop}

theorem commits_decisionWork (runId reservation family : String) (simulations seed : Int)
    (listed : ∀ result envelope response w after, BodyCommit index call.key
      (plane.decisionTransaction call.draws call.principal runId reservation family result envelope)
      response w after → effects response w after) :
    (plane.decisionWork index call.key call.draws call.principal runId reservation family simulations
      seed).Commits R effects none := by
  refine .after_quiet (only_championModel _ _) fun ⟨_, model⟩ => ?_
  refine .after_quiet (only_ofExcept _) fun result => ?_
  refine .after_quiet (only_ofExcept _) fun trajectory => ?_
  refine .after_quiet (only_ofExcept _) fun trajectoryText => ?_
  refine .after_quiet (only_readWorld _) fun envelope => ?_
  refine .bind (commits_body (listed _ _)) fun response => ?_
  exact .after_quiet Prog.only_mayRaise fun _ => rfl

theorem commits_decisionOperation (named : call.scope = "decision") (request : Json) :
    (plane.decisionOperation index call.key call.draws call.principal request).Commits (PlaneStep call)
      (plane.StateCommit index call) none := by
  refine .after_quiet (only_ofExcept _) fun simulations => ?_
  refine .after_quiet (only_ofExcept _) fun seed => ?_
  refine .after_quiet (only_ofExcept _) fun family => ?_
  refine .after_quiet (Prog.only_require _ _) fun _ => ?_
  refine .after_quiet (only_openBudget _ _) fun _ => ?_
  refine .after_quiet (only_storeCall fun _ _ _ => .reserved) fun _ => ?_
  refine .tryCatch (commits_decisionWork _ _ _ _ _ fun _ _ _ _ _ committed =>
    ⟨_, .decision named .., committed⟩) fun error state => ?_
  exact .after_quiet (only_storeCall fun _ _ _ => .released) fun _ => Prog.commits_error error

theorem commits_evidenceOperation (named : call.scope = "evidence") (request : Json) :
    (plane.evidenceOperation index call.key call.draws call.principal request).Commits R
      (plane.StateCommit index call) none := by
  refine .after_quiet (only_ofExcept _) fun ⟨commandId, arguments, cwd, artifacts⟩ => ?_
  refine .after_quiet (only_ofExcept _) fun receipt => ?_
  refine .after_quiet (only_readWorld _) fun rawPayload => ?_
  refine .after_quiet (only_ofExcept _) fun _ => ?_
  refine .after_quiet (only_ofExcept _) fun receiptId => ?_
  refine .after_quiet (only_ofExcept _) fun receiptText => ?_
  refine .after_quiet (only_readWorld _) fun normalized => ?_
  refine .bind (commits_stateTransaction (.evidence named ..)) fun response => ?_
  exact .after_quiet Prog.only_mayRaise fun _ => rfl

theorem commits_hiddenWork (challengerId budgetId reservation contentSha256 : String)
    (path : ArtifactPath)
    (listed : ∀ fingerprint suiteDigest result normalized response w after,
      BodyCommit index call.key (plane.hiddenTransaction call.draws call.principal challengerId budgetId
        reservation fingerprint suiteDigest result normalized) response w after →
      effects response w after) :
    (plane.hiddenWork index call.key call.draws call.principal challengerId budgetId reservation
      contentSha256 path).Commits R effects none := by
  refine .after_quiet (only_ofExcept _) fun aggregate => ?_
  refine .after_quiet (only_ofExcept _) fun payload => ?_
  refine .after_quiet (only_ofExcept _) fun candidate => ?_
  refine .after_quiet (only_ofExcept _) fun fingerprint => ?_
  refine .after_quiet (only_ofExcept _) fun aggregateText => ?_
  refine .after_quiet (only_readWorld _) fun normalized => ?_
  refine .after_quiet (only_ofExcept _) fun result => ?_
  refine .after_quiet (only_ofExcept _) fun benchmark => ?_
  refine .after_quiet (only_ofExcept _) fun suiteDigest => ?_
  exact commits_body (listed _ _ _ _)

omit [Std.Refl R] in
theorem only_ignoreConflict {cleanup : Op Unit} (only : cleanup.Only R) :
    (ignoreConflict cleanup).Only R :=
  Prog.Only.tryCatch only fun _ => Prog.only_require _ _

theorem commits_hiddenOperation (named : call.scope = "hidden-benchmark") (request : Json) :
    (plane.hiddenOperation index call.key call.draws call.principal request).Commits (PlaneStep call)
      (plane.StateCommit index call) none := by
  refine .after_quiet (Prog.only_require _ _) fun _ => ?_
  refine .after_quiet (only_ofExcept _) fun challengerId => ?_
  refine .after_quiet (only_loadArtifact _ _) fun _ => ?_
  refine .after_quiet (only_storeRead _) fun artifact => ?_
  refine .after_quiet (only_ofExcept _) fun path => ?_
  refine .after_quiet (only_readWorld _) fun _ => ?_
  refine .after_quiet (only_readWorld _) fun ⟨_, suiteDigest⟩ => ?_
  refine .after_quiet (only_readWorld _) fun quotaWindow => ?_
  refine .after_quiet (only_openBudget _ _) fun _ => ?_
  refine .after_quiet (only_storeCall fun _ _ _ => .reserved) fun _ => ?_
  refine .bind (.tryCatch (commits_hiddenWork _ _ _ _ _ fun _ _ _ _ _ _ _ committed =>
    ⟨_, .hidden named .., committed⟩) fun error state => ?_) fun response => ?_
  · have release : (ignoreConflict do
        let _ ← storeCall fun now db => releaseBudget now call.principal.tenantId
          ("hidden-benchmark:" ++ challengerId ++ ":" ++ asciiText ((utf8 suiteDigest).take 16) ++
            ":" ++ toString quotaWindow) ("attempt:" ++ call.key.key) db
        return ()).Only (PlaneStep call) :=
      only_ignoreConflict (Prog.Only.bind (only_storeCall fun _ _ _ => .released) fun _ => only_pure _)
    exact .after_quiet release fun _ => Prog.commits_error error
  · exact .after_quiet Prog.only_mayRaise fun _ => rfl

theorem only_acquire (resourceId holder : String) (ttlSeconds : Int) :
    (acquire call.principal.tenantId resourceId holder ttlSeconds).Only (PlaneStep call) :=
  Prog.Only.bind (only_storeCall fun _ _ _ => .acquired) fun _ => only_storeRead _

theorem only_renew (resourceId holder : String) (fencingToken ttlSeconds : Int) :
    (renew call.principal.tenantId resourceId holder fencingToken ttlSeconds).Only (PlaneStep call) :=
  Prog.Only.bind (only_storeCall fun _ _ _ => .renewed) fun _ =>
    Prog.Only.bind (only_storeRead _) fun _ => only_pure _

omit [Std.Refl R] in
theorem only_trainEpisodes {simulations : Int} {heartbeat : Op Unit}
    (beats : heartbeat.Only R) (remaining : Nat) (episode : Int) (challenger : Model) :
    (plane.trainEpisodes simulations heartbeat remaining episode challenger).Only R := by
  induction remaining generalizing episode challenger with
  | zero => exact only_pure _
  | succ remaining ih =>
      exact Prog.Only.bind beats fun _ => Prog.Only.bind (only_ofExcept _) fun _ => ih _ _

theorem commits_trainWork (family holder reservation : String) (episodes simulations leaseTtl : Int)
    (lease : LeaseRow)
    (beats : (renew call.principal.tenantId ("train:" ++ family) holder lease.fencingToken leaseTtl).Only R)
    (writes : ∀ path encoded, (writeArtifact path encoded).Only R)
    (listed : ∀ challenger contentHash report response w after, BodyCommit index call.key
      (plane.trainTransaction call.key call.draws call.principal family holder reservation
        lease.fencingToken leaseTtl challenger contentHash report) response w after →
      effects response w after) :
    (plane.trainWork index call.key call.draws call.principal family holder reservation episodes
      simulations leaseTtl lease).Commits R effects none := by
  refine .after_quiet (only_championModel _ _) fun ⟨_, champion⟩ => ?_
  refine .after_quiet (only_trainEpisodes beats _ _ _) fun challenger => ?_
  refine .after_quiet (only_ofExcept _) fun report => ?_
  refine .after_quiet (only_ofExcept _) fun ⟨path, encoded, contentHash⟩ => ?_
  refine .after_quiet (writes _ _) fun _ => ?_
  refine .bind (commits_body (listed _ _ _)) fun response => ?_
  exact .after_quiet Prog.only_mayRaise fun _ => rfl

theorem only_trainCleanup (family holder reservation : String) (lease : Option LeaseRow) :
    (trainCleanup call.principal family holder reservation lease).Only (PlaneStep call) := by
  refine Prog.Only.bind (Prog.Only.tryCatch (Prog.Only.bind (only_storeRead _) fun budget => ?_)
    fun _ => Prog.only_require _ _) fun _ => ?_
  · split
    · exact Prog.Only.bind (only_storeCall fun _ _ _ => .released) fun _ => only_pure _
    · exact only_pure _
  · cases lease with
    | none => exact only_pure _
    | some lease => exact only_ignoreConflict (only_storeCall fun _ _ _ => .freed)

theorem commits_trainOperation (named : call.scope = "train") (request : Json) :
    (plane.trainOperation index call.key call.draws call.principal request).Commits (PlaneStep call)
      (plane.StateCommit index call) none := by
  refine .after_quiet (only_ofExcept _) fun family => ?_
  refine .after_quiet (Prog.only_require _ _) fun _ => ?_
  refine .after_quiet (only_ofExcept _) fun episodes => ?_
  refine .after_quiet (only_ofExcept _) fun simulations => ?_
  refine .after_quiet (only_openBudget _ _) fun _ => ?_
  refine .after_quiet (only_storeCall fun _ _ _ => .reserved) fun _ => ?_
  refine .after_quiet (Prog.Only.tryCatch (only_acquire _ _ _) fun _ => ?_) fun lease => ?_
  · exact Prog.Only.bind (only_trainCleanup _ _ _ _) fun _ => only_throw _
  · exact .tryFinally (commits_trainWork _ _ _ _ _ _ _ (only_renew _ _ _ _) only_writeArtifact
      fun _ _ _ _ _ _ committed => ⟨_, .train named .., committed⟩) (only_trainCleanup _ _ _ _)

theorem only_validatePromotionBenchmark (tenantId artifactId receiptId : String) (enforce : Bool) :
    (plane.validatePromotionBenchmark tenantId artifactId receiptId enforce).Only R := by
  refine Prog.Only.bind (only_ofExcept _) fun workerTenantId => ?_
  refine Prog.Only.bind (only_storeRead _) fun record => ?_
  refine Prog.Only.bind (Prog.only_require _ _) fun _ => ?_
  refine Prog.Only.bind (only_ofExcept _) fun issuedAt => ?_
  refine Prog.Only.bind (only_readWorld _) fun _ => ?_
  refine Prog.Only.bind (Prog.only_require _ _) fun _ => ?_
  refine Prog.Only.bind (only_storeRead _) fun artifact => ?_
  refine Prog.Only.bind (Prog.only_require _ _) fun _ => ?_
  refine Prog.Only.bind (only_ofExcept _) fun aggregate => ?_
  refine Prog.Only.bind (Prog.Only.tryCatch (only_readWorld _) fun error =>
    Prog.Only.bind (Prog.only_require _ _) fun _ => only_throw _) fun authenticated => ?_
  refine Prog.Only.bind (only_ofExcept _) fun aggregatePayload => ?_
  refine Prog.Only.bind (Prog.only_require _ _) fun _ => ?_
  refine Prog.Only.bind (only_ofExcept _) fun ⟨benchmark, candidate, result⟩ => ?_
  refine Prog.Only.bind (only_readWorld _) fun ⟨suite, suiteDigest⟩ => ?_
  refine Prog.Only.bind (Prog.only_require _ _) fun _ => ?_
  refine Prog.Only.bind (only_ofExcept _) fun path => ?_
  refine Prog.Only.bind (only_readWorld _) fun _ => ?_
  refine Prog.Only.bind (only_readWorld _) fun fingerprint => ?_
  refine Prog.Only.bind (Prog.only_require _ _) fun _ => ?_
  refine Prog.Only.bind (only_ofExcept _) fun total => ?_
  refine Prog.Only.bind (only_ofExcept _) fun score => ?_
  exact Prog.Only.bind (Prog.only_require _ _) fun _ => only_pure _

theorem only_separateDuties (principal : Principal) (challengerId : String) :
    (plane.separateDuties principal challengerId).Only R := by
  unfold separateDuties
  split
  · exact Prog.Only.bind (only_storeRead _) fun _ =>
      Prog.Only.bind (Prog.only_require _ _) fun _ =>
        Prog.Only.bind (Prog.only_require _ _) fun _ => only_pure _
  · exact only_pure _

theorem only_validateChampion (principal : Principal) (request : Json) (champion : Option Champion)
    (hidden : HiddenResult) :
    (plane.validateChampion principal request champion hidden).Only R := by
  cases champion with
  | none => exact only_pure _
  | some champion =>
      exact Prog.Only.bind (only_ofExcept _) fun _ =>
        Prog.Only.bind (only_validatePromotionBenchmark _ _ _ _) fun ⟨_, _⟩ =>
          Prog.Only.bind (Prog.only_require _ _) fun _ => only_pure _

theorem commits_promoteOperation (named : call.scope = "promote") (request : Json) (challengerId : String) :
    (plane.promoteOperation index call.key call.draws call.principal request challengerId).Commits R
      (plane.StateCommit index call) none := by
  refine .after_quiet (only_ofExcept _) fun family => ?_
  refine .after_quiet (only_ofExcept _) fun reason => ?_
  refine .after_quiet (only_storeRead _) fun artifact => ?_
  refine .after_quiet (Prog.only_require _ _) fun _ => ?_
  refine .after_quiet (only_separateDuties _ _) fun _ => ?_
  refine .after_quiet (only_loadArtifact _ _) fun candidate => ?_
  refine .after_quiet (only_ofExcept _) fun challenger => ?_
  refine .after_quiet (only_storeRead _) fun champion => ?_
  refine .after_quiet (only_championModel _ _) fun ⟨compared, championModel⟩ => ?_
  refine .after_quiet (only_ofExcept _) fun report => ?_
  refine .after_quiet (Prog.only_require _ _) fun _ => ?_
  refine .after_quiet (only_ofExcept _) fun benchmarkReceiptId => ?_
  refine .after_quiet (only_validatePromotionBenchmark _ _ _ _) fun hidden => ?_
  refine .after_quiet (only_validateChampion _ _ _ _) fun championHidden => ?_
  refine .bind (commits_stateTransaction (.promote named ..)) fun response => ?_
  exact .after_quiet Prog.only_mayRaise fun _ => rfl

theorem commits_rollbackOperation (named : call.scope = "rollback") (request : Json) (family : String) :
    (plane.rollbackOperation index call.key call.draws call.principal request family).Commits R
      (plane.StateCommit index call) none := by
  refine .after_quiet (only_ofExcept _) fun reason => ?_
  refine .after_quiet (only_storeRead _) fun champion => ?_
  refine .after_quiet (only_ofExcept _) fun current => ?_
  refine .after_quiet (only_storeRead _) fun audit => ?_
  refine .after_quiet (only_ofExcept _) fun promotion => ?_
  refine .after_quiet (only_ofExcept _) fun previous => ?_
  refine .bind (commits_stateTransaction (.rollback named ..)) fun response => ?_
  exact .after_quiet Prog.only_mayRaise fun _ => rfl

/-- Whatever the request, the operation commits at most once and returns what it committed. -/
theorem commits_operation (plane : ControlPlane Model) (index : Nat) (call : Call) :
    (plane.operation index call).Commits (PlaneStep call) (plane.StateCommit index call) none := by
  have scope : call.scope = call.scope := rfl
  conv at scope => rhs; unfold Call.scope
  unfold operation
  cases request : call.request with
  | runDecision request => exact commits_decisionOperation (by rw [scope, request]) _
  | runEvidence request => exact commits_evidenceOperation (by rw [scope, request]) _
  | evaluateHiddenBenchmark request => exact commits_hiddenOperation (by rw [scope, request]) _
  | trainChallenger request => exact commits_trainOperation (by rw [scope, request]) _
  | promote challengerId request => exact commits_promoteOperation (by rw [scope, request]) _ _
  | rollback family request => exact commits_rollbackOperation (by rw [scope, request]) _ _

end Operations

/-! The wrapper around an operation. -/

/-- A step of a method call outside the state transaction. -/
inductive WrapperStep (index : Nat) (call : Call) : World → World → Prop
  | operation {w after} : PlaneStep call w after → WrapperStep index call w after
  | claimed {w record db} (note : List Note) :
      plane.store.claimIdempotency w.clock call.key.tenantId call.key.scope call.key.key call.payload
        (some 86400) w.db = .ok (record, db) →
      (∀ remark ∈ note, remark = .started index call.key call.payload) →
      WrapperStep index call w { w with db, notes := w.notes ++ if record.isNew then note else [] }
  | finished {w status result record db} :
      finishIdempotency w.clock call.key.tenantId call.key.scope call.key.key status result w.db =
        .ok (record, db) →
      WrapperStep index call w { w with db }

/-- A step of a method call. -/
inductive CallStep (index : Nat) (call : Call) : World → World → Prop
  | wrapper {w after} : plane.WrapperStep index call w after → CallStep index call w after
  | committed {w after response} : plane.StateCommit index call response w after →
      CallStep index call w after

instance (index : Nat) (call : Call) : Std.Refl (plane.WrapperStep index call) :=
  ⟨fun _ => .operation .still⟩

section Wrapper

variable {plane} {index : Nat} {call : Call}

theorem only_claimed {R : World → World → Prop} [Std.Refl R] {note : List Note}
    (claims : ∀ (w : World) record db, plane.store.claimIdempotency w.clock call.key.tenantId call.key.scope
      call.key.key call.payload (some 86400) w.db = .ok (record, db) →
      R w { w with db, notes := w.notes ++ if record.isNew then note else [] }) :
    (plane.claim call.key call.payload note).Only R := by
  refine Prog.only_atomic Std.Refl.refl fun w record after ran => ?_
  simp only [bind_eq_ok, pure_eq_ok, Prod.exists, Prod.mk.injEq] at ran
  obtain ⟨found, db, claimed, rfl, rfl⟩ := ran
  exact claims _ _ _ claimed

theorem only_claim {note : List Note} (remarks : ∀ remark ∈ note,
    remark = .started index call.key call.payload) :
    (plane.claim call.key call.payload note).Only (plane.WrapperStep index call) :=
  only_claimed fun _ _ _ claimed => .claimed note claimed remarks

/-- The steps of the wrapper after the operation: it looks at its record and finishes it. -/
theorem only_recovers {R : World → World → Prop} [Std.Refl R] (error : PyError)
    (claims : ∀ (w : World) record db, plane.store.claimIdempotency w.clock call.key.tenantId call.key.scope
      call.key.key call.payload (some 86400) w.db = .ok (record, db) → R w { w with db })
    (finishes : ∀ (w : World) status result record db, finishIdempotency w.clock call.key.tenantId
      call.key.scope call.key.key status result w.db = .ok (record, db) → R w { w with db }) :
    (plane.recoverResponse call.key call.payload error).Only R := by
  have claimed : (plane.claim call.key call.payload []).Only R :=
    only_claimed fun w record db ran => by simpa using claims w record db ran
  refine Prog.Only.bind claimed fun current => ?_
  split
  · trivial
  · exact Prog.Only.bind (only_onStore fun w _ _ ran => finishes w _ _ _ _ ran) fun _ => trivial

theorem only_finish (status : IdempotencyStatus) (result : Json) :
    (Prog.atomic (onStore fun now db => finishIdempotency now call.key.tenantId call.key.scope
      call.key.key status result db)).Only (plane.WrapperStep index call) :=
  only_onStore fun _ _ _ => .finished

theorem only_recoverResponse (error : PyError) :
    (plane.recoverResponse call.key call.payload error).Only (plane.WrapperStep index call) :=
  only_recovers error (fun w record db ran => by
    have step : plane.WrapperStep index call w _ := .claimed [] ran (by simp)
    simpa using step) fun _ _ _ _ _ => .finished

theorem only_idempotent {operation : Op Json}
    (commits : operation.Commits (PlaneStep call) (plane.StateCommit index call) none) :
    (plane.idempotent index call.key call.payload operation).Only (plane.CallStep index call) := by
  have wraps : ∀ w after, plane.WrapperStep index call w after → plane.CallStep index call w after :=
    fun _ _ => .wrapper
  refine Prog.Only.bind ((only_claim (by simp)).mono wraps) fun record => ?_
  split
  · refine Prog.Only.tryCatch (Prog.Only.bind (commits.only.mono ?_) fun result => ?_)
      fun error => (only_recoverResponse error).mono wraps
    · rintro w after (step | ⟨response, committed⟩)
      · exact .wrapper (.operation step)
      · exact .committed committed
    · exact Prog.Only.bind ⟨(only_finish _ _).mono wraps, fun _ => trivial⟩ fun _ => trivial
  · split <;> trivial

/-- A method call takes no other steps. -/
theorem only_perform (plane : ControlPlane Model) (index : Nat) (call : Call) :
    (plane.perform index call).Only (plane.CallStep index call) :=
  Prog.Only.bind (p := Prog.ofExcept (allowedFields call)) trivial fun _ =>
    only_idempotent (commits_operation plane index call)

end Wrapper

end ControlPlane

end AgentTree
