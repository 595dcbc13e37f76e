import AgentTree.TenantViews

/-!
Whole runs of store operations in the eyes of one tenant: what the operations of
the others leave as it was, and what the tenant's own operations answer.
-/

namespace AgentTree

open Outcome Relational

section Others

variable {store : Store} {inRange : String → Bool} {tenant owner : String} {drawn : List String}
  {now time : Int} {uuid : String} {db after : Db}

/-- A row of another tenant is out of sight. -/
theorem unseen_owner (other : owner ≠ tenant) {row : String} (owned : row = owner) :
    decide (row = tenant) = false := by
  rw [owned]
  exact decide_eq_false other

theorem sweep_hidden {rowTenant : String} {expiresAt : Option Int} (le : now ≤ time)
    (swept : expiresAt.any (· < now) = true) :
    (decide (rowTenant = tenant) && !expiresAt.any (· < time)) = false := by
  cases expiresAt with
  | none => simp at swept
  | some expiry =>
      have early : expiry < now := by simpa using swept
      have gone : expiry < time := by omega
      simp [gone]

theorem unexpired_unseen (le : now ≤ time) : db.idempotency.Agree
    (fun row => row.tenantId = tenant && !row.expiresAt.any (· < time)) (db.unexpired now) :=
  Table.Agree.unseen_delete _ fun _ _ swept => sweep_hidden le swept

theorem retained_unseen (le : now ≤ time) : db.nonces.Agree
    (fun row => row.tenantId = tenant && !row.expiresAt.any (· < time)) (db.retained now) :=
  Table.Agree.unseen_delete _ fun _ _ swept => sweep_hidden le swept

theorem claimReplayNonce_unseen (other : owner ≠ tenant) (le : now ≤ time) {purpose nonce : String}
    {expiresAt : Option Int} {accepted : Bool}
    (ran : store.claimReplayNonce now owner purpose nonce expiresAt db = .ok (accepted, after)) :
    Alike tenant drawn time db after := by
  obtain ⟨nonces, rfl, written⟩ := claimReplayNonce_ok ran
  have swept : db.nonces.Agree (fun row => row.tenantId = tenant && !row.expiresAt.any (· < time))
      (db.retained now) := retained_unseen le
  cases accepted with
  | false =>
      obtain rfl : nonces = db.retained now := written
      exact { Alike.refl db with nonces := swept }
  | true =>
      have hidden : (decide (owner = tenant) &&
          !(expiresAt.map (· + store.replayGraceSeconds)).any (· < time)) = false := by
        simp [other]
      exact { Alike.refl db with nonces := swept.trans (Table.Agree.unseen_insert hidden written) }

theorem claimEnvelopeNonce_unseen (other : owner ≠ tenant) (le : now ≤ time) {envelope : Json}
    (owned : envelopeText envelope "tenant_id" = .ok owner)
    (ran : store.claimEnvelopeNonce now envelope db = .ok after) : Alike tenant drawn time db after := by
  simp only [Store.claimEnvelopeNonce, owned, bind_eq_ok, pure_eq_ok, Except.ok.injEq, exists_eq_left',
    Prod.exists] at ran
  obtain ⟨_, _, _, _, _, _, _, _, claimed, _, _, rfl⟩ := ran
  exact claimReplayNonce_unseen other le claimed

theorem recordEvidenceReceipt_unseen (other : owner ≠ tenant) (le : now ≤ time) {envelope : Json}
    {receiptId : Option String} {row : EvidenceRow}
    (ran : store.recordEvidenceReceipt now owner envelope receiptId db = .ok (row, after)) :
    Alike tenant drawn time db after := by
  simp only [Store.recordEvidenceReceipt, bind_eq_ok, pure_eq_ok, orRaise_eq_ok, Prod.mk.injEq] at ran
  obtain ⟨_, _, _, verified, _, _, _, _, _, _, _, _, _, _, _, _, _, claimed, _, _, _, _, _, _, _, _, _, _,
    evidence, inserted, _, rfl⟩ := ran
  refine (claimEnvelopeNonce_unseen other le (verifyReceipt_tenant verified) claimed).trans { Alike.refl _ with evidence := ?_ }
  exact Table.Agree.unseen_insert (unseen_owner other rfl) inserted

theorem recordExperienceReceipt_unseen (other : owner ≠ tenant) (le : now ≤ time) {envelope : Json}
    {receiptId : Option String} {row : ExperienceRow}
    (ran : store.recordExperienceReceipt inRange now owner envelope receiptId db = .ok (row, after)) :
    Alike tenant drawn time db after := by
  simp only [Store.recordExperienceReceipt, bind_eq_ok, pure_eq_ok, orRaise_eq_ok,
    Prod.mk.injEq] at ran
  obtain ⟨_, _, _, verified, _, _, _, _, _, _, _, _, _, _, _, _, _, claimed, _, _, _, _, _, _, _, _, _, _,
    _, _, experience, inserted, _, rfl⟩ := ran
  refine (claimEnvelopeNonce_unseen other le (verifyReceipt_tenant verified) claimed).trans { Alike.refl _ with experience := ?_ }
  exact Table.Agree.unseen_insert (unseen_owner other rfl) inserted

theorem promotePolicy_unseen (other : owner ≠ tenant) {policyName artifactId : String}
    {expected : Option String} {decidedBy reason : String} {benchmarkReceiptId auditId : Option String}
    {promotion : Promotion}
    (ran : promotePolicy now uuid owner policyName artifactId expected decidedBy reason benchmarkReceiptId
      auditId db = .ok (promotion, after)) : Alike tenant drawn time db after := by
  simp only [promotePolicy, bind_eq_ok] at ran
  obtain ⟨_, _, _, _, _, _, _, _, ran⟩ := ran
  split at ran
  next =>
    simp only [bind_eq_ok, pure_eq_ok, Prod.mk.injEq] at ran
    obtain ⟨_, _, _, rfl⟩ := ran
    exact .refl db
  next =>
    simp only [bind_eq_ok, pure_eq_ok, orRaise_eq_ok, Prod.mk.injEq] at ran
    obtain ⟨_, _, audits, inserted, _, rfl⟩ := ran
    refine { Alike.refl db with champions := ?_, audit := ?_ }
    · refine Table.Agree.unseen_upsert _ fun row keyed => ?_
      exact unseen_owner other (Prod.mk.inj keyed).1
    · exact Table.AgreeBy.unseen_append (unseen_owner other rfl) (Table.insert_eq_some.mp inserted).2

theorem finishIdempotency_unseen (other : owner ≠ tenant) {scope name : String}
    {status : IdempotencyStatus} {result : Json} {record : IdempotencyRecord}
    (ran : finishIdempotency now owner scope name status result db = .ok (record, after)) :
    Alike tenant drawn time db after := by
  obtain ⟨_, _, ⟨_, rfl⟩ | ⟨_, _, rfl⟩⟩ := finishIdempotency_cases ran
  · refine { Alike.refl db with idempotency := ?_ }
    refine Table.Agree.unseen_updateAt _ fun row _ keyed => ?_
    simp [unseen_owner other (Prod.mk.inj keyed).1]
  · exact .refl _

theorem transitionReservation_unseen (other : owner ≠ tenant) {budgetId reservationId : String}
    {target : ReservationStatus} {snapshot : BudgetSnapshot}
    (ran : transitionReservation now owner budgetId reservationId target db = .ok (snapshot, after)) :
    Alike tenant drawn time db after := by
  rcases transitionReservation_cases ran with ⟨rfl, _⟩ | ⟨_, _, _, _, rfl⟩
  · exact .refl _
  · refine { Alike.refl db with budgets := ?_, reservations := ?_ } <;>
      exact Table.Agree.unseen_updateAt _ fun row _ keyed => unseen_owner other (Prod.mk.inj keyed).1

/-- The operations that delete expired rows, of whichever tenant. -/
def StoreOp.sweeps : StoreOp → Bool
  | claimReplayNonce .. | recordEvidenceReceipt .. | recordExperienceReceipt .. | claimIdempotency .. => true
  | _ => false

/-- An operation of another tenant whose sweep is no later than `time` changes nothing that the
tenant can see. -/
theorem StoreOp.run_unseen {op : StoreOp} (owned : op.owner? = some owner) (other : owner ≠ tenant)
    (le : op.sweeps = true → now ≤ time) :
    Alike tenant drawn time db (op.run store inRange now uuid db).2 := by
  let P := fun after : Db => Alike tenant drawn time db after
  have still : P db := .refl db
  cases op with
  | appendEvent =>
      obtain rfl := Option.some.inj owned
      refine transact_kept P still fun _ _ ran => ?_
      obtain ⟨_, inserted, rfl, _, own, _⟩ := appendEvent_cases ran
      refine { Alike.refl db with events := ?_ }
      exact Table.AgreeBy.unseen_append (unseen_owner other own) (Table.insert_eq_some.mp inserted).2
  | claimReplayNonce =>
      obtain rfl := Option.some.inj owned
      exact transact_kept P still fun _ _ ran => claimReplayNonce_unseen other (le rfl) ran
  | recordEvidenceReceipt =>
      obtain rfl := Option.some.inj owned
      exact transact_kept P still fun _ _ ran => recordEvidenceReceipt_unseen other (le rfl) ran
  | recordExperienceReceipt =>
      obtain rfl := Option.some.inj owned
      exact transact_kept P still fun _ _ ran => recordExperienceReceipt_unseen other (le rfl) ran
  | claimIdempotency =>
      obtain rfl := Option.some.inj owned
      refine transact_kept P still fun record _ ran => ?_
      have swept : db.idempotency.Agree
          (fun row => row.tenantId = tenant && !row.expiresAt.any (· < time)) (db.unexpired now) :=
        unexpired_unseen (le rfl)
      rcases claimIdempotency_cases ran with ⟨_, _, _, rfl⟩ | ⟨_, _, row, _, inserted, rfl⟩
      · exact { Alike.refl db with idempotency := swept }
      · refine { Alike.refl db with idempotency := swept.trans (Table.Agree.unseen_insert ?_ inserted) }
        simp [row, other]
  | completeIdempotency =>
      obtain rfl := Option.some.inj owned
      exact transact_kept P still fun _ _ ran => finishIdempotency_unseen other ran
  | failIdempotency =>
      obtain rfl := Option.some.inj owned
      exact transact_kept P still fun _ _ ran => finishIdempotency_unseen other ran
  | acquireLease =>
      obtain rfl := Option.some.inj owned
      refine transact_kept P still fun _ _ ran => ?_
      rcases acquireLease_cases ran with ⟨_, _, inserted, rfl⟩ | ⟨_, _, _, _, rfl⟩ | ⟨_, _, _, rfl⟩ <;>
        refine { Alike.refl db with leases := ?_ }
      · exact Table.Agree.unseen_insert (unseen_owner other rfl) inserted
      · exact Table.Agree.unseen_updateAt _ fun row _ keyed => unseen_owner other (Prod.mk.inj keyed).1
      · exact Table.Agree.unseen_updateAt _ fun row _ keyed => unseen_owner other (Prod.mk.inj keyed).1
  | renewLease =>
      obtain rfl := Option.some.inj owned
      refine transact_kept P still fun _ _ ran => ?_
      obtain ⟨_, _, _, _, _, rfl⟩ := renewLease_cases ran
      refine { Alike.refl db with leases := ?_ }
      exact Table.Agree.unseen_updateAt _ fun row _ keyed => unseen_owner other (Prod.mk.inj keyed).1
  | releaseLease =>
      obtain rfl := Option.some.inj owned
      refine transact_kept P still fun _ _ ran => ?_
      obtain ⟨_, _, _, _, rfl⟩ := releaseLease_cases ran
      refine { Alike.refl db with leases := ?_ }
      exact Table.Agree.unseen_updateAt _ fun row _ keyed => unseen_owner other (Prod.mk.inj keyed).1
  | createBudget =>
      obtain rfl := Option.some.inj owned
      refine transact_kept P still fun _ _ ran => ?_
      rcases createBudget_cases ran with rfl | ⟨_, _, _, inserted, rfl⟩
      · exact still
      · refine { Alike.refl db with budgets := ?_ }
        exact Table.Agree.unseen_insert (unseen_owner other rfl) inserted
  | reserveBudget =>
      obtain rfl := Option.some.inj owned
      refine transact_kept P still fun _ _ ran => ?_
      rcases reserveBudget_cases ran with rfl | ⟨_, _, _, _, _, _, inserted, rfl⟩
      · exact still
      · refine { Alike.refl db with budgets := ?_, reservations := ?_ }
        · exact Table.Agree.unseen_updateAt _ fun row _ keyed => unseen_owner other (Prod.mk.inj keyed).1
        · exact Table.Agree.unseen_insert (unseen_owner other rfl) inserted
  | consumeBudget =>
      obtain rfl := Option.some.inj owned
      exact transact_kept P still fun _ _ ran => transitionReservation_unseen other ran
  | releaseBudget =>
      obtain rfl := Option.some.inj owned
      exact transact_kept P still fun _ _ ran => transitionReservation_unseen other ran
  | registerPolicyArtifact =>
      obtain rfl := Option.some.inj owned
      refine transact_kept P still fun row _ ran => ?_
      rcases registerPolicyArtifact_cases ran with ⟨rfl, _⟩ | ⟨_, inserted, rfl, keyed⟩
      · exact still
      · refine { Alike.refl db with artifacts := ?_ }
        exact Table.Agree.unseen_insert (unseen_owner other (Prod.mk.inj keyed).1) inserted
  | recordTrainingRun =>
      obtain rfl := Option.some.inj owned
      refine transact_kept P still fun _ _ ran => ?_
      obtain ⟨_, own, _, ⟨rfl, _⟩ | ⟨_, inserted, rfl⟩⟩ := recordTrainingRun_cases ran
      · exact still
      · refine { Alike.refl db with trainingRuns := ?_ }
        exact Table.Agree.unseen_insert (unseen_owner other own) inserted
  | promotePolicy =>
      obtain rfl := Option.some.inj owned
      exact transact_kept P still fun _ _ ran => promotePolicy_unseen other ran
  | pruneReplayNonces | reconcileStartup => simp [StoreOp.owner?] at owned
  | _ => exact still

end Others

/-! The answers to the tenant's own operations. -/

/-- The same answer up to masked columns, and stores that still look the same. -/
structure Answered (tenant : String) (drawn : List String) (time : Int)
    (one two : Except PyError Reply × Db) : Prop where
  reply : one.1.map (Reply.masked drawn) = two.1.map (Reply.masked drawn)
  alike : Alike tenant drawn time one.2 two.2

section Answers

variable {tenant : String} {drawn : List String} {time now : Int} {left right : Db} {α : Type}

theorem transact_answered {Value : α → α → Prop} {first second : Db → Except PyError (α × Db)}
    {reply : α → Db → Except PyError Reply} (alike : Alike tenant drawn time left right)
    (ran : Matches Value (Alike tenant drawn time) (first left) (second right))
    (replies : ∀ a b x y, Value a b → Alike tenant drawn time x y →
      (reply a x).map (Reply.masked drawn) = (reply b y).map (Reply.masked drawn)) :
    Answered tenant drawn time (transact first reply left) (transact second reply right) := by
  unfold transact
  cases one : first left with
  | error raised =>
      cases two : second right with
      | error other =>
          rw [one, two] at ran
          exact ⟨congrArg (Except.map _ <| Except.error ·) ran, alike⟩
      | ok value =>
          rw [one, two] at ran
          exact ran.elim
  | ok value =>
      cases two : second right with
      | error other =>
          rw [one, two] at ran
          exact ran.elim
      | ok other =>
          rw [one, two] at ran
          exact ⟨replies _ _ _ _ ran.1 ran.2, ran.2⟩

theorem commits_answered {Value : α → α → Prop} {answer : α → Reply}
    {first second : Db → Except PyError (α × Db)} (alike : Alike tenant drawn time left right)
    (ran : Matches Value (Alike tenant drawn time) (first left) (second right))
    (masks : ∀ a b, Value a b → (answer a).masked drawn = (answer b).masked drawn) :
    Answered tenant drawn time (commits answer first left) (commits answer second right) := by
  refine transact_answered alike ran fun a b _ _ same _ => ?_
  simp only [Except.map, masks a b same]

/-- A read whose answers are the same once they are masked. -/
theorem readOnly_answered {answer : α → Reply} {read : Db → Except PyError α} (mask : α → α)
    (alike : Alike tenant drawn time left right) (masks : ∀ a, (answer a).masked drawn = answer (mask a))
    (same : (read left).map mask = (read right).map mask) :
    Answered tenant drawn time (readOnly answer read left) (readOnly answer read right) := by
  have masked : ∀ result : Except PyError α,
      (result.map answer).map (Reply.masked drawn) = (result.map mask).map answer := by
    intro result
    cases result with
    | error error => rfl
    | ok value => exact congrArg Except.ok (masks value)
  refine ⟨?_, alike⟩
  simp only [readOnly, masked, same]

/-- A read that only meets the tenant's own rows. -/
theorem readOnly_equal {answer : α → Reply} {read : Db → Except PyError α}
    (alike : Alike tenant drawn time left right) (same : read left = read right) :
    Answered tenant drawn time (readOnly answer read left) (readOnly answer read right) := by
  refine ⟨?_, alike⟩
  simp only [readOnly, same]

/-! Records that have expired may be gone in one of the stores. -/

theorem finishIdempotency_alike (now : Int) (alike : Alike tenant drawn time left right)
    (scope name : String) (status : IdempotencyStatus) (result : Json)
    (same : left.idempotency.find? (tenant, scope, name) = right.idempotency.find? (tenant, scope, name)) :
    Matches Eq (Alike tenant drawn time) (finishIdempotency now tenant scope name status result left)
      (finishIdempotency now tenant scope name status result right) := by
  unfold finishIdempotency
  refine .bind fun _ _ => .bind fun resultJson _ => ?_
  rw [← same]
  refine .bind fun row _ => ?_
  split
  · refine .ok rfl { alike with idempotency := ?_ }
    exact alike.idempotency.updateAt
  · split
    · exact .ok rfl alike
    · exact .error

/-- A write to a record that has expired is out of sight. -/
theorem finishIdempotency_expired {scope name : String} {status : IdempotencyStatus} {result : Json}
    {db after : Db} {record : IdempotencyRecord}
    (gone : (db.unexpired time).find? (tenant, scope, name) = none)
    (ran : finishIdempotency now tenant scope name status result db = .ok (record, after)) :
    Alike tenant drawn time db after := by
  obtain ⟨_, _, ⟨_, rfl⟩ | ⟨_, _, rfl⟩⟩ := finishIdempotency_cases ran
  · refine { Alike.refl db with idempotency := ?_ }
    refine Table.Agree.unseen_updateAt _ fun row member keyed => ?_
    rw [Db.unexpired, Table.find?_eq_none] at gone
    by_contra visible
    rw [Bool.not_eq_false, Bool.and_eq_true] at visible
    exact gone row (List.mem_filter.mpr ⟨member, visible.2⟩) keyed
  · exact .refl _

/-- The operations on rows that can expire. -/
def StoreOp.expiring : StoreOp → Bool
  | completeIdempotency .. | failIdempotency .. => true
  | op => op.sweeps

/-- The record that a finalisation is about has expired at its clock reading. -/
def StoreOp.late (now : Int) (op : StoreOp) (db : Db) : Bool :=
  match op with
  | .completeIdempotency tenantId scope key _ | .failIdempotency tenantId scope key _ =>
      (db.idempotency.find? (tenantId, scope, key)).any fun row => row.expiresAt.any (· < now)
  | _ => false

theorem finish_answered (le : time ≤ now) (alike : Alike tenant drawn time left right) (scope name : String)
    (status : IdempotencyStatus) (result : Json) :
    let one := commits .idempotency (finishIdempotency now tenant scope name status result) left
    let two := commits .idempotency (finishIdempotency now tenant scope name status result) right
    Alike tenant drawn time one.2 two.2 ∧
      (((left.idempotency.find? (tenant, scope, name)).any fun row => row.expiresAt.any (· < now)) = false →
        ((right.idempotency.find? (tenant, scope, name)).any fun row =>
          row.expiresAt.any (· < now)) = false →
        one.1.map (Reply.masked drawn) = two.1.map (Reply.masked drawn)) := by
  have masks : ∀ a b : IdempotencyRecord, a = b →
      (Reply.idempotency a).masked drawn = (Reply.idempotency b).masked drawn := by
    rintro a _ rfl
    rfl
  have found : ∀ db : Db, (db.unexpired time).find? (tenant, scope, name) =
      (db.idempotency.find? (tenant, scope, name)).filter fun row => !row.expiresAt.any (· < time) :=
    fun db => Table.find?_delete _
  have agree := (unexpired_agree (le_refl time) alike).find? (k := (tenant, scope, name)) fun row keyed => own_first keyed
  cases live : (left.unexpired time).find? (tenant, scope, name) with
  | some row =>
      have present : ∀ db : Db, (db.unexpired time).find? (tenant, scope, name) = some row →
          db.idempotency.find? (tenant, scope, name) = some row := by
        intro db some
        rw [found] at some
        exact (Option.filter_eq_some_iff.mp some).1
      have same := (present left live).trans (present right (agree ▸ live)).symm
      have answered := commits_answered alike (finishIdempotency_alike now alike scope name status result same)
        masks
      exact ⟨answered.alike, fun _ _ => answered.reply⟩
  | none =>
      have kept : ∀ db : Db, (db.unexpired time).find? (tenant, scope, name) = none →
          Alike tenant drawn time db
            (commits .idempotency (finishIdempotency now tenant scope name status result) db).2 := by
        intro db gone
        exact transact_kept (fun after => Alike tenant drawn time db after) (.refl db) fun _ _ ran =>
          finishIdempotency_expired gone ran
      have goneRight : (right.unexpired time).find? (tenant, scope, name) = none := agree ▸ live
      refine ⟨((kept left live).symm.trans alike).trans (kept right goneRight), fun early prompt => ?_⟩
      have absent : ∀ db : Db, (db.unexpired time).find? (tenant, scope, name) = none →
          ((db.idempotency.find? (tenant, scope, name)).any fun row => row.expiresAt.any (· < now)) = false →
          db.idempotency.find? (tenant, scope, name) = none := by
        intro db gone fresh
        rw [found] at gone
        cases held : db.idempotency.find? (tenant, scope, name) with
        | none => rfl
        | some row =>
            rw [held, Option.any_some] at fresh
            have early : (!row.expiresAt.any (· < time)) = true :=
              Alike.expired_later le (by rw [fresh, Bool.not_false])
            simp only [held, Option.filter_some, early, if_true, reduceCtorEq] at gone
      have same := (absent left live early).trans (absent right goneRight prompt).symm
      exact (commits_answered alike (finishIdempotency_alike now alike scope name status result same)
        masks).reply

/-! Event rows in their order, and identifiers that no row has yet. -/

/-- The event log is in sequence order, and the identifiers still to be drawn are unused. -/
structure Orderly (db : Db) (upcoming : List String) : Prop where
  sorted : db.events.rows.Pairwise fun a b => a.sequence ≤ b.sequence
  positive : ∀ row ∈ db.events.rows, 0 < row.sequence
  events : ∀ row ∈ db.events.rows, row.eventId ∉ upcoming
  audit : ∀ row ∈ db.audit.rows, row.auditId ∉ upcoming

theorem listEvents_alike (alike : Alike tenant drawn time left right) {upcoming later : List String}
    (one : Orderly left upcoming) (two : Orderly right later) (streamId : Option String) (limit : Int) :
    (listEvents tenant streamId 0 limit left).map (List.map (EventRow.masked drawn)) =
      (listEvents tenant streamId 0 limit right).map (List.map (EventRow.masked drawn)) := by
  have listed : ∀ (db : Db) (names : List String), Orderly db names →
      (db.events.rows.filter fun row => row.tenantId = tenant && (0 : Int) < row.sequence &&
        streamId.all (· = row.streamId)).insertionSort (fun a b => a.sequence ≤ b.sequence) =
        db.events.rows.filter fun row => row.tenantId = tenant && streamId.all (· = row.streamId) := by
    intro db names orderly
    rw [(orderly.sorted.filter _).insertionSort_eq]
    refine List.filter_congr fun row member => ?_
    simp [orderly.positive row member]
  have visible : ∀ row : EventRow, (row.tenantId = tenant && streamId.all (· = row.streamId)) = true →
      decide (row.tenantId = tenant) = true := by
    intro row hit
    rw [Bool.and_eq_true] at hit
    exact hit.1
  have same := alike.events.filter visible fun _ => rfl
  unfold listEvents
  cases required [("tenant_id", tenant)] with
  | error error => rfl
  | ok =>
      cases positiveLimit limit with
      | error error => rfl
      | ok =>
          cases bindInteger 0 with
          | error error => rfl
          | ok =>
              simp only [bind, Except.bind, pure, Except.pure, Except.map, listed left _ one,
                listed right _ two, List.map_take, same]

theorem listPromotionAudit_alike (alike : Alike tenant drawn time left right) (policyName : String)
    (limit : Int) :
    (listPromotionAudit tenant policyName limit left).map (List.map (Promotion.masked drawn)) =
      (listPromotionAudit tenant policyName limit right).map (List.map (Promotion.masked drawn)) := by
  have visible : ∀ row : Promotion, (row.tenantId = tenant && row.policyName = policyName) = true →
      decide (row.tenantId = tenant) = true := by
    intro row hit
    rw [Bool.and_eq_true] at hit
    exact hit.1
  have same := alike.audit.filter visible fun _ => rfl
  have sorted : ∀ rows : List Promotion,
      (rows.insertionSort fun a b => a.generation ≤ b.generation).map (Promotion.masked drawn) =
        (rows.map (Promotion.masked drawn)).insertionSort fun a b => a.generation ≤ b.generation :=
    fun rows => List.map_insertionSort _ _ _ rows fun _ _ _ _ => Iff.rfl
  unfold listPromotionAudit
  cases positiveLimit limit with
  | error error => rfl
  | ok => simp only [bind, Except.bind, pure, Except.pure, Except.map, List.map_take, sorted, same]

theorem listExperienceReceipts_alike (alike : Alike tenant drawn time left right) (runId : Option String)
    (limit : Int) :
    listExperienceReceipts tenant runId limit left = listExperienceReceipts tenant runId limit right := by
  have same : (left.experience.rows.filter fun row => row.tenantId = tenant && runId.all (· = row.runId)) =
      right.experience.rows.filter fun row => row.tenantId = tenant && runId.all (· = row.runId) := by
    refine alike.experience.filter fun row hit => ?_
    rw [Bool.and_eq_true] at hit
    exact hit.1
  rw [listExperienceReceipts, listExperienceReceipts, same]

theorem trainingRuns_alike (alike : Alike tenant drawn time left right) (artifactId : String) :
    (left.trainingRuns.rows.filter fun row => row.tenantId = tenant && row.artifactId = artifactId) =
      right.trainingRuns.rows.filter fun row => row.tenantId = tenant && row.artifactId = artifactId := by
  refine alike.trainingRuns.filter fun row hit => ?_
  rw [Bool.and_eq_true] at hit
  exact hit.1

theorem getChampion_alike (alike : Alike tenant drawn time left right) (policyName : String) :
    getChampion tenant policyName left = getChampion tenant policyName right := by
  have champion := alike.champions.find? (k := (tenant, policyName)) fun row keyed => own_first keyed
  have artifact : ∀ artifactId, left.artifacts.find? (tenant, artifactId) =
      right.artifacts.find? (tenant, artifactId) :=
    fun artifactId => alike.artifacts.find? fun row keyed => own_first keyed
  simp only [getChampion, champion, artifact]

theorem getPromotionAtGeneration_alike (alike : Alike tenant drawn time left right) (policyName : String)
    (generation : Nat) :
    (getPromotionAtGeneration tenant policyName generation left).map
        (Option.map (Promotion.masked drawn)) =
      (getPromotionAtGeneration tenant policyName generation right).map
        (Option.map (Promotion.masked drawn)) := by
  have answered : ∀ (checked bound : Except PyError Unit) (one two : Option Promotion),
      one.map (Promotion.masked drawn) = two.map (Promotion.masked drawn) →
      (checked >>= fun _ => bound >>= fun _ => pure one).map (Option.map (Promotion.masked drawn)) =
        (checked >>= fun _ => bound >>= fun _ => pure two).map (Option.map (Promotion.masked drawn)) := by
    intro checked bound one two same
    cases checked with
    | error error => rfl
    | ok =>
        cases bound with
        | error error => rfl
        | ok => simp only [bind, Except.bind, pure, Except.pure, Except.map, same]
  exact answered _ _ _ _ (promotionAt_alike alike policyName generation)

/-! One operation of the tenant. -/

/-- The identifier that a caller may bring along. -/
def StoreOp.identity? : StoreOp → Option String
  | appendEvent _ _ _ _ eventId _ _ => eventId
  | promotePolicy _ _ _ _ _ _ _ auditId => auditId
  | _ => none

/-- `list_events` is asked for the whole log. -/
def StoreOp.fromStart : StoreOp → Bool
  | listEvents _ _ afterSequence _ => afterSequence = 0
  | _ => true

theorem givenOr_identified {given : Option String} {one two : String} {usedOne usedTwo : String → Prop}
    (literal : ∀ identity, given = some identity → identity ∉ drawn) (first : one ∈ drawn)
    (second : two ∈ drawn) (newOne : ¬usedOne one) (newTwo : ¬usedTwo two) :
    Identified drawn (givenOr given one) (givenOr given two) usedOne usedTwo := by
  cases given with
  | none => exact .fresh first second newOne newTwo
  | some identity =>
      by_cases empty : identity = ""
      · simp only [givenOr, if_pos empty]
        exact .fresh first second newOne newTwo
      · simp only [givenOr, if_neg empty]
        exact .literal rfl (literal identity rfl) empty

theorem Answered.prompt {one two : Except PyError Reply × Db} {P Q : Prop}
    (answered : Answered tenant drawn time one two) : Alike tenant drawn time one.2 two.2 ∧
      (P → Q → one.1.map (Reply.masked drawn) = two.1.map (Reply.masked drawn)) :=
  ⟨answered.alike, fun _ _ => answered.reply⟩

/-- The tenant's own operation on two stores that look the same to it.  Only the finalisation of an
expired record can tell them apart. -/
theorem StoreOp.run_answered (store : Store) (inRange : String → Bool) {op : StoreOp}
    {first second : String} {upcoming later : List String} (owned : op.owner? = some tenant)
    (whole : op.fromStart = true) (le : op.expiring = true → time ≤ now)
    (alike : Alike tenant drawn time left right) (one : Orderly left (first :: upcoming))
    (two : Orderly right (second :: later)) (random : first ∈ drawn) (other : second ∈ drawn)
    (given : ∀ identity, op.identity? = some identity → identity ∉ drawn) :
    Alike tenant drawn time (op.run store inRange now first left).2
        (op.run store inRange now second right).2 ∧
      (op.late now left = false → op.late now right = false →
        (op.run store inRange now first left).1.map (Reply.masked drawn) =
          (op.run store inRange now second right).1.map (Reply.masked drawn)) := by
  have identity {ρ : Type} (answer : ρ → Reply) (a b : ρ) (same : a = b) :
      (answer a).masked drawn = (answer b).masked drawn := by rw [same]
  cases op with
  | appendEvent _ streamId eventType payload eventId expected occurredAt =>
      obtain rfl := Option.some.inj owned
      refine (commits_answered alike (appendEvent_alike alike streamId eventType payload eventId expected
        occurredAt (givenOr_identified given random other ?_ ?_)) fun a b => congrArg Reply.event).prompt
      · rintro ⟨row, member, rfl⟩
        exact one.events row member (List.mem_cons_self ..)
      · rintro ⟨row, member, rfl⟩
        exact two.events row member (List.mem_cons_self ..)
  | listEvents _ streamId afterSequence limit =>
      obtain rfl := Option.some.inj owned
      obtain rfl : afterSequence = 0 := of_decide_eq_true whole
      exact (readOnly_answered (List.map (EventRow.masked drawn)) alike (fun _ => rfl)
        (listEvents_alike alike one two streamId limit)).prompt
  | claimReplayNonce _ purpose nonce expiresAt =>
      obtain rfl := Option.some.inj owned
      exact (commits_answered alike (claimReplayNonce_alike (le rfl) alike purpose nonce expiresAt)
        (identity _)).prompt
  | recordEvidenceReceipt _ envelope receiptId =>
      obtain rfl := Option.some.inj owned
      exact (commits_answered alike (recordEvidenceReceipt_alike (le rfl) alike envelope receiptId)
        (identity _)).prompt
  | getEvidenceReceipt _ receiptId =>
      obtain rfl := Option.some.inj owned
      refine (readOnly_equal alike ?_).prompt
      rw [AgentTree.getEvidenceReceipt, AgentTree.getEvidenceReceipt, alike.evidence.find? fun row keyed => own_first keyed]
  | recordExperienceReceipt _ envelope receiptId =>
      obtain rfl := Option.some.inj owned
      exact (commits_answered alike (recordExperienceReceipt_alike (le rfl) alike envelope receiptId)
        (identity _)).prompt
  | listExperienceReceipts _ runId limit =>
      obtain rfl := Option.some.inj owned
      exact (readOnly_equal alike (listExperienceReceipts_alike alike runId limit)).prompt
  | claimIdempotency _ scope key request ttlSeconds =>
      obtain rfl := Option.some.inj owned
      exact (commits_answered alike (claimIdempotency_alike (le rfl) alike scope key request ttlSeconds)
        (identity _)).prompt
  | completeIdempotency _ scope key result =>
      obtain rfl := Option.some.inj owned
      exact finish_answered (le rfl) alike scope key .completed result
  | failIdempotency _ scope key error =>
      obtain rfl := Option.some.inj owned
      exact finish_answered (le rfl) alike scope key .failed error
  | acquireLease _ resourceId holderId ttlSeconds at? =>
      obtain rfl := Option.some.inj owned
      refine (transact_answered alike (acquireLease_alike alike resourceId holderId ttlSeconds at?)
        fun _ _ x y _ after => ?_).prompt
      rw [getLease_alike after]
  | renewLease _ resourceId holderId fencingToken ttlSeconds at? =>
      obtain rfl := Option.some.inj owned
      refine (transact_answered alike (renewLease_alike alike resourceId holderId fencingToken ttlSeconds
        at?) fun _ _ x y _ after => ?_).prompt
      rw [getLease_alike after]
  | releaseLease _ resourceId holderId fencingToken =>
      obtain rfl := Option.some.inj owned
      refine (transact_answered alike (releaseLease_alike alike resourceId holderId fencingToken)
        fun _ _ x y _ after => ?_).prompt
      rw [getLease_alike after]
  | getLease _ resourceId =>
      obtain rfl := Option.some.inj owned
      exact (readOnly_equal alike (getLease_alike alike resourceId)).prompt
  | createBudget _ budgetId limitUnits =>
      obtain rfl := Option.some.inj owned
      refine (transact_answered alike (createBudget_alike alike budgetId limitUnits)
        fun _ _ x y _ after => ?_).prompt
      rw [getBudget_alike after]
  | reserveBudget _ budgetId reservationId units =>
      obtain rfl := Option.some.inj owned
      exact (commits_answered alike (reserveBudget_alike alike budgetId reservationId units)
        (identity _)).prompt
  | consumeBudget _ budgetId reservationId =>
      obtain rfl := Option.some.inj owned
      exact (commits_answered alike (transitionReservation_alike alike budgetId reservationId .consumed)
        (identity _)).prompt
  | releaseBudget _ budgetId reservationId =>
      obtain rfl := Option.some.inj owned
      exact (commits_answered alike (transitionReservation_alike alike budgetId reservationId .released)
        (identity _)).prompt
  | getBudget _ budgetId =>
      obtain rfl := Option.some.inj owned
      exact (readOnly_equal alike (getBudget_alike alike budgetId)).prompt
  | registerPolicyArtifact _ artifactId policyName version contentSha256 artifactUri metadata =>
      obtain rfl := Option.some.inj owned
      exact (commits_answered alike (registerPolicyArtifact_alike alike artifactId policyName version
        contentSha256 artifactUri metadata) (identity _)).prompt
  | getPolicyArtifact _ artifactId =>
      obtain rfl := Option.some.inj owned
      refine (readOnly_equal alike ?_).prompt
      rw [AgentTree.getPolicyArtifact, AgentTree.getPolicyArtifact, alike.artifacts.find? fun row keyed => own_first keyed]
  | recordTrainingRun _ trainingId policyName artifactId trainedBy leaseFencingToken report =>
      obtain rfl := Option.some.inj owned
      exact (commits_answered alike (recordTrainingRun_alike alike trainingId policyName artifactId
        trainedBy leaseFencingToken report) (identity _)).prompt
  | listTrainingRuns _ artifactId limit =>
      obtain rfl := Option.some.inj owned
      refine (readOnly_equal alike ?_).prompt
      rw [AgentTree.listTrainingRuns, AgentTree.listTrainingRuns, trainingRuns_alike alike]
  | trainingProducers _ artifactId =>
      obtain rfl := Option.some.inj owned
      refine (readOnly_equal alike ?_).prompt
      rw [AgentTree.trainingProducers, AgentTree.trainingProducers, trainingRuns_alike alike]
  | promotePolicy _ policyName artifactId expected decidedBy reason benchmarkReceiptId auditId =>
      obtain rfl := Option.some.inj owned
      refine (commits_answered alike (promotePolicy_alike alike policyName artifactId expected decidedBy
        reason benchmarkReceiptId auditId (givenOr_identified given random other ?_ ?_))
        fun a b => congrArg Reply.promotion).prompt
      · rintro ⟨row, member, rfl⟩
        exact one.audit row member (List.mem_cons_self ..)
      · rintro ⟨row, member, rfl⟩
        exact two.audit row member (List.mem_cons_self ..)
  | getChampion _ policyName =>
      obtain rfl := Option.some.inj owned
      refine (readOnly_equal alike ?_).prompt
      rw [getChampion_alike alike]
  | getPromotionAtGeneration _ policyName generation =>
      obtain rfl := Option.some.inj owned
      exact (readOnly_answered (Option.map (Promotion.masked drawn)) alike (fun _ => rfl)
        (getPromotionAtGeneration_alike alike policyName generation)).prompt
  | listPromotionAudit _ policyName limit =>
      obtain rfl := Option.some.inj owned
      exact (readOnly_answered (List.map (Promotion.masked drawn)) alike (fun _ => rfl)
        (listPromotionAudit_alike alike policyName limit)).prompt
  | pruneReplayNonces | reconcileStartup => simp [StoreOp.owner?] at owned

end Answers

/-! What an operation leaves in order for the next one. -/

section Order

variable {store : Store} {inRange : String → Bool} {now : Int} {uuid : String} {upcoming : List String}
  {db after : Db}

theorem Orderly.weaken {name : String} (orderly : Orderly db (name :: upcoming)) : Orderly db upcoming where
  sorted := orderly.sorted
  positive := orderly.positive
  events row member used := orderly.events row member (List.mem_cons_of_mem _ used)
  audit row member used := orderly.audit row member (List.mem_cons_of_mem _ used)

/-- An identifier that comes from the caller or from the random source is not drawn again. -/
theorem givenOr_unused {given : Option String} (fresh : uuid ∉ upcoming)
    (literal : ∀ identity, given = some identity → identity ∉ upcoming) :
    givenOr given uuid ∉ upcoming := by
  unfold givenOr
  split
  next identity =>
    split
    · exact fresh
    · exact literal identity rfl
  next => exact fresh

theorem appendEvent_orderly {tenantId streamId eventType : String} {payload : Json}
    {eventId : Option String} {expected occurredAt : Option Int} {row : EventRow}
    (orderly : Orderly db upcoming) (unused : givenOr eventId uuid ∉ upcoming)
    (ran : store.appendEvent now uuid tenantId streamId eventType payload eventId expected occurredAt db =
      .ok (row, after)) : Orderly after upcoming := by
  simp only [Store.appendEvent, bind_eq_ok, pure_eq_ok, orRaise_eq_ok, Prod.mk.injEq] at ran
  obtain ⟨_, _, _, _, _, _, _, _, _, _, _, _, events, inserted, rfl, rfl⟩ := ran
  have rows := (Table.insert_eq_some.mp inserted).2
  have below := le_nextSequence db
  refine ⟨?_, ?_, ?_, orderly.audit⟩
  · simp only [rows, List.pairwise_append, List.pairwise_cons, List.mem_singleton, forall_eq]
    exact ⟨orderly.sorted, ⟨by simp, .nil⟩, fun row member => (below row member).le⟩
  · intro row member
    rw [rows, List.mem_append, List.mem_singleton] at member
    rcases member with earlier | rfl
    · exact orderly.positive row earlier
    · exact Nat.succ_pos _
  · intro row member
    rw [rows, List.mem_append, List.mem_singleton] at member
    rcases member with earlier | rfl
    · exact orderly.events row earlier
    · exact unused

theorem promotePolicy_orderly {tenantId policyName artifactId : String} {expected : Option String}
    {decidedBy reason : String} {benchmarkReceiptId auditId : Option String} {promotion : Promotion}
    (orderly : Orderly db upcoming) (unused : givenOr auditId uuid ∉ upcoming)
    (ran : promotePolicy now uuid tenantId policyName artifactId expected decidedBy reason benchmarkReceiptId
      auditId db = .ok (promotion, after)) : Orderly after upcoming := by
  simp only [promotePolicy, bind_eq_ok] at ran
  obtain ⟨_, _, _, _, _, _, _, _, ran⟩ := ran
  split at ran
  next =>
    simp only [bind_eq_ok, pure_eq_ok, Prod.mk.injEq] at ran
    obtain ⟨_, _, _, rfl⟩ := ran
    exact orderly
  next =>
    simp only [bind_eq_ok, pure_eq_ok, orRaise_eq_ok, Prod.mk.injEq] at ran
    obtain ⟨_, _, audits, inserted, _, rfl⟩ := ran
    refine ⟨orderly.sorted, orderly.positive, orderly.events, fun row member => ?_⟩
    rw [(Table.insert_eq_some.mp inserted).2, List.mem_append, List.mem_singleton] at member
    rcases member with earlier | rfl
    · exact orderly.audit row earlier
    · exact unused

theorem StoreOp.run_orderly {op : StoreOp} (orderly : Orderly db (uuid :: upcoming))
    (fresh : uuid ∉ upcoming) (given : ∀ identity, op.identity? = some identity → identity ∉ upcoming) :
    Orderly (op.run store inRange now uuid db).2 upcoming := by
  have frame : op.Frame db (op.run store inRange now uuid db).2 := op.run_frame
  have framed : op.keepsEvents = true → op.keepsAudit = true →
      Orderly (op.run store inRange now uuid db).2 upcoming := by
    intro events audit
    have kept := orderly.weaken
    constructor
    · rw [frame.events events]
      exact kept.sorted
    · rw [frame.events events]
      exact kept.positive
    · rw [frame.events events]
      exact kept.events
    · rw [frame.audit audit]
      exact kept.audit
  cases op with
  | appendEvent _ _ _ _ eventId =>
      exact transact_kept (Orderly · upcoming) orderly.weaken fun _ _ ran =>
        appendEvent_orderly orderly.weaken (givenOr_unused fresh given) ran
  | promotePolicy =>
      exact transact_kept (Orderly · upcoming) orderly.weaken fun _ _ ran =>
        promotePolicy_orderly orderly.weaken (givenOr_unused fresh given) ran
  | _ => exact framed rfl rfl

end Order

/-! Runs of several tenants. -/

section Runs

variable {store : Store} {inRange : String → Bool} {tenant : String} {drawn : List String}

/-- A run of the tenants' operations.  Random identifiers are drawn once and match no literal, the
tenant lists its event log from the start, and no operation of the tenant on rows that expire reads a
clock behind an earlier sweep of another tenant's. -/
structure TenantRun (tenant : String) (drawn : List String) (calls : List Timed) : Prop where
  owned : ∀ call ∈ calls, call.op.owner?.isSome = true
  whole : ∀ call ∈ calls, call.op.owner? = some tenant → call.op.fromStart = true
  clock : calls.Pairwise fun earlier later => earlier.op.owner? ≠ some tenant →
    earlier.op.sweeps = true → later.op.owner? = some tenant → later.op.expiring = true →
    earlier.now ≤ later.now
  fresh : (calls.map Timed.uuid).Nodup
  random : ∀ call ∈ calls, call.uuid ∈ drawn
  given : ∀ call ∈ calls, ∀ identity, call.op.identity? = some identity → identity ∉ drawn

/-- The tenant's own operations with their clock readings. -/
def requests (tenant : String) (calls : List Timed) : List (StoreOp × Int) :=
  (calls.filter fun call => call.op.owner? = some tenant).map fun call => (call.op, call.now)

/-- What the tenant's operations return or raise, with masked sequence numbers and random identifiers. -/
def answers (store : Store) (inRange : String → Bool) (tenant : String) (drawn : List String) :
    List Timed → Db → List (Except PyError Reply)
  | [], _ => []
  | call :: rest, db =>
      let later := answers store inRange tenant drawn rest (call.run store inRange db).2
      if call.op.owner? = some tenant then
        (call.run store inRange db).1.map (Reply.masked drawn) :: later
      else
        later

/-- The tenant finalises no stored record that has expired. -/
def Prompt (store : Store) (inRange : String → Bool) (tenant : String) : List Timed → Db → Prop
  | [], _ => True
  | call :: rest, db =>
      (call.op.owner? = some tenant → call.op.late call.now db = false) ∧
        Prompt store inRange tenant rest (call.run store inRange db).2

instance Prompt.decide : ∀ (calls : List Timed) (db : Db), Decidable (Prompt store inRange tenant calls db)
  | [], _ => .isTrue trivial
  | call :: rest, db =>
      have := Prompt.decide rest (call.run store inRange db).2
      inferInstanceAs (Decidable (_ ∧ _))

theorem TenantRun.tail {call : Timed} {rest : List Timed} (run : TenantRun tenant drawn (call :: rest)) :
    TenantRun tenant drawn rest where
  owned other member := run.owned other (List.mem_cons_of_mem _ member)
  whole other member := run.whole other (List.mem_cons_of_mem _ member)
  clock := (List.pairwise_cons.mp run.clock).2
  fresh := (List.nodup_cons.mp run.fresh).2
  random other member := run.random other (List.mem_cons_of_mem _ member)
  given other member := run.given other (List.mem_cons_of_mem _ member)

/-- The identifiers that a run has still to draw. -/
abbrev upcoming (calls : List Timed) : List String := calls.map Timed.uuid

theorem TenantRun.orderly {call : Timed} {rest : List Timed} {db : Db}
    (run : TenantRun tenant drawn (call :: rest)) (orderly : Orderly db (upcoming (call :: rest))) :
    Orderly (call.run store inRange db).2 (upcoming rest) := by
  have drawnLater : ∀ identity, identity ∈ upcoming rest → identity ∈ drawn := by
    intro identity member
    obtain ⟨other, later, rfl⟩ := List.mem_map.mp member
    exact run.random other (List.mem_cons_of_mem _ later)
  refine StoreOp.run_orderly orderly (List.nodup_cons.mp run.fresh).1 fun identity given used => ?_
  exact run.given call (List.mem_cons_self ..) identity given (drawnLater identity used)

theorem requests_own {call : Timed} {rest : List Timed} (own : call.op.owner? = some tenant) :
    requests tenant (call :: rest) = (call.op, call.now) :: requests tenant rest := by
  simp [requests, own]

theorem requests_other {call : Timed} {rest : List Timed} (other : call.op.owner? ≠ some tenant) :
    requests tenant (call :: rest) = requests tenant rest := by
  simp [requests, other]

/-- The requests on expiring rows are not behind the horizon. -/
def Ahead (horizon : Int) (requests : List (StoreOp × Int)) : Prop :=
  ∀ request ∈ requests, request.1.expiring = true → horizon ≤ request.2

/-- An operation of another tenant moves the horizon to its sweep and leaves the view as it was. -/
theorem TenantRun.skip {call : Timed} {rest : List Timed} {left right : Db} {horizon : Int}
    (run : TenantRun tenant drawn (call :: rest)) (other : call.op.owner? ≠ some tenant)
    (alike : Alike tenant drawn horizon left right) (ahead : Ahead horizon (requests tenant rest)) :
    ∃ after, Ahead after (requests tenant rest) ∧
      Alike tenant drawn after (call.run store inRange left).2 right := by
  obtain ⟨owner, owned⟩ := Option.isSome_iff_exists.mp (run.owned call (List.mem_cons_self ..))
  have apart : owner ≠ tenant := by
    rintro rfl
    exact other owned
  by_cases sweeps : call.op.sweeps = true
  · refine ⟨max horizon call.now, ?_, ?_⟩
    · rintro request member expiring
      have before := ahead request member expiring
      obtain ⟨next, listed, rfl⟩ := List.mem_map.mp member
      obtain ⟨later, own⟩ := List.mem_filter.mp listed
      have swept := (List.pairwise_cons.mp run.clock).1 next later other sweeps (of_decide_eq_true own)
        expiring
      exact max_le before swept
    · refine Alike.trans (Alike.symm ?_) (alike.later (le_max_left ..))
      exact StoreOp.run_unseen owned apart fun _ => le_max_right ..
  · refine ⟨horizon, ahead, Alike.trans (Alike.symm ?_) alike⟩
    exact StoreOp.run_unseen owned apart fun swept => absurd swept sweeps

/-- The same request of the tenant's, next in both runs. -/
theorem TenantRun.meet {call next : Timed} {rest later : List Timed} {left right : Db} {horizon : Int}
    (one : TenantRun tenant drawn (call :: rest)) (two : TenantRun tenant drawn (next :: later))
    (own : call.op.owner? = some tenant) (sameOp : next.op = call.op) (sameNow : next.now = call.now)
    (le : call.op.expiring = true → horizon ≤ call.now) (alike : Alike tenant drawn horizon left right)
    (orderlyOne : Orderly left (upcoming (call :: rest)))
    (orderlyTwo : Orderly right (upcoming (next :: later)))
    (promptOne : Prompt store inRange tenant (call :: rest) left)
    (promptTwo : Prompt store inRange tenant (next :: later) right) :
    Answered tenant drawn horizon (call.run store inRange left) (next.run store inRange right) := by
  obtain ⟨now, uuid, op⟩ := call
  obtain ⟨time, other, same⟩ := next
  obtain rfl : same = op := sameOp
  obtain rfl : time = now := sameNow
  have met := StoreOp.run_answered store inRange own (one.whole _ (List.mem_cons_self ..) own) le alike orderlyOne
    orderlyTwo (one.random _ (List.mem_cons_self ..)) (two.random _ (List.mem_cons_self ..))
    (one.given _ (List.mem_cons_self ..))
  exact ⟨met.2 (promptOne.1 own) (promptTwo.1 own), met.1⟩

/-- Two runs with the same requests of the tenant's, from stores that look the same to it. -/
theorem answers_alike {one two : List Timed} {left right : Db} {horizon : Int}
    (runOne : TenantRun tenant drawn one) (runTwo : TenantRun tenant drawn two)
    (same : requests tenant one = requests tenant two) (ahead : Ahead horizon (requests tenant one))
    (alike : Alike tenant drawn horizon left right) (orderlyOne : Orderly left (upcoming one))
    (orderlyTwo : Orderly right (upcoming two)) (promptOne : Prompt store inRange tenant one left)
    (promptTwo : Prompt store inRange tenant two right) :
    answers store inRange tenant drawn one left = answers store inRange tenant drawn two right := by
  induction one generalizing two left right horizon with
  | nil =>
      -- The operations that are left are those of other tenants.
      have silent : ∀ (calls : List Timed) (db : Db), requests tenant calls = [] →
          answers store inRange tenant drawn calls db = [] := by
        intro calls
        induction calls with
        | nil => exact fun _ _ => rfl
        | cons call rest ih =>
            intro db none
            by_cases own : call.op.owner? = some tenant
            · rw [requests_own own] at none
              exact absurd none nofun
            · rw [requests_other own] at none
              rw [answers, if_neg own, ih _ none]
      rw [silent two right same.symm]
      rfl
  | cons call rest ih =>
      by_cases own : call.op.owner? = some tenant
      · rw [requests_own own] at same ahead
        -- The second run reaches the same request after some operations of others.
        induction two generalizing right horizon with
        | nil => exact absurd same nofun
        | cons next later ihTwo =>
            by_cases owned : next.op.owner? = some tenant
            · rw [requests_own owned] at same
              obtain ⟨request, following⟩ := List.cons.inj same
              obtain ⟨sameOp, sameNow⟩ := Prod.mk.inj request
              have met := runOne.meet runTwo own sameOp.symm sameNow.symm (ahead _ (List.mem_cons_self ..))
                alike orderlyOne orderlyTwo promptOne promptTwo
              have onward : Ahead horizon (requests tenant rest) := fun request member =>
                ahead request (List.mem_cons_of_mem _ member)
              rw [answers, answers, if_pos own, if_pos owned, met.reply]
              refine congrArg _ (ih runOne.tail runTwo.tail following onward met.alike ?_ ?_ promptOne.2
                promptTwo.2)
              · exact runOne.orderly orderlyOne
              · exact runTwo.orderly orderlyTwo
            · rw [requests_other owned] at same
              obtain ⟨after, further, view⟩ : ∃ after, Ahead after (requests tenant later) ∧
                  Alike tenant drawn after (next.run store inRange right).2 left :=
                runTwo.skip owned alike.symm (same ▸ ahead)
              have passed : answers store inRange tenant drawn (next :: later) right =
                  answers store inRange tenant drawn later (next.run store inRange right).2 := if_neg owned
              rw [passed]
              exact ihTwo runTwo.tail same (same ▸ further) view.symm (runTwo.orderly orderlyTwo) promptTwo.2
      · rw [requests_other own] at same ahead
        obtain ⟨after, further, view⟩ := runOne.skip own alike ahead
        rw [answers, if_neg own]
        exact ih runOne.tail runTwo same further view (runOne.orderly orderlyOne) orderlyTwo promptOne.2
          promptTwo

theorem exists_ahead (requests : List (StoreOp × Int)) : ∃ horizon, Ahead horizon requests := by
  induction requests with
  | nil => exact ⟨0, nofun⟩
  | cons request rest ih =>
      obtain ⟨horizon, ahead⟩ := ih
      refine ⟨min horizon request.2, ?_⟩
      intro other member expiring
      rcases List.mem_cons.mp member with rfl | later
      · exact min_le_right ..
      · exact (min_le_left ..).trans (ahead other later expiring)

/-- Other tenants cannot be told from the answers, as long as the tenant finalises its idempotency
records before they expire. -/
theorem tenants_apart (store : Store) (inRange : String → Bool) (tenant : String) (drawn : List String)
    (one two : List Timed) (runOne : TenantRun tenant drawn one) (runTwo : TenantRun tenant drawn two)
    (same : requests tenant one = requests tenant two)
    (promptOne : Prompt store inRange tenant one .empty)
    (promptTwo : Prompt store inRange tenant two .empty) :
    answers store inRange tenant drawn one .empty = answers store inRange tenant drawn two .empty := by
  obtain ⟨horizon, ahead⟩ := exists_ahead (requests tenant one)
  have orderly : ∀ names, Orderly Db.empty names := fun names => ⟨.nil, nofun, nofun, nofun⟩
  exact answers_alike runOne runTwo same ahead (.refl _) (orderly _) (orderly _) promptOne promptTwo

end Runs

/-! A claim of another tenant sweeps a record that its owner goes on to complete. -/

namespace Neighbour

def store : Store where
  sha256 bytes := asciiText bytes
  receiptVerifier := none
  replayGraceSeconds := 300

def inRange : String → Bool := fun _ => true

def claims (now : Int) (uuid tenant : String) : Timed :=
  ⟨now, uuid, .claimIdempotency tenant "decision" "key" (.obj []) (some 10)⟩

def completes (now : Int) (uuid : String) : Timed :=
  ⟨now, uuid, .completeIdempotency "acme" "decision" "key" (.obj [("units", .int 7)])⟩

def drawn : List String := ["u1", "u2", "u3"]

def run (between : List Timed) (finish : Int) : List Timed :=
  claims 1000 "u1" "acme" :: between ++ [completes finish "u3"]

theorem run_tenants {between : List Timed} {finish : Int}
    (quiet : between = [] ∨ ∃ now ≤ finish, between = [claims now "u2" "other"]) :
    TenantRun "acme" drawn (run between finish) := by
  rcases quiet with rfl | ⟨now, le, rfl⟩
  · constructor <;> simp [run, claims, completes, drawn, StoreOp.owner?, StoreOp.fromStart,
      StoreOp.identity?]
  · constructor <;> simp [run, claims, completes, drawn, StoreOp.owner?, StoreOp.fromStart,
      StoreOp.identity?, le]

/-- Which of the tenant's operations return. -/
def returned (calls : List Timed) : List Bool :=
  (answers store inRange "acme" drawn calls .empty).map fun answer => answer.isOk

end Neighbour

open Neighbour in
theorem tenants_apart_swept : ¬∀ (store : Store) (inRange : String → Bool) (tenant : String)
    (drawn : List String) (one two : List Timed), TenantRun tenant drawn one → TenantRun tenant drawn two →
      requests tenant one = requests tenant two →
      answers store inRange tenant drawn one .empty = answers store inRange tenant drawn two .empty := by
  intro apart
  have same := apart store inRange "acme" drawn (run [] 1100) (run [claims 1050 "u2" "other"] 1100)
    (run_tenants (.inl rfl)) (run_tenants (.inr ⟨1050, by decide, rfl⟩)) rfl
  have alone : returned (run [] 1100) = [true, true] := by decide +kernel
  have together : returned (run [claims 1050 "u2" "other"] 1100) = [true, false] := by decide +kernel
  rw [returned, ← same] at together
  exact absurd (alone.symm.trans together) (by decide)

open Neighbour in
theorem tenants_apart_prompt :
    answers store inRange "acme" drawn (run [] 1008) .empty =
      answers store inRange "acme" drawn (run [claims 1005 "u2" "other"] 1008) .empty :=
  tenants_apart store inRange "acme" drawn _ _ (run_tenants (.inl rfl))
    (run_tenants (.inr ⟨1005, by decide, rfl⟩)) rfl (by decide +kernel) (by decide +kernel)

end AgentTree
