import AgentTree.Receipts
import AgentTree.StoreOps
import AgentTree.TableViews

/-!
What one tenant can see of a store: its own rows, up to global sequence numbers and
random identifiers, without the nonces and idempotency records that have expired.
-/

namespace AgentTree

open Outcome Relational

/-! Random identifiers are masked. -/

def maskedId (drawn : List String) (identity : String) : String :=
  if identity ∈ drawn then "" else identity

def EventRow.masked (drawn : List String) (row : EventRow) : EventRow :=
  { row with sequence := 0, eventId := maskedId drawn row.eventId }

def Promotion.masked (drawn : List String) (row : Promotion) : Promotion :=
  { row with auditId := maskedId drawn row.auditId }

def Reply.masked (drawn : List String) : Reply → Reply
  | event row => event (row.masked drawn)
  | events rows => events (rows.map (EventRow.masked drawn))
  | promotion row => promotion (row.masked drawn)
  | promotionAt answer => promotionAt (answer.map (Promotion.masked drawn))
  | promotions rows => promotions (rows.map (Promotion.masked drawn))
  | reply => reply

/-- Two stores that look the same to one tenant at a clock reading. -/
structure Alike (tenant : String) (drawn : List String) (time : Int) (left right : Db) : Prop where
  events : left.events.AgreeBy (EventRow.masked drawn) (fun row => row.tenantId = tenant) right.events
  nonces : left.nonces.Agree (fun row => row.tenantId = tenant && !row.expiresAt.any (· < time)) right.nonces
  evidence : left.evidence.Agree (fun row => row.tenantId = tenant) right.evidence
  experience : left.experience.Agree (fun row => row.tenantId = tenant) right.experience
  idempotency : left.idempotency.Agree
    (fun row => row.tenantId = tenant && !row.expiresAt.any (· < time)) right.idempotency
  leases : left.leases.Agree (fun row => row.tenantId = tenant) right.leases
  budgets : left.budgets.Agree (fun row => row.tenantId = tenant) right.budgets
  reservations : left.reservations.Agree (fun row => row.tenantId = tenant) right.reservations
  artifacts : left.artifacts.Agree (fun row => row.tenantId = tenant) right.artifacts
  trainingRuns : left.trainingRuns.Agree (fun row => row.tenantId = tenant) right.trainingRuns
  champions : left.champions.Agree (fun row => row.tenantId = tenant) right.champions
  audit : left.audit.AgreeBy (Promotion.masked drawn) (fun row => row.tenantId = tenant) right.audit

namespace Alike

variable {tenant : String} {drawn : List String} {time : Int} {left right other : Db}

theorem refl (db : Db) : Alike tenant drawn time db db :=
  ⟨rfl, rfl, rfl, rfl, rfl, rfl, rfl, rfl, rfl, rfl, rfl, rfl⟩

theorem symm (alike : Alike tenant drawn time left right) : Alike tenant drawn time right left :=
  ⟨alike.events.symm, alike.nonces.symm, alike.evidence.symm, alike.experience.symm,
    alike.idempotency.symm, alike.leases.symm, alike.budgets.symm, alike.reservations.symm,
    alike.artifacts.symm, alike.trainingRuns.symm, alike.champions.symm, alike.audit.symm⟩

theorem trans (one : Alike tenant drawn time left other) (two : Alike tenant drawn time other right) :
    Alike tenant drawn time left right :=
  ⟨one.events.trans two.events, one.nonces.trans two.nonces, one.evidence.trans two.evidence,
    one.experience.trans two.experience, one.idempotency.trans two.idempotency,
    one.leases.trans two.leases, one.budgets.trans two.budgets, one.reservations.trans two.reservations,
    one.artifacts.trans two.artifacts, one.trainingRuns.trans two.trainingRuns,
    one.champions.trans two.champions, one.audit.trans two.audit⟩

theorem expired_later {time later : Int} (le : time ≤ later) {expiresAt : Option Int}
    (fresh : (!expiresAt.any (· < later)) = true) : (!expiresAt.any (· < time)) = true := by
  cases expiresAt with
  | none => rfl
  | some expiry =>
      simp only [Option.any_some, Bool.not_eq_true', decide_eq_false_iff_not] at fresh ⊢
      omega

theorem later {after : Int} (alike : Alike tenant drawn time left right) (le : time ≤ after) :
    Alike tenant drawn after left right where
  events := alike.events
  nonces := alike.nonces.narrow fun row visible => by
    rw [Bool.and_eq_true] at visible ⊢
    exact ⟨visible.1, expired_later le visible.2⟩
  evidence := alike.evidence
  experience := alike.experience
  idempotency := alike.idempotency.narrow fun row visible => by
    rw [Bool.and_eq_true] at visible ⊢
    exact ⟨visible.1, expired_later le visible.2⟩
  leases := alike.leases
  budgets := alike.budgets
  reservations := alike.reservations
  artifacts := alike.artifacts
  trainingRuns := alike.trainingRuns
  champions := alike.champions
  audit := alike.audit

end Alike

/-! The tenant's own operations on two stores that look the same to it. -/

section Own

variable {tenant : String} {drawn : List String} {time now : Int} {left right : Db}

/-- The keys that begin with the tenant are its own. -/
theorem own_first {κ : Type} {a : String} {rest k : κ} (keyed : (a, rest) = (tenant, k)) :
    decide (a = tenant) = true := decide_eq_true (Prod.mk.inj keyed).1

theorem getLease_alike (alike : Alike tenant drawn time left right) (resourceId : String) :
    getLease tenant resourceId left = getLease tenant resourceId right := by
  rw [getLease, getLease, alike.leases.find? fun row keyed => own_first keyed]

theorem getBudget_alike (alike : Alike tenant drawn time left right) (budgetId : String) :
    getBudget tenant budgetId left = getBudget tenant budgetId right := by
  rw [getBudget, getBudget, alike.budgets.find? fun row keyed => own_first keyed]

/-- `_budget_in_transaction`, which answers from the rows just written. -/
theorem answerBudget_alike (alike : Alike tenant drawn time left right) (budgetId : String) :
    Matches Eq (Alike tenant drawn time)
      (getBudget tenant budgetId left >>= fun snapshot => pure (snapshot, left))
      (getBudget tenant budgetId right >>= fun snapshot => pure (snapshot, right)) := by
  rw [getBudget_alike alike]
  exact .bind fun _ _ => .ok rfl alike

theorem acquireLease_alike (alike : Alike tenant drawn time left right) (resourceId holderId : String)
    (ttlSeconds : Int) (at? : Option Int) :
    Matches Eq (Alike tenant drawn time) (acquireLease now tenant resourceId holderId ttlSeconds at? left)
      (acquireLease now tenant resourceId holderId ttlSeconds at? right) := by
  have same := alike.leases.find? (k := (tenant, resourceId)) fun row keyed => own_first keyed
  unfold acquireLease
  refine .bind fun _ _ => .bind fun _ _ => .bind fun time _ => ?_
  rw [← same]
  cases left.leases.find? (tenant, resourceId) with
  | none =>
      refine .bind fun _ _ => .bind fun _ _ => ?_
      refine .insert alike.leases (fun row keyed => own_first keyed) fun _ _ agree => ?_
      exact .ok rfl { alike with leases := agree }
  | some row =>
      simp only
      split
      · refine .bind fun _ _ => .ok rfl { alike with leases := ?_ }
        exact alike.leases.updateAt
      · split
        · refine .bind fun _ _ => .bind fun _ _ => .bind fun _ _ => .ok rfl { alike with leases := ?_ }
          exact alike.leases.updateAt
        · exact .error

theorem renewLease_alike (alike : Alike tenant drawn time left right) (resourceId holderId : String)
    (fencingToken ttlSeconds : Int) (at? : Option Int) :
    Matches Eq (Alike tenant drawn time)
      (renewLease now tenant resourceId holderId fencingToken ttlSeconds at? left)
      (renewLease now tenant resourceId holderId fencingToken ttlSeconds at? right) := by
  have same := alike.leases.find? (k := (tenant, resourceId)) fun row keyed => own_first keyed
  unfold renewLease
  refine .bind fun _ _ => .bind fun time _ => .bind fun _ _ => .bind fun _ _ => .bind fun _ _ => ?_
  rw [← same]
  refine .bind fun row _ => .bind fun _ _ => .ok rfl { alike with leases := ?_ }
  exact alike.leases.updateAt

theorem releaseLease_alike (alike : Alike tenant drawn time left right) (resourceId holderId : String)
    (fencingToken : Int) :
    Matches Eq (Alike tenant drawn time) (releaseLease now tenant resourceId holderId fencingToken left)
      (releaseLease now tenant resourceId holderId fencingToken right) := by
  have same := alike.leases.find? (k := (tenant, resourceId)) fun row keyed => own_first keyed
  unfold releaseLease
  refine .bind fun _ _ => ?_
  rw [← same]
  refine .bind fun row _ => .bind fun _ _ => .ok rfl { alike with leases := ?_ }
  exact alike.leases.updateAt

theorem createBudget_alike (alike : Alike tenant drawn time left right) (budgetId : String)
    (limitUnits : Int) :
    Matches Eq (Alike tenant drawn time) (createBudget now tenant budgetId limitUnits left)
      (createBudget now tenant budgetId limitUnits right) := by
  have same := alike.budgets.find? (k := (tenant, budgetId)) fun row keyed => own_first keyed
  unfold createBudget
  refine .bind fun _ _ => .bind fun _ _ => ?_
  rw [← same]
  cases left.budgets.find? (tenant, budgetId) with
  | none =>
      refine .bind fun _ _ => ?_
      refine .insert alike.budgets (fun row keyed => own_first keyed) fun _ _ agree => ?_
      exact .ok rfl { alike with budgets := agree }
  | some row => exact .bind fun _ _ => .ok rfl alike

theorem reserveBudget_alike (alike : Alike tenant drawn time left right) (budgetId reservationId : String)
    (units : Int) :
    Matches Eq (Alike tenant drawn time) (reserveBudget now tenant budgetId reservationId units left)
      (reserveBudget now tenant budgetId reservationId units right) := by
  have held := alike.reservations.find? (k := (tenant, budgetId, reservationId))
    fun row keyed => own_first keyed
  have same := alike.budgets.find? (k := (tenant, budgetId)) fun row keyed => own_first keyed
  unfold reserveBudget
  refine .bind fun _ _ => .bind fun _ _ => ?_
  rw [← held]
  cases left.reservations.find? (tenant, budgetId, reservationId) with
  | none =>
      simp only
      rw [← same]
      refine .bind fun budget _ => .bind fun _ _ => ?_
      refine .insert alike.reservations (fun row keyed => own_first keyed) fun first second agree => ?_
      refine answerBudget_alike ?_ budgetId
      exact { alike with budgets := alike.budgets.updateAt, reservations := agree }
  | some existing => exact .bind fun _ _ => answerBudget_alike alike budgetId

theorem transitionReservation_alike (alike : Alike tenant drawn time left right)
    (budgetId reservationId : String) (target : ReservationStatus) :
    Matches Eq (Alike tenant drawn time)
      (transitionReservation now tenant budgetId reservationId target left)
      (transitionReservation now tenant budgetId reservationId target right) := by
  have held := alike.reservations.find? (k := (tenant, budgetId, reservationId))
    fun row keyed => own_first keyed
  unfold transitionReservation
  rw [← held]
  refine .bind fun reservation _ => ?_
  split
  · exact answerBudget_alike alike budgetId
  · refine .bind fun _ _ => ?_
    refine answerBudget_alike ?_ budgetId
    exact { alike with budgets := alike.budgets.updateAt, reservations := alike.reservations.updateAt }

theorem registerPolicyArtifact_alike (alike : Alike tenant drawn time left right)
    (artifactId policyName version contentSha256 artifactUri : String) (metadata : Option Json) :
    Matches Eq (Alike tenant drawn time)
      (registerPolicyArtifact now tenant artifactId policyName version contentSha256 artifactUri metadata
        left)
      (registerPolicyArtifact now tenant artifactId policyName version contentSha256 artifactUri metadata
        right) := by
  have same := alike.artifacts.find? (k := (tenant, artifactId)) fun row keyed => own_first keyed
  have taken : left.artifacts.rows.any (fun other => other.tenantId = tenant &&
      other.policyName = policyName && other.version = version) =
      right.artifacts.rows.any fun other => other.tenantId = tenant &&
        other.policyName = policyName && other.version = version := by
    refine alike.artifacts.any fun row hit => ?_
    simp only [Bool.and_eq_true] at hit
    exact hit.1.1
  unfold registerPolicyArtifact
  refine .bind fun _ _ => .bind fun _ _ => .bind fun metadataJson _ => ?_
  rw [← same]
  cases left.artifacts.find? (tenant, artifactId) with
  | none =>
      simp only [taken]
      refine .bind fun _ _ => ?_
      refine .insert alike.artifacts (fun row keyed => own_first keyed) fun _ _ agree => ?_
      exact .ok rfl { alike with artifacts := agree }
  | some existing => exact .bind fun _ _ => .ok rfl alike

theorem recordTrainingRun_alike (alike : Alike tenant drawn time left right)
    (trainingId policyName artifactId trainedBy : String) (leaseFencingToken : Int) (report : Json) :
    Matches Eq (Alike tenant drawn time)
      (recordTrainingRun now tenant trainingId policyName artifactId trainedBy leaseFencingToken report left)
      (recordTrainingRun now tenant trainingId policyName artifactId trainedBy leaseFencingToken report
        right) := by
  have same := alike.trainingRuns.find? (k := (tenant, trainingId)) fun row keyed => own_first keyed
  have trained := alike.artifacts.find? (k := (tenant, artifactId)) fun row keyed => own_first keyed
  unfold recordTrainingRun
  refine .bind fun _ _ => .bind fun _ _ => .bind fun reportJson _ => ?_
  rw [← same]
  cases left.trainingRuns.find? (tenant, trainingId) with
  | none =>
      simp only
      rw [← trained]
      refine .bind fun artifact _ => .bind fun _ _ => .bind fun _ _ => ?_
      refine .insert alike.trainingRuns (fun row keyed => own_first keyed) fun _ _ agree => ?_
      exact .ok rfl { alike with trainingRuns := agree }
  | some existing => exact .bind fun _ _ => .ok rfl alike

/-! Sweeps up to the clock leave the tenant the rows that it saw already. -/

theorem unexpired_agree (le : time ≤ now) (alike : Alike tenant drawn time left right) :
    (left.unexpired now).Agree (fun row => row.tenantId = tenant) (right.unexpired now) := by
  have swept : ∀ db : Db, (db.unexpired now).rows.filter (fun row => row.tenantId = tenant) =
      db.idempotency.rows.filter fun row => row.tenantId = tenant && !row.expiresAt.any (· < now) := by
    intro db
    simp only [Db.unexpired, Table.delete, List.filter_filter]
  rw [Table.Agree, swept, swept]
  exact (alike.later le).idempotency

theorem retained_agree (le : time ≤ now) (alike : Alike tenant drawn time left right) :
    (left.retained now).Agree (fun row => row.tenantId = tenant) (right.retained now) := by
  have swept : ∀ db : Db, (db.retained now).rows.filter (fun row => row.tenantId = tenant) =
      db.nonces.rows.filter fun row => row.tenantId = tenant && !row.expiresAt.any (· < now) := by
    intro db
    simp only [Db.retained, Table.delete, List.filter_filter]
  rw [Table.Agree, swept, swept]
  exact (alike.later le).nonces

theorem claimReplayNonce_alike {store : Store} (le : time ≤ now) (alike : Alike tenant drawn time left right)
    (purpose nonce : String) (expiresAt : Option Int) :
    Matches Eq (Alike tenant drawn time) (store.claimReplayNonce now tenant purpose nonce expiresAt left)
      (store.claimReplayNonce now tenant purpose nonce expiresAt right) := by
  have kept := retained_agree le alike
  unfold Store.claimReplayNonce
  refine .bind fun _ _ => .bind fun _ _ => ?_
  have fewer : ∀ row : NonceRow, (row.tenantId = tenant && !row.expiresAt.any (· < time)) = true →
      decide (row.tenantId = tenant) = true := by
    intro row visible
    rw [Bool.and_eq_true] at visible
    exact visible.1
  let claimed : NonceRow := ⟨tenant, purpose, nonce, expiresAt.map (· + store.replayGraceSeconds), now⟩
  have visible : ∀ other : NonceRow, other.key = claimed.key → decide (other.tenantId = tenant) = true :=
    fun other keyed => own_first keyed
  rcases kept.insert visible with ⟨first, second⟩ | ⟨one, two, first, second, after⟩
  · simp only [Db.retained, claimed] at first second
    simp only [first, second]
    exact .ok rfl { alike with nonces := kept.narrow fewer }
  · simp only [Db.retained, claimed] at first second
    simp only [first, second]
    exact .ok rfl { alike with nonces := after.narrow fewer }

theorem claimIdempotency_alike {store : Store} (le : time ≤ now) (alike : Alike tenant drawn time left right)
    (scope name : String) (request : Json) (ttlSeconds : Option Int) :
    Matches Eq (Alike tenant drawn time)
      (store.claimIdempotency now tenant scope name request ttlSeconds left)
      (store.claimIdempotency now tenant scope name request ttlSeconds right) := by
  have kept := unexpired_agree le alike
  have same := kept.find? (k := (tenant, scope, name)) fun row keyed => own_first keyed
  have fewer : ∀ row : IdempotencyRow, (row.tenantId = tenant && !row.expiresAt.any (· < time)) = true →
      decide (row.tenantId = tenant) = true := by
    intro row visible
    rw [Bool.and_eq_true] at visible
    exact visible.1
  simp only [Db.unexpired] at same kept
  unfold Store.claimIdempotency
  refine .bind fun _ _ => .bind fun _ _ => .bind fun _ _ => ?_
  simp only
  rw [← same]
  cases (left.idempotency.delete fun row => row.expiresAt.any (· < now)).find? (tenant, scope, name) with
  | none =>
      refine .bind fun _ _ => ?_
      refine .insert kept (fun row keyed => own_first keyed) fun _ _ agree => ?_
      exact .ok rfl { alike with idempotency := agree.narrow fewer }
  | some row => exact .bind fun _ _ => .ok rfl { alike with idempotency := kept.narrow fewer }

/-! Receipts. -/

theorem claimEnvelopeNonce_alike {α : Type} {Value : α → α → Prop} {store : Store} {envelope : Json}
    {first second : Db → Except PyError (α × Db)} (le : time ≤ now)
    (alike : Alike tenant drawn time left right) (owned : envelopeText envelope "tenant_id" = .ok tenant)
    (rest : ∀ one two, Alike tenant drawn time one two →
      Matches Value (Alike tenant drawn time) (first one) (second two)) :
    Matches Value (Alike tenant drawn time) (store.claimEnvelopeNonce now envelope left >>= first)
      (store.claimEnvelopeNonce now envelope right >>= second) := by
  simp only [Store.claimEnvelopeNonce, owned, bind_assoc, pure_bind]
  refine .bind fun owner same => .bind fun purpose _ => .bind fun nonce _ => .bind fun expiresAt _ => ?_
  obtain rfl := Except.ok.inj same
  refine (claimReplayNonce_alike le alike purpose nonce expiresAt).andThen ?_
  rintro accepted _ one two rfl after
  exact .bind fun _ _ => rest one two after

theorem verifyReceipt_tenant {store : Store} {tenantId purpose : String} {envelope payload : Json}
    (ran : store.verifyReceipt now tenantId purpose envelope = .ok payload) :
    envelopeText envelope "tenant_id" = .ok tenantId := by
  simp only [Store.verifyReceipt, bind_eq_ok] at ran
  obtain ⟨_, _, ran⟩ := ran
  split at ran
  next => simp at ran
  next verifier _ =>
    obtain ⟨shape, fits, _, _, owner, _⟩ := verify_ok.mp ran
    have same : tenantId = shape.tenantId := by simpa using owner
    rw [envelopeText, fits.tenantId.1, same]

theorem recordEvidenceReceipt_alike {store : Store} (le : time ≤ now)
    (alike : Alike tenant drawn time left right) (envelope : Json) (receiptId : Option String) :
    Matches Eq (Alike tenant drawn time)
      (store.recordEvidenceReceipt now tenant envelope receiptId left)
      (store.recordEvidenceReceipt now tenant envelope receiptId right) := by
  unfold Store.recordEvidenceReceipt
  refine .bind fun text _ => .bind fun payload verified => .bind fun _ _ => .bind fun _ _ =>
    .bind fun _ _ => .bind fun _ _ => .bind fun _ _ => .bind fun _ _ => ?_
  refine claimEnvelopeNonce_alike le alike (verifyReceipt_tenant verified) fun one two after => ?_
  refine .bind fun _ _ => .bind fun _ _ => .bind fun _ _ => .bind fun _ _ => .bind fun _ _ => ?_
  refine .insert after.evidence (fun row keyed => own_first keyed) fun _ _ agree => ?_
  exact .ok rfl { after with evidence := agree }

theorem recordExperienceReceipt_alike {store : Store} {inRange : String → Bool} (le : time ≤ now)
    (alike : Alike tenant drawn time left right) (envelope : Json) (receiptId : Option String) :
    Matches Eq (Alike tenant drawn time)
      (store.recordExperienceReceipt inRange now tenant envelope receiptId left)
      (store.recordExperienceReceipt inRange now tenant envelope receiptId right) := by
  unfold Store.recordExperienceReceipt
  refine .bind fun text _ => .bind fun payload verified => .bind fun _ _ => .bind fun runId _ =>
    .bind fun episodeId _ => .bind fun _ _ => .bind fun _ _ => .bind fun _ _ => ?_
  refine claimEnvelopeNonce_alike le alike (verifyReceipt_tenant verified) fun one two after => ?_
  have taken : one.experience.rows.any (fun other => other.tenantId = tenant && other.runId = runId &&
      other.episodeId = episodeId) = two.experience.rows.any fun other => other.tenantId = tenant &&
        other.runId = runId && other.episodeId = episodeId := by
    refine after.experience.any fun row hit => ?_
    simp only [Bool.and_eq_true] at hit
    exact hit.1.1
  refine .bind fun _ _ => .bind fun _ _ => .bind fun _ _ => .bind fun _ _ => .bind fun _ _ => ?_
  simp only [taken]
  refine .bind fun _ _ => ?_
  refine .insert after.experience (fun row keyed => own_first keyed) fun _ _ agree => ?_
  exact .ok rfl { after with experience := agree }

/-! Random identifiers: the same literal in both runs, or fresh in each of them. -/

inductive Identified (drawn : List String) (one two : String) (usedOne usedTwo : String → Prop) : Prop
  | literal (same : one = two) (given : one ∉ drawn) (named : one ≠ "")
  | fresh (first : one ∈ drawn) (second : two ∈ drawn) (newOne : ¬usedOne one) (newTwo : ¬usedTwo two)

theorem Identified.masked {one two : String} {usedOne usedTwo : String → Prop}
    (identified : Identified drawn one two usedOne usedTwo) : maskedId drawn one = maskedId drawn two := by
  cases identified with
  | literal same => rw [same]
  | fresh first second => rw [maskedId, maskedId, if_pos first, if_pos second]

theorem maskedId_iff {identity other : String} (given : identity ∉ drawn) (named : identity ≠ "") :
    maskedId drawn other = identity ↔ other = identity := by
  unfold maskedId
  split
  next hidden =>
    refine ⟨fun same => absurd same.symm named, ?_⟩
    rintro rfl
    exact absurd hidden given
  next => rfl

/-- The identifier of a caller, or the random one. -/
def givenOr (given : Option String) (uuid : String) : String :=
  match given with
  | some identity => if identity = "" then uuid else identity
  | none => uuid

def Db.usesEvent (db : Db) (identity : String) : Prop := ∃ row ∈ db.events.rows, row.eventId = identity

def Db.usesAudit (db : Db) (identity : String) : Prop := ∃ row ∈ db.audit.rows, row.auditId = identity

theorem streamVersion_alike (alike : Alike tenant drawn time left right) (streamId : String) :
    left.streamVersion tenant streamId = right.streamVersion tenant streamId := by
  have visible : ∀ row : EventRow, (row.tenantId = tenant && row.streamId = streamId) = true →
      decide (row.tenantId = tenant) = true := by
    intro row hit
    rw [Bool.and_eq_true] at hit
    exact hit.1
  have same := alike.events.filter visible fun _ => rfl
  have versions : ∀ db : Db, db.streamVersion tenant streamId =
      ((db.events.rows.filter fun row => row.tenantId = tenant && row.streamId = streamId).map
        (EventRow.masked drawn)).foldl (fun version row => max version row.streamVersion) 0 := by
    intro db
    rw [List.foldl_map]
    rfl
  rw [versions, versions, same]

theorem le_nextSequence (db : Db) : ∀ row ∈ db.events.rows, row.sequence < db.nextSequence := by
  have bound : ∀ (rows : List EventRow) (start : Nat), start ≤ rows.foldl
      (fun sequence row => max sequence row.sequence) start ∧ ∀ row ∈ rows, row.sequence ≤
        rows.foldl (fun sequence row => max sequence row.sequence) start := by
    intro rows
    induction rows with
    | nil => simp
    | cons head rest ih =>
        intro start
        have next := ih (max start head.sequence)
        simp only [List.foldl_cons, List.mem_cons, forall_eq_or_imp]
        exact ⟨by omega, by omega, next.2⟩
  intro row member
  have below := (bound db.events.rows 0).2 row member
  unfold Db.nextSequence
  omega

/-- The next sequence number is free, so that an insert cannot fail on it. -/
theorem insert_nextSequence {db : Db} {row : EventRow} (next : row.sequence = db.nextSequence) :
    ∃ events, db.events.insert row = some events := by
  cases inserted : db.events.insert row with
  | some events => exact ⟨events, rfl⟩
  | none =>
      obtain ⟨other, found⟩ := Table.insert_eq_none.mp inserted
      obtain ⟨member, keyed⟩ := Table.find?_eq_some.mp found
      have below := le_nextSequence db other member
      have same : other.sequence = row.sequence := keyed
      omega

theorem eventTaken_alike (alike : Alike tenant drawn time left right) {one two : EventRow}
    (owner : one.tenantId = tenant) (masked : one.masked drawn = two.masked drawn)
    (identified : Identified drawn one.eventId two.eventId left.usesEvent right.usesEvent) :
    left.eventTaken one = right.eventTaken two := by
  have columns := EventRow.mk.inj masked
  have owned : two.tenantId = tenant := columns.2.1.symm.trans owner
  have stream : one.streamId = two.streamId := columns.2.2.2.1
  have version : one.streamVersion = two.streamVersion := columns.2.2.2.2.1
  cases identified with
  | literal same given named =>
      rw [Db.eventTaken, Db.eventTaken, owner, owned, stream, version, ← same]
      refine alike.events.any (fun row hit => ?_) fun row => ?_
      · simp only [Bool.and_eq_true] at hit
        exact hit.1
      · have blind : decide (maskedId drawn row.eventId = one.eventId) =
            decide (row.eventId = one.eventId) := decide_eq_decide.mpr (maskedId_iff given named)
        change (decide (row.tenantId = tenant) && (decide (maskedId drawn row.eventId = one.eventId) || _)) = _
        rw [blind]
        rfl
  | fresh _ _ newOne newTwo =>
      have numbered : ∀ (db : Db) (row : EventRow), row.tenantId = tenant → ¬db.usesEvent row.eventId →
          db.eventTaken row = db.events.rows.any fun other => other.tenantId = tenant &&
            (other.streamId = row.streamId && other.streamVersion = row.streamVersion) := by
        intro db row own unused
        rw [Db.eventTaken, own, Bool.eq_iff_iff, List.any_eq_true, List.any_eq_true]
        refine exists_congr fun other => and_congr_right fun member => ?_
        have apart : other.eventId ≠ row.eventId := fun same => unused ⟨other, member, same⟩
        simp [apart]
      rw [numbered left one owner newOne, numbered right two owned newTwo, stream, version]
      refine alike.events.any (fun row hit => ?_) fun row => rfl
      simp only [Bool.and_eq_true] at hit
      exact hit.1

theorem appendEvent_alike {store : Store} (alike : Alike tenant drawn time left right)
    (streamId eventType : String) (payload : Json) (eventId : Option String)
    (expected occurredAt : Option Int) {one two : String}
    (identified : Identified drawn (givenOr eventId one) (givenOr eventId two) left.usesEvent
      right.usesEvent) :
    Matches (fun a b => a.masked drawn = b.masked drawn) (Alike tenant drawn time)
      (store.appendEvent now one tenant streamId eventType payload eventId expected occurredAt left)
      (store.appendEvent now two tenant streamId eventType payload eventId expected occurredAt right) := by
  unfold Store.appendEvent
  refine .bind fun _ _ => .bind fun payloadJson _ => .bind fun occurred _ => ?_
  simp only [streamVersion_alike alike streamId]
  refine .bind fun _ _ => .bind fun _ _ => ?_
  let row (sequence : Nat) (identity : String) : EventRow := {
    sequence
    tenantId := tenant
    streamId, eventType
    eventId := identity
    streamVersion := right.streamVersion tenant streamId + 1
    occurredAt := occurred
    payload := payloadJson
    payloadSha256 := store.sha256Hex payload }
  have masked : (row left.nextSequence (givenOr eventId one)).masked drawn =
      (row right.nextSequence (givenOr eventId two)).masked drawn := by
    simp only [EventRow.masked, row, identified.masked]
  have taken := eventTaken_alike alike rfl masked identified
  obtain ⟨eventsOne, insertedOne⟩ : ∃ events, left.events.insert (row left.nextSequence
      (givenOr eventId one)) = some events := insert_nextSequence rfl
  obtain ⟨eventsTwo, insertedTwo⟩ : ∃ events, right.events.insert (row right.nextSequence
      (givenOr eventId two)) = some events := insert_nextSequence rfl
  have events := alike.events.append (Table.insert_eq_some.mp insertedOne).2
    (Table.insert_eq_some.mp insertedTwo).2 rfl masked
  change Matches _ _ (ensure (!left.eventTaken (row left.nextSequence (givenOr eventId one))) _ >>= fun _ =>
      orRaise (left.events.insert (row left.nextSequence (givenOr eventId one))) _ >>= _)
    (ensure (!right.eventTaken (row right.nextSequence (givenOr eventId two))) _ >>= fun _ =>
      orRaise (right.events.insert (row right.nextSequence (givenOr eventId two))) _ >>= _)
  rw [taken, insertedOne, insertedTwo]
  exact .bind fun _ _ => .ok masked { alike with events := events }

theorem promotionAt_alike (alike : Alike tenant drawn time left right) (policyName : String)
    (generation : Nat) :
    (left.promotionAt tenant policyName generation).map (Promotion.masked drawn) =
      (right.promotionAt tenant policyName generation).map (Promotion.masked drawn) := by
  refine alike.audit.find? (fun row hit => ?_) fun _ => rfl
  simp only [Bool.and_eq_true] at hit
  exact hit.1.1

theorem auditTaken_alike (alike : Alike tenant drawn time left right) {one two : Promotion}
    (owner : one.tenantId = tenant) (masked : one.masked drawn = two.masked drawn)
    (identified : Identified drawn one.auditId two.auditId left.usesAudit right.usesAudit) :
    (left.audit.find? one.key).isNone = (right.audit.find? two.key).isNone := by
  have owned : two.tenantId = tenant := (Promotion.mk.inj masked).2.1.symm.trans owner
  cases identified with
  | literal same given named =>
      have found : (left.audit.rows.find? fun row => decide (row.key = one.key)).map
          (Promotion.masked drawn) = (right.audit.rows.find? fun row => decide (row.key = one.key)).map
          (Promotion.masked drawn) := by
        refine alike.audit.find? (fun row hit => ?_) fun row => decide_eq_decide.mpr ?_
        · exact decide_eq_true ((Prod.mk.inj (of_decide_eq_true hit)).1.trans owner)
        · simp only [Promotion.key, Promotion.masked, Prod.mk.injEq, maskedId_iff given named]
      have keys : two.key = one.key := by simp only [Promotion.key, owner, owned, same]
      have counted := congrArg Option.isNone found
      rw [Option.isNone_map, Option.isNone_map] at counted
      rw [keys]
      exact counted
  | fresh _ _ newOne newTwo =>
      have absent : ∀ (db : Db) (row : Promotion), ¬db.usesAudit row.auditId →
          db.audit.find? row.key = none := by
        intro db row unused
        refine Table.find?_eq_none.mpr fun other member same => unused ⟨other, member, ?_⟩
        exact (Prod.mk.inj same).2
      rw [absent left one newOne, absent right two newTwo]

/-- The last steps of `promote_policy`, for the generation that it has found. -/
theorem installPromotion_alike (alike : Alike tenant drawn time left right) {one two : Promotion}
    (owner : one.tenantId = tenant) (masked : one.masked drawn = two.masked drawn)
    (identified : Identified drawn one.auditId two.auditId left.usesAudit right.usesAudit)
    (champion : ChampionRow) (owned : champion.tenantId = tenant) (policyName : String)
    (generation : Nat) (error : PyError) :
    Matches (fun a b => a.masked drawn = b.masked drawn) (Alike tenant drawn time)
      (ensure (left.promotionAt tenant policyName generation).isNone error >>= fun _ =>
        orRaise (left.audit.insert one) error >>= fun audit =>
          pure (one, { left with
            champions := left.champions.upsert champion (fun row => { row with
              artifactId := champion.artifactId
              generation := champion.generation
              promotedAt := champion.promotedAt }) fun _ => rfl
            audit }))
      (ensure (right.promotionAt tenant policyName generation).isNone error >>= fun _ =>
        orRaise (right.audit.insert two) error >>= fun audit =>
          pure (two, { right with
            champions := right.champions.upsert champion (fun row => { row with
              artifactId := champion.artifactId
              generation := champion.generation
              promotedAt := champion.promotedAt }) fun _ => rfl
            audit })) := by
  have free := congrArg Option.isNone (promotionAt_alike alike policyName generation)
  rw [Option.isNone_map, Option.isNone_map] at free
  have taken := auditTaken_alike alike owner masked identified
  rw [free]
  refine .bind fun _ _ => ?_
  cases first : left.audit.insert one with
  | none =>
      obtain ⟨other, found⟩ := Table.insert_eq_none.mp first
      rw [found] at taken
      have absent : right.audit.insert two = none := by
        refine Table.insert_eq_none.mpr (Option.isSome_iff_exists.mp ?_)
        rw [← Option.isNone_eq_false_iff]
        exact taken.symm
      rw [absent]
      exact .error
  | some after =>
      obtain ⟨absent, rowsOne⟩ := Table.insert_eq_some.mp first
      rw [absent] at taken
      cases second : right.audit.insert two with
      | none =>
          obtain ⟨other, found⟩ := Table.insert_eq_none.mp second
          rw [found] at taken
          exact absurd taken nofun
      | some later =>
          have audit := alike.audit.append rowsOne (Table.insert_eq_some.mp second).2
            (decide_eq_decide.mpr (by rw [(Promotion.mk.inj masked).2.1])) masked
          have visible : ∀ other : ChampionRow, other.key = champion.key →
              decide (other.tenantId = tenant) = true :=
            fun other keyed => decide_eq_true ((Prod.mk.inj keyed).1.trans owned)
          exact .ok masked { alike with champions := alike.champions.upsert visible, audit := audit }

theorem promotePolicy_alike (alike : Alike tenant drawn time left right)
    (policyName artifactId : String) (expected : Option String) (decidedBy reason : String)
    (benchmarkReceiptId auditId : Option String) {one two : String}
    (identified : Identified drawn (givenOr auditId one) (givenOr auditId two) left.usesAudit
      right.usesAudit) :
    Matches (fun a b => a.masked drawn = b.masked drawn) (Alike tenant drawn time)
      (promotePolicy now one tenant policyName artifactId expected decidedBy reason benchmarkReceiptId
        auditId left)
      (promotePolicy now two tenant policyName artifactId expected decidedBy reason benchmarkReceiptId
        auditId right) := by
  have candidate := alike.artifacts.find? (k := (tenant, artifactId)) fun row keyed => own_first keyed
  have champion := alike.champions.find? (k := (tenant, policyName)) fun row keyed => own_first keyed
  unfold promotePolicy
  refine .bind fun _ _ => ?_
  rw [← candidate]
  refine .bind fun artifact _ => .bind fun _ _ => ?_
  simp only [← champion]
  refine .bind fun _ _ => ?_
  split
  · have audited := promotionAt_alike alike policyName
      (((left.champions.find? (tenant, policyName)).map ChampionRow.generation).getD 0)
    revert audited
    cases left.promotionAt tenant policyName
        (((left.champions.find? (tenant, policyName)).map ChampionRow.generation).getD 0) with
    | none =>
        intro audited
        rw [Option.map_none, eq_comm, Option.map_eq_none_iff] at audited
        rw [audited]
        exact .error
    | some first =>
        intro audited
        obtain ⟨second, found, same⟩ := Option.map_eq_some_iff.mp audited.symm
        rw [found]
        exact .ok same.symm alike
  · refine installPromotion_alike alike rfl ?_ identified ⟨tenant, policyName, artifactId, _, now⟩ rfl
      policyName _ _
    have names : maskedId drawn (givenOr auditId one) = maskedId drawn (givenOr auditId two) :=
      identified.masked
    exact congrArg (fun identity => Promotion.mk identity tenant policyName artifactId _ _ decidedBy reason
      benchmarkReceiptId now) names

end Own

end AgentTree
