import Mathlib.Algebra.Order.Group.Int
import Mathlib.Algebra.Order.BigOperators.Group.List
import AgentTree.BudgetLedger
import AgentTree.Leases
import AgentTree.SettledOperations

/-!
What one request holds: the reservations under its id and the leases of its holder.
Every step of every request is related to the holdings that it can change.
-/

namespace AgentTree

open Outcome Relational Concurrent

/-- The budget and the status of each reservation with one id. -/
def Db.held (db : Db) (tenantId reservationId : String) : List (String × ReservationStatus) :=
  (db.reservations.rows.filter fun row =>
    row.tenantId = tenantId && row.reservationId = reservationId).map fun row =>
      (row.budgetId, row.status)

/-- The holder has a lease, with this token. -/
def Db.Leased (db : Db) (holder : String) (resource : String × String) (token : Int) : Prop :=
  ∃ row, db.leases.find? resource = some row ∧ row.holderId = some holder ∧ row.fencingToken = token

/-- Startup recovery releases what is still reserved. -/
def lapsed (entry : String × ReservationStatus) : String × ReservationStatus :=
  (entry.1, if entry.2 = .reserved then .released else entry.2)

section Views

variable {db after : Db} {tenantId budgetId reservationId : String}

theorem held_insert {row : ReservationRow} {reservations : Reservations}
    (inserted : db.reservations.insert row = some reservations) (budgets : Budgets) :
    Db.held { db with budgets, reservations } tenantId reservationId =
      db.held tenantId reservationId ++
        if row.tenantId = tenantId ∧ row.reservationId = reservationId then [(row.budgetId, row.status)]
        else [] := by
  simp only [Db.held, (Table.insert_eq_some.mp inserted).2, List.filter_append, List.map_append]
  congr 1
  by_cases own : row.tenantId = tenantId ∧ row.reservationId = reservationId
  · simp [own]
  · rw [if_neg own, List.filter_eq_nil_iff.mpr, List.map_nil]
    simpa using own

theorem mem_held {entry : String × ReservationStatus} :
    entry ∈ db.held tenantId reservationId ↔ ∃ row ∈ db.reservations.rows,
      row.tenantId = tenantId ∧ row.reservationId = reservationId ∧ row.budgetId = entry.1 ∧
        row.status = entry.2 := by
  simp [Db.held, Prod.ext_iff, and_assoc]

/-- A change of status moves the entry of its budget and no other. -/
theorem held_updateAt {tenant budget reservation : String} {target : ReservationStatus} (now : Int)
    (budgets : Budgets) :
    Db.held { db with
      budgets
      reservations := db.reservations.updateAt (tenant, budget, reservation) (fun row =>
        { row with status := target, updatedAt := now }) fun _ => rfl } tenantId reservationId =
      (db.held tenantId reservationId).map fun entry =>
        if (tenant, budget, reservation) = (tenantId, entry.1, reservationId) then (entry.1, target)
        else entry := by
  simp only [Db.held, Table.updateAt, Table.update, List.filter_map, List.map_map]
  rw [List.filter_congr (q := fun row => row.tenantId = tenantId && row.reservationId = reservationId)]
  · refine List.map_congr_left fun row member => ?_
    have own := (List.mem_filter.mp member).2
    simp only [Bool.and_eq_true, decide_eq_true_eq] at own
    simp only [Function.comp, ReservationRow.key, own.1, own.2, decide_eq_true_eq, Prod.mk.injEq]
    by_cases here : tenantId = tenant ∧ row.budgetId = budget ∧ reservationId = reservation
    · obtain ⟨rfl, rfl, rfl⟩ := here
      simp
    · rw [if_neg here, if_neg fun same => here ⟨same.1.symm, same.2.1.symm, same.2.2.symm⟩]
  · intro row _
    simp only [Function.comp]
    split <;> rfl

theorem find_held {entry : String × ReservationStatus}
    (held : db.held tenantId reservationId = [entry]) :
    ∃ row, db.reservations.find? (tenantId, entry.1, reservationId) = some row ∧ row.status = entry.2 := by
  obtain ⟨row, member, tenant, reservation, budget, status⟩ := mem_held.mp (held ▸ List.mem_singleton_self _)
  refine ⟨row, Table.find?_eq_some.mpr ⟨member, ?_⟩, status⟩
  simp [ReservationRow.key, tenant, reservation, budget]

theorem held_find {row : ReservationRow}
    (found : db.reservations.find? (tenantId, budgetId, reservationId) = some row) :
    (budgetId, row.status) ∈ db.held tenantId reservationId := by
  obtain ⟨member, keyed⟩ := Table.find?_eq_some.mp found
  obtain ⟨tenant, rest⟩ := Prod.mk.inj keyed
  obtain ⟨budget, reservation⟩ := Prod.mk.inj rest
  exact mem_held.mpr ⟨row, member, tenant, reservation, budget, rfl⟩

theorem leased_updateAt {holder : String} {resource changed : String × String} {token : Int}
    {change : LeaseRow → LeaseRow} {same : ∀ row, (change row).key = row.key} {row : LeaseRow}
    (found : db.leases.find? changed = some row)
    (leased : Db.Leased { db with leases := db.leases.updateAt changed change same } holder resource token) :
    resource = changed ∧ (change row).holderId = some holder ∧ (change row).fencingToken = token ∨
      resource ≠ changed ∧ db.Leased holder resource token := by
  obtain ⟨later, present, held, numbered⟩ := leased
  simp only [Table.find?_updateAt] at present
  split at present
  next here =>
    rw [found, Option.map_some, Option.some.injEq] at present
    subst present
    exact .inl ⟨here, held, numbered⟩
  next elsewhere => exact .inr ⟨elsewhere, later, present, held, numbered⟩

end Views

/-! Steps that leave the holdings of the others alone. -/

/-- Only the reservations under one id change, and only one holder gets a lease. -/
structure Confined (own? : Option (String × String)) (holder? : Option String) (before after : Db) :
    Prop where
  ledger : before.inLedger → after.inLedger
  held : ∀ tenantId reservationId, own? ≠ some (tenantId, reservationId) →
    after.held tenantId reservationId = before.held tenantId reservationId
  leased : ∀ holder resource token, holder? ≠ some holder → after.Leased holder resource token →
    before.Leased holder resource token

namespace Confined

variable {own? : Option (String × String)} {holder? : Option String} {first second third : Db} {now : Int}

theorem refl (db : Db) : Confined own? holder? db db :=
  ⟨id, fun _ _ _ => rfl, fun _ _ _ _ => id⟩

theorem trans (one : Confined own? holder? first second) (two : Confined own? holder? second third) :
    Confined own? holder? first third :=
  ⟨two.ledger ∘ one.ledger,
    fun _ _ other => (two.held _ _ other).trans (one.held _ _ other),
    fun holder resource token other leased =>
      one.leased _ _ _ other (two.leased holder resource token other leased)⟩

theorem widen (confined : Confined none none first second) : Confined own? holder? first second :=
  ⟨confined.ledger, fun _ _ _ => confined.held _ _ (by simp),
    fun _ _ _ _ => confined.leased _ _ _ (by simp)⟩

theorem widen_holder (confined : Confined own? none first second) : Confined own? holder? first second :=
  ⟨confined.ledger, confined.held, fun _ _ _ _ => confined.leased _ _ _ (by simp)⟩

theorem of_equal (budgets : second.budgets = first.budgets)
    (reservations : second.reservations = first.reservations) (leases : second.leases = first.leases) :
    Confined own? holder? first second := by
  refine ⟨fun ledger => ?_, fun _ _ _ => ?_, fun _ _ _ _ leased => ?_⟩
  · rw [Db.inLedger, budgets, reservations]
    exact ledger
  · rw [Db.held, Db.held, reservations]
  · rw [Db.Leased, ← leases]
    exact leased

theorem created {tenantId budgetId : String} {limitUnits : Int}
    (ran : createBudget now tenantId budgetId limitUnits first = .ok ((), second)) :
    Confined own? holder? first second := by
  refine ⟨fun ledger => (createBudget_kept ledger ran).1, ?_, ?_⟩ <;>
    rcases createBudget_cases ran with rfl | ⟨_, _, _, _, rfl⟩
  · exact fun _ _ _ => rfl
  · exact fun _ _ _ => rfl
  · exact fun _ _ _ _ => id
  · exact fun _ _ _ _ => id

theorem reserved {tenantId budgetId reservationId : String} {units : Int} {snapshot : BudgetSnapshot}
    (ran : reserveBudget now tenantId budgetId reservationId units first = .ok (snapshot, second)) :
    Confined (some (tenantId, reservationId)) holder? first second := by
  refine ⟨fun ledger => (reserveBudget_kept ledger ran).1, ?_, ?_⟩ <;>
    rcases reserveBudget_cases ran with rfl | ⟨_, _, _, _, _, _, inserted, rfl⟩
  · exact fun _ _ _ => rfl
  · intro tenant reservation other
    rw [held_insert inserted, if_neg, List.append_nil]
    rintro ⟨rfl, rfl⟩
    exact other rfl
  · exact fun _ _ _ _ => id
  · exact fun _ _ _ _ => id

theorem settled {tenantId budgetId reservationId : String} {target : ReservationStatus}
    {snapshot : BudgetSnapshot}
    (ran : transitionReservation now tenantId budgetId reservationId target first =
      .ok (snapshot, second)) : Confined (some (tenantId, reservationId)) holder? first second := by
  refine ⟨fun ledger => (transitionReservation_kept ledger ran).1, ?_, ?_⟩ <;>
    rcases transitionReservation_cases ran with ⟨rfl, _⟩ | ⟨_, row, _, _, rfl⟩
  · exact fun _ _ _ => rfl
  · intro tenant reservation other
    rw [held_updateAt]
    conv_rhs => rw [← List.map_id (first.held tenant reservation)]
    refine List.map_congr_left fun entry _ => if_neg fun same => other ?_
    simp only [Prod.mk.injEq] at same
    rw [same.1, same.2.2]
  · exact fun _ _ _ _ => id
  · exact fun _ _ _ _ => id

theorem acquired {tenantId resourceId holderId : String} {ttlSeconds : Int} {at? : Option Int}
    (ran : acquireLease now tenantId resourceId holderId ttlSeconds at? first = .ok ((), second)) :
    Confined own? (some holderId) first second := by
  rcases acquireLease_cases ran with ⟨_, leases, inserted, rfl⟩ | ⟨row, found, _, _, rfl⟩ |
    ⟨row, found, _, rfl⟩
  · refine ⟨id, fun _ _ _ => rfl, fun holder resource token other leased => ?_⟩
    obtain ⟨later, present, held, numbered⟩ := leased
    simp only at present
    rw [Table.find?_insert inserted] at present
    split at present
    next =>
      obtain rfl := Option.some.inj present
      exact absurd held other
    next => exact ⟨later, present, held, numbered⟩
  · refine ⟨id, fun _ _ _ => rfl, fun holder resource token other leased => ?_⟩
    rcases leased_updateAt found leased with ⟨rfl, held, numbered⟩ | ⟨_, before⟩
    · exact ⟨row, found, held, numbered⟩
    · exact before
  · refine ⟨id, fun _ _ _ => rfl, fun holder resource token other leased => ?_⟩
    rcases leased_updateAt found leased with ⟨rfl, held, _⟩ | ⟨_, before⟩
    · exact absurd held other
    · exact before

theorem renewed {tenantId resourceId holderId : String} {fencingToken ttlSeconds : Int}
    {at? : Option Int}
    (ran : renewLease now tenantId resourceId holderId fencingToken ttlSeconds at? first =
      .ok ((), second)) : Confined own? holder? first second := by
  obtain ⟨row, found, _, _, _, rfl⟩ := renewLease_cases ran
  refine ⟨id, fun _ _ _ => rfl, fun holder resource token _ leased => ?_⟩
  rcases leased_updateAt found leased with ⟨rfl, held, numbered⟩ | ⟨_, before⟩
  · exact ⟨row, found, held, numbered⟩
  · exact before

theorem freed {tenantId resourceId holderId : String} {fencingToken : Int}
    (ran : releaseLease now tenantId resourceId holderId fencingToken first = .ok ((), second)) :
    Confined own? holder? first second := by
  obtain ⟨row, found, _, _, rfl⟩ := releaseLease_cases ran
  refine ⟨id, fun _ _ _ => rfl, fun holder resource token _ leased => ?_⟩
  rcases leased_updateAt found leased with ⟨_, held, _⟩ | ⟨_, before⟩
  · simp at held
  · exact before

theorem appended {store : Store} {uuid tenantId streamId eventType : String} {payload : Json}
    {eventId : Option String} {expected occurredAt : Option Int} {row : EventRow}
    (ran : store.appendEvent now uuid tenantId streamId eventType payload eventId expected occurredAt
      first = .ok (row, second)) : Confined own? holder? first second := by
  obtain ⟨_, _, rfl, _⟩ := appendEvent_cases ran
  exact .of_equal rfl rfl rfl

theorem evidenced {store : Store} {tenantId : String} {envelope : Json} {receiptId : Option String}
    {row : EvidenceRow}
    (ran : store.recordEvidenceReceipt now tenantId envelope receiptId first = .ok (row, second)) :
    Confined own? holder? first second := by
  obtain ⟨_, _, _, rfl, _⟩ := recordEvidenceReceipt_cases ran
  exact .of_equal rfl rfl rfl

theorem experienced {store : Store} {inRange : String → Bool} {tenantId : String} {envelope : Json}
    {receiptId : Option String} {row : ExperienceRow}
    (ran : store.recordExperienceReceipt inRange now tenantId envelope receiptId first =
      .ok (row, second)) : Confined own? holder? first second := by
  obtain ⟨_, _, rfl⟩ := recordExperienceReceipt_cases ran
  exact .of_equal rfl rfl rfl

theorem registered {Model : Type} {plane : ControlPlane Model} {tenantId family : String}
    {model : Model} {contentHash : String} {metadata : Json} {row : ArtifactRow}
    (ran : plane.registerArtifact now tenantId family model contentHash metadata first =
      .ok (row, second)) : Confined own? holder? first second := by
  simp only [ControlPlane.registerArtifact, bind_eq_ok] at ran
  obtain ⟨_, _, ran⟩ := ran
  rcases registerPolicyArtifact_cases ran with ⟨rfl, _⟩ | ⟨_, _, rfl, _⟩ <;> exact .of_equal rfl rfl rfl

theorem recorded {tenantId trainingId policyName artifactId trainedBy : String}
    {leaseFencingToken : Int} {report : Json} {row : TrainingRow}
    (ran : recordTrainingRun now tenantId trainingId policyName artifactId trainedBy leaseFencingToken
      report first = .ok (row, second)) : Confined own? holder? first second := by
  obtain ⟨_, _, _, ⟨rfl, _⟩ | ⟨_, _, rfl⟩⟩ := recordTrainingRun_cases ran <;> exact .of_equal rfl rfl rfl

theorem finished {tenantId scope key : String} {status : IdempotencyStatus} {result : Json}
    {record : IdempotencyRecord}
    (ran : finishIdempotency now tenantId scope key status result first = .ok (record, second)) :
    Confined own? holder? first second := by
  obtain ⟨_, _, ⟨_, rfl⟩ | ⟨_, _, rfl⟩⟩ := finishIdempotency_cases ran <;> exact .of_equal rfl rfl rfl

theorem promoted {uuid tenantId policyName artifactId : String} {expected : Option String}
    {decidedBy reason : String} {benchmarkReceiptId auditId : Option String} {promotion : Promotion}
    (ran : promotePolicy now uuid tenantId policyName artifactId expected decidedBy reason
      benchmarkReceiptId auditId first = .ok (promotion, second)) : Confined own? holder? first second := by
  obtain ⟨_, _, ⟨rfl, _⟩ | ⟨_, _, _, _, _, _, _, _, _, _, _, rfl, _⟩⟩ := promotePolicy_cases ran <;>
    exact .of_equal rfl rfl rfl

theorem claimed {store : Store} {tenantId scope key : String} {request : Json}
    {ttlSeconds : Option Int} {record : IdempotencyRecord}
    (ran : store.claimIdempotency now tenantId scope key request ttlSeconds first = .ok (record, second)) :
    Confined own? holder? first second := by
  rcases claimIdempotency_cases ran with ⟨_, _, _, rfl⟩ | ⟨_, _, _, _, _, rfl⟩ <;>
    exact .of_equal rfl rfl rfl

end Confined

/-- Consuming the one reservation under an id. -/
theorem consumed_held {now : Int} {tenantId budgetId reservationId : String} {snapshot : BudgetSnapshot}
    {db after : Db} {entry : String × ReservationStatus}
    (ran : consumeBudget now tenantId budgetId reservationId db = .ok (snapshot, after))
    (held : db.held tenantId reservationId = [entry]) :
    after.held tenantId reservationId = [(entry.1, .consumed)] := by
  rcases transitionReservation_cases ran with ⟨rfl, row, found, reached⟩ | ⟨_, row, found, _, rfl⟩
  · have same := held_find found
    rw [held, List.mem_singleton] at same
    rw [held, ← same, reached]
  · have same := held_find found
    rw [held, List.mem_singleton] at same
    rw [held_updateAt, held, ← same]
    simp

theorem reserved_held {now : Int} {tenantId budgetId reservationId : String} {units : Int}
    {snapshot : BudgetSnapshot} {db after : Db}
    (ran : reserveBudget now tenantId budgetId reservationId units db = .ok (snapshot, after))
    (unheld : db.held tenantId reservationId = []) :
    after.held tenantId reservationId = [(budgetId, .reserved)] := by
  have absent : db.reservations.find? (tenantId, budgetId, reservationId) = none := by
    cases found : db.reservations.find? (tenantId, budgetId, reservationId) with
    | none => rfl
    | some row =>
        have member := held_find found
        simp [unheld] at member
  simp only [reserveBudget, absent, bind_eq_ok, pure_eq_ok, orRaise_eq_ok, Prod.mk.injEq] at ran
  obtain ⟨_, _, _, _, _, _, _, _, reservations, inserted, _, _, _, rfl⟩ := ran
  rw [held_insert inserted, unheld]
  simp

section Release

variable {tenantId budgetId reservationId : String} {db : Db}

theorem held_funded {status : ReservationStatus} (ledger : db.inLedger)
    (held : db.held tenantId reservationId = [(budgetId, status)]) :
    ∃ budget, db.budgets.find? (tenantId, budgetId) = some budget ∧
      (status = .reserved → 0 < budget.reservedUnits) := by
  obtain ⟨row, found, rfl⟩ := find_held held
  obtain ⟨member, keyed⟩ := Table.find?_eq_some.mp found
  obtain ⟨tenant, rest⟩ := Prod.mk.inj keyed
  obtain ⟨budgeted, _⟩ := Prod.mk.inj rest
  obtain ⟨budget, there⟩ := ledger.funded row member
  rw [tenant, budgeted] at there
  refine ⟨budget, there, fun reserved => ?_⟩
  obtain ⟨present, named⟩ := Table.find?_eq_some.mp there
  obtain ⟨sameTenant, sameBudget⟩ := Prod.mk.inj named
  have positive := ledger.positive row member
  have counted : row.units ≤ unitsIn db.reservations .reserved budget.tenantId budget.budgetId := by
    have own : row.unitsFor .reserved budget.tenantId budget.budgetId = row.units := by
      simp [ReservationRow.unitsFor, tenant, budgeted, sameTenant, sameBudget, reserved]
    rw [← own]
    refine List.single_le_sum ?_ _ (List.mem_map_of_mem member)
    intro units member
    obtain ⟨other, there, rfl⟩ := List.mem_map.mp member
    have := ledger.positive other there
    unfold ReservationRow.unitsFor
    split <;> omega
  have sum := ledger.reserved budget present
  omega

/-- A reservation that is not consumed can be released. -/
theorem release_held (now : Int) {status : ReservationStatus} (ledger : db.inLedger)
    (held : db.held tenantId reservationId = [(budgetId, status)]) (unspent : status ≠ .consumed) :
    ∃ snapshot after, releaseBudget now tenantId budgetId reservationId db = .ok (snapshot, after) ∧
      after.held tenantId reservationId = [(budgetId, .released)] := by
  obtain ⟨row, found, rfl⟩ := find_held held
  obtain ⟨budget, there, _⟩ := held_funded ledger held
  have reaches : row.status = .released ∨ row.status = .reserved := by
    cases same : row.status with
    | reserved => exact .inr rfl
    | consumed => exact absurd same unspent
    | released => exact .inl rfl
  have succeeds : ∃ snapshot after,
      releaseBudget now tenantId budgetId reservationId db = .ok (snapshot, after) := by
    rcases reaches with done | reserved
    · simp [releaseBudget, transitionReservation, found, done, getBudget, there, orRaise, bind, Except.bind,
        pure, Except.pure]
    · simp [releaseBudget, transitionReservation, found, reserved, getBudget, there, orRaise, ensure,
        Table.find?_updateAt, bind, Except.bind, pure, Except.pure]
  obtain ⟨snapshot, after, ran⟩ := succeeds
  refine ⟨snapshot, after, ran, ?_⟩
  rcases transitionReservation_cases ran with ⟨rfl, other, present, done⟩ | ⟨_, _, _, _, rfl⟩
  · obtain rfl := Option.some.inj (found.symm.trans present)
    rw [held, done]
  · rw [held_updateAt, held]
    simp

/-- A consumed reservation cannot. -/
theorem release_consumed (now : Int) (held : db.held tenantId reservationId = [(budgetId, .consumed)]) :
    ∃ message, releaseBudget now tenantId budgetId reservationId db = .error (.conflict message) := by
  obtain ⟨row, found, reached⟩ := find_held held
  simp only at found reached
  simp [releaseBudget, transitionReservation, found, reached, orRaise, ensure, bind, Except.bind]

end Release

section Leases

variable {now : Int} {tenantId resourceId holder : String} {ttlSeconds : Int} {db after : Db}

theorem Db.Leased.unique {resource : String × String} {first second : Int}
    (one : db.Leased holder resource first) (two : db.Leased holder resource second) : first = second := by
  obtain ⟨row, found, _, rfl⟩ := one
  obtain ⟨other, present, _, rfl⟩ := two
  rw [Option.some.inj (found.symm.trans present)]

theorem acquireLease_number {row : LeaseRow}
    (ran : acquireLease now tenantId resourceId holder ttlSeconds none db = .ok ((), after))
    (found : db.leases.find? (tenantId, resourceId) = some row) (other : row.holderId ≠ some holder) :
    bindInteger (row.fencingToken + 1) = .ok () := by
  simp only [acquireLease, found, bind_eq_ok] at ran
  obtain ⟨_, _, _, _, _, _, ran⟩ := ran
  split at ran
  next own => exact absurd own.1 other
  next =>
    split at ran
    next =>
      simp only [bind_eq_ok] at ran
      obtain ⟨_, _, _, _, _, number, _⟩ := ran
      exact number
    next => simp at ran

/-- A first lease is the acquired one. -/
theorem acquired_leased {resource : String × String} {token : Int}
    (ran : acquireLease now tenantId resourceId holder ttlSeconds none db = .ok ((), after))
    (unleased : ∀ resource token, ¬db.Leased holder resource token)
    (leased : after.Leased holder resource token) :
    resource = (tenantId, resourceId) ∧ bindInteger token = .ok () := by
  rcases acquireLease_cases ran with ⟨_, leases, inserted, rfl⟩ | ⟨row, found, own, _, rfl⟩ |
    ⟨row, found, _, rfl⟩
  · obtain ⟨later, present, held, rfl⟩ := leased
    simp only at present
    rw [Table.find?_insert inserted] at present
    split at present
    next here =>
      obtain rfl := Option.some.inj present
      exact ⟨here.symm, rfl⟩
    next => exact absurd ⟨later, present, held, rfl⟩ (unleased _ _)
  · exact absurd ⟨row, found, own, rfl⟩ (unleased _ _)
  · have number := acquireLease_number ran found fun own => unleased _ _ ⟨row, found, own, rfl⟩
    rcases leased_updateAt found leased with ⟨rfl, _, rfl⟩ | ⟨_, before⟩
    · exact ⟨rfl, number⟩
    · exact absurd before (unleased _ _)

theorem freed_leased {token number : Int} {other : String}
    (ran : releaseLease now tenantId resourceId holder token db = .ok ((), after)) :
    ¬after.Leased other (tenantId, resourceId) number := by
  obtain ⟨row, found, _, _, rfl⟩ := releaseLease_cases ran
  intro leased
  rcases leased_updateAt found leased with ⟨_, held, _⟩ | ⟨elsewhere, _⟩
  · simp at held
  · exact elsewhere rfl

/-- The holder of a lease can release it. -/
theorem releaseLease_leased (now : Int) {token : Int} (leased : db.Leased holder (tenantId, resourceId) token)
    (number : bindInteger token = .ok ()) :
    ∃ after, releaseLease now tenantId resourceId holder token db = .ok ((), after) := by
  obtain ⟨row, found, held, rfl⟩ := leased
  simp [releaseLease, number, found, held, orRaise, ensure, bind, Except.bind, pure, Except.pure]

end Leases

end AgentTree
