import Mathlib.Algebra.Order.Group.Int
import Mathlib.Algebra.Order.BigOperators.Group.List
import AgentTree.BudgetLedger

/-!
What a successful `reserve_budget` is worth: the reservation is counted in its budget, and can be consumed
however the calls on other reservations go on.
-/

namespace AgentTree

open Outcome Relational

variable {tenantId budgetId reservationId : String} {units : Int} {db after : Db}

/-- A reservation is part of what its budget has reserved or consumed. -/
theorem reservation_counted (ledger : db.inLedger) {row : ReservationRow}
    (found : db.reservations.find? (tenantId, budgetId, reservationId) = some row) :
    ∃ budget, db.budgets.find? (tenantId, budgetId) = some budget ∧
      (row.status = .reserved → row.units ≤ budget.reservedUnits) ∧
      (row.status = .consumed → row.units ≤ budget.consumedUnits) ∧
      budget.reservedUnits + budget.consumedUnits ≤ budget.limitUnits := by
  obtain ⟨member, keyed⟩ := Table.find?_eq_some.mp found
  obtain ⟨tenant, rest⟩ := Prod.mk.inj keyed
  obtain ⟨budgeted, _⟩ := Prod.mk.inj rest
  obtain ⟨budget, there⟩ := ledger.funded row member
  rw [tenant, budgeted] at there
  obtain ⟨present, named⟩ := Table.find?_eq_some.mp there
  obtain ⟨sameTenant, sameBudget⟩ := Prod.mk.inj named
  have share : ∀ status, row.status = status →
      row.units ≤ unitsIn db.reservations status budget.tenantId budget.budgetId := by
    intro status reached
    have own : row.unitsFor status budget.tenantId budget.budgetId = row.units := by
      simp [ReservationRow.unitsFor, tenant, budgeted, sameTenant, sameBudget, reached]
    rw [← own]
    refine List.single_le_sum ?_ _ (List.mem_map_of_mem member)
    intro amount summed
    obtain ⟨other, held, rfl⟩ := List.mem_map.mp summed
    have := ledger.positive other held
    unfold ReservationRow.unitsFor
    split <;> omega
  refine ⟨budget, there, fun reserved => ?_, fun consumed => ?_, ledger.bounded budget present⟩
  · rw [ledger.reserved budget present]
    exact share .reserved reserved
  · rw [ledger.consumed budget present]
    exact share .consumed consumed

/-- The calls that can change the status of a reservation. -/
def LedgerCall.touches (tenantId budgetId reservationId : String) : LedgerCall → Bool
  | .consumeBudget tenant budget reservation | .releaseBudget tenant budget reservation =>
      (tenant, budget, reservation) = (tenantId, budgetId, reservationId)
  | .reconcileStartup => true
  | .createBudget _ _ _ | .reserveBudget _ _ _ _ => false

theorem transitionReservation_other {now : Int} {tenant budget reservation : String}
    {target : ReservationStatus} {snapshot : BudgetSnapshot} {row : ReservationRow}
    (ran : transitionReservation now tenant budget reservation target db = .ok (snapshot, after))
    (other : (tenant, budget, reservation) ≠ (tenantId, budgetId, reservationId))
    (found : db.reservations.find? (tenantId, budgetId, reservationId) = some row) :
    after.reservations.find? (tenantId, budgetId, reservationId) = some row := by
  rcases transitionReservation_cases ran with ⟨rfl, _⟩ | ⟨_, _, _, _, rfl⟩
  · exact found
  · rw [Table.find?_updateAt, if_neg (Ne.symm other)]
    exact found

/-- A call that does not touch a reservation leaves it as it is. -/
theorem LedgerCall.run_untouched {now : Int} {call : LedgerCall} {row : ReservationRow}
    (untouched : call.touches tenantId budgetId reservationId = false)
    (found : db.reservations.find? (tenantId, budgetId, reservationId) = some row) :
    (call.run now db).2.reservations.find? (tenantId, budgetId, reservationId) = some row := by
  let P := fun after : Db => after.reservations.find? (tenantId, budgetId, reservationId) = some row
  cases call with
  | createBudget =>
      refine transact_kept P found fun _ _ ran => ?_
      rcases createBudget_cases ran with rfl | ⟨_, _, _, _, rfl⟩ <;> exact found
  | reserveBudget =>
      refine transact_kept P found fun _ _ ran => ?_
      rcases reserveBudget_cases ran with rfl | ⟨_, _, _, _, _, _, inserted, rfl⟩
      · exact found
      · exact Table.found_insert inserted found
  | consumeBudget =>
      exact transact_kept P found fun _ _ ran =>
        transitionReservation_other ran (of_decide_eq_false untouched) found
  | releaseBudget =>
      exact transact_kept P found fun _ _ ran =>
        transitionReservation_other ran (of_decide_eq_false untouched) found
  | reconcileStartup => exact absurd untouched (by simp [touches])

theorem runLedger_untouched (calls : List (Int × LedgerCall)) {row : ReservationRow}
    (untouched : ∀ call ∈ calls, call.2.touches tenantId budgetId reservationId = false)
    (found : db.reservations.find? (tenantId, budgetId, reservationId) = some row) :
    (runLedger calls db).reservations.find? (tenantId, budgetId, reservationId) = some row := by
  induction calls generalizing db with
  | nil => exact found
  | cons call rest ih =>
      obtain ⟨first, later⟩ := List.forall_mem_cons.mp untouched
      exact ih later (LedgerCall.run_untouched first found)

theorem consumeBudget_succeeds (now : Int) (ledger : db.inLedger) {row : ReservationRow}
    (found : db.reservations.find? (tenantId, budgetId, reservationId) = some row)
    (unreleased : row.status ≠ .released) :
    ∃ result, consumeBudget now tenantId budgetId reservationId db = .ok result := by
  obtain ⟨budget, there, _⟩ := reservation_counted ledger found
  cases status : row.status with
  | released => exact absurd status unreleased
  | consumed =>
      simp [consumeBudget, transitionReservation, found, status, getBudget, there, orRaise, bind, Except.bind,
        pure, Except.pure]
  | reserved =>
      simp [consumeBudget, transitionReservation, found, status, getBudget, there, orRaise, ensure,
        Table.find?_updateAt, bind, Except.bind, pure, Except.pure]

theorem consumeBudget_released (now : Int) {row : ReservationRow}
    (found : db.reservations.find? (tenantId, budgetId, reservationId) = some row)
    (released : row.status = .released) :
    consumeBudget now tenantId budgetId reservationId db =
      .error (.conflict "cannot change RELEASED reservation to CONSUMED") := by
  simp [consumeBudget, transitionReservation, found, released, ReservationStatus.text, orRaise, ensure, bind,
    Except.bind]

/-- The units are held or spent under the reservation, counted in its budget within the limit, and can be
consumed after any calls that do not touch the reservation. -/
structure Spendable (tenantId budgetId reservationId : String) (units : Int) (db : Db) : Prop where
  counted : ∃ row budget, db.reservations.find? (tenantId, budgetId, reservationId) = some row ∧
    db.budgets.find? (tenantId, budgetId) = some budget ∧ row.units = units ∧
    (row.status = .reserved ∧ units ≤ budget.reservedUnits ∨
      row.status = .consumed ∧ units ≤ budget.consumedUnits) ∧
    budget.reservedUnits + budget.consumedUnits ≤ budget.limitUnits
  consumable : ∀ later : List (Int × LedgerCall),
    (∀ call ∈ later, call.2.touches tenantId budgetId reservationId = false) →
    ∀ now, ∃ result, consumeBudget now tenantId budgetId reservationId (runLedger later db) = .ok result

theorem spendable_of_row (ledger : db.inLedger) {row : ReservationRow}
    (found : db.reservations.find? (tenantId, budgetId, reservationId) = some row)
    (unreleased : row.status ≠ .released) : Spendable tenantId budgetId reservationId row.units db := by
  constructor
  · obtain ⟨budget, there, reserved, consumed, bounded⟩ := reservation_counted ledger found
    refine ⟨row, budget, found, there, rfl, ?_, bounded⟩
    cases status : row.status with
    | reserved => exact .inl ⟨rfl, reserved status⟩
    | consumed => exact .inr ⟨rfl, consumed status⟩
    | released => exact absurd status unreleased
  · intro later untouched now
    exact consumeBudget_succeeds now (runLedger_kept later ledger).1 (runLedger_untouched later untouched found)
      unreleased

/-- What a call that succeeds leaves under its id: the row that was there, or a new one. -/
theorem reserveBudget_row {now : Int} {snapshot : BudgetSnapshot}
    (ran : reserveBudget now tenantId budgetId reservationId units db = .ok (snapshot, after)) :
    ∃ row, after.reservations.find? (tenantId, budgetId, reservationId) = some row ∧ row.units = units ∧
      (db.reservations.find? (tenantId, budgetId, reservationId) = some row ∧ after = db ∨
        db.reservations.find? (tenantId, budgetId, reservationId) = none ∧ row.status = .reserved) := by
  cases existing : db.reservations.find? (tenantId, budgetId, reservationId) with
  | some row =>
      simp only [reserveBudget, existing, bind_eq_ok, pure_eq_ok, ensure_eq_ok, decide_eq_true_eq,
        Prod.mk.injEq] at ran
      obtain ⟨_, _, _, _, _, same, _, _, _, rfl⟩ := ran
      exact ⟨row, existing, same, .inl ⟨rfl, rfl⟩⟩
  | none =>
      rcases reserveBudget_cases ran with rfl | ⟨_, _, _, _, _, _, inserted, rfl⟩
      · simp only [reserveBudget, existing, bind_eq_ok, pure_eq_ok, orRaise_eq_ok, Prod.mk.injEq] at ran
        obtain ⟨_, _, _, _, _, _, _, _, reservations, inserted, _, _, _, same⟩ := ran
        have found := Table.find?_insert inserted (tenantId, budgetId, reservationId)
        rw [if_pos rfl] at found
        rw [← same] at existing
        exact absurd (found.symm.trans existing) (by simp)
      · exact ⟨_, by rw [Table.find?_insert inserted, if_pos rfl], rfl, .inr ⟨rfl, rfl⟩⟩

/-- After every run of ledger calls: a reservation that is granted can be spent exactly if none under its
id has been released before. -/
theorem reserved_spendable_iff (calls : List (Int × LedgerCall)) (now : Int)
    (tenantId budgetId reservationId : String) (units : Int) {snapshot : BudgetSnapshot} {after : Db}
    (ran : reserveBudget now tenantId budgetId reservationId units (runLedger calls Db.empty) =
      .ok (snapshot, after)) :
    Spendable tenantId budgetId reservationId units after ↔
      ¬ ∃ row, (runLedger calls Db.empty).reservations.find? (tenantId, budgetId, reservationId) = some row ∧
        row.status = .released := by
  have emptyLedger : Db.empty.inLedger := Accounted.empty
  have ledger := (runLedger_kept calls emptyLedger).1
  obtain ⟨row, found, rfl, before⟩ := reserveBudget_row ran
  constructor
  · rintro spendable ⟨other, there, released⟩
    rcases before with ⟨same, rfl⟩ | ⟨absent, _⟩
    · obtain ⟨result, spent⟩ := spendable.consumable [] (by simp) now
      exact absurd (spent.symm.trans (consumeBudget_released now there released)) (by simp)
    · simp [absent] at there
  · intro fresh
    refine spendable_of_row (reserveBudget_kept ledger ran).1 found fun released => ?_
    rcases before with ⟨same, rfl⟩ | ⟨_, reserved⟩
    · exact fresh ⟨row, same, released⟩
    · exact absurd (reserved.symm.trans released) (by simp)

theorem reserved_spendable_iff_first :
    ∃ snapshot after,
      reserveBudget 2 "tenant" "tokens" "branch" 7
        (runLedger [(1, .createBudget "tenant" "tokens" 10)] Db.empty) = .ok (snapshot, after) ∧
      (Spendable "tenant" "tokens" "branch" 7 after ↔
        ¬ ∃ row, (runLedger [(1, .createBudget "tenant" "tokens" 10)] Db.empty).reservations.find?
          ("tenant", "tokens", "branch") = some row ∧ row.status = .released) :=
  ⟨_, _, rfl, reserved_spendable_iff [(1, .createBudget "tenant" "tokens" 10)] 2 "tenant" "tokens" "branch" 7 rfl⟩

/-- A reservation of the whole budget that is released, and the budget reserved again under another id. -/
def rebooked : List (Int × LedgerCall) := [
  (1, .createBudget "tenant" "tokens" 10),
  (2, .reserveBudget "tenant" "tokens" "branch" 10),
  (3, .releaseBudget "tenant" "tokens" "branch"),
  (4, .reserveBudget "tenant" "tokens" "other" 10)]

/-- The released reservation is granted once more, with nothing left to spend. -/
theorem reserved_not_spendable :
    ∃ snapshot after,
      reserveBudget 5 "tenant" "tokens" "branch" 10 (runLedger rebooked Db.empty) = .ok (snapshot, after) ∧
      snapshot.availableUnits = 0 ∧
      consumeBudget 6 "tenant" "tokens" "branch" after =
        .error (.conflict "cannot change RELEASED reservation to CONSUMED") ∧
      ¬ Spendable "tenant" "tokens" "branch" 10 after := by
  refine ⟨_, _, rfl, rfl, rfl, fun spendable => ?_⟩
  obtain ⟨result, spent⟩ := spendable.consumable [] (by simp) 6
  exact absurd (spent.symm.trans rfl) nofun

end AgentTree
