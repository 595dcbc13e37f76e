import AgentTree.StoreOps

/-!
`reconcile_startup` on any store, and what its tombstones keep out afterwards.
-/

namespace AgentTree

open Outcome Relational

/-- The CHECK and FOREIGN KEY constraints of the two budget tables. -/
structure Db.Checked (db : Db) : Prop where
  limits : ∀ row ∈ db.budgets.rows, 0 ≤ row.limitUnits
  reserved : ∀ row ∈ db.budgets.rows, 0 ≤ row.reservedUnits
  consumed : ∀ row ∈ db.budgets.rows, 0 ≤ row.consumedUnits
  bounded : ∀ row ∈ db.budgets.rows, row.reservedUnits + row.consumedUnits ≤ row.limitUnits
  positive : ∀ row ∈ db.reservations.rows, 0 < row.units
  funded : ∀ row ∈ db.reservations.rows,
    ∃ budget, db.budgets.find? (row.tenantId, row.budgetId) = some budget

theorem Db.Checked.ledger {db : Db} (checked : db.Checked)
    (accounted : db.budgets.rows.all (BudgetRow.accounted db) = true) : db.inLedger := by
  have agree : ∀ row ∈ db.budgets.rows, BudgetRow.accounted db row = true := List.all_eq_true.mp accounted
  simp only [BudgetRow.accounted, unitsWith_eq, Bool.and_eq_true] at agree
  exact ⟨fun row member => of_decide_eq_true (agree row member).1,
    fun row member => of_decide_eq_true (agree row member).2, checked.bounded, checked.positive,
    checked.funded⟩

/-! The bulk updates keep the primary keys. -/

theorem recovered_idempotency (now : Int) (row : IdempotencyRow) : IdempotencyRow.key
    { row with status := .failed, result := some interrupted, updatedAt := now, expiresAt := none } = row.key := rfl

theorem recovered_reservation (now : Int) (row : ReservationRow) : ReservationRow.key
    { row with status := .released, updatedAt := now } = row.key := rfl

theorem recovered_budget (now : Int) (row : BudgetRow) : BudgetRow.key
    { row with reservedUnits := 0, version := row.version + 1, updatedAt := now } = row.key := rfl

theorem recovered_lease (now : Int) (row : LeaseRow) : LeaseRow.key
    { row with holderId := none, heartbeatAt := now, expiresAt := now } = row.key := rfl

/-- The database that recovery leaves, with every bulk update written out. -/
def Db.recovered (now : Int) (db : Db) : Db :=
  { db with
    idempotency := db.idempotency.update (fun row => row.status = .inProgress) (fun row =>
      { row with status := .failed, result := some interrupted, updatedAt := now, expiresAt := none })
      (recovered_idempotency now)
    reservations := db.reservations.update (fun row => row.status = .reserved) (fun row =>
      { row with status := .released, updatedAt := now }) (recovered_reservation now)
    budgets := db.budgets.update (fun row => 0 < row.reservedUnits) (fun row =>
      { row with reservedUnits := 0, version := row.version + 1, updatedAt := now }) (recovered_budget now)
    leases := db.leases.update (fun row => row.holderId.isSome) (fun row =>
      { row with holderId := none, heartbeatAt := now, expiresAt := now }) (recovered_lease now) }

def mismatch : PyError := .storeError "budget accounting mismatch; startup recovery aborted"

/-- SQLite's SUM over more units than 64 bits hold. -/
def sumOverflow : PyError := .other "OperationalError" "integer overflow"

/-- One of the sums that recovery takes leaves the 64-bit range. -/
def Db.oversized (db : Db) : Prop :=
  db.budgets.rows.all (BudgetRow.summable db) = false ∨ sumInRange db.heldUnits = false

theorem unheld {db : Db} (none : (db.reservations.rows.countP fun row => row.status = .reserved) = 0) :
    ∀ row ∈ db.reservations.rows, row.status ≠ .reserved := by
  simpa using List.countP_eq_zero.mp none

/-- Without a held reservation the sums of recovery are zero. -/
theorem unitsIn_unheld {db : Db} (none : ∀ row ∈ db.reservations.rows, row.status ≠ .reserved)
    (tenantId budgetId : String) : unitsIn db.reservations .reserved tenantId budgetId = 0 := by
  apply Table.total_zero
  intro row member
  simp [ReservationRow.unitsFor, none row member]

theorem reconcileStartup_ok {now : Int} {db after : Db} {report : RecoveryReport}
    (ran : reconcileStartup now db = .ok (report, after)) :
    db.budgets.rows.all (BudgetRow.accounted db) = true ∧ after = db.recovered now ∧
      report = {
        failedIdempotencyRecords := db.idempotency.rows.countP fun row => row.status = .inProgress
        releasedBudgetReservations := db.reservations.rows.countP fun row => row.status = .reserved
        releasedBudgetUnits := db.heldUnits
        releasedLeases := db.leases.rows.countP fun row => row.holderId.isSome } := by
  have written := reconcileStartup_cases ran
  simp only [reconcileStartup, bind_eq_ok, pure_eq_ok, ensure_eq_ok, Prod.mk.injEq] at ran
  obtain ⟨_, _, _, _, _, accounted, _, _, rfl, _⟩ := ran
  refine ⟨accounted, ?_, rfl⟩
  rw [written, Db.recovered]
  by_cases none : (db.reservations.rows.countP fun row => row.status = .reserved) = 0
  · -- Nothing is held, so that the updates that are skipped would not find a row.
    have empty := unheld none
    have reservations : db.reservations.update (fun row => row.status = .reserved) (fun row =>
        { row with status := .released, updatedAt := now }) (fun _ => rfl) = db.reservations :=
      Table.update_none fun row member => by simp [empty row member]
    have budgets : db.budgets.update (fun row => 0 < row.reservedUnits) (fun row =>
        { row with reservedUnits := 0, version := row.version + 1, updatedAt := now })
        (fun _ => rfl) = db.budgets := by
      refine Table.update_none fun row member => ?_
      have agree := List.all_eq_true.mp accounted row member
      simp only [BudgetRow.accounted, unitsWith_eq, unitsIn_unheld empty, Bool.and_eq_true] at agree
      simp [of_decide_eq_true agree.1]
    rw [if_pos none, if_pos none, reservations, budgets]
  · rw [if_neg none, if_neg none]

theorem reconcileStartup_error {now : Int} {db : Db} {error : PyError}
    (raised : reconcileStartup now db = .error error) :
    error = mismatch ∨ error = sumOverflow ∧ db.oversized := by
  have text : jsonText interrupted = .ok interrupted := by decide +kernel
  simp only [reconcileStartup, text, bind_eq_error, ensure_eq_error, pure_eq_error, reduceCtorEq,
    and_false, exists_false, or_false, false_or, Except.ok.injEq, exists_eq_left'] at raised
  rcases raised with ⟨high, rfl⟩ | ⟨_, _, ⟨_, rfl⟩ | ⟨_, _, high, rfl⟩⟩
  · exact .inr ⟨rfl, .inl high⟩
  · exact .inl rfl
  · exact .inr ⟨rfl, .inr high⟩

/-! Tombstones. -/

section Tombstones

variable {store : Store} {inRange : String → Bool} {db : Db} {now : Int} {uuid : String}

/-- A record that is final and has no expiry. -/
structure IdempotencyRow.Tombstone (row : IdempotencyRow) : Prop where
  failed : row.status = .failed
  kept : row.expiresAt = none

variable {key : String × String × String} {row : IdempotencyRow}

theorem IdempotencyRow.Tombstone.unexpired (tomb : row.Tombstone)
    (found : db.idempotency.find? key = some row) (time : Int) :
    (db.unexpired time).find? key = some row := by
  rw [Db.unexpired, Table.find?_delete, found]
  simp [tomb.kept]

theorem finishIdempotency_tombstone (tomb : row.Tombstone) (found : db.idempotency.find? key = some row)
    {tenantId scope name : String} {status : IdempotencyStatus} {result : Json} {after : Db}
    {record : IdempotencyRecord}
    (ran : finishIdempotency now tenantId scope name status result db = .ok (record, after)) :
    after.idempotency.find? key = some row := by
  obtain ⟨other, present, ⟨running, rfl⟩ | ⟨_, _, rfl⟩⟩ := finishIdempotency_cases ran
  · rw [Table.find?_updateAt, if_neg, found]
    rintro rfl
    rw [found, Option.some.injEq] at present
    rw [← present, tomb.failed] at running
    exact absurd running nofun
  · exact found

/-- No operation removes or changes a tombstone. -/
theorem StoreOp.run_tombstone (tomb : row.Tombstone) (found : db.idempotency.find? key = some row)
    (op : StoreOp) : (op.run store inRange now uuid db).2.idempotency.find? key = some row := by
  let P := fun after : Db => after.idempotency.find? key = some row
  cases op with
  | claimIdempotency =>
      refine transact_kept P found fun _ _ ran => ?_
      rcases claimIdempotency_cases ran with ⟨_, _, _, rfl⟩ | ⟨_, _, _, _, inserted, rfl⟩
      · exact tomb.unexpired found now
      · exact Table.found_insert inserted (tomb.unexpired found now)
  | completeIdempotency =>
      exact transact_kept P found fun _ _ ran => finishIdempotency_tombstone tomb found ran
  | failIdempotency =>
      exact transact_kept P found fun _ _ ran => finishIdempotency_tombstone tomb found ran
  | reconcileStartup =>
      refine transact_kept P found fun _ _ ran => ?_
      rw [(reconcileStartup_ok ran).2.1]
      simp only [P, Db.recovered, Table.find?_update, found, Option.map_some, tomb.failed]
      rfl
  | _ =>
      rw [(run_frame _).records rfl]
      exact found

theorem runOps_tombstone (tomb : row.Tombstone) (calls : List Timed) {db : Db}
    (found : db.idempotency.find? key = some row) :
    (runOps store inRange calls db).idempotency.find? key = some row := by
  induction calls generalizing db with
  | nil => exact found
  | cons call rest ih =>
      have next : ((call.run store inRange db).2).idempotency.find? key = some row :=
        StoreOp.run_tombstone tomb found call.op
      exact ih next

end Tombstones

/-! What one recovery does. -/

/-- The reserved columns of all budgets add up to the units of the held reservations. -/
theorem heldUnits_eq {db : Db} (ledger : db.inLedger) :
    db.heldUnits = db.budgets.total BudgetRow.reservedUnits := by
  have grouped : ∀ rows : List ReservationRow,
      (∀ row ∈ rows, ∃ budget, db.budgets.find? (row.tenantId, row.budgetId) = some budget) →
      (db.budgets.total fun budget =>
        (rows.map (ReservationRow.unitsFor .reserved budget.tenantId budget.budgetId)).sum) =
        (rows.map fun row => if row.status = .reserved then row.units else 0).sum := by
    intro rows funded
    induction rows with
    | nil => exact Table.total_zero fun _ _ => rfl
    | cons row rest ih =>
        obtain ⟨budget, found⟩ := funded row (by simp)
        have keyed := (Table.find?_eq_some.mp found).2
        have own : (db.budgets.total fun budget =>
            row.unitsFor .reserved budget.tenantId budget.budgetId) =
            row.unitsFor .reserved budget.tenantId budget.budgetId := by
          refine Table.total_single found fun other apart => ?_
          rw [ReservationRow.unitsFor, if_neg]
          rintro ⟨tenant, name, _⟩
          exact apart (Prod.ext tenant.symm name.symm)
        have rest := ih fun other member => funded other (List.mem_cons_of_mem _ member)
        simp only [List.map_cons, List.sum_cons]
        rw [← rest, Table.total, List.sum_map_add]
        congr 1
        refine own.trans ?_
        obtain ⟨tenant, name⟩ := Prod.mk.inj keyed
        simp [ReservationRow.unitsFor, tenant, name]
  rw [Db.heldUnits, Table.total, ← grouped db.reservations.rows ledger.funded]
  exact (Table.total_congr fun budget member => ledger.reserved budget member).symm

/-- The effect of a recovery, on the rows and in its report. -/
structure Recovered (before after : Db) (report : RecoveryReport) : Prop where
  finished : ∀ row ∈ after.idempotency.rows, row.status ≠ .inProgress
  settled : ∀ row ∈ after.reservations.rows, row.status ≠ .reserved
  unreserved : ∀ row ∈ after.budgets.rows, row.reservedUnits = 0
  unheld : ∀ row ∈ after.leases.rows, row.holderId = none
  records : ∀ key row, before.idempotency.find? key = some row → row.status ≠ .inProgress →
    after.idempotency.find? key = some row
  reservations : ∀ key row, before.reservations.find? key = some row → row.status ≠ .reserved →
    after.reservations.find? key = some row
  consumed : ∀ key, (after.budgets.find? key).map (fun row => (row.consumedUnits, row.limitUnits)) =
    (before.budgets.find? key).map fun row => (row.consumedUnits, row.limitUnits)
  tokens : ∀ key, (after.leases.find? key).map LeaseRow.fencingToken =
    (before.leases.find? key).map LeaseRow.fencingToken
  elsewhere : after = { before with
    idempotency := after.idempotency
    reservations := after.reservations
    budgets := after.budgets
    leases := after.leases }
  failedRecords : report.failedIdempotencyRecords = before.idempotency.changed after.idempotency
  releasedReservations : report.releasedBudgetReservations = before.reservations.changed after.reservations
  releasedUnits : report.releasedBudgetUnits =
    before.budgets.total BudgetRow.reservedUnits - after.budgets.total BudgetRow.reservedUnits
  releasedLeases : report.releasedLeases = before.leases.changed after.leases

section Recovery

variable {db : Db} {now : Int}

theorem recovered_unreserved (checked : db.Checked) :
    ∀ row ∈ (db.recovered now).budgets.rows, row.reservedUnits = 0 := by
  intro row member
  simp only [Db.recovered, Table.mem_update] at member
  obtain ⟨old, present, rfl⟩ := member
  split
  next => rfl
  next low =>
    have nonneg := checked.reserved old present
    simp only [decide_eq_true_eq] at low
    omega

theorem recovered_effect (checked : db.Checked) {after : Db} {report : RecoveryReport}
    (ran : reconcileStartup now db = .ok (report, after)) : Recovered db after report := by
  obtain ⟨accounted, rfl, rfl⟩ := reconcileStartup_ok ran
  constructor
  · intro row member
    simp only [Db.recovered, Table.mem_update] at member
    obtain ⟨old, _, rfl⟩ := member
    split
    next => simp
    next running => simpa using running
  · intro row member
    simp only [Db.recovered, Table.mem_update] at member
    obtain ⟨old, _, rfl⟩ := member
    split
    next => simp
    next held => simpa using held
  · exact recovered_unreserved checked
  · intro row member
    simp only [Db.recovered, Table.mem_update] at member
    obtain ⟨old, _, rfl⟩ := member
    split
    next => rfl
    next held => simpa using held
  · intro key row found final
    simp [Db.recovered, Table.find?_update, found, final]
  · intro key row found final
    simp [Db.recovered, Table.find?_update, found, final]
  · intro key
    cases found : db.budgets.find? key with
    | none => simp [Db.recovered, Table.find?_update, found]
    | some row =>
        simp only [Db.recovered, Table.find?_update, found, Option.map_some, Option.some.injEq]
        split <;> rfl
  · intro key
    cases found : db.leases.find? key with
    | none => simp [Db.recovered, Table.find?_update, found]
    | some row =>
        simp only [Db.recovered, Table.find?_update, found, Option.map_some, Option.some.injEq]
        split <;> rfl
  · rfl
  · simp only [Db.recovered]
    rw [Table.changed_update]
    intro row running same
    simp only [decide_eq_true_eq] at running
    have status := congrArg IdempotencyRow.status same
    simp [running] at status
  · simp only [Db.recovered]
    rw [Table.changed_update]
    intro row held same
    simp only [decide_eq_true_eq] at held
    have status := congrArg ReservationRow.status same
    simp [held] at status
  · have zero : (db.recovered now).budgets.total BudgetRow.reservedUnits = 0 :=
      Table.total_zero (recovered_unreserved checked)
    rw [zero, heldUnits_eq (checked.ledger accounted), sub_zero]
  · simp only [Db.recovered]
    rw [Table.changed_update]
    intro row held same
    have holder := congrArg LeaseRow.holderId same
    simp [← holder] at held

/-- Where there is nothing to recover, the bulk updates find no row. -/
theorem recovered_idle (finished : ∀ row ∈ db.idempotency.rows, row.status ≠ .inProgress)
    (settled : ∀ row ∈ db.reservations.rows, row.status ≠ .reserved)
    (unreserved : ∀ row ∈ db.budgets.rows, row.reservedUnits = 0)
    (unheld : ∀ row ∈ db.leases.rows, row.holderId = none) : db.recovered now = db := by
  rw [Db.recovered, Table.update_none, Table.update_none, Table.update_none, Table.update_none]
  · intro row member
    simp [settled row member]
  · intro row member
    simp [unreserved row member]
  · intro row member
    simp [unheld row member]
  · intro row member
    simp [finished row member]

/-- The sums after a recovery are those of the consumed reservations, as before. -/
theorem recovered_sums {after : Db} {report : RecoveryReport}
    (ran : reconcileStartup now db = .ok (report, after)) : ¬after.oversized := by
  have settled : ∀ row ∈ after.reservations.rows, row.status ≠ .reserved := by
    obtain ⟨_, rfl, _⟩ := reconcileStartup_ok ran
    intro row member
    simp only [Db.recovered, Table.mem_update] at member
    obtain ⟨old, _, rfl⟩ := member
    split
    next => simp
    next held => simpa using held
  obtain ⟨_, rfl, _⟩ := reconcileStartup_ok ran
  simp only [reconcileStartup, bind_eq_ok, ensure_eq_ok] at ran
  obtain ⟨_, _, _, summable, _⟩ := ran
  have consumed : ∀ tenantId budgetId, (db.recovered now).unitsWith .consumed tenantId budgetId =
      db.unitsWith .consumed tenantId budgetId := by
    intro tenantId budgetId
    simp only [unitsWith_eq, unitsIn, Db.recovered, Table.total_update]
    refine Table.total_congr fun row _ => ?_
    by_cases held : row.status = .reserved <;> simp [ReservationRow.unitsFor, held]
  rintro (high | high)
  · obtain ⟨row, member, exceeds⟩ := List.all_eq_false.mp high
    simp only [Db.recovered, Table.mem_update] at member
    obtain ⟨old, present, rfl⟩ := member
    have fits := List.all_eq_true.mp summable old present
    simp only [BudgetRow.summable, Bool.and_eq_true] at fits
    refine exceeds ?_
    rw [BudgetRow.summable, consumed, unitsWith_eq, unitsIn_unheld settled, Bool.and_eq_true]
    refine ⟨by decide, ?_⟩
    split <;> exact fits.2
  · have none : (db.recovered now).heldUnits = 0 :=
      Table.total_zero fun row member => by simp [settled row member]
    rw [none] at high
    exact absurd high (by decide)

/-- A second recovery changes nothing and reports zeros. -/
theorem recovered_again (checked : db.Checked) {after : Db} {report : RecoveryReport}
    (ran : reconcileStartup now db = .ok (report, after)) (later : Int) :
    reconcileStartup later after = .ok (⟨0, 0, 0, 0⟩, after) := by
  have effect := recovered_effect checked ran
  have ledger : after.inLedger := by
    obtain ⟨accounted, rfl, _⟩ := reconcileStartup_ok ran
    exact (checked.ledger accounted).releaseAll now
  cases again : reconcileStartup later after with
  | error error =>
      rcases reconcileStartup_error again with rfl | ⟨_, high⟩
      · exact absurd again (reconcileStartup_never_mismatch ledger)
      · exact absurd high (recovered_sums ran)
  | ok result =>
      obtain ⟨second, same⟩ := result
      obtain ⟨_, rfl, rfl⟩ := reconcileStartup_ok again
      rw [recovered_idle effect.finished effect.settled effect.unreserved effect.unheld]
      have records : (after.idempotency.rows.countP fun row => row.status = .inProgress) = 0 :=
        List.countP_eq_zero.mpr fun row member => by simp [effect.finished row member]
      have reservations : (after.reservations.rows.countP fun row => row.status = .reserved) = 0 :=
        List.countP_eq_zero.mpr fun row member => by simp [effect.settled row member]
      have units : after.heldUnits = 0 :=
        Table.total_zero fun row member => by simp [effect.settled row member]
      have leases : (after.leases.rows.countP fun row => row.holderId.isSome) = 0 :=
        List.countP_eq_zero.mpr fun row member => by simp [effect.unheld row member]
      rw [records, reservations, units, leases]

end Recovery

/-- The record that recovery leaves of an interrupted operation. -/
def IdempotencyRow.interruptedAt (row : IdempotencyRow) (now : Int) : IdempotencyRow :=
  { row with status := .failed, result := some interrupted, updatedAt := now, expiresAt := none }

namespace Crash

def store : Store where
  sha256 bytes := asciiText bytes
  receiptVerifier := none
  replayGraceSeconds := 300

def inRange : String → Bool := fun _ => true

def timed (op : StoreOp) : Timed := ⟨1000, "", op⟩

def interruptedRun : List Timed := [
  timed (.claimIdempotency "tenant" "decision" "key" (.obj [("units", .int 7)]) (some 86400)),
  timed (.createBudget "tenant" "api" 20),
  timed (.reserveBudget "tenant" "api" "reservation" 7),
  timed (.acquireLease "tenant" "train:policy" "worker" 3600 none)]

def largeRun : List Timed := [
  timed (.createBudget "tenant" "first" (2 ^ 62)),
  timed (.reserveBudget "tenant" "first" "reservation" (2 ^ 62)),
  timed (.createBudget "tenant" "second" (2 ^ 62)),
  timed (.reserveBudget "tenant" "second" "reservation" (2 ^ 62))]

def stopped : Db := runOps store inRange interruptedRun .empty

def large : Db := runOps store inRange largeRun .empty

theorem checked : stopped.Checked where
  limits := by decide
  reserved := by decide
  consumed := by decide
  bounded := by decide
  positive := by decide
  funded := by
    simp only [← Option.isSome_iff_exists]
    decide

/-- The answer of recovery, without the database. -/
def report (db : Db) : Except PyError RecoveryReport := (reconcileStartup 2000 db).map Prod.fst

theorem recovers : report stopped = .ok ⟨1, 1, 7, 1⟩ := by decide +kernel

theorem overflows : report large = .error sumOverflow := by decide +kernel

end Crash

end AgentTree
