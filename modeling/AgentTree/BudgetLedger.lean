import AgentTree.StoreCore

/-!
The budget ledger: the two tables that `create_budget`, `reserve_budget`,
`consume_budget`, `release_budget` and `reconcile_startup` keep in step.
-/

namespace AgentTree

open Outcome Relational

/-! What each call can do to the two tables. -/

theorem createBudget_cases {now : Int} {tenantId budgetId : String} {limitUnits : Int} {db after : Db}
    (ran : createBudget now tenantId budgetId limitUnits db = .ok ((), after)) :
    after = db ∨ (0 ≤ limitUnits ∧ db.budgets.find? (tenantId, budgetId) = none ∧
      ∃ budgets, db.budgets.insert {
        tenantId, budgetId, limitUnits
        reservedUnits := 0
        consumedUnits := 0
        version := 0
        createdAt := now
        updatedAt := now } = some budgets ∧ after = { db with budgets }) := by
  simp only [createBudget, bind_eq_ok] at ran
  obtain ⟨_, _, _, limit, ran⟩ := ran
  simp only [nonnegativeInt, ensure_eq_ok, decide_eq_true_eq] at limit
  split at ran
  next row found =>
    simp only [bind_eq_ok, pure_eq_ok, Prod.mk.injEq] at ran
    obtain ⟨_, _, _, same⟩ := ran
    exact .inl same.symm
  next absent =>
    simp only [bind_eq_ok, pure_eq_ok, orRaise_eq_ok, Prod.mk.injEq] at ran
    obtain ⟨_, _, budgets, inserted, _, rfl⟩ := ran
    exact .inr ⟨limit, absent, budgets, inserted, rfl⟩

theorem reserveBudget_cases {now : Int} {tenantId budgetId reservationId : String} {units : Int}
    {db after : Db} {snapshot : BudgetSnapshot}
    (ran : reserveBudget now tenantId budgetId reservationId units db = .ok (snapshot, after)) :
    after = db ∨ (0 < units ∧ db.reservations.find? (tenantId, budgetId, reservationId) = none ∧
      ∃ budget, db.budgets.find? (tenantId, budgetId) = some budget ∧
        units ≤ budget.limitUnits - budget.reservedUnits - budget.consumedUnits ∧
        ∃ reservations, db.reservations.insert {
          tenantId, budgetId, reservationId, units
          status := .reserved
          createdAt := now
          updatedAt := now } = some reservations ∧
        after = { db with
          budgets := db.budgets.updateAt (tenantId, budgetId) (fun row => { row with
            reservedUnits := row.reservedUnits + units
            version := row.version + 1
            updatedAt := now }) fun _ => rfl
          reservations }) := by
  simp only [reserveBudget, bind_eq_ok] at ran
  obtain ⟨_, _, _, positive, ran⟩ := ran
  simp only [positiveInt, ensure_eq_ok, decide_eq_true_eq] at positive
  split at ran
  next existing found =>
    simp only [bind_eq_ok, pure_eq_ok, Prod.mk.injEq] at ran
    obtain ⟨_, _, _, _, _, same⟩ := ran
    exact .inl same.symm
  next absent =>
    simp only [bind_eq_ok, pure_eq_ok, orRaise_eq_ok, ensure_eq_ok, decide_eq_true_eq,
      Prod.mk.injEq] at ran
    obtain ⟨budget, found, _, room, reservations, inserted, _, _, _, rfl⟩ := ran
    exact .inr ⟨positive, absent, budget, found, room, reservations, inserted, rfl⟩

theorem transitionReservation_cases {now : Int} {tenantId budgetId reservationId : String}
    {target : ReservationStatus} {db after : Db} {snapshot : BudgetSnapshot}
    (ran : transitionReservation now tenantId budgetId reservationId target db = .ok (snapshot, after)) :
    (after = db ∧ ∃ row, db.reservations.find? (tenantId, budgetId, reservationId) = some row ∧
        row.status = target) ∨
      (target ≠ .reserved ∧ ∃ row, db.reservations.find? (tenantId, budgetId, reservationId) = some row ∧
        row.status = .reserved ∧
        after = { db with
          budgets := db.budgets.updateAt (tenantId, budgetId) (fun budget => { budget with
            reservedUnits := budget.reservedUnits - row.units
            consumedUnits := budget.consumedUnits + if target = .consumed then row.units else 0
            version := budget.version + 1
            updatedAt := now }) fun _ => rfl
          reservations := db.reservations.updateAt (tenantId, budgetId, reservationId) (fun row =>
            { row with status := target, updatedAt := now }) fun _ => rfl }) := by
  simp only [transitionReservation, bind_eq_ok, orRaise_eq_ok] at ran
  obtain ⟨row, found, ran⟩ := ran
  split at ran
  next reached =>
    simp only [bind_eq_ok, pure_eq_ok, Prod.mk.injEq] at ran
    obtain ⟨_, _, _, same⟩ := ran
    exact .inl ⟨same.symm, row, found, reached⟩
  next moving =>
    simp only [bind_eq_ok, pure_eq_ok, ensure_eq_ok, decide_eq_true_eq, Prod.mk.injEq] at ran
    obtain ⟨_, held, _, _, _, rfl⟩ := ran
    exact .inr ⟨fun same => moving (same ▸ held), row, found, held, rfl⟩

theorem reconcileStartup_cases {now : Int} {db after : Db} {report : RecoveryReport}
    (ran : reconcileStartup now db = .ok (report, after)) :
    after = { db with
      idempotency := db.idempotency.update (fun row => row.status = .inProgress) (fun row =>
        { row with
          status := .failed
          result := some interrupted
          updatedAt := now
          expiresAt := none }) fun _ => rfl
      reservations := if (db.reservations.rows.countP fun row => row.status = .reserved) = 0 then
          db.reservations
        else db.reservations.update (fun row => row.status = .reserved) (fun row =>
          { row with status := .released, updatedAt := now }) fun _ => rfl
      budgets := if (db.reservations.rows.countP fun row => row.status = .reserved) = 0 then
          db.budgets
        else db.budgets.update (fun row => 0 < row.reservedUnits) (fun row =>
          { row with reservedUnits := 0, version := row.version + 1, updatedAt := now }) fun _ => rfl
      leases := db.leases.update (fun row => row.holderId.isSome) (fun row =>
        { row with holderId := none, heartbeatAt := now, expiresAt := now }) fun _ => rfl } := by
  simp only [reconcileStartup, bind_eq_ok, pure_eq_ok, Prod.mk.injEq] at ran
  obtain ⟨json, text, _, _, _, _, _, _, _, rfl⟩ := ran
  have same : json = interrupted := by
    have computed : jsonText interrupted = .ok interrupted := by decide +kernel
    rw [computed] at text
    exact (Except.ok.inj text).symm
  rw [same]

/-! The two tables on their own, and what keeps them in step. -/

abbrev Budgets := Table _ _ BudgetRow.key
abbrev Reservations := Table _ _ ReservationRow.key

/-- What one reservation adds to a budget's sum for one status. -/
def ReservationRow.unitsFor (status : ReservationStatus) (tenantId budgetId : String)
    (row : ReservationRow) : Int :=
  if row.tenantId = tenantId ∧ row.budgetId = budgetId ∧ row.status = status then row.units else 0

def unitsIn (reservations : Reservations) (status : ReservationStatus) (tenantId budgetId : String) : Int :=
  reservations.total (ReservationRow.unitsFor status tenantId budgetId)

theorem unitsWith_eq (db : Db) (status : ReservationStatus) (tenantId budgetId : String) :
    db.unitsWith status tenantId budgetId = unitsIn db.reservations status tenantId budgetId := rfl

/-- The columns of every budget agree with its reservations and stay within its limit. -/
structure Accounted (budgets : Budgets) (reservations : Reservations) : Prop where
  reserved : ∀ row ∈ budgets.rows,
    row.reservedUnits = unitsIn reservations .reserved row.tenantId row.budgetId
  consumed : ∀ row ∈ budgets.rows,
    row.consumedUnits = unitsIn reservations .consumed row.tenantId row.budgetId
  bounded : ∀ row ∈ budgets.rows, row.reservedUnits + row.consumedUnits ≤ row.limitUnits
  positive : ∀ row ∈ reservations.rows, 0 < row.units
  funded : ∀ row ∈ reservations.rows, ∃ budget, budgets.find? (row.tenantId, row.budgetId) = some budget

namespace Accounted

variable {budgets : Budgets} {reservations : Reservations}

theorem empty : Accounted .empty .empty := by
  constructor <;> intro row member <;> simp [Table.empty] at member

theorem units_nonneg (accounted : Accounted budgets reservations) (status : ReservationStatus)
    (tenantId budgetId : String) : 0 ≤ unitsIn reservations status tenantId budgetId := by
  apply Table.total_nonneg
  intro row member
  have := accounted.positive row member
  unfold ReservationRow.unitsFor
  split <;> omega

/-- A budget that does not exist has no reservations. -/
theorem units_unfunded (accounted : Accounted budgets reservations) {tenantId budgetId : String}
    (absent : budgets.find? (tenantId, budgetId) = none) (status : ReservationStatus) :
    unitsIn reservations status tenantId budgetId = 0 := by
  apply Table.total_zero
  intro row member
  obtain ⟨budget, found⟩ := accounted.funded row member
  unfold ReservationRow.unitsFor
  split
  next same =>
    rw [same.1, same.2.1, absent] at found
    simp at found
  next => rfl

theorem open_budget (accounted : Accounted budgets reservations) {row : BudgetRow} {after : Budgets}
    (inserted : budgets.insert row = some after) (limit : 0 ≤ row.limitUnits)
    (noneReserved : row.reservedUnits = 0) (noneConsumed : row.consumedUnits = 0) :
    Accounted after reservations := by
  obtain ⟨absent, rows⟩ := Table.insert_eq_some.mp inserted
  have empty := accounted.units_unfunded absent
  constructor
  · intro other member
    simp only [rows, List.mem_append, List.mem_singleton] at member
    obtain member | rfl := member
    · exact accounted.reserved other member
    · rw [empty, noneReserved]
  · intro other member
    simp only [rows, List.mem_append, List.mem_singleton] at member
    obtain member | rfl := member
    · exact accounted.consumed other member
    · rw [empty, noneConsumed]
  · intro other member
    simp only [rows, List.mem_append, List.mem_singleton] at member
    obtain member | rfl := member
    · exact accounted.bounded other member
    · omega
  · exact accounted.positive
  · intro other member
    obtain ⟨budget, found⟩ := accounted.funded other member
    simp only [Table.find?_insert inserted]
    split
    next => exact ⟨row, rfl⟩
    next => exact ⟨budget, found⟩

/-- One budget changes its two columns by as much as the sums of its reservations change. -/
theorem move (accounted : Accounted budgets reservations) {after : Reservations}
    {tenantId budgetId : String} {budget : BudgetRow} (reserved consumed : Int)
    {change : BudgetRow → BudgetRow} {same : ∀ row, (change row).key = row.key}
    (found : budgets.find? (tenantId, budgetId) = some budget)
    (changes : ∀ row, (change row).reservedUnits = row.reservedUnits + reserved ∧
      (change row).consumedUnits = row.consumedUnits + consumed ∧
      (change row).limitUnits = row.limitUnits)
    (sums : ∀ tenant name,
      unitsIn after .reserved tenant name = unitsIn reservations .reserved tenant name +
        (if tenantId = tenant ∧ budgetId = name then reserved else 0) ∧
      unitsIn after .consumed tenant name = unitsIn reservations .consumed tenant name +
        (if tenantId = tenant ∧ budgetId = name then consumed else 0))
    (room : reserved + consumed ≤ budget.limitUnits - budget.reservedUnits - budget.consumedUnits)
    (rows : ∀ row ∈ after.rows, 0 < row.units ∧ ((row.tenantId, row.budgetId) = (tenantId, budgetId) ∨
      ∃ old ∈ reservations.rows, (row.tenantId, row.budgetId) = (old.tenantId, old.budgetId))) :
    Accounted (budgets.updateAt (tenantId, budgetId) change same) after := by
  have kept : ∀ row, (change row).tenantId = row.tenantId ∧ (change row).budgetId = row.budgetId :=
    fun row => Prod.mk.inj (same row)
  constructor
  · intro row member
    obtain ⟨old, present, rfl⟩ := Table.mem_update.mp member
    have before := accounted.reserved old present
    by_cases keyed : old.key = (tenantId, budgetId)
    · obtain ⟨rfl, rfl⟩ := Prod.mk.inj keyed
      simp [(changes old).1, (kept old).1, (kept old).2, (sums _ _).1, before]
    · have other : ¬(tenantId = old.tenantId ∧ budgetId = old.budgetId) := fun equal =>
        keyed (by simp [equal.1, equal.2])
      rw [if_neg (by simpa using keyed), (sums _ _).1, if_neg other, before, Int.add_zero]
  · intro row member
    obtain ⟨old, present, rfl⟩ := Table.mem_update.mp member
    have before := accounted.consumed old present
    by_cases keyed : old.key = (tenantId, budgetId)
    · obtain ⟨rfl, rfl⟩ := Prod.mk.inj keyed
      simp [(changes old).2.1, (kept old).1, (kept old).2, (sums _ _).2, before]
    · have other : ¬(tenantId = old.tenantId ∧ budgetId = old.budgetId) := fun equal =>
        keyed (by simp [equal.1, equal.2])
      rw [if_neg (by simpa using keyed), (sums _ _).2, if_neg other, before, Int.add_zero]
  · intro row member
    obtain ⟨old, present, rfl⟩ := Table.mem_update.mp member
    have before := accounted.bounded old present
    split
    next keyed =>
      have equal : old = budget := by
        have other := Table.find?_eq_some.mpr ⟨present, of_decide_eq_true keyed⟩
        rw [found] at other
        exact (Option.some.inj other).symm
      subst equal
      obtain ⟨first, second, limit⟩ := changes old
      omega
    next => exact before
  · exact fun row member => (rows row member).1
  · intro row member
    have funds : ∀ k, (∃ row, budgets.find? k = some row) →
        ∃ row, (budgets.updateAt (tenantId, budgetId) change same).find? k = some row := by
      rintro k ⟨row, present⟩
      rw [Table.updateAt, Table.find?_update, present]
      exact ⟨_, rfl⟩
    apply funds
    obtain own | ⟨old, present, equal⟩ := (rows row member).2
    · exact ⟨budget, by rw [own]; exact found⟩
    · rw [equal]
      exact accounted.funded old present

theorem hold (accounted : Accounted budgets reservations) {after : Reservations} {row : ReservationRow}
    {budget : BudgetRow} {change : BudgetRow → BudgetRow}
    (inserted : reservations.insert row = some after) (reserved : row.status = .reserved)
    (positive : 0 < row.units) (found : budgets.find? (row.tenantId, row.budgetId) = some budget)
    (room : row.units ≤ budget.limitUnits - budget.reservedUnits - budget.consumedUnits)
    (changes : ∀ old, (change old).reservedUnits = old.reservedUnits + row.units ∧
      (change old).consumedUnits = old.consumedUnits ∧ (change old).limitUnits = old.limitUnits)
    (same : ∀ row, (change row).key = row.key := by exact fun _ => rfl) :
    Accounted (budgets.updateAt (row.tenantId, row.budgetId) change same) after := by
  obtain ⟨_, rows⟩ := Table.insert_eq_some.mp inserted
  refine accounted.move row.units 0 found (by simpa using changes) ?_
    (by simpa using room) ?_
  · intro tenant name
    constructor
    · rw [unitsIn, Table.total_append _ rows]
      simp [ReservationRow.unitsFor, reserved, unitsIn]
    · rw [unitsIn, Table.total_append _ rows]
      simp [ReservationRow.unitsFor, reserved, unitsIn]
  · intro other member
    simp only [rows, List.mem_append, List.mem_singleton] at member
    obtain member | rfl := member
    · exact ⟨accounted.positive other member, .inr ⟨other, member, rfl⟩⟩
    · exact ⟨positive, .inl rfl⟩

/-- A held reservation is consumed or released, once. -/
theorem settle (accounted : Accounted budgets reservations) {row : ReservationRow}
    {target : ReservationStatus} {time : Int} {k : String × String × String}
    {change : BudgetRow → BudgetRow} (found : reservations.find? k = some row) (held : row.status = .reserved)
    (moving : target ≠ .reserved)
    (changes : ∀ old, (change old).reservedUnits = old.reservedUnits - row.units ∧
      (change old).consumedUnits = old.consumedUnits + (if target = .consumed then row.units else 0) ∧
      (change old).limitUnits = old.limitUnits)
    (same : ∀ row, (change row).key = row.key := by exact fun _ => rfl) :
    Accounted (budgets.updateAt (row.tenantId, row.budgetId) change same)
      (reservations.updateAt k (fun row => { row with status := target, updatedAt := time })
        fun _ => rfl) := by
  have member := (Table.find?_eq_some.mp found).1
  have positive := accounted.positive row member
  obtain ⟨budget, funded⟩ := accounted.funded row member
  have bounded := accounted.bounded budget (Table.find?_eq_some.mp funded).1
  refine accounted.move (-row.units) (if target = .consumed then row.units else 0) funded
    (by simpa [Int.sub_eq_add_neg] using changes) ?_ (by split <;> omega) ?_
  · intro tenant name
    constructor
    · rw [unitsIn, Table.total_updateAt _ found]
      simp only [ReservationRow.unitsFor, moving, held, and_false, if_false, unitsIn, and_true]
      split <;> omega
    · rw [unitsIn, Table.total_updateAt _ found]
      simp only [ReservationRow.unitsFor, held, reduceCtorEq, and_false, if_false, unitsIn]
      by_cases consumed : target = .consumed
      · simp [consumed]
      · simp [consumed]
  · intro other present
    obtain ⟨old, before, rfl⟩ := Table.mem_update.mp present
    refine ⟨?_, .inr ⟨old, before, ?_⟩⟩
    · have := accounted.positive old before
      split <;> exact this
    · split <;> rfl

/-- Recovery releases every held reservation, so that the reserved sums are zero. -/
theorem releaseAll (accounted : Accounted budgets reservations) (time : Int) :
    Accounted
      (budgets.update (fun row => 0 < row.reservedUnits) (fun row =>
        { row with reservedUnits := 0, version := row.version + 1, updatedAt := time }) fun _ => rfl)
      (reservations.update (fun row => row.status = .reserved) (fun row =>
        { row with status := .released, updatedAt := time }) fun _ => rfl) := by
  constructor
  · intro row member
    obtain ⟨old, present, rfl⟩ := Table.mem_update.mp member
    have before := accounted.reserved old present
    have nonneg := accounted.units_nonneg .reserved old.tenantId old.budgetId
    rw [unitsIn, Table.total_update, Table.total_zero]
    · split
      next => rfl
      next low =>
        simp only [decide_eq_true_eq, not_lt] at low
        omega
    · intro reservation _
      by_cases held : reservation.status = .reserved <;> simp [ReservationRow.unitsFor, held]
  · intro row member
    obtain ⟨old, present, rfl⟩ := Table.mem_update.mp member
    have before := accounted.consumed old present
    have sums : unitsIn (reservations.update (fun row => row.status = .reserved) (fun row =>
        { row with status := .released, updatedAt := time }) fun _ => rfl)
        .consumed old.tenantId old.budgetId =
        unitsIn reservations .consumed old.tenantId old.budgetId := by
      rw [unitsIn, Table.total_update]
      apply Table.total_congr
      intro reservation _
      by_cases held : reservation.status = .reserved <;> simp [ReservationRow.unitsFor, held]
    split <;> exact before.trans sums.symm
  · intro row member
    obtain ⟨old, present, rfl⟩ := Table.mem_update.mp member
    have before := accounted.bounded old present
    split
    next high =>
      simp only [decide_eq_true_eq] at high
      simp only
      omega
    next => exact before
  · intro row member
    obtain ⟨old, present, rfl⟩ := Table.mem_update.mp member
    have before := accounted.positive old present
    split <;> exact before
  · intro row member
    obtain ⟨old, present, rfl⟩ := Table.mem_update.mp member
    obtain ⟨budget, found⟩ := accounted.funded old present
    have kept : ∃ budget, (budgets.update (fun row => 0 < row.reservedUnits) (fun row =>
        { row with reservedUnits := 0, version := row.version + 1, updatedAt := time })
        fun _ => rfl).find? (old.tenantId, old.budgetId) = some budget := by
      rw [Table.find?_update, found]
      exact ⟨_, rfl⟩
    split <;> exact kept

end Accounted

/-! What time does to the two tables: budgets only spend, reservations only settle. -/

def ReservationRow.settlesTo (before after : ReservationRow) : Prop :=
  after.units = before.units ∧
    (after.status = before.status ∨ (before.status = .reserved ∧ after.status ≠ .reserved))

def BudgetRow.spendsTo (before after : BudgetRow) : Prop :=
  after.limitUnits = before.limitUnits ∧ before.consumedUnits ≤ after.consumedUnits

theorem BudgetRow.spends_refl (row : BudgetRow) : row.spendsTo row := ⟨rfl, le_refl _⟩

theorem BudgetRow.spends_trans {a b c : BudgetRow} (one : a.spendsTo b) (two : b.spendsTo c) :
    a.spendsTo c := ⟨two.1.trans one.1, one.2.trans two.2⟩

theorem ReservationRow.settles_refl (row : ReservationRow) : row.settlesTo row := ⟨rfl, .inl rfl⟩

theorem ReservationRow.settles_trans {a b c : ReservationRow} (one : a.settlesTo b)
    (two : b.settlesTo c) : a.settlesTo c := by
  refine ⟨two.1.trans one.1, ?_⟩
  rcases one.2 with same | ⟨held, settled⟩
  · rw [← same]
    exact two.2
  · rcases two.2 with same | ⟨again, _⟩
    · exact .inr ⟨held, same ▸ settled⟩
    · exact absurd again settled

structure Forward (before after : Db) : Prop where
  budgets : before.budgets.Evolves BudgetRow.spendsTo after.budgets
  reservations : before.reservations.Evolves ReservationRow.settlesTo after.reservations

theorem Forward.refl (db : Db) : Forward db db :=
  ⟨.refl BudgetRow.spends_refl _, .refl ReservationRow.settles_refl _⟩

theorem Forward.trans {first second third : Db} (one : Forward first second)
    (two : Forward second third) : Forward first third :=
  ⟨.trans BudgetRow.spends_trans one.budgets two.budgets,
    .trans ReservationRow.settles_trans one.reservations two.reservations⟩

def Db.inLedger (db : Db) : Prop := Accounted db.budgets db.reservations

theorem createBudget_kept {now : Int} {tenantId budgetId : String} {limitUnits : Int} {db after : Db}
    (ledger : db.inLedger) (ran : createBudget now tenantId budgetId limitUnits db = .ok ((), after)) :
    after.inLedger ∧ Forward db after := by
  rcases createBudget_cases ran with rfl | ⟨limit, absent, budgets, inserted, rfl⟩
  · exact ⟨ledger, .refl _⟩
  · exact ⟨ledger.open_budget inserted limit rfl rfl,
      Table.evolves_insert BudgetRow.spends_refl inserted, (Forward.refl db).reservations⟩

theorem reserveBudget_kept {now : Int} {tenantId budgetId reservationId : String} {units : Int}
    {db after : Db} {snapshot : BudgetSnapshot} (ledger : db.inLedger)
    (ran : reserveBudget now tenantId budgetId reservationId units db = .ok (snapshot, after)) :
    after.inLedger ∧ Forward db after := by
  rcases reserveBudget_cases ran with
    rfl | ⟨positive, absent, budget, found, room, reservations, inserted, rfl⟩
  · exact ⟨ledger, .refl _⟩
  · refine ⟨ledger.hold inserted rfl positive found room fun _ => ?_, ?_,
      Table.evolves_insert ReservationRow.settles_refl inserted⟩
    · exact ⟨rfl, rfl, rfl⟩
    · refine Table.evolves_updateAt BudgetRow.spends_refl fun row _ => ?_
      exact ⟨rfl, le_refl _⟩

theorem transitionReservation_kept {now : Int} {tenantId budgetId reservationId : String}
    {target : ReservationStatus} {db after : Db} {snapshot : BudgetSnapshot} (ledger : db.inLedger)
    (ran : transitionReservation now tenantId budgetId reservationId target db = .ok (snapshot, after)) :
    after.inLedger ∧ Forward db after := by
  rcases transitionReservation_cases ran with ⟨rfl, _⟩ | ⟨moving, row, found, held, rfl⟩
  · exact ⟨ledger, .refl _⟩
  · have keyed : row.key = (tenantId, budgetId, reservationId) := (Table.find?_eq_some.mp found).2
    obtain ⟨rfl, rest⟩ := Prod.mk.inj keyed
    obtain ⟨rfl, rfl⟩ := Prod.mk.inj rest
    have positive := ledger.positive row (Table.find?_eq_some.mp found).1
    refine ⟨ledger.settle found held moving fun _ => ?_, ?_, ?_⟩
    · exact ⟨rfl, rfl, rfl⟩
    · refine Table.evolves_updateAt BudgetRow.spends_refl fun budget _ => ?_
      refine ⟨rfl, ?_⟩
      simp only
      split <;> omega
    · refine Table.evolves_updateAt ReservationRow.settles_refl fun other present => ?_
      rw [found] at present
      obtain rfl := Option.some.inj present
      exact ⟨rfl, .inr ⟨held, moving⟩⟩

theorem reconcileStartup_kept {now : Int} {db after : Db} {report : RecoveryReport}
    (ledger : db.inLedger) (ran : reconcileStartup now db = .ok (report, after)) :
    after.inLedger ∧ Forward db after := by
  rw [reconcileStartup_cases ran]
  by_cases none : (db.reservations.rows.countP fun row => row.status = .reserved) = 0
  · simp only [none, if_true]
    exact ⟨ledger, (Forward.refl db).budgets, (Forward.refl db).reservations⟩
  · simp only [none, if_false]
    refine ⟨ledger.releaseAll now, Table.evolves_update fun row _ => ?_,
      Table.evolves_update fun row _ => ?_⟩
    · split <;> exact ⟨rfl, le_refl _⟩
    · split
      next held => exact ⟨rfl, .inr ⟨of_decide_eq_true held, nofun⟩⟩
      next => exact ⟨rfl, .inl rfl⟩

/-- Recovery finds no mismatch in a ledger that is in step. -/
theorem reconcileStartup_accounted {db : Db} (ledger : db.inLedger) :
    db.budgets.rows.all (BudgetRow.accounted db) = true := by
  rw [List.all_eq_true]
  intro row member
  simp only [BudgetRow.accounted, unitsWith_eq, Bool.and_eq_true]
  exact ⟨decide_eq_true (ledger.reserved row member), decide_eq_true (ledger.consumed row member)⟩

/-! Runs of calls. -/

inductive LedgerCall : Type
  | createBudget (tenantId budgetId : String) (limitUnits : Int)
  | reserveBudget (tenantId budgetId reservationId : String) (units : Int)
  | consumeBudget (tenantId budgetId reservationId : String)
  | releaseBudget (tenantId budgetId reservationId : String)
  | reconcileStartup

/-- What a call of the ledger returns: a budget, or the counts of the recovery. -/
abbrev LedgerReply := BudgetSnapshot ⊕ RecoveryReport

/-- One call at one clock reading. -/
def LedgerCall.run (now : Int) : LedgerCall → Db → Except PyError LedgerReply × Db
  | createBudget tenantId budgetId limitUnits =>
      -- `get_budget` is a read of its own, after the transaction.
      transact (AgentTree.createBudget now tenantId budgetId limitUnits) fun _ after =>
        (getBudget tenantId budgetId after).map .inl
  | reserveBudget tenantId budgetId reservationId units =>
      transact (AgentTree.reserveBudget now tenantId budgetId reservationId units) fun budget _ =>
        .ok (.inl budget)
  | consumeBudget tenantId budgetId reservationId =>
      transact (AgentTree.consumeBudget now tenantId budgetId reservationId) fun budget _ =>
        .ok (.inl budget)
  | releaseBudget tenantId budgetId reservationId =>
      transact (AgentTree.releaseBudget now tenantId budgetId reservationId) fun budget _ =>
        .ok (.inl budget)
  | reconcileStartup =>
      transact (AgentTree.reconcileStartup now) fun report _ => .ok (.inr report)

def runLedger (calls : List (Int × LedgerCall)) (db : Db) : Db :=
  calls.foldl (fun db call => (call.2.run call.1 db).2) db

theorem LedgerCall.run_kept (now : Int) (call : LedgerCall) {db : Db} (ledger : db.inLedger) :
    (call.run now db).2.inLedger ∧ Forward db (call.run now db).2 := by
  let P := fun after => Db.inLedger after ∧ Forward db after
  have still : P db := ⟨ledger, .refl db⟩
  cases call with
  | createBudget tenantId budgetId limitUnits =>
      exact transact_kept P still fun _ _ ran => createBudget_kept ledger ran
  | reserveBudget tenantId budgetId reservationId units =>
      exact transact_kept P still fun _ _ ran => reserveBudget_kept ledger ran
  | consumeBudget tenantId budgetId reservationId =>
      exact transact_kept P still fun _ _ ran => transitionReservation_kept ledger ran
  | releaseBudget tenantId budgetId reservationId =>
      exact transact_kept P still fun _ _ ran => transitionReservation_kept ledger ran
  | reconcileStartup =>
      exact transact_kept P still fun _ _ ran => reconcileStartup_kept ledger ran

theorem runLedger_kept (calls : List (Int × LedgerCall)) {db : Db} (ledger : db.inLedger) :
    (runLedger calls db).inLedger ∧ Forward db (runLedger calls db) := by
  induction calls generalizing db with
  | nil => exact ⟨ledger, .refl db⟩
  | cons call rest ih =>
      have step := call.2.run_kept call.1 ledger
      have later := ih step.1
      exact ⟨later.1, step.2.trans later.2⟩

/-- The read after the transaction of `create_budget` finds the budget. -/
theorem createBudget_found {now : Int} {tenantId budgetId : String} {limitUnits : Int} {db after : Db}
    (ran : createBudget now tenantId budgetId limitUnits db = .ok ((), after)) :
    ∃ row, after.budgets.find? (tenantId, budgetId) = some row := by
  cases found : db.budgets.find? (tenantId, budgetId) with
  | some row =>
      rcases createBudget_cases ran with rfl | ⟨_, absent, _⟩
      · exact ⟨row, found⟩
      · rw [absent] at found
        simp at found
  | none =>
      simp only [createBudget, found, bind_eq_ok, pure_eq_ok, orRaise_eq_ok, Prod.mk.injEq] at ran
      obtain ⟨_, _, _, _, _, _, budgets, inserted, _, rfl⟩ := ran
      exact ⟨_, by rw [Table.find?_insert inserted, if_pos rfl]⟩

theorem LedgerCall.run_raises {now : Int} {call : LedgerCall} {db : Db} {error : PyError}
    (raised : (call.run now db).1 = .error error) : (call.run now db).2 = db := by
  cases call with
  | createBudget tenantId budgetId limitUnits =>
      refine transact_raises (fun _ after ran => ?_) raised
      obtain ⟨row, found⟩ := createBudget_found ran
      exact ⟨.inl row.snapshot, by simp [getBudget, orRaise, found, Except.map]⟩
  | reserveBudget _ _ _ _ | consumeBudget _ _ _ | releaseBudget _ _ _ | reconcileStartup =>
      exact transact_raises (fun _ _ _ => ⟨_, rfl⟩) raised

theorem reconcileStartup_never_mismatch {now : Int} {db : Db} (ledger : db.inLedger) :
    reconcileStartup now db ≠
      .error (.storeError "budget accounting mismatch; startup recovery aborted") := by
  have interruptedText : jsonText interrupted = .ok interrupted := by decide +kernel
  simp only [reconcileStartup, interruptedText, reconcileStartup_accounted ledger, bind, Except.bind]
  -- The two sums may still leave the 64-bit range; that error is another one.
  cases db.budgets.rows.all (BudgetRow.summable db) <;> cases sumInRange db.heldUnits <;>
    simp [ensure, pure, Except.pure]

/-- Over every run of ledger calls on a new store, failed calls included: each
budget equals the sums of its reservations, nothing spent is given back, a
settled reservation stays as it is, and recovery never finds a mismatch. -/
theorem ledger_in_step (calls : List (Int × LedgerCall)) :
    (∀ row ∈ (runLedger calls Db.empty).budgets.rows,
      row.reservedUnits =
          (runLedger calls Db.empty).unitsWith .reserved row.tenantId row.budgetId ∧
        row.consumedUnits =
          (runLedger calls Db.empty).unitsWith .consumed row.tenantId row.budgetId ∧
        row.reservedUnits + row.consumedUnits ≤ row.limitUnits) ∧
    (∀ later, Forward (runLedger calls Db.empty) (runLedger later (runLedger calls Db.empty))) ∧
    (∀ now call error, (LedgerCall.run now call (runLedger calls Db.empty)).1 = .error error →
      (LedgerCall.run now call (runLedger calls Db.empty)).2 = runLedger calls Db.empty) ∧
    ∀ now, reconcileStartup now (runLedger calls Db.empty) ≠
      .error (.storeError "budget accounting mismatch; startup recovery aborted") := by
  have emptyLedger : Db.empty.inLedger := Accounted.empty
  have ledger := (runLedger_kept calls emptyLedger).1
  refine ⟨?_, ?_, ?_, ?_⟩
  · intro row member
    exact ⟨ledger.reserved row member, ledger.consumed row member, ledger.bounded row member⟩
  · exact fun later => (runLedger_kept later ledger).2
  · exact fun now call error raised => LedgerCall.run_raises raised
  · exact fun now => reconcileStartup_never_mismatch ledger

end AgentTree
