import AgentTree.StoreFrames

/-!
The lease table: what `acquire_lease`, `renew_lease` and `release_lease` can do to
one row, and when they raise.
-/

namespace AgentTree

open Outcome Relational

abbrev LeaseTable := Table _ _ LeaseRow.key

/-- The same grant with other times. -/
def LeaseRow.refreshes (before after : LeaseRow) : Prop :=
  after.holderId = before.holderId ∧ after.fencingToken = before.fencingToken

/-- The holder is gone and the token stays. -/
def LeaseRow.frees (before after : LeaseRow) : Prop :=
  after.holderId = none ∧ after.fencingToken = before.fencingToken

/-- A new grant on a row that is free or expired at `time`. -/
def LeaseRow.grants (time : Int) (before after : LeaseRow) : Prop :=
  (before.holderId = none ∨ before.expiresAt ≤ time) ∧ after.holderId.isSome = true ∧
    after.fencingToken = before.fencingToken + 1

theorem acquireLease_cases {now : Int} {tenantId resourceId holderId : String} {ttlSeconds : Int}
    {at? : Option Int} {db after : Db}
    (ran : acquireLease now tenantId resourceId holderId ttlSeconds at? db = .ok ((), after)) :
    (db.leases.find? (tenantId, resourceId) = none ∧ ∃ leases, db.leases.insert {
        tenantId, resourceId
        holderId := some holderId
        fencingToken := 1
        acquiredAt := at?.getD now
        heartbeatAt := at?.getD now
        expiresAt := at?.getD now + ttlSeconds } = some leases ∧ after = { db with leases }) ∨
    (∃ row, db.leases.find? (tenantId, resourceId) = some row ∧
      row.holderId = some holderId ∧ at?.getD now < row.expiresAt ∧
      after = { db with
        leases := db.leases.updateAt (tenantId, resourceId) (fun row => { row with
          heartbeatAt := at?.getD now
          expiresAt := at?.getD now + ttlSeconds }) fun _ => rfl }) ∨
    (∃ row, db.leases.find? (tenantId, resourceId) = some row ∧
      (row.holderId = none ∨ row.expiresAt ≤ at?.getD now) ∧
      after = { db with
        leases := db.leases.updateAt (tenantId, resourceId) (fun row => { row with
          holderId := some holderId
          fencingToken := row.fencingToken + 1
          acquiredAt := at?.getD now
          heartbeatAt := at?.getD now
          expiresAt := at?.getD now + ttlSeconds }) fun _ => rfl }) := by
  simp only [acquireLease, bind_eq_ok] at ran
  obtain ⟨_, _, _, _, time, stamp, ran⟩ := ran
  obtain rfl : time = at?.getD now := by
    unfold timestamp at stamp
    split at stamp
    · exact (Except.ok.inj stamp).symm
    · simp at stamp
  split at ran
  next absent =>
    simp only [bind_eq_ok, pure_eq_ok, orRaise_eq_ok, Prod.mk.injEq] at ran
    obtain ⟨_, _, _, _, leases, inserted, _, rfl⟩ := ran
    exact .inl ⟨absent, leases, inserted, rfl⟩
  next row found =>
    split at ran
    next own =>
      simp only [bind_eq_ok, pure_eq_ok, Prod.mk.injEq] at ran
      obtain ⟨_, _, _, rfl⟩ := ran
      exact .inr (.inl ⟨row, found, own.1, own.2, rfl⟩)
    next =>
      split at ran
      next free =>
        simp only [bind_eq_ok, pure_eq_ok, Prod.mk.injEq] at ran
        obtain ⟨_, _, _, _, _, _, _, rfl⟩ := ran
        exact .inr (.inr ⟨row, found, free, rfl⟩)
      next => simp at ran

theorem renewLease_cases {now : Int} {tenantId resourceId holderId : String}
    {fencingToken ttlSeconds : Int} {at? : Option Int} {db after : Db}
    (ran : renewLease now tenantId resourceId holderId fencingToken ttlSeconds at? db = .ok ((), after)) :
    ∃ row, db.leases.find? (tenantId, resourceId) = some row ∧ row.holderId = some holderId ∧
      row.fencingToken = fencingToken ∧ at?.getD now < row.expiresAt ∧
      after = { db with
        leases := db.leases.updateAt (tenantId, resourceId) (fun row => { row with
          heartbeatAt := at?.getD now
          expiresAt := at?.getD now + ttlSeconds }) fun _ => rfl } := by
  simp only [renewLease, bind_eq_ok, orRaise_eq_ok, ensure_eq_ok, Bool.and_eq_true, decide_eq_true_eq,
    pure_eq_ok, Prod.mk.injEq] at ran
  obtain ⟨_, _, time, stamp, _, _, _, _, _, _, row, found, _, ⟨⟨held, token⟩, live⟩, _, rfl⟩ := ran
  obtain rfl : time = at?.getD now := by
    unfold timestamp at stamp
    split at stamp
    · exact (Except.ok.inj stamp).symm
    · simp at stamp
  exact ⟨row, found, held, token, live, rfl⟩

theorem releaseLease_cases {now : Int} {tenantId resourceId holderId : String} {fencingToken : Int}
    {db after : Db}
    (ran : releaseLease now tenantId resourceId holderId fencingToken db = .ok ((), after)) :
    ∃ row, db.leases.find? (tenantId, resourceId) = some row ∧ row.holderId = some holderId ∧
      row.fencingToken = fencingToken ∧
      after = { db with
        leases := db.leases.updateAt (tenantId, resourceId) (fun row =>
          { row with holderId := none, heartbeatAt := now, expiresAt := now }) fun _ => rfl } := by
  simp only [releaseLease, bind_eq_ok, orRaise_eq_ok, ensure_eq_ok, Bool.and_eq_true,
    decide_eq_true_eq, pure_eq_ok, Prod.mk.injEq] at ran
  obtain ⟨_, _, row, found, _, ⟨held, token⟩, _, rfl⟩ := ran
  exact ⟨row, found, held, token, rfl⟩

/-- A live lease of another holder is not to be had. -/
theorem acquireLease_excluded {now : Int} {tenantId resourceId holderId : String} {ttlSeconds : Int}
    {at? : Option Int} {db : Db} {row : LeaseRow} {holder : String}
    (found : db.leases.find? (tenantId, resourceId) = some row) (held : row.holderId = some holder)
    (live : at?.getD now < row.expiresAt) (other : holderId ≠ holder) :
    ∃ error, acquireLease now tenantId resourceId holderId ttlSeconds at? db = .error error := by
  cases ran : acquireLease now tenantId resourceId holderId ttlSeconds at? db with
  | error error => exact ⟨error, rfl⟩
  | ok result =>
      obtain ⟨⟨⟩, after⟩ := result
      rcases acquireLease_cases ran with ⟨absent, _⟩ | ⟨same, present, own, _⟩ | ⟨same, present, free, _⟩
      · rw [found] at absent
        simp at absent
      · rw [found] at present
        obtain rfl := Option.some.inj present
        rw [held] at own
        exact absurd (Option.some.inj own).symm other
      · rw [found] at present
        obtain rfl := Option.some.inj present
        rcases free with none | expired
        · rw [held] at none
          simp at none
        · omega

/-- What one transaction can do to the row of a lease. -/
inductive LeaseMove : Option LeaseRow → Option LeaseRow → Prop
  | same (row) : LeaseMove row row
  | refreshed {before after} : before.refreshes after → LeaseMove (some before) (some after)
  | freed {before after} : before.frees after → LeaseMove (some before) (some after)
  | granted {before after} (time) : before.grants time after → LeaseMove (some before) (some after)
  | first {after} : after.holderId.isSome = true → after.fencingToken = 1 → LeaseMove none (some after)

/-- The token of a lease; a lease that was never granted has none yet. -/
def leaseToken (row : Option LeaseRow) : Int := row.elim 0 LeaseRow.fencingToken

theorem LeaseMove.token {before after : Option LeaseRow} (move : LeaseMove before after) :
    leaseToken before ≤ leaseToken after := by
  cases move with
  | same => exact le_refl _
  | refreshed moved => exact moved.2.ge
  | freed moved => exact moved.2.ge
  | granted time moved =>
      have := moved.2.2
      simp only [leaseToken, Option.elim]
      omega
  | first _ one => simp [leaseToken, one]

/-- The moves of all leases. -/
def LeaseMoves (before after : Db) : Prop :=
  ∀ k, LeaseMove (before.leases.find? k) (after.leases.find? k)

theorem LeaseMoves.of_equal {before after : Db} (same : after.leases = before.leases) :
    LeaseMoves before after := fun _ => same ▸ .same _

/-- A change of one row moves no other lease. -/
theorem leaseMoves_updateAt {db : Db} {key : String × String} {change : LeaseRow → LeaseRow}
    {same : ∀ row, (change row).key = row.key} {row : LeaseRow}
    (found : db.leases.find? key = some row) (move : LeaseMove (some row) (some (change row))) :
    LeaseMoves db { db with
      leases := db.leases.updateAt key change same } := by
  intro k
  simp only [Table.find?_updateAt]
  split
  next equal =>
    subst equal
    rw [found]
    exact move
  next => exact .same _

theorem acquireLease_moves {now : Int} {tenantId resourceId holderId : String} {ttlSeconds : Int}
    {at? : Option Int} {db after : Db}
    (ran : acquireLease now tenantId resourceId holderId ttlSeconds at? db = .ok ((), after)) :
    LeaseMoves db after ∧ ∃ leases, after = { db with leases } := by
  rcases acquireLease_cases ran with ⟨absent, leases, inserted, rfl⟩ | ⟨row, found, own, live, rfl⟩ |
    ⟨row, found, free, rfl⟩
  · refine ⟨fun k => ?_, _, rfl⟩
    simp only
    rw [Table.find?_insert inserted]
    split
    next equal =>
      subst equal
      rw [absent]
      exact .first rfl rfl
    next => exact .same _
  · exact ⟨leaseMoves_updateAt found (.refreshed ⟨rfl, rfl⟩), _, rfl⟩
  · exact ⟨leaseMoves_updateAt found (.granted _ ⟨free, rfl, rfl⟩), _, rfl⟩

theorem renewLease_moves {now : Int} {tenantId resourceId holderId : String}
    {fencingToken ttlSeconds : Int} {at? : Option Int} {db after : Db}
    (ran : renewLease now tenantId resourceId holderId fencingToken ttlSeconds at? db = .ok ((), after)) :
    LeaseMoves db after ∧ ∃ leases, after = { db with leases } := by
  obtain ⟨row, found, _, _, _, rfl⟩ := renewLease_cases ran
  exact ⟨leaseMoves_updateAt found (.refreshed ⟨rfl, rfl⟩), _, rfl⟩

theorem releaseLease_moves {now : Int} {tenantId resourceId holderId : String} {fencingToken : Int}
    {db after : Db}
    (ran : releaseLease now tenantId resourceId holderId fencingToken db = .ok ((), after)) :
    LeaseMoves db after ∧ ∃ leases, after = { db with leases } := by
  obtain ⟨row, found, _, _, rfl⟩ := releaseLease_cases ran
  exact ⟨leaseMoves_updateAt found (.freed ⟨rfl, rfl⟩), _, rfl⟩

end AgentTree
