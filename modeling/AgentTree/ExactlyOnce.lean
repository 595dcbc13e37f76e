import AgentTree.ControlRuns

/-!
Exactly-once operations: one idempotency key, followed through any number of
concurrent calls with exceptions, kills and recoveries.

The key moves from absent to in progress, when one call claims it, and from there
to completed or failed.  Only the owner moves it on; `Rely` says what a call sees
of the others.
-/

namespace AgentTree

open Outcome Relational Concurrent

def Note.startedFor (k : OperationKey) : Note → Option (Nat × Json)
  | .started call key request => if key = k then some (call, request) else none
  | .committed _ _ _ _ => none

def Note.committedFor (k : OperationKey) : Note → Option Json
  | .committed _ key response _ => if key = k then some response else none
  | .started _ _ _ => none

namespace World

/-- The idempotency record of the key. -/
def record (w : World) (k : OperationKey) : Option IdempotencyRow := w.db.idempotency.find? k.row

/-- The calls that entered the operation of the key, with their requests. -/
def started (w : World) (k : OperationKey) : List (Nat × Json) := w.notes.filterMap (Note.startedFor k)

/-- The responses of the state transactions of the key. -/
def committed (w : World) (k : OperationKey) : List Json := w.notes.filterMap (Note.committedFor k)

def owner (w : World) (k : OperationKey) : Option Nat := (w.started k).head?.map Prod.fst

/-- All that the statements say of one key. -/
def view (w : World) (k : OperationKey) : Option IdempotencyRow × List (Nat × Json) × List Json :=
  (w.record k, w.started k, w.committed k)

/-- The 24 hours of the record have not elapsed. -/
def Current (w : World) (k : OperationKey) : Prop :=
  ∀ row, w.record k = some row → row.expiresAt.all (w.clock ≤ ·) = true

end World

/-- The status of a record, its result and the responses committed under its key. -/
def IdempotencyRow.Settles (row : IdempotencyRow) (responses : List Json) : Prop :=
  match row.status with
  | .completed => ∃ response, responses = [response] ∧ row.result = some response.canonical
  | .inProgress | .failed => responses = []

section Key

variable (store : Store) (calls : Nat → Call) (k : OperationKey)

inductive Consistent (w : World) : Prop
  | absent : w.record k = none → w.started k = [] → w.committed k = [] → Consistent w
  | claimed {row owner} : w.record k = some row →
      w.started k = [(owner, (calls owner).payload)] → (calls owner).key = k →
      row.requestHash = store.sha256Hex (calls owner).payload → row.Settles (w.committed k) →
      Consistent w

/-- The invariant of one key. -/
structure KeyInv (w : World) : Prop where
  consistent : Consistent store calls k w
  current : w.Current k

/-- What call `i` sees of the others. -/
structure Rely (i : Nat) (s t : World) : Prop where
  own : s.owner k = some i ∨ t.owner k = some i → t.view k = s.view k
  kept : ∀ row, s.record k = some row → ∃ later, t.record k = some later ∧
    later.requestHash = row.requestHash ∧ (row.status ≠ .inProgress → later = row)

def Guar (i : Nat) (s t : World) : Prop := ∀ j, j ≠ i → Rely k j s t

/-- Call `i` has not left the key in progress. -/
def Settled (i : Nat) (w : World) : Prop :=
  w.owner k = some i → ∀ row, w.record k = some row → row.status ≠ .inProgress

/-- The response of call `i` is the stored one, and the record is of its request. -/
def Returned (i : Nat) (response : Json) (w : World) : Prop :=
  ∃ row, w.record k = some row ∧ row.status = .completed ∧
    row.result.map Json.canonical = some response.canonical ∧
    row.requestHash = store.sha256Hex (calls i).payload

structure Exit (i : Nat) (result : Except PyError Json) (w : World) : Prop where
  settled : Settled k i w
  returned : (calls i).key = k → ∀ response, result = .ok response →
    Returned store calls k i response w

/-- Inside the operation of the owner: in progress, or completed with one response. -/
def Phase (i : Nat) (w : World) : Option Json → Prop
  | none => w.owner k = some i ∧ ∃ row, w.record k = some row ∧ row.status = .inProgress
  | some response => w.owner k = some i ∧ ∃ row, w.record k = some row ∧ row.status = .completed ∧
      row.result = some response.canonical

end Key

section Rules

variable {store : Store} {calls : Nat → Call} {k : OperationKey} {i : Nat} {s t u w : World}

theorem owner_view (same : t.view k = s.view k) : t.owner k = s.owner k := by
  have started : t.started k = s.started k := (Prod.mk.inj (Prod.mk.inj same).2).1
  rw [World.owner, World.owner, started]

theorem record_view (same : t.view k = s.view k) : t.record k = s.record k := (Prod.mk.inj same).1

theorem Rely.of_view (same : t.view k = s.view k) : Rely k i s t :=
  ⟨fun _ => same, fun row found => ⟨row, (record_view same).trans found, rfl, fun _ => rfl⟩⟩

theorem Rely.refl (s : World) : Rely k i s s := .of_view rfl

theorem Rely.trans (one : Rely k i s t) (two : Rely k i t u) : Rely k i s u := by
  constructor
  · rintro (first | last)
    · have same := one.own (.inl first)
      exact (two.own (.inl ((owner_view same).trans first))).trans same
    · have same := two.own (.inr last)
      exact same.trans (one.own (.inr ((owner_view same).symm.trans last)))
  · intro row found
    obtain ⟨middle, present, hash, still⟩ := one.kept row found
    obtain ⟨later, there, sameHash, stays⟩ := two.kept middle present
    refine ⟨later, there, sameHash.trans hash, fun final => ?_⟩
    obtain rfl := still final
    exact stays final

theorem Consistent.of_view (same : t.view k = s.view k) (consistent : Consistent store calls k s) :
    Consistent store calls k t := by
  obtain ⟨record, rest⟩ := Prod.mk.inj same
  obtain ⟨started, committed⟩ := Prod.mk.inj rest
  cases consistent with
  | absent none fresh silent =>
      exact .absent (record.trans none) (started.trans fresh) (committed.trans silent)
  | claimed found owned keyed hash settles =>
      exact .claimed (record.trans found) (started.trans owned) keyed hash (committed ▸ settles)

theorem Settled.stable (relied : Rely k i s t) (settled : Settled k i s) : Settled k i t := by
  intro owned row found
  have same := relied.own (.inr owned)
  exact settled ((owner_view same).symm.trans owned) row ((record_view same).symm.trans found)

theorem Returned.stable {response : Json} (relied : Rely k i s t)
    (returned : Returned store calls k i response s) : Returned store calls k i response t := by
  obtain ⟨row, found, completed, result, hash⟩ := returned
  obtain ⟨later, present, _, still⟩ := relied.kept row found
  obtain rfl := still (by simp [completed])
  exact ⟨_, present, completed, result, hash⟩

theorem Exit.stable {result : Except PyError Json} (relied : Rely k i s t)
    (exit : Exit store calls k i result s) : Exit store calls k i result t :=
  ⟨exit.settled.stable relied, fun keyed response same => (exit.returned keyed response same).stable relied⟩

theorem Phase.owner {state : Option Json} (phase : Phase k i w state) : w.owner k = some i := by
  cases state <;> exact phase.1

theorem Phase.stable {state : Option Json} (relied : Rely k i s t) (phase : Phase k i s state) :
    Phase k i t state := by
  have owned := phase.owner
  have same := relied.own (.inl owned)
  have owner := owner_view same
  have record := record_view same
  cases state with
  | none => exact ⟨owner.trans owned, by simpa [record] using phase.2⟩
  | some response => exact ⟨owner.trans owned, by simpa [record] using phase.2⟩

theorem Consistent.running {row : IdempotencyRow} (consistent : Consistent store calls k w)
    (found : w.record k = some row) (running : row.status = .inProgress) :
    ∃ owner, w.started k = [(owner, (calls owner).payload)] ∧ (calls owner).key = k ∧
      row.requestHash = store.sha256Hex (calls owner).payload ∧ w.committed k = [] := by
  cases consistent with
  | absent none _ _ =>
      rw [found] at none
      simp at none
  | claimed present started keyed hash settles =>
      rw [found] at present
      obtain rfl := Option.some.inj present
      exact ⟨_, started, keyed, hash, by simpa [IdempotencyRow.Settles, running] using settles⟩

/-- The owner's record is of the owner's request. -/
theorem Consistent.owned (consistent : Consistent store calls k w) (owned : w.owner k = some i) :
    ∃ row, w.record k = some row ∧ row.requestHash = store.sha256Hex (calls i).payload := by
  cases consistent with
  | absent _ started _ => simp [World.owner, started] at owned
  | claimed found started _ hash _ =>
      obtain rfl : _ = i := by simpa [World.owner, started] using owned
      exact ⟨_, found, hash⟩

/-- Two steps of different calls: what one guarantees is what the other relies on. -/
theorem Guar.of_view (same : t.view k = s.view k) : Guar k i s t := fun _ _ => .of_view same

/-- The owner moves the record of the key. -/
theorem Guar.of_owner (owned : t.owner k = some i) (unowned : s.owner k = none ∨ s.owner k = some i)
    (kept : ∀ row, s.record k = some row → ∃ later, t.record k = some later ∧
      later.requestHash = row.requestHash ∧ (row.status ≠ .inProgress → later = row)) :
    Guar k i s t := by
  refine fun j other => ⟨?_, kept⟩
  rintro (first | last)
  · rcases unowned with none | own
    · rw [none] at first
      simp at first
    · rw [own] at first
      exact absurd (Option.some.inj first).symm other
  · rw [owned] at last
    exact absurd (Option.some.inj last).symm other

/-- The owner finishes its record. -/
theorem KeyInv.finish {row final : IdempotencyRow} (inv : KeyInv store calls k s)
    (owned : s.owner k = some i) (found : s.record k = some row) (running : row.status = .inProgress)
    (record : t.record k = some final) (started : t.started k = s.started k) (clock : t.clock = s.clock)
    (hash : final.requestHash = row.requestHash) (expiry : final.expiresAt = row.expiresAt)
    (settles : final.Settles (t.committed k)) :
    KeyInv store calls k t ∧ Guar k i s t ∧ t.owner k = some i := by
  obtain ⟨owner, once, keyed, digest, _⟩ := inv.consistent.running found running
  have sameOwner : t.owner k = some i := by rw [World.owner, started]; exact owned
  refine ⟨⟨.claimed record (started.trans once) keyed (hash.trans digest) settles, ?_⟩,
    .of_owner sameOwner (.inr owned) ?_, sameOwner⟩
  · intro other present
    obtain rfl := Option.some.inj (record.symm.trans present)
    rw [expiry, clock]
    exact inv.current row found
  · intro other present
    obtain rfl := Option.some.inj (found.symm.trans present)
    exact ⟨final, record, hash, fun done => absurd running done⟩

/-- The key's record outlives the deletion of expired records. -/
theorem find_unexpired (current : w.Current k) :
    (w.db.unexpired w.clock).find? k.row = w.record k := by
  rw [Db.unexpired, Table.find?_delete]
  cases found : w.db.idempotency.find? k.row with
  | none => simp [World.record, found]
  | some row =>
      have alive := current row found
      have kept : row.expiresAt.any (· < w.clock) = false := by
        cases expiry : row.expiresAt with
        | none => rfl
        | some time => simpa [expiry] using alive
      simp [World.record, found, kept]

theorem KeyInv.of_view (same : t.view k = s.view k) (clock : t.clock = s.clock)
    (inv : KeyInv store calls k s) : KeyInv store calls k t := by
  refine ⟨inv.consistent.of_view same, fun row found => ?_⟩
  rw [clock]
  exact inv.current row ((record_view same).symm.trans found)

end Rules

/-! The steps of a call and the key. -/

section Steps

variable {Model : Type} {plane : ControlPlane Model} {calls : Nat → Call} {k : OperationKey} {i : Nat}
  {call : Call} {w after : World}

open ControlPlane

theorem view_eq {s t : World} (idempotency : t.db.idempotency = s.db.idempotency)
    (notes : t.notes = s.notes) : t.view k = s.view k := by
  simp [World.view, World.record, World.started, World.committed, idempotency, notes]

theorem PlaneStep.view (step : PlaneStep call w after) :
    after.view k = w.view k ∧ after.clock = w.clock := by
  obtain ⟨apart, notes, clock⟩ := ControlPlane.PlaneStep.apart step
  exact ⟨view_eq apart.idempotency notes, clock⟩

theorem row_ne {key : OperationKey} (other : key ≠ k) : k.row ≠ key.row := by
  intro same
  obtain ⟨tenant, rest⟩ := Prod.mk.inj same
  obtain ⟨scope, name⟩ := Prod.mk.inj rest
  exact other (by cases key; cases k; simp_all)

/-- The steps of a call under another key do not touch this one. -/
theorem WrapperStep.foreign (other : call.key ≠ k) (current : w.Current k)
    (step : plane.WrapperStep i call w after) : after.view k = w.view k ∧ after.clock = w.clock := by
  cases step with
  | operation step => exact PlaneStep.view step
  | @claimed record db note claimed remarks =>
      have silent : ∀ remarks' : List Note, (∀ remark ∈ remarks', remark ∈ note) →
          remarks'.filterMap (Note.startedFor k) = [] ∧
            remarks'.filterMap (Note.committedFor k) = [] := by
        intro remarks' included
        simp only [List.filterMap_eq_nil_iff]
        exact ⟨fun remark member => by simp [remarks remark (included remark member), Note.startedFor, other],
          fun remark member => by simp [remarks remark (included remark member), Note.committedFor]⟩
      have quiet := silent (if record.isNew then note else []) (by split <;> simp)
      refine ⟨?_, rfl⟩
      simp only [World.view, World.started, World.committed, List.filterMap_append, quiet.1, quiet.2,
        List.append_nil, Prod.mk.injEq, and_true]
      rw [← find_unexpired current]
      rcases claimIdempotency_cases claimed with ⟨_, _, _, rfl⟩ | ⟨_, _, named, _, inserted, rfl⟩
      · rfl
      · simp only [World.record]
        rw [Table.find?_insert inserted, if_neg]
        rw [named]
        exact fun same => row_ne other same.symm
  | finished finished =>
      refine ⟨?_, rfl⟩
      obtain ⟨row, found, ⟨_, rfl⟩ | ⟨_, _, rfl⟩⟩ := finishIdempotency_cases finished
      · simp [World.view, World.record, World.started, World.committed, Table.find?_updateAt,
          row_ne other]
      · rfl

theorem CallStep.foreign (other : call.key ≠ k) (current : w.Current k)
    (step : plane.CallStep i call w after) : after.view k = w.view k ∧ after.clock = w.clock := by
  cases step with
  | wrapper step => exact WrapperStep.foreign other current step
  | committed step =>
      obtain ⟨body, listed, commit, middle, record, db, ran, completed, rfl⟩ := step
      have apart := StateBody.apart listed ran
      obtain ⟨row, found, ⟨_, rfl⟩ | ⟨_, _, rfl⟩⟩ := finishIdempotency_cases completed
      · simp [World.view, World.record, World.started, World.committed, Note.startedFor,
          Note.committedFor, other, Table.find?_updateAt, row_ne other, apart.idempotency]
      · simp [World.view, World.record, World.started, World.committed, Note.startedFor,
          Note.committedFor, other, apart.idempotency]

/-- The state transaction completes the record of its key. -/
theorem StateCommit.moves (keyed : (calls i).key = k) (inv : KeyInv plane.store calls k w)
    (phase : Phase k i w none) {response : Json} (step : plane.StateCommit i (calls i) response w after) :
    KeyInv plane.store calls k after ∧ Guar k i w after ∧ Phase k i after (some response) := by
  obtain ⟨body, listed, commit, middle, _, db, ran, completed, moved⟩ := step
  have apart := StateBody.apart listed ran
  obtain ⟨owned, row, found, running⟩ := phase
  obtain ⟨_, _, _, _, silent⟩ := inv.consistent.running found running
  subst keyed
  obtain ⟨other, present, ⟨_, rfl⟩ | ⟨finished, _, _⟩⟩ := finishIdempotency_cases completed
  · rw [apart.idempotency] at present
    obtain rfl := Option.some.inj (present.symm.trans found)
    have record : after.record (calls i).key = some { other with
        status := .completed
        result := some response.canonical
        updatedAt := w.clock } := by
      rw [moved, World.record, Table.find?_updateAt, if_pos rfl, apart.idempotency, present]
      rfl
    have started : after.started (calls i).key = w.started (calls i).key := by
      simp [moved, World.started, Note.startedFor]
    have committed : after.committed (calls i).key = [response] := by
      rw [World.committed] at silent
      simp [moved, World.committed, Note.committedFor, silent]
    have finished := inv.finish owned found running record started (by rw [moved]) rfl rfl
      ⟨response, committed, rfl⟩
    exact ⟨finished.1, finished.2.1, finished.2.2, _, record, rfl, rfl⟩
  · rw [apart.idempotency] at present
    obtain rfl := Option.some.inj (present.symm.trans found)
    rw [running] at finished
    simp at finished

/-- The error path of the wrapper marks a running record as failed. -/
theorem fail_moves (inv : KeyInv plane.store calls k w) (phase : Phase k i w none) {result : Json}
    {record : IdempotencyRecord} {db : Db} (moved : after = { w with db })
    (ran : failIdempotency w.clock k.tenantId k.scope k.key result w.db = .ok (record, db)) :
    KeyInv plane.store calls k after ∧ Guar k i w after ∧ Settled k i after := by
  obtain ⟨owned, row, found, running⟩ := phase
  obtain ⟨_, _, _, _, silent⟩ := inv.consistent.running found running
  obtain ⟨other, present, ⟨_, rfl⟩ | ⟨finished, _, _⟩⟩ := finishIdempotency_cases ran
  · obtain rfl := Option.some.inj (present.symm.trans found)
    have record : after.record k = some { other with
        status := .failed
        result := some result.canonical
        updatedAt := w.clock } := by
      rw [moved, World.record, Table.find?_updateAt, if_pos rfl, present]
      rfl
    have started : after.started k = w.started k := by simp [moved, World.started]
    have committed : after.committed k = [] := by
      rw [World.committed] at silent
      simp [moved, World.committed, silent]
    have finished := inv.finish owned found running record started (by rw [moved]) rfl rfl committed
    refine ⟨finished.1, finished.2.1, fun _ last there => ?_⟩
    obtain rfl := Option.some.inj (record.symm.trans there)
    simp
  · obtain rfl := Option.some.inj (present.symm.trans found)
    rw [running] at finished
    simp at finished

/-! The wrapper. -/

/-- The contract of one call about the key. -/
def keyContract (plane : ControlPlane Model) (calls : Nat → Call) (k : OperationKey) (i : Nat) :
    Contract World :=
  ⟨KeyInv plane.store calls k, Rely k i, Guar k i, .refl, .trans⟩

/-- The arguments pass the checks of a claim. -/
def Checked (k : OperationKey) (request : Json) : Prop :=
  required [("tenant_id", k.tenantId), ("scope", k.scope), ("key", k.key)] = .ok () ∧
    request.valid = true

/-- What a claim finds out: the call is the owner, or the record is someone else's. -/
def Claimed (store : Store) (calls : Nat → Call) (k : OperationKey) (i : Nat)
    (record : IdempotencyRecord) (w : World) : Prop :=
  (record.isNew = true ∧ Phase k i w none ∧ Checked k (calls i).payload) ∨
  (record.isNew = false ∧ w.owner k ≠ some i ∧
    record.row.requestHash = store.sha256Hex (calls i).payload ∧
    (record.row.status = .completed → w.record k = some record.row ∧
      record.row.result.map Json.canonical = record.row.result))

theorem Claimed.stable {store : Store} {record : IdempotencyRecord} {s t : World}
    (relied : Rely k i s t) (claimed : Claimed store calls k i record s) :
    Claimed store calls k i record t := by
  rcases claimed with ⟨fresh, phase, checked⟩ | ⟨old, unowned, hash, final⟩
  · exact .inl ⟨fresh, phase.stable relied, checked⟩
  · refine .inr ⟨old, fun owned => ?_, hash, fun completed => ?_⟩
    · exact unowned ((owner_view (relied.own (.inr owned))).symm.trans owned)
    · obtain ⟨found, canonical⟩ := final completed
      obtain ⟨later, present, _, still⟩ := relied.kept _ found
      obtain rfl := still (by simp [completed])
      exact ⟨present, canonical⟩

theorem Rely.unowned {s t : World} (relied : Rely k i s t) (unowned : s.owner k ≠ some i) :
    t.owner k ≠ some i := fun owned =>
  unowned ((owner_view (relied.own (.inr owned))).symm.trans owned)

/-- Deleting expired records leaves the key alone. -/
theorem view_unexpired {w after : World} (current : w.Current k) {note : List Note}
    (moved : after = { w with
      db := { w.db with idempotency := w.db.unexpired w.clock }
      notes := w.notes ++ note }) (silent : note = []) : after.view k = w.view k := by
  subst silent moved
  simp only [World.view, World.started, World.committed, List.append_nil, Prod.mk.injEq, and_true]
  exact find_unexpired current

theorem claim_wp (keyed : (calls i).key = k) {s : World} (fresh : s.owner k ≠ some i) :
    (plane.claim k (calls i).payload [.started i k (calls i).payload]).wp
      (keyContract plane calls k i) (fun result w => match result with
        | .ok record => Claimed plane.store calls k i record w
        | .error _ => w.owner k ≠ some i) s := by
  refine Prog.wp_atomic ?_ ?_
  · intro t _ u inv relied ran
    have unowned := Rely.unowned relied fresh
    simp only [bind_eq_ok, pure_eq_ok, Prod.exists, Prod.mk.injEq] at ran
    obtain ⟨record, db, claimed, rfl, moved⟩ := ran
    rcases claimIdempotency_cases claimed with
      ⟨old, found, hash, rfl⟩ | ⟨new, absent, row, idempotency, inserted, rfl⟩
    · have same : u.view k = t.view k := view_unexpired inv.current moved.symm (by simp [old])
      rw [find_unexpired inv.current] at found
      refine ⟨inv.of_view same (by rw [← moved]), .of_view same, fun v _ later => ?_⟩
      refine Claimed.stable later (.inr ⟨old, ?_, hash, fun completed => ?_⟩)
      · rwa [owner_view same]
      · refine ⟨(record_view same).trans found, ?_⟩
        cases inv.consistent with
        | absent none _ _ =>
            rw [found] at none
            simp at none
        | claimed present _ _ _ settles =>
            obtain rfl := Option.some.inj (found.symm.trans present)
            simp only [IdempotencyRow.Settles, completed] at settles
            obtain ⟨response, _, result⟩ := settles
            rw [result, Option.map_some, Json.canonical_canonical]
    · rw [find_unexpired inv.current] at absent
      have empty : t.started k = [] ∧ t.committed k = [] := by
        cases inv.consistent with
        | absent _ started committed => exact ⟨started, committed⟩
        | claimed present _ _ _ _ =>
            rw [absent] at present
            simp at present
      have stored : u.record k = some record.row := by
        rw [← moved, World.record, Table.find?_insert inserted, if_pos]
        rw [row]
      have started : u.started k = [(i, (calls i).payload)] := by
        have before : t.notes.filterMap (Note.startedFor k) = [] := empty.1
        simp [← moved, World.started, new, before, Note.startedFor]
      have committed : u.committed k = [] := by
        have before : t.notes.filterMap (Note.committedFor k) = [] := empty.2
        simp [← moved, World.committed, new, before, Note.committedFor]
      have owner : u.owner k = some i := by simp [World.owner, started]
      have running : record.row.status = .inProgress := by rw [row]
      have holds : KeyInv plane.store calls k u := by
        refine ⟨.claimed stored started keyed (by rw [row]) ?_, fun other present => ?_⟩
        · simpa [IdempotencyRow.Settles, running] using committed
        · obtain rfl := Option.some.inj (stored.symm.trans present)
          simp [row, ← moved]
      refine ⟨holds, .of_owner owner (.inl ?_) ?_, fun v _ later => ?_⟩
      · simp [World.owner, empty.1]
      · intro other present
        rw [absent] at present
        simp at present
      · exact Claimed.stable later
          (.inl ⟨new, ⟨owner, _, stored, running⟩, claimIdempotency_checked claimed⟩)
  · intro t error inv relied _
    exact ⟨.of_view rfl, fun v _ later => Rely.unowned later (Rely.unowned relied fresh)⟩

/-- A claim of the owner finds its own record. -/
theorem reclaim_wp (checked : Checked k (calls i).payload) {s : World} {state : Option Json}
    (phase : Phase k i s state) :
    (plane.claim k (calls i).payload []).wp (keyContract plane calls k i) (fun result w =>
      ∃ record, result = .ok record ∧ Phase k i w state ∧ w.record k = some record.row) s := by
  refine Prog.wp_atomic_total fun t inv relied => ?_
  have here := phase.stable relied
  obtain ⟨row, found, hash⟩ := inv.consistent.owned here.owner
  have claimed : plane.store.claimIdempotency t.clock k.tenantId k.scope k.key (calls i).payload
      (some 86400) t.db = .ok (⟨row, false⟩, { t.db with idempotency := t.db.unexpired t.clock }) :=
    claimIdempotency_found checked.1 rfl checked.2 ((find_unexpired inv.current).trans found) hash
  have same : World.view { t with
      db := { t.db with idempotency := t.db.unexpired t.clock }
      notes := t.notes ++ [] } k = t.view k := view_unexpired inv.current rfl rfl
  refine ⟨⟨row, false⟩, _, by rw [claimed]; rfl, inv.of_view same rfl, .of_view same,
    fun v _ later => ⟨_, rfl, ?_, ?_⟩⟩
  · exact (here.stable (Rely.of_view same)).stable later
  · have still := later.own (.inl ((owner_view same).trans here.owner))
    exact (record_view still).trans ((record_view same).trans found)

theorem Exit.of_phase {s : World} {response result : Json} (inv : KeyInv plane.store calls k s)
    (phase : Phase k i s (some response)) (same : result.canonical = response.canonical) :
    Exit plane.store calls k i (.ok result) s := by
  obtain ⟨owned, row, found, completed, stored⟩ := phase
  obtain ⟨other, present, hash⟩ := inv.consistent.owned owned
  obtain rfl := Option.some.inj (found.symm.trans present)
  refine ⟨fun _ last there => ?_, ?_⟩
  · obtain rfl := Option.some.inj (found.symm.trans there)
    simp [completed]
  · rintro _ _ ⟨⟩
    exact ⟨row, found, completed, by rw [stored, Option.map_some, Json.canonical_canonical, same], hash⟩

theorem Exit.of_error {s : World} {error : PyError} (settled : Settled k i s) :
    Exit plane.store calls k i (.error error) s := ⟨settled, by simp⟩

theorem storedResponse_eq {row : IdempotencyRow} {response : Json}
    (stored : row.storedResponse = some response) :
    row.status = .completed ∧ row.result = some response := by
  unfold IdempotencyRow.storedResponse at stored
  split at stored
  next members completed result =>
    obtain rfl := Option.some.inj stored
    exact ⟨completed, result⟩
  next => simp at stored

/-- The error path ends with the committed response, or with the error and a settled record. -/
theorem recover_wp (checked : Checked k (calls i).payload) {s : World} {state : Option Json}
    (inv : KeyInv plane.store calls k s) (phase : Phase k i s state) (error : PyError) :
    (plane.recoverResponse k (calls i).payload error).wp (keyContract plane calls k i)
      (Exit plane.store calls k i) s := by
  refine Prog.wp_bind inv (Prog.wp_mono ?_ (reclaim_wp checked phase))
  rintro _ t invT ⟨record, rfl, here, found⟩
  cases state with
  | none =>
      obtain ⟨owned, row, present, running⟩ := here
      obtain rfl := Option.some.inj (found.symm.trans present)
      simp only [IdempotencyRow.storedResponse, running]
      refine Prog.wp_bind invT (Prog.wp_atomic_total fun u invU relied => ?_)
      have before : Phase k i t none := ⟨owned, _, found, running⟩
      have later := before.stable relied
      have ⟨_, row, present, running⟩ := later
      have valid : (Json.obj [("error_type", .str error.typeName)]).valid = true := rfl
      obtain ⟨failed, ran⟩ := finishIdempotency_running u.clock .failed checked.1 valid present running
      obtain ⟨kept, promised, settled⟩ := fail_moves (invU : KeyInv plane.store calls k u) later rfl ran
      refine ⟨failed, _, by rw [onStore, failIdempotency, ran], kept, promised, fun v _ relied => ?_⟩
      exact Prog.wp_done fun x _ last => .of_error ((settled.stable relied).stable last)
  | some response =>
      have ⟨_, row, present, completed, stored⟩ := here
      obtain rfl := Option.some.inj (found.symm.trans present)
      dsimp only
      split
      next result same =>
        obtain ⟨_, equal⟩ := storedResponse_eq same
        have canonical : result.canonical = response.canonical := by
          rw [Option.some.inj (equal.symm.trans stored), Json.canonical_canonical]
        exact Prog.wp_done fun u invU relied => .of_phase invU (here.stable relied) canonical
      next =>
        have settled : Settled k i t := fun _ last there => by
          obtain rfl := Option.some.inj (found.symm.trans there)
          simp [completed]
        refine Prog.wp_bind invT (Prog.wp_atomic ?_ ?_)
        · -- A completed record cannot be marked as failed.
          intro u _ v _ relied ran
          obtain ⟨_, row, present, completed, _⟩ := here.stable relied
          unfold onStore at ran
          split at ran
          next value db failed =>
            obtain ⟨other, there, ⟨running, _⟩ | ⟨wrong, _⟩⟩ := finishIdempotency_cases failed
            · obtain rfl := Option.some.inj (present.symm.trans there)
              simp [completed] at running
            · obtain rfl := Option.some.inj (present.symm.trans there)
              simp [completed] at wrong
          next => simp at ran
        · intro u raised _ relied _
          exact ⟨.of_view rfl, fun v _ later => .of_error ((settled.stable relied).stable later)⟩

/-- The second completion, after the operation has returned its response. -/
theorem complete_wp {s : World} {response : Json}
    (phase : Phase k i s (some response)) :
    (storeCall fun now db => completeIdempotency now k.tenantId k.scope k.key response db).wp
      (keyContract plane calls k i) (fun _ w => Phase k i w (some response)) s := by
  refine Prog.wp_exposed (fun _ _ _ relied => phase.stable relied) (Prog.wp_atomic ?_ ?_)
  · intro t record u invT relied ran
    have here := phase.stable relied
    obtain ⟨_, row, present, completed, _⟩ := here
    unfold onStore at ran
    split at ran
    next value db finished =>
      obtain ⟨_, rfl⟩ := Prod.mk.inj (Except.ok.inj ran)
      obtain ⟨other, there, ⟨running, _⟩ | ⟨_, _, rfl⟩⟩ := finishIdempotency_cases finished
      · obtain rfl := Option.some.inj (present.symm.trans there)
        simp [completed] at running
      · exact ⟨invT, .of_view rfl, fun v _ later =>
          (phase.stable relied).stable later⟩
    next => simp at ran
  · exact fun t _ _ relied _ => ⟨.of_view rfl, fun v _ later => (phase.stable relied).stable later⟩

/-- The wrapper, by a call on the key. -/
theorem idempotent_wp (keyed : (calls i).key = k) {s : World} (inv : KeyInv plane.store calls k s)
    (fresh : s.owner k ≠ some i) :
    (plane.idempotent i k (calls i).payload (plane.operation i (calls i))).wp
      (keyContract plane calls k i) (Exit plane.store calls k i) s := by
  refine Prog.wp_bind inv (Prog.wp_mono ?_ (claim_wp keyed fresh))
  intro result t invT claimed
  cases result with
  | error error => exact .of_error fun owned => absurd owned claimed
  | ok record =>
      rcases claimed with ⟨isNew, phase, checked⟩ | ⟨old, unowned, hash, final⟩
      · simp only [isNew, if_true]
        have body := Prog.wp_of_commits (c := keyContract plane calls k i)
          (P := fun state w => Phase k i w state) (commits_operation plane i (calls i)) invT phase
          (fun _ _ _ _ _ relied here => here.stable relied)
          (fun state u v invU here step => by
            have ⟨same, clock⟩ := PlaneStep.view (k := k) step
            exact ⟨invU.of_view same clock, .of_view same, here.stable (.of_view same)⟩)
          (fun response u v invU here step => StateCommit.moves keyed invU here step)
        refine Prog.wp_tryCatch invT (Prog.wp_bind invT (Prog.wp_mono ?_ body))
        intro result u invU after
        cases result with
        | ok response =>
            refine Prog.wp_bind invU (Prog.wp_mono ?_ (complete_wp after))
            intro completed v invV here
            cases completed with
            | ok _ => exact Prog.wp_done fun x invX later => .of_phase invX (here.stable later) rfl
            | error error => exact recover_wp checked invV here error
        | error error =>
            obtain ⟨state, here⟩ := after
            exact recover_wp checked invU here error
      · have settled : Settled k i t := fun owned => absurd owned unowned
        simp only [old, Bool.false_eq_true, if_false]
        split
        next response stored =>
          obtain ⟨completed, result⟩ := storedResponse_eq stored
          obtain ⟨found, canonical⟩ := final completed
          refine Prog.wp_done fun u _ relied => Exit.stable relied ⟨settled, ?_⟩
          rintro _ _ ⟨⟩
          exact ⟨record.row, found, completed, by rw [result, Option.map_some], hash⟩
        next => exact Prog.wp_done fun u _ relied => .of_error (settled.stable relied)

/-- A call on any key keeps the contract about this one. -/
theorem perform_wp {s : World} (inv : KeyInv plane.store calls k s) (fresh : s.owner k ≠ some i) :
    (plane.perform i (calls i)).wp (keyContract plane calls k i) (Exit plane.store calls k i) s := by
  by_cases keyed : (calls i).key = k
  · refine Prog.wp_bind inv ?_
    refine Prog.wp_done fun t invT relied => ?_
    have unowned := Rely.unowned relied fresh
    cases allowedFields (calls i) with
    | ok _ =>
        have wrapped := idempotent_wp keyed (invT : KeyInv plane.store calls k t) unowned
        subst keyed
        exact wrapped
    | error error => exact .of_error fun owned => absurd owned unowned
  · refine Prog.wp_mono ?_ (Prog.wp_of_only (P := fun w => w.owner k ≠ some i)
      (only_perform plane i (calls i)) inv fresh ?_ ?_)
    · exact fun result t _ unowned => ⟨fun owned => absurd owned unowned, fun here => absurd here keyed⟩
    · exact fun s t _ _ relied unowned => Rely.unowned relied unowned
    · intro s t invS unowned step
      have ⟨same, clock⟩ := CallStep.foreign keyed invS.current step
      exact ⟨invS.of_view same clock, .of_view same, Rely.unowned (.of_view same) unowned⟩

/-! The service. -/

/-- A kill leaves the record of the key failed, unless it was completed. -/
theorem recovery_kept {s t : World} (inv : KeyInv plane.store calls k s) (recovered : s.Recovers t) :
    KeyInv plane.store calls k t ∧ t.owner k = s.owner k ∧ (∀ i, Settled k i t) ∧
      ∀ row, s.record k = some row → row.status ≠ .inProgress → t.record k = some row := by
  have record : t.record k = (s.record k).map _ := recovered.record k.row
  obtain ⟨notes, clock, _⟩ := recovered.same
  have started : t.started k = s.started k := by simp [World.started, notes]
  have committed : t.committed k = s.committed k := by simp [World.committed, notes]
  refine ⟨⟨?_, ?_⟩, by simp [World.owner, started], ?_, ?_⟩
  · cases inv.consistent with
    | absent none fresh silent =>
        exact .absent (by simp [record, none]) (started.trans fresh) (committed.trans silent)
    | @claimed row owner found once keyed hash settles =>
        rw [found, Option.map_some] at record
        refine .claimed record (started.trans once) keyed ?_ ?_
        · split <;> exact hash
        · rw [committed]
          split
          next running => simpa [IdempotencyRow.Settles, running] using settles
          next => exact settles
  · intro row found
    rw [record] at found
    obtain ⟨old, present, rfl⟩ := Option.map_eq_some_iff.mp found
    split
    next => rfl
    next =>
      rw [clock]
      exact inv.current old present
  · intro i _ row found
    rw [record] at found
    obtain ⟨old, present, rfl⟩ := Option.map_eq_some_iff.mp found
    split
    next => simp
    next final => exact final
  · intro row found final
    rw [record, found, Option.map_some, if_neg final]

/-- The record has not run out in any state of the run. -/
def World.Within (k : OperationKey) (s t : World) : Prop := s.Around t ∧ t.Current k

def keyVerified (plane : ControlPlane Model) (calls : Nat → Call) (k : OperationKey) :
    (plane.service calls (World.Within k)).Verified where
  inv := KeyInv plane.store calls k
  rely i := Rely k i
  guar i := Guar k i
  pre i w := w.owner k ≠ some i
  post i := Exit plane.store calls k i
  dead i := Settled k i
  rely_refl _ := .refl
  rely_trans _ := .trans
  compatible other _ _ promised := promised _ (Ne.symm other)
  pre_stable _ _ := Rely.unowned
  post_stable _ _ relied exit := exit.stable relied
  dead_stable _ _ relied settled := settled.stable relied
  surroundings_kept := by
    rintro s t inv ⟨⟨db, notes⟩, current⟩
    have same : t.view k = s.view k := view_eq (by rw [db]) notes
    exact ⟨⟨inv.consistent.of_view same, current⟩, fun _ => .of_view same⟩
  recovery_kept := by
    intro s t inv recovered
    obtain ⟨kept, owner, settled, still⟩ := recovery_kept inv recovered
    refine ⟨kept, fun i => ⟨settled i, fun unowned => owner.symm ▸ unowned, fun result exit => ?_⟩⟩
    refine ⟨settled i, fun keyed response same => ?_⟩
    obtain ⟨row, found, completed, stored, hash⟩ := exit.returned keyed response same
    exact ⟨row, still row found (by simp [completed]), completed, stored, hash⟩
  calls_kept inv fresh := perform_wp inv fresh

end Steps

/-- The call has entered the operation of the key, or returned normally. -/
def ControlPlane.Accepted (calls : Nat → Call) (k : OperationKey)
    (config : Config Nat World PyError Json) (i : Nat) : Prop :=
  (calls i).key = k ∧ ((∃ request, (i, request) ∈ config.state.started k) ∨
    ∃ response, config.result i = some (.ok response))

/-- What is known of one key in one configuration. -/
structure ExactlyOnce (calls : Nat → Call) (k : OperationKey)
    (config : Config Nat World PyError Json) : Prop where
  /-- The state transaction commits at most once. -/
  once : (config.state.committed k).length ≤ 1
  /-- With no call on the key running, the record is completed or failed, as the transaction did. -/
  settled : (∀ i, (calls i).key = k → config.Idle i) → ∀ row, config.state.record k = some row →
    row.status = if config.state.committed k = [] then .failed else .completed
  /-- A committed transaction has a record. -/
  recorded : config.state.committed k ≠ [] → config.state.record k ≠ none
  /-- A call that returns normally returns the response of that transaction. -/
  replayed : ∀ i response, (calls i).key = k → config.result i = some (.ok response) →
    ∃ stored, config.state.committed k = [stored] ∧ response.canonical = stored.canonical
  /-- Calls that execute or return normally were all made with one request. -/
  sameRequest : ∀ i j, ControlPlane.Accepted calls k config i →
    ControlPlane.Accepted calls k config j →
    canonicalBytes (calls i).payload = canonicalBytes (calls j).payload

theorem Consistent.responses {store : Store} {calls : Nat → Call} {k : OperationKey} {w : World}
    (consistent : Consistent store calls k w) : (w.committed k).length ≤ 1 ∧
    (w.committed k ≠ [] → w.record k ≠ none) := by
  cases consistent with
  | absent _ _ silent => simp [silent]
  | @claimed row _ found _ _ _ settles =>
      unfold IdempotencyRow.Settles at settles
      refine ⟨?_, fun _ => by simp [found]⟩
      split at settles
      · obtain ⟨response, one, _⟩ := settles
        simp [one]
      · simp [settles]
      · simp [settles]

/-- The request of a call that executed or returned is the one of the record. -/
theorem accepted_hash {Model : Type} {plane : ControlPlane Model} {calls : Nat → Call} {k : OperationKey}
    {config : Config Nat World PyError Json} {i : Nat} (sound : (keyVerified plane calls k).Sound config)
    (accepted : ControlPlane.Accepted calls k config i) :
    ∃ row, config.state.record k = some row ∧
      row.requestHash = plane.store.sha256Hex (calls i).payload := by
  obtain ⟨keyed, ⟨request, entered⟩ | ⟨response, returned⟩⟩ := accepted
  · have consistent : Consistent plane.store calls k config.state := sound.1.consistent
    cases consistent with
    | absent _ fresh _ => simp [fresh] at entered
    | @claimed row owner present once _ hash _ =>
        rw [once, List.mem_singleton, Prod.mk.injEq] at entered
        exact ⟨row, present, entered.1 ▸ hash⟩
  · obtain ⟨row, present, _, _, hash⟩ :=
      ((keyVerified plane calls k).returned sound returned).returned keyed response rfl
    exact ⟨row, present, hash⟩

/-- Exactly-once operations, in every configuration of every run in which the record
of the key does not run out. -/
theorem operations_exactly_once {Model : Type} (plane : ControlPlane Model) (calls : Nat → Call)
    (k : OperationKey) {start : World} {config : Config Nat World PyError Json}
    (absent : start.record k = none) (unused : start.notes = [])
    (collisionFree : ∀ i j, plane.store.sha256Hex (calls i).payload =
      plane.store.sha256Hex (calls j).payload →
      canonicalBytes (calls i).payload = canonicalBytes (calls j).payload)
    (run : (plane.service calls (World.Within k)).Reachable (.start start) config) :
    ExactlyOnce calls k config := by
  have inv : KeyInv plane.store calls k start :=
    ⟨.absent absent (by simp [World.started, unused]) (by simp [World.committed, unused]),
      fun row found => by simp [absent] at found⟩
  have sound := (keyVerified plane calls k).sound_run inv
    (fun i => by simp [keyVerified, World.owner, World.started, unused]) run
  have consistent : Consistent plane.store calls k config.state := sound.1.consistent
  obtain ⟨once, recorded⟩ := consistent.responses
  refine ⟨once, fun idle row found => ?_, recorded, fun i response keyed returned => ?_,
    fun i j first second => ?_⟩
  · cases consistent with
    | absent none _ _ =>
        rw [found] at none
        simp at none
    | @claimed other owner present started keyed hash settles =>
        obtain rfl := Option.some.inj (found.symm.trans present)
        have owned : config.state.owner k = some owner := by simp [World.owner, started]
        have final : row.status ≠ .inProgress := by
          rcases (keyVerified plane calls k).idle sound (idle owner keyed) with
            waits | dead | ⟨result, exit⟩
          · exact absurd owned waits
          · exact dead owned row found
          · exact exit.settled owned row found
        unfold IdempotencyRow.Settles at settles
        split at settles
        next completed =>
          obtain ⟨response, one, _⟩ := settles
          simp [completed, one]
        next running => exact absurd running final
        next failed => simp [failed, settles]
  · obtain ⟨row, found, completed, result, _⟩ :=
      ((keyVerified plane calls k).returned sound returned).returned keyed response rfl
    cases consistent with
    | absent none _ _ =>
        rw [found] at none
        simp at none
    | @claimed other owner present started keyed hash settles =>
        obtain rfl := Option.some.inj (found.symm.trans present)
        simp only [IdempotencyRow.Settles, completed] at settles
        obtain ⟨stored, one, same⟩ := settles
        refine ⟨stored, one, ?_⟩
        rw [same, Option.map_some, Json.canonical_canonical] at result
        exact (Option.some.inj result).symm
  · obtain ⟨row, found, hash⟩ := accepted_hash sound first
    obtain ⟨other, present, digest⟩ := accepted_hash sound second
    obtain rfl := Option.some.inj (found.symm.trans present)
    exact collisionFree i j (hash.symm.trans digest)

/-- Three calls on one key: a decision, the same request again and another request. -/
def Sample.decisions : Nat → Call := fun call => {
  principal := ⟨"tenant", "subject"⟩
  request := .runDecision (.obj (if call = 2 then [("seed", .int 8)] else []))
  idempotencyKey := "key"
  draws := Sample.draws call }

open Sample in
theorem operations_exactly_once_decisions : ∃ config : Config Nat World PyError Json,
    ExactlyOnce decisions ⟨"tenant", "decision", "key"⟩ config ∧
      (config.state.committed ⟨"tenant", "decision", "key"⟩).length = 1 ∧
      (config.result 1).any Except.isOk = true ∧ (config.result 2).any (!Except.isOk ·) = true := by
  have schedule := (plane.service decisions
    (World.Within ⟨"tenant", "decision", "key"⟩)).play_exists
    (.spawn 0 :: .spawn 1 :: .spawn 2 :: List.replicate 15 (.act 0) ++ [.act 1, .act 2]) (.start world)
    (fun config => (config.state.committed ⟨"tenant", "decision", "key"⟩).length = 1 ∧
      (config.result 1).any Except.isOk = true ∧ (config.result 2).any (!Except.isOk ·) = true)
    (by simp) (by decide +kernel)
  obtain ⟨config, run, checked⟩ := schedule
  refine ⟨config, ?_, by simpa using checked⟩
  refine operations_exactly_once plane decisions ⟨"tenant", "decision", "key"⟩ rfl rfl ?_ run
  intro i j
  have digests : store.sha256Hex (decisions 0).payload ≠ store.sha256Hex (decisions 2).payload := by
    decide +kernel
  have other : ∀ call, call ≠ 2 → (decisions call).payload = (decisions 0).payload := by
    intro call early
    simp [decisions, Call.payload, early]
  by_cases first : i = 2 <;> by_cases second : j = 2
  · subst first second
    simp
  · subst first
    rw [other j second]
    exact fun same => absurd same.symm digests
  · subst second
    rw [other i first]
    exact fun same => absurd same digests
  · rw [other i first, other j second]
    simp

end AgentTree
