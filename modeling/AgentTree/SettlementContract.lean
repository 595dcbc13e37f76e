import AgentTree.HoldingSteps

/-!
One call is followed through a run of many: what it relies on, what every call
guarantees, and how far it has come with its reservation and its lease.
-/

namespace AgentTree

open Outcome Relational Concurrent ControlPlane

/-- Call `index` has entered its operation. -/
def World.Entered (w : World) (index : Nat) : Prop :=
  ∃ key request, Note.started index key request ∈ w.notes

/-- The state transaction of call `index` has committed. -/
def World.CommittedBy (w : World) (index : Nat) : Prop :=
  ∃ key response commit, Note.committed index key response commit ∈ w.notes

/-- The record of a hidden benchmark's key has not run out. -/
def World.Lasts (call : Call) (w : World) : Prop :=
  call.scope = "hidden-benchmark" → w.Current call.key

/-- What changes around the calls while that record lasts. -/
def World.Lasting (call : Call) (s t : World) : Prop := (s.Around t ∨ s.Recovers t) ∧ t.Lasts call

/-- The reservations under the id of the call. -/
def Call.held (call : Call) (w : World) : List (String × ReservationStatus) :=
  match call.reservation? with
  | some (tenantId, reservationId) => w.db.held tenantId reservationId
  | none => []

/-- The holder of the call has a lease. -/
def Call.Holds (call : Call) (w : World) (resource : String × String) (token : Int) : Prop :=
  ∃ holder, call.holder? = some holder ∧ w.db.Leased holder resource token

section Contract

variable (calls : Nat → SettledCall) (i : Nat)

/-- Call `j` makes its reservation under the same id. -/
def Shares (j : Nat) : Prop :=
  (calls j).call.reservation? = (calls i).call.reservation? ∧ (calls i).call.reservation? ≠ none

/-- Only the calls on one hidden benchmark key share an id, and no two calls share a holder. -/
structure Drawn : Prop where
  reservation : ∀ j, Shares calls i j → j = i ∨
    (calls i).call.scope = "hidden-benchmark" ∧ (calls j).call.key = (calls i).call.key
  holder : ∀ j holder, (calls j).call.holder? = some holder → (calls i).call.holder? = some holder → j = i

/-- At most one of the calls that share the id has entered its operation. -/
structure SettleInv (w : World) : Prop where
  ledger : w.db.inLedger
  lasts : w.Lasts (calls i).call
  recorded : (calls i).call.scope = "hidden-benchmark" → ∀ j, Shares calls i j → w.Entered j →
    w.record (calls i).call.key ≠ none
  alone : ∀ j k, Shares calls i j → Shares calls i k → w.Entered j → w.Entered k → j = k
  reserved : (calls i).call.held w ≠ [] → ∃ j, Shares calls i j ∧ w.Entered j
  leased : ∀ resource token, (calls i).call.Holds w resource token → w.Entered i

/-- What call `j` sees of the others.  A recovery may release what it has reserved. -/
structure SettleRely (j : Nat) (s t : World) : Prop where
  entered : t.Entered j ↔ s.Entered j
  committed : t.CommittedBy j ↔ s.CommittedBy j
  held : Shares calls i j → s.Entered j → (calls i).call.held t = (calls i).call.held s ∨
    (calls i).call.held t = ((calls i).call.held s).map lapsed
  leased : j = i → ∀ resource token, (calls i).call.Holds t resource token →
    (calls i).call.Holds s resource token

structure SettleGuar (j : Nat) (s t : World) : Prop where
  entered : ∀ k, k ≠ j → (t.Entered k ↔ s.Entered k)
  committed : ∀ k, k ≠ j → (t.CommittedBy k ↔ s.CommittedBy k)
  held : Shares calls i j ∧ s.Entered j ∨ (calls i).call.held t = (calls i).call.held s
  leased : j = i ∨ ∀ resource token, (calls i).call.Holds t resource token →
    (calls i).call.Holds s resource token

/-! How far call `i` has come. -/

def Unleased (w : World) : Prop := ∀ resource token, ¬(calls i).call.Holds w resource token

/-- The holder has this lease or none. -/
def Under (resource : String × String) (token : Int) (w : World) : Prop :=
  ∀ other number, (calls i).call.Holds w other number →
    other = resource ∧ number = token ∧ bindInteger token = .ok ()

/-- Nothing is reserved yet. -/
structure Fresh (w : World) : Prop where
  entered : w.Entered i
  uncommitted : ¬w.CommittedBy i
  unheld : (calls i).call.held w = []
  unleased : Unleased calls i w

/-- Reserved, and committed or not. -/
def Stage (budgetId : String) (committed : Bool) (w : World) : Prop :=
  w.Entered i ∧ (w.CommittedBy i ↔ committed = true) ∧ ∃ status,
    (calls i).call.held w = [(budgetId, status)] ∧ (status = .consumed ↔ committed = true)

/-- At the end: consumed if the state transaction has committed, released otherwise. -/
def Kept (w : World) : Prop :=
  w.Entered i ∧ (w.CommittedBy i → ∃ budgetId, (calls i).call.held w = [(budgetId, .consumed)]) ∧
    (¬w.CommittedBy i → ∀ entry ∈ (calls i).call.held w, entry.2 = .released)

end Contract

section Rules

variable {calls : Nat → SettledCall} {i j : Nat} {s t u : World}

theorem lapsed_lapsed (entry : String × ReservationStatus) : lapsed (lapsed entry) = lapsed entry := by
  simp only [lapsed]
  split <;> simp_all

theorem SettleRely.refl (j : Nat) (s : World) : SettleRely calls i j s s :=
  ⟨.rfl, .rfl, fun _ _ => .inl rfl, fun _ _ _ => id⟩

theorem SettleRely.trans (one : SettleRely calls i j s t) (two : SettleRely calls i j t u) :
    SettleRely calls i j s u := by
  refine ⟨two.entered.trans one.entered, two.committed.trans one.committed, fun shares entered => ?_,
    fun same resource token holds => one.leased same _ _ (two.leased same _ _ holds)⟩
  rcases two.held shares (one.entered.mpr entered) with later | later <;>
    rcases one.held shares entered with earlier | earlier <;> rw [later, earlier]
  · exact .inl rfl
  · exact .inr rfl
  · exact .inr rfl
  · rw [List.map_map]
    exact .inr (List.map_congr_left fun entry _ => lapsed_lapsed entry)

theorem SettleGuar.relied {k : Nat} (other : j ≠ k) (inv : SettleInv calls i s)
    (promised : SettleGuar calls i j s t) : SettleRely calls i k s t := by
  refine ⟨promised.entered k other.symm, promised.committed k other.symm, fun shares entered => .inl ?_,
    fun same => ?_⟩
  · rcases promised.held with ⟨mine, here⟩ | still
    · exact absurd (inv.alone j k mine shares here entered) other
    · exact still
  · rcases promised.leased with own | shrinks
    · exact absurd (own.trans same.symm) other
    · exact shrinks

theorem Unleased.shrinks (fewer : ∀ resource token, (calls i).call.Holds t resource token →
      (calls i).call.Holds s resource token) (unleased : Unleased calls i s) : Unleased calls i t :=
  fun _ _ holds => unleased _ _ (fewer _ _ holds)

theorem Under.shrinks {resource : String × String} {token : Int}
    (fewer : ∀ resource token, (calls i).call.Holds t resource token →
      (calls i).call.Holds s resource token) (under : Under calls i resource token s) :
    Under calls i resource token t :=
  fun _ _ holds => under _ _ (fewer _ _ holds)

theorem Unleased.stable (relied : SettleRely calls i i s t) (unleased : Unleased calls i s) :
    Unleased calls i t := unleased.shrinks (relied.leased rfl)

theorem Under.stable {resource : String × String} {token : Int} (relied : SettleRely calls i i s t)
    (under : Under calls i resource token s) : Under calls i resource token t :=
  under.shrinks (relied.leased rfl)

/-- What the others leave of the reservation of a call that has entered its operation. -/
theorem SettleRely.own (relied : SettleRely calls i i s t) (entered : s.Entered i) :
    (calls i).call.held t = (calls i).call.held s ∨
      (calls i).call.held t = ((calls i).call.held s).map lapsed := by
  by_cases reserves : (calls i).call.reservation? = none
  · simp [Call.held, reserves]
  · exact relied.held ⟨rfl, reserves⟩ entered

theorem Fresh.stable (relied : SettleRely calls i i s t) (fresh : Fresh calls i s) : Fresh calls i t := by
  refine ⟨relied.entered.mpr fresh.entered, fun committed => fresh.uncommitted (relied.committed.mp committed),
    ?_, fresh.unleased.stable relied⟩
  rcases relied.own fresh.entered with same | same <;> simp [same, fresh.unheld]

theorem Stage.stable {budgetId : String} {committed : Bool} (relied : SettleRely calls i i s t)
    (stage : Stage calls i budgetId committed s) : Stage calls i budgetId committed t := by
  obtain ⟨entered, remarked, status, held, spent⟩ := stage
  refine ⟨relied.entered.mpr entered, relied.committed.trans remarked, ?_⟩
  rcases relied.own entered with same | same
  · exact ⟨status, same.trans held, spent⟩
  · refine ⟨(lapsed (budgetId, status)).2, by rw [same, held]; rfl, ?_⟩
    rw [← spent]
    simp only [lapsed]
    cases status <;> simp

theorem Kept.stable (relied : SettleRely calls i i s t) (kept : Kept calls i s) : Kept calls i t := by
  obtain ⟨entered, consumed, released⟩ := kept
  refine ⟨relied.entered.mpr entered, fun committed => ?_, fun uncommitted => ?_⟩
  · obtain ⟨budgetId, held⟩ := consumed (relied.committed.mp committed)
    refine ⟨budgetId, ?_⟩
    rcases relied.own entered with same | same <;> simp [same, held, lapsed]
  · have before := released fun committed => uncommitted (relied.committed.mpr committed)
    rcases relied.own entered with same | same
    · exact same ▸ before
    · rw [same]
      intro entry member
      obtain ⟨old, present, rfl⟩ := List.mem_map.mp member
      simp [lapsed, before old present]

theorem Fresh.kept (fresh : Fresh calls i s) : Kept calls i s :=
  ⟨fresh.entered, fun committed => absurd committed fresh.uncommitted, fun _ => by simp [fresh.unheld]⟩

/-- After the commit nothing is left to do. -/
theorem Stage.kept {budgetId : String} (stage : Stage calls i budgetId true s) : Kept calls i s := by
  obtain ⟨entered, remarked, status, held, spent⟩ := stage
  obtain rfl := spent.mpr rfl
  exact ⟨entered, fun _ => ⟨budgetId, held⟩, fun uncommitted => absurd (remarked.mpr rfl) uncommitted⟩

/-! The steps of any call keep the invariant, and what the others rely on. -/

theorem held_confined {own? : Option (String × String)} {holder? : Option String} {call : Call}
    (confined : Confined own? holder? s.db t.db)
    (other : call.reservation? ≠ none → own? ≠ call.reservation?) : call.held t = call.held s := by
  unfold Call.held
  split
  next tenantId reservationId reserves =>
    refine confined.held _ _ ?_
    rw [← reserves]
    exact other (by simp [reserves])
  next => rfl

theorem holds_confined {own? : Option (String × String)} {holder? : Option String} {call : Call}
    (confined : Confined own? holder? s.db t.db)
    (other : ∀ holder, call.holder? = some holder → holder? ≠ some holder) (resource : String × String)
    (token : Int) (holds : call.Holds t resource token) : call.Holds s resource token := by
  obtain ⟨holder, named, leased⟩ := holds
  exact ⟨holder, named, confined.leased _ _ _ (other holder named) leased⟩

theorem entered_of_notes (notes : t.notes = s.notes) (k : Nat) : t.Entered k ↔ s.Entered k := by
  rw [World.Entered, World.Entered, notes]

theorem committed_of_notes (notes : t.notes = s.notes) (k : Nat) : t.CommittedBy k ↔ s.CommittedBy k := by
  rw [World.CommittedBy, World.CommittedBy, notes]

theorem current_of_records {key : OperationKey} (clock : t.clock = s.clock)
    (records : (t.record key).map IdempotencyRow.expiresAt = (s.record key).map IdempotencyRow.expiresAt)
    (current : s.Current key) : t.Current key := by
  intro row found
  rw [found, Option.map_some] at records
  obtain ⟨old, present, expiry⟩ := Option.map_eq_some_iff.mp records.symm
  rw [clock, ← expiry]
  exact current old present

theorem record_of_records {key : OperationKey}
    (records : (t.record key).map IdempotencyRow.expiresAt = (s.record key).map IdempotencyRow.expiresAt)
    (found : s.record key ≠ none) : t.record key ≠ none := by
  intro absent
  rw [absent, Option.map_none] at records
  exact found (Option.map_eq_none_iff.mp records.symm)

/-- A step that changes only the holdings of a call that has entered its operation. -/
theorem SettleInv.moved (drawn : Drawn calls i) (inv : SettleInv calls i s) (entered : s.Entered j)
    (confined : Confined (calls j).call.reservation? (calls j).call.holder? s.db t.db)
    (clock : t.clock = s.clock)
    (records : ∀ k, (t.record k).map IdempotencyRow.expiresAt = (s.record k).map IdempotencyRow.expiresAt)
    (still : ∀ k, t.Entered k ↔ s.Entered k) (committed : ∀ k, k ≠ j → (t.CommittedBy k ↔ s.CommittedBy k)) :
    SettleInv calls i t ∧ SettleGuar calls i j s t := by
  have held : Shares calls i j ∨ (calls i).call.held t = (calls i).call.held s := by
    by_cases shares : Shares calls i j
    · exact .inl shares
    · exact .inr (held_confined confined fun reserves same => shares ⟨same, reserves⟩)
  have leased : j = i ∨ ∀ resource token, (calls i).call.Holds t resource token →
      (calls i).call.Holds s resource token := by
    by_cases own : j = i
    · exact .inl own
    · exact .inr (holds_confined confined fun holder named same => own (drawn.holder j holder same named))
  refine ⟨⟨confined.ledger inv.ledger, fun hidden => current_of_records clock (records _) (inv.lasts hidden),
    fun hidden k shares here => record_of_records (records _)
      (inv.recorded hidden k shares ((still k).mp here)),
    fun j k first second here there => inv.alone j k first second ((still j).mp here) ((still k).mp there),
    fun nonempty => ?_, fun resource token holds => (still i).mpr ?_⟩,
    fun k _ => still k, committed, held.imp_left fun shares => ⟨shares, entered⟩, leased⟩
  · rcases held with shares | same
    · exact ⟨j, shares, (still j).mpr entered⟩
    · obtain ⟨k, shares, here⟩ := inv.reserved (same ▸ nonempty)
      exact ⟨k, shares, (still k).mpr here⟩
  · rcases leased with rfl | shrinks
    · exact entered
    · exact inv.leased _ _ (shrinks _ _ holds)

theorem SettleInv.quiet (drawn : Drawn calls i) (inv : SettleInv calls i s) (entered : s.Entered j)
    (step : QuietStep (calls j).call.reservation? (calls j).call.holder? s t) :
    SettleInv calls i t ∧ SettleGuar calls i j s t :=
  inv.moved drawn entered step.confined step.clock step.records (entered_of_notes step.notes)
    fun k _ => committed_of_notes step.notes k

theorem SettleInv.consumes (drawn : Drawn calls i) (inv : SettleInv calls i s) (entered : s.Entered j)
    (step : Consumes j (calls j).call s t) : SettleInv calls i t ∧ SettleGuar calls i j s t := by
  obtain ⟨response, commit, notes⟩ := step.notes
  refine inv.moved drawn entered step.confined.widen_holder step.clock step.records (fun k => ?_)
    fun k other => ?_
  · simp [World.Entered, notes]
  · simp [World.CommittedBy, notes, other]

/-- A quiet step on nothing is not noticed. -/
theorem QuietStep.relied (step : QuietStep none none s t) : SettleRely calls i j s t :=
  ⟨entered_of_notes step.notes j, committed_of_notes step.notes j,
    fun _ _ => .inl (held_confined step.confined fun reserves same => reserves same.symm),
    fun _ => holds_confined step.confined fun _ _ => by simp⟩

end Rules

end AgentTree
