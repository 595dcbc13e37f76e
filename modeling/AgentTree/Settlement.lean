import AgentTree.SettlementContract

/-!
Every exit of an operation settles its reservation and leaves no lease behind.
-/

namespace AgentTree

open Outcome Relational Concurrent ControlPlane

section Claim

variable {Model : Type} {plane : ControlPlane Model} {calls : Nat → SettledCall} {i j : Nat} {s : World}
  {record : IdempotencyRecord} {db : Db} {note : List Note}

/-- What a claim does to the records that have not run out. -/
theorem claim_records {call : Call} (notes : List Note)
    (claimed : plane.store.claimIdempotency s.clock call.key.tenantId call.key.scope call.key.key
      call.payload (some 86400) s.db = .ok (record, db)) :
    (∀ k, s.Current k → ({ s with db, notes } : World).Current k ∧
      (s.record k ≠ none → ({ s with db, notes } : World).record k ≠ none)) ∧
    ({ s with db, notes } : World).record call.key ≠ none ∧
    (record.isNew = true → s.Current call.key → s.record call.key = none) := by
  rcases claimIdempotency_cases claimed with ⟨old, found, _, rfl⟩ |
    ⟨_, absent, fresh, idempotency, inserted, rfl⟩
  · refine ⟨fun k current => ?_, by simp [World.record, found], by simp [old]⟩
    have same : ({ s with
        db := { s.db with idempotency := s.db.unexpired s.clock }
        notes } : World).record k = s.record k := find_unexpired current
    rw [World.Current, same]
    exact ⟨current, id⟩
  · have own : record.row.key = call.key.row := by rw [fresh]
    refine ⟨fun k current => ⟨fun row present => ?_, fun kept => ?_⟩, ?_, fun _ current => ?_⟩
    · simp only [World.record] at present
      rw [Table.find?_insert inserted] at present
      split at present
      next =>
        obtain rfl := Option.some.inj present
        simp [fresh]
      next => exact current row ((find_unexpired current).symm.trans present)
    · obtain ⟨row, present⟩ := Option.ne_none_iff_exists'.mp kept
      simp only [World.record]
      rw [Table.found_insert inserted ((find_unexpired current).trans present)]
      simp
    · simp only [World.record]
      rw [← own, Table.find?_inserted inserted]
      simp
    · exact (find_unexpired current).symm.trans absent

theorem entered_claimed (db : Db) {notes : List Note} (remarks : notes = s.notes ∨
    ∃ key request, notes = s.notes ++ [.started j key request]) (k : Nat) :
    (({ s with db, notes } : World).Entered k → s.Entered k ∨ k = j) ∧
      (s.Entered k → ({ s with db, notes } : World).Entered k) ∧
      (({ s with db, notes } : World).CommittedBy k ↔ s.CommittedBy k) := by
  rcases remarks with rfl | ⟨key, request, rfl⟩
  · exact ⟨.inl, id, .rfl⟩
  · refine ⟨?_, ?_, ?_⟩ <;> simp only [World.Entered, World.CommittedBy, List.mem_append,
      List.mem_singleton, Note.started.injEq, reduceCtorEq, or_false]
    · rintro ⟨k', request', present | ⟨rfl, _⟩⟩
      · exact .inl ⟨k', request', present⟩
      · exact .inr rfl
    · rintro ⟨k', request', present⟩
      exact ⟨k', request', .inl present⟩

/-- A claim keeps the invariant; a call that gets a new record is the first on its id. -/
theorem SettleInv.claims (drawn : Drawn calls i) (inv : SettleInv calls i s)
    (claimed : plane.store.claimIdempotency s.clock (calls j).call.key.tenantId (calls j).call.key.scope
      (calls j).call.key.key (calls j).call.payload (some 86400) s.db = .ok (record, db))
    {notes : List Note} (remarks : notes = s.notes ∨ record.isNew = true ∧
      ∃ key request, notes = s.notes ++ [.started j key request])
    (first : j = i → notes ≠ s.notes → ¬s.Entered i) :
    SettleInv calls i { s with db, notes } ∧ SettleGuar calls i j s { s with db, notes } ∧
      (j = i → notes ≠ s.notes → (calls i).call.held s = [] ∧ Unleased calls i s) := by
  obtain ⟨survive, present, absent⟩ := claim_records notes claimed
  have entered := entered_claimed db (remarks.imp_right And.right)
  have confined : Confined none none s.db db := .claimed claimed
  have held : (calls i).call.held { s with db, notes } = (calls i).call.held s :=
    held_confined confined fun reserves same => reserves same.symm
  have leased : ∀ resource token, (calls i).call.Holds { s with db, notes } resource token →
      (calls i).call.Holds s resource token := holds_confined confined fun _ _ => by simp
  -- Nobody on the id has entered when a call on it gets a new record.
  have nobody : notes ≠ s.notes → Shares calls i j → ∀ k, Shares calls i k → ¬s.Entered k := by
    intro noted shares k also here
    have isNew : record.isNew = true := (remarks.resolve_left noted).1
    rcases drawn.reservation j shares with rfl | ⟨hidden, keyed⟩
    · rcases drawn.reservation k also with rfl | ⟨hidden, _⟩
      · exact first rfl noted here
      · exact inv.recorded hidden k also here (absent isNew (inv.lasts hidden))
    · exact inv.recorded hidden k also here
        (keyed ▸ absent isNew (keyed.symm ▸ inv.lasts hidden))
  refine ⟨⟨confined.ledger inv.ledger, fun hidden => (survive _ (inv.lasts hidden)).1, ?_, ?_, ?_, ?_⟩,
    ⟨?_, fun k _ => (entered k).2.2, .inr held, .inr leased⟩, ?_⟩
  · intro hidden k shares here
    rcases (entered k).1 here with before | rfl
    · exact (survive _ (inv.lasts hidden)).2 (inv.recorded hidden k shares before)
    · rcases drawn.reservation k shares with rfl | ⟨_, keyed⟩
      · exact present
      · exact keyed ▸ present
  · intro k l shares also here there
    by_cases noted : notes = s.notes
    · subst noted
      exact inv.alone k l shares also here there
    · rcases (entered k).1 here with before | rfl <;> rcases (entered l).1 there with later | rfl
      · exact inv.alone k l shares also before later
      · exact absurd before (nobody noted also k shares)
      · exact absurd later (nobody noted shares l also)
      · rfl
  · intro nonempty
    obtain ⟨k, shares, here⟩ := inv.reserved (held ▸ nonempty)
    exact ⟨k, shares, (entered k).2.1 here⟩
  · exact fun resource token holds => (entered i).2.1 (inv.leased _ _ (leased _ _ holds))
  · exact fun k other => ⟨fun here => ((entered k).1 here).resolve_right other, (entered k).2.1⟩
  · rintro rfl noted
    refine ⟨?_, fun resource token holds => first rfl noted (inv.leased _ _ holds)⟩
    by_contra nonempty
    obtain ⟨k, shares, here⟩ := inv.reserved nonempty
    exact nobody noted ⟨rfl, shares.2⟩ k shares here

end Claim

/-! The rules for the programs of a call. -/

def settleContract (calls : Nat → SettledCall) (i j : Nat) : Contract World where
  inv := SettleInv calls i
  rely := SettleRely calls i j
  guar := SettleGuar calls i j
  rely_refl := .refl j
  rely_trans := .trans

/-- A fact about call `i`, once it has entered its operation, that the others leave alone. -/
structure Steady (calls : Nat → SettledCall) (i : Nat) (P : World → Prop) : Prop where
  stable : ∀ s t, SettleRely calls i i s t → P s → P t
  entered : ∀ s, P s → s.Entered i

section Rules

variable {calls : Nat → SettledCall} {i : Nat} {s : World} {P Q : World → Prop}

theorem Steady.and (steady : Steady calls i P)
    (stable : ∀ s t, SettleRely calls i i s t → Q s → Q t) :
    Steady calls i fun w => P w ∧ Q w :=
  ⟨fun s t relied both => ⟨steady.stable s t relied both.1, stable s t relied both.2⟩,
    fun s both => steady.entered s both.1⟩

theorem steady_fresh : Steady calls i (Fresh calls i) :=
  ⟨fun _ _ => .stable, fun _ fresh => fresh.entered⟩

theorem steady_stage (budgetId : String) (committed : Bool) :
    Steady calls i (Stage calls i budgetId committed) :=
  ⟨fun _ _ => .stable, fun _ stage => stage.1⟩

theorem steady_kept : Steady calls i (Kept calls i) := ⟨fun _ _ => .stable, fun _ kept => kept.1⟩

/-- Steps on nothing keep what is steady. -/
theorem wp_quiet (drawn : Drawn calls i) (steady : Steady calls i P) {program : Op α} {rest : α → Op β}
    {post : Except PyError β → World → Prop} (only : program.Only (QuietStep none none))
    (inv : SettleInv calls i s) (holds : P s)
    (struck : ∀ error t, P t → post (.error error) t)
    (later : ∀ value t, SettleInv calls i t → P t → (rest value).wp (settleContract calls i i) post t) :
    (program.bind rest).wp (settleContract calls i i) post s := by
  refine Prog.wp_bind inv (Prog.wp_mono ?_ (Prog.wp_of_only only inv holds
    (fun s t _ _ => steady.stable s t) fun s t invS here step => ?_))
  · intro result t invT here
    cases result with
    | ok value => exact later value t invT here
    | error error => exact struck error t here
  · obtain ⟨kept, promised⟩ := invS.quiet drawn (steady.entered s here) step.widen
    exact ⟨kept, promised, steady.stable s t step.relied here⟩

/-- A store call on the holdings of the call itself. -/
theorem wp_stored (drawn : Drawn calls i) (steady : Steady calls i P)
    {run : Int → Db → Except PyError (α × Db)} {post : Except PyError α → World → Prop}
    (stable : ∀ result s t, SettleRely calls i i s t → post result s → post result t)
    (quiet : ∀ (w : World) value db, run w.clock w.db = .ok (value, db) →
      QuietStep (calls i).call.reservation? (calls i).call.holder? w { w with db })
    (succeeds : ∀ (w : World) value db, SettleInv calls i w → P w → run w.clock w.db = .ok (value, db) →
      post (.ok value) { w with db })
    (raises : ∀ (w : World) error, SettleInv calls i w → P w → run w.clock w.db = .error error →
      post (.error error) w) (holds : P s) :
    (stored run).wp (settleContract calls i i) post s := by
  refine Prog.wp_atomic (fun t value u invT relied ran => ?_) fun t error invT relied ran => ?_
  · unfold onStore at ran
    split at ran
    next value db returned =>
      obtain ⟨rfl, rfl⟩ := Prod.mk.inj (Except.ok.inj ran)
      have here := steady.stable s t relied holds
      obtain ⟨kept, promised⟩ := invT.quiet drawn (steady.entered t here) (quiet t _ _ returned)
      exact ⟨kept, promised, fun v _ later => stable _ _ _ later (succeeds t _ _ invT here returned)⟩
    next => simp at ran
  · unfold onStore at ran
    split at ran
    next => simp at ran
    next error returned =>
      obtain rfl := Except.error.inj ran
      have here := steady.stable s t relied holds
      exact ⟨(invT.quiet drawn (steady.entered t here) (Std.Refl.refl t)).2,
        fun v _ later => stable _ _ _ later (raises t _ invT here returned)⟩

/-- The same where an exception may strike first. -/
theorem wp_storeCall (drawn : Drawn calls i) (steady : Steady calls i P)
    {run : Int → Db → Except PyError (α × Db)} {post : Except PyError α → World → Prop}
    (stable : ∀ result s t, SettleRely calls i i s t → post result s → post result t)
    (quiet : ∀ (w : World) value db, run w.clock w.db = .ok (value, db) →
      QuietStep (calls i).call.reservation? (calls i).call.holder? w { w with db })
    (succeeds : ∀ (w : World) value db, SettleInv calls i w → P w → run w.clock w.db = .ok (value, db) →
      post (.ok value) { w with db })
    (raises : ∀ w error, P w → post (.error error) w) (holds : P s) :
    (storeCall run).wp (settleContract calls i i) post s :=
  Prog.wp_exposed (fun _ t _ relied => raises t _ (steady.stable s t relied holds))
    (wp_stored drawn steady stable quiet succeeds (fun w error _ here _ => raises w error here) holds)

/-- The work of an operation, which ends with its state transaction. -/
theorem wp_work (drawn : Drawn calls i) {budgetId : String} {program : Op Json}
    (stable : ∀ s t, (∀ resource token, (calls i).call.Holds t resource token →
      (calls i).call.Holds s resource token) → Q s → Q t)
    (commits : program.Commits (QuietStep none none) (fun _ => Consumes i (calls i).call) none)
    (inv : SettleInv calls i s) (stage : Stage calls i budgetId false s) (holds : Q s) :
    program.wp (settleContract calls i i) (fun result t => match result with
      | .ok _ => Stage calls i budgetId true t ∧ Q t
      | .error _ => ∃ committed, Stage calls i budgetId committed t ∧ Q t) s := by
  have steady : ∀ committed : Bool, Steady calls i fun w => Stage calls i budgetId committed w ∧ Q w :=
    fun committed => (steady_stage budgetId committed).and fun s t relied =>
      stable s t (relied.leased rfl)
  refine Prog.wp_mono ?_ (Prog.wp_of_commits (c := settleContract calls i i)
    (P := fun committed w => Stage calls i budgetId committed.isSome w ∧ Q w) commits inv ⟨stage, holds⟩
    (fun committed s t _ _ => (steady committed.isSome).stable s t) ?_ ?_)
  · intro result t _ here
    cases result with
    | ok value => exact here
    | error error => exact ⟨_, here.choose_spec⟩
  · intro committed s t invS here step
    obtain ⟨kept, promised⟩ := invS.quiet drawn here.1.1 step.widen
    exact ⟨kept, promised, (steady committed.isSome).stable s t step.relied here⟩
  · intro value s t invS here step
    obtain ⟨kept, promised⟩ := invS.consumes drawn here.1.1 step
    have shrinks : ∀ resource token, (calls i).call.Holds t resource token →
        (calls i).call.Holds s resource token := holds_confined step.confined fun _ _ => by simp
    refine ⟨kept, promised, ?_, stable s t shrinks here.2⟩
    obtain ⟨⟨entered, _, status, held, _⟩, _⟩ := here
    obtain ⟨response, commit, notes⟩ := step.notes
    refine ⟨?_, ?_, .consumed, ?_, by simp⟩
    · obtain ⟨key, request, present⟩ := entered
      exact ⟨key, request, by simp [notes, present]⟩
    · simp only [Option.isSome_some, iff_true]
      exact ⟨(calls i).call.key, response, commit, by simp [notes]⟩
    · unfold Call.held at held ⊢
      split
      next tenantId reservationId reserves =>
        rw [reserves] at held
        exact step.consumed _ _ _ reserves held
      next none => simp [none] at held

end Rules

/-! The reservation and the lease of the call. -/

section Own

variable {calls : Nat → SettledCall} {i : Nat} {s : World} {Q : World → Prop}
  {tenantId budgetId reservationId : String}

theorem held_own (own : (calls i).call.reservation? = some (tenantId, reservationId)) (w : World) :
    (calls i).call.held w = w.db.held tenantId reservationId := by
  simp [Call.held, own]

theorem wp_reserve (drawn : Drawn calls i)
    (own : (calls i).call.reservation? = some (tenantId, reservationId)) (units : Int)
    (fresh : Fresh calls i s) :
    (storeCall fun now db => reserveBudget now tenantId budgetId reservationId units db).wp
      (settleContract calls i i) (fun result t => match result with
        | .ok _ => Stage calls i budgetId false t ∧ Unleased calls i t
        | .error _ => Kept calls i t ∧ Unleased calls i t) s := by
  refine wp_storeCall drawn steady_fresh ?_ (fun w value db ran => own ▸ quiet_reserved ran)
    (fun w value db _ fresh ran => ⟨⟨fresh.entered, ?_, .reserved, ?_, by simp⟩, ?_⟩)
    (fun w error fresh => ⟨fresh.kept, fresh.unleased⟩) fresh
  · intro result s t relied here
    cases result with
    | ok value => exact ⟨here.1.stable relied, here.2.stable relied⟩
    | error error => exact ⟨here.1.stable relied, here.2.stable relied⟩
  · simp only [Bool.false_eq_true, iff_false]
    exact fresh.uncommitted
  · rw [held_own own]
    exact reserved_held ran ((held_own own w).symm.trans fresh.unheld)
  · have confined : Confined (some (tenantId, reservationId)) none w.db db := .reserved ran
    intro resource token holds
    have before : (calls i).call.Holds w resource token :=
      holds_confined (t := { w with db }) confined (fun _ _ => by simp) _ _ holds
    exact fresh.unleased _ _ before

/-- The release at the end: it succeeds before the commit, and is a conflict after it. -/
theorem wp_release (drawn : Drawn calls i)
    (own : (calls i).call.reservation? = some (tenantId, reservationId))
    (shrinks : ∀ s t, (∀ resource token, (calls i).call.Holds t resource token →
      (calls i).call.Holds s resource token) → Q s → Q t)
    {committed : Bool} (stage : Stage calls i budgetId committed s) (holds : Q s) :
    (stored fun now db => releaseBudget now tenantId budgetId reservationId db).wp
      (settleContract calls i i) (fun result t => (Kept calls i t ∧ Q t) ∧
        ∀ error, result = .error error → error.isConflict = true) s := by
  have steady : Steady calls i fun w => Stage calls i budgetId committed w ∧ Q w :=
    (steady_stage budgetId committed).and fun s t relied => shrinks s t (relied.leased rfl)
  refine wp_stored drawn steady (fun result s t relied here => ⟨⟨here.1.1.stable relied,
    shrinks s t (relied.leased rfl) here.1.2⟩, here.2⟩) (fun w value db ran => own ▸ quiet_released ran)
    ?_ ?_ ⟨stage, holds⟩
  · rintro w snapshot db inv ⟨⟨entered, remarked, status, held, spent⟩, holds⟩ ran
    have confined : Confined (some (tenantId, reservationId)) none w.db db := .settled ran
    refine ⟨⟨?_, shrinks w _ (holds_confined (t := { w with db }) confined fun _ _ => by simp) holds⟩,
      by simp⟩
    rw [held_own own] at held
    by_cases consumed : status = .consumed
    · subst consumed
      obtain ⟨message, raised⟩ := release_consumed w.clock held
      simp [raised] at ran
    · obtain ⟨_, after, released, there⟩ := release_held w.clock inv.ledger held consumed
      obtain ⟨_, rfl⟩ := Prod.mk.inj (Except.ok.inj (released.symm.trans ran))
      refine ⟨entered, fun done => absurd (spent.mpr (remarked.mp done)) consumed, fun _ => ?_⟩
      rw [held_own own]
      simp [there]
  · rintro w error inv ⟨stage, holds⟩ raised
    obtain ⟨entered, remarked, status, held, spent⟩ := stage
    rw [held_own own] at held
    by_cases consumed : status = .consumed
    · subst consumed
      obtain ⟨message, conflict⟩ := release_consumed w.clock held
      obtain rfl := Except.error.inj (conflict.symm.trans raised)
      have done := remarked.mpr (spent.mp rfl)
      refine ⟨⟨⟨entered, fun _ => ⟨budgetId, (held_own own w).trans held⟩, fun not => absurd done not⟩,
        holds⟩, ?_⟩
      rintro _ ⟨⟩
      rfl
    · obtain ⟨_, after, released, _⟩ := release_held w.clock inv.ledger held consumed
      simp [released] at raised

/-- A read that nothing strikes. -/
theorem wp_storedRead (drawn : Drawn calls i) {P : World → Prop} (steady : Steady calls i P)
    {read : Db → Except PyError α} {post : Except PyError α → World → Prop}
    (stable : ∀ result s t, SettleRely calls i i s t → post result s → post result t)
    (reads : ∀ w, SettleInv calls i w → P w → post (read w.db) w) (holds : P s) :
    (storedRead read).wp (settleContract calls i i) post s := by
  have still : ∀ t, SettleInv calls i t → P t → SettleGuar calls i i t t := fun t inv here =>
    (inv.quiet drawn (steady.entered t here) (Std.Refl.refl t)).2
  refine Prog.wp_atomic (fun t value u invT relied ran => ?_) fun t error invT relied ran => ?_
  · split at ran
    next value returned =>
      obtain ⟨rfl, rfl⟩ := Prod.mk.inj (Except.ok.inj ran)
      have here := steady.stable s t relied holds
      exact ⟨invT, still t invT here, fun v _ later => stable _ _ _ later (returned ▸ reads t invT here)⟩
    next => simp at ran
  · split at ran
    next => simp at ran
    next error returned =>
      obtain rfl := Except.error.inj ran
      have here := steady.stable s t relied holds
      exact ⟨still t invT here, fun v _ later => stable _ _ _ later (returned ▸ reads t invT here)⟩

theorem holds_own {holder : String} (named : (calls i).call.holder? = some holder) {w : World}
    {resource : String × String} {token : Int} :
    (calls i).call.Holds w resource token ↔ w.db.Leased holder resource token := by
  simp [Call.Holds, named]

/-- After an acquisition: the lease is held under some token, or none is. -/
def Acquired {α : Type} (calls : Nat → SettledCall) (i : Nat) (resource : String × String) :
    Except PyError α → World → Prop
  | .ok _, w => ∃ token, Under calls i resource token w
  | .error _, w => Unleased calls i w

/-- The acquired lease, or none where it was lost at once. -/
theorem wp_acquire (drawn : Drawn calls i) {holder resourceId : String} (ttlSeconds : Int)
    (named : (calls i).call.holder? = some holder) (inv : SettleInv calls i s)
    (stage : Stage calls i budgetId false s) (unleased : Unleased calls i s) :
    (settledAcquire tenantId resourceId holder ttlSeconds).wp (settleContract calls i i)
      (fun result t => Stage calls i budgetId false t ∧ match result with
        | .ok lease => Under calls i (tenantId, resourceId) lease.fencingToken t
        | .error _ => Unleased calls i t) s := by
  have steady : Steady calls i fun w => Stage calls i budgetId false w ∧ Unleased calls i w :=
    (steady_stage budgetId false).and fun _ _ => .stable
  have acquires : (storeCall fun now db =>
      acquireLease now tenantId resourceId holder ttlSeconds none db).wp (settleContract calls i i)
      (fun result t => Stage calls i budgetId false t ∧
        Acquired calls i (tenantId, resourceId) result t) s := by
    refine wp_storeCall drawn steady ?_ (fun w value db ran => named ▸ quiet_acquired ran) ?_
      (fun w error here => here) ⟨stage, unleased⟩
    · intro result s t relied here
      refine ⟨here.1.stable relied, ?_⟩
      cases result with
      | ok value =>
          obtain ⟨token, under⟩ := here.2
          exact ⟨token, under.stable relied⟩
      | error error => exact here.2.stable relied
    · rintro w ⟨⟩ db _ ⟨stage, unleased⟩ ran
      have quiet : QuietStep none (some holder) w { w with db } := quiet_acquired ran
      have same : (calls i).call.held { w with db } = (calls i).call.held w :=
        held_confined quiet.confined fun reserves same => reserves same.symm
      refine ⟨⟨stage.1, stage.2.1, ?_⟩, leaseToken (db.leases.find? (tenantId, resourceId)), ?_⟩
      · rw [same]
        exact stage.2.2
      · intro other number holds
        rw [holds_own named] at holds
        have free : ∀ resource token, ¬w.db.Leased holder resource token := fun resource token leased =>
          unleased resource token ((holds_own named).mpr leased)
        obtain ⟨rfl, range⟩ := acquired_leased ran free holds
        obtain ⟨row, found, _, rfl⟩ := holds
        simp only at found
        simp only [found, leaseToken, Option.elim]
        exact ⟨trivial, trivial, range⟩
  refine Prog.wp_bind inv (Prog.wp_mono ?_ acquires)
  intro result t invT here
  cases result with
  | error error => exact here
  | ok value =>
      obtain ⟨stage, token, under⟩ := here
      have reads : Steady calls i fun w => Stage calls i budgetId false w ∧
          Under calls i (tenantId, resourceId) token w :=
        (steady_stage budgetId false).and fun _ _ => .stable
      refine wp_storedRead drawn reads ?_ ?_ ⟨stage, under⟩
      · intro result s t relied here
        refine ⟨here.1.stable relied, ?_⟩
        cases result with
        | ok lease => exact here.2.stable relied
        | error error => exact here.2.stable relied
      · rintro w _ ⟨stage, under⟩
        refine ⟨stage, ?_⟩
        cases read : getLease tenantId resourceId w.db with
        | ok lease =>
            intro other number holds
            obtain ⟨rfl, rfl, range⟩ := under other number holds
            obtain ⟨row, found, _, rfl⟩ := (holds_own named).mp holds
            obtain rfl : row = lease := by
              rw [getLease, orRaise_eq_ok, found] at read
              exact Option.some.inj read
            exact ⟨rfl, rfl, range⟩
        | error error =>
            intro other number holds
            obtain ⟨rfl, _, _⟩ := under other number holds
            obtain ⟨row, found, _⟩ := (holds_own named).mp holds
            rw [getLease, orRaise_eq_error, found] at read
            simp at read

/-- The reservation is settled and no lease is left. -/
def Cleared (calls : Nat → SettledCall) (i : Nat) (w : World) : Prop :=
  Kept calls i w ∧ Unleased calls i w

theorem Cleared.stable {t : World} (relied : SettleRely calls i i s t) (cleared : Cleared calls i s) :
    Cleared calls i t := ⟨cleared.1.stable relied, cleared.2.stable relied⟩

theorem wp_free (drawn : Drawn calls i) {holder resourceId : String} {token : Int}
    (named : (calls i).call.holder? = some holder) (kept : Kept calls i s)
    (under : Under calls i (tenantId, resourceId) token s) :
    (stored fun now db => releaseLease now tenantId resourceId holder token db).wp
      (settleContract calls i i) (fun _ t => Cleared calls i t) s := by
  have steady : Steady calls i fun w => Kept calls i w ∧ Under calls i (tenantId, resourceId) token w :=
    steady_kept.and fun _ _ => .stable
  refine wp_stored drawn steady (fun _ _ _ => .stable) (fun w value db ran => quiet_freed ran) ?_ ?_
    ⟨kept, under⟩
  · rintro w ⟨⟩ db _ ⟨kept, under⟩ ran
    have quiet : QuietStep none none w { w with db } := quiet_freed ran
    have relied : SettleRely calls i i w { w with db } := quiet.relied
    refine ⟨kept.stable relied, fun other number holds => ?_⟩
    obtain ⟨rfl, _, _⟩ := under other number (relied.leased rfl _ _ holds)
    exact freed_leased ran ((holds_own named).mp holds)
  · rintro w error _ ⟨kept, under⟩ raised
    refine ⟨kept, fun other number holds => ?_⟩
    obtain ⟨rfl, rfl, range⟩ := under other number holds
    obtain ⟨after, freed⟩ := releaseLease_leased w.clock ((holds_own named).mp holds) range
    simp [freed] at raised

/-- What is known of the lease in the finally clause. -/
def LeaseKnown (calls : Nat → SettledCall) (i : Nat) (resource : String × String)
    (lease : Option LeaseRow) (w : World) : Prop :=
  match lease with
  | none => Unleased calls i w
  | some lease => Under calls i resource lease.fencingToken w

theorem LeaseKnown.shrinks {resource : String × String} {lease : Option LeaseRow} {t : World}
    (fewer : ∀ other number, (calls i).call.Holds t other number → (calls i).call.Holds s other number)
    (known : LeaseKnown calls i resource lease s) : LeaseKnown calls i resource lease t := by
  cases lease with
  | none => exact Unleased.shrinks fewer known
  | some lease => exact Under.shrinks fewer known

/-- The finally clause looks at the budget first: its units are reserved as long as the reservation
stands. -/
theorem wp_settle (drawn : Drawn calls i) {committed : Bool}
    (own : (calls i).call.reservation? = some (tenantId, reservationId))
    (shrinks : ∀ s t, (∀ resource token, (calls i).call.Holds t resource token →
      (calls i).call.Holds s resource token) → Q s → Q t)
    (inv : SettleInv calls i s) (stage : Stage calls i budgetId committed s) (holds : Q s) :
    ((do
      let budget ← storedRead (getBudget tenantId budgetId)
      if budget.reservedUnits ≠ 0 then do
        let _ ← stored fun now db => releaseBudget now tenantId budgetId reservationId db
        return ()
      else return () : Op Unit).tryCatch
        fun error => .require (error.isConflict || error.isNotFound) error).wp (settleContract calls i i)
      (fun result t => result = .ok () ∧ Kept calls i t ∧ Q t) s := by
  have keeps : ∀ s t, SettleRely calls i i s t → Q s → Q t := fun s t relied =>
    shrinks s t (relied.leased rfl)
  have steady : Steady calls i fun w => Stage calls i budgetId committed w ∧ Q w :=
    (steady_stage _ _).and keeps
  have reads : (storedRead (getBudget tenantId budgetId)).wp (settleContract calls i i)
      (fun result t => (Stage calls i budgetId committed t ∧ Q t) ∧ ∃ budget,
        result = .ok budget ∧ (budget.reservedUnits = 0 → Kept calls i t)) s := by
    refine wp_storedRead drawn steady ?_ ?_ ⟨stage, holds⟩
    · rintro result s t relied ⟨here, budget, same, kept⟩
      exact ⟨steady.stable s t relied here, budget, same, fun none => (kept none).stable relied⟩
    · intro w inv here
      have known := here
      obtain ⟨⟨entered, remarked, status, held, spent⟩, _⟩ := here
      obtain ⟨row, found, positive⟩ := held_funded inv.ledger ((held_own own w).symm.trans held)
      have read : getBudget tenantId budgetId w.db = .ok row.snapshot := by
        simp [getBudget, found, orRaise, bind, Except.bind, pure, Except.pure]
      refine ⟨known, row.snapshot, read, fun none => ?_⟩
      cases status with
      | reserved =>
          have := positive rfl
          simp only [BudgetRow.snapshot] at none
          omega
      | consumed =>
          have done := remarked.mpr (spent.mp rfl)
          exact ⟨entered, fun _ => ⟨budgetId, held⟩, fun uncommitted => absurd done uncommitted⟩
      | released =>
          refine ⟨entered, fun done => ?_, fun _ => by simp [held]⟩
          have consumed := spent.mpr (remarked.mp done)
          simp at consumed
  refine Prog.wp_tryCatch inv (Prog.wp_bind inv (Prog.wp_mono ?_ reads))
  rintro result t invT ⟨⟨stage, holds⟩, budget, rfl, settled⟩
  dsimp only
  split
  next _ =>
    refine Prog.wp_bind invT (Prog.wp_mono ?_ (wp_release drawn own shrinks stage holds))
    rintro result u invU ⟨kept, conflict⟩
    cases result with
    | ok _ => exact Prog.wp_done fun v _ relied => ⟨rfl, kept.1.stable relied, keeps _ _ relied kept.2⟩
    | error error =>
        simp only [conflict error rfl, Bool.true_or, Prog.require, if_true]
        exact Prog.wp_done fun v _ relied => ⟨rfl, kept.1.stable relied, keeps _ _ relied kept.2⟩
  next none =>
    exact Prog.wp_done fun u _ relied =>
      ⟨rfl, (settled (not_not.mp none)).stable relied, keeps _ _ relied holds⟩

/-- The finally clause of a training request. -/
theorem wp_cleanup (drawn : Drawn calls i) {principal : Principal} {family holder : String}
    (own : (calls i).call.reservation? = some (principal.tenantId, reservationId))
    (named : (calls i).call.holder? = some holder) {committed : Bool} (lease : Option LeaseRow)
    (inv : SettleInv calls i s) (stage : Stage calls i "api-compute" committed s)
    (known : LeaseKnown calls i (principal.tenantId, "train:" ++ family) lease s) :
    (settledCleanup principal family holder reservationId lease).wp (settleContract calls i i)
      (fun _ t => Cleared calls i t) s := by
  refine Prog.wp_bind inv (Prog.wp_mono ?_
    (wp_settle drawn own (fun _ _ => LeaseKnown.shrinks) inv stage known))
  rintro result t invT ⟨rfl, kept, under⟩
  cases lease with
  | none => exact Prog.wp_done fun u _ relied => Cleared.stable relied ⟨kept, under⟩
  | some lease =>
      refine Prog.wp_tryCatch invT (Prog.wp_mono ?_ (wp_free drawn named kept under))
      intro result u _ cleared
      cases result with
      | ok _ => exact cleared
      | error error =>
          exact Prog.wp_require (fun _ v _ relied => cleared.stable relied)
            fun v _ relied => cleared.stable relied

end Own

/-! The operations. -/

section Operations

variable {Model : Type} {plane : ControlPlane Model} {calls : Nat → SettledCall} {i : Nat} {s : World}

theorem Fresh.cleared (fresh : Fresh calls i s) : Cleared calls i s := ⟨fresh.kept, fresh.unleased⟩

/-- A step before the reservation. -/
theorem wp_before (drawn : Drawn calls i) {program : Op α} {rest : α → Op β}
    (only : program.Only (QuietStep none none)) (inv : SettleInv calls i s) (fresh : Fresh calls i s)
    (later : ∀ value t, SettleInv calls i t → Fresh calls i t →
      (rest value).wp (settleContract calls i i) (fun _ u => Cleared calls i u) t) :
    (program.bind rest).wp (settleContract calls i i) (fun _ u => Cleared calls i u) s :=
  wp_quiet drawn steady_fresh only inv fresh (fun _ _ => Fresh.cleared) later

theorem decision_cleared (drawn : Drawn calls i) {request : Json}
    (made : (calls i).call.request = .runDecision request) (inv : SettleInv calls i s)
    (fresh : Fresh calls i s) :
    (plane.settledDecision i (calls i).call.key (calls i).call.draws (calls i).call.principal request).wp
      (settleContract calls i i) (fun _ t => Cleared calls i t) s := by
  have own : (calls i).call.reservation? =
      some ((calls i).call.principal.tenantId, "decision-" ++ (calls i).call.draws.uuid 0) := by
    simp [Call.reservation?, made]
  refine wp_before drawn (only_ofExcept _) inv fresh fun simulations t inv fresh => ?_
  refine wp_before drawn (only_ofExcept _) inv fresh fun seed t inv fresh => ?_
  refine wp_before drawn (only_ofExcept _) inv fresh fun family t inv fresh => ?_
  refine wp_before drawn (Prog.only_require _ _) inv fresh fun _ t inv fresh => ?_
  refine wp_before drawn (quiet_openBudget _ _ _) inv fresh fun _ t inv fresh => ?_
  refine Prog.wp_bind inv (Prog.wp_mono ?_ (wp_reserve drawn own simulations fresh))
  intro result t inv after
  cases result with
  | error error => exact after
  | ok _ =>
      obtain ⟨stage, unleased⟩ := after
      refine Prog.wp_tryCatch inv (Prog.wp_mono ?_ (wp_work drawn
        (fun _ _ => Unleased.shrinks)
        (commits_decisionWork _ _ _ _ _ fun _ _ _ _ _ => consumes_decision own) inv stage unleased))
      intro result t inv after
      cases result with
      | ok response => exact ⟨after.1.kept, after.2⟩
      | error error =>
          obtain ⟨committed, stage, unleased⟩ := after
          refine Prog.wp_bind inv (Prog.wp_mono ?_ (wp_release drawn own (fun _ _ => Unleased.shrinks)
            stage unleased))
          intro result t inv cleared
          cases result with
          | ok _ => exact Prog.wp_done fun u _ relied => Cleared.stable relied cleared.1
          | error error => exact cleared.1

theorem hidden_cleared (drawn : Drawn calls i) {request : Json}
    (made : (calls i).call.request = .evaluateHiddenBenchmark request) (inv : SettleInv calls i s)
    (fresh : Fresh calls i s) :
    (plane.settledHidden i (calls i).call.key (calls i).call.draws (calls i).call.principal request).wp
      (settleContract calls i i) (fun _ t => Cleared calls i t) s := by
  have own : (calls i).call.reservation? =
      some ((calls i).call.principal.tenantId, "attempt:" ++ (calls i).call.key.key) := by
    simp [Call.reservation?, made]
  refine wp_before drawn (Prog.only_require _ _) inv fresh fun _ t inv fresh => ?_
  refine wp_before drawn (only_ofExcept _) inv fresh fun challengerId t inv fresh => ?_
  refine wp_before drawn (only_loadArtifact _ _) inv fresh fun _ t inv fresh => ?_
  refine wp_before drawn (only_storeRead _) inv fresh fun artifact t inv fresh => ?_
  refine wp_before drawn (only_ofExcept _) inv fresh fun path t inv fresh => ?_
  refine wp_before drawn (only_readWorld _) inv fresh fun _ t inv fresh => ?_
  refine wp_before drawn (only_readWorld _) inv fresh fun suite t inv fresh => ?_
  refine wp_before drawn (only_readWorld _) inv fresh fun quotaWindow t inv fresh => ?_
  refine wp_before drawn (quiet_openBudget _ _ _) inv fresh fun _ t inv fresh => ?_
  refine Prog.wp_bind inv (Prog.wp_mono ?_ (wp_reserve drawn own 1 fresh))
  intro result t inv after
  cases result with
  | error error => exact after
  | ok _ =>
      obtain ⟨stage, unleased⟩ := after
      refine Prog.wp_bind inv (Prog.wp_tryCatch inv (Prog.wp_mono ?_ (wp_work drawn
        (fun _ _ => Unleased.shrinks)
        (commits_hiddenWork _ _ _ _ _ fun _ _ _ _ _ _ _ => consumes_hidden own) inv stage unleased)))
      intro result t inv after
      cases result with
      | ok response =>
          have cleared : Cleared calls i t := ⟨after.1.kept, after.2⟩
          refine Prog.wp_bind inv (Prog.wp_mono ?_ (Prog.wp_mayRaise fun _ u _ relied =>
            cleared.stable relied))
          intro result u _ cleared
          cases result with
          | ok _ => exact Prog.wp_done fun v _ relied => Cleared.stable relied cleared
          | error error => exact cleared
      | error error =>
          obtain ⟨committed, stage, unleased⟩ := after
          -- A conflict of the release is dropped, and the first error goes on.
          refine Prog.wp_bind inv (Prog.wp_tryCatch inv (Prog.wp_bind inv (Prog.wp_mono ?_
            (wp_release drawn own (fun _ _ => Unleased.shrinks)
            stage unleased))))
          rintro result t inv ⟨cleared, conflict⟩
          cases result with
          | ok _ =>
              exact Prog.wp_done fun u _ relied => Prog.wp_done fun v _ later =>
                Cleared.stable later (Cleared.stable relied cleared)
          | error error =>
              simp only [conflict error rfl, Prog.require, if_true]
              exact Prog.wp_done fun u _ relied => Prog.wp_done fun v _ later =>
                Cleared.stable later (Cleared.stable relied cleared)

theorem train_cleared (drawn : Drawn calls i) {request : Json}
    (made : (calls i).call.request = .trainChallenger request) (inv : SettleInv calls i s)
    (fresh : Fresh calls i s) :
    (plane.settledTrain i (calls i).call.key (calls i).call.draws (calls i).call.principal request).wp
      (settleContract calls i i) (fun _ t => Cleared calls i t) s := by
  have own : (calls i).call.reservation? =
      some ((calls i).call.principal.tenantId, "training-" ++ (calls i).call.draws.uuid 0) := by
    simp [Call.reservation?, made]
  have named : (calls i).call.holder? = some ((calls i).call.draws.uuid 0) := by
    simp [Call.holder?, made]
  refine wp_before drawn (only_ofExcept _) inv fresh fun family t inv fresh => ?_
  refine wp_before drawn (Prog.only_require _ _) inv fresh fun _ t inv fresh => ?_
  refine wp_before drawn (only_ofExcept _) inv fresh fun episodes t inv fresh => ?_
  refine wp_before drawn (only_ofExcept _) inv fresh fun simulations t inv fresh => ?_
  refine wp_before drawn (quiet_openBudget _ _ _) inv fresh fun _ t inv fresh => ?_
  refine Prog.wp_bind inv (Prog.wp_mono ?_ (wp_reserve drawn own (episodes * simulations) fresh))
  intro result t inv after
  cases result with
  | error error => exact after
  | ok _ =>
      obtain ⟨stage, unleased⟩ := after
      refine Prog.wp_bind inv (Prog.wp_tryCatch inv (Prog.wp_mono ?_
        (wp_acquire drawn _ named inv stage unleased)))
      rintro result t inv ⟨stage, known⟩
      cases result with
      | error error =>
          refine Prog.wp_bind inv (Prog.wp_mono ?_ (wp_cleanup drawn own named none inv stage known))
          intro result t _ cleared
          cases result with
          | ok _ => exact Prog.wp_done fun u _ relied => Cleared.stable relied cleared
          | error error => exact cleared
      | ok lease =>
          refine Prog.wp_tryFinally inv (Prog.wp_mono ?_ (wp_work drawn (fun _ _ => Under.shrinks)
            (commits_trainWork _ _ _ _ _ _ _ (quiet_renew _ _ _ _ _) quiet_writeArtifact
              fun _ _ _ _ _ _ => consumes_train own) inv stage known))
          intro result t inv after
          have ended : ∃ committed, Stage calls i "api-compute" committed t ∧
              Under calls i ((calls i).call.principal.tenantId, "train:" ++ family) lease.fencingToken t := by
            cases result with
            | ok _ => exact ⟨true, after⟩
            | error _ => exact after
          obtain ⟨committed, stage, under⟩ := ended
          refine Prog.wp_mono ?_ (wp_cleanup drawn own named (some lease) inv stage under)
          intro outcome u _ cleared
          cases outcome with
          | ok _ => exact fun v _ relied => cleared.stable relied
          | error error => exact cleared

/-- After the operation of call `j`. -/
def Past (calls : Nat → SettledCall) (i j : Nat) (w : World) : Prop :=
  w.Entered j ∧ (j = i → Cleared calls i w)

/-- What is known when call `j` has a result. -/
def Exited (calls : Nat → SettledCall) (i j : Nat) (w : World) : Prop :=
  j = i → w.Entered i → Cleared calls i w

/-- Call `j` has not entered its operation, where it is the followed one. -/
def Ready (i j : Nat) (w : World) : Prop := j = i → ¬w.Entered i ∧ ¬w.CommittedBy i

section Stable

variable {j : Nat} {t : World}

theorem Past.stable (relied : SettleRely calls i j s t) (past : Past calls i j s) : Past calls i j t := by
  refine ⟨relied.entered.mpr past.1, ?_⟩
  rintro rfl
  exact (past.2 rfl).stable relied

theorem Exited.stable (relied : SettleRely calls i j s t) (exited : Exited calls i j s) :
    Exited calls i j t := by
  rintro rfl entered
  exact (exited rfl (relied.entered.mp entered)).stable relied

theorem Ready.stable (relied : SettleRely calls i j s t) (ready : Ready i j s) : Ready i j t := by
  rintro rfl
  exact ⟨fun entered => (ready rfl).1 (relied.entered.mp entered),
    fun committed => (ready rfl).2 (relied.committed.mp committed)⟩

theorem Past.exited (past : Past calls i j s) : Exited calls i j s := fun same _ => past.2 same

theorem Ready.exited (ready : Ready i j s) : Exited calls i j s :=
  fun same entered => absurd entered (ready same).1

end Stable

/-- The operation of another call only takes the steps that it may take. -/
theorem wp_other (drawn : Drawn calls i) {j : Nat} (inv : SettleInv calls i s) (entered : s.Entered j) :
    (plane.settledOperation j (calls j).call).wp (settleContract calls i j)
      (fun _ t => t.Entered j) s := by
  refine Prog.wp_of_only (commits_settledOperation plane j (calls j).call).only inv entered
    (fun s t _ _ relied => relied.entered.mpr) fun s t invS here step => ?_
  rcases step with quiet | ⟨_, consumes⟩
  · obtain ⟨kept, promised⟩ := invS.quiet drawn here quiet
    exact ⟨kept, promised, (entered_of_notes quiet.notes j).mpr here⟩
  · obtain ⟨kept, promised⟩ := invS.consumes drawn here consumes
    obtain ⟨response, commit, notes⟩ := consumes.notes
    obtain ⟨key, request, present⟩ := here
    exact ⟨kept, promised, key, request, by simp [notes, present]⟩

theorem operation_cleared (drawn : Drawn calls i) {j : Nat}
    (reserves : (calls i).call.reservation? ≠ none) (inv : SettleInv calls i s) (entered : s.Entered j)
    (fresh : j = i → Fresh calls i s) :
    (plane.settledOperation j (calls j).call).wp (settleContract calls i j)
      (fun _ t => Past calls i j t) s := by
  by_cases own : j = i
  · subst own
    refine Prog.wp_mono (fun _ _ _ cleared => ⟨cleared.1.1, fun _ => cleared⟩) ?_
    unfold settledOperation
    unfold Call.reservation? at reserves
    cases made : (calls j).call.request with
    | runDecision request => exact decision_cleared drawn made inv (fresh rfl)
    | evaluateHiddenBenchmark request => exact hidden_cleared drawn made inv (fresh rfl)
    | trainChallenger request => exact train_cleared drawn made inv (fresh rfl)
    | runEvidence _ | promote _ _ | rollback _ _ => simp [made] at reserves
  · exact Prog.wp_mono (fun _ _ _ entered => ⟨entered, fun same => absurd same own⟩)
      (wp_other drawn inv entered)

/-- The wrapper's steps after the operation. -/
inductive Aftermath (plane : ControlPlane Model) (call : Call) : World → World → Prop
  | quiet {w after} : QuietStep none none w after → Aftermath plane call w after
  | claimed {w : World} {record db} :
      plane.store.claimIdempotency w.clock call.key.tenantId call.key.scope call.key.key call.payload
        (some 86400) w.db = .ok (record, db) → Aftermath plane call w { w with db }

instance (plane : ControlPlane Model) (call : Call) : Std.Refl (Aftermath plane call) :=
  ⟨fun w => .quiet (Std.Refl.refl w)⟩

theorem wp_aftermath (drawn : Drawn calls i) {j : Nat} {program : Op α}
    (only : program.Only (Aftermath plane (calls j).call)) (inv : SettleInv calls i s)
    (past : Past calls i j s) :
    program.wp (settleContract calls i j) (fun _ t => Past calls i j t) s := by
  refine Prog.wp_of_only only inv past (fun s t _ _ relied => Past.stable relied)
    fun s t invS here step => ?_
  cases step with
  | quiet step =>
      obtain ⟨kept, promised⟩ := invS.quiet drawn here.1 step.widen
      exact ⟨kept, promised, here.stable step.relied⟩
  | @claimed record db claimed =>
      obtain ⟨kept, promised, _⟩ := invS.claims drawn claimed (.inl rfl) fun _ noted => absurd rfl noted
      have confined : Confined none none s.db db := .claimed claimed
      have relied : SettleRely calls i j s { s with db } :=
        ⟨.rfl, .rfl, fun _ _ => .inl (held_confined confined fun reserves same => reserves same.symm),
          fun _ => holds_confined confined fun _ _ => by simp⟩
      exact ⟨kept, promised, here.stable relied⟩

theorem wp_enter (drawn : Drawn calls i) {j : Nat} (ready : Ready i j s) :
    (plane.claim (calls j).call.key (calls j).call.payload
      [.started j (calls j).call.key (calls j).call.payload]).wp (settleContract calls i j)
      (fun result t => match result with
        | .ok record => if record.isNew then t.Entered j ∧ (j = i → Fresh calls i t) else Ready i j t
        | .error _ => Ready i j t) s := by
  refine Prog.wp_atomic (fun t record u invT relied ran => ?_) fun t error invT relied _ => ?_
  · simp only [bind_eq_ok, pure_eq_ok, Prod.exists, Prod.mk.injEq] at ran
    obtain ⟨record, db, claimed, rfl, rfl⟩ := ran
    have here := ready.stable relied
    cases isNew : record.isNew with
    | true =>
        obtain ⟨kept, promised, first⟩ := invT.claims drawn claimed (.inr ⟨isNew, _, _, rfl⟩)
          fun same _ => (here same).1
        have noted : t.notes ++ [Note.started j (calls j).call.key (calls j).call.payload] ≠ t.notes := by
          simp
        refine ⟨kept, promised, fun v _ later => ?_⟩
        simp only [isNew, if_true]
        have entered : (World.mk db t.clock t.files t.suite (t.notes ++
            [.started j (calls j).call.key (calls j).call.payload])).Entered j :=
          ⟨(calls j).call.key, (calls j).call.payload, by simp⟩
        refine ⟨later.entered.mpr entered, ?_⟩
        rintro rfl
        obtain ⟨unheld, unleased⟩ := first rfl noted
        have confined : Confined none none t.db db := .claimed claimed
        refine Fresh.stable later ⟨entered, ?_, ?_, ?_⟩
        · rintro ⟨key, response, commit, member⟩
          exact (here rfl).2 ⟨key, response, commit, by simpa using member⟩
        · rw [← unheld]
          exact held_confined confined fun reserves same => reserves same.symm
        · exact unleased.shrinks (holds_confined confined fun _ _ => by simp)
    | false =>
        simp only [Bool.false_eq_true, if_false, List.append_nil]
        obtain ⟨kept, promised, _⟩ := invT.claims drawn claimed (.inl rfl) fun _ noted =>
          absurd rfl noted
        refine ⟨kept, promised, fun v _ later => ?_⟩
        simp only [isNew, Bool.false_eq_true, if_false]
        exact Ready.stable later fun same => here same
  · have guar : SettleGuar calls i j t t :=
      ⟨fun _ _ => .rfl, fun _ _ => .rfl, .inr rfl, .inr fun _ _ => id⟩
    exact ⟨guar, fun v _ later => (ready.stable relied).stable later⟩

/-- A call clears up, whole or looked at when its operation body exits. -/
theorem run_cleared (drawn : Drawn calls i) {j : Nat} (reserves : (calls i).call.reservation? ≠ none)
    (inv : SettleInv calls i s) (ready : Ready i j s) :
    ((calls j).run plane j).wp (settleContract calls i j) (fun _ t => Exited calls i j t) s := by
  have entering : ∀ {t : World} {rest : IdempotencyRecord → Op Json}, SettleInv calls i t →
      Ready i j t →
      (∀ record u, SettleInv calls i u → record.isNew = true → u.Entered j →
        (j = i → Fresh calls i u) →
        (rest record).wp (settleContract calls i j) (fun _ v => Exited calls i j v) u) →
      (∀ record u, SettleInv calls i u → record.isNew = false → Ready i j u →
        (rest record).wp (settleContract calls i j) (fun _ v => Exited calls i j v) u) →
      ((plane.claim (calls j).call.key (calls j).call.payload
        [.started j (calls j).call.key (calls j).call.payload]).bind rest).wp (settleContract calls i j)
        (fun _ v => Exited calls i j v) t := by
    intro t rest inv ready enters stays
    refine Prog.wp_bind inv (Prog.wp_mono ?_ (wp_enter drawn ready))
    intro result u invU after
    cases result with
    | error error => exact Ready.exited after
    | ok record =>
        cases isNew : record.isNew with
        | true =>
            simp only [isNew, if_true] at after
            exact enters record u invU isNew after.1 after.2
        | false =>
            simp only [isNew, Bool.false_eq_true, if_false] at after
            exact stays record u invU isNew after
  have waits : ∀ {error : PyError} {t : World}, Ready i j t →
      (Prog.done (.error error) : Op Json).wp (settleContract calls i j)
        (fun _ v => Exited calls i j v) t :=
    fun ready => Prog.wp_done fun u _ relied => (Ready.stable relied ready).exited
  cases made : calls j with
  | body call =>
      have same : (calls j).call = call := by rw [made]; rfl
      subst same
      refine Prog.wp_bind inv (Prog.wp_done fun t invT relied => ?_)
      cases allowedFields (calls j).call with
      | error _ => exact (Ready.stable relied ready).exited
      | ok _ =>
          refine entering invT (ready.stable relied) (fun record u invU isNew entered fresh => ?_)
            fun record u invU isNew ready => ?_
          · simp only [isNew, if_true]
            exact Prog.wp_mono (fun _ _ _ => Past.exited)
              (operation_cleared drawn reserves invU entered fresh)
          · simp only [isNew, Bool.false_eq_true, if_false]
            exact waits ready
  | request call =>
      have same : (calls j).call = call := by rw [made]; rfl
      subst same
      refine Prog.wp_bind inv (Prog.wp_done fun t invT relied => ?_)
      cases allowedFields (calls j).call with
      | error _ => exact (Ready.stable relied ready).exited
      | ok _ =>
          refine entering invT (ready.stable relied) (fun record u invU isNew entered fresh => ?_)
            fun record u invU isNew ready => ?_
          · simp only [isNew, if_true]
            have recovers : ∀ error, (plane.recoverResponse (calls j).call.key (calls j).call.payload
                error).Only (Aftermath plane (calls j).call) := fun error =>
              only_recovers error (fun _ _ _ => .claimed) fun _ _ _ _ _ ran => .quiet (quiet_finished ran)
            have finishes : ∀ result, (storeCall fun now db => completeIdempotency now
                (calls j).call.key.tenantId (calls j).call.key.scope (calls j).call.key.key result
                db).Only (Aftermath plane (calls j).call) := fun result =>
              only_storeCall fun _ _ _ ran => .quiet (quiet_finished ran)
            refine Prog.wp_tryCatch invU (Prog.wp_bind invU (Prog.wp_mono ?_
              (operation_cleared drawn reserves invU entered fresh)))
            intro result v invV past
            cases result with
            | error error =>
                exact Prog.wp_mono (fun _ _ _ => Past.exited)
                  (wp_aftermath drawn (recovers error) invV past)
            | ok response =>
                refine Prog.wp_bind invV (Prog.wp_mono ?_
                  (wp_aftermath drawn (finishes response) invV past))
                intro result x invX past
                cases result with
                | error error =>
                    exact Prog.wp_mono (fun _ _ _ => Past.exited)
                      (wp_aftermath drawn (recovers error) invX past)
                | ok _ => exact Prog.wp_done fun y _ later => (Past.stable later past).exited
          · simp only [isNew, Bool.false_eq_true, if_false]
            split
            · exact Prog.wp_done fun u _ relied => (Ready.stable relied ready).exited
            · exact waits ready

end Operations

end AgentTree
