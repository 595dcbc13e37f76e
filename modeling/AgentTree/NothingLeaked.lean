import AgentTree.Settlement

/-!
No reservation and no training lease is leaked, in every run of many calls.
-/

namespace AgentTree

open Outcome Relational Concurrent ControlPlane

/-- The identifier that names the reservation of a decision or a training request. -/
def Call.drawn? (call : Call) : Option String :=
  match call.request with
  | .runDecision _ | .trainChallenger _ => some (call.draws.uuid 0)
  | _ => none

section Distinct

theorem prefix_apart {first second left right : String}
    (apart : first.toList.head? ≠ second.toList.head?) (filled : first.toList ≠ []) (filled' : second.toList ≠ []) :
    first ++ left ≠ second ++ right := by
  intro same
  have heads := congrArg (fun text => text.toList.head?) same
  simp only [String.toList_append, List.head?_append_of_ne_nil _ filled,
    List.head?_append_of_ne_nil _ filled'] at heads
  exact apart heads

/-- Calls that draw different identifiers only share an id on one hidden benchmark key. -/
theorem drawn_of_distinct {calls : Nat → SettledCall} {i : Nat}
    (distinct : ∀ j k drawn, (calls j).call.drawn? = some drawn → (calls k).call.drawn? = some drawn →
      j = k) : Drawn calls i := by
  refine ⟨fun j shares => ?_, fun j holder mine theirs => ?_⟩
  · obtain ⟨same, reserves⟩ := shares
    unfold Call.reservation? at same reserves
    have apart := distinct j i
    unfold Call.drawn? at apart
    cases mine : (calls j).call.request <;> cases theirs : (calls i).call.request <;>
      simp only [mine, theirs, Option.some.injEq, Prod.mk.injEq, String.append_right_inj, reduceCtorEq,
        ne_eq, not_true_eq_false] at same reserves apart
    all_goals try exact absurd same.2 (prefix_apart (by decide) (by decide) (by decide))
    · exact .inl (apart _ same.2 rfl)
    · refine .inr ⟨by simp [Call.scope, theirs], ?_⟩
      obtain ⟨tenant, key⟩ := same
      simp only [Call.key] at key
      simp only [Call.key, Call.scope, mine, theirs, tenant, key]
    · exact .inl (apart _ same.2 rfl)
  · unfold Call.holder? at mine theirs
    refine distinct j i holder ?_ ?_
    · unfold Call.drawn?
      split at mine <;> simp_all
    · unfold Call.drawn?
      split at theirs <;> simp_all

end Distinct

section Recovery

variable {calls : Nat → SettledCall} {i j : Nat} {s t : World}

/-- A recovery releases what is reserved and takes the leases away. -/
theorem SettleInv.recovers (inv : SettleInv calls i s) (recovered : s.Recovers t) :
    SettleInv calls i t ∧ ∀ j, SettleRely calls i j s t := by
  obtain ⟨notes, clock, _⟩ := recovered.same
  have records := fun k : OperationKey => recovered.record k.row
  have held : (calls i).call.held t = (calls i).call.held s ∨
      (calls i).call.held t = ((calls i).call.held s).map lapsed := by
    obtain ⟨report, db, ran, rfl⟩ := recovered
    unfold Call.held
    split
    next tenantId reservationId _ =>
      rw [reconcileStartup_cases ran]
      by_cases none : (s.db.reservations.rows.countP fun row => row.status = .reserved) = 0
      · simp only [none, if_true]
        exact .inl rfl
      · simp only [none, if_false]
        refine .inr ?_
        simp only [Db.held, Table.update, List.filter_map, List.map_map]
        rw [List.filter_congr (q := fun row => row.tenantId = tenantId && row.reservationId = reservationId)]
        · refine List.map_congr_left fun row _ => ?_
          simp only [Function.comp, lapsed]
          split <;> simp_all
        · intro row _
          simp only [Function.comp]
          split <;> rfl
    next => exact .inl rfl
  have unleased : ∀ resource token, ¬(calls i).call.Holds t resource token := by
    obtain ⟨report, db, ran, rfl⟩ := recovered
    rintro resource token ⟨holder, _, row, found, own, _⟩
    rw [reconcileStartup_cases ran, Table.find?_update] at found
    obtain ⟨old, _, rfl⟩ := Option.map_eq_some_iff.mp found
    split at own
    next => simp at own
    next free => simp [own] at free
  have entered := entered_of_notes notes
  refine ⟨⟨?_, fun hidden row found => ?_, fun hidden j shares here => ?_,
    fun j k first second here there =>
      inv.alone j k first second ((entered j).mp here) ((entered k).mp there), fun nonempty => ?_,
    fun resource token holds => absurd holds (unleased _ _)⟩,
    fun j => ⟨entered j, committed_of_notes notes j, fun _ _ => held, fun _ resource token holds =>
      absurd holds (unleased _ _)⟩⟩
  · obtain ⟨report, db, ran, rfl⟩ := recovered
    exact (reconcileStartup_kept inv.ledger ran).1
  · rw [World.record, records] at found
    obtain ⟨old, present, rfl⟩ := Option.map_eq_some_iff.mp found
    split
    next => rfl
    next =>
      rw [clock]
      exact inv.lasts hidden old present
  · have kept := inv.recorded hidden j shares ((entered j).mp here)
    rw [World.record, records]
    simpa [World.record] using kept
  · have before : (calls i).call.held s ≠ [] := by
      intro none
      rcases held with same | same <;> simp [same, none] at nonempty
    obtain ⟨k, shares, here⟩ := inv.reserved before
    exact ⟨k, shares, (entered k).mpr here⟩

end Recovery

/-- Proof that the calls keep what call `i` relies on. -/
def settleVerified {Model : Type} (plane : ControlPlane Model) (calls : Nat → SettledCall) (i : Nat)
    (drawn : Drawn calls i) (reserves : (calls i).call.reservation? ≠ none) :
    (plane.settledService calls (World.Lasting (calls i).call)).Verified where
  inv := SettleInv calls i
  rely := SettleRely calls i
  guar := SettleGuar calls i
  pre := Ready i
  post j _ := Exited calls i j
  dead _ _ := True
  rely_refl := .refl
  rely_trans _ := .trans
  compatible other inv _ promised := promised.relied other inv
  pre_stable _ _ := Ready.stable
  post_stable _ _ := Exited.stable
  dead_stable _ _ _ _ := trivial
  surroundings_kept := by
    rintro s t inv ⟨⟨db, notes⟩ | recovered, lasts⟩
    · have entered := entered_of_notes notes
      have held : (calls i).call.held t = (calls i).call.held s := by simp [Call.held, db]
      have leased : ∀ resource token, (calls i).call.Holds t resource token ↔
          (calls i).call.Holds s resource token := by simp [Call.Holds, db]
      refine ⟨⟨db ▸ inv.ledger, lasts, fun hidden j shares here => ?_, fun j k first second here there =>
        inv.alone j k first second ((entered j).mp here) ((entered k).mp there), fun nonempty => ?_,
        fun resource token holds => (entered i).mpr (inv.leased _ _ ((leased _ _).mp holds))⟩,
        fun j => ⟨entered j, committed_of_notes notes j, fun _ _ => .inl held,
          fun _ resource token => (leased resource token).mp⟩⟩
      · have kept := inv.recorded hidden j shares ((entered j).mp here)
        simpa [World.record, db] using kept
      · obtain ⟨k, shares, here⟩ := inv.reserved (held ▸ nonempty)
        exact ⟨k, shares, (entered k).mpr here⟩
    · exact inv.recovers recovered
  recovery_kept inv recovered := by
    obtain ⟨kept, relied⟩ := inv.recovers recovered
    exact ⟨kept, fun i => ⟨trivial, Ready.stable (relied i), fun _ => Exited.stable (relied i)⟩⟩
  calls_kept inv ready := run_cleared drawn reserves inv ready

/-- What the operation of a call leaves behind. -/
structure NothingLeaked (call : Call) (index : Nat) (w : World) : Prop where
  consumed : w.CommittedBy index → ∃ budgetId, call.held w = [(budgetId, .consumed)]
  released : ¬w.CommittedBy index → ∀ entry ∈ call.held w, entry.2 = .released
  unleased : ∀ row ∈ w.db.leases.rows, ∀ holder, row.holderId = some holder → call.holder? ≠ some holder

/-- Every exit of an operation, with any calls around it: its reservation is consumed exactly if its
state transaction has committed, and its holder has no lease. -/
theorem nothing_leaked {Model : Type} (plane : ControlPlane Model) (calls : Nat → SettledCall) (i : Nat)
    {start : World} {config : Config Nat World PyError Json} {result : Except PyError Json}
    (distinct : ∀ j k drawn, (calls j).call.drawn? = some drawn → (calls k).call.drawn? = some drawn →
      j = k)
    (reserves : (calls i).call.reservation? ≠ none) (ledger : start.db.inLedger)
    (unused : start.notes = []) (unheld : (calls i).call.held start = [])
    (unleased : Unleased calls i start) (lasts : start.Lasts (calls i).call)
    (run : (plane.settledService calls (World.Lasting (calls i).call)).Reachable (.start start) config)
    (exit : config.result i = some result) (entered : config.state.Entered i) :
    NothingLeaked (calls i).call i config.state := by
  have silent : ∀ j, ¬start.Entered j ∧ ¬start.CommittedBy j := by
    simp [World.Entered, World.CommittedBy, unused]
  let verified := settleVerified plane calls i (drawn_of_distinct distinct) reserves
  have inv : SettleInv calls i start :=
    ⟨ledger, lasts, fun _ j _ here => absurd here (silent j).1, fun j _ _ _ here => absurd here (silent j).1,
      fun nonempty => absurd unheld nonempty, fun resource token holds => absurd holds (unleased _ _)⟩
  have sound : verified.Sound config := verified.sound_run inv (fun j _ => silent i) run
  have exited : Exited calls i i config.state := verified.returned sound exit
  obtain ⟨⟨_, consumed, released⟩, free⟩ := exited rfl entered
  refine ⟨consumed, released, fun row member holder own named => ?_⟩
  exact free row.key row.fencingToken ⟨holder, named, row,
    Table.find?_eq_some.mpr ⟨member, rfl⟩, own, rfl⟩

namespace Sample

/-- A training request that is looked at when its body exits, beside a decision and rollbacks. -/
def workers : Nat → SettledCall
  | 0 => .body (training 0 "trainer")
  | 1 => .request {
      principal := ⟨"tenant", "subject"⟩
      request := .runDecision (.obj [])
      idempotencyKey := "key-1"
      draws := draws 1 }
  | call => .request (rollback call)

theorem workers_distinct (j k : Nat) (drawn : String) (first : (workers j).call.drawn? = some drawn)
    (second : (workers k).call.drawn? = some drawn) : j = k := by
  have apart : (draws 0).uuid 0 ≠ (draws 1).uuid 0 := by decide
  match j, k with
  | 0, 0 | 1, 1 => rfl
  | 0, 1 => exact absurd (Option.some.inj (first.trans second.symm)) apart
  | 1, 0 => exact absurd (Option.some.inj (second.trans first.symm)) apart
  | _ + 2, _ => simp [workers, Call.drawn?, SettledCall.call, rollback] at first
  | _, _ + 2 => simp [workers, Call.drawn?, SettledCall.call, rollback] at second

/-- Two attempts at a hidden benchmark with one key; the worker only answers the first. -/
def attempts (call : Nat) : SettledCall := .request {
  principal := ⟨"tenant", "subject"⟩
  request := .evaluateHiddenBenchmark (.obj [("challenger_id", .str (artifactId "third"))])
  idempotencyKey := "key"
  draws := { draws call with
    hiddenBenchmark := fun _ _ =>
      if call = 0 then .ok (.obj [("payload", .obj [
        ("candidate", .obj [("fingerprint_sha256", .str (digest "third"))]),
        ("benchmark", .obj [("suite_sha256", .str (hex [1]))]),
        ("result", .obj [("passed", .int 7), ("failed", .int 3), ("total", .int 10),
          ("normalized_score_ppm", .int 700000)])])])
      else .error (.other "HiddenBenchmarkError" "") } }

theorem ready_unused : ready.db.budgets.rows = [] ∧ ready.db.reservations.rows = [] ∧
    ready.db.leases.rows = [] := by decide +kernel

theorem ready_ledger : ready.db.inLedger := by
  obtain ⟨budgets, reservations, _⟩ := ready_unused
  constructor <;> intro row member <;> simp [budgets, reservations] at member

theorem ready_unheld (call : Call) : call.held ready = [] := by
  unfold Call.held
  split
  · simp [Db.held, ready_unused.2.1]
  · rfl

theorem ready_unleased (calls : Nat → SettledCall) (i : Nat) : Unleased calls i ready := by
  rintro resource token ⟨holder, _, row, found, _⟩
  have member := (Table.find?_eq_some.mp found).1
  simp [ready_unused.2.2] at member

def Note.commitOf (index : Nat) : Note → Bool
  | .committed call _ _ _ => call = index
  | .started _ _ _ => false

theorem committed_iff {w : World} {index : Nat} :
    w.CommittedBy index ↔ w.notes.any (Note.commitOf index) = true := by
  rw [List.any_eq_true]
  constructor
  · rintro ⟨key, response, commit, member⟩
    exact ⟨_, member, by simp [Note.commitOf]⟩
  · rintro ⟨note, member, own⟩
    cases note with
    | started => simp [Note.commitOf] at own
    | committed call key response commit =>
        obtain rfl : call = index := by simpa [Note.commitOf] using own
        exact ⟨key, response, commit, member⟩

def Note.startOf (index : Nat) : Note → Bool
  | .started call _ _ => call = index
  | .committed _ _ _ _ => false

theorem entered_of_any {w : World} {index : Nat} (started : w.notes.any (Note.startOf index) = true) :
    w.Entered index := by
  obtain ⟨note, member, own⟩ := List.any_eq_true.mp started
  cases note with
  | committed => simp [Note.startOf] at own
  | started call key request =>
      obtain rfl : call = index := by simpa [Note.startOf] using own
      exact ⟨key, request, member⟩

end Sample

open Sample in
theorem nothing_leaked_workers : ∃ config : Config Nat World PyError Json,
    NothingLeaked (workers 0).call 0 config.state ∧
      (workers 0).call.held config.state = [("api-compute", .consumed)] := by
  have schedule := (plane.settledService workers (World.Lasting (workers 0).call)).play_exists
    (.spawn 0 :: .spawn 1 :: List.replicate 20 (.act 1) ++ List.replicate 27 (.act 0)) (.start ready)
    (fun config => (config.result 0).any Except.isOk = true ∧
      config.state.notes.any (Note.startOf 0) = true ∧
      (workers 0).call.held config.state = [("api-compute", .consumed)])
    (by simp) (by decide +kernel)
  obtain ⟨config, run, checked⟩ := schedule
  simp only [Bool.decide_and, Bool.and_eq_true, decide_eq_true_eq] at checked
  obtain ⟨returned, started, held⟩ := checked
  obtain ⟨result, exit, _⟩ := (Option.any_eq_true ..).mp returned
  refine ⟨config, ?_, held⟩
  exact nothing_leaked plane workers 0 workers_distinct (by decide) ready_ledger ready_notes
    (ready_unheld _) (ready_unleased _ _) (fun hidden => absurd hidden (by decide)) run exit
    (entered_of_any started)

open Sample in
/-- A key that is used again after a day finds the reservation of its first use: the second attempt
fails, and the reservation under its id is consumed. -/
theorem nothing_leaked_reused : ∃ config : Config Nat World PyError Json,
    (plane.settledService attempts World.Around).Reachable (.start ready) config ∧
      (config.result 1).any (!Except.isOk ·) = true ∧ config.state.Entered 1 ∧
      ¬NothingLeaked (attempts 1).call 1 config.state := by
  have schedule := (plane.settledService attempts World.Around).play_exists
    (.change (fun w => { w with clock := 86398 }) :: .spawn 0 :: .act 0 ::
      .change (fun w => { w with clock := 86400 }) :: List.replicate 25 (.act 0) ++
      .change (fun w => { w with clock := 172799 }) :: .spawn 1 :: List.replicate 22 (.act 1))
    (.start ready)
    (fun config => (config.result 1).any (!Except.isOk ·) = true ∧
      config.state.notes.any (Note.startOf 1) = true ∧
      config.state.notes.any (Note.commitOf 1) = false ∧
      ((attempts 1).call.held config.state).any (·.2 = .consumed) = true)
    (by simp [settledService, World.Around]) (by decide +kernel)
  obtain ⟨config, run, checked⟩ := schedule
  simp only [Bool.decide_and, Bool.and_eq_true, decide_eq_true_eq] at checked
  obtain ⟨raised, started, uncommitted, consumed⟩ := checked
  refine ⟨config, run, raised, entered_of_any started, fun settled => ?_⟩
  obtain ⟨entry, member, spent⟩ := List.any_eq_true.mp consumed
  have released := settled.released (by simp [committed_iff, uncommitted]) entry member
  simp [released] at spent

end AgentTree
