import AgentTree.ControlRuns

/-!
What holds of every commit of a run.  An operation reads first and commits later;
`Keeps` follows it from one read to the next, with all that the other calls may
have added in between.
-/

namespace AgentTree

open Outcome Relational Concurrent ControlPlane

def Note.commit? : Note → Option Commit
  | .committed _ _ _ commit => some commit
  | .started _ _ _ => none

/-- The commits so far, in order. -/
def World.commits (w : World) : List Commit := w.notes.filterMap Note.commit?

structure CommitInv (good : Commit → Prop) (w : World) : Prop where
  chained : w.db.chained
  good : ∀ commit ∈ w.commits, good commit

/-- The others only add rows, and only commit what is good. -/
def commitContract (good : Commit → Prop) : Contract World where
  inv := CommitInv good
  rely s t := Retains s.db t.db
  guar s t := Retains s.db t.db
  rely_refl s := .refl s.db
  rely_trans := .trans

/-- From this world on, the program commits only what is good, and what it returns satisfies `R`. -/
def Yields (good : Commit → Prop) (program : Op α) (R : α → World → Prop) (s : World) : Prop :=
  program.wp (commitContract good) (fun result t => ∀ value, result = .ok value → R value t) s

def Keeps (good : Commit → Prop) (program : Op α) (s : World) : Prop :=
  Yields good program (fun _ _ => True) s

section Rules

variable {Model : Type} {plane : ControlPlane Model} {good : Commit → Prop} {index : Nat} {call : Call}
  {s w after : World}

theorem CommitInv.moved (inv : CommitInv good w) (retains : Retains w.db after.db)
    (commits : after.commits = w.commits) : CommitInv good after :=
  ⟨retains.chained inv.chained, fun commit member => inv.good commit (commits ▸ member)⟩

theorem PlaneStep.keeps (inv : CommitInv good w) (step : PlaneStep call w after) :
    CommitInv good after ∧ Retains w.db after.db := by
  obtain ⟨apart, notes, _⟩ := ControlPlane.PlaneStep.apart step
  exact ⟨inv.moved apart.retains (by simp [World.commits, notes]), apart.retains⟩

theorem WrapperStep.keeps (inv : CommitInv good w) (step : plane.WrapperStep index call w after) :
    CommitInv good after ∧ Retains w.db after.db := by
  cases step with
  | operation step => exact PlaneStep.keeps inv step
  | @claimed record db note claimed remarks =>
      have retains : Retains w.db db := by
        rcases claimIdempotency_cases claimed with ⟨_, _, _, rfl⟩ | ⟨_, _, _, _, _, rfl⟩
        · exact .of_equal rfl rfl rfl rfl rfl
        · exact .of_equal rfl rfl rfl rfl rfl
      refine ⟨inv.moved retains ?_, retains⟩
      have silent : (if record.isNew then note else []).filterMap Note.commit? = [] := by
        rw [List.filterMap_eq_nil_iff]
        intro remark member
        split at member
        · simp [remarks remark member, Note.commit?]
        · simp at member
      simp [World.commits, silent]
  | finished finished =>
      obtain ⟨row, found, ⟨_, rfl⟩ | ⟨_, _, rfl⟩⟩ := finishIdempotency_cases finished
      · exact ⟨inv.moved (.of_equal rfl rfl rfl rfl rfl) rfl, .of_equal rfl rfl rfl rfl rfl⟩
      · exact ⟨inv, .refl _⟩

/-- A state transaction adds its commit. -/
theorem committed_keeps (index : Nat) (inv : CommitInv good w) {body : Int → Db → Except PyError (Json × Commit × Db)}
    {response : Json} {commit : Commit} {middle db : Db} {record : IdempotencyRecord}
    (listed : plane.StateBody call body) (ran : body w.clock w.db = .ok (response, commit, middle))
    (completed : completeIdempotency w.clock call.key.tenantId call.key.scope call.key.key response
      middle = .ok (record, db)) (sound : good commit)
    (moved : after = { w with db, notes := w.notes ++ [.committed index call.key response commit] }) :
    CommitInv good after ∧ Retains w.db after.db := by
  subst moved
  have first := (StateBody.apart listed ran).retains
  have retains : Retains w.db db := by
    obtain ⟨row, found, ⟨_, rfl⟩ | ⟨_, _, rfl⟩⟩ := finishIdempotency_cases completed
    · exact first.trans (.of_equal rfl rfl rfl rfl rfl)
    · exact first
  refine ⟨⟨retains.chained inv.chained, fun other member => ?_⟩, retains⟩
  simp only [World.commits, List.filterMap_append, List.filterMap_cons, Note.commit?, List.filterMap_nil,
    List.mem_append, List.mem_singleton] at member
  rcases member with old | rfl
  · exact inv.good other old
  · exact sound

theorem StateBody.scope {body : Int → Db → Except PyError (Json × Commit × Db)}
    (listed : plane.StateBody call body) {now : Int} {db later : Db} {response : Json} {commit : Commit}
    (ran : body now db = .ok (response, commit, later)) : commit.scope = call.scope := by
  cases listed with
  | decision named =>
      simp only [decisionTransaction, bind_eq_ok, pure_eq_ok, Prod.exists, Prod.mk.injEq] at ran
      obtain ⟨_, _, _, _, _, _, _, _, _, _, rfl, _⟩ := ran
      exact named.symm
  | evidence named =>
      simp only [evidenceTransaction, bind_eq_ok, pure_eq_ok, Prod.exists, Prod.mk.injEq] at ran
      obtain ⟨_, _, _, _, _, _, _, rfl, _⟩ := ran
      exact named.symm
  | hidden named =>
      simp only [hiddenTransaction, bind_eq_ok, pure_eq_ok, Prod.exists, Prod.mk.injEq] at ran
      obtain ⟨_, _, _, _, _, _, _, _, _, _, _, _, _, _, _, _, _, _, rfl, _⟩ := ran
      exact named.symm
  | train named =>
      simp only [trainTransaction, bind_eq_ok, pure_eq_ok, Prod.exists, Prod.mk.injEq] at ran
      obtain ⟨_, _, _, _, _, _, _, _, _, _, _, _, _, _, _, _, _, _, rfl, _⟩ := ran
      exact named.symm
  | promote named =>
      simp only [promoteTransaction, bind_eq_ok, pure_eq_ok, Prod.exists, Prod.mk.injEq] at ran
      obtain ⟨_, _, _, _, _, _, _, _, _, _, rfl, _⟩ := ran
      exact named.symm
  | rollback named =>
      simp only [rollbackTransaction, bind_eq_ok, pure_eq_ok, Prod.exists, Prod.mk.injEq] at ran
      obtain ⟨_, _, _, _, _, _, _, rfl, _⟩ := ran
      exact named.symm

/-! Following an operation. -/

variable {R : β → World → Prop}

theorem yields_pure {value : β} (holds : ∀ t, Retains s.db t.db → R value t) :
    Yields good (pure value : Op β) R s := by
  refine Prog.wp_done fun t _ since other same => ?_
  obtain rfl := Except.ok.inj same
  exact holds t since

theorem yields_ofExcept {result : Except PyError α} {rest : α → Op β}
    (later : ∀ value, result = .ok value → Yields good (rest value) R s) :
    Yields good ((Prog.ofExcept result).bind rest) R s := by
  cases result with
  | ok value => exact later value rfl
  | error error => exact fun _ _ _ => by simp

theorem yields_require {condition : Bool} {error : PyError} {rest : Unit → Op β}
    (later : condition = true → Yields good (rest ()) R s) :
    Yields good ((Prog.require condition error).bind rest) R s := by
  cases condition with
  | true => exact later rfl
  | false => exact fun _ _ _ => by simp

theorem yields_bind {program : Op α} {rest : α → Op β} {Q : α → World → Prop}
    (first : Yields good program Q s) (inv : CommitInv good s)
    (later : ∀ value t, Retains s.db t.db → CommitInv good t → Q value t →
      Yields good (rest value) R t) : Yields good (program.bind rest) R s := by
  refine Prog.wp_bind inv (Prog.wp_mono ?_ (Prog.wp_since id (Retains.refl s.db) first))
  rintro result t invT ⟨since, holds⟩
  cases result with
  | ok value => exact later value t since invT (holds value rfl)
  | error _ => simp

/-- What is read held of some world since. -/
theorem yields_read {read : World → Except PyError α} {rest : α → Op β} (inv : CommitInv good s)
    (later : ∀ value t u, Retains s.db t.db → read t = .ok value → CommitInv good u →
      Retains t.db u.db → Yields good (rest value) R u) :
    Yields good ((readWorld read).bind rest) R s := by
  refine Prog.wp_bind inv (Prog.wp_exposed (fun _ _ _ _ => by simp) (Prog.wp_atomic ?_ ?_))
  · intro t value u invT since ran
    split at ran
    next found =>
      obtain ⟨rfl, rfl⟩ := Prod.mk.inj (Except.ok.inj ran)
      exact ⟨invT, .refl _, fun v invV relied => later _ t v since found invV relied⟩
    next => simp at ran
  · exact fun t _ _ _ _ => ⟨.refl _, fun _ _ _ => by simp⟩

/-- Steps of which only the additions matter. -/
theorem yields_only (call : Call) {program : Op α} {rest : α → Op β}
    (only : program.Only (PlaneStep call)) (inv : CommitInv good s)
    (later : ∀ value t, Retains s.db t.db → CommitInv good t → Yields good (rest value) R t) :
    Yields good (program.bind rest) R s := by
  have quiet : Yields good program (fun _ _ => True) s :=
    Prog.wp_mono (fun _ _ _ _ _ _ => trivial) (Prog.wp_of_only (P := fun _ => True) only inv trivial
      (fun _ _ _ _ _ _ => trivial) fun t u invT _ step =>
        let ⟨kept, retains⟩ := PlaneStep.keeps invT step
        ⟨kept, retains, trivial⟩)
  exact yields_bind quiet inv fun value t since invT _ => later value t since invT

theorem keeps_wrapper (plane : ControlPlane Model) (index : Nat) {program : Op α}
    (only : program.Only (plane.WrapperStep index call)) (inv : CommitInv good s) : Keeps good program s := by
  refine Prog.wp_mono (fun _ _ _ _ _ _ => trivial) (Prog.wp_of_only (P := fun _ => True) only inv
    trivial (fun _ _ _ _ _ _ => trivial) fun t u invT _ step => ?_)
  obtain ⟨kept, retains⟩ := WrapperStep.keeps invT step
  exact ⟨kept, retains, trivial⟩

/-- The state transaction sees some world since. -/
theorem keeps_commit {body : Int → Db → Except PyError (Json × Commit × Db)}
    (listed : plane.StateBody call body)
    (sound : ∀ (t : World) response commit db, Retains s.db t.db → CommitInv good t →
      body t.clock t.db = .ok (response, commit, db) → good commit) :
    Keeps good (stateTransaction index call.key body) s := by
  refine Prog.wp_exposed (fun _ _ _ _ => by simp) (Prog.wp_atomic ?_ ?_)
  · intro t response u invT since ran
    simp only [bind_eq_ok, pure_eq_ok, Prod.exists, Prod.mk.injEq] at ran
    obtain ⟨result, commit, middle, stored, record, db, completed, rfl, rfl⟩ := ran
    obtain ⟨kept, retains⟩ := committed_keeps index invT listed stored completed
      (sound t _ _ _ since invT stored) rfl
    exact ⟨kept, retains, fun _ _ _ => by simp⟩
  · exact fun t _ _ _ _ => ⟨.refl _, fun _ _ _ => by simp⟩

/-- What follows the state transaction does not commit again. -/
theorem keeps_commit_then {body : Int → Db → Except PyError (Json × Commit × Db)} {rest : Json → Op Json}
    (inv : CommitInv good s) (listed : plane.StateBody call body)
    (quiet : ∀ response, (rest response).Only (PlaneStep call))
    (sound : ∀ (t : World) response commit db, Retains s.db t.db → CommitInv good t →
      body t.clock t.db = .ok (response, commit, db) → good commit) :
    Keeps good ((stateTransaction index call.key body).bind rest) s :=
  yields_bind (keeps_commit listed sound) inv fun response _ _ invT _ =>
    keeps_wrapper plane index ((quiet response).mono fun _ _ => .operation) invT

end Rules

section Calls

variable {Model : Type} {plane : ControlPlane Model} {good : Commit → Prop} {index : Nat} {call : Call}
  {s : World}

/-- An operation whose kind of commit is always good. -/
theorem operation_keeps (inv : CommitInv good s) (ordinary : ∀ commit, commit.scope = call.scope → good commit) :
    Keeps good (plane.operation index call) s := by
  refine Prog.wp_mono (fun _ _ _ _ _ _ => trivial) (Prog.wp_of_only (P := fun _ => True)
    (commits_operation plane index call).only inv trivial (fun _ _ _ _ _ _ => trivial) ?_)
  rintro t u invT _ (step | ⟨response, body, listed, commit, middle, record, db, ran, completed, moved⟩)
  · obtain ⟨kept, retains⟩ := PlaneStep.keeps invT step
    exact ⟨kept, retains, trivial⟩
  · obtain ⟨kept, retains⟩ := committed_keeps index invT listed ran completed
      (ordinary commit (StateBody.scope listed ran)) moved
    exact ⟨kept, retains, trivial⟩

/-- The wrapper adds nothing to what the operation keeps. -/
theorem perform_keeps (inv : CommitInv good s)
    (operation : ∀ t, CommitInv good t → Keeps good (plane.operation index call) t) :
    Keeps good (plane.perform index call) s := by
  refine yields_ofExcept fun _ _ => ?_
  refine yields_bind (keeps_wrapper plane index (only_claim (by simp)) inv) inv
    fun record t _ invT _ => ?_
  split
  · refine Prog.wp_tryCatch invT (Prog.wp_mono ?_ (yields_bind (R := fun _ _ => True)
      (operation t invT) invT fun result u _ invU _ => keeps_wrapper plane index
        (Prog.Only.bind ⟨only_finish _ _, fun _ => trivial⟩ fun _ => trivial) invU))
    intro result u invU _
    cases result with
    | ok _ => simp
    | error error => exact keeps_wrapper plane index (only_recoverResponse error) invU
  · split
    · exact yields_pure fun _ _ => trivial
    · exact fun _ _ _ => by simp

/-- What every operation keeps holds of every commit of every run. -/
theorem commits_good (calls : Nat → Call) (good : Commit → Prop) {start : World}
    {config : Config Nat World PyError Json} (chained : start.db.chained) (unused : start.notes = [])
    (operations : ∀ i s, CommitInv good s → Keeps good (plane.operation i (calls i)) s)
    (run : (plane.service calls World.Around).Reachable (.start start) config) :
    ∀ commit ∈ config.state.commits, good commit := by
  let verified : (plane.service calls World.Around).Verified := {
    inv := CommitInv good
    rely := fun _ s t => Retains s.db t.db
    guar := fun _ s t => Retains s.db t.db
    pre := fun _ _ => True
    post := fun _ result _ => ∀ value, result = .ok value → True
    dead := fun _ _ => True
    rely_refl := fun _ s => .refl s.db
    rely_trans := fun _ => .trans
    compatible := fun _ _ _ promised => promised
    pre_stable := fun _ _ _ _ => trivial
    post_stable := fun _ _ _ _ _ _ => trivial
    dead_stable := fun _ _ _ _ => trivial
    surroundings_kept := by
      rintro s t inv ⟨db, notes⟩
      have retains : Retains s.db t.db := db ▸ .refl s.db
      exact ⟨inv.moved retains (by simp [World.commits, notes]), fun _ => retains⟩
    recovery_kept := by
      intro s t inv recovered
      have notes := recovered.same.1
      exact ⟨inv.moved recovered.retains (by simp [World.commits, notes]),
        fun _ => ⟨trivial, fun _ => trivial, fun _ _ _ _ => trivial⟩⟩
    calls_kept := fun inv _ => perform_keeps inv (operations _) }
  have begins : CommitInv good start := ⟨chained, by simp [World.commits, unused]⟩
  exact (verified.sound_run begins (fun _ => trivial) run).1.good

end Calls

end AgentTree
