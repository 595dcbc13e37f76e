import AgentTree.BackupPhases

/-!
The checks of a resumed restore, and the states that it passes through.
-/

namespace AgentTree.Backup

open Outcome Relational Concurrent
open HiddenBenchmark (exactly equalsInt)

variable {site : Site} {archive : Archive}

/-- What `_resume_restore` has found before it changes anything. -/
structure Site.Resumable (site : Site) (archive : Archive) (disk : Disk) (plan : Plan) (opened : Opened) (data : Bytes)
    (tree : Tree) : Prop where
  marked : ∃ raw value, disk.marker = some raw ∧ raw.length ≤ maxMarkerBytes ∧
    site.verifyRecoveryMarker raw = .ok value ∧ site.checkMarker value = .ok () ∧
    value.get? "manifest_sha256" = some (.str (site.sha256 (canonicalBytes opened.manifest.value))) ∧
    (∃ path, value.get? "stage" = some (.str path) ∧ site.findStage disk path = some plan.stage) ∧
    site.checkCandidates opened.manifest value data tree = .ok () ∧ (value.get? "objects").getD .null = plan.objects
  found : site.openBundle archive = .ok opened
  spelled : opened.manifest.value.valid = true
  database : disk.database.or (disk.stages plan.stage).database = some data
  artifacts : disk.artifacts.or (disk.stages plan.stage).artifacts = some tree

theorem resumePlan_none {disk : Disk} : site.resumePlan archive disk = .ok none ↔ disk.marker = none := by
  unfold Site.resumePlan
  split
  next absent => simp [absent, pure, Except.pure]
  next raw present => simp [present, bind_eq_ok, pure, Except.pure]

theorem resumePlan_some {disk : Disk} {plan : Plan} : site.resumePlan archive disk = .ok (some plan) ↔
    ∃ opened data tree, site.Resumable archive disk plan opened data tree := by
  unfold Site.resumePlan
  split
  next absent =>
    constructor
    · simp [pure, Except.pure]
    · rintro ⟨_, _, _, resumable⟩
      obtain ⟨_, _, present, _⟩ := resumable.marked
      simp [absent] at present
  next raw present =>
    simp only [bind_eq_ok, ensure_eq_ok, decide_eq_true_eq, jsonText_ok, strOf_ok, orRaise_eq_ok, pure_eq_ok,
      Option.some.injEq]
    constructor
    · rintro ⟨_, short, value, verified, _, checked, opened, found, _, ⟨spelled, rfl⟩, _, digest, path, staged, n, there,
        data, database, tree, artifacts, _, candidates, rfl⟩
      exact ⟨opened, data, tree, ⟨raw, value, present, short, verified, checked, digest, ⟨path, staged, there⟩, candidates,
        rfl⟩, found, spelled, database, artifacts⟩
    · rintro ⟨opened, data, tree, ⟨raw', value, present', short, verified, checked, digest, ⟨path, staged, there⟩,
        candidates, same⟩, found, spelled, database, artifacts⟩
      obtain rfl : raw = raw' := Option.some.inj (present.symm.trans present')
      exact ⟨(), short, value, verified, (), checked, opened, found, _, ⟨spelled, rfl⟩, (), digest, path, staged, plan.stage,
        there, data, database, tree, artifacts, (), candidates, by rw [same]⟩

theorem Site.Resumable.content {disk : Disk} {plan : Plan} {opened : Opened} {data : Bytes} {tree : Tree}
    (resumable : site.Resumable archive disk plan opened data tree) :
    ∃ snapshot, site.Content opened.manifest snapshot data tree := by
  obtain ⟨_, _, _, _, _, _, _, _, candidates, _⟩ := resumable.marked
  obtain ⟨snapshot, content, _⟩ := checkCandidates_ok.mp candidates
  exact ⟨snapshot, content⟩

/-! The phases of a resumed restore that starts from the disk `origin`. -/

section Phases

variable (origin : Disk) (n : Nat) (data : Bytes) (tree : Tree)

/-- Before the marker is removed: each target is where it was, or has been installed, the tree first. -/
structure Underway (t : Disk) : Prop where
  wal : t.wal = origin.wal
  shm : t.shm = origin.shm
  made : t.made = origin.made
  others : ∀ m, m ≠ n → t.stages m = origin.stages m
  present : (t.stages n).present = (origin.stages n).present
  marker : t.marker = origin.marker
  candidate : t.database.or (t.stages n).database = some data
  candidates : t.artifacts.or (t.stages n).artifacts = some tree
  database : t.database = origin.database ∨ t.database = some data ∧ t.artifacts = some tree
  artifacts : t.artifacts = origin.artifacts ∨ t.artifacts = some tree

/-- After it. -/
structure Resumed (t : Disk) : Prop where
  wal : t.wal = origin.wal
  shm : t.shm = origin.shm
  made : t.made = origin.made
  others : ∀ m, m ≠ n → t.stages m = origin.stages m
  marker : t.marker = none
  database : t.database = some data
  artifacts : t.artifacts = some tree

def Resuming (t : Disk) : Prop := Underway origin n data tree t ∨ Resumed origin n data tree t

end Phases

section Steps

variable {origin s t : Disk} {n : Nat} {data : Bytes} {tree : Tree}

def ResumedEnd (origin : Disk) (n : Nat) (data : Bytes) (tree : Tree) {α : Type} (outcome : Except PyError α) (t : Disk) :
    Prop :=
  match outcome with
  | .ok _ => Resumed origin n data tree t
  | .error _ => Resuming origin n data tree t

/-- The rule of an installation that a previous run may have made. -/
theorem solo_unlessPresent {present : Disk → Bool} {step : Prog Disk PyError Unit} {after : Disk → Prop}
    (underway : Underway origin n data tree s) (skipped : present s = true → after s)
    (stepped : present s = false → step.wp (Prog.solo (Resuming origin n data tree)) (fun outcome t => match outcome with
      | .ok _ => Underway origin n data tree t ∧ after t
      | .error _ => Underway origin n data tree t) s) :
    (Site.unlessPresent present step).wp (Prog.solo (Resuming origin n data tree)) (fun outcome t => match outcome with
      | .ok _ => Underway origin n data tree t ∧ after t
      | .error _ => Underway origin n data tree t) s := by
  have start : Resuming origin n data tree s := .inl underway
  refine Prog.wp_bind start (solo_look start ?_)
  cases there : present s with
  | true => exact Prog.solo_done ⟨underway, skipped there⟩
  | false =>
      refine Prog.wp_bind start (Prog.wp_mono ?_ (stepped there))
      rintro (error | _) t invT ended
      · exact ended
      · refine Prog.solo_mayRaise ?_
        rintro (error | _)
        · exact ended.1
        · exact ended

theorem solo_resumeArtifacts (underway : Underway origin n data tree s) :
    (Site.unlessPresent (·.artifacts.isSome) (Disk.replaceArtifacts n)).wp (Prog.solo (Resuming origin n data tree))
      (fun outcome t => match outcome with
        | .ok _ => Underway origin n data tree t ∧ t.artifacts = some tree
        | .error _ => Underway origin n data tree t) s := by
  have candidates := underway.candidates
  refine solo_unlessPresent underway ?_ ?_
  · intro present
    obtain ⟨held, there⟩ := Option.isSome_iff_exists.mp present
    rw [there, Option.some_or] at candidates
    rw [there, candidates]
  · intro absent
    rw [Option.isSome_eq_false_iff, Option.isNone_iff_eq_none] at absent
    rw [absent, Option.none_or] at candidates
    refine Prog.solo_exposed (fun _ => underway) ?_
    intro _ t ran
    simp only [candidates, absent, orRaise, bind, Except.bind, pure, Except.pure, Option.all_none, ensure, if_true,
      Except.ok.injEq, Prod.mk.injEq, true_and] at ran
    subst ran
    have moved : Underway origin n data tree { (Disk.stage n).set { s.stages n with artifacts := none } s with
        artifacts := some tree } :=
      ⟨underway.wal, underway.shm, underway.made, fun m other => by simpa [Disk.stage, other] using underway.others m other,
        by simpa [Disk.stage] using underway.present, underway.marker, by simpa [Disk.stage] using underway.candidate, rfl,
        underway.database.imp id fun held => ⟨held.1, rfl⟩, .inr rfl⟩
    exact ⟨.inl moved, moved, rfl⟩

theorem solo_resumeDatabase (underway : Underway origin n data tree s) (artifacts : s.artifacts = some tree) :
    (Site.unlessPresent (·.database.isSome) (Disk.replaceDatabase n)).wp (Prog.solo (Resuming origin n data tree))
      (fun outcome t => match outcome with
        | .ok _ => Underway origin n data tree t ∧ t.database = some data ∧ t.artifacts = some tree
        | .error _ => Underway origin n data tree t) s := by
  have candidate := underway.candidate
  refine solo_unlessPresent underway ?_ ?_
  · intro present
    obtain ⟨held, there⟩ := Option.isSome_iff_exists.mp present
    rw [there, Option.some_or] at candidate
    exact ⟨by rw [there, candidate], artifacts⟩
  · intro absent
    rw [Option.isSome_eq_false_iff, Option.isNone_iff_eq_none] at absent
    rw [absent, Option.none_or] at candidate
    refine Prog.solo_exposed (fun _ => underway) ?_
    intro _ t ran
    simp only [candidate, orRaise, bind, Except.bind, pure, Except.pure, Except.ok.injEq, Prod.mk.injEq, true_and] at ran
    subst ran
    have moved : Underway origin n data tree { (Disk.stage n).set { s.stages n with database := none } s with
        database := some data } :=
      ⟨underway.wal, underway.shm, underway.made, fun m other => by simpa [Disk.stage, other] using underway.others m other,
        by simpa [Disk.stage] using underway.present, underway.marker, rfl, by simpa [Disk.stage] using underway.candidates,
        .inr ⟨rfl, artifacts⟩, underway.artifacts⟩
    exact ⟨.inl moved, moved, rfl, artifacts⟩

theorem solo_resumePlanned {plan : Plan} (underway : Underway origin plan.stage data tree s) :
    (site.resumePlanned plan).wp (Prog.solo (Resuming origin plan.stage data tree))
      (ResumedEnd origin plan.stage data tree) s := by
  refine Prog.wp_bind (.inl underway) (Prog.wp_mono ?_ (solo_resumeArtifacts underway))
  rintro (error | _) t invT first
  · exact .inl first
  refine Prog.wp_bind invT (Prog.wp_mono ?_ (solo_resumeDatabase first.1 first.2))
  rintro (error | _) u invU second
  · exact .inl second
  obtain ⟨underway, database, artifacts⟩ := second
  refine Prog.wp_bind invU (Prog.solo_exposed (fun _ => .inl underway) ?_)
  intro snapshot v ran
  simp only [bind_eq_ok, pure_eq_ok, Prod.mk.injEq] at ran
  obtain ⟨_, _, _, _, rfl, rfl⟩ := ran
  refine ⟨invU, Prog.wp_bind invU (Prog.solo_exposed (fun _ => .inl underway) ?_)⟩
  intro _ v ran
  have resumed : ∀ stage, Resumed origin plan.stage data tree ((Disk.stage plan.stage).set stage
      (Disk.markerFile.unlink u)) := fun stage =>
    ⟨underway.wal, underway.shm, underway.made,
      fun m other => by simpa [Disk.stage, Disk.markerFile, other] using underway.others m other, rfl, database, artifacts⟩
  have unlinked : v = Disk.markerFile.unlink u := by
    split at ran
    next => simpa using ran.symm
    next => simp at ran
  subst unlinked
  have done : Resumed origin plan.stage data tree (Disk.markerFile.unlink u) := by
    have same := resumed ((Disk.stage plan.stage).get (Disk.markerFile.unlink u))
    rwa [(Disk.stage plan.stage).set_get] at same
  refine ⟨.inr done, Prog.wp_bind (.inr done) (Prog.solo_mayRaise ?_)⟩
  rintro (error | _)
  · exact .inr done
  refine Prog.wp_bind (.inr done) (solo_removeStage (fun stage => .inr (resumed stage)) fun stage => ?_)
  exact Prog.solo_done (resumed stage)

end Steps

/-! A restore, fresh or resumed. -/

variable {s t : Disk}

/-- The states that a restore passes through. -/
def Visited (site : Site) (archive : Archive) (s t : Disk) : Prop :=
  t = s ∨ s.marker = none ∧ Phase site archive s t ∨
    ∃ plan opened data tree, site.Resumable archive s plan opened data tree ∧ Resuming s plan.stage data tree t

/-- The states in which it ends. -/
def EndsIn (site : Site) (archive : Archive) (s : Disk) (outcome : Except PyError Report) (t : Disk) : Prop :=
  (∃ error, outcome = .error error ∧ t = s) ∨ s.marker = none ∧ FreshEnd site archive s outcome t ∨
    ∃ plan opened data tree, site.Resumable archive s plan opened data tree ∧
      ResumedEnd s plan.stage data tree outcome t

theorem Site.Resumable.underway {plan : Plan} {opened : Opened} {data : Bytes} {tree : Tree}
    (resumable : site.Resumable archive s plan opened data tree) : Underway s plan.stage data tree s :=
  ⟨rfl, rfl, rfl, fun _ _ => rfl, rfl, rfl, resumable.database, resumable.artifacts, .inl rfl, .inl rfl⟩

theorem solo_restoreBundle (s : Disk) :
    (site.restoreBundle archive).wp (Prog.solo (Visited site archive s)) (EndsIn site archive s) s := by
  have start : Visited site archive s s := .inl rfl
  refine Prog.wp_bind start (Prog.solo_exposed (fun error => .inl ⟨error, rfl, rfl⟩) ?_)
  intro found t ran
  simp only [bind_eq_ok, pure_eq_ok, Prod.mk.injEq] at ran
  obtain ⟨plan, planned, same, rfl⟩ := ran
  subst same
  refine ⟨start, ?_⟩
  cases plan with
  | none =>
      have unmarked := resumePlan_none.mp planned
      have fresh : (site.restoreFresh archive).wp (Prog.solo (Passed site archive s)) (EndsIn site archive s) s :=
        Prog.wp_mono (fun _ _ _ ended => .inr (.inl ⟨unmarked, ended⟩)) (solo_restoreFresh unmarked)
      refine Prog.solo_weaken (.inl rfl) ?_ fresh
      rintro t (rfl | phase)
      · exact .inl rfl
      · exact .inr (.inl ⟨unmarked, phase⟩)
  | some plan =>
      obtain ⟨opened, data, tree, resumable⟩ := resumePlan_some.mp planned
      have resumed : (site.resumePlanned plan).wp (Prog.solo (Resuming s plan.stage data tree))
          (EndsIn site archive s) s :=
        Prog.wp_mono (fun _ _ _ ended => .inr (.inr ⟨plan, opened, data, tree, resumable, ended⟩))
          (solo_resumePlanned resumable.underway)
      refine Prog.solo_weaken (.inl resumable.underway) ?_ resumed
      exact fun t resuming => .inr (.inr ⟨plan, opened, data, tree, resumable, resuming⟩)

theorem visits_restoreBundle (visit : (site.restoreBundle archive).Visits s t) : Visited site archive s t :=
  Prog.visits_kept (.inl rfl) (solo_restoreBundle s) visit

theorem exits_restoreBundle {outcome : Except PyError Report} (exit : (site.restoreBundle archive).Exits s outcome t) :
    EndsIn site archive s outcome t :=
  Prog.exits_post (.inl rfl) (solo_restoreBundle s) exit

end AgentTree.Backup
