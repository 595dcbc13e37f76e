import AgentTree.BackupStaging

/-!
The states that a fresh restore passes through, in which it may be killed, and the states in which it ends.
-/

namespace AgentTree.Backup

open Outcome Relational Concurrent

/-- A bundle that can be staged, with the stage that it leaves. -/
structure StagedRun (site : Site) (archive : Archive) where
  staged : Staged
  stage : Stage
  info : ZipInfo
  tree : Tree
  key : Bytes
  ran : (site.stageBundle archive).alone .empty = (.ok staged, stage)
  named : member staged.opened.infos databaseMember = .ok info
  database : stage.database = some info.content
  artifacts : stage.artifacts = some tree
  content : site.Content staged.opened.manifest staged.snapshot info.content tree
  keyed : site.keys.key? staged.opened.keyId = some key
  spelled : staged.opened.manifest.value.valid = true

/-- The recovery marker of the stage with the number `n`. -/
def StagedRun.marker {site : Site} {archive : Archive} (run : StagedRun site archive) (n : Nat) : Bytes :=
  site.authenticatedMarker (site.marker run.staged n).json run.staged.opened.keyId run.key

theorem exists_stagedRun {site : Site} {archive : Archive} {staged : Staged} {stage : Stage} {key : Bytes}
    (ran : (site.stageBundle archive).alone .empty = (.ok staged, stage))
    (spelled : staged.opened.manifest.value.valid = true) (keyed : site.keys.key? staged.opened.keyId = some key) :
    ∃ run : StagedRun site archive, run.staged = staged ∧ run.stage = stage ∧ run.key = key := by
  obtain ⟨_, _, _, _, info, tree, named, database, artifacts, content⟩ := stageBundle_fits ran
  exact ⟨⟨staged, stage, info, tree, key, ran, named, database, artifacts, content, keyed, spelled⟩, rfl, rfl, rfl⟩

/-! The phases of a fresh restore that starts from the disk `origin`. -/

section Phases

variable (site : Site) (archive : Archive) (origin : Disk)

/-- What a fresh restore leaves alone: it uses one new stage. -/
structure Kept (t : Disk) : Prop where
  wal : t.wal = origin.wal
  shm : t.shm = origin.shm
  made : t.made = origin.made + 1
  others : ∀ m, m ≠ origin.made → t.stages m = origin.stages m

/-- Nothing but a stage is there. -/
structure Clear (t : Disk) : Prop extends Kept origin t where
  database : t.database = none
  artifacts : t.artifacts = none
  marker : t.marker = none

variable {site} {archive}

/-- The bundle is staged, and a part of the marker is written. -/
structure Marked (run : StagedRun site archive) (part : Bytes) (t : Disk) : Prop extends Kept origin t where
  database : t.database = none
  artifacts : t.artifacts = none
  marker : t.marker = some part
  short : part <+: run.marker origin.made
  stage : t.stages origin.made = run.stage

/-- The tree is installed, or what the cleanup has left of it. -/
structure Moved (run : StagedRun site archive) (rest : Tree) (t : Disk) : Prop extends Kept origin t where
  database : t.database = none
  artifacts : t.artifacts = some rest
  marker : t.marker = some (run.marker origin.made)
  stage : t.stages origin.made = { run.stage with artifacts := none }
  part : rest.rows.Sublist run.tree.rows

/-- The cleanup has removed the tree. -/
structure Removed (run : StagedRun site archive) (t : Disk) : Prop extends Kept origin t where
  database : t.database = none
  artifacts : t.artifacts = none
  marker : t.marker = some (run.marker origin.made)
  stage : t.stages origin.made = { run.stage with artifacts := none }

/-- The cleanup has left files of the tree. -/
structure Remains (rest : Tree) (t : Disk) : Prop extends Kept origin t where
  database : t.database = none
  artifacts : t.artifacts = some rest
  marker : t.marker = none

/-- Both targets are installed, and the marker is still there. -/
structure Placed (run : StagedRun site archive) (t : Disk) : Prop extends Kept origin t where
  database : t.database = some run.info.content
  artifacts : t.artifacts = some run.tree
  marker : t.marker = some (run.marker origin.made)
  stage : t.stages origin.made = { run.stage with artifacts := none, database := none }

structure Done (run : StagedRun site archive) (t : Disk) : Prop extends Kept origin t where
  database : t.database = some run.info.content
  artifacts : t.artifacts = some run.tree
  marker : t.marker = none

variable (site) (archive)

inductive Phase (t : Disk) : Prop
  | clear : Clear origin t → Phase t
  | marked (run : StagedRun site archive) (part : Bytes) : Marked origin run part t → Phase t
  | moved (run : StagedRun site archive) (rest : Tree) : Moved origin run rest t → Phase t
  | removed (run : StagedRun site archive) : Removed origin run t → Phase t
  | remains (rest : Tree) : Remains origin rest t → Phase t
  | placed (run : StagedRun site archive) : Placed origin run t → Phase t
  | done (run : StagedRun site archive) : Done origin run t → Phase t

/-- The disk as a restore finds it or leaves it. -/
def Passed (t : Disk) : Prop := t = origin ∨ Phase site archive origin t

/-- Without the database, what is there of the tree is what the system does not remove. -/
def Settled (t : Disk) : Prop :=
  t.database = none → ∀ rest, t.artifacts = some rest → rest.rows ≠ [] ∧
    ∀ entry ∈ rest.rows, site.removable ArtifactPath entry.1 = false

/-- The ends of the body of the `try` statement. -/
def Ended (outcome : Except PyError Report) (t : Disk) : Prop :=
  match outcome with
  | .ok _ => ∃ run : StagedRun site archive, Done origin run t
  | .error _ => Phase site archive origin t ∧ Settled site t

end Phases

section Fresh

variable {site : Site} {archive : Archive} {origin s t : Disk}

theorem Kept.of_eq (kept : Kept origin s) (wal : t.wal = s.wal) (shm : t.shm = s.shm) (made : t.made = s.made)
    (stages : ∀ m, m ≠ origin.made → t.stages m = s.stages m) : Kept origin t :=
  ⟨wal.trans kept.wal, shm.trans kept.shm, made.trans kept.made, fun m other =>
    (stages m other).trans (kept.others m other)⟩

theorem Kept.set (kept : Kept origin s) (stage : Stage) : Kept origin ((Disk.stage origin.made).set stage s) :=
  kept.of_eq rfl rfl rfl fun m other => by simp [Disk.stage, other]

/-- Without a marker the stage does not matter. -/
theorem Phase.set (phase : Phase site archive origin s) (unmarked : s.marker = none) (stage : Stage) :
    Phase site archive origin ((Disk.stage origin.made).set stage s) := by
  cases phase with
  | clear clear => exact .clear ⟨clear.toKept.set stage, clear.database, clear.artifacts, clear.marker⟩
  | marked run part marked => simp [marked.marker] at unmarked
  | moved run rest moved => simp [moved.marker] at unmarked
  | removed run removed => simp [removed.marker] at unmarked
  | remains rest remains => exact .remains rest ⟨remains.toKept.set stage, remains.database, remains.artifacts, remains.marker⟩
  | placed run placed => simp [placed.marker] at unmarked
  | done run done => exact .done run ⟨done.toKept.set stage, done.database, done.artifacts, done.marker⟩

theorem Ended.set {outcome : Except PyError Report} (ended : Ended site archive origin outcome s)
    (unmarked : s.marker = none) (stage : Stage) :
    Ended site archive origin outcome ((Disk.stage origin.made).set stage s) := by
  cases outcome with
  | ok _ =>
      obtain ⟨run, done⟩ := ended
      exact ⟨run, done.toKept.set stage, done.database, done.artifacts, done.marker⟩
  | error _ => exact ⟨ended.1.set unmarked stage, ended.2⟩

theorem Ended.phase {outcome : Except PyError Report} (ended : Ended site archive origin outcome s) :
    Phase site archive origin s := by
  cases outcome with
  | ok _ =>
      obtain ⟨run, done⟩ := ended
      exact .done run done
  | error _ => exact ended.1

theorem solo_look {inv : Disk → Prop} {post : Except PyError Bool → Disk → Prop} {present : Disk → Bool}
    (start : inv s) (holds : post (.ok (present s)) s) : (Disk.look present).wp (Prog.solo inv) post s := by
  rintro t _ rfl
  exact ⟨start, trivial, Prog.solo_done holds⟩

theorem returns_rmtree {σ κ : Type} (files : σ → List κ) (remove : κ → σ → σ) (rmdir : σ → σ) :
    (site.rmtree files remove rmdir).Returns :=
  fun _ => Prog.Returns.bind (Prog.returns_forEach fun _ _ _ => trivial) fun _ _ => trivial

theorem solo_removeStage {inv : Disk → Prop} {post : Except PyError Unit → Disk → Prop} {n : Nat}
    (free : ∀ stage, inv ((Disk.stage n).set stage s)) (exits : ∀ stage, post (.ok ()) ((Disk.stage n).set stage s)) :
    (site.removeStage n).wp (Prog.solo inv) post s := by
  refine Prog.solo_zoom free ?_
  rintro (error | _) stage exit
  · exact absurd exit (returns_rmtree _ _ _).exits
  · exact exits stage

theorem solo_sweep {outcome : Except PyError Report} (ended : Ended site archive origin outcome s) :
    (site.sweep origin.made).wp (Prog.solo (Passed site archive origin))
      (fun result t => result = .ok () ∧ Ended site archive origin outcome t) s := by
  refine Prog.wp_bind (.inr ended.phase) (solo_look (.inr ended.phase) ?_)
  cases marked : s.marker with
  | some raw => exact Prog.solo_done ⟨rfl, ended⟩
  | none =>
      exact solo_removeStage (fun stage => .inr (ended.phase.set marked stage)) fun stage => ⟨rfl, ended.set marked stage⟩

/-! The cleanup. -/

theorem solo_unmark {α : Type} {inv : Disk → Prop} {post : Except PyError α → Disk → Prop} {error : PyError}
    (start : inv s) (unmarked : inv (Disk.markerFile.unlink s)) (raises : ∀ error, post (.error error) s)
    (unmarkedRaises : ∀ error, post (.error error) (Disk.markerFile.unlink s)) :
    (Disk.markerFile.discard >>= fun _ => (throw error : Prog Disk PyError α)).wp (Prog.solo inv) post s := by
  refine Prog.wp_bind start (File.solo_discard start unmarked ?_ (Prog.solo_done (unmarkedRaises error)))
  rintro (raised | _)
  · exact raises raised
  · exact Prog.solo_done (raises error)

theorem Kept.unmark (kept : Kept origin s) : Kept origin (Disk.markerFile.unlink s) :=
  kept.of_eq rfl rfl rfl fun _ _ => rfl

theorem Phase.unmark (phase : Phase site archive origin s) :
    Phase site archive origin (Disk.markerFile.unlink s) := by
  cases phase with
  | clear clear => exact .clear ⟨clear.toKept.unmark, clear.database, clear.artifacts, rfl⟩
  | marked run part marked => exact .clear ⟨marked.toKept.unmark, marked.database, marked.artifacts, rfl⟩
  | moved run rest moved => exact .remains rest ⟨moved.toKept.unmark, moved.database, moved.artifacts, rfl⟩
  | removed run removed => exact .clear ⟨removed.toKept.unmark, removed.database, removed.artifacts, rfl⟩
  | remains rest remains => exact .remains rest ⟨remains.toKept.unmark, remains.database, remains.artifacts, rfl⟩
  | placed run placed => exact .done run ⟨placed.toKept.unmark, placed.database, placed.artifacts, rfl⟩
  | done run done => exact .done run ⟨done.toKept.unmark, done.database, done.artifacts, rfl⟩

/-- The last part of the handler. -/
theorem solo_unmark_phase {α : Type} {error : PyError} (phase : Phase site archive origin s) (settled : Settled site s) :
    (Disk.markerFile.discard >>= fun _ => (throw error : Prog Disk PyError α)).wp
      (Prog.solo (Passed site archive origin))
      (fun outcome t => ∃ error, outcome = .error error ∧ Phase site archive origin t ∧ Settled site t) s :=
  solo_unmark (.inr phase) (.inr phase.unmark) (fun error => ⟨error, rfl, phase, settled⟩)
    fun error => ⟨error, rfl, phase.unmark, settled⟩

theorem mem_removeFile {path : ArtifactPath} {tree : Tree} {entry : ArtifactPath × Bytes} :
    entry ∈ (Stage.removeFile path tree).rows ↔ entry ∈ tree.rows ∧ entry.1 ≠ path := by
  simp [Stage.removeFile, Table.delete, List.mem_filter]

/-- The removal of the tree, file by file: what is left is what is still to be removed or is not removed. -/
theorem solo_removeFiles {run : StagedRun site archive} {rest : Tree} {files : List ArtifactPath}
    (moved : Moved origin run rest s)
    (covered : ∀ entry ∈ rest.rows, entry.1 ∈ files ∨ site.removable ArtifactPath entry.1 = false) :
    (Prog.forEach files fun path : ArtifactPath => Prog.act
      (if site.removable ArtifactPath path then
        fun disk => { disk with artifacts := disk.artifacts.map (Stage.removeFile path) } else id)
      fun _ => (Prog.done (.ok ()) : Prog Disk PyError Unit)).wp (Prog.solo (Passed site archive origin))
      (fun outcome t => outcome = .ok () ∧ ∃ rest, Moved origin run rest t ∧
        ∀ entry ∈ rest.rows, site.removable ArtifactPath entry.1 = false) s := by
  induction files generalizing s rest with
  | nil => exact Prog.solo_done ⟨rfl, rest, moved, fun entry member => by simpa using covered entry member⟩
  | cons path files ih =>
      refine Prog.wp_bind (.inr (.moved run rest moved)) ?_
      rintro t _ rfl
      cases removable : site.removable ArtifactPath path with
      | true =>
          have next : Moved origin run (Stage.removeFile path rest)
              { s with artifacts := s.artifacts.map (Stage.removeFile path) } :=
            ⟨moved.toKept.of_eq rfl rfl rfl fun _ _ => rfl, moved.database, by rw [moved.artifacts]; rfl, moved.marker,
              moved.stage, List.filter_sublist.trans moved.part⟩
          refine ⟨.inr (.moved run _ next), trivial, Prog.solo_done (ih next ?_)⟩
          intro entry member
          obtain ⟨there, other⟩ := mem_removeFile.mp member
          exact (covered entry there).imp_left fun listed => (List.mem_cons.mp listed).resolve_left other
      | false =>
          refine ⟨.inr (.moved run rest moved), trivial, Prog.solo_done (ih moved ?_)⟩
          intro entry member
          rcases covered entry member with listed | kept
          · rcases List.mem_cons.mp listed with same | listed
            · exact .inr (same ▸ removable)
            · exact .inl listed
          · exact .inr kept

theorem solo_removeArtifacts {run : StagedRun site archive} {rest : Tree} (moved : Moved origin run rest s) :
    site.removeArtifacts.wp (Prog.solo (Passed site archive origin))
      (fun outcome t => outcome = .ok () ∧ Phase site archive origin t ∧ Settled site t) s := by
  have start : Passed site archive origin s := .inr (.moved run rest moved)
  rintro t _ rfl
  refine ⟨start, trivial, Prog.wp_bind start (Prog.wp_mono ?_ (solo_removeFiles moved ?_))⟩
  · rintro outcome t _ ⟨rfl, rest, moved, kept⟩ u _ rfl
    have listed : ((t.artifacts.map Dict.keys).getD []).isEmpty = rest.rows.isEmpty := by
      rw [moved.artifacts]
      simp [Dict.keys]
    cases empty : rest.rows with
    | nil =>
        have removed : Removed origin run { t with artifacts := none } :=
          ⟨moved.toKept.of_eq rfl rfl rfl fun _ _ => rfl, moved.database, rfl, moved.marker, moved.stage⟩
        simp only [listed, empty, List.isEmpty_nil, if_true]
        exact ⟨.inr (.removed run removed), trivial, Prog.solo_done ⟨rfl, .removed run removed, fun _ rest there => by
          simp at there⟩⟩
    | cons first others =>
        simp only [listed, empty, List.isEmpty_cons, Bool.false_eq_true, if_false]
        refine ⟨.inr (.moved run rest moved), trivial, Prog.solo_done ⟨rfl, .moved run rest moved, ?_⟩⟩
        intro _ held there
        obtain rfl : rest = held := Option.some.inj (moved.artifacts.symm.trans there)
        exact ⟨by simp [empty], kept⟩
  · intro entry member
    refine .inl ((site.listed ArtifactPath _).mem_iff.mpr ?_)
    simp only [moved.artifacts]
    exact List.mem_map_of_mem member

/-- The handler raises whatever it has found. -/
def Raised (site : Site) (archive : Archive) (origin : Disk) {α : Type} (outcome : Except PyError α) (t : Disk) : Prop :=
  ∃ error, outcome = .error error ∧ Phase site archive origin t ∧ Settled site t

theorem settled_of_artifacts (gone : s.artifacts = none) : Settled site s := by
  intro _ rest there
  simp [gone] at there

theorem settled_of_database {data : Bytes} (present : s.database = some data) : Settled site s := by
  intro absent
  simp [present] at absent

theorem solo_recover_false {α : Type} {error : PyError} (phase : Phase site archive origin s) (gone : s.artifacts = none) :
    (site.recover false error : Prog Disk PyError α).wp (Prog.solo (Passed site archive origin))
      (Raised site archive origin) s :=
  solo_unmark_phase phase (settled_of_artifacts gone)

theorem solo_recover_true {α : Type} {error : PyError}
    (phase : (∃ run : StagedRun site archive, Moved origin run run.tree s) ∨
      Phase site archive origin s ∧ s.database.isSome = true) :
    (site.recover true error : Prog Disk PyError α).wp (Prog.solo (Passed site archive origin))
      (Raised site archive origin) s := by
  rcases phase with ⟨run, moved⟩ | ⟨phase, present⟩
  · have start : Passed site archive origin s := .inr (.moved run run.tree moved)
    refine Prog.wp_bind start (solo_look start ?_)
    simp only [moved.database, Option.isSome_none, Bool.not_false, if_true]
    refine Prog.wp_bind start (Prog.wp_mono ?_ (solo_removeArtifacts moved))
    rintro _ t _ ⟨rfl, phase, settled⟩
    exact solo_unmark_phase phase settled
  · refine Prog.wp_bind (.inr phase) (solo_look (.inr phase) ?_)
    obtain ⟨data, there⟩ := Option.isSome_iff_exists.mp present
    simp only [there, Option.isSome_some, Bool.not_true, Bool.false_eq_true, if_false]
    exact solo_unmark_phase phase (settled_of_database there)

/-! The body of the `try` statement. -/

/-- Before the tree is installed. -/
def Prepared (site : Site) (archive : Archive) (origin : Disk) (outcome : Except PyError Staged) (t : Disk) : Prop :=
  match outcome with
  | .ok staged => ∃ run : StagedRun site archive, run.staged = staged ∧ Moved origin run run.tree t
  | .error _ => Phase site archive origin t ∧ t.artifacts = none

/-- The marker is written and the tree is installed. -/
theorem solo_mark (run : StagedRun site archive) (clear : Clear origin s) (staged : s.stages origin.made = run.stage) :
    (Disk.markerFile.writePrivate (run.marker origin.made) >>= fun _ => Prog.mayRaise >>= fun _ =>
      Disk.replaceArtifacts origin.made >>= fun _ => (pure run.staged : Prog Disk PyError Staged)).wp
      (Prog.solo (Passed site archive origin)) (Prepared site archive origin) s := by
  have marked : ∀ part, part <+: run.marker origin.made → Marked origin run part (Disk.markerFile.write part s) :=
    fun part short => ⟨clear.toKept.of_eq rfl rfl rfl fun _ _ => rfl, clear.database, clear.artifacts, rfl, short, staged⟩
  have unmarked : ∀ part, Clear origin (Disk.markerFile.unlink (Disk.markerFile.write part s)) := fun part =>
    ⟨clear.toKept.of_eq rfl rfl rfl fun _ _ => rfl, clear.database, clear.artifacts, rfl⟩
  have whole := marked _ (List.prefix_refl _)
  have start : Passed site archive origin (Disk.markerFile.write (run.marker origin.made) s) :=
    .inr (.marked run _ whole)
  refine Prog.wp_bind (.inr (.clear clear)) (File.solo_writePrivate (.inr (.clear clear))
    (fun part short => .inr (.marked run part (marked part short))) (fun part _ => .inr (.clear (unmarked part)))
    (fun _ => ?_) (fun _ => ⟨.clear clear, clear.artifacts⟩)
    (fun _ part short => ⟨.marked run part (marked part short), clear.artifacts⟩)
    (fun _ part _ => ⟨.clear (unmarked part), clear.artifacts⟩))
  refine Prog.wp_bind start (Prog.solo_mayRaise ?_)
  rintro (error | _)
  · exact ⟨.marked run _ whole, clear.artifacts⟩
  refine Prog.wp_bind start (Prog.solo_exposed (fun _ => ⟨.marked run _ whole, clear.artifacts⟩) ?_)
  intro _ t ran
  have moved : Moved origin run run.tree t := by
    simp only [whole.stage, run.artifacts, whole.artifacts, orRaise, bind, Except.bind, pure, Except.pure,
      Option.all_none, ensure, if_true, Except.ok.injEq, Prod.mk.injEq, true_and] at ran
    subst ran
    exact ⟨(whole.toKept.set _).of_eq rfl rfl rfl fun _ _ => rfl, clear.database, rfl, rfl, by simp [Disk.stage],
      List.Sublist.refl _⟩
  exact ⟨.inr (.moved run _ moved), Prog.solo_done ⟨run, rfl, moved⟩⟩

theorem solo_prepare (clear : Clear origin s) (empty : s.stages origin.made = .empty) :
    (site.prepare archive origin.made).wp (Prog.solo (Passed site archive origin)) (Prepared site archive origin) s := by
  have free : ∀ stage, Clear origin ((Disk.stage origin.made).set stage s) := fun stage =>
    ⟨clear.toKept.set stage, clear.database, clear.artifacts, clear.marker⟩
  refine Prog.wp_bind (.inr (.clear clear)) (Prog.solo_zoom (fun stage => .inr (.clear (free stage))) ?_)
  rintro (error | staged) stage exit
  · exact ⟨.clear (free stage), clear.artifacts⟩
  rw [show (Disk.stage origin.made).get s = .empty from empty] at exit
  have ran := (strict_stageBundle archive).alone exit
  have start : Passed site archive origin ((Disk.stage origin.made).set stage s) := .inr (.clear (free stage))
  refine Prog.wp_bind start (Prog.solo_done ?_)
  cases spelled : jsonText staged.opened.manifest.value with
  | error error => exact ⟨.clear (free stage), clear.artifacts⟩
  | ok text =>
      refine Prog.wp_bind start (Prog.solo_done ?_)
      cases keyed : site.keys.key? staged.opened.keyId with
      | none => exact ⟨.clear (free stage), clear.artifacts⟩
      | some key =>
          obtain ⟨run, rfl, rfl, rfl⟩ := exists_stagedRun ran (jsonText_ok.mp spelled).1 keyed
          exact solo_mark run (free run.stage) (by simp [Disk.stage])

/-- After the tree is installed. -/
def Finished (site : Site) (archive : Archive) (origin : Disk) (outcome : Except PyError Report) (t : Disk) : Prop :=
  match outcome with
  | .ok _ => ∃ run : StagedRun site archive, Done origin run t
  | .error _ => (∃ run : StagedRun site archive, Moved origin run run.tree t) ∨
      Phase site archive origin t ∧ t.database.isSome = true

theorem solo_install {run : StagedRun site archive} (moved : Moved origin run run.tree s) :
    (site.install run.staged origin.made).wp (Prog.solo (Passed site archive origin)) (Finished site archive origin) s := by
  have start : Passed site archive origin s := .inr (.moved run run.tree moved)
  have raised : ∀ error : PyError, Finished site archive origin (.error error) s := fun _ => .inl ⟨run, moved⟩
  refine Prog.wp_bind start (Prog.solo_mayRaise ?_)
  rintro (error | _)
  · exact raised error
  refine Prog.wp_bind start (Prog.solo_mayRaise ?_)
  rintro (error | _)
  · exact raised error
  refine Prog.wp_bind start (Prog.solo_exposed raised ?_)
  intro _ t ran
  have placed : Placed origin run t := by
    simp only [moved.stage, run.database, orRaise, bind, Except.bind, pure, Except.pure, Except.ok.injEq,
      Prod.mk.injEq, true_and] at ran
    subst ran
    exact ⟨(moved.toKept.set _).of_eq rfl rfl rfl fun _ _ => rfl, rfl, moved.artifacts, moved.marker, by simp [Disk.stage]⟩
  have phase : Phase site archive origin t := .placed run placed
  have present : t.database.isSome = true := by rw [placed.database]; rfl
  refine ⟨.inr phase, Prog.wp_bind (.inr phase) (Prog.solo_mayRaise ?_)⟩
  rintro (error | _)
  · exact .inr ⟨phase, present⟩
  refine Prog.wp_bind (.inr phase) (Prog.solo_exposed (fun _ => .inr ⟨phase, present⟩) ?_)
  intro _ u ran
  have done : Done origin run u := by
    rw [show Disk.markerFile.read t = some _ from placed.marker] at ran
    obtain rfl : Disk.markerFile.unlink t = u := by simpa using ran
    exact ⟨placed.toKept.unmark, placed.database, placed.artifacts, rfl⟩
  refine ⟨.inr (.done run done), Prog.wp_bind (.inr (.done run done)) (Prog.solo_mayRaise ?_)⟩
  rintro (error | _)
  · exact .inr ⟨.done run done, by rw [done.database]; rfl⟩
  · exact Prog.solo_done ⟨run, done⟩

theorem solo_attempt (clear : Clear origin s) (empty : s.stages origin.made = .empty) :
    ((site.prepare archive origin.made).tryCatch (site.recover false) >>= fun staged =>
      (site.install staged origin.made).tryCatch (site.recover true)).wp (Prog.solo (Passed site archive origin))
      (Ended site archive origin) s := by
  have start : Passed site archive origin s := .inr (.clear clear)
  refine Prog.wp_bind start (Prog.wp_tryCatch start (Prog.wp_mono ?_ (solo_prepare clear empty)))
  rintro (error | staged) t _ prepared
  · refine Prog.wp_mono ?_ (solo_recover_false prepared.1 prepared.2)
    rintro _ u _ ⟨raised, rfl, ended⟩
    exact ended
  · obtain ⟨run, rfl, moved⟩ := prepared
    refine Prog.wp_tryCatch (.inr (.moved run _ moved)) (Prog.wp_mono ?_ (solo_install moved))
    rintro (error | report) u _ finished
    · refine Prog.wp_mono ?_ (solo_recover_true finished)
      rintro _ v _ ⟨raised, rfl, ended⟩
      exact ended
    · exact finished

/-! The whole of a fresh restore. -/

/-- How a fresh restore ends. -/
def FreshEnd (site : Site) (archive : Archive) (origin : Disk) (outcome : Except PyError Report) (t : Disk) : Prop :=
  (∃ error, outcome = .error error ∧ t = origin) ∨
    (origin.database = none ∧ origin.artifacts = none) ∧ Ended site archive origin outcome t

theorem solo_restoreFresh (unmarked : origin.marker = none) :
    (site.restoreFresh archive).wp (Prog.solo (Passed site archive origin)) (FreshEnd site archive origin) origin := by
  have start : Passed site archive origin origin := .inl rfl
  have raised : ∀ error : PyError, FreshEnd site archive origin (.error error) origin := fun error =>
    .inl ⟨error, rfl, rfl⟩
  refine Prog.wp_bind start (Prog.solo_exposed raised ?_)
  intro _ t refused
  simp only [bind_eq_ok, ensure_eq_ok, Option.isNone_iff_eq_none, pure_eq_ok, Prod.mk.injEq, true_and] at refused
  obtain ⟨_, database, _, _, _, _, _, artifacts, rfl⟩ := refused
  refine ⟨start, Prog.wp_bind start (Prog.solo_mayRaise ?_)⟩
  rintro (error | _)
  · exact raised error
  refine Prog.wp_bind start (Prog.solo_exposed raised ?_)
  intro n t made
  simp only [Except.ok.injEq, Prod.mk.injEq] at made
  obtain ⟨rfl, rfl⟩ := made
  have clear : Clear origin { (Disk.stage origin.made).set .empty origin with made := origin.made + 1 } :=
    ⟨⟨rfl, rfl, rfl, fun m other => by simp [Disk.stage, other]⟩, database, artifacts, unmarked⟩
  refine ⟨.inr (.clear clear), Prog.wp_tryFinally (.inr (.clear clear))
    (Prog.wp_mono ?_ (solo_attempt clear (by simp [Disk.stage])))⟩
  intro outcome u _ ended
  refine Prog.wp_mono ?_ (solo_sweep ended)
  rintro _ v _ ⟨rfl, ended⟩ w _ rfl
  exact .inr ⟨⟨database, artifacts⟩, ended⟩

end Fresh

end AgentTree.Backup
