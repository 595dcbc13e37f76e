import AgentTree.BackupRoundTrip

/-!
What a restore that was killed has left, and how the next restore of the same bundle goes on with it.
-/

namespace AgentTree.Backup

open Outcome Relational Concurrent
open HiddenBenchmark (exactly isObject equalsInt exactly_canonical uniqueObject)

variable {site : Site} {archive : Archive}

/-! The text of a marker. -/

theorem marker_accepted {floats : Floats} (marker : Marker) : marker.json.Accepted floats := by
  refine Json.accepted_obj (by simp only [List.map_cons, List.map_nil]; decide) ?_
  simp only [List.forall_mem_cons, List.not_mem_nil, false_implies, implies_true, and_true]
  exact ⟨Json.accepted_str _, Json.accepted_str _, Json.accepted_str _, Json.accepted_str _, Json.accepted_str _,
    Json.accepted_int _, Json.accepted_int _, Json.accepted_int _, Json.accepted_int _⟩

/-- A payload with its authentication. -/
def Site.envelope (site : Site) (payload : Json) (keyId : String) (key : Bytes) : List (String × Json) :=
  [("payload", payload), ("authentication", authentication keyId (site.keys.hmac key (canonicalBytes payload)))]

theorem envelope_accepted (marker : Marker) (keyId : String) (key : Bytes) :
    (Json.obj (site.envelope marker.json keyId key)).Accepted site.floats := by
  refine Json.accepted_obj (by simp only [Site.envelope, List.map_cons, List.map_nil]; decide) ?_
  simp only [Site.envelope, List.forall_mem_cons, List.not_mem_nil, false_implies, implies_true, and_true]
  exact ⟨marker_accepted marker, authentication_accepted _ _⟩

theorem encode_envelope (payload : Json) (keyId : String) (key : Bytes) : site.authenticatedMarker payload keyId key =
    (Json.obj (Json.sortedMembers (site.envelope payload keyId key))).encode := by
  simp only [Site.authenticatedMarker, canonicalBytes, Json.canonical, Json.sortedMembers, Site.envelope]

/-- A part of a marker that is a whole marker is all of it. -/
theorem marker_whole {marker other : Marker} {keyId otherId : String} {key otherKey : Bytes}
    (short : site.authenticatedMarker marker.json keyId key <+: site.authenticatedMarker other.json otherId otherKey) :
    site.authenticatedMarker marker.json keyId key = site.authenticatedMarker other.json otherId otherKey := by
  have sorted : ∀ members : List (String × Json), (Json.obj members).Accepted site.floats → members ≠ [] →
      (Json.obj (Json.sortedMembers members)).Accepted site.floats ∧ Json.sortedMembers members ≠ [] := by
    intro members accepted nonempty
    have same : (Json.obj members).canonical = .obj (Json.sortedMembers members) := by
      simp only [Json.canonical, Json.sortedMembers]
    refine ⟨same ▸ accepted.canonical, fun none => nonempty ?_⟩
    have count := congrArg List.length none
    rw [Json.sortedMembers, List.length_insertionSort, Json.canonicalMembers_eq, List.length_map] at count
    exact List.length_eq_zero_iff.mp count
  obtain ⟨accepted, nonempty⟩ := sorted _ (envelope_accepted marker keyId key) (by simp [Site.envelope])
  obtain ⟨otherAccepted, otherNonempty⟩ := sorted _ (envelope_accepted other otherId otherKey) (by simp [Site.envelope])
  obtain ⟨suffix, whole⟩ := short
  rw [encode_envelope, encode_envelope] at whole ⊢
  have rest : suffix = [] := Json.encode_obj_append (fun members distinct => if_pos distinct : ∀ members : List (String × Json),
    (members.map Prod.fst).Nodup → uniqueObject members = some (Json.obj members)) accepted otherAccepted nonempty
    otherNonempty (whole.trans (List.append_nil _).symm)
  rwa [rest, List.append_nil] at whole

theorem envelope_get? {marker : Marker} {keyId name : String} {key : Bytes} {value : Json}
    (found : (Json.obj (site.envelope marker.json keyId key)).get? name = some value) :
    (Json.obj (site.envelope marker.json keyId key)).canonical.get? name = some value.canonical :=
  get?_canonical_of (by simp only [Site.envelope, List.map_cons, List.map_nil]; decide) found

theorem marker_get? {marker : Marker} {name : String} {value : Json} (flat : value.canonical = value)
    (found : marker.json.get? name = some value) : marker.json.canonical.get? name = some value :=
  get?_canonical_flat (by simp only [List.map_cons, List.map_nil]; decide) flat found

/-- The text of a marker determines what it says. -/
theorem marker_payload {marker other : Marker} {keyId otherId : String} {key otherKey : Bytes}
    (same : site.authenticatedMarker marker.json keyId key = site.authenticatedMarker other.json otherId otherKey) :
    marker.stage = other.stage ∧ marker.artifacts = other.artifacts := by
  have envelopes := Json.canonicalBytes_injective (envelope_accepted marker keyId key)
    (envelope_accepted other otherId otherKey) same
  have payload : (Json.obj (site.envelope marker.json keyId key)).canonical.get? "payload" = some marker.json.canonical :=
    envelope_get? rfl
  have otherPayload : (Json.obj (site.envelope other.json otherId otherKey)).canonical.get? "payload" =
      some other.json.canonical := envelope_get? rfl
  rw [envelopes, otherPayload, Option.some.injEq] at payload
  have stage : marker.json.canonical.get? "stage" = some (.str marker.stage) := marker_get? rfl rfl
  have artifacts : marker.json.canonical.get? "artifacts" = some (.int marker.artifacts) := marker_get? rfl rfl
  have otherStage : other.json.canonical.get? "stage" = some (.str other.stage) := marker_get? rfl rfl
  have otherArtifacts : other.json.canonical.get? "artifacts" = some (.int other.artifacts) := marker_get? rfl rfl
  rw [← payload, otherStage, Option.some.injEq, Json.str.injEq] at stage
  rw [← payload, otherArtifacts, Option.some.injEq, Json.int.injEq] at artifacts
  exact ⟨stage.symm, Int.ofNat_inj.mp artifacts.symm⟩

theorem verifyRecoveryMarker_marker {marker : Marker} {keyId : String} {key : Bytes}
    (keyed : site.keys.key? keyId = some key) :
    site.verifyRecoveryMarker (site.authenticatedMarker marker.json keyId key) = .ok marker.json.canonical := by
  have parsed : site.strictJson (site.authenticatedMarker marker.json keyId key) =
      .ok (Json.obj (site.envelope marker.json keyId key)).canonical :=
    strictJson_canonicalBytes (envelope_accepted marker keyId key)
  let signed := authentication keyId (site.keys.hmac key (canonicalBytes marker.json))
  have shape : exactly (Json.obj (site.envelope marker.json keyId key)).canonical ["payload", "authentication"] = true := by
    rw [exactly_canonical]
    rfl
  have payload : (Json.obj (site.envelope marker.json keyId key)).canonical.get? "payload" = some marker.json.canonical :=
    envelope_get? rfl
  have authenticated : (Json.obj (site.envelope marker.json keyId key)).canonical.get? "authentication" =
      some signed.canonical := envelope_get? rfl
  have field : ∀ {name : String} {value : Json}, value.canonical = value → signed.get? name = some value →
      signed.canonical.get? name = some value :=
    get?_canonical_flat (by simp only [List.map_cons, List.map_nil]; decide)
  have signedShape : exactly signed.canonical ["algorithm", "key_id", "signature"] = true := by
    rw [exactly_canonical]
    rfl
  have objects : (isObject marker.json.canonical && isObject signed.canonical) = true := by
    simp only [Marker.json, signed, authentication, Json.canonical, isObject, Bool.and_self]
  have text : jsonText marker.json.canonical = .ok marker.json.canonical := by
    refine jsonText_ok.mpr ⟨?_, Json.canonical_canonical _⟩
    have accepted : marker.json.Accepted site.floats := marker_accepted marker
    exact accepted.canonical.2
  have verified : site.verifySignature marker.json.canonical.encode signed.canonical
      "restore recovery marker key is unsupported" "restore recovery marker signature is invalid"
      "restore recovery marker authentication failed" = .ok keyId :=
    verifySignature_ok.mpr ⟨field rfl rfl, field rfl rfl, key, _, keyed, field rfl rfl, b64decode_encode _⟩
  simp only [Site.verifyRecoveryMarker, parsed, shape, payload, authenticated, Option.getD_some, objects, signedShape, text,
    verified, ensure, if_true, bind, Except.bind, pure, Except.pure]

/-! What the bundle is. -/

theorem StagedRun.unique (first second : StagedRun site archive) : first = second := by
  obtain ⟨staged, stage, info, tree, key, ran, named, database, artifacts, content, keyed, spelled⟩ := first
  obtain ⟨staged', stage', info', tree', key', ran', named', database', artifacts', content', keyed', spelled'⟩ := second
  obtain ⟨same, rfl⟩ := Prod.mk.inj (ran.symm.trans ran')
  obtain rfl := Except.ok.inj same
  obtain rfl := Except.ok.inj (named.symm.trans named')
  obtain rfl := Option.some.inj (artifacts.symm.trans artifacts')
  obtain rfl := Option.some.inj (keyed.symm.trans keyed')
  rfl

theorem StagedRun.counted (run : StagedRun site archive) : run.tree.rows.length = run.staged.snapshot.rows.length :=
  (stageBundle_fits run.ran).counted run.tree run.artifacts

theorem StagedRun.present (run : StagedRun site archive) : run.stage.present = true := (stageBundle_fits run.ran).present

/-! What a restore leaves that another one can go on with. -/

variable {run : StagedRun site archive} {disk : Disk} {n : Nat}

/-- Both targets are those of the bundle. -/
structure Installed (run : StagedRun site archive) (disk : Disk) : Prop where
  database : disk.database = some run.info.content
  artifacts : disk.artifacts = some run.tree
  marker : disk.marker = none

/-- The marker is written, and each target is in its place or in the stage. -/
structure Pending (run : StagedRun site archive) (n : Nat) (disk : Disk) : Prop where
  made : n < disk.made
  present : (disk.stages n).present = true
  marker : disk.marker = some (run.marker n)
  database : disk.database.or (disk.stages n).database = some run.info.content
  artifacts : disk.artifacts.or (disk.stages n).artifacts = some run.tree
  ordered : disk.database.isSome = true → disk.artifacts = some run.tree

def Leftover (run : StagedRun site archive) (disk : Disk) : Prop :=
  disk.Fresh ∨ Installed run disk ∨ ∃ n, Pending run n disk

/-- No file of the disk is written or deleted in part: a marker is a whole one that the restore reads, and the tree has
all its files where a marker counts them, and none without a marker; it is complete as soon as the database is in place. -/
structure Site.Intact (site : Site) (disk : Disk) : Prop where
  unmarked : disk.marker = none → disk.database = none → disk.artifacts = none
  marked : ∀ raw, disk.marker = some raw → raw.length ≤ maxMarkerBytes ∧
    ∃ (marker : Marker) (keyId : String) (key : Bytes) (n : Nat), raw = site.authenticatedMarker marker.json keyId key ∧
    marker.stage = site.stagePath n ∧ (disk.database = none → ∃ tree, disk.artifacts.or (disk.stages n).artifacts = some tree ∧
      tree.rows.length = marker.artifacts)

/-! The next restore. -/

theorem Pending.findStage (pending : Pending run n disk) : site.findStage disk (site.stagePath n) = some n := by
  refine List.find?_range_eq_some.mpr ⟨?_, List.mem_range.mpr pending.made, ?_⟩
  · simp [pending.present]
  · intro m below
    have other : site.stagePath m ≠ site.stagePath n := fun same => absurd (site.apart same) (by omega)
    simp [other]

theorem Pending.resumable (pending : Pending run n disk) (short : (run.marker n).length ≤ maxMarkerBytes) :
    site.Resumable archive disk ⟨n, .int run.staged.opened.manifest.objects.length⟩ run.staged.opened run.info.content
      run.tree := by
  let marker := site.marker run.staged n
  have field : ∀ {name : String} {value : Json}, value.canonical = value → marker.json.get? name = some value →
      marker.json.canonical.get? name = some value := marker_get?
  have shape : exactly marker.json.canonical markerNames = true := by
    rw [exactly_canonical]
    rfl
  have formatted : marker.json.canonical.get? "format" = some (.str markerFormat) := field rfl rfl
  have database : marker.json.canonical.get? "database_path" = some (.str site.databasePath) := field rfl rfl
  have root : marker.json.canonical.get? "artifact_root" = some (.str site.artifactRoot) := field rfl rfl
  have checked : site.checkMarker marker.json.canonical = .ok () := by
    simp only [Site.checkMarker, shape, formatted, database, root, decide_true, Bool.and_self, ensure, if_true, bind,
      Except.bind]
  have artifacts : marker.json.canonical.get? "artifacts" = some (.int run.staged.snapshot.rows.length) := field rfl rfl
  have champions : marker.json.canonical.get? "champions" = some (.int run.staged.snapshot.champions.length) :=
    field rfl rfl
  have objects : marker.json.canonical.get? "objects" = some (.int run.staged.opened.manifest.objects.length) :=
    field rfl rfl
  have candidates : site.checkCandidates run.staged.opened.manifest marker.json.canonical run.info.content run.tree = .ok () :=
    checkCandidates_ok.mpr ⟨run.staged.snapshot, run.content, by simp [artifacts, equalsInt], by simp [champions, equalsInt]⟩
  exact ⟨⟨run.marker n, marker.json.canonical, pending.marker, short, verifyRecoveryMarker_marker run.keyed, checked,
    field rfl rfl, ⟨site.stagePath n, field rfl rfl, pending.findStage⟩, candidates, by rw [objects]; rfl⟩, run.found,
    run.spelled, pending.database, pending.artifacts⟩

theorem unlessPresent_present {present : Disk → Bool} {step : Prog Disk PyError Unit} (there : present disk = true) :
    (Site.unlessPresent present step).alone disk = (.ok (), disk) := by
  have looked : (Disk.look present).alone disk = (.ok true, disk) := by rw [← there]; rfl
  exact Prog.alone_bind_ok.mpr ⟨true, disk, looked, rfl⟩

theorem unlessPresent_absent {present : Disk → Bool} {step : Prog Disk PyError Unit} {after : Disk}
    (absent : present disk = false) (ran : step.alone disk = (.ok (), after)) :
    (Site.unlessPresent present step).alone disk = (.ok (), after) := by
  have looked : (Disk.look present).alone disk = (.ok false, disk) := by rw [← absent]; rfl
  exact Prog.alone_bind_ok.mpr ⟨false, disk, looked, Prog.alone_bind_ok.mpr ⟨(), after, ran, rfl⟩⟩

/-- The tree is in its place then, and the rest is as it was. -/
theorem resumeArtifacts_returns {tree : Tree} (candidate : disk.artifacts.or (disk.stages n).artifacts = some tree) :
    ∃ after, (Site.unlessPresent (·.artifacts.isSome) (Disk.replaceArtifacts n)).alone disk = (.ok (), after) ∧
      after.database = disk.database ∧ (after.stages n).database = (disk.stages n).database ∧
      after.marker = disk.marker := by
  cases held : disk.artifacts with
  | some other => exact ⟨disk, unlessPresent_present (by rw [held]; rfl), rfl, rfl, rfl⟩
  | none =>
      rw [held, Option.none_or] at candidate
      let after : Disk := { (Disk.stage n).set { disk.stages n with artifacts := none } disk with artifacts := some tree }
      have moved : (Disk.replaceArtifacts n).alone disk = (.ok (), after) := by
        refine Prog.alone_exposed_ok.mpr ?_
        simp only [candidate, held, orRaise, Option.all_none, ensure, if_true, bind, Except.bind, pure, Except.pure]
        rfl
      exact ⟨after, unlessPresent_absent (by rw [held]; rfl) moved, rfl, by simp [after, Disk.stage], rfl⟩

theorem resumeDatabase_returns {data : Bytes} (candidate : disk.database.or (disk.stages n).database = some data) :
    ∃ after, (Site.unlessPresent (·.database.isSome) (Disk.replaceDatabase n)).alone disk = (.ok (), after) ∧
      after.database = some data ∧ after.marker = disk.marker := by
  cases held : disk.database with
  | some other =>
      rw [held, Option.some_or] at candidate
      exact ⟨disk, unlessPresent_present (by rw [held]; rfl), by rw [held, candidate], rfl⟩
  | none =>
      rw [held, Option.none_or] at candidate
      let after : Disk := { (Disk.stage n).set { disk.stages n with database := none } disk with database := some data }
      have moved : (Disk.replaceDatabase n).alone disk = (.ok (), after) := by
        refine Prog.alone_exposed_ok.mpr ?_
        simp only [candidate, orRaise, bind, Except.bind, pure, Except.pure]
        rfl
      exact ⟨after, unlessPresent_absent (by rw [held]; rfl) moved, rfl, rfl⟩

/-- A restore that finds a whole marker goes on with it. -/
theorem Pending.returns (pending : Pending run n disk) (short : (run.marker n).length ≤ maxMarkerBytes) :
    ∃ report after, (site.restoreBundle archive).alone disk = (.ok report, after) := by
  have planned := resumePlan_some.mpr ⟨_, _, _, pending.resumable short⟩
  obtain ⟨u, linked, database, staged, marker⟩ := resumeArtifacts_returns pending.artifacts
  have candidate : u.database.or (u.stages n).database = some run.info.content := by
    rw [database, staged, pending.database]
  obtain ⟨v, placed, held, kept⟩ := resumeDatabase_returns candidate
  have inspected : (Prog.exposed fun disk : Disk => do
      let data ← orRaise disk.database (fileNotFound site.databasePath)
      let snapshot ← site.inspectSnapshot data
      return (snapshot, disk)).alone v = (.ok run.staged.snapshot, v) := by
    refine Prog.alone_exposed_ok.mpr ?_
    simp only [held, run.content.inspected, orRaise, bind, Except.bind, pure, Except.pure]
  have removed : Disk.markerFile.remove.alone v = (.ok (), Disk.markerFile.unlink v) := by
    refine Prog.alone_exposed_ok.mpr ?_
    rw [show Disk.markerFile.read v = some (run.marker n) from kept.trans (marker.trans pending.marker)]
  have sweeps : (site.removeStage n).Returns := Prog.Returns.zoom (returns_rmtree _ _ _)
  obtain ⟨_, after, swept⟩ := sweeps.alone (Disk.markerFile.unlink v)
  have resumed : ∃ report, (site.resumePlanned ⟨n, .int run.staged.opened.manifest.objects.length⟩).alone disk =
      (.ok report, after) := by
    simp only [Site.resumePlanned, Prog.alone_bind_ok, Prog.alone_mayRaise_ok, Prog.alone_pure_ok]
    exact ⟨_, (), u, linked, (), v, placed, _, v, inspected, (), _, removed, (), _, rfl, (), after, swept, rfl, rfl⟩
  obtain ⟨report, resumed⟩ := resumed
  exact ⟨report, after, Prog.alone_bind_ok.mpr ⟨some ⟨n, .int run.staged.opened.manifest.objects.length⟩, disk,
    Prog.alone_exposed_ok.mpr (by rw [planned]; rfl), resumed⟩⟩

/-! The steps of a run that is killed again and again. -/

/-- A disk with a whole marker has one plan. -/
theorem Pending.plan (pending : Pending run n disk) {plan : Plan} {opened : Opened} {data : Bytes} {tree : Tree}
    (resumable : site.Resumable archive disk plan opened data tree) :
    plan.stage = n ∧ data = run.info.content ∧ tree = run.tree := by
  obtain ⟨raw, value, marker, _, verified, _, _, ⟨path, stage, found⟩, _⟩ := resumable.marked
  obtain rfl : raw = run.marker n := Option.some.inj (marker.symm.trans pending.marker)
  obtain rfl : (site.marker run.staged n).json.canonical = value :=
    Except.ok.inj ((verifyRecoveryMarker_marker run.keyed).symm.trans verified)
  have known : (site.marker run.staged n).json.canonical.get? "stage" = some (.str (site.stagePath n)) := marker_get? rfl rfl
  obtain rfl : path = site.stagePath n := by
    rw [known, Option.some.injEq, Json.str.injEq] at stage
    exact stage.symm
  obtain rfl : plan.stage = n := Option.some.inj (found.symm.trans pending.findStage)
  exact ⟨rfl, Option.some.inj (resumable.database.symm.trans pending.database),
    Option.some.inj (resumable.artifacts.symm.trans pending.artifacts)⟩

theorem pending_resuming {s t : Disk} (pending : Pending run n s) (resuming : Resuming s n run.info.content run.tree t) :
    Leftover run t := by
  rcases resuming with underway | resumed
  · refine .inr (.inr ⟨n, ?_, ?_, underway.marker.trans pending.marker, underway.candidate, underway.candidates, ?_⟩)
    · rw [underway.made]
      exact pending.made
    · rw [underway.present]
      exact pending.present
    · intro held
      rcases underway.database with same | ⟨_, artifacts⟩
      · have before := pending.ordered (same ▸ held)
        rcases underway.artifacts with kept | moved
        · exact kept.trans before
        · exact moved
      · exact artifacts
  · exact .inr (.inl ⟨resumed.database, resumed.artifacts, resumed.marker⟩)

/-- A complete marker of an intact disk counts the files of the tree. -/
theorem Site.Intact.tree {t : Disk} (intact : site.Intact t) {run : StagedRun site archive} {n : Nat}
    (marked : t.marker = some (run.marker n)) (absent : t.database = none) :
    ∃ tree, t.artifacts.or (t.stages n).artifacts = some tree ∧ tree.rows.length = run.tree.rows.length := by
  obtain ⟨_, marker, keyId, key, m, same, stage, counted⟩ := intact.marked _ marked
  obtain ⟨named, artifacts⟩ := marker_payload same
  obtain rfl : n = m := site.apart (named.trans stage)
  obtain ⟨tree, held, long⟩ := counted absent
  refine ⟨tree, held, ?_⟩
  rw [long, ← artifacts, run.counted]
  rfl

theorem leftover_phase {s t : Disk} (fresh : s.Fresh) (phase : Phase site archive s t) (intact : site.Intact t) :
    Leftover run t := by
  cases phase with
  | clear clear =>
      exact .inl ⟨clear.database, clear.wal.trans fresh.wal, clear.shm.trans fresh.shm, clear.artifacts, clear.marker⟩
  | marked other part marked =>
      obtain rfl := other.unique run
      obtain ⟨_, marker, keyId, key, _, rfl, _⟩ := intact.marked _ marked.marker
      have whole := marked.marker
      rw [marker_whole marked.short] at whole
      refine .inr (.inr ⟨s.made, ?_, ?_, whole, ?_, ?_, ?_⟩)
      · rw [marked.made]
        exact Nat.lt_succ_self _
      · rw [marked.stage]
        exact other.present
      · rw [marked.database, Option.none_or, marked.stage, other.database]
      · rw [marked.artifacts, Option.none_or, marked.stage, other.artifacts]
      · simp [marked.database]
  | moved other rest moved =>
      obtain rfl := other.unique run
      obtain ⟨tree, held, long⟩ := intact.tree moved.marker moved.database
      rw [moved.artifacts, Option.some_or, Option.some.injEq] at held
      subst held
      have same : rest = other.tree := Table.ext (moved.part.eq_of_length long)
      refine .inr (.inr ⟨s.made, ?_, ?_, moved.marker, ?_, ?_, ?_⟩)
      · rw [moved.made]
        exact Nat.lt_succ_self _
      · rw [moved.stage]
        exact other.present
      · rw [moved.database, Option.none_or, moved.stage]
        exact other.database
      · rw [moved.artifacts, Option.some_or, same]
      · simp [moved.database]
  | removed other removed =>
      obtain rfl := other.unique run
      obtain ⟨tree, held, _⟩ := intact.tree removed.marker removed.database
      rw [removed.artifacts, Option.none_or, removed.stage] at held
      simp at held
  | remains rest remains =>
      have gone := intact.unmarked remains.marker remains.database
      simp [remains.artifacts] at gone
  | placed other placed =>
      obtain rfl := other.unique run
      refine .inr (.inr ⟨s.made, ?_, ?_, placed.marker, ?_, ?_, fun _ => placed.artifacts⟩)
      · rw [placed.made]
        exact Nat.lt_succ_self _
      · rw [placed.stage]
        exact other.present
      · rw [placed.database, Option.some_or]
      · rw [placed.artifacts, Option.some_or]
  | done other done =>
      obtain rfl := other.unique run
      exact .inr (.inl ⟨done.database, done.artifacts, done.marker⟩)

/-! Targets that are there already. -/

theorem Installed.raises (installed : Installed run disk) : (site.restoreBundle archive).alone disk =
    (.error (fileExists ("restore target must be absent: " ++ site.databasePath)), disk) := by
  have refused : site.refuseTargets.alone disk =
      (.error (fileExists ("restore target must be absent: " ++ site.databasePath)), disk) := by
    rw [Site.refuseTargets, Prog.alone_exposed]
    simp [Prog.outcome, Prog.commit, installed.database, ensure, bind, Except.bind]
  rw [Site.restoreBundle, Prog.alone_bind, plans_none installed.marker]
  exact Prog.alone_bind_error refused

theorem Installed.visits {t : Disk} (installed : Installed run disk) (visit : (site.restoreBundle archive).Visits disk t) :
    t = disk := by
  have refuses : (site.restoreBundle archive).wp (Prog.solo (· = disk)) (fun _ t => t = disk) disk := by
    refine Prog.wp_bind rfl (Prog.solo_exposed (fun _ => rfl) ?_)
    intro plan t ran
    rw [resumePlan_none.mpr installed.marker] at ran
    obtain ⟨rfl, rfl⟩ := Prod.mk.inj (Except.ok.inj ran)
    refine ⟨rfl, Prog.wp_bind rfl (Prog.solo_exposed (fun _ => rfl) ?_)⟩
    intro _ t ran
    simp [installed.database, ensure, bind, Except.bind] at ran
  exact @Prog.visits_kept _ _ _ (fun u => u = disk) _ _ _ _ rfl refuses visit

/-! A restore that is killed again and again. -/

/-- The disks that restores of the bundle leave, each killed in some state that it passes through, or run to an end, and
each with an intact disk. -/
inductive Interrupted (site : Site) (archive : Archive) (origin : Disk) : Disk → Prop
  | start : Interrupted site archive origin origin
  | kill {before after : Disk} : Interrupted site archive origin before →
      (site.restoreBundle archive).Visits before after → site.Intact after → Interrupted site archive origin after

theorem leftover_visits {s t : Disk} (leftover : Leftover run s) (visit : (site.restoreBundle archive).Visits s t)
    (intact : site.Intact t) : Leftover run t := by
  rcases leftover with fresh | installed | ⟨n, pending⟩
  · rcases visits_restoreBundle visit with rfl | ⟨_, phase⟩ | ⟨plan, opened, data, tree, resumable, _⟩
    · exact .inl fresh
    · exact leftover_phase fresh phase intact
    · exact absurd fresh.marker resumable.marker
  · rw [installed.visits visit]
    exact .inr (.inl installed)
  · rcases visits_restoreBundle visit with rfl | ⟨unmarked, _⟩ | ⟨plan, opened, data, tree, resumable, resuming⟩
    · exact .inr (.inr ⟨n, pending⟩)
    · simp [pending.marker] at unmarked
    · obtain ⟨rfl, rfl, rfl⟩ := pending.plan resumable
      exact pending_resuming pending resuming

theorem leftover_interrupted {origin : Disk} (fresh : origin.Fresh) (interrupted : Interrupted site archive origin disk) :
    Leftover run disk := by
  induction interrupted with
  | start => exact .inl fresh
  | kill _ visit intact ih => exact leftover_visits ih visit intact

theorem Interrupted.intact {origin : Disk} (fresh : origin.Fresh) (interrupted : Interrupted site archive origin disk) :
    site.Intact disk := by
  cases interrupted with
  | start => exact ⟨fun _ _ => fresh.artifacts, fun raw marked => by simp [fresh.marker] at marked⟩
  | kill _ _ intact => exact intact

/-- A restore that starts from nothing and returns has gone through all its phases. -/
theorem Disk.Fresh.done {s t : Disk} {report : Report} (fresh : s.Fresh)
    (exit : (site.restoreBundle archive).Exits s (.ok report) t) : ∃ run : StagedRun site archive, Done s run t := by
  rcases exits_restoreBundle exit with ⟨_, raised, _⟩ | ⟨_, ended⟩ | ⟨_, _, _, _, resumable, _⟩
  · simp at raised
  · rcases ended with ⟨_, raised, _⟩ | ⟨_, ended⟩
    · simp at raised
    · exact ended
  · exact absurd fresh.marker resumable.marker

/-- What a restore of the bundle leaves when it returns. -/
theorem ends_installed {s t : Disk} {report : Report} (leftover : Leftover run s)
    (ran : (site.restoreBundle archive).alone s = (.ok report, t)) :
    t.database = some run.info.content ∧ t.artifacts = some run.tree := by
  rcases exits_restoreBundle (Prog.exits_of_alone ran) with ⟨_, raised, _⟩ | ⟨_, ended⟩ | ⟨plan, opened, data, tree, resumable, ended⟩
  · simp at raised
  · rcases ended with ⟨_, raised, _⟩ | ⟨_, other, done⟩
    · simp at raised
    · obtain rfl := other.unique run
      exact ⟨done.database, done.artifacts⟩
  · rcases leftover with fresh | installed | ⟨n, pending⟩
    · exact absurd fresh.marker resumable.marker
    · exact absurd installed.marker resumable.marker
    · obtain ⟨rfl, rfl, rfl⟩ := pending.plan resumable
      exact ⟨ended.database, ended.artifacts⟩

/-! The moments at which the marker is being written. -/

theorem visits_append {σ : Type} {file : File σ} {part data : Bytes} (short : part <+: data) (old : Bytes) (s : σ) :
    (file.append data).Visits (file.write old s) (file.write (old ++ part) s) := by
  induction data generalizing old part with
  | nil =>
      obtain rfl := List.prefix_nil.mp short
      simpa using Prog.visits_start _ _
  | cons b rest ih =>
      cases part with
      | nil => simpa using Prog.visits_start _ _
      | cons c part =>
          obtain ⟨rfl, shorter⟩ := List.cons_prefix_cons.mp short
          have first : (file.appendByte c).alone (file.write old s) = (.ok (), file.write (old ++ [c]) s) := by
            rw [File.appendByte, Prog.alone_exposed_ok, file.read_write, file.write_write]
            rfl
          have later := ih shorter (old ++ [c])
          rw [List.append_assoc, List.singleton_append] at later
          exact Prog.visits_later (Prog.exits_of_alone first) later

theorem visits_writePrivate {σ : Type} {file : File σ} {part data : Bytes} {s : σ} (absent : file.read s = none)
    (short : part <+: data) : (file.writePrivate data).Visits s (file.write part s) := by
  have created : file.create.alone s = (.ok (), file.write [] s) := File.create_alone.mpr ⟨absent, rfl⟩
  exact Prog.visits_later (Prog.exits_of_alone created) (Prog.visits_tryCatch (Prog.visits_bind (visits_append short [] s)))

/-- The disk of a fresh restore with a part of the marker. -/
def StagedRun.marking (run : StagedRun site archive) (origin : Disk) (part : Bytes) : Disk :=
  Disk.markerFile.write part ((Disk.stage origin.made).set run.stage { origin with made := origin.made + 1 })

theorem visits_marking (fresh : disk.Fresh) (run : StagedRun site archive) {part : Bytes}
    (short : part <+: run.marker disk.made) : (site.restoreBundle archive).Visits disk (run.marking disk part) := by
  let made : Disk := { (Disk.stage disk.made).set .empty disk with made := disk.made + 1 }
  let staged : Disk := (Disk.stage disk.made).set run.stage made
  have empty : made.stages disk.made = .empty := by simp [made, Disk.stage]
  have same : (Disk.stage disk.made).set run.stage { disk with made := disk.made + 1 } = staged := by
    simp [staged, made, Disk.stage]
  have spelled : jsonText run.staged.opened.manifest.value = .ok run.staged.opened.manifest.value.canonical :=
    jsonText_ok.mpr ⟨run.spelled, rfl⟩
  have spells : (Prog.ofExcept (jsonText run.staged.opened.manifest.value) : Prog Disk PyError Json).alone staged =
      (.ok run.staged.opened.manifest.value.canonical, staged) := Prog.alone_ofExcept_ok.mpr ⟨spelled, rfl⟩
  have keys : (Prog.ofExcept (orRaise (site.keys.key? run.staged.opened.keyId)
      (.other "KeyError" run.staged.opened.keyId)) : Prog Disk PyError Bytes).alone staged = (.ok run.key, staged) :=
    Prog.alone_ofExcept_ok.mpr ⟨orRaise_eq_ok.mpr run.keyed, rfl⟩
  have written : (Disk.markerFile.writePrivate (run.marker disk.made)).Visits staged (run.marking disk part) := by
    rw [StagedRun.marking, same]
    exact visits_writePrivate fresh.marker short
  have prepared : (site.prepare archive disk.made).Visits made (run.marking disk part) :=
    Prog.visits_later (Prog.exits_of_alone (stages run empty)) (Prog.visits_later (Prog.exits_of_alone spells)
      (Prog.visits_later (Prog.exits_of_alone keys) (Prog.visits_bind written)))
  have fresher : (site.restoreFresh archive).Visits disk (run.marking disk part) := by
    refine Prog.visits_later (Prog.exits_of_alone fresh.refused) ?_
    refine Prog.visits_later (Prog.exits_of_alone (show Prog.mayRaise.alone disk = (.ok (), disk) from rfl)) ?_
    refine Prog.visits_later (Prog.exits_of_alone (show Disk.mkdtemp.alone disk = (.ok disk.made, made) from rfl)) ?_
    exact Prog.visits_bind (Prog.visits_tryCatch (Prog.visits_bind (Prog.visits_tryCatch prepared)))
  exact Prog.visits_later (Prog.exits_of_alone (plans_none fresh.marker)) fresher

/-- A marker of which nothing is written stops every later restore. -/
theorem empty_marker_raises (marked : disk.marker = some []) :
    (site.restoreBundle archive).alone disk = (.error (backupError "bundle JSON is invalid"), disk) := by
  refine Prog.alone_bind_error ?_
  rw [Prog.alone_exposed]
  have refused : site.resumePlan archive disk = .error (backupError "bundle JSON is invalid") := by
    rw [Site.resumePlan, marked]
    rfl
  simp [Prog.outcome, Prog.commit, refused, bind, Except.bind]

end AgentTree.Backup
