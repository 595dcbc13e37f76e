import AgentTree.BackupResuming

/-!
What a restore accepts, and what its targets are at every moment of every run.
-/

namespace AgentTree.Backup

open Outcome Relational Concurrent
open HiddenBenchmark (exactly equalsInt)

variable {site : Site} {archive : Archive}

/-! The checks on a tree. -/

theorem rowPath_ok {foreignId foreignUri : String} {row : PolicyRow} {path : ArtifactPath} :
    site.rowPath foreignId foreignUri row = .ok path ↔ ∃ directory,
      row.artifactId = "policy-" ++ row.contentSha256 ∧ isSha256 row.contentSha256 = true ∧
      site.tenantNamespace row.tenantId = .ok directory ∧
      row.artifactUri = "policy-artifact://" ++ directory ++ "/" ++ row.contentSha256 ++ ".json" ∧
      path = (directory, row.contentSha256) := by
  simp only [Site.rowPath, Site.policyArtifactUri, Site.policyArtifactPath, contentDigest, bind_eq_ok, ensure_eq_ok,
    decide_eq_true_eq, pure_eq_ok]
  constructor
  · rintro ⟨_, named, _, ⟨_, digested, directory, found, rfl⟩, _, located, _, _, other, again, rfl⟩
    obtain rfl : directory = other := Except.ok.inj (found.symm.trans again)
    exact ⟨directory, named, digested, found, located, rfl⟩
  · rintro ⟨directory, named, digested, found, located, rfl⟩
    exact ⟨(), named, _, ⟨(), digested, directory, found, rfl⟩, (), located, (), digested, directory, found, rfl⟩

/-- The canonical place of a row, and the content that belongs there. -/
def Site.Places (site : Site) (row : PolicyRow) (path : ArtifactPath) (data : Bytes) : Prop :=
  site.policyArtifactPath row.tenantId row.contentSha256 = .ok path ∧ site.sha256 data = row.contentSha256

theorem rowPath_places {foreignId foreignUri : String} {row : PolicyRow} {path : ArtifactPath}
    (found : site.rowPath foreignId foreignUri row = .ok path) :
    site.policyArtifactPath row.tenantId row.contentSha256 = .ok path ∧ path.2 = row.contentSha256 := by
  obtain ⟨directory, _, digested, named, _, rfl⟩ := rowPath_ok.mp found
  refine ⟨?_, rfl⟩
  simp [Site.policyArtifactPath, contentDigest, digested, named, ensure, bind, Except.bind, pure, Except.pure]

theorem validateArtifactTree_ok {rows : List PolicyRow} {tree : Tree}
    (valid : site.validateArtifactTree rows tree = .ok ()) :
    (∀ row ∈ rows, ∃ path data, tree.get? path = some data ∧ site.Places row path data) ∧
      ∀ path data, tree.get? path = some data → ∃ row ∈ rows, site.Places row path data := by
  simp only [Site.validateArtifactTree, bind_eq_ok, ensure_eq_ok, Bool.and_eq_true, List.all_eq_true,
    List.contains_iff_mem] at valid
  obtain ⟨expected, looped, same, _⟩ := valid
  have each : ∀ row path, (do
      let path ← site.rowPath "policy artifact ID is not canonical" "policy artifact URI is not canonical" row
      let _ ← site.readVerifiedPolicy tree path row.contentSha256
      return path : Except PyError ArtifactPath) = .ok path →
      ∃ data, tree.get? path = some data ∧ site.Places row path data := by
    intro row path ran
    simp only [Site.readVerifiedPolicy, bind_eq_ok, ensure_eq_ok, orRaise_eq_ok, decide_eq_true_eq, pure_eq_ok] at ran
    obtain ⟨_, found, data, ⟨_, _, _, held, _, _, _, digest, rfl⟩, rfl⟩ := ran
    exact ⟨_, held, (rowPath_places found).1, digest⟩
  constructor
  · intro row member
    obtain ⟨path, _, ran⟩ := mapM_each looped member
    exact ⟨path, each row path ran⟩
  · intro path data held
    have listed : path ∈ tree.keys := Dict.contains_iff.mp (by simp [Dict.contains, held])
    obtain ⟨row, member, ran⟩ := mapM_mem looped (same path listed)
    obtain ⟨other, again, places⟩ := each row path ran
    obtain rfl : data = other := Option.some.inj (held.symm.trans again)
    exact ⟨row, member, places⟩

theorem policyArtifactPath_digest {tenantId digest : String} {path : ArtifactPath}
    (named : site.policyArtifactPath tenantId digest = .ok path) : path.2 = digest := by
  simp only [Site.policyArtifactPath, bind_eq_ok, pure_eq_ok] at named
  obtain ⟨_, _, directory, _, rfl⟩ := named
  rfl

/-- Under an ideal hash the rows have one tree. -/
theorem validateArtifactTree_unique (ideal : Function.Injective site.sha256) {rows : List PolicyRow} {first second : Tree}
    (one : site.validateArtifactTree rows first = .ok ()) (two : site.validateArtifactTree rows second = .ok ())
    {path : ArtifactPath} {data : Bytes} (held : first.get? path = some data) : second.get? path = some data := by
  obtain ⟨row, member, located, digest⟩ := (validateArtifactTree_ok one).2 path data held
  obtain ⟨other, again, there, located', digest'⟩ := (validateArtifactTree_ok two).1 row member
  obtain rfl : path = other := Except.ok.inj (located.symm.trans located')
  rw [there, ideal (digest'.trans digest.symm)]

/-! The targets at every moment. -/

/-- The targets of the disk are those of one authentic bundle among the ones that were offered. -/
def Consistent (site : Site) (offered : Archive → Prop) (disk : Disk) : Prop :=
  ∀ data, disk.database = some data → ∃ archive opened snapshot tree, offered archive ∧
    site.openBundle archive = .ok opened ∧ site.Content opened.manifest snapshot data tree ∧ disk.artifacts = some tree

/-- The disks that restores of the offered bundles reach, each killed in some state that it passes through, or run to
an end: its ends are among these states. -/
inductive Reached (site : Site) (offered : Archive → Prop) : Disk → Prop
  | absent (disk : Disk) : disk.database = none → disk.artifacts = none → Reached site offered disk
  | restore {before after : Disk} (archive : Archive) : Reached site offered before → offered archive →
      (site.restoreBundle archive).Visits before after → Reached site offered after

theorem StagedRun.found (run : StagedRun site archive) : site.openBundle archive = .ok run.staged.opened :=
  (stageBundle_fits run.ran).opened

section Consistency

variable {offered : Archive → Prop} {s t : Disk}

theorem consistent_none (absent : t.database = none) : Consistent site offered t := by
  intro data there
  simp [absent] at there

theorem consistent_some {opened : Opened} {snapshot : Snapshot} {data : Bytes} {tree : Tree} (usable : offered archive)
    (found : site.openBundle archive = .ok opened) (content : site.Content opened.manifest snapshot data tree)
    (database : t.database = some data) (artifacts : t.artifacts = some tree) : Consistent site offered t := by
  intro other there
  obtain rfl : data = other := Option.some.inj (database.symm.trans there)
  exact ⟨archive, opened, snapshot, tree, usable, found, content, artifacts⟩

theorem consistent_phase (usable : offered archive) (phase : Phase site archive s t) : Consistent site offered t := by
  cases phase with
  | clear clear => exact consistent_none clear.database
  | marked run part marked => exact consistent_none marked.database
  | moved run rest moved => exact consistent_none moved.database
  | removed run removed => exact consistent_none removed.database
  | remains rest remains => exact consistent_none remains.database
  | placed run placed => exact consistent_some usable run.found run.content placed.database placed.artifacts
  | done run done => exact consistent_some usable run.found run.content done.database done.artifacts

theorem consistent_resuming {plan : Plan} {opened : Opened} {data : Bytes} {tree : Tree} (usable : offered archive)
    (before : Consistent site offered s) (resumable : site.Resumable archive s plan opened data tree)
    (resuming : Resuming s plan.stage data tree t) : Consistent site offered t := by
  obtain ⟨snapshot, content⟩ := resumable.content
  rcases resuming with underway | resumed
  · rcases underway.database with same | ⟨database, artifacts⟩
    · intro other there
      obtain ⟨earlier, opened', snapshot', tree', usable', found', content', held⟩ := before other (same ▸ there)
      have installed : t.artifacts = some tree' := by
        rcases underway.artifacts with kept | moved
        · rw [kept, held]
        · have candidate := resumable.artifacts
          rw [held, Option.some_or] at candidate
          rw [moved, candidate]
      exact ⟨earlier, opened', snapshot', tree', usable', found', content', installed⟩
    · exact consistent_some usable resumable.found content database artifacts
  · exact consistent_some usable resumable.found content resumed.database resumed.artifacts

/-- Every state that a restore passes through keeps the targets together. -/
theorem consistent_visited (usable : offered archive) (before : Consistent site offered s)
    (visited : Visited site archive s t) : Consistent site offered t := by
  rcases visited with rfl | ⟨_, phase⟩ | ⟨plan, opened, data, tree, resumable, resuming⟩
  · exact before
  · exact consistent_phase usable phase
  · exact consistent_resuming usable before resumable resuming

theorem consistent_reached (reached : Reached site offered t) : Consistent site offered t := by
  induction reached with
  | absent disk absent _ => exact consistent_none absent
  | restore archive _ usable visit ih => exact consistent_visited usable ih (visits_restoreBundle visit)

end Consistency

/-! What a restore accepts. -/

theorem validateZipHeaders_ok {members infos : List ZipInfo} (checked : validateZipHeaders members = .ok infos) :
    infos = members ∧ (members.map ZipInfo.filename).Nodup := by
  simp only [validateZipHeaders, bind_eq_ok, pure_eq_ok] at checked
  obtain ⟨found, looped, _, _, rfl⟩ := checked
  have each : ∀ (rest before after : List ZipInfo), (before.map ZipInfo.filename).Nodup →
      rest.foldlM validateZipHeader before = .ok after →
      after = before ++ rest ∧ (after.map ZipInfo.filename).Nodup := by
    intro rest
    induction rest with
    | nil =>
        intro before after distinct ran
        obtain rfl : before = after := by simpa [pure, Except.pure] using ran
        simpa using distinct
    | cons info rest ih =>
        intro before after distinct ran
        rw [List.foldlM_cons] at ran
        obtain ⟨next, turned, later⟩ := bind_eq_ok.mp ran
        simp only [validateZipHeader, bind_eq_ok, ensure_eq_ok, pure_eq_ok, Bool.not_eq_true', List.any_eq_false,
          decide_eq_true_eq] at turned
        obtain ⟨_, _, _, fresh, _, _, _, _, _, _, rfl⟩ := turned
        have longer : ((before ++ [info]).map ZipInfo.filename).Nodup := by
          rw [List.map_append, List.nodup_append]
          refine ⟨distinct, by simp, ?_⟩
          intro name member other last
          obtain ⟨existing, present, rfl⟩ := List.mem_map.mp member
          simp only [List.map_cons, List.map_nil, List.mem_singleton] at last
          subst last
          exact fresh existing present
        obtain ⟨rfl, distinct⟩ := ih _ after longer later
        exact ⟨by simp, distinct⟩
  obtain ⟨rfl, distinct⟩ := each members [] found (by simp) looped
  exact ⟨rfl, distinct⟩

theorem sameNames_iff {first second : List String} :
    sameNames first second = true ↔ ∀ name, name ∈ first ↔ name ∈ second := by
  simp only [sameNames, Bool.and_eq_true, List.all_eq_true, List.contains_iff_mem]
  exact ⟨fun ⟨one, two⟩ name => ⟨one name, two name⟩, fun same => ⟨fun name => (same name).mp, fun name => (same name).mpr⟩⟩

theorem Phase.kept {s t : Disk} (phase : Phase site archive s t) : Kept s t := by
  cases phase with
  | clear clear => exact clear.toKept
  | marked run part marked => exact marked.toKept
  | moved run rest moved => exact moved.toKept
  | removed run removed => exact removed.toKept
  | remains rest remains => exact remains.toKept
  | placed run placed => exact placed.toKept
  | done run done => exact done.toKept

/-- Nothing is left to resume. -/
theorem Site.Resumable.marker {disk : Disk} {plan : Plan} {opened : Opened} {data : Bytes} {tree : Tree}
    (resumable : site.Resumable archive disk plan opened data tree) : disk.marker ≠ none := by
  obtain ⟨raw, _, present, _⟩ := resumable.marked
  simp [present]

/-- A fresh restore touches its own stage, the marker and the two targets. -/
theorem visits_fresh {disk after : Disk} (unmarked : disk.marker = none)
    (visit : (site.restoreBundle archive).Visits disk after) : after = disk ∨ Kept disk after := by
  rcases visits_restoreBundle visit with same | ⟨_, phase⟩ | ⟨plan, opened, data, tree, resumable, _⟩
  · exact .inl same
  · exact .inr phase.kept
  · exact absurd unmarked resumable.marker

/-- When it returns, the archive is exactly the members of a manifest that a key of the ring has signed, and the targets
are what the manifest describes. -/
theorem exits_accepted {disk after : Disk} {report : Report} (unmarked : disk.marker = none)
    (exit : (site.restoreBundle archive).Exits disk (.ok report) after) :
    ∃ members opened snapshot info tree, archive = .ok members ∧ (members.map ZipInfo.filename).Nodup ∧
      site.Authentic archive opened ∧
      (∀ name, name ∈ members.map ZipInfo.filename ↔ name ∈ manifestMember :: signatureMember :: databaseMember ::
        opened.manifest.objects.map fun item => objectMember item.sha256) ∧
      member members databaseMember = .ok info ∧ after.database = some info.content ∧ after.artifacts = some tree ∧
      site.Content opened.manifest snapshot info.content tree ∧
      ∀ path data, tree.get? path = some data → ∃ row ∈ snapshot.rows, site.Places row path data := by
  rcases exits_restoreBundle exit with ⟨error, raised, _⟩ | ⟨_, ended⟩ | ⟨plan, opened, data, tree, resumable, _⟩
  · simp at raised
  · rcases ended with ⟨error, raised, _⟩ | ⟨_, run, done⟩
    · simp at raised
    · have authentic := openBundle_ok.mp run.found
      obtain ⟨members, there, headers⟩ := authentic.headers
      obtain ⟨same, distinct⟩ := validateZipHeaders_ok headers
      have named := run.named
      have listed := sameNames_iff.mp authentic.members
      rw [same] at named listed
      exact ⟨members, run.staged.opened, run.staged.snapshot, run.info, run.tree, there, distinct, authentic, listed,
        named, done.database, done.artifacts, run.content, (validateArtifactTree_ok run.content.tree).2⟩
  · exact absurd unmarked resumable.marker

/-- When it raises without a database in place, no file of the tree is left but those that the system has refused to
remove. -/
theorem exits_refused {disk after : Disk} {error : PyError} (unmarked : disk.marker = none) (gone : disk.artifacts = none)
    (exit : (site.restoreBundle archive).Exits disk (.error error) after) (missing : after.database = none) :
    after.artifacts = none ∨ ∃ rest, after.artifacts = some rest ∧ rest.rows ≠ [] ∧
      ∀ entry ∈ rest.rows, site.removable ArtifactPath entry.1 = false := by
  rcases exits_restoreBundle exit with ⟨_, _, rfl⟩ | ⟨_, ended⟩ | ⟨plan, opened, data, tree, resumable, _⟩
  · exact .inl gone
  · rcases ended with ⟨_, _, rfl⟩ | ⟨_, _, settled⟩
    · exact .inl gone
    · cases left : after.artifacts with
      | none => exact .inl rfl
      | some rest => exact .inr ⟨rest, rfl, settled missing rest left⟩
  · exact absurd unmarked resumable.marker

end AgentTree.Backup
