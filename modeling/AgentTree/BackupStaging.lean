import AgentTree.BackupFiles

/-!
What a bundle must be for `restore_bundle` to stage it, and what it leaves in the stage.
-/

namespace AgentTree.Backup

open Outcome Relational Concurrent
open HiddenBenchmark (exactly isObject uniqueObject equalsInt)

variable {site : Site} {archive : Archive}

/-! Authentic bundles. -/

/-- The signature is one of the bytes, by a key of the ring. -/
structure Site.Signed (site : Site) (raw : Bytes) (signature : Json) (keyId : String) : Prop where
  named : signature.get? "key_id" = some (.str keyId)
  signed : ∃ key text, site.keys.key? keyId = some key ∧ signature.get? "signature" = some (.str text) ∧
    b64decode text = some (site.keys.hmac key raw)

theorem strOf_ok {value : Option Json} {error : PyError} {text : String} :
    strOf value error = .ok text ↔ value = some (.str text) := by
  unfold strOf
  split
  next => simp
  next other => simpa using other text

theorem verifySignature_ok {raw : Bytes} {value : Json} {unsupported invalid failed keyId : String} :
    site.verifySignature raw value unsupported invalid failed = .ok keyId ↔
      value.get? "algorithm" = some (.str "HMAC-SHA256") ∧ site.Signed raw value keyId := by
  simp only [Site.verifySignature, bind_eq_ok, ensure_eq_ok, decide_eq_true_eq, orRaise_eq_ok, strOf_ok, pure_eq_ok]
  constructor
  · rintro ⟨_, algorithm, name, named, key, found, text, same, supplied, decoded, _, rfl, rfl⟩
    exact ⟨algorithm, named, key, text, found, same, decoded⟩
  · rintro ⟨algorithm, named, key, text, found, same, decoded⟩
    exact ⟨(), algorithm, keyId, named, key, found, text, same, _, decoded, (), rfl, rfl⟩

/-- The bundle: its members are those of a manifest whose bytes carry a signature of the ring. -/
structure Site.Authentic (site : Site) (archive : Archive) (opened : Opened) : Prop where
  headers : ∃ members, archive = .ok members ∧ validateZipHeaders members = .ok opened.infos
  signed : ∃ manifestInfo signatureInfo manifestBytes signatureBytes signature value,
    member opened.infos manifestMember = .ok manifestInfo ∧
    readMember manifestInfo maxManifestBytes = .ok manifestBytes ∧
    member opened.infos signatureMember = .ok signatureInfo ∧
    readMember signatureInfo maxSignatureBytes = .ok signatureBytes ∧
    site.strictJson signatureBytes = .ok signature ∧ exactly signature ["algorithm", "key_id", "signature"] = true ∧
    signature.get? "algorithm" = some (.str "HMAC-SHA256") ∧ site.Signed manifestBytes signature opened.keyId ∧
    site.strictJson manifestBytes = .ok value ∧ validateManifest value = .ok opened.manifest
  members : sameNames (opened.infos.map ZipInfo.filename) (manifestMember :: signatureMember :: databaseMember ::
    opened.manifest.objects.map fun item => objectMember item.sha256) = true

theorem openBundle_ok {opened : Opened} : site.openBundle archive = .ok opened ↔ site.Authentic archive opened := by
  simp only [Site.openBundle, Site.verifyManifestSignature, bind_eq_ok, ensure_eq_ok, verifySignature_ok, pure_eq_ok]
  constructor
  · rintro ⟨members, there, infos, headers, manifestInfo, first, manifestBytes, read, signatureInfo, second, signatureBytes,
      signed, signature, parsed, keyId, ⟨_, shape, algorithm, valid⟩, value, text, manifest, checked, _, same, rfl⟩
    exact ⟨⟨members, there, headers⟩, ⟨manifestInfo, signatureInfo, manifestBytes, signatureBytes, signature, value, first,
      read, second, signed, parsed, shape, algorithm, valid, text, checked⟩, same⟩
  · rintro ⟨⟨members, there, headers⟩, ⟨manifestInfo, signatureInfo, manifestBytes, signatureBytes, signature, value,
      first, read, second, signed, parsed, shape, algorithm, valid, text, checked⟩, same⟩
    exact ⟨members, there, opened.infos, headers, manifestInfo, first, manifestBytes, read, signatureInfo, second,
      signatureBytes, signed, signature, parsed, opened.keyId, ⟨(), shape, algorithm, valid⟩, value, text, opened.manifest,
      checked, (), same, rfl⟩

theorem Site.Authentic.keyed {opened : Opened} (authentic : site.Authentic archive opened) :
    ∃ key, site.keys.key? opened.keyId = some key := by
  obtain ⟨_, _, _, _, _, _, _, _, _, _, _, _, _, ⟨_, key, _, found, _⟩, _⟩ := authentic.signed
  exact ⟨key, found⟩

/-! The content of a bundle. -/

/-- The database and the tree of a bundle with this manifest. -/
structure Site.Content (site : Site) (manifest : Manifest) (snapshot : Snapshot) (data : Bytes) (tree : Tree) : Prop where
  size : data.length = manifest.database.sizeBytes
  digest : site.sha256 data = manifest.database.sha256
  inspected : site.inspectSnapshot data = .ok snapshot
  schema : equalsInt site.integral manifest.schemaVersion snapshot.userVersion = true
  champions : site.equalsChampions snapshot.champions manifest.champions = true
  artifacts : ∃ pairs, site.artifactPairs snapshot.rows = .ok pairs ∧ pairs.Perm manifest.artifacts
  tree : site.validateArtifactTree snapshot.rows tree = .ok ()

theorem checkCandidates_ok {manifest : Manifest} {value : Json} {data : Bytes} {tree : Tree} :
    site.checkCandidates manifest value data tree = .ok () ↔ ∃ snapshot, site.Content manifest snapshot data tree ∧
      (value.get? "artifacts").any (equalsInt site.integral · snapshot.rows.length) = true ∧
      (value.get? "champions").any (equalsInt site.integral · snapshot.champions.length) = true := by
  simp only [Site.checkCandidates, bind_eq_ok, ensure_eq_ok, Bool.and_eq_true, decide_eq_true_eq, List.isPerm_iff]
  constructor
  · rintro ⟨_, ⟨size, digest⟩, snapshot, inspected, _, ⟨⟨⟨schema, champions⟩, counted⟩, named⟩, pairs, paired, _, perm, valid⟩
    exact ⟨snapshot, ⟨size, digest, inspected, schema, champions, ⟨pairs, paired, perm.symm⟩, valid⟩, counted, named⟩
  · rintro ⟨snapshot, content, counted, named⟩
    obtain ⟨pairs, paired, perm⟩ := content.artifacts
    exact ⟨(), ⟨content.size, content.digest⟩, snapshot, content.inspected, (),
      ⟨⟨⟨content.schema, content.champions⟩, counted⟩, named⟩, pairs, paired, (), perm.symm, content.tree⟩

/-! Staging. -/

theorem strict_stageBundle (archive : Archive) : (site.stageBundle archive).Strict := by
  refine Prog.Strict.bind (Prog.strict_exposed _) fun opened => ?_
  refine Prog.Strict.bind trivial fun info => ?_
  refine Prog.Strict.bind (File.strict_copyVerified _ _ _ _ _) fun _ => ?_
  refine Prog.Strict.bind (Prog.strict_require _ _) fun _ => Prog.Strict.bind Prog.strict_mayRaise fun _ => ?_
  refine Prog.Strict.bind (Prog.strict_forEach fun item _ => ?_) fun _ => ?_
  · exact Prog.Strict.bind trivial fun _ => File.strict_copyVerified _ _ _ _ _
  refine Prog.Strict.bind (Prog.strict_exposed _) fun snapshot => ?_
  refine Prog.Strict.bind (Prog.strict_require _ _) fun _ => Prog.Strict.bind (Prog.strict_require _ _) fun _ => ?_
  refine Prog.Strict.bind trivial fun pairs => ?_
  refine Prog.Strict.bind (Prog.strict_require _ _) fun _ => Prog.Strict.bind (Prog.strict_require _ _) fun _ => ?_
  refine Prog.Strict.bind (Prog.strict_exposed _) fun _ => ?_
  refine Prog.Strict.bind (Prog.strict_forEach fun row _ => ?_) fun _ => ?_
  · exact Prog.Strict.bind trivial fun _ => Prog.Strict.bind Prog.strict_mayRaise fun _ => File.strict_copyPrivate _
  exact Prog.Strict.bind (Prog.strict_exposed _) fun _ => trivial

/-- What a staged bundle is, with the stage that holds it. -/
structure Staged.Fits (site : Site) (archive : Archive) (staged : Staged) (stage : Stage) : Prop where
  opened : site.openBundle archive = .ok staged.opened
  present : stage.present = true
  objects : ∃ pairs, site.artifactPairs staged.snapshot.rows = .ok pairs ∧
    sameNames (pairs.map Prod.snd) (staged.opened.manifest.objects.map SizeDigest.sha256) = true
  counted : ∀ tree, stage.artifacts = some tree → tree.rows.length = staged.snapshot.rows.length
  held : ∃ info tree, member staged.opened.infos databaseMember = .ok info ∧ stage.database = some info.content ∧
    stage.artifacts = some tree ∧ site.Content staged.opened.manifest staged.snapshot info.content tree

theorem objects_kept {infos : List ZipInfo} {items : List (SizeDigest maxPolicyBytes)} {s t : Stage} {result : Unit}
    (ran : (Prog.forEach items fun item => do
      let info ← Prog.ofExcept (member infos (objectMember item.sha256))
      (Stage.objectFile item.sha256).copyVerified site.sha256 info item.sizeBytes item.sha256 maxPolicyBytes).alone s =
        (.ok result, t)) :
    t.database = s.database ∧ t.present = s.present := by
  refine Prog.alone_forEach_kept (fun t => t.database = s.database ∧ t.present = s.present) ⟨rfl, rfl⟩ ?_ ran
  intro item _ u v kept copied
  simp only [Prog.alone_bind_ok, Prog.alone_ofExcept_ok, File.copyVerified_alone] at copied
  obtain ⟨_, _, ⟨_, rfl⟩, _, _, _, _, _, rfl⟩ := copied
  exact kept

/-- Every turn adds a file of its own. -/
theorem rows_counted {foreignId foreignUri : String} {rows : List PolicyRow} {s t : Stage} {tree : Tree} {result : Unit}
    (made : s.artifacts = some tree)
    (ran : (Prog.forEach rows fun row => do
      let path ← Prog.ofExcept (site.rowPath foreignId foreignUri row)
      Prog.mayRaise
      (Stage.artifactFile path).copyPrivate fun stage => stage.objects.get? row.contentSha256).alone s =
        (.ok result, t)) :
    t.database = s.database ∧ t.present = s.present ∧
      ∃ after, t.artifacts = some after ∧ after.rows.length = tree.rows.length + rows.length := by
  induction rows generalizing s tree with
  | nil =>
      obtain rfl : s = t := (Prod.mk.inj ran).2
      exact ⟨rfl, rfl, tree, made, rfl⟩
  | cons row rest ih =>
      obtain ⟨_, u, turned, later⟩ := Prog.alone_bind_ok.mp ran
      simp only [Prog.alone_bind_ok, Prog.alone_ofExcept_ok, Prog.alone_mayRaise_ok, File.copyPrivate_alone] at turned
      obtain ⟨path, v, ⟨_, same⟩, _, w, next, fresh, data, _, wrote⟩ := turned
      rw [next, same] at fresh wrote
      rw [wrote] at later
      have absent : tree.contains path = false := by
        have gone : (Stage.artifactFile path).read s = none := fresh
        simp only [Stage.artifactFile, made, Option.bind_some] at gone
        simp [Dict.contains, gone]
      have longer : (tree.set path data).rows.length = tree.rows.length + 1 := by
        rw [Dict.rows_set, absent]
        simp
      have written : ((Stage.artifactFile path).write data s).artifacts = some (tree.set path data) := by
        simp [Stage.artifactFile, made]
      obtain ⟨database, present, after, held, counted⟩ := ih written later
      refine ⟨database, present, after, held, ?_⟩
      rw [counted, longer, List.length_cons]
      omega

theorem stageBundle_fits {staged : Staged} {stage : Stage}
    (ran : (site.stageBundle archive).alone .empty = (.ok staged, stage)) : staged.Fits site archive stage := by
  simp only [Site.stageBundle, Prog.alone_bind_ok, Prog.alone_exposed_ok, Prog.alone_ofExcept_ok, Prog.alone_require_ok,
    Prog.alone_mayRaise_ok, Prog.alone_pure_ok, bind_eq_ok, pure_eq_ok, orRaise_eq_ok, File.copyVerified_alone,
    Prod.mk.injEq, Except.ok.injEq, and_assoc, exists_and_left, exists_eq_left, exists_eq_left', exists_const] at ran
  obtain ⟨opened, _, ⟨_, found, rfl, rfl⟩, info, there, _, _, _, _, long, digest, _, _, copied, objects, ran⟩ := ran
  obtain ⟨kept, present⟩ := objects_kept objects
  obtain ⟨snapshot, _, ⟨data, stored, _, inspected, rfl, rfl⟩, schema, champions, pairs, paired, perm, named, _, _, linked,
    rows, _, ⟨_, valid, _, rfl⟩, rfl, rfl⟩ := ran
  rw [kept] at stored
  obtain rfl : info.content = data := Option.some.inj stored
  obtain ⟨same, there', tree, held, counted⟩ := rows_counted rfl rows
  rw [held] at valid
  refine ⟨found, there'.trans present, ⟨pairs, paired, named⟩, fun other again => ?_, info, tree, there, same.trans kept,
    held, long, digest, inspected, schema, champions, ⟨pairs, paired, List.isPerm_iff.mp perm⟩, valid⟩
  rw [← Option.some.inj (held.symm.trans again), counted]
  exact Nat.zero_add _

end AgentTree.Backup
