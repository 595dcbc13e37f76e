import AgentTree.BackupReading
import AgentTree.JsonSizes
import Mathlib.Data.List.Dedup

/-!
A restore of a bundle that a backup has made.
-/

namespace AgentTree.Backup

open Outcome Relational Concurrent
open HiddenBenchmark (exactly equalsInt exactly_canonical)

variable {site : Site} {source : Source} {members : List ZipInfo}

/-- The place of a registered row. -/
def Site.place (site : Site) (row : PolicyRow) : ArtifactPath :=
  ((site.tenantNamespace row.tenantId).toOption.getD "", row.contentSha256)

/-- The file that a backup reads for a digest: the one of the first row. -/
def Site.registeredFile (site : Site) (root : Tree) (rows : List PolicyRow) (digest : String) : Option Bytes :=
  (rows.find? (·.contentSha256 = digest)).bind fun row => root.get? (site.place row)

/-- The hash has the form of a SHA-256 on what a backup names by it. -/
structure Site.Hashes (site : Site) (source : Source) (snapshot : Snapshot) : Prop where
  database : isSha256 (site.sha256 source.database) = true
  tenants : ∀ row ∈ snapshot.rows, isSha256 (site.sha256 (utf8 row.tenantId)) = true

/-- What a backup has read and written when it returns. -/
structure Site.Created (site : Site) (source : Source) (members : List ZipInfo) (snapshot : Snapshot)
    (objects : Dict String Bytes) (artifacts : List (String × String)) (key : Bytes) : Prop where
  keyed : site.keys.key? source.activeKeyId = some key
  inspected : site.inspectSnapshot source.database = .ok snapshot
  registered : ∀ row ∈ snapshot.rows, site.Registered objects row
  sound : ∀ object ∈ objects.rows, site.Sound object ∧ ∃ row ∈ snapshot.rows, row.contentSha256 = object.1
  files : ∀ digest, objects.get? digest = site.registeredFile source.artifactRoot snapshot.rows digest
  paired : snapshot.rows.mapM (fun row => do
    let directory ← site.tenantNamespace row.tenantId
    return (directory, row.contentSha256)) = .ok artifacts
  bounded : source.database.length ≤ maxDatabaseBytes
  content : source.database.length + (objects.rows.map fun object => object.2.length).sum ≤ maxBundleContentBytes
  members : members = bundleMembers
    (canonicalBytes (manifestJson source snapshot objects.rows artifacts (site.sha256 source.database)))
    (canonicalBytes (authentication source.activeKeyId (site.keys.hmac key
      (canonicalBytes (manifestJson source snapshot objects.rows artifacts (site.sha256 source.database))))))
    source.database objects.rows

theorem policyArtifactPath_place {path : ArtifactPath} {row : PolicyRow}
    (located : site.policyArtifactPath row.tenantId row.contentSha256 = .ok path) : path = site.place row := by
  simp only [Site.policyArtifactPath, bind_eq_ok, pure_eq_ok] at located
  obtain ⟨_, _, directory, found, rfl⟩ := located
  rw [Site.place, found]
  rfl

theorem addObject_get? {root : Tree} {row : PolicyRow} {before after : Dict String Bytes}
    (added : site.addObject root row before = .ok after) (digest : String) : after.get? digest =
      (before.get? digest).or (if row.contentSha256 = digest then root.get? (site.place row) else none) := by
  unfold Site.addObject at added
  split at added
  next known =>
    obtain rfl := Except.ok.inj added
    by_cases same : row.contentSha256 = digest
    · obtain ⟨data, there⟩ := Option.isSome_iff_exists.mp (same ▸ known : before.contains digest = true)
      rw [there, Option.some_or]
    · rw [if_neg same, Option.or_none]
  next fresh =>
    simp only [Site.readVerifiedPolicy, bind_eq_ok, ensure_eq_ok, orRaise_eq_ok, decide_eq_true_eq, pure_eq_ok] at added
    obtain ⟨path, located, data, ⟨_, _, other, held, _, _, _, _, rfl⟩, rfl⟩ := added
    obtain rfl := policyArtifactPath_place located
    have absent : before.get? row.contentSha256 = none := by simpa [Dict.contains] using fresh
    by_cases same : row.contentSha256 = digest
    · subst same
      rw [Dict.get?_set, if_pos rfl, absent, Option.none_or, if_pos rfl, held]
    · rw [Dict.get?_set, if_neg (Ne.symm same), if_neg same, Option.or_none]

theorem collectObjects_get? {root : Tree} {rows : List PolicyRow} {before objects : Dict String Bytes}
    {artifacts : List (String × String)} (ran : site.collectObjects root rows before = .ok (objects, artifacts))
    (digest : String) : objects.get? digest = (before.get? digest).or (site.registeredFile root rows digest) := by
  induction rows generalizing before artifacts with
  | nil =>
      obtain ⟨rfl, _⟩ := Prod.mk.inj (Except.ok.inj ran)
      simp [Site.registeredFile]
  | cons row rest ih =>
      simp only [Site.collectObjects, bind_eq_ok, ensure_eq_ok, pure_eq_ok] at ran
      obtain ⟨_, _, _, _, _, _, extended, added, _, _, ⟨_, others⟩, later, same⟩ := ran
      obtain ⟨rfl, _⟩ := Prod.mk.inj same
      have grown := addObject_get? added digest
      rw [ih later]
      by_cases named : row.contentSha256 = digest
      · obtain ⟨⟨data, held⟩, _⟩ := addObject_ok added
        rw [named] at held
        rw [held, if_pos named] at grown
        rw [held, Option.some_or, Site.registeredFile, List.find?_cons_of_pos (by simpa using named), Option.bind_some, grown]
      · rw [grown, if_neg named, Option.or_none, Site.registeredFile, Site.registeredFile,
          List.find?_cons_of_neg (by simpa using named)]

theorem canonicalBytes_of {value text : Json} (written : value.canonical = text) : text.encode = canonicalBytes value := by
  rw [canonicalBytes, written]

theorem inspectSnapshot_ok {data : Bytes} {snapshot : Snapshot} (inspected : site.inspectSnapshot data = .ok snapshot) :
    site.sqlite data = .ok snapshot ∧ snapshot.userVersion = schemaVersion := by
  simp only [Site.inspectSnapshot, bind_eq_ok, ensure_eq_ok, decide_eq_true_eq, pure_eq_ok] at inspected
  obtain ⟨found, read, _, _, _, _, _, version, rfl⟩ := inspected
  exact ⟨read, version⟩

theorem createBundle_ok (created : site.createBundle source = .ok members) :
    ∃ snapshot objects artifacts key, site.Created source members snapshot objects artifacts key := by
  unfold Site.createBundle at created
  obtain ⟨key, keyed, created⟩ := bind_eq_ok.mp created
  obtain ⟨snapshot, inspected, created⟩ := bind_eq_ok.mp created
  obtain ⟨⟨objects, artifacts⟩, collected, created⟩ := bind_eq_ok.mp created
  obtain ⟨_, content, created⟩ := bind_eq_ok.mp created
  obtain ⟨digest, hashed, created⟩ := bind_eq_ok.mp created
  obtain ⟨text, spelled, created⟩ := bind_eq_ok.mp created
  obtain ⟨signature, signed, returned⟩ := bind_eq_ok.mp created
  simp only [Site.sha256File, bind_eq_ok, ensure_eq_ok, decide_eq_true_eq, pure_eq_ok] at hashed
  obtain ⟨_, bounded, rfl⟩ := hashed
  have written := (jsonText_ok.mp spelled).2
  have authenticated := (jsonText_ok.mp signed).2
  obtain ⟨registered, _, sound, paired⟩ := collectObjects_ok collected
  refine ⟨snapshot, objects.sorted, artifacts, key, orRaise_eq_ok.mp keyed, inspected, ?_, ?_, fun digest => ?_, paired,
    bounded, ?_, ?_⟩
  · intro row member
    obtain ⟨named, digested, located, data, held⟩ := registered row member
    exact ⟨named, digested, located, data, (Dict.get?_congr (fun _ => Dict.mem_sorted) _).trans held⟩
  · intro object member
    rcases sound object (Dict.mem_sorted.mp member) with none | found
    · exact absurd none List.not_mem_nil
    · exact found
  · exact (Dict.get?_congr (fun _ => Dict.mem_sorted) digest).trans (collectObjects_get? collected digest)
  · simpa only [ensure_eq_ok, decide_eq_true_eq] using content
  · rw [← canonicalBytes_of written, ← canonicalBytes_of authenticated]
    exact (Except.ok.inj returned).symm

/-! The loops. -/

theorem objects_copied {infos : List ZipInfo} {items : List (SizeDigest maxPolicyBytes)} {s : Stage}
    (distinct : (items.map SizeDigest.sha256).Nodup)
    (present : ∀ item ∈ items, ∃ info, member infos (objectMember item.sha256) = .ok info ∧
      info.fileSize = item.sizeBytes ∧ info.failure = none ∧ info.content.length = item.sizeBytes ∧
      site.sha256 info.content = item.sha256)
    (fresh : ∀ item ∈ items, s.objects.get? item.sha256 = none) :
    ∃ t, (Prog.forEach items fun item => do
      let info ← Prog.ofExcept (member infos (objectMember item.sha256))
      (Stage.objectFile item.sha256).copyVerified site.sha256 info item.sizeBytes item.sha256 maxPolicyBytes).alone s =
        (.ok (), t) ∧ t.database = s.database ∧ t.artifacts = s.artifacts ∧
      (∀ item ∈ items, ∃ info, member infos (objectMember item.sha256) = .ok info ∧
        t.objects.get? item.sha256 = some info.content) ∧
      ∀ digest, digest ∉ items.map SizeDigest.sha256 → t.objects.get? digest = s.objects.get? digest := by
  induction items generalizing s with
  | nil => exact ⟨s, rfl, rfl, rfl, by simp, fun _ _ => rfl⟩
  | cons item rest ih =>
      obtain ⟨apart, others⟩ := List.nodup_cons.mp distinct
      obtain ⟨info, found, sized, whole, long, digest⟩ := present item List.mem_cons_self
      have copied : ((Stage.objectFile item.sha256).copyVerified site.sha256 info item.sizeBytes item.sha256
          maxPolicyBytes).alone s = (.ok (), (Stage.objectFile item.sha256).write info.content s) :=
        File.copyVerified_alone.mpr ⟨⟨sized ▸ item.bounded, sized⟩, fresh item List.mem_cons_self, whole, long, digest, rfl⟩
      have later : ∀ other ∈ rest,
          ((Stage.objectFile item.sha256).write info.content s).objects.get? other.sha256 = none := by
        intro other member
        have different : other.sha256 ≠ item.sha256 := fun same => apart (same ▸ List.mem_map_of_mem member)
        simp only [Stage.objectFile, Dict.get?_set, if_neg different]
        exact fresh other (List.mem_cons_of_mem _ member)
      obtain ⟨t, ran, database, artifacts, held, kept⟩ := ih others
        (fun other member => present other (List.mem_cons_of_mem _ member)) later
      refine ⟨t, Prog.alone_bind_ok.mpr ⟨(), _, Prog.alone_bind_ok.mpr ⟨info, s, Prog.alone_ofExcept_ok.mpr ⟨found, rfl⟩,
        copied⟩, ran⟩, database, artifacts, ?_, ?_⟩
      · intro other member
        rcases List.mem_cons.mp member with rfl | member
        · refine ⟨info, found, (kept _ apart).trans ?_⟩
          simp [Stage.objectFile, Dict.get?_set]
        · exact held other member
      · intro digest absent
        simp only [List.map_cons, List.mem_cons, not_or] at absent
        rw [kept digest absent.2]
        simp [Stage.objectFile, Dict.get?_set, absent.1]

theorem rows_copied {foreignId foreignUri : String} {rows : List PolicyRow} {s : Stage} {tree : Tree}
    (made : s.artifacts = some tree) (distinct : (rows.map site.place).Nodup)
    (located : ∀ row ∈ rows, site.rowPath foreignId foreignUri row = .ok (site.place row))
    (held : ∀ row ∈ rows, ∃ data, s.objects.get? row.contentSha256 = some data)
    (fresh : ∀ row ∈ rows, tree.get? (site.place row) = none) :
    ∃ t after, (Prog.forEach rows fun row => do
      let path ← Prog.ofExcept (site.rowPath foreignId foreignUri row)
      Prog.mayRaise
      (Stage.artifactFile path).copyPrivate fun stage => stage.objects.get? row.contentSha256).alone s = (.ok (), t) ∧
      t.database = s.database ∧ t.artifacts = some after ∧
      (∀ row ∈ rows, after.get? (site.place row) = s.objects.get? row.contentSha256) ∧
      ∀ path, path ∉ rows.map site.place → after.get? path = tree.get? path := by
  induction rows generalizing s tree with
  | nil => exact ⟨s, tree, rfl, rfl, made, by simp, fun _ _ => rfl⟩
  | cons row rest ih =>
      obtain ⟨apart, others⟩ := List.nodup_cons.mp distinct
      obtain ⟨data, there⟩ := held row List.mem_cons_self
      have absent : (Stage.artifactFile (site.place row)).read s = none := by
        simp only [Stage.artifactFile, made, Option.bind_some]
        exact fresh row List.mem_cons_self
      have copied : ((Stage.artifactFile (site.place row)).copyPrivate fun stage =>
          stage.objects.get? row.contentSha256).alone s = (.ok (), (Stage.artifactFile (site.place row)).write data s) :=
        File.copyPrivate_alone.mpr ⟨absent, data, there, rfl⟩
      have written : ((Stage.artifactFile (site.place row)).write data s).artifacts =
          some (tree.set (site.place row) data) := by
        simp [Stage.artifactFile, made]
      have later : ∀ other ∈ rest, (tree.set (site.place row) data).get? (site.place other) = none := by
        intro other member
        have different : site.place other ≠ site.place row := fun same => apart (same ▸ List.mem_map_of_mem member)
        rw [Dict.get?_set, if_neg different]
        exact fresh other (List.mem_cons_of_mem _ member)
      obtain ⟨t, after, ran, database, artifacts, placed, kept⟩ := ih written others
        (fun other member => located other (List.mem_cons_of_mem _ member))
        (fun other member => held other (List.mem_cons_of_mem _ member)) later
      refine ⟨t, after, Prog.alone_bind_ok.mpr ⟨(), _, Prog.alone_bind_ok.mpr ⟨_, s,
        Prog.alone_ofExcept_ok.mpr ⟨located row List.mem_cons_self, rfl⟩, Prog.alone_bind_ok.mpr ⟨(), s, rfl, copied⟩⟩, ran⟩,
        database, artifacts, ?_, ?_⟩
      · intro other member
        rcases List.mem_cons.mp member with rfl | member
        · rw [kept _ apart, Dict.get?_set, if_pos rfl, there]
        · exact placed other member
      · intro path absent
        simp only [List.map_cons, List.mem_cons, not_or] at absent
        rw [kept path absent.2, Dict.get?_set, if_neg absent.1]

/-! The rows and the manifest. -/

variable {snapshot : Snapshot} {objects : Dict String Bytes} {artifacts : List (String × String)} {key : Bytes}
  {row : PolicyRow}

theorem Site.Registered.directory (registered : site.Registered objects row) :
    site.tenantNamespace row.tenantId = .ok (site.place row).1 := by
  obtain ⟨directory, found, _⟩ := registered.placed
  rw [Site.place, found]
  rfl

theorem Site.Registered.path (registered : site.Registered objects row) (foreignId foreignUri : String) :
    site.rowPath foreignId foreignUri row = .ok (site.place row) := by
  have found := registered.directory
  obtain ⟨directory, again, located⟩ := registered.placed
  obtain rfl : (site.place row).1 = directory := Except.ok.inj (found.symm.trans again)
  exact rowPath_ok.mpr ⟨(site.place row).1, registered.named, registered.digested, found, located, rfl⟩

theorem tenantNamespace_length {tenantId directory : String} (digested : isSha256 (site.sha256 (utf8 tenantId)) = true)
    (named : site.tenantNamespace tenantId = .ok directory) : directory.length = 20 := by
  unfold Site.tenantNamespace at named
  split at named
  next => simp at named
  next =>
    obtain rfl := Except.ok.inj named
    rw [asciiText, String.length_ofList, List.length_map, List.length_take, digest_length digested]
    rfl

theorem Site.Created.places (created : site.Created source members snapshot objects artifacts key) :
    artifacts = snapshot.rows.map site.place ∧
      site.artifactPairs snapshot.rows = .ok (artifacts.map fun artifact => (.str artifact.1, artifact.2)) := by
  have each : ∀ row ∈ snapshot.rows, (do
      let directory ← site.tenantNamespace row.tenantId
      return (directory, row.contentSha256) : Except PyError (String × String)) = .ok (site.place row) := by
    intro row member
    rw [(created.registered row member).directory]
    rfl
  have same : artifacts = snapshot.rows.map site.place := Except.ok.inj (created.paired.symm.trans (mapM_ok each))
  refine ⟨same, ?_⟩
  rw [same, List.map_map]
  refine mapM_ok fun row member => ?_
  rw [(created.registered row member).directory]
  rfl

theorem equalsChampions_canonical (champions : List RegistryRow) :
    site.equalsChampions champions (champions.map fun champion => (championEntry champion).canonical) = true := by
  induction champions with
  | nil => rfl
  | cons champion rest ih =>
      have field : ∀ {name : String} {value : Json}, value.canonical = value →
          (championEntry champion).get? name = some value → (championEntry champion).canonical.get? name = some value :=
        get?_canonical_flat (by simp only [List.map_cons, List.map_nil]; decide)
      have tenant : (championEntry champion).canonical.get? "tenant_id" = some (.str champion.tenantId) := field rfl rfl
      have name : (championEntry champion).canonical.get? "policy_name" = some (.str champion.policyName) := field rfl rfl
      have artifact : (championEntry champion).canonical.get? "artifact_id" = some (.str champion.artifactId) :=
        field rfl rfl
      have generation : (championEntry champion).canonical.get? "generation" = some (.int champion.generation) :=
        field rfl rfl
      have shape : exactly (championEntry champion).canonical ["tenant_id", "policy_name", "artifact_id", "generation"] =
          true := by
        rw [exactly_canonical]
        rfl
      simp only [List.map_cons, Site.equalsChampions, Site.equalsChampion, shape, tenant, name, artifact, generation,
        Option.any_some, equalsInt, ih, decide_true, Bool.and_self]

theorem validateArtifactTree_returns {rows : List PolicyRow} {tree : Tree}
    (registered : ∀ row ∈ rows, site.Registered objects row)
    (placed : ∀ row ∈ rows, ∃ data, tree.get? (site.place row) = some data ∧ site.Sound (row.contentSha256, data))
    (known : ∀ path ∈ tree.keys, path ∈ rows.map site.place) : site.validateArtifactTree rows tree = .ok () := by
  have each : ∀ row ∈ rows, (do
      let path ← site.rowPath "policy artifact ID is not canonical" "policy artifact URI is not canonical" row
      let _ ← site.readVerifiedPolicy tree path row.contentSha256
      return path : Except PyError ArtifactPath) = .ok (site.place row) := by
    intro row member
    obtain ⟨data, there, sound⟩ := placed row member
    have read : site.readVerifiedPolicy tree (site.place row) row.contentSha256 = .ok data := by
      simp only [Site.readVerifiedPolicy, contentDigest, bind_eq_ok, ensure_eq_ok, orRaise_eq_ok, decide_eq_true_eq,
        pure_eq_ok]
      exact ⟨(), sound.digested, data, there, (), sound.bounded, (), sound.digest, rfl⟩
    rw [(registered row member).path]
    simp only [read, bind, Except.bind, pure, Except.pure]
  have matching : (tree.keys.all (rows.map site.place).contains && (rows.map site.place).all tree.keys.contains) = true := by
    simp only [Bool.and_eq_true, List.all_eq_true, List.contains_iff_mem]
    refine ⟨known, fun path member => ?_⟩
    obtain ⟨row, present, rfl⟩ := List.mem_map.mp member
    obtain ⟨data, there, _⟩ := placed row present
    exact Dict.contains_iff.mp (by simp [Dict.contains, there])
  unfold Site.validateArtifactTree
  rw [mapM_ok each]
  exact ensure_eq_ok.mpr matching

/-! The stage. -/

/-- The objects of the manifest are members of the archive. -/
theorem Site.Created.object (created : site.Created source members snapshot objects artifacts key) {manifest : Manifest}
    (declares : manifest.Declares source snapshot objects.rows artifacts (site.sha256 source.database))
    {item : SizeDigest maxPolicyBytes} (listed : item ∈ manifest.objects) :
    ∃ data, (item.sha256, data) ∈ objects.rows ∧ data.length = item.sizeBytes ∧
      member members (objectMember item.sha256) = .ok (storedFile (objectMember item.sha256) data) := by
  have sound : ∀ object ∈ objects.rows, site.Sound object := fun object present => (created.sound object present).1
  have paired : (item.sha256, item.sizeBytes) ∈ objects.rows.map fun object => (object.1, object.2.length) := by
    rw [← declares.objects]
    exact List.mem_map_of_mem listed
  obtain ⟨⟨digest, data⟩, present, same⟩ := List.mem_map.mp paired
  obtain ⟨rfl, long⟩ := Prod.mk.inj same
  refine ⟨data, present, long, ?_⟩
  have there : storedFile (objectMember item.sha256) data ∈ members := by
    rw [created.members]
    exact List.mem_cons_of_mem _ (List.mem_cons_of_mem _ (List.mem_cons_of_mem _ (List.mem_map.mpr ⟨_, present, rfl⟩)))
  have apart : (members.map ZipInfo.filename).Nodup := by
    rw [created.members]
    exact bundleMembers_distinct sound objects.unique
  have found := member_ok apart there
  exact found

theorem stageBundle_created (created : site.Created source members snapshot objects artifacts key)
    (distinct : (snapshot.rows.map site.place).Nodup)
    {manifest : Manifest}
    (declares : manifest.Declares source snapshot objects.rows artifacts (site.sha256 source.database))
    (found : site.openBundle (.ok members) = .ok ⟨members, manifest, source.activeKeyId⟩) :
    ∃ stage, (site.stageBundle (.ok members)).alone .empty =
      (.ok ⟨⟨members, manifest, source.activeKeyId⟩, snapshot⟩, stage) := by
  have sound : ∀ object ∈ objects.rows, site.Sound object := fun object present => (created.sound object present).1
  have databaseFound : member members databaseMember = .ok (storedFile databaseMember source.database) := by
    rw [created.members]
    exact member_ok (bundleMembers_distinct sound objects.unique)
      (List.mem_cons_of_mem _ (List.mem_cons_of_mem _ List.mem_cons_self))
  have copied : (Stage.databaseFile.copyVerified site.sha256 (storedFile databaseMember source.database)
      manifest.database.sizeBytes manifest.database.sha256 maxDatabaseBytes).alone .empty =
      (.ok (), Stage.databaseFile.write source.database .empty) :=
    File.copyVerified_alone.mpr ⟨⟨created.bounded, declares.size.symm⟩, rfl, rfl, declares.size.symm, declares.digest.symm,
      rfl⟩
  have digestsListed : manifest.objects.map SizeDigest.sha256 = objects.rows.map Prod.fst := by
    have same := congrArg (List.map Prod.fst) declares.objects
    simpa only [List.map_map, Function.comp_def] using same
  have sizesListed : manifest.objects.map SizeDigest.sizeBytes = objects.rows.map fun object => object.2.length := by
    have same := congrArg (List.map Prod.snd) declares.objects
    simpa only [List.map_map, Function.comp_def] using same
  have distinctObjects : (manifest.objects.map SizeDigest.sha256).Nodup := by
    rw [digestsListed]
    exact objects.unique
  have present : ∀ item ∈ manifest.objects, ∃ info, member members (objectMember item.sha256) = .ok info ∧
      info.fileSize = item.sizeBytes ∧ info.failure = none ∧ info.content.length = item.sizeBytes ∧
      site.sha256 info.content = item.sha256 := by
    intro item listed
    obtain ⟨data, there, long, named⟩ := created.object declares listed
    exact ⟨_, named, long, rfl, long, (sound _ there).digest⟩
  obtain ⟨filled, objectsRan, databaseKept, artifactsKept, held, _⟩ := objects_copied distinctObjects present
    (s := Stage.databaseFile.write source.database .empty) fun _ _ => rfl
  -- The stage has what the backup has collected.
  have collected : ∀ row ∈ snapshot.rows, ∃ data, filled.objects.get? row.contentSha256 = some data ∧
      site.Sound (row.contentSha256, data) := by
    intro row member
    obtain ⟨data, there⟩ := (created.registered row member).held
    have entry := Dict.get?_eq_some.mp there
    have listed : row.contentSha256 ∈ manifest.objects.map SizeDigest.sha256 := by
      rw [digestsListed]
      exact List.mem_map_of_mem entry
    obtain ⟨item, itemListed, same⟩ := List.mem_map.mp listed
    obtain ⟨info, named, stored⟩ := held item itemListed
    obtain ⟨other, otherThere, _, otherNamed⟩ := created.object declares itemListed
    obtain rfl := Except.ok.inj (named.symm.trans otherNamed)
    rw [same] at stored otherThere
    exact ⟨other, stored, sound _ otherThere⟩
  have made : ({ filled with artifacts := some Table.empty } : Stage).artifacts = some Table.empty := rfl
  obtain ⟨linked, tree, rowsRan, databaseLinked, treeLinked, placed, others⟩ := rows_copied made distinct
    (fun row member => (created.registered row member).path "restored policy artifact ID is not canonical"
      "restored policy artifact URI is not canonical")
    (fun row member => let ⟨data, there, _⟩ := collected row member; ⟨data, there⟩) fun _ _ => rfl
  have valid : site.validateArtifactTree snapshot.rows tree = .ok () := by
    refine validateArtifactTree_returns created.registered ?_ ?_
    · intro row member
      obtain ⟨data, there, content⟩ := collected row member
      exact ⟨data, (placed row member).trans there, content⟩
    · intro path member
      by_contra missing
      obtain ⟨data, there⟩ := Option.isSome_iff_exists.mp (Dict.contains_iff.mpr member)
      rw [others path missing] at there
      cases there
  obtain ⟨same, paired⟩ := created.places
  have permuted : (artifacts.map fun artifact => ((.str artifact.1, artifact.2) : Json × String)).isPerm
      manifest.artifacts = true := List.isPerm_iff.mpr declares.artifacts.symm
  have named : sameNames ((artifacts.map fun artifact => ((.str artifact.1, artifact.2) : Json × String)).map Prod.snd)
      (manifest.objects.map SizeDigest.sha256) = true := by
    rw [digestsListed, same, List.map_map, List.map_map]
    refine sameNames_iff.mpr fun name => ⟨fun member => ?_, fun member => ?_⟩
    · obtain ⟨row, there, rfl⟩ := List.mem_map.mp member
      obtain ⟨data, held⟩ := (created.registered row there).held
      exact List.mem_map.mpr ⟨_, Dict.get?_eq_some.mp held, rfl⟩
    · obtain ⟨object, there, rfl⟩ := List.mem_map.mp member
      obtain ⟨_, row, listed, digest⟩ := created.sound object there
      exact List.mem_map.mpr ⟨row, listed, digest⟩
  have schema : equalsInt site.integral manifest.schemaVersion snapshot.userVersion = true := by
    rw [declares.schemaVersion]
    exact decide_eq_true rfl
  have champions : site.equalsChampions snapshot.champions manifest.champions = true := by
    rw [declares.champions]
    exact equalsChampions_canonical snapshot.champions
  have room : manifest.database.sizeBytes + (manifest.objects.map SizeDigest.sizeBytes).sum ≤ maxBundleContentBytes := by
    rw [declares.size, sizesListed]
    exact created.content
  have stored : filled.database = some source.database := databaseKept
  refine ⟨linked, Prog.alone_bind_ok.mpr ⟨_, .empty, Prog.alone_exposed_ok.mpr (by rw [found]; rfl), ?_⟩⟩
  refine Prog.alone_bind_ok.mpr ⟨_, _, Prog.alone_ofExcept_ok.mpr ⟨databaseFound, rfl⟩, ?_⟩
  refine Prog.alone_bind_ok.mpr ⟨(), _, copied, ?_⟩
  refine Prog.alone_bind_ok.mpr ⟨(), _, Prog.alone_require_ok.mpr ⟨decide_eq_true room, rfl⟩, ?_⟩
  refine Prog.alone_bind_ok.mpr ⟨(), _, rfl, Prog.alone_bind_ok.mpr ⟨(), _, objectsRan, ?_⟩⟩
  refine Prog.alone_bind_ok.mpr ⟨snapshot, filled, Prog.alone_exposed_ok.mpr ?_, ?_⟩
  · simp only [stored, created.inspected, orRaise, bind, Except.bind, pure, Except.pure]
  refine Prog.alone_bind_ok.mpr ⟨(), _, Prog.alone_require_ok.mpr ⟨schema, rfl⟩, ?_⟩
  refine Prog.alone_bind_ok.mpr ⟨(), _, Prog.alone_require_ok.mpr ⟨champions, rfl⟩, ?_⟩
  refine Prog.alone_bind_ok.mpr ⟨_, _, Prog.alone_ofExcept_ok.mpr ⟨paired, rfl⟩, ?_⟩
  refine Prog.alone_bind_ok.mpr ⟨(), _, Prog.alone_require_ok.mpr ⟨permuted, rfl⟩, ?_⟩
  refine Prog.alone_bind_ok.mpr ⟨(), _, Prog.alone_require_ok.mpr ⟨named, rfl⟩, ?_⟩
  refine Prog.alone_bind_ok.mpr ⟨(), _, Prog.alone_exposed_ok.mpr rfl, Prog.alone_bind_ok.mpr ⟨(), _, rowsRan, ?_⟩⟩
  refine Prog.alone_bind_ok.mpr ⟨(), linked, Prog.alone_exposed_ok.mpr ?_, rfl⟩
  simp only [treeLinked, Option.getD_some, valid, bind, Except.bind, pure, Except.pure]

/-! The whole of a restore that nothing interrupts. -/

/-- The targets are absent, and nothing is left to resume. -/
structure Disk.Fresh (disk : Disk) : Prop where
  database : disk.database = none
  wal : disk.wal = false
  shm : disk.shm = false
  artifacts : disk.artifacts = none
  marker : disk.marker = none

variable {archive : Archive} {disk : Disk}

theorem returns_sweep (n : Nat) : (site.sweep n).Returns := by
  refine Prog.Returns.bind (fun _ => trivial) fun pending => ?_
  cases pending with
  | true => trivial
  | false => exact Prog.Returns.zoom (returns_rmtree _ _ _)

theorem stages (run : StagedRun site archive) {n : Nat} {s : Disk} (empty : s.stages n = .empty) :
    (Prog.zoom (Disk.stage n) (site.stageBundle archive)).alone s = (.ok run.staged, (Disk.stage n).set run.stage s) := by
  rw [Prog.alone_zoom, show (Disk.stage n).get s = .empty from empty, run.ran]

theorem prepare_returns (run : StagedRun site archive) {n : Nat} {s : Disk} (empty : s.stages n = .empty)
    (artifacts : s.artifacts = none) (marker : s.marker = none) :
    ∃ t, (site.prepare archive n).alone s = (.ok run.staged, t) ∧ (t.stages n).database = some run.info.content ∧
      t.marker.isSome = true := by
  let staged : Disk := (Disk.stage n).set run.stage s
  have spelled : jsonText run.staged.opened.manifest.value = .ok run.staged.opened.manifest.value.canonical :=
    jsonText_ok.mpr ⟨run.spelled, rfl⟩
  let marked : Disk := Disk.markerFile.write (run.marker n) staged
  let moved : Disk := { (Disk.stage n).set { run.stage with artifacts := none } marked with artifacts := some run.tree }
  have written : (Disk.markerFile.writePrivate (run.marker n)).alone staged = (.ok (), marked) :=
    File.writePrivate_alone.mpr ⟨marker, rfl⟩
  have stage : marked.stages n = run.stage := by simp [marked, staged, Disk.markerFile, Disk.stage]
  have replaced : (Disk.replaceArtifacts n).alone marked = (.ok (), moved) := by
    refine Prog.alone_exposed_ok.mpr ?_
    have none : marked.artifacts = Option.none := artifacts
    simp only [stage, run.artifacts, none, orRaise, Option.all_none, ensure, if_true, bind, Except.bind, pure, Except.pure]
    rfl
  refine ⟨moved, ?_, by simp [moved, Disk.stage, run.database], rfl⟩
  refine Prog.alone_bind_ok.mpr ⟨run.staged, staged, stages run empty, ?_⟩
  refine Prog.alone_bind_ok.mpr ⟨_, staged, Prog.alone_ofExcept_ok.mpr ⟨spelled, rfl⟩, ?_⟩
  refine Prog.alone_bind_ok.mpr ⟨run.key, staged, Prog.alone_ofExcept_ok.mpr ⟨orRaise_eq_ok.mpr run.keyed, rfl⟩, ?_⟩
  refine Prog.alone_bind_ok.mpr ⟨(), marked, written, Prog.alone_bind_ok.mpr ⟨(), marked, rfl, ?_⟩⟩
  exact Prog.alone_bind_ok.mpr ⟨(), moved, replaced, rfl⟩

theorem install_returns (run : StagedRun site archive) {n : Nat} {s : Disk}
    (database : (s.stages n).database = some run.info.content) (marker : s.marker.isSome = true) :
    ∃ report t, (site.install run.staged n).alone s = (.ok report, t) := by
  obtain ⟨raw, there⟩ := Option.isSome_iff_exists.mp marker
  let placed : Disk := { (Disk.stage n).set { s.stages n with database := none } s with database := some run.info.content }
  have replaced : (Disk.replaceDatabase n).alone s = (.ok (), placed) := by
    refine Prog.alone_exposed_ok.mpr ?_
    simp only [database, orRaise, bind, Except.bind, pure, Except.pure]
    rfl
  have removed : Disk.markerFile.remove.alone placed = (.ok (), Disk.markerFile.unlink placed) := by
    refine Prog.alone_exposed_ok.mpr ?_
    rw [show Disk.markerFile.read placed = some raw from there]
  simp only [Site.install, Prog.alone_bind_ok, Prog.alone_mayRaise_ok, Prog.alone_pure_ok]
  exact ⟨_, _, (), s, rfl, (), s, rfl, (), placed, replaced, (), placed, rfl, (), _, removed, (), _, rfl, rfl, rfl⟩

theorem plans_none (unmarked : disk.marker = none) : (Prog.exposed fun disk => do
    let plan ← site.resumePlan archive disk
    return (plan, disk)).alone disk = (.ok none, disk) := by
  refine Prog.alone_exposed_ok.mpr ?_
  rw [resumePlan_none.mpr unmarked]
  rfl

theorem Disk.Fresh.refused (fresh : disk.Fresh) : site.refuseTargets.alone disk = (.ok (), disk) := by
  refine Prog.alone_exposed_ok.mpr ?_
  simp [fresh.database, fresh.wal, fresh.shm, fresh.artifacts, ensure, bind, Except.bind, pure, Except.pure]

theorem restoreBundle_returns (fresh : disk.Fresh) (run : StagedRun site archive) :
    ∃ report after, (site.restoreBundle archive).alone disk = (.ok report, after) := by
  let made : Disk := { (Disk.stage disk.made).set .empty disk with made := disk.made + 1 }
  have empty : made.stages disk.made = .empty := by simp [made, Disk.stage]
  obtain ⟨s, prepared, database, marker⟩ := prepare_returns run empty fresh.artifacts fresh.marker
  obtain ⟨report, t, installed⟩ := install_returns run database marker
  have sweeps : (site.sweep disk.made).Returns := returns_sweep disk.made
  obtain ⟨_, after, swept⟩ := sweeps.alone t
  refine ⟨report, after, Prog.alone_bind_ok.mpr ⟨none, disk, plans_none fresh.marker, ?_⟩⟩
  refine Prog.alone_bind_ok.mpr ⟨(), disk, fresh.refused, Prog.alone_bind_ok.mpr ⟨(), disk, rfl, ?_⟩⟩
  refine Prog.alone_bind_ok.mpr ⟨disk.made, made, rfl, Prog.alone_tryFinally_ok ?_ swept⟩
  exact Prog.alone_bind_ok.mpr ⟨run.staged, s, Prog.alone_tryCatch_ok prepared, Prog.alone_tryCatch_ok installed⟩

/-! How large the manifest and its signature are. -/

section Sizes

open Json (textSize numberSize listSize)

def championSize (champion : RegistryRow) : Nat :=
  58 + textSize champion.tenantId + textSize champion.policyName + textSize champion.artifactId +
    numberSize champion.generation

/-- The size of the manifest of a backup: 127 bytes for each row, 190 and the digits of its size for each object, the
champions with their names, and the rest. -/
def Site.manifestSize (site : Site) (source : Source) (snapshot : Snapshot) : Nat :=
  269 + numberSize source.createdAt + textSize source.serviceVersion + numberSize source.database.length +
    listSize ((snapshot.rows.map PolicyRow.contentSha256).dedup.map fun digest =>
      190 + numberSize ((site.registeredFile source.artifactRoot snapshot.rows digest).getD []).length) +
    listSize (snapshot.rows.map fun _ => 127) + listSize (snapshot.champions.map championSize)

/-- The size of the signature. -/
def signatureSize (keyId : String) : Nat := 95 + textSize keyId

theorem digest_plain {digest : String} (digested : isSha256 digest = true) :
    ∀ b ∈ utf8 digest, Json.escapeByte b = [b] := by
  have each : ∀ n < 256, (48 ≤ n ∧ n ≤ 57 ∨ 97 ≤ n ∧ n ≤ 102) → Json.escapeByte (UInt8.ofNat n) = [UInt8.ofNat n] := by
    decide +kernel
  intro b member
  have same := each b.toNat b.toNat_lt (digest_bytes digested member)
  rwa [UInt8.ofNat_toNat] at same

theorem digest_size {digest : String} (digested : isSha256 digest = true) : textSize digest = 66 := by
  rw [Json.textSize_plain (digest_plain digested), digest_length digested]

theorem objectMember_size {digest : String} (digested : isSha256 digest = true) : textSize (objectMember digest) = 89 := by
  have ascii : ∀ b ∈ (utf8 digest).take 2, b.toNat < 128 := by
    intro b member
    have := digest_bytes digested (List.mem_of_mem_take member)
    omega
  have start : String.ofList (digest.toList.take 2) = asciiText ((utf8 digest).take 2) := by
    rw [digest_toList digested, asciiText, List.map_take]
  have bytes : utf8 (objectMember digest) = utf8 "objects/sha256/" ++ (utf8 digest).take 2 ++ utf8 "/" ++ utf8 digest ++
      utf8 ".json" := by
    rw [utf8_objectMember, Json.utf8_append, Json.utf8_append, start, utf8_asciiText ascii]
  have fixed : ∀ b ∈ utf8 "objects/sha256/" ++ utf8 "/" ++ utf8 ".json", Json.escapeByte b = [b] := by decide +kernel
  have lengths : (utf8 "objects/sha256/").length = 15 ∧ (utf8 "/").length = 1 ∧ (utf8 ".json").length = 5 := by
    decide +kernel
  rw [Json.textSize_plain]
  · simp only [bytes, List.length_append, List.length_take, digest_length digested, lengths]
    rfl
  · intro b member
    simp only [bytes, List.mem_append] at member
    simp only [List.mem_append] at fixed
    rcases member with (((first | taken) | slash) | whole) | last
    · exact fixed b (.inl (.inl first))
    · exact digest_plain digested b (List.mem_of_mem_take taken)
    · exact fixed b (.inl (.inr slash))
    · exact digest_plain digested b whole
    · exact fixed b (.inr last)

theorem objectEntry_size {object : String × Bytes} (sound : site.Sound object) :
    (canonicalBytes (objectEntry object)).length = 190 + numberSize object.2.length := by
  have names : textSize "member" = 8 ∧ textSize "size_bytes" = 12 ∧ textSize "sha256" = 8 := ⟨rfl, rfl, rfl⟩
  rw [objectEntry, Json.canonicalBytes_obj_length]
  simp only [List.map_cons, List.map_nil, Json.canonicalBytes_str_length, Json.canonicalBytes_int_length, names,
    objectMember_size sound.digested, digest_size sound.digested, listSize, List.sum_cons, List.sum_nil]
  omega

theorem championEntry_size (champion : RegistryRow) :
    (canonicalBytes (championEntry champion)).length = championSize champion := by
  have names : textSize "tenant_id" = 11 ∧ textSize "policy_name" = 13 ∧ textSize "artifact_id" = 13 ∧
      textSize "generation" = 12 := ⟨rfl, rfl, rfl, rfl⟩
  rw [championEntry, Json.canonicalBytes_obj_length]
  simp only [List.map_cons, List.map_nil, Json.canonicalBytes_str_length, Json.canonicalBytes_int_length, names, listSize,
    List.sum_cons, List.sum_nil, championSize]
  omega

theorem namespace_size {tenantId directory : String} (digested : isSha256 (site.sha256 (utf8 tenantId)) = true)
    (named : site.tenantNamespace tenantId = .ok directory) : textSize directory = 22 := by
  unfold Site.tenantNamespace at named
  split at named
  next => simp at named
  next =>
    obtain rfl := Except.ok.inj named
    have ascii : ∀ b ∈ (utf8 (site.sha256 (utf8 tenantId))).take 20, b.toNat < 128 := by
      intro b member
      have := digest_bytes digested (List.mem_of_mem_take member)
      omega
    rw [Json.textSize_plain, utf8_asciiText ascii, List.length_take, digest_length digested]
    · rfl
    · intro b member
      rw [utf8_asciiText ascii] at member
      exact digest_plain digested b (List.mem_of_mem_take member)

theorem artifactEntry_size {artifact : String × String} (directory : textSize artifact.1 = 22)
    (digested : isSha256 artifact.2 = true) : (canonicalBytes (artifactEntry artifact)).length = 127 := by
  have names : textSize "tenant_namespace" = 18 ∧ textSize "content_sha256" = 16 := ⟨rfl, rfl⟩
  rw [artifactEntry, Json.canonicalBytes_obj_length]
  simp only [List.map_cons, List.map_nil, Json.canonicalBytes_str_length, names, directory, digest_size digested, listSize,
    List.sum_cons, List.sum_nil]
  rfl

/-- The objects by their digests, in any order. -/
theorem Site.Created.objectSizes (created : site.Created source members snapshot objects artifacts key) :
    listSize (objects.rows.map fun object => (canonicalBytes (objectEntry object)).length) =
      listSize ((snapshot.rows.map PolicyRow.contentSha256).dedup.map fun digest =>
        190 + numberSize ((site.registeredFile source.artifactRoot snapshot.rows digest).getD []).length) := by
  have each : objects.rows.map (fun object => (canonicalBytes (objectEntry object)).length) =
      objects.keys.map fun digest =>
        190 + numberSize ((site.registeredFile source.artifactRoot snapshot.rows digest).getD []).length := by
    rw [Dict.keys, List.map_map]
    refine List.map_congr_left fun object member => ?_
    have held : objects.get? object.1 = some object.2 := Dict.get?_eq_some.mpr member
    rw [objectEntry_size (created.sound object member).1, Function.comp_apply, ← created.files, held, Option.getD_some]
  have listed : objects.keys.Perm (snapshot.rows.map PolicyRow.contentSha256).dedup := by
    refine (List.perm_ext_iff_of_nodup objects.unique (List.nodup_dedup _)).mpr fun digest => ?_
    rw [List.mem_dedup]
    constructor
    · intro member
      obtain ⟨object, present, rfl⟩ := List.mem_map.mp member
      obtain ⟨_, row, there, same⟩ := created.sound object present
      exact List.mem_map.mpr ⟨row, there, same⟩
    · intro member
      obtain ⟨row, there, rfl⟩ := List.mem_map.mp member
      obtain ⟨data, held⟩ := (created.registered row there).held
      exact Dict.contains_iff.mp (by simp [Dict.contains, held])
  rw [each]
  exact Json.listSize_perm (listed.map _)

theorem Site.Created.manifest_length (created : site.Created source members snapshot objects artifacts key)
    (hashes : site.Hashes source snapshot) :
    (canonicalBytes (manifestJson source snapshot objects.rows artifacts (site.sha256 source.database))).length =
      site.manifestSize source snapshot := by
  have names : textSize "format" = 8 ∧ textSize "format_version" = 16 ∧ textSize "created_at" = 12 ∧
      textSize "service_version" = 17 ∧ textSize "schema_version" = 16 ∧ textSize "database" = 10 ∧
      textSize "objects" = 9 ∧ textSize "artifacts" = 11 ∧ textSize "champions" = 11 :=
    ⟨rfl, rfl, rfl, rfl, rfl, rfl, rfl, rfl, rfl⟩
  have fixed : textSize format = 22 ∧ numberSize formatVersion = 1 ∧ numberSize schemaVersion = 1 := ⟨rfl, rfl, rfl⟩
  have versioned : snapshot.userVersion = schemaVersion := (inspectSnapshot_ok created.inspected).2
  have database : (canonicalBytes (.obj [("member", .str databaseMember), ("size_bytes", .int source.database.length),
      ("sha256", .str (site.sha256 source.database))])).length = 116 + numberSize source.database.length := by
    have names : textSize "member" = 8 ∧ textSize "size_bytes" = 12 ∧ textSize "sha256" = 8 ∧
        textSize databaseMember = 15 := ⟨rfl, rfl, rfl, rfl⟩
    rw [Json.canonicalBytes_obj_length]
    simp only [List.map_cons, List.map_nil, Json.canonicalBytes_str_length, Json.canonicalBytes_int_length, names,
      digest_size hashes.database, listSize, List.sum_cons, List.sum_nil]
    omega
  have objectList : (canonicalBytes (.arr (objects.rows.map objectEntry))).length = listSize
      ((snapshot.rows.map PolicyRow.contentSha256).dedup.map fun digest =>
        190 + numberSize ((site.registeredFile source.artifactRoot snapshot.rows digest).getD []).length) := by
    rw [Json.canonicalBytes_arr_length, List.map_map]
    exact created.objectSizes
  have artifactList : (canonicalBytes (.arr ((artifacts.insertionSort artifactOrder).map artifactEntry))).length =
      listSize (snapshot.rows.map fun _ => 127) := by
    have order := List.perm_insertionSort artifactOrder artifacts
    have each : ∀ artifact ∈ artifacts, (canonicalBytes (artifactEntry artifact)).length = 127 := by
      intro artifact member
      rw [created.places.1] at member
      obtain ⟨row, there, rfl⟩ := List.mem_map.mp member
      have registered := created.registered row there
      exact artifactEntry_size (namespace_size (hashes.tenants row there) registered.directory) registered.digested
    rw [Json.canonicalBytes_arr_length, List.map_map, Json.listSize_perm (order.map _), created.places.1, List.map_map]
    refine congrArg listSize (List.map_congr_left fun row member => ?_)
    exact each _ (created.places.1 ▸ List.mem_map_of_mem member)
  have championList : (canonicalBytes (.arr (snapshot.champions.map championEntry))).length =
      listSize (snapshot.champions.map championSize) := by
    rw [Json.canonicalBytes_arr_length, List.map_map]
    exact congrArg listSize (List.map_congr_left fun champion _ => championEntry_size champion)
  rw [manifestJson, Json.canonicalBytes_obj_length]
  simp only [List.map_cons, List.map_nil, Json.canonicalBytes_str_length, Json.canonicalBytes_int_length, names, fixed,
    versioned, database, objectList, artifactList, championList, Site.manifestSize]
  rw [listSize]
  simp only [List.map_cons, List.map_nil, List.sum_cons, List.sum_nil]
  omega

/-- The signature of a manifest. -/
theorem authentication_size {keyId : String} {signature : Bytes} (long : signature.length = 32) :
    (canonicalBytes (authentication keyId signature)).length = signatureSize keyId := by
  have names : textSize "algorithm" = 11 ∧ textSize "key_id" = 8 ∧ textSize "signature" = 11 ∧
      textSize "HMAC-SHA256" = 13 := ⟨rfl, rfl, rfl, rfl⟩
  have letters : ∀ n < 64, Json.escapeByte (base64Char n) = [base64Char n] := by decide +kernel
  have text : textSize (b64urlEncode signature) = 45 := by
    rw [Json.textSize_plain, utf8_b64urlEncode, b64urlBytes_eq, List.length_map, base64Values_length, long]
    intro b member
    rw [utf8_b64urlEncode, b64urlBytes_eq] at member
    obtain ⟨n, present, rfl⟩ := List.mem_map.mp member
    exact letters n (base64Values_small signature n present)
  rw [authentication, Json.canonicalBytes_obj_length]
  simp only [List.map_cons, List.map_nil, Json.canonicalBytes_str_length, names, text, listSize, List.sum_cons,
    List.sum_nil, signatureSize]
  omega

end Sizes

/-! A backup and its restore. -/

theorem readMember_bounded {info : ZipInfo} {cap : Nat} {data : Bytes} (read : readMember info cap = .ok data) :
    info.fileSize ≤ cap := by
  simp only [readMember, bind_eq_ok, ensure_eq_ok, decide_eq_true_eq] at read
  obtain ⟨_, bounded, _⟩ := read
  exact bounded

/-- The targets hold the snapshot and one file for each row, at its path and with the content of its digest. -/
def Site.Restored (site : Site) (source : Source) (snapshot : Snapshot) (disk : Disk) : Prop :=
  disk.database = some source.database ∧ ∃ tree, disk.artifacts = some tree ∧
    tree.rows.length = snapshot.rows.length ∧ ∀ row ∈ snapshot.rows, ∃ path data,
      site.policyArtifactPath row.tenantId row.contentSha256 = .ok path ∧ tree.get? path = some data ∧
      site.sha256 data = row.contentSha256

/-- The tables have a primary key, and the tenants have different directories. -/
structure Site.Keyed (site : Site) (rows : List PolicyRow) : Prop where
  primary : (rows.map fun row => (row.tenantId, row.artifactId)).Nodup
  namespaces : ∀ first ∈ rows, ∀ second ∈ rows,
    site.tenantNamespace first.tenantId = site.tenantNamespace second.tenantId → first.tenantId = second.tenantId

theorem Site.Created.distinct (created : site.Created source members snapshot objects artifacts key)
    (keyed : site.Keyed snapshot.rows) : (snapshot.rows.map site.place).Nodup := by
  refine List.Nodup.map_on ?_ (List.Nodup.of_map _ keyed.primary)
  intro first one second two same
  have left := created.registered first one
  have right := created.registered second two
  have directory : (site.place first).1 = (site.place second).1 := by rw [same]
  have digest : first.contentSha256 = second.contentSha256 := congrArg Prod.snd same
  have tenant : first.tenantId = second.tenantId :=
    keyed.namespaces first one second two (by rw [left.directory, right.directory, directory])
  refine List.inj_on_of_nodup_map keyed.primary one two ?_
  rw [tenant, left.named, right.named, digest]

/-- The archive of a backup opens. -/
theorem Site.Created.opens (created : site.Created source members snapshot objects artifacts key)
    (hashes : site.Hashes source snapshot) (macs : ∀ key data, (site.keys.hmac key data).length = 32)
    (manifestFits : site.manifestSize source snapshot ≤ maxManifestBytes)
    (signatureFits : signatureSize source.activeKeyId ≤ maxSignatureBytes) :
    ∃ manifest : Manifest, manifest.Declares source snapshot objects.rows artifacts (site.sha256 source.database) ∧
      site.openBundle (.ok members) = .ok ⟨members, manifest, source.activeKeyId⟩ := by
  have sound : ∀ object ∈ objects.rows, site.Sound object := fun object present => (created.sound object present).1
  have placed : ∀ artifact ∈ artifacts, artifact.1.length = 20 ∧ isSha256 artifact.2 = true := by
    intro artifact member
    rw [created.places.1] at member
    obtain ⟨row, there, rfl⟩ := List.mem_map.mp member
    have registered := created.registered row there
    exact ⟨tenantNamespace_length (hashes.tenants row there) registered.directory, registered.digested⟩
  rw [← created.manifest_length hashes] at manifestFits
  rw [← authentication_size (macs key _)] at signatureFits
  rw [created.members]
  exact openBundle_created created.keyed created.bounded hashes.database (inspectSnapshot_ok created.inspected).2 sound
    objects.unique placed rfl rfl manifestFits signatureFits

/-- What a restore of a backup leaves. -/
theorem Site.Created.restored (created : site.Created source members snapshot objects artifacts key)
    (keyed : site.Keyed snapshot.rows) {report : Report} {after : Disk} (fresh : disk.Fresh) (ran : (site.restoreBundle (.ok members)).alone disk = (.ok report, after)) :
    site.Restored source snapshot after := by
  obtain ⟨members', opened, snapshot', info, tree, same, apart, authentic, _, named, database, held, content, _⟩ :=
    exits_accepted fresh.marker (Prog.exits_of_alone ran)
  obtain rfl := Except.ok.inj same
  have stored : storedFile databaseMember source.database ∈ members := by
    rw [created.members]
    exact List.mem_cons_of_mem _ (List.mem_cons_of_mem _ List.mem_cons_self)
  obtain rfl : storedFile databaseMember source.database = info :=
    Except.ok.inj ((member_ok apart stored).symm.trans named)
  obtain rfl : snapshot = snapshot' := Except.ok.inj (created.inspected.symm.trans content.inspected)
  obtain ⟨placed, known⟩ := validateArtifactTree_ok content.tree
  refine ⟨database, tree, held, ?_, ?_⟩
  · have listed : tree.keys.Perm (snapshot.rows.map site.place) := by
      refine (List.perm_ext_iff_of_nodup tree.unique (created.distinct keyed)).mpr fun path => ?_
      constructor
      · intro member
        obtain ⟨data, there⟩ := Option.isSome_iff_exists.mp (Dict.contains_iff.mpr member)
        obtain ⟨row, present, located, _⟩ := known path data there
        exact List.mem_map.mpr ⟨row, present, (policyArtifactPath_place located).symm⟩
      · intro member
        obtain ⟨row, present, rfl⟩ := List.mem_map.mp member
        obtain ⟨path, data, there, located, _⟩ := placed row present
        obtain rfl := policyArtifactPath_place located
        exact Dict.contains_iff.mp (by simp [Dict.contains, there])
    have count := listed.length_eq
    simpa only [Dict.keys, List.length_map] using count
  · intro row member
    obtain ⟨path, data, there, located, digest⟩ := placed row member
    exact ⟨path, data, located, there, digest⟩

/-- A bundle that a restore has accepted fits its limits. -/
theorem Site.Created.fits (created : site.Created source members snapshot objects artifacts key)
    (hashes : site.Hashes source snapshot) (macs : ∀ key data, (site.keys.hmac key data).length = 32)
    {report : Report} {after : Disk} (fresh : disk.Fresh)
    (ran : (site.restoreBundle (.ok members)).alone disk = (.ok report, after)) :
    site.manifestSize source snapshot ≤ maxManifestBytes ∧ signatureSize source.activeKeyId ≤ maxSignatureBytes := by
  obtain ⟨_, opened, _, _, _, same, apart, authentic, _⟩ :=
    exits_accepted fresh.marker (Prog.exits_of_alone ran)
  obtain rfl := Except.ok.inj same
  obtain ⟨_, there, headers⟩ := authentic.headers
  obtain rfl := Except.ok.inj there
  obtain ⟨manifestInfo, signatureInfo, manifestBytes, signatureBytes, _, _, first, read, second, signed, _⟩ :=
    authentic.signed
  rw [(validateZipHeaders_ok headers).1] at first second
  rw [← created.manifest_length hashes, ← authentication_size (macs key _)]
  rw [created.members] at first second apart
  obtain rfl := Except.ok.inj ((member_ok apart List.mem_cons_self).symm.trans first)
  obtain rfl := Except.ok.inj ((member_ok apart (List.mem_cons_of_mem _ List.mem_cons_self)).symm.trans second)
  exact ⟨readMember_bounded read, readMember_bounded signed⟩

/-- A bundle that fits the limits is restored. -/
theorem Site.Created.restores (created : site.Created source members snapshot objects artifacts key)
    (hashes : site.Hashes source snapshot) (macs : ∀ key data, (site.keys.hmac key data).length = 32)
    (keyed : site.Keyed snapshot.rows) (fresh : disk.Fresh)
    (fits : site.manifestSize source snapshot ≤ maxManifestBytes ∧ signatureSize source.activeKeyId ≤ maxSignatureBytes) :
    ∃ report after, (site.restoreBundle (.ok members)).alone disk = (.ok report, after) ∧
      site.Restored source snapshot after := by
  obtain ⟨manifest, declares, found⟩ := created.opens hashes macs fits.1 fits.2
  obtain ⟨stage, staged⟩ := stageBundle_created created (created.distinct keyed) declares found
  have accepted : (manifestJson source snapshot objects.rows artifacts (site.sha256 source.database)).Accepted
      site.floats := manifestJson_accepted
  have spelled : manifest.value.valid = true := by rw [declares.value, Json.valid_canonical, accepted.2]
  obtain ⟨run, _⟩ := exists_stagedRun staged spelled created.keyed
  obtain ⟨report, after, ran⟩ := restoreBundle_returns fresh run
  exact ⟨report, after, ran, created.restored keyed fresh ran⟩

end AgentTree.Backup
