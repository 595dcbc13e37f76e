import AgentTree.BackupStaging
import Mathlib.Data.String.Basic

/-!
`create_bundle` (`backup.py`): the objects of the registered artifacts, the manifest and the members of the archive.
The staging of the files in a work directory, which is removed in the end, is left out.
-/

namespace AgentTree.Backup

open Outcome Relational

def formatVersion : Int := 1

/-- What a backup reads besides the key ring: the file that `store.backup` has written, the directory of artifacts, the
clock and the version of the package. -/
structure Source where
  database : Bytes
  artifactRoot : Tree
  createdAt : Int
  serviceVersion : String
  activeKeyId : String

/-! The members of the archive. -/

/-- `archive.writestr`, which gives a member permissions and no file type. -/
def storedText (name : String) (content : Bytes) : ZipInfo := ⟨name, 0, 0, 0o600 <<< 16, content.length, content, none⟩

/-- `archive.write`, which gives a member the mode of the file. -/
def storedFile (name : String) (content : Bytes) : ZipInfo := ⟨name, 0, 0, 0o100600 <<< 16, content.length, content, none⟩

def objectEntry (object : String × Bytes) : Json := .obj [
  ("member", .str (objectMember object.1)),
  ("size_bytes", .int object.2.length),
  ("sha256", .str object.1)]

def artifactEntry (artifact : String × String) : Json := .obj [
  ("tenant_namespace", .str artifact.1),
  ("content_sha256", .str artifact.2)]

def championEntry (champion : RegistryRow) : Json := .obj [
  ("tenant_id", .str champion.tenantId),
  ("policy_name", .str champion.policyName),
  ("artifact_id", .str champion.artifactId),
  ("generation", .int champion.generation)]

/-- The key of the sort of the artifacts. -/
def artifactOrder (first second : String × String) : Prop :=
  first.1 < second.1 ∨ first.1 = second.1 ∧ first.2 ≤ second.2

instance : DecidableRel artifactOrder := fun first second =>
  inferInstanceAs (Decidable (first.1 < second.1 ∨ first.1 = second.1 ∧ first.2 ≤ second.2))

def manifestJson (source : Source) (snapshot : Snapshot) (objects : List (String × Bytes))
    (artifacts : List (String × String)) (databaseSha256 : String) : Json := .obj [
  ("format", .str format),
  ("format_version", .int formatVersion),
  ("created_at", .int source.createdAt),
  ("service_version", .str source.serviceVersion),
  ("schema_version", .int snapshot.userVersion),
  ("database", .obj [
    ("member", .str databaseMember),
    ("size_bytes", .int source.database.length),
    ("sha256", .str databaseSha256)]),
  ("objects", .arr (objects.map objectEntry)),
  ("artifacts", .arr ((artifacts.insertionSort artifactOrder).map artifactEntry)),
  ("champions", .arr (snapshot.champions.map championEntry))]

def bundleMembers (manifestBytes signatureBytes database : Bytes) (objects : List (String × Bytes)) : List ZipInfo :=
  storedText manifestMember manifestBytes :: storedText signatureMember signatureBytes ::
    storedFile databaseMember database :: objects.map fun object => storedFile (objectMember object.1) object.2

namespace Site

variable (site : Site)

/-- The object of a row is read once for each digest, from the directory of the tenant that comes first. -/
def addObject (root : Tree) (row : PolicyRow) (objects : Dict String Bytes) : Except PyError (Dict String Bytes) :=
  if objects.contains row.contentSha256 then .ok objects
  else do
    let path ← site.policyArtifactPath row.tenantId row.contentSha256
    let data ← site.readVerifiedPolicy root path row.contentSha256
    return objects.set row.contentSha256 data

/-- The loop over the rows: the objects by their digests, and the entries of `artifact_manifest`. -/
def collectObjects (root : Tree) : List PolicyRow → Dict String Bytes →
    Except PyError (Dict String Bytes × List (String × String))
  | [], objects => .ok (objects, [])
  | row :: rest, objects => do
      ensure (row.artifactId = "policy-" ++ row.contentSha256)
        (backupError "policy artifact ID is not content-addressed")
      let uri ← site.policyArtifactUri row.tenantId row.contentSha256
      ensure (row.artifactUri = uri) (backupError "policy artifact URI is not canonical")
      let objects ← site.addObject root row objects
      let directory ← site.tenantNamespace row.tenantId
      let (objects, artifacts) ← collectObjects root rest objects
      return (objects, (directory, row.contentSha256) :: artifacts)

/-- `_sha256_file`. -/
def sha256File (data : Bytes) (cap : Nat) : Except PyError String := do
  ensure (data.length ≤ cap) (backupError "database snapshot exceeds size cap")
  return site.sha256 data

def createBundle (source : Source) : Except PyError (List ZipInfo) := do
  let key ← orRaise (site.keys.key? source.activeKeyId) (backupError "active backup key is unavailable")
  let snapshot ← site.inspectSnapshot source.database
  let (objects, artifacts) ← site.collectObjects source.artifactRoot snapshot.rows Table.empty
  let objects := objects.sorted.rows
  ensure (source.database.length + (objects.map fun object => object.2.length).sum ≤ maxBundleContentBytes)
    (backupError "backup content exceeds cumulative size cap")
  let digest ← site.sha256File source.database maxDatabaseBytes
  let manifest := manifestJson source snapshot objects artifacts digest
  let text ← jsonText manifest
  let signature ← jsonText (authentication source.activeKeyId (site.keys.hmac key text.encode))
  return bundleMembers text.encode signature.encode source.database objects

end Site

/-! What a backup has read. -/

variable {site : Site} {root : Tree}

/-- The row has a canonical name, and its object is a verified file of the directory. -/
structure Site.Registered (site : Site) (objects : Dict String Bytes) (row : PolicyRow) : Prop where
  named : row.artifactId = "policy-" ++ row.contentSha256
  digested : isSha256 row.contentSha256 = true
  placed : ∃ directory, site.tenantNamespace row.tenantId = .ok directory ∧
    row.artifactUri = "policy-artifact://" ++ directory ++ "/" ++ row.contentSha256 ++ ".json"
  held : ∃ data, objects.get? row.contentSha256 = some data

/-- An object has the content of its digest, and a size that the restore takes. -/
structure Site.Sound (site : Site) (object : String × Bytes) : Prop where
  digested : isSha256 object.1 = true
  digest : site.sha256 object.2 = object.1
  bounded : object.2.length ≤ maxPolicyBytes

theorem policyArtifactUri_ok {tenantId digest uri : String} : site.policyArtifactUri tenantId digest = .ok uri ↔
    isSha256 digest = true ∧ ∃ directory, site.tenantNamespace tenantId = .ok directory ∧
      uri = "policy-artifact://" ++ directory ++ "/" ++ digest ++ ".json" := by
  simp only [Site.policyArtifactUri, contentDigest, bind_eq_ok, ensure_eq_ok, pure_eq_ok]
  constructor
  · rintro ⟨_, digested, directory, found, rfl⟩
    exact ⟨digested, directory, found, rfl⟩
  · rintro ⟨digested, directory, found, rfl⟩
    exact ⟨(), digested, directory, found, rfl⟩

theorem readVerifiedPolicy_sound {path : ArtifactPath} {digest : String} {data : Bytes}
    (read : site.readVerifiedPolicy root path digest = .ok data) : site.Sound (digest, data) := by
  simp only [Site.readVerifiedPolicy, contentDigest, bind_eq_ok, ensure_eq_ok, orRaise_eq_ok, decide_eq_true_eq,
    pure_eq_ok] at read
  obtain ⟨_, digested, _, _, _, bounded, _, same, rfl⟩ := read
  exact ⟨digested, same, bounded⟩

theorem addObject_ok {row : PolicyRow} {before after : Dict String Bytes}
    (added : site.addObject root row before = .ok after) :
    (∃ data, after.get? row.contentSha256 = some data) ∧
    (∀ digest data, before.get? digest = some data → after.get? digest = some data) ∧
    ∀ object ∈ after.rows, object ∈ before.rows ∨ site.Sound object ∧ row.contentSha256 = object.1 := by
  unfold Site.addObject at added
  split at added
  next known =>
    obtain rfl := Except.ok.inj added
    exact ⟨Option.isSome_iff_exists.mp known, fun _ _ there => there, fun _ member => .inl member⟩
  next fresh =>
    simp only [bind_eq_ok, pure_eq_ok] at added
    obtain ⟨_, _, data, read, rfl⟩ := added
    have absent : before.get? row.contentSha256 = none := by simpa [Dict.contains] using fresh
    refine ⟨⟨data, by rw [Dict.get?_set, if_pos rfl]⟩, ?_, ?_⟩
    · intro digest held there
      have other : digest ≠ row.contentSha256 := by
        rintro rfl
        rw [absent] at there
        simp at there
      rw [Dict.get?_set, if_neg other, there]
    · intro object member
      rcases Dict.mem_set member with rfl | old
      · exact .inr ⟨readVerifiedPolicy_sound read, rfl⟩
      · exact .inl old

/-- The objects that the loop has found stay, and each of them is sound and belongs to a row. -/
theorem collectObjects_ok : ∀ {rows : List PolicyRow} {before objects : Dict String Bytes}
    {artifacts : List (String × String)}, site.collectObjects root rows before = .ok (objects, artifacts) →
    (∀ row ∈ rows, site.Registered objects row) ∧
    (∀ digest data, before.get? digest = some data → objects.get? digest = some data) ∧
    (∀ object ∈ objects.rows, object ∈ before.rows ∨ site.Sound object ∧ ∃ row ∈ rows, row.contentSha256 = object.1) ∧
    rows.mapM (fun row => do
      let directory ← site.tenantNamespace row.tenantId
      return (directory, row.contentSha256)) = .ok artifacts
  | [], before, objects, artifacts, ran => by
      obtain ⟨rfl, rfl⟩ := Prod.mk.inj (Except.ok.inj ran)
      exact ⟨by simp, fun _ _ found => found, fun _ member => .inl member, rfl⟩
  | row :: rest, before, objects, artifacts, ran => by
      simp only [Site.collectObjects, bind_eq_ok, ensure_eq_ok, decide_eq_true_eq, policyArtifactUri_ok, pure_eq_ok] at ran
      obtain ⟨_, named, _, ⟨digested, directory, found, rfl⟩, _, located, extended, added, directory', again,
        ⟨_, others⟩, later, same⟩ := ran
      obtain ⟨rfl, rfl⟩ := Prod.mk.inj same
      obtain rfl : directory = directory' := Except.ok.inj (found.symm.trans again)
      obtain ⟨registered, kept, sound, paired⟩ := collectObjects_ok later
      obtain ⟨⟨data, held⟩, keeps, adds⟩ := addObject_ok added
      refine ⟨?_, ?_, ?_, ?_⟩
      · intro other member
        rcases List.mem_cons.mp member with rfl | member
        · exact ⟨named, digested, ⟨directory, found, located⟩, data, kept _ _ held⟩
        · exact registered other member
      · exact fun digest data there => kept _ _ (keeps _ _ there)
      · intro object member
        rcases sound object member with old | ⟨verified, other, there, same⟩
        · rcases adds object old with old | ⟨verified, same⟩
          · exact .inl old
          · exact .inr ⟨verified, row, List.mem_cons_self, same⟩
        · exact .inr ⟨verified, other, List.mem_cons_of_mem _ there, same⟩
      · rw [List.mapM_cons, found]
        simp only [bind, Except.bind, pure, Except.pure] at paired ⊢
        rw [paired]

end AgentTree.Backup
