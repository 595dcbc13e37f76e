import AgentTree.BackupFormat
import AgentTree.Interruptions

/-!
`restore_bundle` and `_resume_restore` (`backup.py`), step by step: a file is made empty and written byte by byte, a
rename is one step, and an exception may strike before each of them.
-/

namespace AgentTree.Backup

open Outcome Relational Concurrent
open HiddenBenchmark (exactly equalsInt)

/-! Files. -/

/-- A file, by what reads it, what leaves it with some content, and what removes it. -/
structure File (σ : Type) where
  read : σ → Option Bytes
  write : Bytes → σ → σ
  unlink : σ → σ
  read_write : ∀ data s, read (write data s) = some data
  write_write : ∀ data other s, write data (write other s) = write data s
  read_unlink : ∀ s, read (unlink s) = none

def fileExists (path : String) : PyError := .other "FileExistsError" path
def fileNotFound (path : String) : PyError := .other "FileNotFoundError" path

namespace File

variable {σ : Type} (file : File σ)

/-- `os.open` with `O_CREAT | O_EXCL`. -/
def create : Prog σ PyError Unit :=
  .exposed fun s => match file.read s with
    | some _ => .error (fileExists "file exists")
    | none => .ok ((), file.write [] s)

def appendByte (b : UInt8) : Prog σ PyError Unit :=
  .exposed fun s => .ok ((), file.write ((file.read s).getD [] ++ [b]) s)

def append (data : Bytes) : Prog σ PyError Unit := .forEach data file.appendByte

def remove : Prog σ PyError Unit :=
  .exposed fun s => match file.read s with
    | some _ => .ok ((), file.unlink s)
    | none => .error (fileNotFound "no such file")

/-- `path.unlink()` with `except FileNotFoundError: pass`. -/
def discard : Prog σ PyError Unit :=
  file.remove.tryCatch fun error => Prog.require (error.typeName = "FileNotFoundError") error

/-- The frame of the functions that write a file: it is new, and gone again if writing it raises. -/
def exclusively (body : Prog σ PyError Unit) : Prog σ PyError Unit := do
  file.create
  body.tryCatch fun error => do
    file.discard
    throw error

/-- `_write_private`. -/
def writePrivate (data : Bytes) : Prog σ PyError Unit :=
  file.exclusively do
    file.append data
    Prog.mayRaise

/-- `_copy_private_file`. -/
def copyPrivate (source : σ → Option Bytes) : Prog σ PyError Unit :=
  file.exclusively do
    let data ← Prog.exposed fun s => do
      let data ← orRaise (source s) (fileNotFound "no such file")
      return (data, s)
    file.append data
    Prog.mayRaise

/-- The loop of `_copy_verified_member`; the unit of reading does not matter. -/
def copyBytes (cap : Nat) : (size : Nat) → Bytes → Prog σ PyError Unit
  | _, [] => return
  | size, b :: rest => do
      Prog.require (size < cap) (backupError "bundle member exceeds size cap")
      file.appendByte b
      copyBytes cap (size + 1) rest

/-- `_copy_verified_member`. -/
def copyVerified (sha256 : Bytes → String) (info : ZipInfo) (expectedSize : Nat) (expectedDigest : String) (cap : Nat) :
    Prog σ PyError Unit := do
  Prog.require (info.fileSize ≤ cap && info.fileSize = expectedSize)
    (backupError "bundle member size is inconsistent")
  file.exclusively do
    file.copyBytes cap 0 info.content
    Prog.ofExcept (match info.failure with
      | some error => .error error
      | none => .ok ())
    Prog.mayRaise
    Prog.require (info.content.length = expectedSize && sha256 info.content = expectedDigest)
      (backupError "bundle member hash or size mismatch")

end File

/-! The disk. -/

/-- A directory `restore-stage.*`. -/
structure Stage where
  present : Bool
  database : Option Bytes
  objects : Dict String Bytes
  artifacts : Option Tree

namespace Stage

def absent : Stage := ⟨false, none, Table.empty, none⟩

def empty : Stage := ⟨true, none, Table.empty, none⟩

def databaseFile : File Stage where
  read := database
  write data stage := { stage with database := some data }
  unlink stage := { stage with database := none }
  read_write _ _ := rfl
  write_write _ _ _ := rfl
  read_unlink _ := rfl

def objectFile (digest : String) : File Stage where
  read stage := stage.objects.get? digest
  write data stage := { stage with objects := stage.objects.set digest data }
  unlink stage := { stage with objects := stage.objects.delete (·.1 = digest) }
  read_write data stage := by simp [Dict.get?_set]
  write_write data other stage := by simp [Dict.set_set]
  read_unlink stage := by
    have gone : (stage.objects.delete (·.1 = digest)).find? digest = _ := Table.find?_delete digest
    rw [Dict.get?, gone]
    cases found : stage.objects.find? digest with
    | none => rfl
    | some entry => simp [(Table.find?_eq_some.mp found).2]

def removeFile (path : ArtifactPath) (tree : Tree) : Tree := tree.delete (·.1 = path)

def artifactFile (path : ArtifactPath) : File Stage where
  read stage := stage.artifacts.bind (·.get? path)
  write data stage := { stage with artifacts := some ((stage.artifacts.getD Table.empty).set path data) }
  unlink stage := { stage with artifacts := stage.artifacts.map (removeFile path) }
  read_write data stage := by simp [Dict.get?_set]
  write_write data other stage := by simp [Dict.set_set]
  read_unlink stage := by
    cases held : stage.artifacts with
    | none => simp
    | some tree =>
        have gone : (tree.delete (·.1 = path)).find? path = _ := Table.find?_delete path
        rw [Option.map_some, Option.bind_some, removeFile, Dict.get?, gone]
        cases found : tree.find? path with
        | none => rfl
        | some entry => simp [(Table.find?_eq_some.mp found).2]

end Stage

/-- The directory of the database, with the stages by the order in which they were made. -/
structure Disk where
  database : Option Bytes
  wal : Bool
  shm : Bool
  artifacts : Option Tree
  marker : Option Bytes
  made : Nat
  stages : Nat → Stage

namespace Disk

def markerFile : File Disk where
  read := marker
  write data disk := { disk with marker := some data }
  unlink disk := { disk with marker := none }
  read_write _ _ := rfl
  write_write _ _ _ := rfl
  read_unlink _ := rfl

def stage (n : Nat) : Lens Disk Stage where
  get disk := disk.stages n
  set stage disk := { disk with stages := Function.update disk.stages n stage }
  get_set _ _ := by simp
  set_get _ := by simp
  set_set _ _ _ := by simp

/-- `path.exists()`. -/
def look (present : Disk → Bool) : Prog Disk PyError Bool := .atomic fun disk => .ok (present disk, disk)

/-- `tempfile.mkdtemp`: a stage whose name is not in use. -/
def mkdtemp : Prog Disk PyError Nat :=
  .exposed fun disk => .ok (disk.made, { (stage disk.made).set .empty disk with made := disk.made + 1 })

/-- `os.replace(staged_artifacts, artifact_root)`. -/
def replaceArtifacts (n : Nat) : Prog Disk PyError Unit :=
  .exposed fun disk => do
    let tree ← orRaise (disk.stages n).artifacts (fileNotFound "artifacts")
    ensure (disk.artifacts.all (·.rows.isEmpty)) (.other "OSError" "directory not empty")
    return ((), { (stage n).set { disk.stages n with artifacts := none } disk with artifacts := some tree })

/-- `os.replace(staged_database, database_path)`. -/
def replaceDatabase (n : Nat) : Prog Disk PyError Unit :=
  .exposed fun disk => do
    let data ← orRaise (disk.stages n).database (fileNotFound "state.sqlite3")
    return ((), { (stage n).set { disk.stages n with database := none } disk with database := some data })

end Disk

/-- The files of a stage. -/
inductive StageFile : Type
  | database
  | object (digest : String)
  | artifact (path : ArtifactPath)

namespace Stage

def files (stage : Stage) : List StageFile :=
  (stage.database.map fun _ => StageFile.database).toList ++ stage.objects.keys.map .object ++
    ((stage.artifacts.map Dict.keys).getD []).map .artifact

def remove (stage : Stage) : StageFile → Stage
  | .database => databaseFile.unlink stage
  | .object digest => (objectFile digest).unlink stage
  | .artifact path => (artifactFile path).unlink stage

end Stage

/-- What the staged bundle is. -/
structure Staged where
  opened : Opened
  snapshot : Snapshot

structure Report where
  restored : String
  schemaVersion : Int
  artifacts : Nat
  objects : Json
  champions : Nat
  resumed : Bool

/-- What a resumed restore goes on with. -/
structure Plan where
  stage : Nat
  objects : Json

namespace Site

variable (site : Site)

/-- `shutil.rmtree(..., ignore_errors=True)`: the files go one by one, and the directories when no file is left. -/
def rmtree {σ κ : Type} (files : σ → List κ) (remove : κ → σ → σ) (rmdir : σ → σ) : Prog σ PyError Unit :=
  .act id fun s =>
    (Prog.forEach (site.listing κ (files s)) fun file =>
      .act (if site.removable κ file then remove file else id) fun _ => .done (.ok ())).bind fun _ =>
    .act (fun s => if (files s).isEmpty then rmdir s else s) fun _ => .done (.ok ())

/-- `shutil.rmtree(artifact_root, ignore_errors=True)`. -/
def removeArtifacts : Prog Disk PyError Unit :=
  site.rmtree (fun disk : Disk => (disk.artifacts.map Dict.keys).getD [])
    (fun path disk => { disk with artifacts := disk.artifacts.map (Stage.removeFile path) })
    fun disk => { disk with artifacts := none }

/-- `shutil.rmtree(stage, ignore_errors=True)`. -/
def removeStage (n : Nat) : Prog Disk PyError Unit :=
  .zoom (Disk.stage n) (site.rmtree Stage.files (fun file stage => stage.remove file) fun _ => .absent)

/-! The fresh restore. -/

/-- The part of `restore_bundle` that only writes in its stage. -/
def stageBundle (archive : Archive) : Prog Stage PyError Staged := do
  let opened ← Prog.exposed fun stage => do
    let opened ← site.openBundle archive
    return (opened, stage)
  let manifest := opened.manifest
  let databaseInfo ← Prog.ofExcept (member opened.infos databaseMember)
  Stage.databaseFile.copyVerified site.sha256 databaseInfo manifest.database.sizeBytes manifest.database.sha256
    maxDatabaseBytes
  Prog.require (manifest.database.sizeBytes + (manifest.objects.map SizeDigest.sizeBytes).sum ≤ maxBundleContentBytes)
    (backupError "bundle content exceeds cumulative size cap")
  Prog.mayRaise
  Prog.forEach manifest.objects fun item => do
    let info ← Prog.ofExcept (member opened.infos (objectMember item.sha256))
    (Stage.objectFile item.sha256).copyVerified site.sha256 info item.sizeBytes item.sha256 maxPolicyBytes
  let snapshot ← Prog.exposed fun stage => do
    let data ← orRaise stage.database (fileNotFound "state.sqlite3")
    let snapshot ← site.inspectSnapshot data
    return (snapshot, stage)
  Prog.require (equalsInt site.integral manifest.schemaVersion snapshot.userVersion)
    (backupError "database schema does not match manifest")
  Prog.require (site.equalsChampions snapshot.champions manifest.champions)
    (backupError "champion registry does not match manifest")
  let expected ← Prog.ofExcept (site.artifactPairs snapshot.rows)
  Prog.require (expected.isPerm manifest.artifacts) (backupError "artifact manifest does not match database rows")
  Prog.require (sameNames (expected.map Prod.snd) (manifest.objects.map SizeDigest.sha256))
    (backupError "object set does not match database artifacts")
  Prog.exposed fun stage => .ok ((), { stage with artifacts := some Table.empty })
  Prog.forEach snapshot.rows fun row => do
    let path ← Prog.ofExcept (site.rowPath "restored policy artifact ID is not canonical"
      "restored policy artifact URI is not canonical" row)
    Prog.mayRaise
    (Stage.artifactFile path).copyPrivate fun stage => stage.objects.get? row.contentSha256
  Prog.exposed fun stage => do
    site.validateArtifactTree snapshot.rows (stage.artifacts.getD Table.empty)
    return ((), stage)
  return { opened, snapshot }

/-- `marker_payload`, for the stage with the number `n`. -/
def marker (staged : Staged) (n : Nat) : Marker where
  manifestSha256 := site.sha256 (canonicalBytes staged.opened.manifest.value)
  databasePath := site.databasePath
  artifactRoot := site.artifactRoot
  stage := site.stagePath n
  artifacts := staged.snapshot.rows.length
  objects := staged.opened.manifest.objects.length
  champions := staged.snapshot.champions.length
  schemaVersion := staged.snapshot.userVersion

/-- The part of `restore_bundle` before `installed_artifacts` is set. -/
def prepare (archive : Archive) (n : Nat) : Prog Disk PyError Staged := do
  let staged ← Prog.zoom (Disk.stage n) (site.stageBundle archive)
  let _ ← Prog.ofExcept (jsonText staged.opened.manifest.value)
  let key ← Prog.ofExcept (orRaise (site.keys.key? staged.opened.keyId) (.other "KeyError" staged.opened.keyId))
  Disk.markerFile.writePrivate (site.authenticatedMarker (site.marker staged n).json staged.opened.keyId key)
  Prog.mayRaise
  Disk.replaceArtifacts n
  return staged

/-- The part after it. -/
def install (staged : Staged) (n : Nat) : Prog Disk PyError Report := do
  Prog.mayRaise
  Prog.mayRaise
  Disk.replaceDatabase n
  Prog.mayRaise
  Disk.markerFile.remove
  Prog.mayRaise
  return {
    restored := site.databasePath
    schemaVersion := staged.snapshot.userVersion
    artifacts := staged.snapshot.rows.length
    objects := .int staged.opened.manifest.objects.length
    champions := staged.snapshot.champions.length
    resumed := false }

/-- The `except` clause, by the value of `installed_artifacts`. -/
def recover {α : Type} (installedArtifacts : Bool) (error : PyError) : Prog Disk PyError α := do
  if installedArtifacts then
    let present ← Disk.look (·.database.isSome)
    if !present then
      site.removeArtifacts
  Disk.markerFile.discard
  throw error

/-- The `finally` clause. -/
def sweep (n : Nat) : Prog Disk PyError Unit := do
  let pending ← Disk.look (·.marker.isSome)
  if !pending then
    site.removeStage n

/-- The loop over the forbidden paths. -/
def refuseTargets : Prog Disk PyError Unit :=
  .exposed fun disk => do
    ensure disk.database.isNone (fileExists ("restore target must be absent: " ++ site.databasePath))
    ensure (!disk.wal) (fileExists ("restore target must be absent: " ++ site.databasePath ++ "-wal"))
    ensure (!disk.shm) (fileExists ("restore target must be absent: " ++ site.databasePath ++ "-shm"))
    ensure disk.artifacts.isNone (fileExists ("restore target must be absent: " ++ site.artifactRoot))
    return ((), disk)

def restoreFresh (archive : Archive) : Prog Disk PyError Report := do
  site.refuseTargets
  Prog.mayRaise
  let n ← Disk.mkdtemp
  Prog.tryFinally (do
      let staged ← (site.prepare archive n).tryCatch (site.recover false)
      (site.install staged n).tryCatch (site.recover true))
    (site.sweep n)

/-! The resumed restore. -/

/-- `Path(text).resolve(strict=True)` for a directory of stages. -/
def findStage (disk : Disk) (text : String) : Option Nat :=
  (List.range disk.made).find? fun n => site.stagePath n = text && (disk.stages n).present

/-- The checks on the payload of the marker. -/
def checkMarker (value : Json) : Except PyError Unit := do
  ensure (exactly value markerNames) (backupError "restore recovery marker is invalid")
  ensure (value.get? "format" = some (.str markerFormat) &&
    value.get? "database_path" = some (.str site.databasePath) &&
    value.get? "artifact_root" = some (.str site.artifactRoot))
    (backupError "restore recovery marker does not match this request")

/-- The checks on the candidates for the database and the tree. -/
def checkCandidates (manifest : Manifest) (value : Json) (data : Bytes) (tree : Tree) : Except PyError Unit := do
  ensure (data.length = manifest.database.sizeBytes && site.sha256 data = manifest.database.sha256)
    (backupError "restore recovery database does not match bundle")
  let snapshot ← site.inspectSnapshot data
  ensure (equalsInt site.integral manifest.schemaVersion snapshot.userVersion &&
    site.equalsChampions snapshot.champions manifest.champions &&
    (value.get? "artifacts").any (equalsInt site.integral · snapshot.rows.length) &&
    (value.get? "champions").any (equalsInt site.integral · snapshot.champions.length))
    (backupError "restore recovery database does not match manifest")
  let actual ← site.artifactPairs snapshot.rows
  ensure (manifest.artifacts.isPerm actual) (backupError "restore recovery artifacts do not match manifest")
  site.validateArtifactTree snapshot.rows tree

/-- What `_resume_restore` reads and checks before it changes anything. -/
def resumePlan (archive : Archive) (disk : Disk) : Except PyError (Option Plan) :=
  match disk.marker with
  | none => return none
  | some raw => do
      ensure (raw.length ≤ maxMarkerBytes) (backupError "restore recovery marker exceeds size cap")
      let value ← site.verifyRecoveryMarker raw
      site.checkMarker value
      let opened ← site.openBundle archive
      let text ← jsonText opened.manifest.value
      ensure (value.get? "manifest_sha256" = some (.str (site.sha256 text.encode)))
        (backupError "restore recovery marker targets a different manifest")
      let path ← strOf (value.get? "stage") (typeError "stage is not a path")
      let n ← orRaise (site.findStage disk path) (fileNotFound path)
      let data ← orRaise (disk.database.or (disk.stages n).database)
        (backupError "restore recovery stage is incomplete")
      let tree ← orRaise (disk.artifacts.or (disk.stages n).artifacts)
        (backupError "restore recovery stage is incomplete")
      site.checkCandidates opened.manifest value data tree
      return some ⟨n, (value.get? "objects").getD .null⟩

/-- A target that is there already stays as it is. -/
def unlessPresent (present : Disk → Bool) (step : Prog Disk PyError Unit) : Prog Disk PyError Unit := do
  let there ← Disk.look present
  if !there then
    step
    Prog.mayRaise

/-- `_resume_restore` after its checks. -/
def resumePlanned (plan : Plan) : Prog Disk PyError Report := do
  unlessPresent (·.artifacts.isSome) (Disk.replaceArtifacts plan.stage)
  unlessPresent (·.database.isSome) (Disk.replaceDatabase plan.stage)
  let snapshot ← Prog.exposed fun disk : Disk => do
    let data ← orRaise disk.database (fileNotFound site.databasePath)
    let snapshot ← site.inspectSnapshot data
    return (snapshot, disk)
  Disk.markerFile.remove
  Prog.mayRaise
  site.removeStage plan.stage
  return {
    restored := site.databasePath
    schemaVersion := snapshot.userVersion
    artifacts := snapshot.rows.length
    objects := plan.objects
    champions := snapshot.champions.length
    resumed := true }

def restoreBundle (archive : Archive) : Prog Disk PyError Report := do
  let plan ← Prog.exposed fun disk => do
    let plan ← site.resumePlan archive disk
    return (plan, disk)
  match plan with
  | some plan => site.resumePlanned plan
  | none => site.restoreFresh archive

end Site

end AgentTree.Backup
