import AgentTree.ControlOperations
import AgentTree.DurableDisk
import AgentTree.Pool

/-!
The commit of a challenger, file by file.  `_persist_artifact` works on a disk that may
lose power, inside the state transaction that registers the artifact; the database
survives as soon as the transaction has committed.
-/

namespace AgentTree

open Outcome Relational Concurrent Durability

/-- The database, the data directory and the call that holds the write lock of the database. -/
structure Machine where
  db : Db
  clock : Int
  disk : Disk Bytes
  writer : Option Nat

abbrev FileOp := Prog Machine PyError

/-- What a commit of `train_challenger` is given, and the name that `mkstemp` draws. -/
structure TrainingCommit (Model : Type) where
  tenantId : String
  subjectId : String
  family : String
  idempotencyKey : String
  holder : String
  reservation : String
  fencingToken : Int
  leaseTtl : Int
  challenger : Model
  report : PromotionReport
  draws : Draws
  temporary : String

/-- The artifact directory, which is in the data directory. -/
def artifactRoot : Path := .child .base "artifacts"

def tenantDirectory (path : ArtifactPath) : Path := .child artifactRoot path.1

/-- Where a policy file is on the disk. -/
def location (path : ArtifactPath) : Path := .child (tenantDirectory path) (path.2 ++ ".json")

/-- What the control plane sees of the machine. -/
def Machine.world (m : Machine) : World := ⟨m.db, m.clock, fun path => m.disk.read (location path), [], []⟩

/-! System calls. -/

def refused : Refusal → PyError
  | .missing => .other "FileNotFoundError" ""
  | .present => .other "FileExistsError" ""
  | .notDirectory => .other "NotADirectoryError" ""
  | .isDirectory => .other "IsADirectoryError" ""

def PyError.isFileNotFound (error : PyError) : Bool := error.typeName = "FileNotFoundError"

/-- `isinstance(error, OSError)`. -/
def PyError.isOSError (error : PyError) : Bool :=
  ["OSError", "FileNotFoundError", "FileExistsError", "NotADirectoryError", "IsADirectoryError",
    "PermissionError"].contains error.typeName

def systemCall (run : Disk Bytes → Except Refusal (α × Disk Bytes)) : FileOp α :=
  .exposed fun m => match run m.disk with
    | .ok (value, disk) => .ok (value, { m with disk })
    | .error refusal => .error (refused refusal)

def osMkdir (path : Path) : FileOp Unit := systemCall fun disk => (disk.mkdir path).map ((), ·)

def isDirectory (path : Path) : FileOp Bool :=
  systemCall fun disk => .ok (disk.entry path = some .directory, disk)

def pathExists (path : Path) : FileOp Bool := systemCall fun disk => .ok ((disk.entry path).isSome, disk)

def unlink (path : Path) : FileOp Unit := systemCall fun disk => (disk.unlink path).map ((), ·)

/-- `mkdir(exist_ok=True)`. -/
def mkdirExisting (path : Path) : FileOp Unit :=
  (osMkdir path).tryCatch fun error =>
    if error.isFileNotFound || !error.isOSError then throw error
    else do
      let directory ← isDirectory path
      Prog.require directory error

/-- `mkdir(parents=True, exist_ok=True)`. -/
def mkdirParents : Path → FileOp Unit
  | .base => mkdirExisting .base
  | .child parent name =>
      (osMkdir (.child parent name)).tryCatch fun error =>
        if error.isFileNotFound then do
          mkdirParents parent
          mkdirExisting (.child parent name)
        else if !error.isOSError then throw error
        else do
          let directory ← isDirectory (.child parent name)
          Prog.require directory error

/-- The file of `_persist_artifact`, step by step.  No directory is synced. -/
def persistFile (path : ArtifactPath) (suffix : String) (encoded : Bytes) : FileOp Unit := do
  mkdirParents (tenantDirectory path)
  let there ← pathExists (location path)
  if there then return ()
  else do
    let temporary := Path.child (tenantDirectory path) ("artifact." ++ suffix)
    let inode ← systemCall (·.create [] temporary)
    (do
      -- `os.fchmod`
      Prog.mayRaise
      systemCall fun disk => .ok ((), disk.write inode encoded)
      systemCall fun disk => .ok ((), disk.fsync inode)
      systemCall fun disk => (disk.replace temporary (location path)).map ((), ·) : FileOp Unit).tryCatch
      fun error => do
        (unlink temporary).tryCatch fun missing => .require missing.isFileNotFound missing
        throw error

/-! The transaction. -/

/-- `BEGIN IMMEDIATE`, with the clock reading of the transaction. -/
def beginImmediate (call : Nat) : FileOp Int :=
  .exposed fun m => match m.writer with
    | none => .ok (m.clock, { m with writer := some call })
    | some _ => .error (.other "OperationalError" "database is locked")

/-- `ROLLBACK`. -/
def abandon : FileOp Unit := .atomic fun m => .ok ((), { m with writer := none })

namespace ControlPlane

variable {Model : Type} (plane : ControlPlane Model) (commit : TrainingCommit Model)

/-- The fencing check, which comes before the files. -/
def checkLease (now : Int) : FileOp Unit :=
  .exposed fun m => do
    let _ ← renewLease now commit.tenantId ("train:" ++ commit.family) commit.holder commit.fencingToken
      commit.leaseTtl none m.db
    return ((), m)

/-- The statements of the transaction, and its commit. -/
def commitChallenger (contentHash : String) (now : Int) : FileOp Json :=
  .exposed fun m => do
    let (response, _, db) ← plane.trainTransaction ⟨commit.tenantId, "train", commit.idempotencyKey⟩
      commit.draws ⟨commit.tenantId, commit.subjectId⟩ commit.family commit.holder commit.reservation
      commit.fencingToken commit.leaseTtl commit.challenger contentHash commit.report now m.db
    let (_, db) ← completeIdempotency now commit.tenantId "train" commit.idempotencyKey response db
    return (response, { m with db, writer := none })

/-- The state transaction of `train_challenger`. -/
def trainCommit (call : Nat) : FileOp Json := do
  let now ← beginImmediate call
  (do
    checkLease commit now
    let (path, encoded, contentHash) ← Prog.ofExcept
      (plane.encodeArtifact commit.tenantId commit.family commit.challenger)
    persistFile path commit.temporary encoded
    plane.commitChallenger commit contentHash now : FileOp Json).tryCatch fun error => do
      abandon
      throw error

end ControlPlane

namespace Machine

/-- The clock, the other transactions and the system, which writes entries and data to the medium. -/
structure Around (s t : Machine) : Prop where
  writer : t.writer = s.writer
  locked : s.writer ≠ none → t.db = s.db
  artifacts : t.db.artifacts = s.db.artifacts
  written : Disk.Writeback s.disk t.disk

/-- The processes are killed or power is lost; a control plane that starts makes its directory. -/
structure Recovers (s t : Machine) : Prop where
  writer : t.writer = none
  db : t.db = s.db
  disk : ∃ left, (left = s.disk ∨ Disk.PowerLoss s.disk left) ∧
    (t.disk = left ∨ left.mkdir artifactRoot = .ok t.disk)

end Machine

/-- Any number of training commits, interleaved and cut off anywhere. -/
def ControlPlane.trainingService {Model : Type} (plane : ControlPlane Model)
    (commits : Nat → TrainingCommit Model) : Service Nat Machine PyError Json where
  call index := plane.trainCommit (commits index) index
  surroundings := Machine.Around
  recovery := Machine.Recovers

end AgentTree
