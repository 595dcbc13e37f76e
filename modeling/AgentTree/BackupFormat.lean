import AgentTree.AggregateReceipts
import AgentTree.Dictionary
import AgentTree.ControlCore

/-!
Backup bundles (`backup.py`): the archive and its headers, the manifest, the signatures of the manifest and of the
recovery marker, and the checks of a database snapshot and of an artifact tree.
-/

namespace AgentTree.Backup

open Outcome Relational
open HiddenBenchmark (exactly isObject uniqueObject equalsInt)

def backupError (message : String) : PyError := .other "BackupError" message

def format : String := "agent-tree-rl-backup"
def databaseMember : String := "state.sqlite3"
def manifestMember : String := "manifest.json"
def signatureMember : String := "manifest.hmac.json"
def maxManifestBytes : Nat := 1024 * 1024
def maxSignatureBytes : Nat := 16 * 1024
def maxMarkerBytes : Nat := 16 * 1024
def maxPolicyBytes : Nat := 64 * 1024 * 1024
def maxDatabaseBytes : Nat := 64 * 1024 * 1024 * 1024
def maxBundleContentBytes : Nat := 128 * 1024 * 1024 * 1024

/-! The archive. -/

/-- A member: its header, and what reading it yields until it ends or fails. -/
structure ZipInfo where
  filename : String
  compressType : Nat
  flagBits : Nat
  externalAttr : Nat
  fileSize : Nat
  content : Bytes
  failure : Option PyError

/-- What opening the file as an archive gives. -/
abbrev Archive := Except PyError (List ZipInfo)

/-- `handle.read(count)`. -/
def ZipInfo.read (info : ZipInfo) (count : Nat) : Except PyError Bytes :=
  match info.failure with
  | none => .ok (info.content.take count)
  | some error => if count ≤ info.content.length then .ok (info.content.take count) else .error error

/-- The parts of a path, as far as `..` is one of them. -/
def namesParent (name : String) : Bool := (name.toList.splitOn '/').contains ['.', '.']

/-- The checks on the header of one member; `fileSize` has no negative values. -/
def validateZipHeader (infos : List ZipInfo) (info : ZipInfo) : Except PyError (List ZipInfo) := do
  let name := info.filename
  ensure (!(name = "" || name.toList.contains '\\' || name.toList.contains '\x00' || name.toList.head? = some '/' ||
    namesParent name || name.toList.getLast? = some '/')) (backupError ("unsafe bundle member: " ++ name))
  ensure (!infos.any (·.filename = name)) (backupError ("duplicate bundle member: " ++ name))
  ensure (info.compressType = 0) (backupError "unsupported bundle compression")
  ensure (info.flagBits % 2 = 0) (backupError "encrypted ZIP members are unsupported")
  let fileType := (info.externalAttr >>> 16) &&& 0xFFFF &&& 0o170000
  ensure (fileType = 0 || fileType = 0o100000) (backupError "bundle members must be regular files")
  return infos ++ [info]

def validateZipHeaders (archive : List ZipInfo) : Except PyError (List ZipInfo) := do
  let infos ← archive.foldlM validateZipHeader []
  ensure (infos.any (·.filename = manifestMember) && infos.any (·.filename = signatureMember))
    (backupError "bundle manifest or signature is missing")
  return infos

/-- `infos[name]`. -/
def member (infos : List ZipInfo) (name : String) : Except PyError ZipInfo :=
  orRaise (infos.find? (·.filename = name)) (.other "KeyError" name)

def readMember (info : ZipInfo) (cap : Nat) : Except PyError Bytes := do
  ensure (info.fileSize ≤ cap) (backupError "bundle member exceeds size cap")
  let data ← info.read (cap + 1)
  ensure (data.length = info.fileSize && data.length ≤ cap) (backupError "bundle member size is inconsistent")
  return data

/-! The manifest. -/

/-- `_size_digest`: a size up to the cap and a digest. -/
structure SizeDigest (cap : Nat) where
  sizeBytes : Nat
  sha256 : String
  bounded : sizeBytes ≤ cap
  digested : isSha256 sha256 = true

def sizeDigest (value : Json) (cap : Nat) : Except PyError (SizeDigest cap) :=
  match value.get? "size_bytes" with
  | some (.int size) =>
      if bounded : 0 ≤ size ∧ size.toNat ≤ cap then
        match value.get? "sha256" with
        | some (.str digest) =>
            if digested : isSha256 digest = true then .ok ⟨size.toNat, digest, bounded.2, digested⟩
            else .error (backupError "manifest SHA-256 is invalid")
        | _ => .error (backupError "manifest SHA-256 is invalid")
      else .error (backupError "manifest size is invalid")
  | _ => .error (backupError "manifest size is invalid")

/-- `_object_member` of a digest. -/
def objectMember (digest : String) : String :=
  "objects/sha256/" ++ String.ofList (digest.toList.take 2) ++ "/" ++ digest ++ ".json"

structure Manifest where
  value : Json
  schemaVersion : Json
  database : SizeDigest maxDatabaseBytes
  objects : List (SizeDigest maxPolicyBytes)
  artifacts : List (Json × String)
  champions : List Json

def typeError (message : String) : PyError := .other "TypeError" message

/-- The turns of a `for` over a JSON value. -/
def iterate : Json → Except PyError (List Json)
  | .arr items => .ok items
  | .obj members => .ok (members.map fun member => .str member.1)
  | .str text => .ok (text.toList.map fun c => .str (String.ofList [c]))
  | _ => .error (typeError "object is not iterable")

/-- `len`. -/
def lengthOf : Json → Except PyError Nat
  | .arr items => .ok items.length
  | .obj members => .ok members.length
  | .str text => .ok text.length
  | _ => .error (typeError "object has no len()")

def validateObjects (seenMembers seenDigests : List String) :
    List Json → Except PyError (List (SizeDigest maxPolicyBytes))
  | [] => .ok []
  | item :: rest => do
      ensure (exactly item ["member", "size_bytes", "sha256"]) (backupError "object manifest entry is invalid")
      let entry ← sizeDigest item maxPolicyBytes
      let member := objectMember entry.sha256
      ensure (item.get? "member" = some (.str member)) (backupError "object member is not canonical")
      ensure (!(seenMembers.contains member || seenDigests.contains entry.sha256))
        (backupError "duplicate object manifest entry")
      let others ← validateObjects (member :: seenMembers) (entry.sha256 :: seenDigests) rest
      return entry :: others

def validateArtifact (item : Json) : Except PyError (Json × String) := do
  ensure (exactly item ["tenant_namespace", "content_sha256"]) (backupError "artifact manifest entry is invalid")
  let directory := (item.get? "tenant_namespace").getD .null
  let length ← lengthOf directory
  ensure (length = 20) (backupError "tenant namespace is invalid")
  match item.get? "content_sha256" with
  | some (.str digest) =>
      ensure (isSha256 digest) (backupError "manifest SHA-256 is invalid")
      return (directory, digest)
  | _ => .error (backupError "manifest SHA-256 is invalid")

def manifestNames : List String :=
  ["format", "format_version", "created_at", "service_version", "schema_version", "database", "objects", "artifacts",
    "champions"]

/-- The format version and the schema version are both 1. -/
def validateManifest (value : Json) : Except PyError Manifest := do
  ensure (exactly value manifestNames) (backupError "backup manifest shape is invalid")
  ensure (value.get? "format" = some (.str format) && (value.get? "format_version").any equalsOne)
    (backupError "unsupported backup format")
  let schemaVersion := (value.get? "schema_version").getD .null
  ensure (equalsOne schemaVersion) (backupError "unsupported manifest schema")
  let database := (value.get? "database").getD .null
  ensure (exactly database ["member", "size_bytes", "sha256"]) (backupError "database manifest is invalid")
  ensure (database.get? "member" = some (.str databaseMember)) (backupError "database member is invalid")
  let databaseEntry ← sizeDigest database maxDatabaseBytes
  let items ← iterate ((value.get? "objects").getD .null)
  ensure (items.all isObject) (backupError "object manifest is invalid")
  let objects ← validateObjects [] [] items
  let entries ← iterate ((value.get? "artifacts").getD .null)
  let artifacts ← entries.mapM validateArtifact
  match value.get? "champions" with
  | some (.arr champions) => return ⟨value, schemaVersion, databaseEntry, objects, artifacts, champions⟩
  | _ => .error (backupError "champion manifest is invalid")

/-! Database snapshots. -/

def schemaVersion : Int := 1

/-- A row of `policy_artifacts` as the restore reads it. -/
structure PolicyRow where
  tenantId : String
  artifactId : String
  contentSha256 : String
  artifactUri : String
  deriving DecidableEq

/-- A row of `champion_registry` as the restore reads it. -/
structure RegistryRow where
  tenantId : String
  policyName : String
  artifactId : String
  generation : Int
  deriving DecidableEq

/-- What the pragmas and the queries of `_inspect_snapshot` give. -/
structure Snapshot where
  integrity : List String
  foreignKeys : Nat
  userVersion : Int
  rows : List PolicyRow
  champions : List RegistryRow
  deriving DecidableEq

/-! Signatures and the recovery marker. -/

/-- `base64.b64decode` of the text with its padding completed. -/
def b64decode (text : String) : Option Bytes :=
  let chars := utf8 text
  let padded := chars ++ List.replicate ((4 - chars.length % 4) % 4) 0x3d
  let body := padded.takeWhile (· ≠ 0x3d)
  let padding := padded.dropWhile (· ≠ 0x3d)
  if padding.all (· = 0x3d) && padding.length ≤ 2 then (body.mapM base64Value).map base64Bytes else none

/-- A string, or the error that another value leads to. -/
def strOf (value : Option Json) (error : PyError) : Except PyError String :=
  match value with
  | some (.str text) => .ok text
  | _ => .error error

/-- An archive whose manifest is authentic. -/
structure Opened where
  infos : List ZipInfo
  manifest : Manifest
  keyId : String

def sameNames (first second : List String) : Bool := first.all second.contains && second.all first.contains

structure Marker where
  manifestSha256 : String
  databasePath : String
  artifactRoot : String
  stage : String
  artifacts : Nat
  objects : Nat
  champions : Nat
  schemaVersion : Int

def markerFormat : String := "agent-tree-rl-restore/v1"

def markerNames : List String :=
  ["format", "manifest_sha256", "database_path", "artifact_root", "stage", "artifacts", "objects", "champions",
    "schema_version"]

def Marker.json (marker : Marker) : Json := .obj [
  ("format", .str markerFormat),
  ("manifest_sha256", .str marker.manifestSha256),
  ("database_path", .str marker.databasePath),
  ("artifact_root", .str marker.artifactRoot),
  ("stage", .str marker.stage),
  ("artifacts", .int marker.artifacts),
  ("objects", .int marker.objects),
  ("champions", .int marker.champions),
  ("schema_version", .int marker.schemaVersion)]

def authentication (keyId : String) (signature : Bytes) : Json := .obj [
  ("algorithm", .str "HMAC-SHA256"),
  ("key_id", .str keyId),
  ("signature", .str (b64urlEncode signature))]

/-! Artifact trees. -/

/-- The regular files of a directory of artifacts; the restore makes no others. -/
abbrev Tree := Dict ArtifactPath Bytes

def contentDigest (value : String) : Except PyError Unit :=
  ensure (isSha256 value) (.valueError "content_sha256 must be 64 lowercase hexadecimal characters")

/-! The surroundings. -/

/-- What the code takes from Python, from SQLite, from the file system and from its caller: `sqlite` reads a database
file, `listing` is the order in which a directory lists its files, and `removable` says which files the system removes. -/
structure Site where
  floats : Floats
  integral : String → Option Int
  keys : Keyring
  sha256 : Bytes → String
  sqlite : Bytes → Except PyError Snapshot
  databasePath : String
  artifactRoot : String
  stagePath : Nat → String
  apart : Function.Injective stagePath
  listing : (κ : Type) → List κ → List κ
  listed : ∀ κ files, (listing κ files).Perm files
  removable : (κ : Type) → κ → Bool

namespace Site

variable (site : Site)

/-- `_strict_json`; a duplicate name raises the same exception. -/
def strictJson (raw : Bytes) : Except PyError Json :=
  orRaise (Json.readText site.floats uniqueObject raw) (backupError "bundle JSON is invalid")

/-- The check of a signature, with the messages of its three errors. -/
def verifySignature (raw : Bytes) (value : Json) (unsupported invalid failed : String) : Except PyError String := do
  ensure (value.get? "algorithm" = some (.str "HMAC-SHA256")) (backupError unsupported)
  let keyId ← strOf (value.get? "key_id") (backupError unsupported)
  let key ← orRaise (site.keys.key? keyId) (backupError unsupported)
  let text ← strOf (value.get? "signature") (backupError invalid)
  let supplied ← orRaise (b64decode text) (backupError invalid)
  ensure (supplied = site.keys.hmac key raw) (backupError failed)
  return keyId

/-- `_verify_manifest_signature`, with the key that it has found. -/
def verifyManifestSignature (raw : Bytes) (value : Json) : Except PyError String := do
  ensure (exactly value ["algorithm", "key_id", "signature"]) (backupError "backup signature shape is invalid")
  site.verifySignature raw value "backup signature key is unsupported" "backup signature is invalid base64url"
    "backup manifest authentication failed"

/-- What `restore_bundle` and `_authenticated_bundle_manifest` do first. -/
def openBundle (archive : Archive) : Except PyError Opened := do
  let members ← archive
  let infos ← validateZipHeaders members
  let manifestInfo ← member infos manifestMember
  let manifestBytes ← readMember manifestInfo maxManifestBytes
  let signatureInfo ← member infos signatureMember
  let signatureBytes ← readMember signatureInfo maxSignatureBytes
  let signature ← site.strictJson signatureBytes
  let keyId ← site.verifyManifestSignature manifestBytes signature
  let value ← site.strictJson manifestBytes
  let manifest ← validateManifest value
  ensure (sameNames (infos.map ZipInfo.filename) (manifestMember :: signatureMember :: databaseMember ::
    manifest.objects.map fun item => objectMember item.sha256))
    (backupError "bundle members do not exactly match the manifest")
  return ⟨infos, manifest, keyId⟩

/-- `_authenticated_marker`. -/
def authenticatedMarker (payload : Json) (keyId : String) (key : Bytes) : Bytes :=
  canonicalBytes (.obj [("payload", payload),
    ("authentication", authentication keyId (site.keys.hmac key (canonicalBytes payload)))])

def verifyRecoveryMarker (raw : Bytes) : Except PyError Json := do
  let envelope ← site.strictJson raw
  ensure (exactly envelope ["payload", "authentication"]) (backupError "restore recovery marker envelope is invalid")
  let payload := (envelope.get? "payload").getD .null
  let authentication := (envelope.get? "authentication").getD .null
  ensure (isObject payload && isObject authentication) (backupError "restore recovery marker fields are invalid")
  ensure (exactly authentication ["algorithm", "key_id", "signature"])
    (backupError "restore recovery marker authentication is invalid")
  let text ← jsonText payload
  let _ ← site.verifySignature text.encode authentication "restore recovery marker key is unsupported"
    "restore recovery marker signature is invalid" "restore recovery marker authentication failed"
  return payload

/-! Snapshots and artifact trees. -/

def inspectSnapshot (data : Bytes) : Except PyError Snapshot := do
  let found ← site.sqlite data
  ensure (found.integrity = ["ok"]) (backupError "database integrity failed")
  ensure (found.foreignKeys = 0) (backupError "database foreign-key check failed")
  ensure (found.userVersion = schemaVersion) (backupError "unsupported schema version")
  return found

/-- Python's equality of a champion row with a JSON value. -/
def equalsChampion (row : RegistryRow) (value : Json) : Bool :=
  exactly value ["tenant_id", "policy_name", "artifact_id", "generation"] &&
    value.get? "tenant_id" = some (.str row.tenantId) && value.get? "policy_name" = some (.str row.policyName) &&
    value.get? "artifact_id" = some (.str row.artifactId) &&
    (value.get? "generation").any fun generation => equalsInt site.integral generation row.generation

/-- `champions == manifest["champions"]`. -/
def equalsChampions : List RegistryRow → List Json → Bool
  | [], [] => true
  | row :: rows, value :: values => site.equalsChampion row value && equalsChampions rows values
  | _, _ => false

/-- `tenant_namespace`. -/
def tenantNamespace (tenantId : String) : Except PyError String :=
  if tenantId = "" then .error (.valueError "tenant_id must not be empty")
  else .ok (asciiText ((utf8 (site.sha256 (utf8 tenantId))).take 20))

def policyArtifactUri (tenantId contentSha256 : String) : Except PyError String := do
  contentDigest contentSha256
  let directory ← site.tenantNamespace tenantId
  return "policy-artifact://" ++ directory ++ "/" ++ contentSha256 ++ ".json"

def policyArtifactPath (tenantId contentSha256 : String) : Except PyError ArtifactPath := do
  contentDigest contentSha256
  let directory ← site.tenantNamespace tenantId
  return (directory, contentSha256)

/-- `read_verified_policy` in a tree. -/
def readVerifiedPolicy (tree : Tree) (path : ArtifactPath) (expectedSha256 : String) : Except PyError Bytes := do
  contentDigest expectedSha256
  let data ← orRaise (tree.get? path) (.other "FileNotFoundError" path.2)
  ensure (data.length ≤ maxPolicyBytes) (.valueError "policy artifact exceeds size cap")
  ensure (site.sha256 data = expectedSha256) (.valueError "policy artifact content hash mismatch")
  return data

/-- The checks of one row, with the messages of their errors, and the path of its file. -/
def rowPath (foreignId foreignUri : String) (row : PolicyRow) : Except PyError ArtifactPath := do
  ensure (row.artifactId = "policy-" ++ row.contentSha256) (backupError foreignId)
  let uri ← site.policyArtifactUri row.tenantId row.contentSha256
  ensure (row.artifactUri = uri) (backupError foreignUri)
  site.policyArtifactPath row.tenantId row.contentSha256

def validateArtifactTree (rows : List PolicyRow) (tree : Tree) : Except PyError Unit := do
  let expected ← rows.mapM fun row => do
    let path ← site.rowPath "policy artifact ID is not canonical" "policy artifact URI is not canonical" row
    let _ ← site.readVerifiedPolicy tree path row.contentSha256
    return path
  ensure (tree.keys.all expected.contains && expected.all tree.keys.contains)
    (backupError "artifact tree contains missing or unexpected objects")

/-- The sorted pairs of the rows; sorting is equality of the multisets. -/
def artifactPairs (rows : List PolicyRow) : Except PyError (List (Json × String)) :=
  rows.mapM fun row => do
    let directory ← site.tenantNamespace row.tenantId
    return (.str directory, row.contentSha256)

end Site

end AgentTree.Backup
