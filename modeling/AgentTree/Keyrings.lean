import AgentTree.AsciiJsonReading
import AgentTree.Dictionary
import AgentTree.Receipts
import Mathlib.Data.String.Basic

/-!
Key ring files: `load_keyring` and `rotate_keyring` (`secrets.py`) over the checks of
`_secure_json` (`config.py`), and the key rings that the signer and the verifier take.
The base64 decoder is the lenient one: it skips what is not in its alphabet.
-/

namespace AgentTree

open Outcome Relational

def configurationError (message : String) : PyError := .other "ConfigurationError" message

/-! Private files. -/

inductive FileKind : Type
  | regular
  | symlink
  | special
  deriving DecidableEq

structure SecretFile where
  kind : FileKind
  mode : Nat
  content : Bytes

def maxPrivateJsonBytes : Nat := 1024 * 1024

/-- The permissions of the group and of others. -/
def sharedPermissions : Nat := 0o077

def validatePrivateFile (path : String) (file : SecretFile) : Except PyError Unit := do
  ensure (file.kind ≠ .symlink) (configurationError ("secret/config file must not be a symlink: " ++ path))
  ensure (file.kind = .regular) (configurationError ("configuration path is not a regular file: " ++ path))
  ensure (file.mode &&& sharedPermissions = 0)
    (configurationError ("secret file must not be group/world accessible: " ++ path))

/-- `_private_json`: nothing changes the file between its inspection and the last read. -/
def privateJson (floats : Floats) (path : String) (file : Option SecretFile) : Except PyError Json := do
  let file ← orRaise file
    (configurationError ("required secret/config file cannot be inspected: " ++ path))
  validatePrivateFile path file
  ensure (file.content.length ≤ maxPrivateJsonBytes) (configurationError
    ("secret/config file exceeds " ++ toString maxPrivateJsonBytes ++ " byte limit: " ++ path))
  orRaise (Json.loads floats file.content) (configurationError ("invalid JSON in " ++ path))

/-! Base64url as `base64.urlsafe_b64decode` reads it. -/

/-- `binascii.a2b_base64`: enough padding ends the text, other padding and other characters are skipped. -/
def base64Data (quadPos pads : Nat) : Bytes → Option (List Nat)
  | [] => if quadPos = 0 then some [] else none
  | b :: rest =>
      if b = 0x3d then
        if 2 ≤ quadPos then
          if 4 ≤ quadPos + (pads + 1) then some [] else base64Data quadPos (pads + 1) rest
        else base64Data quadPos pads rest
      else
        match base64Value b with
        | none => base64Data quadPos pads rest
        | some value => (base64Data ((quadPos + 1) % 4) 0 rest).map (value :: ·)

/-- The text of a key with its padding completed; a character outside ASCII is refused. -/
def urlsafeB64decode (encoded : String) : Option Bytes :=
  let chars := utf8 encoded ++ List.replicate ((4 - encoded.length % 4) % 4) 0x3d
  if chars.all (· < 0x80) then (base64Data 0 0 chars).map base64Bytes else none

/-! Key rings. -/

def decodeKey (keyId : String) (encoded : Json) : Except PyError Bytes := do
  let text ← match encoded with
    | .str text => Except.ok text
    | _ => .error (configurationError "receipt keyring entry is invalid")
  let key ← orRaise (urlsafeB64decode text) (configurationError ("receipt key " ++ keyId ++ " is not base64url"))
  ensure (32 ≤ key.length) (configurationError ("receipt key " ++ keyId ++ " is too short"))
  return key

def decodeKeys : List (String × Json) → Dict String Bytes → Except PyError (Dict String Bytes)
  | [], keys => .ok keys
  | (keyId, encoded) :: rest, keys => do
      let key ← decodeKey keyId encoded
      decodeKeys rest (keys.set keyId key)

/-- The active name and the entries of a key ring that has the right form. -/
def keyringMembers (value : Json) : Except PyError (String × List (String × Json)) := do
  match value with
  | .obj _ =>
      match value.get? "active_key_id", value.get? "keys" with
      | some (.str active), some (.obj rawKeys) =>
          ensure (rawKeys.any fun entry => entry.1 = active)
            (configurationError "receipt keyring active key is invalid")
          return (active, rawKeys)
      | _, _ => .error (configurationError "receipt keyring active key is invalid")
  | _ => .error (configurationError "receipt keyring must be an object")

def loadKeyring (floats : Floats) (path : String) (file : Option SecretFile) :
    Except PyError (Dict String Bytes × String) := do
  let value ← privateJson floats path file
  let (active, rawKeys) ← keyringMembers value
  let keys ← decodeKeys rawKeys Table.empty
  return (keys, active)

/-- What a rotation draws: `secrets.token_hex(8)` and `generate_hmac_key()`. -/
structure Draw where
  token : String
  key : Bytes
  long : key.length = 32

def Draw.keyId (draw : Draw) : String := "k-" ++ draw.token

def keyringPayload (activeKeyId : String) (keys : Dict String Bytes) : Json := .obj [
  ("active_key_id", .str activeKeyId),
  ("keys", .obj (keys.sorted.rows.map fun entry => (entry.1, .str (b64urlEncode entry.2))))]

/-- `_atomic_private_json`: the new file is published in the place of the old one. -/
def atomicPrivateJson (payload : Json) : SecretFile := ⟨.regular, 0o600, Json.dumps payload⟩

def rotateKeyring (floats : Floats) (path : String) (draw : Draw) (file : Option SecretFile) :
    Except PyError (String × SecretFile) := do
  let (keys, _) ← loadKeyring floats path file
  let keys := keys.set draw.keyId draw.key
  return (draw.keyId, atomicPrivateJson (keyringPayload draw.keyId keys))

/-! The key rings of the signer and of the verifier. -/

def validateKeyring (keys : Dict String Bytes) : Except PyError Unit := do
  ensure (keys.rows ≠ []) (.valueError "at least one HMAC key is required")
  keys.rows.forM fun (keyId, key) => do
    ensure (keyId ≠ "") (.valueError "key IDs must be nonempty strings")
    ensure (32 ≤ key.length) (.valueError ("HMAC key '" ++ keyId ++ "' must contain at least 32 bytes"))

/-- `ReceiptSigner.__init__`. -/
def receiptSigner (hmac : Bytes → Bytes → Bytes) (keys : Dict String Bytes) (activeKeyId : String) :
    Except PyError ReceiptSigner := do
  validateKeyring keys
  ensure (keys.contains activeKeyId) (.valueError "active_key_id is not present in the keyring")
  return ⟨⟨keys.rows, hmac⟩, activeKeyId⟩

/-- `ReceiptVerifier.__init__` without a replay guard. -/
def receiptVerifier (hmac : Bytes → Bytes → Bytes) (keys : Dict String Bytes) (clockSkewSeconds : Int) :
    Except PyError ReceiptVerifier := do
  validateKeyring keys
  ensure (0 ≤ clockSkewSeconds) (.valueError "clock_skew_seconds must be a nonnegative integer")
  return ⟨⟨keys.rows, hmac⟩, clockSkewSeconds⟩

end AgentTree
