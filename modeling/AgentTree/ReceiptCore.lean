import AgentTree.StoreSchema

/-!
Receipt envelopes: `ReceiptSigner.sign` and `ReceiptVerifier.verify` (`crypto.py`)
for a verifier without a replay guard, which is how the service builds it.
HMAC-SHA256 is a parameter.
-/

namespace AgentTree

open Outcome

structure Keyring where
  keys : List (String × Bytes)
  hmac : Bytes → Bytes → Bytes

def Keyring.key? (ring : Keyring) (keyId : String) : Option Bytes :=
  (ring.keys.find? fun entry => entry.1 = keyId).map Prod.snd

/-! Base64url, without padding on the way out. -/

def base64Alphabet : Bytes := utf8 "ABCDEFGHIJKLMNOPQRSTUVWXYZabcdefghijklmnopqrstuvwxyz0123456789-_"

def base64Char (n : Nat) : UInt8 := base64Alphabet.getD n 0x41

/-- `_b64url_encode`. -/
def b64urlBytes : Bytes → Bytes
  | [] => []
  | [a] => [base64Char (a.toNat / 4), base64Char (a.toNat % 4 * 16)]
  | [a, b] => [base64Char (a.toNat / 4), base64Char (a.toNat % 4 * 16 + b.toNat / 16),
      base64Char (b.toNat % 16 * 4)]
  | a :: b :: c :: rest =>
      base64Char (a.toNat / 4) :: base64Char (a.toNat % 4 * 16 + b.toNat / 16) ::
        base64Char (b.toNat % 16 * 4 + c.toNat / 64) :: base64Char (c.toNat % 64) :: b64urlBytes rest

def b64urlEncode (value : Bytes) : String := asciiText (b64urlBytes value)

/-- The alternative alphabet is mapped onto the standard one, which stays accepted. -/
def base64Value (b : UInt8) : Option Nat :=
  if b = 0x2b then some 62
  else if b = 0x2f then some 63
  else base64Alphabet.findIdx? (· = b)

/-- Four characters make three bytes; the bits that are left over at the end are dropped. -/
def base64Bytes : List Nat → Bytes
  | a :: b :: c :: d :: rest =>
      UInt8.ofNat (a * 4 + b / 16) :: UInt8.ofNat (b % 16 * 16 + c / 4) ::
        UInt8.ofNat (c % 4 * 64 + d) :: base64Bytes rest
  | [a, b, c] => [UInt8.ofNat (a * 4 + b / 16), UInt8.ofNat (b % 16 * 16 + c / 4)]
  | [a, b] => [UInt8.ofNat (a * 4 + b / 16)]
  | _ => []

/-- `_b64url_decode`: padding is completed, and at most two padding characters end the text.
A character outside ASCII is refused, as are its bytes here. -/
def b64urlDecode (value : String) : Except PyError Bytes := do
  let chars := utf8 value
  ensure (value ≠ "") (.receipt "InvalidSignatureError" "signature must be nonempty base64url text")
  let padded := chars ++ List.replicate ((4 - chars.length % 4) % 4) 0x3d
  let body := padded.takeWhile (· ≠ 0x3d)
  let padding := padded.dropWhile (· ≠ 0x3d)
  let values := body.mapM base64Value
  ensure (padding.all (· = 0x3d) && padding.length ≤ 2 && values.isSome)
    (.receipt "InvalidSignatureError" "signature is not valid base64url")
  let decoded := base64Bytes (values.getD [])
  ensure (decoded.length = 32) (.receipt "InvalidSignatureError" "signature has the wrong length")
  return decoded

/-! Envelopes. -/

def envelopeVersion : Int := 1
def algorithm : String := "HS256"

def signedFields : List String :=
  ["version", "algorithm", "key_id", "purpose", "tenant_id", "issued_at", "expires_at", "nonce",
    "payload"]

def envelopeFields : List String := signedFields ++ ["signature"]

/-- `_unsigned`: the signed fields of an envelope. -/
def unsigned (envelope : Json) : Json :=
  .obj (signedFields.filterMap fun name => (envelope.get? name).map fun value => (name, value))

structure ReceiptSigner where
  ring : Keyring
  activeKeyId : String

/-- `ReceiptSigner.sign` with the issue time taken from the clock and a fresh nonce. -/
def ReceiptSigner.sign (signer : ReceiptSigner) (now : Int) (nonce : String) (payload : Json)
    (purpose tenantId : String) (ttlSeconds : Option Int) : Except PyError Json := do
  ensure (purpose ≠ "" && tenantId ≠ "") (.valueError "purpose and tenant_id must be nonempty")
  ensure (ttlSeconds.all (0 < ·)) (.valueError "ttl_seconds must be a positive integer or None")
  ensure (0 ≤ now) (.valueError "issued_at must be a nonnegative integer Unix timestamp")
  ensure (nonce ≠ "" && nonce.length ≤ 256)
    (.valueError "nonce must be a nonempty string of at most 256 characters")
  let _ ← jsonText payload
  let members : List (String × Json) := [
    ("version", .int envelopeVersion),
    ("algorithm", .str algorithm),
    ("key_id", .str signer.activeKeyId),
    ("purpose", .str purpose),
    ("tenant_id", .str tenantId),
    ("issued_at", .int now),
    ("expires_at", .optional (fun ttl => .int (now + ttl)) ttlSeconds),
    ("nonce", .str nonce),
    ("payload", payload)]
  let key ← orRaise (signer.ring.key? signer.activeKeyId)
    (.valueError "active_key_id is not present in the keyring")
  let signature := signer.ring.hmac key (canonicalBytes (.obj members))
  return .obj (members ++ [("signature", .str (b64urlEncode signature))])

structure ReceiptVerifier where
  ring : Keyring
  clockSkewSeconds : Int

def envelopeError (message : String) : PyError := .receipt "InvalidEnvelopeError" message

/-- The values that Python finds equal to the integer 1. -/
def equalsOne (value : Json) : Bool :=
  value = .int 1 || value = .bool true || value = .float "1.0"

/-- A member that must be a nonempty string. -/
def nonemptyMember (envelope : Json) (name : String) : Except PyError String :=
  match envelope.get? name with
  | some (.str value) =>
      if value = "" then .error (envelopeError (name ++ " must be a nonempty string")) else .ok value
  | _ => .error (envelopeError (name ++ " must be a nonempty string"))

/-- The members of an envelope that `_validate_shape` has checked. -/
structure EnvelopeShape where
  keyId : String
  purpose : String
  tenantId : String
  nonce : String
  issuedAt : Int
  expiresAt : Option Int
  payload : Json

def validateShape (envelope : Json) : Except PyError EnvelopeShape := do
  let members ← match envelope with
    | .obj members => Except.ok members
    | _ => .error (envelopeError "receipt envelope must be an object")
  ensure (envelopeFields.all (fun name => members.any fun member => member.1 = name) &&
      members.all fun member => envelopeFields.contains member.1)
    (envelopeError "receipt envelope fields differ")
  ensure ((envelope.get? "version").any equalsOne)
    (envelopeError "unsupported receipt envelope version")
  ensure (envelope.get? "algorithm" = some (.str algorithm))
    (envelopeError "unsupported receipt signature algorithm")
  let keyId ← nonemptyMember envelope "key_id"
  let purpose ← nonemptyMember envelope "purpose"
  let tenantId ← nonemptyMember envelope "tenant_id"
  let nonce ← nonemptyMember envelope "nonce"
  ensure (nonce.length ≤ 256) (envelopeError "nonce exceeds 256 characters")
  let issuedAt ← match envelope.get? "issued_at" with
    | some (.int value) =>
        if 0 ≤ value then Except.ok value
        else .error (envelopeError "issued_at must be a nonnegative integer")
    | _ => .error (envelopeError "issued_at must be a nonnegative integer")
  let expiresAt ← match envelope.get? "expires_at" with
    | some .null => Except.ok none
    | some (.int value) =>
        if issuedAt < value then Except.ok (some value)
        else .error (envelopeError "expires_at must be after issued_at")
    | _ => .error (envelopeError "expires_at must be after issued_at")
  let payload := (envelope.get? "payload").getD .null
  let _ ← jsonText payload
  return { keyId, purpose, tenantId, nonce, issuedAt, expiresAt, payload }

def ReceiptVerifier.verify (verifier : ReceiptVerifier) (now : Int) (envelope : Json)
    (expectedPurpose expectedTenantId : Option String) : Except PyError Json := do
  let shape ← validateShape envelope
  let key ← orRaise (verifier.ring.key? shape.keyId)
    (.receipt "UnknownKeyError" ("unknown key ID '" ++ shape.keyId ++ "'"))
  let supplied ← match envelope.get? "signature" with
    | some (.str value) => b64urlDecode value
    | _ => .error (.receipt "InvalidSignatureError" "signature must be nonempty base64url text")
  ensure (supplied = verifier.ring.hmac key (canonicalBytes (unsigned envelope)))
    (.receipt "InvalidSignatureError" "receipt signature verification failed")
  ensure (expectedPurpose.all (· = shape.purpose))
    (envelopeError "receipt purpose does not match the expected purpose")
  ensure (expectedTenantId.all (· = shape.tenantId))
    (envelopeError "receipt tenant does not match the expected tenant")
  ensure (shape.issuedAt ≤ now + verifier.clockSkewSeconds)
    (.receipt "NotYetValidReceiptError" "receipt issue time is in the future")
  ensure (shape.expiresAt.all fun expiry => now ≤ expiry + verifier.clockSkewSeconds)
    (.receipt "ExpiredReceiptError" "receipt has expired")
  return shape.payload

end AgentTree
