import AgentTree.CanonicalJson
import AgentTree.ReceiptCore

/-!
Receipt envelopes: the verifier accepts what the signer made, at the times and only at
the times that the envelope allows, and nothing that was not signed.
-/

namespace AgentTree

open Outcome

/-! Base64url. -/

theorem base64Char_small : ∀ n < 64, (base64Char n).toNat < 128 ∧ base64Char n ≠ 0x3d ∧
    base64Value (base64Char n) = some n := by decide +kernel

/-- The values of the characters that `b64urlBytes` writes. -/
def base64Values : Bytes → List Nat
  | [] => []
  | [a] => [a.toNat / 4, a.toNat % 4 * 16]
  | [a, b] => [a.toNat / 4, a.toNat % 4 * 16 + b.toNat / 16, b.toNat % 16 * 4]
  | a :: b :: c :: rest =>
      a.toNat / 4 :: (a.toNat % 4 * 16 + b.toNat / 16) :: (b.toNat % 16 * 4 + c.toNat / 64) ::
        c.toNat % 64 :: base64Values rest

theorem b64urlBytes_eq (value : Bytes) : b64urlBytes value = (base64Values value).map base64Char := by
  fun_induction base64Values value with
  | case1 => rfl
  | case2 a => rfl
  | case3 a b => rfl
  | case4 a b c rest ih => simp [b64urlBytes, ih]

theorem base64Values_small (value : Bytes) : ∀ n ∈ base64Values value, n < 64 := by
  fun_induction base64Values value with
  | case1 => simp
  | case2 a =>
      have := a.toNat_lt
      simp
      omega
  | case3 a b =>
      have := a.toNat_lt
      have := b.toNat_lt
      simp
      omega
  | case4 a b c rest ih =>
      have := a.toNat_lt
      have := b.toNat_lt
      have := c.toNat_lt
      intro n member
      simp only [List.mem_cons] at member
      rcases member with rfl | rfl | rfl | rfl | member
      · omega
      · omega
      · omega
      · omega
      · exact ih n member

theorem ofNat_toNat {b : UInt8} {n : Nat} (same : n % 256 = b.toNat) : UInt8.ofNat n = b := by
  apply UInt8.toNat_inj.mp
  rw [UInt8.toNat_ofNat']
  exact same

theorem base64Bytes_values (value : Bytes) : base64Bytes (base64Values value) = value := by
  fun_induction base64Values value with
  | case1 => rfl
  | case2 a =>
      have := a.toNat_lt
      simp only [base64Bytes, List.cons.injEq, and_true]
      exact ofNat_toNat (by omega)
  | case3 a b =>
      have := a.toNat_lt
      have := b.toNat_lt
      simp only [base64Bytes, List.cons.injEq, and_true]
      exact ⟨ofNat_toNat (by omega), ofNat_toNat (by omega)⟩
  | case4 a b c rest ih =>
      have := a.toNat_lt
      have := b.toNat_lt
      have := c.toNat_lt
      simp only [base64Bytes, List.cons.injEq, ih, and_true]
      exact ⟨ofNat_toNat (by omega), ofNat_toNat (by omega), ofNat_toNat (by omega)⟩

theorem base64Values_length (value : Bytes) :
    (base64Values value).length = (4 * value.length + 2) / 3 := by
  fun_induction base64Values value with
  | case1 => rfl
  | case2 a => simp
  | case3 a b => simp
  | case4 a b c rest ih =>
      simp only [List.length_cons, ih]
      omega

theorem utf8_asciiText {bytes : Bytes} (ascii : ∀ b ∈ bytes, b.toNat < 128) :
    utf8 (asciiText bytes) = bytes := by
  have small : ∀ b ∈ bytes, (Char.ofNat b.toNat).toNat = b.toNat := by
    intro b member
    have := ascii b member
    have valid : b.toNat.isValidChar := Or.inl (by omega)
    rw [Char.ofNat, dif_pos valid]
    rfl
  unfold asciiText
  rw [Json.utf8_ofList]
  · rw [List.map_map]
    refine (List.map_congr_left fun b member => ?_).trans (List.map_id bytes)
    simp only [Function.comp_apply, small b member, id]
    exact UInt8.ofNat_toNat
  · intro c member
    obtain ⟨b, present, rfl⟩ := List.mem_map.mp member
    rw [small b present]
    exact ascii b present

theorem utf8_b64urlEncode (value : Bytes) : utf8 (b64urlEncode value) = b64urlBytes value := by
  refine utf8_asciiText fun b member => ?_
  rw [b64urlBytes_eq, List.mem_map] at member
  obtain ⟨n, present, rfl⟩ := member
  exact (base64Char_small n (base64Values_small value n present)).1

theorem b64urlBytes_unpadded (value : Bytes) : ∀ b ∈ b64urlBytes value, (b != 0x3d) = true := by
  intro b member
  rw [b64urlBytes_eq, List.mem_map] at member
  obtain ⟨n, present, rfl⟩ := member
  simpa using (base64Char_small n (base64Values_small value n present)).2.1

theorem mapM_base64Value (value : Bytes) : (b64urlBytes value).mapM base64Value = some (base64Values value) := by
  rw [b64urlBytes_eq]
  have small := base64Values_small value
  generalize base64Values value = ns at small
  induction ns with
  | nil => rfl
  | cons n rest ih =>
      have first := (base64Char_small n (small n (by simp))).2.2
      have later := ih fun m member => small m (by simp [member])
      simp [first, later]

/-- The text of a value ends where its padding begins. -/
theorem b64urlBytes_padded (value : Bytes) (count : Nat) :
    (b64urlBytes value ++ List.replicate count 0x3d).takeWhile (fun b => b ≠ 0x3d) = b64urlBytes value ∧
      (b64urlBytes value ++ List.replicate count 0x3d).dropWhile (fun b => b ≠ 0x3d) = List.replicate count 0x3d := by
  have body : ∀ b ∈ b64urlBytes value, decide (b ≠ 0x3d) = true := by
    simpa using b64urlBytes_unpadded value
  rw [List.takeWhile_append_of_pos body, List.dropWhile_append_of_pos body]
  cases count <;> simp [List.replicate_succ]

theorem b64urlDecode_encode {value : Bytes} (length : value.length = 32) :
    b64urlDecode (b64urlEncode value) = .ok value := by
  have chars := utf8_b64urlEncode value
  have long : (b64urlBytes value).length = 43 := by
    rw [b64urlBytes_eq, List.length_map, base64Values_length, length]
  have nonempty : b64urlEncode value ≠ "" := by
    intro empty
    rw [empty] at chars
    have := congrArg List.length chars
    rw [long] at this
    simp [utf8] at this
  have values := mapM_base64Value value
  obtain ⟨taken, dropped⟩ := b64urlBytes_padded value 1
  simp only [b64urlDecode, chars, long, bind_eq_ok, ensure_eq_ok]
  have pad : List.replicate ((4 - 43 % 4) % 4) (0x3d : UInt8) = List.replicate 1 0x3d := rfl
  rw [pad, taken, dropped, values]
  simp [nonempty, base64Bytes_values, length, pure, Except.pure]

/-! What the verifier accepts. -/

/-- The envelope has the fields of the shape, and no others. -/
structure EnvelopeShape.Fits (shape : EnvelopeShape) (envelope : Json) : Prop where
  named : ∃ members, envelope = .obj members ∧
    (envelopeFields.all (fun name => members.any fun member => member.1 = name) &&
      members.all fun member => envelopeFields.contains member.1) = true
  version : (envelope.get? "version").any equalsOne = true
  algorithm : envelope.get? "algorithm" = some (.str algorithm)
  keyId : envelope.get? "key_id" = some (.str shape.keyId) ∧ shape.keyId ≠ ""
  purpose : envelope.get? "purpose" = some (.str shape.purpose) ∧ shape.purpose ≠ ""
  tenantId : envelope.get? "tenant_id" = some (.str shape.tenantId) ∧ shape.tenantId ≠ ""
  nonce : envelope.get? "nonce" = some (.str shape.nonce) ∧ shape.nonce ≠ "" ∧ shape.nonce.length ≤ 256
  issuedAt : envelope.get? "issued_at" = some (.int shape.issuedAt) ∧ 0 ≤ shape.issuedAt
  expiresAt : envelope.get? "expires_at" = some (.optional .int shape.expiresAt) ∧
    ∀ expiry, shape.expiresAt = some expiry → shape.issuedAt < expiry
  payload : (envelope.get? "payload").getD .null = shape.payload ∧ shape.payload.valid = true

theorem nonemptyMember_ok {envelope : Json} {name value : String} :
    nonemptyMember envelope name = .ok value ↔ envelope.get? name = some (.str value) ∧ value ≠ "" := by
  unfold nonemptyMember
  split
  next text found =>
    split
    next empty =>
      simp only [reduceCtorEq, false_iff, not_and, found, Option.some.injEq, Json.str.injEq]
      rintro rfl
      simp [empty]
    next nonempty =>
      simp only [Except.ok.injEq, found, Option.some.injEq, Json.str.injEq]
      constructor
      · rintro rfl
        exact ⟨rfl, nonempty⟩
      · exact And.left
  next other =>
    simp only [reduceCtorEq, false_iff, not_and]
    intro found
    exact absurd found (other value)

theorem jsonText_ok {value result : Json} :
    jsonText value = .ok result ↔ value.valid = true ∧ value.canonical = result := by
  unfold jsonText
  split
  next valid => simp [valid]
  next invalid => simp [invalid]

theorem validateShape_ok {envelope : Json} {shape : EnvelopeShape} :
    validateShape envelope = .ok shape ↔ shape.Fits envelope := by
  constructor
  · intro ran
    unfold validateShape at ran
    cases envelope with
    | obj members =>
        simp only [bind_eq_ok, ensure_eq_ok, nonemptyMember_ok, decide_eq_true_eq, Except.ok.injEq,
          exists_eq_left'] at ran
        obtain ⟨_, names, _, version, _, algorithm, keyId, key, purpose, purposes, tenantId, tenant, nonce,
          nonces, _, short, ran⟩ := ran
        obtain ⟨issuedAt, issued, positive⟩ : ∃ issuedAt,
            (Json.obj members).get? "issued_at" = some (.int issuedAt) ∧ 0 ≤ issuedAt := by
          cases found : (Json.obj members).get? "issued_at" with
          | none => simp [found, bind_eq_ok] at ran
          | some issued =>
              rw [found] at ran
              cases issued with
              | int value =>
                  by_cases positive : 0 ≤ value
                  · exact ⟨value, rfl, positive⟩
                  · simp [positive, bind_eq_ok] at ran
              | _ => simp [bind_eq_ok] at ran
        simp only [issued, positive, ↓reduceIte, bind_eq_ok, Except.ok.injEq, exists_eq_left'] at ran
        obtain ⟨expiresAt, expires, later, ran⟩ : ∃ expiresAt,
            (Json.obj members).get? "expires_at" = some (.optional .int expiresAt) ∧
            (∀ expiry, expiresAt = some expiry → issuedAt < expiry) ∧
            ∃ text, jsonText (((Json.obj members).get? "payload").getD .null) = .ok text ∧
              EnvelopeShape.mk keyId purpose tenantId nonce issuedAt expiresAt
                (((Json.obj members).get? "payload").getD .null) = shape := by
          cases found : (Json.obj members).get? "expires_at" with
          | none => simp [found, bind_eq_ok] at ran
          | some expires =>
              rw [found] at ran
              cases expires with
              | null =>
                  simp only [bind_eq_ok, Except.ok.injEq, exists_eq_left', pure_eq_ok] at ran
                  exact ⟨none, rfl, by simp, ran⟩
              | int value =>
                  by_cases later : issuedAt < value
                  · simp only [later, ↓reduceIte, bind_eq_ok, Except.ok.injEq, exists_eq_left',
                      pure_eq_ok] at ran
                    exact ⟨some value, rfl, by simpa using later, ran⟩
                  · simp [later, bind_eq_ok] at ran
              | _ => simp [bind_eq_ok] at ran
        obtain ⟨_, text, rfl⟩ := ran
        exact ⟨⟨members, rfl, names⟩, version, algorithm, key, purposes, tenant,
          ⟨nonces.1, nonces.2, short⟩, ⟨issued, positive⟩, ⟨expires, later⟩, rfl, (jsonText_ok.mp text).1⟩
    | _ => simp [bind_eq_ok] at ran
  · rintro ⟨⟨members, rfl, names⟩, version, algorithm, key, purpose, tenant, nonce, issued, expires,
      payload, valid⟩
    have keyed := nonemptyMember_ok.mpr key
    have purposed := nonemptyMember_ok.mpr purpose
    have owned := nonemptyMember_ok.mpr tenant
    have once := nonemptyMember_ok.mpr ⟨nonce.1, nonce.2.1⟩
    have text := jsonText_ok.mpr ⟨valid, rfl⟩
    obtain ⟨keyId, purposeId, tenantId, nonceId, issuedAt, expiresAt, content⟩ := shape
    simp only at keyed purposed owned once issued expires payload nonce text
    cases expiresAt with
    | none =>
        simp only [validateShape, bind, Except.bind, pure, Except.pure, ensure, names, version, algorithm,
          keyed, purposed, owned, once, issued.1, issued.2, expires.1, Json.optional, text, nonce.2.2,
          decide_true, ↓reduceIte, payload]
    | some expiry =>
        have later := expires.2 expiry rfl
        simp only [validateShape, bind, Except.bind, pure, Except.pure, ensure, names, version, algorithm,
          keyed, purposed, owned, once, issued.1, issued.2, expires.1, Json.optional, text, nonce.2.2,
          later, decide_true, ↓reduceIte, payload]

/-- The times at which an envelope is valid. -/
def EnvelopeShape.timely (shape : EnvelopeShape) (skew now : Int) : Prop :=
  shape.issuedAt - skew ≤ now ∧ ∀ expiry, shape.expiresAt = some expiry → now ≤ expiry + skew

theorem verify_ok {verifier : ReceiptVerifier} {now : Int} {envelope result : Json}
    {expectedPurpose expectedTenantId : Option String} :
    verifier.verify now envelope expectedPurpose expectedTenantId = .ok result ↔
      ∃ shape : EnvelopeShape, shape.Fits envelope ∧
        (∃ key, verifier.ring.key? shape.keyId = some key ∧
          ∃ signature, envelope.get? "signature" = some (.str signature) ∧
            b64urlDecode signature =
              .ok (verifier.ring.hmac key (canonicalBytes (unsigned envelope)))) ∧
        expectedPurpose.all (· = shape.purpose) = true ∧
        expectedTenantId.all (· = shape.tenantId) = true ∧
        shape.timely verifier.clockSkewSeconds now ∧ shape.payload = result := by
  have late : ∀ shape : EnvelopeShape,
      shape.expiresAt.all (fun expiry => decide (now ≤ expiry + verifier.clockSkewSeconds)) = true ↔
        ∀ expiry, shape.expiresAt = some expiry → now ≤ expiry + verifier.clockSkewSeconds := by
    intro shape
    cases shape.expiresAt <;> simp
  constructor
  · intro ran
    simp only [ReceiptVerifier.verify, bind_eq_ok, validateShape_ok, orRaise_eq_ok] at ran
    obtain ⟨shape, fits, key, found, ran⟩ := ran
    split at ran
    next signature signed =>
      simp only [bind_eq_ok, ensure_eq_ok, pure_eq_ok, decide_eq_true_eq, late] at ran
      obtain ⟨_, decoded, _, rfl, _, purpose, _, tenant, _, early, _, expiry, rfl⟩ := ran
      exact ⟨shape, fits, ⟨key, found, signature, signed, decoded⟩, purpose, tenant,
        ⟨by omega, expiry⟩, rfl⟩
    next => simp [bind_eq_ok] at ran
  · rintro ⟨shape, fits, ⟨key, found, signature, signed, decoded⟩, purpose, tenant, ⟨early, expiry⟩, rfl⟩
    have shaped := validateShape_ok.mpr fits
    have before : shape.issuedAt ≤ now + verifier.clockSkewSeconds := by omega
    simp [ReceiptVerifier.verify, shaped, found, signed, decoded, purpose, tenant, before,
      (late shape).mpr expiry, ensure, orRaise, bind, Except.bind, pure, Except.pure]

theorem EnvelopeShape.Fits.unique {envelope : Json} {first second : EnvelopeShape}
    (one : first.Fits envelope) (two : second.Fits envelope) : first = second := by
  obtain ⟨keyId, purpose, tenantId, nonce, issuedAt, expiresAt, payload⟩ := first
  have key := one.keyId.1.symm.trans two.keyId.1
  have named := one.purpose.1.symm.trans two.purpose.1
  have tenant := one.tenantId.1.symm.trans two.tenantId.1
  have once := one.nonce.1.symm.trans two.nonce.1
  have issued := one.issuedAt.1.symm.trans two.issuedAt.1
  have expires := one.expiresAt.1.symm.trans two.expiresAt.1
  have content := one.payload.1.symm.trans two.payload.1
  simp only [Option.some.injEq, Json.str.injEq, Json.int.injEq] at key named tenant once issued expires
  have expiry : expiresAt = second.expiresAt := by
    cases expiresAt <;> cases later : second.expiresAt <;> simp_all [Json.optional]
  simp only at content
  simp [key, named, tenant, once, issued, expiry, content]

/-! The transport as canonical JSON text. -/

theorem get?_canonical {members : List (String × Json)} (distinct : (members.map Prod.fst).Nodup)
    (name : String) :
    (Json.obj members).canonical.get? name = ((Json.obj members).get? name).map Json.canonical := by
  have sorted := Json.sortedMembers_distinct distinct
  have form : (Json.obj members).canonical = .obj (Json.sortedMembers members) := by
    simp only [Json.canonical, Json.sortedMembers]
  ext value
  rw [form, Json.get?_eq_some sorted, Json.mem_sortedMembers, Option.map_eq_some_iff]
  simp only [Json.get?_eq_some distinct]

theorem unsigned_canonical {members : List (String × Json)} (distinct : (members.map Prod.fst).Nodup) :
    canonicalBytes (unsigned (Json.obj members).canonical) = canonicalBytes (unsigned (.obj members)) := by
  have fields : (signedFields.filterMap fun name =>
      ((Json.obj members).canonical.get? name).map fun value => (name, value)) =
      Json.canonicalMembers (signedFields.filterMap fun name =>
        ((Json.obj members).get? name).map fun value => (name, value)) := by
    rw [Json.canonicalMembers_eq, List.map_filterMap]
    refine List.filterMap_congr fun name _ => ?_
    rw [get?_canonical distinct]
    cases (Json.obj members).get? name <;> rfl
  have again : ∀ fields, Json.canonicalMembers (Json.canonicalMembers fields) =
      Json.canonicalMembers fields := by
    intro fields
    simp [Json.canonicalMembers_eq, List.map_map, Function.comp_def, Json.canonical_canonical]
  unfold canonicalBytes unsigned
  rw [fields]
  simp only [Json.canonical, again]

theorem EnvelopeShape.Fits.canonical {shape : EnvelopeShape} {members : List (String × Json)}
    (distinct : (members.map Prod.fst).Nodup) (fits : shape.Fits (.obj members)) :
    EnvelopeShape.Fits { shape with payload := shape.payload.canonical } (Json.obj members).canonical := by
  have get := get?_canonical distinct
  constructor
  · obtain ⟨_, same, names⟩ := fits.named
    obtain rfl := Json.obj.inj same
    refine ⟨Json.sortedMembers members, by simp only [Json.canonical, Json.sortedMembers], ?_⟩
    simp only [Bool.and_eq_true, List.all_eq_true, List.any_eq_true, decide_eq_true_eq] at names ⊢
    constructor
    · intro name field
      obtain ⟨⟨_, value⟩, present, rfl⟩ := names.1 name field
      exact ⟨(_, value.canonical), Json.mem_sortedMembers.mpr ⟨value, present, rfl⟩, rfl⟩
    · rintro ⟨name, value⟩ present
      obtain ⟨before, member, _⟩ := Json.mem_sortedMembers.mp present
      exact names.2 (name, before) member
  · rw [get]
    have version := fits.version
    cases found : (Json.obj members).get? "version" with
    | none => simp [found] at version
    | some value =>
        rw [found] at version
        simp only [Option.any_some, Option.map_some] at version ⊢
        cases value with
        | arr => simp [equalsOne] at version
        | obj => simp [equalsOne] at version
        | _ => exact version
  · rw [get, fits.algorithm]
    rfl
  · exact ⟨by rw [get, fits.keyId.1]; rfl, fits.keyId.2⟩
  · exact ⟨by rw [get, fits.purpose.1]; rfl, fits.purpose.2⟩
  · exact ⟨by rw [get, fits.tenantId.1]; rfl, fits.tenantId.2⟩
  · exact ⟨by rw [get, fits.nonce.1]; rfl, fits.nonce.2⟩
  · exact ⟨by rw [get, fits.issuedAt.1]; rfl, fits.issuedAt.2⟩
  · refine ⟨?_, fits.expiresAt.2⟩
    rw [get, fits.expiresAt.1]
    cases shape.expiresAt <;> rfl
  · refine ⟨?_, (Json.valid_canonical _).trans fits.payload.2⟩
    rw [get, ← fits.payload.1]
    cases (Json.obj members).get? "payload" <;> rfl

/-! What the signer makes. -/

/-- A key ring as the signer and the verifier accept it; the MAC has 32 bytes. -/
structure Keyring.Proper (ring : Keyring) : Prop where
  named : ∀ keyId key, ring.key? keyId = some key → keyId ≠ ""
  digest : ∀ key message, (ring.hmac key message).length = 32

/-- The fields of a signed envelope. -/
def signedMembers (keyId purpose tenantId nonce : String) (issuedAt : Int) (ttlSeconds : Option Int)
    (payload : Json) : List (String × Json) := [
  ("version", .int envelopeVersion),
  ("algorithm", .str algorithm),
  ("key_id", .str keyId),
  ("purpose", .str purpose),
  ("tenant_id", .str tenantId),
  ("issued_at", .int issuedAt),
  ("expires_at", .optional (fun ttl => .int (issuedAt + ttl)) ttlSeconds),
  ("nonce", .str nonce),
  ("payload", payload)]

theorem sign_ok {signer : ReceiptSigner} {now : Int} {nonce : String} {payload : Json}
    {purpose tenantId : String} {ttlSeconds : Option Int} {envelope : Json}
    (signed : signer.sign now nonce payload purpose tenantId ttlSeconds = .ok envelope) :
    ∃ key, signer.ring.key? signer.activeKeyId = some key ∧
      purpose ≠ "" ∧ tenantId ≠ "" ∧ (∀ ttl, ttlSeconds = some ttl → 0 < ttl) ∧ 0 ≤ now ∧
      nonce ≠ "" ∧ nonce.length ≤ 256 ∧ payload.valid = true ∧
      envelope = .obj (signedMembers signer.activeKeyId purpose tenantId nonce now ttlSeconds payload ++
        [("signature", .str (b64urlEncode (signer.ring.hmac key (canonicalBytes (.obj
          (signedMembers signer.activeKeyId purpose tenantId nonce now ttlSeconds payload))))))]) := by
  simp only [ReceiptSigner.sign, bind_eq_ok, ensure_eq_ok, pure_eq_ok, orRaise_eq_ok, jsonText_ok,
    Bool.and_eq_true, decide_eq_true_eq] at signed
  obtain ⟨_, ⟨purposed, tenant⟩, _, ttl, _, early, _, ⟨once, short⟩, _, ⟨valid, _⟩, key, found, rfl⟩ := signed
  refine ⟨key, found, purposed, tenant, ?_, early, once, short, valid, rfl⟩
  rintro ttl rfl
  simpa using ttl

section Signed

variable {keyId purpose tenantId nonce signature : String} {issuedAt : Int} {ttlSeconds : Option Int}
  {payload : Json}

theorem signedMembers_distinct :
    ((signedMembers keyId purpose tenantId nonce issuedAt ttlSeconds payload ++
      [("signature", Json.str signature)]).map Prod.fst).Nodup := by
  simp only [signedMembers, List.map_append, List.map_cons, List.map_nil]
  decide

theorem unsigned_signed :
    unsigned (.obj (signedMembers keyId purpose tenantId nonce issuedAt ttlSeconds payload ++
      [("signature", .str signature)])) =
      .obj (signedMembers keyId purpose tenantId nonce issuedAt ttlSeconds payload) := rfl

theorem signed_fits (signature : String) (keyed : keyId ≠ "") (purposed : purpose ≠ "") (owned : tenantId ≠ "")
    (positive : ∀ ttl, ttlSeconds = some ttl → 0 < ttl) (early : 0 ≤ issuedAt) (once : nonce ≠ "")
    (short : nonce.length ≤ 256) (valid : payload.valid = true) :
    EnvelopeShape.Fits
      ⟨keyId, purpose, tenantId, nonce, issuedAt, ttlSeconds.map (issuedAt + ·), payload⟩
      (.obj (signedMembers keyId purpose tenantId nonce issuedAt ttlSeconds payload ++
        [("signature", .str signature)])) := by
  refine ⟨⟨_, rfl, ?_⟩, rfl, rfl, ⟨rfl, keyed⟩, ⟨rfl, purposed⟩, ⟨rfl, owned⟩, ⟨rfl, once, short⟩,
    ⟨rfl, early⟩, ⟨?_, ?_⟩, rfl, valid⟩
  · simp only [signedMembers, List.cons_append, List.nil_append, List.all_cons, List.any_cons]
    rfl
  · cases ttlSeconds <;> rfl
  · intro expiry same
    obtain ⟨ttl, found, rfl⟩ := Option.map_eq_some_iff.mp same
    have := positive ttl found
    simp only
    omega

theorem signed_accepted {floats : Floats} (signature : String) (genuine : payload.Genuine floats)
    (valid : payload.valid = true) :
    (Json.obj (signedMembers keyId purpose tenantId nonce issuedAt ttlSeconds payload ++
      [("signature", .str signature)])).Accepted floats := by
  refine ⟨⟨signedMembers_distinct, ?_⟩, ?_⟩
  · refine ⟨trivial, trivial, trivial, trivial, trivial, trivial, ?_, trivial, genuine, trivial, trivial⟩
    cases ttlSeconds <;> trivial
  · cases ttlSeconds <;> simp [signedMembers, Json.valid, Json.validMembers, Json.optional, valid]

end Signed

/-! Completeness and soundness. -/

/-- The envelope was made by a signer of this key. -/
def SignedBy (hmac : Bytes → Bytes → Bytes) (key : Bytes) (envelope : Json) : Prop :=
  ∃ (signer : ReceiptSigner) (now : Int) (nonce : String) (payload : Json) (purpose tenantId : String)
    (ttlSeconds : Option Int), signer.ring.hmac = hmac ∧ signer.ring.key? signer.activeKeyId = some key ∧
    signer.sign now nonce payload purpose tenantId ttlSeconds = .ok envelope

/-- What a verifier with the signer's key ring makes of a signed envelope. -/
structure Complete (floats : Floats) (verifier : ReceiptVerifier) (envelope payload : Json)
    (purpose tenantId : String) (issuedAt : Int) (expiresAt : Option Int) : Prop where
  transported : Json.loads floats (canonicalBytes envelope) = some envelope.canonical
  accepted : ∀ now expectedPurpose expectedTenantId,
    issuedAt - verifier.clockSkewSeconds ≤ now →
    (∀ expiry, expiresAt = some expiry → now ≤ expiry + verifier.clockSkewSeconds) →
    expectedPurpose.all (· = purpose) = true → expectedTenantId.all (· = tenantId) = true →
    verifier.verify now envelope expectedPurpose expectedTenantId = .ok payload ∧
    ∃ value, verifier.verify now envelope.canonical expectedPurpose expectedTenantId = .ok value ∧
      value.Same payload
  refused : ∀ now expectedPurpose expectedTenantId,
    ¬(issuedAt - verifier.clockSkewSeconds ≤ now ∧
      ∀ expiry, expiresAt = some expiry → now ≤ expiry + verifier.clockSkewSeconds) →
    (∃ error, verifier.verify now envelope expectedPurpose expectedTenantId = .error error) ∧
    ∃ error, verifier.verify now envelope.canonical expectedPurpose expectedTenantId = .error error

theorem error_of_not_ok {ε α : Type} {result : Except ε α} (none : ∀ value, result ≠ .ok value) :
    ∃ error, result = .error error := by
  cases result with
  | ok value => exact absurd rfl (none value)
  | error error => exact ⟨error, rfl⟩

theorem signed_complete {floats : Floats} {signer : ReceiptSigner} {verifier : ReceiptVerifier}
    (mac : verifier.ring.hmac = signer.ring.hmac)
    (shared : ∀ key, signer.ring.key? signer.activeKeyId = some key →
      verifier.ring.key? signer.activeKeyId = some key)
    (proper : signer.ring.Proper) {now : Int} {nonce : String}
    {payload : Json} {purpose tenantId : String} {ttlSeconds : Option Int} {envelope : Json}
    (genuine : payload.Genuine floats)
    (signed : signer.sign now nonce payload purpose tenantId ttlSeconds = .ok envelope) :
    Complete floats verifier envelope payload purpose tenantId now (ttlSeconds.map (now + ·)) := by
  obtain ⟨key, found, purposed, owned, positive, early, once, short, valid, rfl⟩ := sign_ok signed
  have digest := proper.digest key (canonicalBytes (.obj
    (signedMembers signer.activeKeyId purpose tenantId nonce now ttlSeconds payload)))
  generalize tagged : b64urlEncode (signer.ring.hmac key (canonicalBytes (.obj
    (signedMembers signer.activeKeyId purpose tenantId nonce now ttlSeconds payload)))) = signature
  have decoded : b64urlDecode signature = .ok (signer.ring.hmac key (canonicalBytes (.obj
      (signedMembers signer.activeKeyId purpose tenantId nonce now ttlSeconds payload)))) :=
    tagged ▸ b64urlDecode_encode digest
  have fits := signed_fits signature (proper.named _ key found) purposed owned positive early
    once short valid
  generalize members : signedMembers signer.activeKeyId purpose tenantId nonce now ttlSeconds payload ++
    [("signature", Json.str signature)] = fields at fits
  have distinct : (fields.map Prod.fst).Nodup := members ▸ signedMembers_distinct
  have sound : (Json.obj fields).Accepted floats := members ▸ signed_accepted signature genuine valid
  have carried := fits.canonical distinct
  have plain : unsigned (.obj fields) =
      .obj (signedMembers signer.activeKeyId purpose tenantId nonce now ttlSeconds payload) :=
    members ▸ unsigned_signed
  have tag : (Json.obj fields).get? "signature" = some (.str signature) := members ▸ rfl
  have direct : ∃ key, verifier.ring.key? signer.activeKeyId = some key ∧
      ∃ signature, (Json.obj fields).get? "signature" = some (.str signature) ∧ b64urlDecode signature =
        .ok (verifier.ring.hmac key (canonicalBytes (unsigned (.obj fields)))) :=
    ⟨key, shared key found, signature, tag, by rw [plain, mac, decoded]⟩
  have relayed : ∃ key, verifier.ring.key? signer.activeKeyId = some key ∧
      ∃ signature, (Json.obj fields).canonical.get? "signature" = some (.str signature) ∧
        b64urlDecode signature =
          .ok (verifier.ring.hmac key (canonicalBytes (unsigned (Json.obj fields).canonical))) := by
    refine ⟨key, shared key found, signature, ?_, by rw [unsigned_canonical distinct, plain, mac, decoded]⟩
    rw [get?_canonical distinct, tag]
    rfl
  refine ⟨Json.loads_canonicalBytes sound, ?_, ?_⟩
  · intro clock expectedPurpose expectedTenantId after before purposed owned
    refine ⟨verify_ok.mpr ⟨_, fits, direct, purposed, owned, ⟨after, before⟩, rfl⟩, payload.canonical,
      verify_ok.mpr ⟨_, carried, relayed, purposed, owned, ⟨after, before⟩, rfl⟩, ?_⟩
    rw [Json.same_iff _ _ genuine.canonical genuine, Json.canonical_canonical]
  · intro clock expectedPurpose expectedTenantId untimely
    constructor
    · refine error_of_not_ok fun value ran => ?_
      obtain ⟨shape, shaped, _, _, _, timely, _⟩ := verify_ok.mp ran
      obtain rfl := shaped.unique fits
      exact untimely timely
    · refine error_of_not_ok fun value ran => ?_
      obtain ⟨shape, shaped, _, _, _, timely, _⟩ := verify_ok.mp ran
      obtain rfl := shaped.unique carried
      exact untimely timely

def unsignedMembers (envelope : Json) : List (String × Json) :=
  signedFields.filterMap fun name => (envelope.get? name).map fun value => (name, value)

theorem mem_unsignedMembers {envelope : Json} {name : String} {value : Json} :
    (name, value) ∈ unsignedMembers envelope ↔ name ∈ signedFields ∧ envelope.get? name = some value := by
  simp only [unsignedMembers, List.mem_filterMap, Option.map_eq_some_iff, Prod.mk.injEq]
  constructor
  · rintro ⟨_, field, _, found, rfl, rfl⟩
    exact ⟨field, found⟩
  · rintro ⟨field, found⟩
    exact ⟨name, field, value, found, rfl, rfl⟩

theorem unsignedMembers_distinct (envelope : Json) : ((unsignedMembers envelope).map Prod.fst).Nodup := by
  have sub : ((unsignedMembers envelope).map Prod.fst).Sublist signedFields := by
    unfold unsignedMembers
    induction signedFields with
    | nil => exact .slnil
    | cons name rest ih =>
        cases found : envelope.get? name with
        | none => simpa [found] using ih.cons name
        | some value => simpa [found] using ih.cons_cons name
  exact sub.nodup (by decide)

theorem get?_unsigned (envelope : Json) {name : String} (field : name ∈ signedFields) :
    (unsigned envelope).get? name = envelope.get? name := by
  ext value
  have member : (Json.obj (unsignedMembers envelope)).get? name = some value ↔ _ :=
    Json.get?_eq_some (unsignedMembers_distinct envelope)
  rw [mem_unsignedMembers] at member
  exact member.trans ⟨And.right, fun found => ⟨field, found⟩⟩

theorem Json.Genuine.field {floats : Floats} {value entry : Json} {name : String}
    (genuine : value.Genuine floats) (found : value.get? name = some entry) : entry.Genuine floats := by
  cases value with
  | obj members =>
      exact Json.genuine_member genuine.2 ((Json.get?_eq_some genuine.1).mp found)
  | _ => simp [Json.get?] at found

theorem unsigned_genuine {floats : Floats} {envelope : Json} (genuine : envelope.Genuine floats) :
    (unsigned envelope).Genuine floats := by
  refine ⟨unsignedMembers_distinct envelope, Json.genuineMembers_iff.mpr ?_⟩
  rintro ⟨name, value⟩ present
  exact genuine.field (mem_unsignedMembers.mp present).2

theorem EnvelopeShape.Fits.unsigned_valid {shape : EnvelopeShape} {envelope : Json}
    (fits : shape.Fits envelope) : (unsigned envelope).valid = true := by
  refine Json.validMembers_iff.mpr ?_
  rintro ⟨name, value⟩ present
  obtain ⟨field, found⟩ := mem_unsignedMembers.mp present
  simp only [signedFields, List.mem_cons, List.not_mem_nil, or_false] at field
  rcases field with rfl | rfl | rfl | rfl | rfl | rfl | rfl | rfl | rfl
  · have version := fits.version
    rw [found, Option.any_some] at version
    cases value with
    | float text =>
        have one : text = "1.0" := by simpa [equalsOne] using version
        subst one
        decide
    | arr => simp [equalsOne] at version
    | obj => simp [equalsOne] at version
    | _ => rfl
  · obtain rfl := Option.some.inj (found.symm.trans fits.algorithm)
    rfl
  · obtain rfl := Option.some.inj (found.symm.trans fits.keyId.1)
    rfl
  · obtain rfl := Option.some.inj (found.symm.trans fits.purpose.1)
    rfl
  · obtain rfl := Option.some.inj (found.symm.trans fits.tenantId.1)
    rfl
  · obtain rfl := Option.some.inj (found.symm.trans fits.issuedAt.1)
    rfl
  · obtain rfl := Option.some.inj (found.symm.trans fits.expiresAt.1)
    cases shape.expiresAt <;> rfl
  · obtain rfl := Option.some.inj (found.symm.trans fits.nonce.1)
    rfl
  · have payload := fits.payload
    rw [found, Option.getD_some] at payload
    exact payload.1 ▸ payload.2

/-- The tags of an envelope verify only for the bytes of an envelope in the log. -/
def Ideal (hmac : Bytes → Bytes → Bytes) (log : Bytes → Json → Prop) (presented : Json) : Prop :=
  ∀ signature key message, presented.get? "signature" = some (.str signature) →
    b64urlDecode signature = .ok (hmac key message) →
    ∃ signed, log key signed ∧ canonicalBytes (unsigned signed) = message

theorem accepted_signed {floats : Floats} {verifier : ReceiptVerifier} {log : Bytes → Json → Prop}
    (logged : ∀ key signed, log key signed →
      SignedBy verifier.ring.hmac key signed ∧ signed.Genuine floats)
    {presented : Json} (genuine : presented.Genuine floats)
    (ideal : Ideal verifier.ring.hmac log presented) {now : Int}
    {expectedPurpose expectedTenantId : Option String} {result : Json}
    (ran : verifier.verify now presented expectedPurpose expectedTenantId = .ok result) :
    ∃ keyId key signed, presented.get? "key_id" = some (.str keyId) ∧
      verifier.ring.key? keyId = some key ∧ log key signed ∧
      ∀ name ∈ signedFields, Option.Rel Json.Same (presented.get? name) (signed.get? name) := by
  obtain ⟨shape, fits, ⟨key, found, signature, tag, decoded⟩, _⟩ := verify_ok.mp ran
  obtain ⟨signed, held, bytes⟩ := ideal signature key _ tag decoded
  obtain ⟨⟨signer, time, nonce, payload, purpose, tenantId, ttlSeconds, _, _, made⟩, real⟩ :=
    logged key signed held
  have checked : (unsigned signed).valid = true := by
    obtain ⟨_, _, _, _, _, _, _, _, valid, rfl⟩ := sign_ok made
    rw [unsigned_signed]
    cases ttlSeconds <;> simp [signedMembers, Json.valid, Json.validMembers, Json.optional, valid]
  have same := Json.canonicalBytes_injective ⟨unsigned_genuine real, checked⟩
    ⟨unsigned_genuine genuine, fits.unsigned_valid⟩ bytes
  refine ⟨shape.keyId, key, signed, fits.keyId.1, found, held, fun name field => ?_⟩
  cases (Json.same_iff _ _ (unsigned_genuine genuine) (unsigned_genuine real)).mpr same.symm with
  | obj all =>
      have rel : Option.Rel Json.Same ((unsigned presented).get? name) ((unsigned signed).get? name) :=
        all name
      rwa [get?_unsigned presented field, get?_unsigned signed field] at rel

namespace Note

def members : List (String × Json) :=
  signedMembers "k1" "evidence" "tenant" "nonce" 100 (some 60) (.obj [])

def key : Bytes := List.replicate 32 7

def hmac (secret message : Bytes) : Bytes :=
  List.replicate 32 (if secret = key ∧ message = canonicalBytes (.obj members) then 1 else 0)

def signer : ReceiptSigner := ⟨⟨[("k1", key)], hmac⟩, "k1"⟩

def verifier : ReceiptVerifier := ⟨signer.ring, 30⟩

def signature : String := b64urlEncode (List.replicate 32 1)

def envelope : Json := .obj (members ++ [("signature", .str signature)])

theorem proper : signer.ring.Proper := by
  constructor
  · rintro keyId key found rfl
    simp [Keyring.key?, signer] at found
  · intro key message
    simp [signer, hmac]

theorem genuine : envelope.Genuine Floats.half :=
  ⟨by decide, trivial, trivial, trivial, trivial, trivial, trivial, trivial, trivial, ⟨by simp, trivial⟩,
    trivial, trivial⟩

theorem signed : signer.sign 100 "nonce" (.obj []) "evidence" "tenant" (some 60) = .ok envelope := by
  have tag : hmac key (canonicalBytes (.obj members)) = List.replicate 32 1 := by simp [hmac]
  unfold envelope signature
  rw [← tag]
  rfl

theorem ideal : Ideal hmac (fun secret signed => secret = key ∧ signed = envelope) envelope := by
  intro text secret message tag decoded
  obtain rfl : signature = text := by
    have same : envelope.get? "signature" = some (.str signature) := rfl
    simpa using same.symm.trans tag
  rw [signature, b64urlDecode_encode (by simp), Except.ok.injEq] at decoded
  have known : secret = key ∧ message = canonicalBytes (.obj members) := by
    by_contra unknown
    rw [hmac, if_neg unknown] at decoded
    exact absurd decoded (by decide)
  exact ⟨envelope, ⟨known.1, rfl⟩, by rw [known.2]; rfl⟩

end Note

end AgentTree
