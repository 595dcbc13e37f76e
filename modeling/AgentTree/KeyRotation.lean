import AgentTree.Keyrings

/-!
Rotations of a key ring file keep every key that it holds: what a rotation writes is read
back as the same keys and the new one, so that envelopes under earlier keys stay valid.
-/

namespace AgentTree

open Outcome Relational

/-! A key is read back from its text. -/

theorem base64Data_chars (values : List Nat) (small : ∀ n ∈ values, n < 64) (quadPos pads : Nat) (tail : Bytes) :
    base64Data quadPos pads (values.map base64Char ++ tail) =
      (base64Data (if values = [] then quadPos else (quadPos + values.length) % 4)
        (if values = [] then pads else 0) tail).map (values ++ ·) := by
  induction values generalizing quadPos pads with
  | nil => simp
  | cons n rest ih =>
      obtain ⟨_, other, value⟩ := base64Char_small n (small n List.mem_cons_self)
      have later := ih (fun m member => small m (List.mem_cons_of_mem n member)) ((quadPos + 1) % 4) 0
      have position : (if rest = [] then (quadPos + 1) % 4 else ((quadPos + 1) % 4 + rest.length) % 4) =
          (quadPos + (n :: rest).length) % 4 := by
        split
        next empty => simp [empty]
        next =>
          rw [List.length_cons]
          omega
      rw [position, ite_self] at later
      simp only [List.map_cons, List.cons_append, base64Data, other, ↓reduceIte, value, later, Option.map_map,
        reduceCtorEq]
      rfl

/-- The padding that completes a text of whole bytes ends it. -/
theorem base64Data_padding {length : Nat} (whole : length % 4 ≠ 1) :
    base64Data (length % 4) 0 (List.replicate ((4 - length % 4) % 4) 0x3d) = some [] := by
  have cases : length % 4 = 0 ∨ length % 4 = 2 ∨ length % 4 = 3 := by omega
  rcases cases with zero | two | three
  · rw [zero]; rfl
  · rw [two]; rfl
  · rw [three]; rfl

theorem urlsafeB64decode_encode (key : Bytes) : urlsafeB64decode (b64urlEncode key) = some key := by
  have small := base64Values_small key
  have chars : utf8 (b64urlEncode key) = (base64Values key).map base64Char := by
    rw [utf8_b64urlEncode, b64urlBytes_eq]
  have length : (b64urlEncode key).length = (base64Values key).length := by
    simp [b64urlEncode, asciiText, b64urlBytes_eq]
  have whole : (base64Values key).length % 4 ≠ 1 := by
    rw [base64Values_length]
    omega
  have ascii : ((base64Values key).map base64Char ++
      List.replicate ((4 - (base64Values key).length % 4) % 4) (0x3d : UInt8)).all (· < 0x80) = true := by
    rw [List.all_eq_true]
    intro b member
    rcases List.mem_append.mp member with char | pad
    · obtain ⟨n, present, rfl⟩ := List.mem_map.mp char
      exact decide_eq_true (UInt8.lt_iff_toNat_lt.mpr (base64Char_small n (small n present)).1)
    · rw [List.eq_of_mem_replicate pad]
      rfl
  have read : base64Data 0 0 ((base64Values key).map base64Char ++
      List.replicate ((4 - (base64Values key).length % 4) % 4) 0x3d) = some (base64Values key) := by
    rw [base64Data_chars _ small]
    have padded := base64Data_padding whole
    by_cases empty : base64Values key = []
    · rw [empty] at padded ⊢
      simpa using padded
    · rw [if_neg empty, if_neg empty, Nat.zero_add, padded]
      simp
  simp only [urlsafeB64decode, chars, length, ascii, ↓reduceIte, read, Option.map_some, base64Bytes_values]

/-! What is read from a file. -/

variable {floats : Floats} {path : String}

theorem privateJson_written {payload : Json} (genuine : payload.Genuine floats)
    (capped : (atomicPrivateJson payload).content.length ≤ maxPrivateJsonBytes) :
    privateJson floats path (some (atomicPrivateJson payload)) = .ok payload.canonical := by
  have private_mode : (0o600 : Nat) &&& sharedPermissions = 0 := by decide
  have size : (Json.dumps payload).length ≤ maxPrivateJsonBytes := capped
  have read : Json.loads floats (Json.dumps payload) = some payload.canonical := Json.loads_dumps genuine
  simp [privateJson, validatePrivateFile, atomicPrivateJson, orRaise, ensure, private_mode, size, read, bind,
    Except.bind]

theorem decodeKey_ok {keyId : String} {encoded : Json} {key : Bytes} :
    decodeKey keyId encoded = .ok key ↔
      ∃ text, encoded = .str text ∧ urlsafeB64decode text = some key ∧ 32 ≤ key.length := by
  cases encoded with
  | str text =>
      simp only [decodeKey, bind_eq_ok, orRaise_eq_ok, ensure_eq_ok, pure_eq_ok, decide_eq_true_eq, Json.str.injEq,
        Except.ok.injEq]
      constructor
      · rintro ⟨_, rfl, _, decoded, _, long, rfl⟩
        exact ⟨text, rfl, decoded, long⟩
      · rintro ⟨_, rfl, decoded, long⟩
        exact ⟨text, rfl, key, decoded, (), long, rfl⟩
  | _ => simp [decodeKey, bind_eq_ok]

theorem decodeKeys_long : ∀ {members : List (String × Json)} {keys result : Dict String Bytes},
    decodeKeys members keys = .ok result → (∀ entry ∈ keys.rows, 32 ≤ entry.2.length) →
    ∀ entry ∈ result.rows, 32 ≤ entry.2.length
  | [], keys, result, decoded, long => by
      obtain rfl := Except.ok.inj decoded
      exact long
  | (keyId, encoded) :: rest, keys, result, decoded, long => by
      simp only [decodeKeys, bind_eq_ok] at decoded
      obtain ⟨key, first, later⟩ := decoded
      obtain ⟨_, _, _, enough⟩ := decodeKey_ok.mp first
      refine decodeKeys_long later fun entry member => ?_
      rcases Dict.mem_set member with rfl | before
      · exact enough
      · exact long entry before

/-- The entry of a key ring as a rotation writes it. -/
def writtenEntry (entry : String × Bytes) : String × Json := (entry.1, .str (b64urlEncode entry.2))

theorem decodeKeys_written : ∀ (entries : List (String × Bytes)) (keys : Dict String Bytes),
    (∀ entry ∈ entries, 32 ≤ entry.2.length) →
    decodeKeys (entries.map writtenEntry) keys =
      .ok (entries.foldl (fun dict entry => dict.set entry.1 entry.2) keys)
  | [], keys, _ => rfl
  | (keyId, key) :: rest, keys, long => by
      have first : decodeKey keyId (.str (b64urlEncode key)) = .ok key :=
        decodeKey_ok.mpr ⟨_, rfl, urlsafeB64decode_encode key, long (keyId, key) List.mem_cons_self⟩
      have later := decodeKeys_written rest (keys.set keyId key) fun entry member =>
        long entry (List.mem_cons_of_mem _ member)
      rw [List.map_cons, writtenEntry, decodeKeys, first, List.foldl_cons, ← later]
      rfl

theorem keyringMembers_ok {value : Json} {active : String} {rawKeys : List (String × Json)} :
    keyringMembers value = .ok (active, rawKeys) ↔
      value.get? "active_key_id" = some (.str active) ∧ value.get? "keys" = some (.obj rawKeys) ∧
        (rawKeys.any fun entry => entry.1 = active) = true := by
  cases value with
  | obj members =>
      simp only [keyringMembers]
      split
      next current raw named listed =>
        simp only [bind_eq_ok, ensure_eq_ok, pure_eq_ok, Prod.mk.injEq, named, listed, Option.some.injEq, Json.str.injEq,
          Json.obj.injEq]
        constructor
        · rintro ⟨_, present, rfl, rfl⟩
          exact ⟨rfl, rfl, present⟩
        · rintro ⟨rfl, rfl, present⟩
          exact ⟨(), present, rfl, rfl⟩
      next other =>
        constructor
        · simp
        · rintro ⟨named, listed, _⟩
          exact absurd listed (other _ _ named)
  | _ => simp [keyringMembers, Json.get?]

theorem loadKeyring_ok {file : Option SecretFile} {keys : Dict String Bytes} {active : String} :
    loadKeyring floats path file = .ok (keys, active) ↔
      ∃ value rawKeys, privateJson floats path file = .ok value ∧
        keyringMembers value = .ok (active, rawKeys) ∧ decodeKeys rawKeys Table.empty = .ok keys := by
  simp only [loadKeyring, bind_eq_ok, pure_eq_ok, Prod.mk.injEq]
  constructor
  · rintro ⟨value, read, ⟨_, rawKeys⟩, members, _, decoded, rfl, rfl⟩
    exact ⟨value, rawKeys, read, members, decoded⟩
  · rintro ⟨value, rawKeys, read, members, decoded⟩
    exact ⟨value, read, (active, rawKeys), members, keys, decoded, rfl, rfl⟩

theorem loadKeyring_long {file : Option SecretFile} {keys : Dict String Bytes} {active : String}
    (loaded : loadKeyring floats path file = .ok (keys, active)) : ∀ entry ∈ keys.rows, 32 ≤ entry.2.length := by
  obtain ⟨_, _, _, _, decoded⟩ := loadKeyring_ok.mp loaded
  exact decodeKeys_long decoded (by simp [Table.empty])

/-! One rotation. -/

section Payload

variable {keys : Dict String Bytes} {active : String}

theorem written_distinct : ((keys.sorted.rows.map writtenEntry).map Prod.fst).Nodup := by
  have unique := keys.sorted.unique
  simpa [List.map_map, Function.comp_def, writtenEntry] using unique

theorem keyringPayload_genuine : (keyringPayload active keys).Genuine floats := by
  have texts : Json.GenuineMembers floats (keys.sorted.rows.map writtenEntry) := by
    rw [Json.genuineMembers_iff]
    intro member present
    obtain ⟨entry, _, rfl⟩ := List.mem_map.mp present
    trivial
  exact ⟨by simp, trivial, ⟨written_distinct, texts⟩, trivial⟩

/-- The keys of the file are written in the order of their names. -/
theorem sortedMembers_written (entries : List (String × Bytes)) :
    ∃ order : List (String × Bytes), order.Perm entries ∧
      Json.sortedMembers (entries.map writtenEntry) = order.map writtenEntry := by
  refine ⟨entries.insertionSort fun a b => Json.nameOrder a.1 ≤ Json.nameOrder b.1, List.perm_insertionSort _ _, ?_⟩
  have texts : Json.canonicalMembers (entries.map writtenEntry) = entries.map writtenEntry := by
    rw [Json.canonicalMembers_eq, List.map_map]
    rfl
  rw [Json.sortedMembers, texts]
  exact (List.map_insertionSort (fun a b => Json.nameOrder a.1 ≤ Json.nameOrder b.1)
    (fun a b => Json.nameOrder a.1 ≤ Json.nameOrder b.1) writtenEntry entries fun _ _ _ _ => Iff.rfl).symm

theorem loadKeyring_written (long : ∀ entry ∈ keys.rows, 32 ≤ entry.2.length) (present : active ∈ keys.keys)
    (capped : (atomicPrivateJson (keyringPayload active keys)).content.length ≤ maxPrivateJsonBytes) :
    ∃ next : Dict String Bytes,
      loadKeyring floats path (some (atomicPrivateJson (keyringPayload active keys))) = .ok (next, active) ∧
      next.rows.Perm keys.rows := by
  obtain ⟨order, perm, sorted⟩ := sortedMembers_written keys.sorted.rows
  have same : order.Perm keys.rows := perm.trans (List.perm_insertionSort _ _)
  have distinct : (order.map Prod.fst).Nodup := (same.map Prod.fst).nodup_iff.mpr keys.unique
  have members : [("active_key_id", Json.str active),
      ("keys", .obj (keys.sorted.rows.map writtenEntry))].map Prod.fst = ["active_key_id", "keys"] := rfl
  have names : ([("active_key_id", Json.str active),
      ("keys", .obj (keys.sorted.rows.map writtenEntry))].map Prod.fst).Nodup := by
    rw [members]
    decide
  have named : (keyringPayload active keys).canonical.get? "active_key_id" = some (.str active) :=
    get?_canonical names "active_key_id"
  have listed : (keyringPayload active keys).canonical.get? "keys" = some (.obj (order.map writtenEntry)) := by
    rw [← sorted]
    exact get?_canonical names "keys"
  have chosen : ((order.map writtenEntry).any fun entry => entry.1 = active) = true := by
    obtain ⟨entry, member, rfl⟩ := List.mem_map.mp present
    rw [List.any_eq_true]
    exact ⟨writtenEntry entry, List.mem_map_of_mem (same.mem_iff.mpr member), by simp [writtenEntry]⟩
  have decoded := decodeKeys_written order Table.empty fun entry member => long entry (same.mem_iff.mp member)
  refine ⟨Dict.ofList order, loadKeyring_ok.mpr ⟨_, _, privateJson_written keyringPayload_genuine capped,
    keyringMembers_ok.mpr ⟨named, listed, chosen⟩, decoded⟩, ?_⟩
  rw [Dict.rows_ofList distinct]
  exact same

end Payload

/-- The entry that a rotation adds. -/
def Draw.entry (draw : Draw) : String × Bytes := (draw.keyId, draw.key)

theorem Draw.keyId_nonempty (draw : Draw) : draw.keyId ≠ "" := by
  intro empty
  have length := congrArg String.length empty
  simp [Draw.keyId] at length

theorem rotateKeyring_loaded {file : Option SecretFile} {keys : Dict String Bytes} {active : String}
    (loaded : loadKeyring floats path file = .ok (keys, active)) (draw : Draw) :
    rotateKeyring floats path draw file =
      .ok (draw.keyId, atomicPrivateJson (keyringPayload draw.keyId (keys.set draw.keyId draw.key))) := by
  simp only [rotateKeyring, loaded, bind, Except.bind, pure, Except.pure]

/-- A rotation with a fresh name keeps every key and adds its own, which is active. -/
theorem rotateKeyring_keeps {file : Option SecretFile} {keys : Dict String Bytes} {active : String}
    (loaded : loadKeyring floats path file = .ok (keys, active)) (draw : Draw) (fresh : draw.keyId ∉ keys.keys) :
    ∃ after, rotateKeyring floats path draw file = .ok (draw.keyId, after) ∧
      (after.content.length ≤ maxPrivateJsonBytes →
        ∃ next, loadKeyring floats path (some after) = .ok (next, draw.keyId) ∧
          next.rows.Perm (keys.rows ++ [draw.entry])) := by
  refine ⟨_, rotateKeyring_loaded loaded draw, fun capped => ?_⟩
  have absent : keys.contains draw.keyId = false := by
    rw [← Bool.not_eq_true, Dict.contains_iff]
    exact fresh
  have extended : (keys.set draw.keyId draw.key).rows = keys.rows ++ [draw.entry] := by
    rw [Dict.rows_set, absent]
    rfl
  have long : ∀ entry ∈ (keys.set draw.keyId draw.key).rows, 32 ≤ entry.2.length := by
    intro entry member
    rcases Dict.mem_set member with rfl | before
    · exact draw.long.ge
    · exact loadKeyring_long loaded entry before
  have present : draw.keyId ∈ (keys.set draw.keyId draw.key).keys := by
    rw [← Dict.contains_iff, Dict.contains, Dict.get?_set, if_pos rfl]
    rfl
  rw [← extended]
  exact loadKeyring_written long present capped

/-! Any number of rotations. -/

/-- The file that rotations lead to, each of them within the size that is read. -/
inductive Rotations (floats : Floats) (path : String) (file : SecretFile) : List Draw → SecretFile → Prop
  | start : Rotations floats path file [] file
  | rotate {draws : List Draw} {draw : Draw} {before after : SecretFile} {keyId : String} :
      Rotations floats path file draws before →
      rotateKeyring floats path draw (some before) = .ok (keyId, after) →
      after.content.length ≤ maxPrivateJsonBytes → Rotations floats path file (draws ++ [draw]) after

def activeAfter (active : String) (draws : List Draw) : String := (draws.getLast?.map Draw.keyId).getD active

section Runs

variable {file latest : SecretFile} {keys : Dict String Bytes} {active : String} {draws : List Draw}

theorem keys_of_perm {held : Dict String Bytes} (kept : held.rows.Perm (keys.rows ++ draws.map Draw.entry)) :
    held.keys.Perm (keys.keys ++ draws.map Draw.keyId) := by
  have names := kept.map Prod.fst
  rw [List.map_append, List.map_map] at names
  exact names

theorem rotations_keep (loaded : loadKeyring floats path (some file) = .ok (keys, active))
    (run : Rotations floats path file draws latest) (fresh : (keys.keys ++ draws.map Draw.keyId).Nodup) :
    ∃ held, loadKeyring floats path (some latest) = .ok (held, activeAfter active draws) ∧
      held.rows.Perm (keys.rows ++ draws.map Draw.entry) := by
  induction run with
  | start => exact ⟨keys, loaded, by simp⟩
  | @rotate draws draw before after keyId _ rotated capped ih =>
      rw [List.map_append, ← List.append_assoc] at fresh
      obtain ⟨held, read, kept⟩ := ih (List.nodup_append.mp fresh).1
      have unused : draw.keyId ∉ held.keys := by
        intro taken
        have apart := (List.nodup_append.mp fresh).2.2 draw.keyId ((keys_of_perm kept).mem_iff.mp taken)
        exact apart draw.keyId (by simp) rfl
      obtain ⟨file, made, reloads⟩ := rotateKeyring_keeps read draw unused
      obtain ⟨_, rfl⟩ := Prod.mk.inj (Except.ok.inj (rotated.symm.trans made))
      obtain ⟨next, reread, extended⟩ := reloads capped
      refine ⟨next, ?_, ?_⟩
      · rw [reread]
        simp [activeAfter]
      · rw [List.map_append, ← List.append_assoc]
        exact extended.trans (kept.append_right _)

theorem validateKeyring_ok : validateKeyring keys = .ok () ↔
    keys.rows ≠ [] ∧ ∀ entry ∈ keys.rows, entry.1 ≠ "" ∧ 32 ≤ entry.2.length := by
  simp only [validateKeyring, bind_eq_ok, ensure_eq_ok, decide_eq_true_eq, forM_eq_ok]
  constructor
  · rintro ⟨_, nonempty, sound⟩
    exact ⟨nonempty, fun entry member => (sound entry member).elim fun _ named => named⟩
  · rintro ⟨nonempty, sound⟩
    exact ⟨(), nonempty, fun entry member => ⟨(), sound entry member⟩⟩

theorem receiptSigner_ok {hmac : Bytes → Bytes → Bytes} {signer : ReceiptSigner} :
    receiptSigner hmac keys active = .ok signer ↔
      validateKeyring keys = .ok () ∧ keys.contains active = true ∧ signer = ⟨⟨keys.rows, hmac⟩, active⟩ := by
  simp only [receiptSigner, bind_eq_ok, ensure_eq_ok, pure_eq_ok]
  constructor
  · rintro ⟨_, valid, _, present, rfl⟩
    exact ⟨valid, present, rfl⟩
  · rintro ⟨valid, present, rfl⟩
    exact ⟨(), valid, (), present, rfl⟩

/-- A verifier of the newer ring stands, and it knows every key of the signer. -/
theorem receiptVerifier_keeps {hmac : Bytes → Bytes → Bytes} {held : Dict String Bytes} {signer : ReceiptSigner}
    {clockSkewSeconds : Int} (kept : held.rows.Perm (keys.rows ++ draws.map Draw.entry))
    (made : receiptSigner hmac keys active = .ok signer) (skew : 0 ≤ clockSkewSeconds) :
    ∃ verifier, receiptVerifier hmac held clockSkewSeconds = .ok verifier ∧
      verifier.ring.hmac = signer.ring.hmac ∧
      ∀ keyId key, signer.ring.key? keyId = some key → verifier.ring.key? keyId = some key := by
  obtain ⟨valid, _, rfl⟩ := receiptSigner_ok.mp made
  obtain ⟨nonempty, sound⟩ := validateKeyring_ok.mp valid
  have still : validateKeyring held = .ok () := by
    refine validateKeyring_ok.mpr ⟨?_, fun entry member => ?_⟩
    · intro empty
      rw [empty] at kept
      exact nonempty (List.append_eq_nil_iff.mp kept.symm.eq_nil).1
    · rcases List.mem_append.mp (kept.mem_iff.mp member) with old | drawn
      · exact sound entry old
      · obtain ⟨draw, _, rfl⟩ := List.mem_map.mp drawn
        exact ⟨draw.keyId_nonempty, draw.long.ge⟩
  refine ⟨⟨⟨held.rows, hmac⟩, clockSkewSeconds⟩, ?_, rfl, fun keyId key found => ?_⟩
  · simp [receiptVerifier, still, skew, ensure, bind, Except.bind, pure, Except.pure]
  · have member : (keyId, key) ∈ keys.rows := Dict.get?_eq_some.mp found
    exact Dict.get?_eq_some.mpr (kept.mem_iff.mpr (List.mem_append_left _ member))

end Runs

/-- After any number of rotations the file holds the first keys and those drawn since, the last one
active; the next rotation adds one key; and what was signed from any earlier file is still valid. -/
theorem keyring_rotations (floats : Floats) (path : String) (file latest : SecretFile)
    (keys : Dict String Bytes) (active : String) (draws : List Draw)
    (loaded : loadKeyring floats path (some file) = .ok (keys, active))
    (run : Rotations floats path file draws latest) (fresh : (keys.keys ++ draws.map Draw.keyId).Nodup) :
    ∃ held : Dict String Bytes,
      loadKeyring floats path (some latest) = .ok (held, activeAfter active draws) ∧
      held.rows.Perm (keys.rows ++ draws.map Draw.entry) ∧
      (∀ draw : Draw, draw.keyId ∉ held.keys →
        ∃ after, rotateKeyring floats path draw (some latest) = .ok (draw.keyId, after) ∧
          (after.content.length ≤ maxPrivateJsonBytes →
            ∃ next, loadKeyring floats path (some after) = .ok (next, draw.keyId) ∧
              next.rows.Perm (held.rows ++ [draw.entry]) ∧ 32 ≤ draw.key.length)) ∧
      ∀ (hmac : Bytes → Bytes → Bytes) (clockSkewSeconds : Int) (first more : List Draw) (earlier : SecretFile)
        (old : Dict String Bytes) (oldActive : String) (signer : ReceiptSigner),
        (∀ key message, (hmac key message).length = 32) → 0 ≤ clockSkewSeconds →
        draws = first ++ more → Rotations floats path file first earlier →
        loadKeyring floats path (some earlier) = .ok (old, oldActive) →
        receiptSigner hmac old oldActive = .ok signer →
        ∃ verifier, receiptVerifier hmac held clockSkewSeconds = .ok verifier ∧
          ∀ now nonce payload purpose tenantId ttlSeconds envelope, payload.Genuine floats →
            signer.sign now nonce payload purpose tenantId ttlSeconds = .ok envelope →
            Complete floats verifier envelope payload purpose tenantId now (ttlSeconds.map (now + ·)) := by
  obtain ⟨held, read, kept⟩ := rotations_keep loaded run fresh
  refine ⟨held, read, kept, fun draw unused => ?_, ?_⟩
  · obtain ⟨after, rotated, reloads⟩ := rotateKeyring_keeps read draw unused
    refine ⟨after, rotated, fun capped => ?_⟩
    obtain ⟨next, reread, extended⟩ := reloads capped
    exact ⟨next, reread, extended, draw.long.ge⟩
  · intro hmac clockSkewSeconds first more earlier old oldActive signer digest skew split before reopened made
    subst split
    rw [List.map_append, ← List.append_assoc] at fresh
    obtain ⟨known, opened, entries⟩ := rotations_keep loaded before (List.nodup_append.mp fresh).1
    obtain ⟨rfl, rfl⟩ := Prod.mk.inj (Except.ok.inj (opened.symm.trans reopened))
    have since : held.rows.Perm (known.rows ++ more.map Draw.entry) := by
      rw [List.map_append, ← List.append_assoc] at kept
      exact kept.trans (entries.symm.append_right _)
    obtain ⟨verifier, stands, mac, knows⟩ := receiptVerifier_keeps since made skew
    obtain ⟨valid, _, rfl⟩ := receiptSigner_ok.mp made
    have proper : Keyring.Proper ⟨known.rows, hmac⟩ := by
      refine ⟨fun keyId key found => ?_, digest⟩
      have member : (keyId, key) ∈ known.rows := Dict.get?_eq_some.mp found
      exact ((validateKeyring_ok.mp valid).2 _ member).1
    exact ⟨verifier, stands, fun _ _ _ _ _ _ _ genuine signed =>
      signed_complete mac (knows _) proper genuine signed⟩

/-! A file whose one key is written with padding, among spaces. -/

namespace KeyringSample

def encoded : String := "QUFBQUFBQUFBQUFBQUFBQUFBQUFBQUFBQUFBQUFBQUE="

def value : Json := .obj [("active_key_id", .str "k0"), ("keys", .obj [("k0", .str encoded)])]

def content : Bytes := utf8 ("\x7b\"active_key_id\": \"k0\", \"keys\": \x7b\"k0\": \"" ++ encoded ++ "\"\x7d\x7d")

def file : SecretFile := ⟨.regular, 0o600, content⟩

def keys : Dict String Bytes := ⟨[("k0", List.replicate 32 0x41)], by simp⟩

def draw : Draw := ⟨"0f", List.replicate 32 7, by simp⟩

def rotated : SecretFile := atomicPrivateJson (keyringPayload draw.keyId (keys.set draw.keyId draw.key))

theorem loaded : loadKeyring Floats.half "keys.json" (some file) = .ok (keys, "k0") := by
  have size : content.length ≤ maxPrivateJsonBytes := by decide +kernel
  have mode : (0o600 : Nat) &&& sharedPermissions = 0 := by decide
  have read : Json.loads Floats.half content = some value := rfl
  have taken : privateJson Floats.half "keys.json" (some file) = .ok value := by
    simp [privateJson, file, validatePrivateFile, orRaise, ensure, mode, size, read, bind, Except.bind]
  have decoded : urlsafeB64decode encoded = some (List.replicate 32 0x41) := by decide +kernel
  have key : decodeKey "k0" (.str encoded) = .ok (List.replicate 32 0x41) :=
    decodeKey_ok.mpr ⟨encoded, rfl, decoded, by simp⟩
  refine loadKeyring_ok.mpr ⟨value, [("k0", .str encoded)], taken, keyringMembers_ok.mpr ⟨rfl, rfl, rfl⟩, ?_⟩
  rw [decodeKeys, key]
  rfl

theorem run : Rotations Floats.half "keys.json" file [draw] rotated :=
  .rotate .start (rotateKeyring_loaded loaded draw) (by decide +kernel)

end KeyringSample

open KeyringSample in
theorem keyring_rotations_sample : ∃ held : Dict String Bytes,
    loadKeyring Floats.half "keys.json" (some rotated) = .ok (held, "k-0f") ∧
      held.rows.Perm [("k0", List.replicate 32 0x41), ("k-0f", List.replicate 32 7)] := by
  obtain ⟨held, read, kept, _⟩ := keyring_rotations Floats.half "keys.json" file rotated keys "k0" [draw] loaded run
    (by decide)
  exact ⟨held, read, kept⟩

end AgentTree
