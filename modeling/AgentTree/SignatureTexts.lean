import AgentTree.Receipts
import Mathlib.Data.List.TakeWhile

/-!
The signature texts that `_b64url_decode` takes for one digest, and so the envelopes that the verifier
takes for one tuple of signed fields: the text that the signer writes, and other spellings of it.
-/

namespace AgentTree

open Outcome

/-! What is read of a text that decodes to a digest. -/

theorem mapM_eq_some {α β : Type} {items : List α} {read : α → Option β} {results : List β} :
    items.mapM read = some results ↔ List.Forall₂ (fun item result => read item = some result) items results := by
  induction items generalizing results with
  | nil => simp [eq_comm]
  | cons item rest ih =>
      simp only [List.mapM_cons, Option.bind_eq_bind, Option.bind_eq_some_iff, Option.pure_def, ih,
        Option.some.injEq, List.forall₂_cons_left_iff]
      constructor
      · rintro ⟨first, found, others, loop, rfl⟩
        exact ⟨first, others, found, loop, rfl⟩
      · rintro ⟨first, others, found, loop, rfl⟩
        exact ⟨first, found, others, loop, rfl⟩

theorem base64Value_lt {b : UInt8} {n : Nat} (value : base64Value b = some n) : n < 64 := by
  simp only [base64Value] at value
  split_ifs at value
  · simp only [Option.some.injEq] at value
    omega
  · simp only [Option.some.injEq] at value
    omega
  · obtain ⟨inside, -⟩ := List.findIdx?_eq_some_iff_getElem.mp value
    exact inside

theorem base64Char_value : ∀ b ∈ base64Alphabet, ∀ n ∈ base64Value b, base64Char n = b := by
  decide +kernel

theorem base64Alphabet_value : ∀ b ∈ base64Alphabet, b ≠ 0x3d ∧ (base64Value b).isSome := by
  decide +kernel

theorem base64Char_mem : ∀ n < 64, base64Char n ∈ base64Alphabet := by decide +kernel

theorem base64Bytes_length : (values : List Nat) → (base64Bytes values).length = values.length * 3 / 4
  | [] | [_] | [_, _] | [_, _, _] => by simp [base64Bytes]
  | a :: b :: c :: d :: rest => by
      have later := base64Bytes_length rest
      simp only [base64Bytes, List.length_cons, later]
      omega

theorem values_small {body : Bytes} {values : List Nat}
    (each : List.Forall₂ (fun b n => base64Value b = some n) body values) : ∀ n ∈ values, n < 64 := by
  induction each with
  | nil => simp
  | cons value _ ih => exact List.forall_mem_cons.mpr ⟨base64Value_lt value, ih⟩

theorem values_chars {body : Bytes} {values : List Nat}
    (each : List.Forall₂ (fun b n => base64Value b = some n) body values)
    (alphabet : ∀ b ∈ body, b ∈ base64Alphabet) : values.map base64Char = body := by
  induction each with
  | nil => rfl
  | cons value _ ih =>
      obtain ⟨first, rest⟩ := List.forall_mem_cons.mp alphabet
      rw [List.map_cons, base64Char_value _ first _ value, ih rest]

/-- Values that end in the middle of a byte are those of the bytes they make when nothing is left over. -/
theorem base64Values_bytes : {values : List Nat} → (∀ n ∈ values, n < 64) → values.length % 4 = 3 →
    (∀ n ∈ values.getLast?, n % 4 = 0) → base64Values (base64Bytes values) = values
  | [a, b, c], small, _, even => by
      simp only [List.mem_cons, forall_eq_or_imp] at small
      have last : c % 4 = 0 := even c rfl
      simp only [base64Bytes, base64Values, UInt8.toNat_ofNat', List.cons.injEq, and_true]
      omega
  | a :: b :: c :: d :: e :: rest, small, ends, even => by
      have group := List.forall_mem_cons.mp small
      have later : base64Values (base64Bytes (e :: rest)) = e :: rest :=
        base64Values_bytes (fun n member => small n (by simp [member]))
          (by simpa [Nat.add_assoc, Nat.add_mod] using ends) (by simpa using even)
      simp only [List.mem_cons, forall_eq_or_imp] at small
      simp only [base64Bytes] at later ⊢
      simp only [base64Values, later, UInt8.toNat_ofNat', List.cons.injEq, and_true]
      omega
  | [], _, ends, _ | [_], _, ends, _ | [_, _], _, ends, _ | [_, _, _, _], _, ends, _ => by simp at ends

/-- What is written for bytes that end in the middle of a group leaves two bits unused, as zeros. -/
theorem base64Values_last : {value : Bytes} → value.length % 3 = 2 →
    ∀ n ∈ (base64Values value).getLast?, n % 4 = 0
  | [a, b], _ => by simp [base64Values]
  | a :: b :: c :: d :: rest, ends => by
      have later : ∀ n ∈ (base64Values (d :: rest)).getLast?, n % 4 = 0 :=
        base64Values_last (by simp only [List.length_cons] at ends ⊢; omega)
      have more : base64Values (d :: rest) ≠ [] := by
        intro none
        have := congrArg List.length none
        simp only [base64Values_length, List.length_nil, List.length_cons] at this
        omega
      simpa [base64Values, List.getLast?_cons_of_ne_nil, more] using later
  | [], ends | [_], ends | [_, _, _], ends => by simp at ends

/-- The padding that completes 43 characters, or that is there already. -/
theorem padded_iff {chars body : Bytes} (long : body.length = 43) (plain : ∀ b ∈ body, b ≠ 0x3d) :
    chars ++ List.replicate ((4 - chars.length % 4) % 4) 0x3d = body ++ [0x3d] ↔
      chars = body ∨ chars = body ++ [0x3d] := by
  constructor
  · intro same
    have total := congrArg List.length same
    simp only [List.length_append, List.length_replicate, List.length_singleton, long] at total
    generalize (4 - chars.length % 4) % 4 = missing at same total
    match missing with
    | 0 => exact .inr (by simpa using same)
    | 1 => exact .inl (List.append_cancel_right same)
    | more + 2 =>
        -- a second padding character would stand inside the body
        rw [List.replicate_succ', ← List.append_assoc] at same
        have inside : (0x3d : UInt8) ∈ body := by
          rw [← List.append_cancel_right same]
          simp
        exact absurd rfl (plain _ inside)
  · rintro (rfl | rfl)
    · simp [long]
    · simp [long]

theorem takeWhile_body {body : Bytes} (plain : ∀ b ∈ body, b ≠ 0x3d) :
    (body ++ [0x3d]).takeWhile (fun b => b ≠ 0x3d) = body ∧
      (body ++ [0x3d]).dropWhile (fun b => b ≠ 0x3d) = [0x3d] := by
  have all : ∀ b ∈ body, (decide (b ≠ 0x3d)) = true := by simpa using plain
  rw [List.takeWhile_append_of_pos all, List.dropWhile_append_of_pos all]
  simp

/-- A digest is decoded from 43 characters with a value, and from the padding character after them. -/
theorem b64urlDecode_ok {text : String} {decoded : Bytes} (digest : decoded.length = 32) :
    b64urlDecode text = .ok decoded ↔ ∃ body values, (utf8 text = body ∨ utf8 text = body ++ [0x3d]) ∧
      (∀ b ∈ body, b ≠ 0x3d) ∧ List.Forall₂ (fun b n => base64Value b = some n) body values ∧
      body.length = 43 ∧ base64Bytes values = decoded := by
  simp only [b64urlDecode, bind_eq_ok, ensure_eq_ok, pure_eq_ok, Bool.and_eq_true, decide_eq_true_eq,
    List.all_eq_true]
  constructor
  · rintro ⟨_, -, _, ⟨⟨padding, short⟩, valued⟩, _, -, same⟩
    generalize padded : utf8 text ++ List.replicate ((4 - (utf8 text).length % 4) % 4) 0x3d = chars at *
    generalize body : chars.takeWhile (fun b => decide (b ≠ 0x3d)) = taken at *
    generalize rest : chars.dropWhile (fun b => decide (b ≠ 0x3d)) = dropped at *
    obtain ⟨values, read⟩ := Option.isSome_iff_exists.mp valued
    rw [read, Option.getD_some] at same
    have each := mapM_eq_some.mp read
    have plain : ∀ b ∈ taken, b ≠ 0x3d := by
      intro b member
      have kept := List.mem_takeWhile_imp (body ▸ member)
      exact of_decide_eq_true kept
    have parts : chars = taken ++ dropped := by
      rw [← body, ← rest, List.takeWhile_append_dropWhile]
    have count := (base64Bytes_length values).symm.trans (same ▸ digest)
    have whole : (taken.length + dropped.length) % 4 = 0 := by
      rw [← List.length_append, ← parts, ← padded, List.length_append, List.length_replicate]
      omega
    have width := each.length_eq
    have long : taken.length = 43 := by omega
    have one : dropped = [0x3d] := by
      obtain ⟨b, rfl⟩ := List.length_eq_one_iff.mp (show dropped.length = 1 by omega)
      rw [padding b (by simp)]
    rw [parts, one] at padded
    exact ⟨taken, values, (padded_iff long plain).mp padded, plain, each, long, same⟩
  · rintro ⟨body, values, spelled, plain, each, long, rfl⟩
    have nonempty : text ≠ "" := by
      rintro rfl
      obtain same | same := spelled
      · rw [← same] at long
        simp [utf8] at long
      · simpa [utf8] using congrArg List.length same
    obtain ⟨taken, dropped⟩ := takeWhile_body plain
    rw [(padded_iff long plain).mpr spelled, taken, dropped, mapM_eq_some.mpr each]
    exact ⟨(), nonempty, (), by simp, (), by simpa using digest, by simp⟩

/-! The spelling that the signer writes. -/

/-- Only the characters of base64url, the last of which leaves two bits unused, as zeros. -/
def Canonical (text : String) : Prop :=
  (∀ b ∈ utf8 text, b ∈ base64Alphabet) ∧
    ∀ b ∈ (utf8 text).getLast?, ∀ n ∈ base64Value b, n % 4 = 0

/-- Of the texts that decode to a digest, the one that `b64urlEncode` writes is the canonical one. -/
theorem canonical_iff {text : String} {decoded : Bytes} (digest : decoded.length = 32)
    (accepted : b64urlDecode text = .ok decoded) : text = b64urlEncode decoded ↔ Canonical text := by
  constructor
  · rintro rfl
    have spelled := utf8_b64urlEncode decoded
    rw [b64urlBytes_eq] at spelled
    constructor
    · intro b member
      rw [spelled, List.mem_map] at member
      obtain ⟨n, present, rfl⟩ := member
      exact base64Char_mem n (base64Values_small decoded n present)
    · intro b last n value
      rw [spelled, List.getLast?_map, Option.mem_map] at last
      obtain ⟨m, final, rfl⟩ := last
      have small := base64Values_small decoded m (List.mem_of_getLast? final)
      rw [(base64Char_small m small).2.2] at value
      obtain rfl := Option.mem_some.mp value
      exact base64Values_last (by omega) m final
  · rintro ⟨alphabet, last⟩
    obtain ⟨body, values, spelled, plain, each, long, rfl⟩ := (b64urlDecode_ok digest).mp accepted
    have bare : utf8 text = body := by
      refine spelled.resolve_right fun padded => ?_
      exact (base64Alphabet_value _ (alphabet 0x3d (by rw [padded]; simp))).1 rfl
    have width := each.length_eq
    have small := values_small each
    have chars := values_chars each (by rwa [bare] at alphabet)
    have again : base64Values (base64Bytes values) = values := by
      refine base64Values_bytes small (by omega) fun n final => last (base64Char n) ?_ n ?_
      · rw [bare, ← chars, List.getLast?_map]
        exact Option.mem_map_of_mem _ final
      · exact (base64Char_small n (small n (List.mem_of_getLast? final))).2.2
    apply Json.utf8_injective
    rw [utf8_b64urlEncode, b64urlBytes_eq, again, chars, bare]

theorem b64urlEncode_long {value : Bytes} (digest : value.length = 32) : (b64urlBytes value).length = 43 := by
  rw [b64urlBytes_eq, List.length_map, base64Values_length, digest]

theorem b64urlDecode_length {text : String} {decoded : Bytes} (accepted : b64urlDecode text = .ok decoded) :
    decoded.length = 32 := by
  simp only [b64urlDecode, bind_eq_ok, ensure_eq_ok, pure_eq_ok, decide_eq_true_eq] at accepted
  obtain ⟨_, -, _, -, _, digest, rfl⟩ := accepted
  exact digest

/-- The canonical text followed by the padding character that the decoder would add. -/
theorem b64urlDecode_padded {value : Bytes} (digest : value.length = 32) :
    b64urlDecode (b64urlEncode value ++ "=") = .ok value := by
  obtain ⟨body, values, spelled, plain, rest⟩ := (b64urlDecode_ok digest).mp (b64urlDecode_encode digest)
  have bare : utf8 (b64urlEncode value) = body := by
    refine spelled.resolve_right fun padded => ?_
    have long := congrArg List.length padded
    rw [utf8_b64urlEncode, b64urlEncode_long digest, List.length_append, rest.2.1] at long
    simp at long
  refine (b64urlDecode_ok digest).mpr ⟨body, values, .inr ?_, plain, rest⟩
  rw [Json.utf8_append, bare]
  rfl

/-! Envelopes that differ in the spelling of the signature only. -/

/-- The member with another text, if it is the signature. -/
def respelled (text : String) (member : String × Json) : String × Json :=
  if member.1 = "signature" then (member.1, .str text) else member

theorem respelled_name (text : String) (member : String × Json) : (respelled text member).1 = member.1 := by
  unfold respelled
  split <;> rfl

/-- The envelope with another text for its signature. -/
def withSignature (envelope : Json) (text : String) : Json :=
  match envelope with
  | .obj members => .obj (members.map (respelled text))
  | value => value

theorem get?_withSignature (envelope : Json) (text name : String) :
    (withSignature envelope text).get? name =
      if name = "signature" then (envelope.get? name).map fun _ => .str text else envelope.get? name := by
  cases envelope with
  | obj members =>
      have names : ((fun member : String × Json => decide (member.1 = name)) ∘ respelled text) =
          fun member => decide (member.1 = name) := by
        funext member
        simp only [Function.comp_apply, respelled_name]
      simp only [withSignature, Json.get?, List.find?_map, names, Option.map_map]
      cases found : members.find? fun member => decide (member.1 = name) with
      | none => simp
      | some member =>
          have named : member.1 = name := of_decide_eq_true (List.find?_some found :)
          by_cases signature : name = "signature"
          · simp [respelled, named, signature]
          · simp [respelled, named, signature]
  | _ => simp [withSignature, Json.get?]

theorem get?_signed_field (envelope : Json) (text : String) {name : String} (field : name ∈ signedFields) :
    (withSignature envelope text).get? name = envelope.get? name := by
  rw [get?_withSignature, if_neg]
  rintro rfl
  exact absurd field (by decide)

theorem unsigned_withSignature (envelope : Json) (text : String) :
    unsigned (withSignature envelope text) = unsigned envelope := by
  unfold unsigned
  congr 1
  refine List.filterMap_congr fun name field => ?_
  rw [get?_signed_field envelope text field]

theorem EnvelopeShape.Fits.withSignature {shape : EnvelopeShape} {envelope : Json}
    (fits : shape.Fits envelope) (text : String) : shape.Fits (AgentTree.withSignature envelope text) := by
  have same : ∀ {name}, name ∈ signedFields →
      (AgentTree.withSignature envelope text).get? name = envelope.get? name := get?_signed_field envelope text
  obtain ⟨members, rfl, names⟩ := fits.named
  constructor
  · refine ⟨members.map (respelled text), rfl, ?_⟩
    simpa [List.any_map, List.all_map, Function.comp_def, respelled_name] using names
  · rw [same (by decide)]
    exact fits.version
  · rw [same (by decide)]
    exact fits.algorithm
  · rw [same (by decide)]
    exact fits.keyId
  · rw [same (by decide)]
    exact fits.purpose
  · rw [same (by decide)]
    exact fits.tenantId
  · rw [same (by decide)]
    exact fits.nonce
  · rw [same (by decide)]
    exact fits.issuedAt
  · rw [same (by decide)]
    exact fits.expiresAt
  · rw [same (by decide)]
    exact fits.payload

/-- The verifier takes another text for the signature exactly if it decodes to the same digest. -/
theorem verify_withSignature {verifier : ReceiptVerifier} {now : Int} {envelope result : Json}
    {expectedPurpose expectedTenantId : Option String}
    (ran : verifier.verify now envelope expectedPurpose expectedTenantId = .ok result) :
    ∃ digest, digest.length = 32 ∧ ∀ text,
      (∃ other, verifier.verify now (withSignature envelope text) expectedPurpose expectedTenantId = .ok other) ↔
        b64urlDecode text = .ok digest := by
  obtain ⟨shape, fits, ⟨key, found, signature, signed, decoded⟩, purpose, tenant, timely, -⟩ := verify_ok.mp ran
  refine ⟨_, b64urlDecode_length decoded, fun text => ?_⟩
  have spelled : (withSignature envelope text).get? "signature" = some (.str text) := by
    rw [get?_withSignature, signed]
    rfl
  constructor
  · rintro ⟨other, again⟩
    obtain ⟨_, refits, ⟨_, refound, _, resigned, redecoded⟩, -⟩ := verify_ok.mp again
    obtain rfl := refits.unique (fits.withSignature text)
    obtain rfl := Option.some.inj (refound.symm.trans found)
    obtain rfl := Json.str.inj (Option.some.inj (resigned.symm.trans spelled))
    rw [redecoded, unsigned_withSignature]
  · intro redecoded
    refine ⟨shape.payload, verify_ok.mpr ⟨shape, fits.withSignature text,
      ⟨key, found, text, spelled, ?_⟩, purpose, tenant, timely, rfl⟩⟩
    rw [redecoded, unsigned_withSignature]

/-- Of the envelopes that the verifier takes for the same signed fields, one has the signature that the
signer writes; another has it exactly if its text is canonical; and there always is one that has not. -/
theorem signature_texts {verifier : ReceiptVerifier} {now : Int} {envelope result : Json}
    {expectedPurpose expectedTenantId : Option String}
    (ran : verifier.verify now envelope expectedPurpose expectedTenantId = .ok result) :
    ∃ digest,
      (∃ other, verifier.verify now (withSignature envelope (b64urlEncode digest))
        expectedPurpose expectedTenantId = .ok other) ∧
      (∀ text other,
        verifier.verify now (withSignature envelope text) expectedPurpose expectedTenantId = .ok other →
        (text = b64urlEncode digest ↔ Canonical text)) ∧
      ∃ text other, text ≠ b64urlEncode digest ∧
        verifier.verify now (withSignature envelope text) expectedPurpose expectedTenantId = .ok other := by
  obtain ⟨digest, long, taken⟩ := verify_withSignature ran
  refine ⟨digest, (taken _).mpr (b64urlDecode_encode long), fun text other again => ?_, ?_⟩
  · exact canonical_iff long ((taken text).mp ⟨other, again⟩)
  · obtain ⟨other, again⟩ := (taken (b64urlEncode digest ++ "=")).mpr (b64urlDecode_padded long)
    refine ⟨_, other, fun same => ?_, again⟩
    have extra := congrArg String.length same
    simp [String.length_append] at extra

/-- `Note.signature` with its last character, `E`, replaced by the next one. -/
def Note.respelling : String := "AQEBAQEBAQEBAQEBAQEBAQEBAQEBAQEBAQEBAQEBAQF"

theorem Note.accepted : verifier.verify 170 envelope none none = .ok (.obj []) := by
  have made : Complete Floats.half verifier envelope (.obj []) "evidence" "tenant" 100 ((some 60).map (100 + ·)) :=
    signed_complete rfl (fun _ found => found) proper ⟨by simp, trivial⟩ signed
  exact (made.accepted 170 none none (by decide) (by simp [verifier]) rfl rfl).1

open Note in
theorem signature_texts_note :
    ∃ digest,
      (∃ other, verifier.verify 170 (withSignature envelope (b64urlEncode digest)) none none = .ok other) ∧
      (∀ text other, verifier.verify 170 (withSignature envelope text) none none = .ok other →
        (text = b64urlEncode digest ↔ Canonical text)) ∧
      ∃ text other, text ≠ b64urlEncode digest ∧
        verifier.verify 170 (withSignature envelope text) none none = .ok other :=
  signature_texts accepted

open Note in
/-- Two envelopes with the same signed fields and different bytes, both accepted. -/
theorem signature_spelled_twice :
    respelling ≠ signature ∧ verifier.verify 170 envelope none none = .ok (.obj []) ∧
      verifier.verify 170 (withSignature envelope respelling) none none = .ok (.obj []) ∧
      unsigned (withSignature envelope respelling) = unsigned envelope ∧
      canonicalBytes (withSignature envelope respelling) ≠ canonicalBytes envelope := by
  refine ⟨by decide +kernel, accepted, by decide +kernel, unsigned_withSignature _ _, by decide +kernel⟩

end AgentTree
