import AgentTree.Tallies

/-!
The controller's check of an aggregate: what it leaves of the numbers, and that it accepts what the worker signs.
-/

namespace AgentTree

/-! Values with a bound on their nesting and a condition on their names. -/

namespace Json

def isFlat : Json → Bool
  | arr _ | obj _ => false
  | _ => true

@[simp] theorem isFlat_int (value : Int) : (int value).isFlat = true := rfl

@[simp] theorem isFlat_str (value : String) : (str value).isFlat = true := rfl

inductive Within (allowed : String → Prop) : Nat → Json → Prop
  | flat {depth : Nat} {value : Json} : value.isFlat = true → Within allowed depth value
  | arr {depth : Nat} {items : List Json} : (∀ item ∈ items, Within allowed depth item) →
      Within allowed (depth + 1) (arr items)
  | obj {depth : Nat} {members : List (String × Json)} : (∀ name ∈ members.map Prod.fst, allowed name) →
      (∀ member ∈ members, Within allowed depth member.2) → Within allowed (depth + 1) (obj members)

theorem canonicalItems_eq (items : List Json) : canonicalItems items = items.map canonical := by
  induction items with
  | nil => rfl
  | cons item rest ih => rw [canonicalItems, ih, List.map_cons]

theorem mem_sortedMembers_names {members : List (String × Json)} {name : String} :
    name ∈ (sortedMembers members).map Prod.fst ↔ name ∈ members.map Prod.fst := by
  have order := (List.perm_insertionSort (fun a b => nameOrder a.1 ≤ nameOrder b.1)
    (canonicalMembers members)).map Prod.fst
  rw [sortedMembers, order.mem_iff, canonicalMembers_eq, List.map_map]
  rfl

theorem Within.canonical {allowed : String → Prop} {depth : Nat} {value : Json} (within : Within allowed depth value) :
    Within allowed depth value.canonical := by
  induction within with
  | @flat depth value flat =>
      refine .flat ?_
      cases value <;> simp_all [isFlat, Json.canonical]
  | arr _ items =>
      rw [Json.canonical, canonicalItems_eq]
      refine .arr fun item member => ?_
      obtain ⟨before, present, rfl⟩ := List.mem_map.mp member
      exact items before present
  | obj names _ children =>
      refine .obj ?_ ?_
      · intro name member
        exact names name (mem_sortedMembers_names.mp member)
      · rintro ⟨name, value⟩ member
        obtain ⟨before, original, rfl⟩ := mem_sortedMembers.mp member
        exact children _ original

end Json

namespace HiddenBenchmark

open Outcome

section Structure

theorem walkItems_ok {items : List Json} (each : ∀ item ∈ items, walkResponseKeys item = .ok ()) :
    walkItems items = .ok () := by
  induction items with
  | nil => rfl
  | cons item rest ih =>
      obtain ⟨first, others⟩ := List.forall_mem_cons.mp each
      rw [walkItems, first]
      exact ih others

/-- A name that a response may have. -/
def Allowed (name : String) : Prop := forbiddenResponseKeys.contains (casefold name) = false

instance : DecidablePred Allowed := fun _ => inferInstanceAs (Decidable (_ = false))

theorem walkMembers_ok {members : List (String × Json)} (names : ∀ name ∈ members.map Prod.fst, Allowed name)
    (each : ∀ member ∈ members, walkResponseKeys member.2 = .ok ()) : walkMembers members = .ok () := by
  induction members with
  | nil => rfl
  | cons member rest ih =>
      obtain ⟨name, value⟩ := member
      obtain ⟨first, others⟩ := List.forall_mem_cons.mp each
      obtain ⟨allowed, rest⟩ := List.forall_mem_cons.mp names
      have named : forbiddenResponseKeys.contains (casefold name) = false := allowed
      rw [walkMembers, named, first]
      exact ih rest others

theorem walk_ok {depth : Nat} {value : Json} (within : value.Within Allowed depth) : walkResponseKeys value = .ok () := by
  induction within with
  | @flat _ value flat => cases value <;> simp_all [Json.isFlat, walkResponseKeys]
  | arr _ items => exact walkItems_ok items
  | obj names _ children => exact walkMembers_ok names children

theorem itemsDepth_ok {items : List Json} {depth : Nat} (each : ∀ item ∈ items, validateJsonDepth item depth = .ok ()) :
    validateItemsDepth items depth = .ok () := by
  induction items with
  | nil => rfl
  | cons item rest ih =>
      obtain ⟨first, others⟩ := List.forall_mem_cons.mp each
      rw [validateItemsDepth, first]
      exact ih others

theorem membersDepth_ok {members : List (String × Json)} {depth : Nat}
    (each : ∀ member ∈ members, validateJsonDepth member.2 depth = .ok ()) :
    validateMembersDepth members depth = .ok () := by
  induction members with
  | nil => rfl
  | cons member rest ih =>
      obtain ⟨name, value⟩ := member
      obtain ⟨first, others⟩ := List.forall_mem_cons.mp each
      rw [validateMembersDepth, first]
      exact ih others

theorem depth_ok {allowed : String → Prop} {more depth : Nat} {value : Json} (within : value.Within allowed more)
    (room : depth + more ≤ maxJsonDepth) : validateJsonDepth value depth = .ok () := by
  induction within generalizing depth with
  | @flat more value flat =>
      have : depth ≤ maxJsonDepth := by omega
      cases value <;> simp_all [Json.isFlat, validateJsonDepth, ensure]
  | arr _ items =>
      have here : depth ≤ maxJsonDepth := by omega
      rw [validateJsonDepth, decide_eq_true here]
      exact itemsDepth_ok fun item member => items item member (by omega)
  | obj _ _ children =>
      have here : depth ≤ maxJsonDepth := by omega
      rw [validateJsonDepth, decide_eq_true here]
      exact membersDepth_ok fun member present => children member present (by omega)

theorem exactly_iff {members : List (String × Json)} {names : List String} :
    exactly (.obj members) names = true ↔ ∀ name, name ∈ names ↔ name ∈ members.map Prod.fst := by
  simp only [exactly, Bool.and_eq_true, List.all_eq_true, List.any_eq_true, decide_eq_true_eq, List.contains_iff_mem,
    List.mem_map]
  constructor
  · rintro ⟨first, second⟩ name
    exact ⟨first name, fun ⟨member, present, named⟩ => named ▸ second member present⟩
  · intro same
    exact ⟨fun name => (same name).mp, fun member present => (same member.1).mpr ⟨member, present, rfl⟩⟩

theorem exactly_canonical (value : Json) (names : List String) : exactly value.canonical names = exactly value names := by
  cases value with
  | obj members =>
      have form : (Json.obj members).canonical = .obj (Json.sortedMembers members) := by
        simp only [Json.canonical, Json.sortedMembers]
      rw [Bool.eq_iff_iff, form, exactly_iff, exactly_iff]
      simp only [Json.mem_sortedMembers_names]
  | _ => rfl

end Structure

/-- The numbers that a receipt reports. -/
def resultOf (receipt : Json) : Option Tally :=
  readTally ((((receipt.get? "payload").getD .null).get? "result").getD .null)

section Accepted

variable {integral : String → Option Int} {verifier : ReceiptVerifier} {clock : Int} {receipt accepted : Json}
  {tenantId nonce suiteSha256 fingerprint : String}

theorem authentic_ok {outcome : Except PyError Json} {verified : Json} :
    authentic outcome = .ok verified ↔ outcome = .ok verified := by
  unfold authentic
  split <;> simp

theorem checkPayload_ok {verified : Json} {result : Tally}
    (checked : checkPayload integral nonce suiteSha256 fingerprint verified = .ok result) :
    readTally ((verified.get? "result").getD .null) = some result ∧ Consistent result := by
  simp only [checkPayload, bind_eq_ok, ensure_eq_ok, orRaise_eq_ok, pure_eq_ok, checkTally_ok] at checked
  obtain ⟨_, _, _, _, _, _, _, _, _, _, _, _, _, _, _, _, numbers, read, _, ⟨_, consistent⟩, rfl⟩ := checked
  exact ⟨read, consistent⟩

/-- An accepted receipt carries consistent numbers. -/
theorem validate_consistent
    (ran : validateAggregateReceipt integral verifier clock receipt tenantId nonce suiteSha256 fingerprint = .ok accepted) :
    ∃ result, resultOf receipt = some result ∧ Consistent result := by
  simp only [validateAggregateReceipt, bind_eq_ok, authentic_ok, verify_ok] at ran
  obtain ⟨_, _, _, _, verified, ⟨shape, fits, _, _, _, _, rfl⟩, result, checked, _⟩ := ran
  refine ⟨result, ?_⟩
  rw [resultOf, fits.payload.1]
  exact checkPayload_ok checked

end Accepted

section Aggregates

variable {floats : Floats} {suite : PrivateBenchmark} {receiptId issuedAt nonce fingerprint : String}

theorem PrivateBenchmark.version_cases (suite : PrivateBenchmark) :
    suite.version = .int 1 ∨ suite.version = .bool true ∨ suite.version = .float "1.0" := by
  have versioned := suite.versioned
  simpa [equalsOne, or_assoc] using versioned

theorem payload_accepted (one : floats.finite "1.0") (result : Tally) :
    (aggregatePayload receiptId issuedAt nonce fingerprint suite result).Accepted floats := by
  have version : suite.version.Genuine floats ∧ suite.version.valid = true := by
    rcases suite.version_cases with same | same | same <;> rw [same]
    · exact ⟨trivial, rfl⟩
    · exact ⟨trivial, rfl⟩
    · exact ⟨.inl one, by decide⟩
  constructor
  · refine ⟨?_, trivial, trivial, trivial, trivial, ⟨?_, trivial, version.1, trivial, trivial, trivial⟩,
      ⟨?_, trivial, trivial⟩, ⟨?_, trivial, trivial, trivial, trivial, trivial, trivial, trivial⟩, trivial⟩
    all_goals
      simp only [List.map_cons, List.map_nil]
      decide
  · simp [aggregatePayload, PrivateBenchmark.metadata, candidateMetadata, Tally.json, Json.valid, Json.validMembers,
      version.2]

theorem flat_members {allowed : String → Prop} {depth : Nat} {members : List (String × Json)}
    (flat : ∀ member ∈ members, member.2.isFlat = true) : ∀ member ∈ members, member.2.Within allowed depth :=
  fun member present => .flat (flat member present)

theorem payload_within (result : Tally) :
    (aggregatePayload receiptId issuedAt nonce fingerprint suite result).Within Allowed 2 := by
  have version : suite.version.isFlat = true := by
    rcases suite.version_cases with same | same | same <;> rw [same] <;> rfl
  have benchmark : suite.metadata.Within Allowed 1 := by
    refine .obj ?_ (flat_members (by simp [version]))
    simp only [List.map_cons, List.map_nil]
    decide +kernel
  have candidate : (candidateMetadata fingerprint).Within Allowed 1 := by
    refine .obj ?_ (flat_members (by simp))
    simp only [List.map_cons, List.map_nil]
    decide +kernel
  have numbers : result.json.Within Allowed 1 := by
    refine .obj ?_ (flat_members (by simp))
    simp only [List.map_cons, List.map_nil]
    decide +kernel
  refine .obj ?_ ?_
  · simp only [List.map_cons, List.map_nil]
    decide +kernel
  · simp only [List.forall_mem_cons, List.not_mem_nil, false_implies, implies_true, and_true]
    exact ⟨.flat rfl, .flat rfl, .flat rfl, .flat rfl, benchmark, candidate, numbers⟩

/-- The controller's checks of the payload pass on the worker's payload after its transport. -/
theorem checkPayload_aggregate (integral : String → Option Int) {result : Tally} (counted : result.total = suite.cases.length)
    (consistent : Consistent result) :
    checkPayload integral nonce suite.suiteSha256 fingerprint
      (aggregatePayload receiptId issuedAt nonce fingerprint suite result).canonical = .ok result := by
  have whole : ∀ name, (aggregatePayload receiptId issuedAt nonce fingerprint suite result).canonical.get? name =
      ((aggregatePayload receiptId issuedAt nonce fingerprint suite result).get? name).map Json.canonical :=
    get?_canonical (by simp only [List.map_cons, List.map_nil]; decide)
  have benchmark : ∀ name, suite.metadata.canonical.get? name = (suite.metadata.get? name).map Json.canonical :=
    get?_canonical (by simp only [List.map_cons, List.map_nil]; decide)
  have candidate : (candidateMetadata fingerprint).canonical.get? "fingerprint_sha256" = some (.str fingerprint) :=
    get?_canonical (by simp only [List.map_cons, List.map_nil]; decide) _
  have numbers : ∀ name, result.json.canonical.get? name = (result.json.get? name).map Json.canonical :=
    get?_canonical (by simp only [List.map_cons, List.map_nil]; decide)
  have read : readTally result.json.canonical = some result := by
    simp only [readTally, numbers]
    rfl
  have first : exactly (aggregatePayload receiptId issuedAt nonce fingerprint suite result) ["receipt_type", "receipt_id",
      "request_nonce", "issued_at", "benchmark", "candidate", "result"] = true := rfl
  have second : exactly suite.metadata ["id", "version", "suite_sha256", "case_count"] = true := rfl
  have third : exactly (candidateMetadata fingerprint) ["fingerprint_sha256"] = true := rfl
  have fourth : exactly result.json ["passed", "failed", "total", "weighted_score_micros", "max_score_micros",
      "normalized_score_ppm"] = true := rfl
  have checked : checkTally integral (.int suite.cases.length) result = .ok () :=
    checkTally_ok.mpr ⟨by simp [equalsInt, counted], consistent⟩
  have kind := (whole "receipt_type").trans (show _ = some (Json.str "hidden_benchmark.aggregate.v1") from rfl)
  have asked := (whole "request_nonce").trans (show _ = some (Json.str nonce) from rfl)
  have described := (whole "benchmark").trans (show _ = some suite.metadata.canonical from rfl)
  have named := (whole "candidate").trans (show _ = some (candidateMetadata fingerprint).canonical from rfl)
  have scored := (whole "result").trans (show _ = some result.json.canonical from rfl)
  have digest := (benchmark "suite_sha256").trans (show _ = some (Json.str suite.suiteSha256) from rfl)
  have count := (benchmark "case_count").trans (show _ = some (Json.int suite.cases.length) from rfl)
  simp [checkPayload, exactly_canonical, kind, asked, described, named, scored, digest, count, candidate, read, first, second,
    third, fourth, checked, ensure, orRaise, bind, Except.bind, pure, Except.pure]

theorem sign_returns {signer : ReceiptSigner} {key : Bytes} {clock : Int} {payload : Json} {tenantId : String}
    (active : signer.ring.key? signer.activeKeyId = some key) (early : 0 ≤ clock) (owned : tenantId ≠ "")
    (once : nonce ≠ "") (short : nonce.length ≤ 256) (valid : payload.valid = true) :
    ∃ envelope, signer.sign clock nonce payload aggregatePurpose tenantId (some 300) = .ok envelope := by
  have text : jsonText payload = .ok payload.canonical := jsonText_ok.mpr ⟨valid, rfl⟩
  simp [ReceiptSigner.sign, active, early, owned, once, short, text, aggregatePurpose, ensure, orRaise, bind, Except.bind,
    pure, Except.pure]

theorem loaded_digest {sha256 : Bytes → String} {raw : Bytes}
    (loaded : loadPrivateBenchmarkForWorker floats sha256 raw = .ok suite) : suite.suiteSha256 = sha256 raw := by
  simp only [loadPrivateBenchmarkForWorker, readSuite, bind_eq_ok] at loaded
  obtain ⟨root, _, _, _, loaded⟩ := loaded
  split at loaded
  next =>
    simp only [bind_eq_ok] at loaded
    obtain ⟨_, _, _, _, cases, _, loaded⟩ := loaded
    split at loaded
    next =>
      obtain rfl := pure_eq_ok.mp loaded
      rfl
    next => simp at loaded
  next => simp at loaded

theorem outcomes_weighed (runs : Nat → CandidateRun) : outcomes floats suite runs ≠ [] ∧
    Weighed ((outcomes floats suite runs).map Prod.fst) ∧ (outcomes floats suite runs).length = suite.cases.length := by
  have length : (outcomes floats suite runs).length = suite.cases.length := by simp [outcomes]
  refine ⟨?_, ?_, length⟩
  · intro empty
    rw [empty] at length
    exact suite.nonempty (List.length_eq_zero_iff.mp length.symm)
  · intro weight member
    simp only [outcomes, List.map_map, List.mem_map, Function.comp_apply] at member
    obtain ⟨⟨benchmarkCase, index⟩, _, rfl⟩ := member
    exact benchmarkCase.weighted

theorem outcomes_mono {runs others : Nat → CandidateRun} (better : ∀ index benchmarkCase,
      suite.cases[index]? = some benchmarkCase →
      casePassed floats benchmarkCase (runs index) = true → casePassed floats benchmarkCase (others index) = true) :
    List.Forall₂ (fun before after => before.1 = after.1 ∧ (before.2 = true → after.2 = true))
      (outcomes floats suite runs) (outcomes floats suite others) := by
  rw [outcomes, outcomes, List.forall₂_map_left_iff, List.forall₂_map_right_iff, List.forall₂_same]
  rintro ⟨benchmarkCase, index⟩ member
  exact ⟨rfl, better index benchmarkCase (List.mk_mem_zipIdx_iff_getElem?.mp member)⟩

theorem signed_within {keyId tenantId signature : String} {clock : Int} {payload : Json}
    (within : payload.Within Allowed 2) :
    (Json.obj (signedMembers keyId aggregatePurpose tenantId nonce clock (some 300) payload ++
      [("signature", .str signature)])).Within Allowed 3 := by
  refine .obj ?_ ?_
  · simp only [signedMembers, List.map_append, List.map_cons, List.map_nil]
    decide +kernel
  · simp only [signedMembers, List.cons_append, List.nil_append, List.forall_mem_cons, List.not_mem_nil, false_implies,
      implies_true, and_true]
    exact ⟨.flat rfl, .flat rfl, .flat rfl, .flat rfl, .flat rfl, .flat rfl, .flat rfl, .flat rfl, within, .flat rfl⟩

theorem strictJsonLoads_canonicalBytes {value : Json} {allowed : String → Prop} {depth : Nat}
    (accepted : value.Accepted floats) (within : value.Within allowed depth) (shallow : depth ≤ maxJsonDepth) :
    strictJsonLoads floats (canonicalBytes value) = .ok value.canonical := by
  have read : Json.readText floats uniqueObject (canonicalBytes value) = some value.canonical :=
    Json.readText_encode (fun members distinct => if_pos distinct) accepted.canonical
  have nested : validateJsonDepth value.canonical 0 = .ok () := depth_ok within.canonical (by omega)
  simp [strictJsonLoads, read, nested, accepted.canonical.2, orRaise, ensure, bind, Except.bind, pure, Except.pure]

theorem verify_canonical {verifier : ReceiptVerifier} {now : Int} {members : List (String × Json)} {payload value : Json}
    {purpose tenantId : Option String} (distinct : (members.map Prod.fst).Nodup)
    (carried : (Json.obj members).get? "payload" = some payload)
    (verified : verifier.verify now (Json.obj members).canonical purpose tenantId = .ok value) :
    value = payload.canonical := by
  obtain ⟨shape, fits, _, _, _, _, rfl⟩ := verify_ok.mp verified
  rw [← fits.payload.1, get?_canonical distinct, carried]
  rfl

/-- Consistent numbers that the worker signs are accepted by the controller until the receipt expires. -/
theorem signed_validates (integral : String → Option Int) (receiptId issuedAt fingerprint : String)
    {signer : ReceiptSigner} {verifier : ReceiptVerifier} {key : Bytes} {tenantId : String} {clock : Int} {result : Tally} (one : floats.finite "1.0") (proper : signer.ring.Proper)
    (active : signer.ring.key? signer.activeKeyId = some key) (shared : verifier.ring = signer.ring)
    (owned : tenantId ≠ "") (once : nonce ≠ "") (short : nonce.length ≤ 256) (early : 0 ≤ clock)
    (counted : result.total = suite.cases.length) (consistent : Consistent result) :
    ∃ receipt received,
      signer.sign clock nonce (aggregatePayload receiptId issuedAt nonce fingerprint suite result) aggregatePurpose
        tenantId (some 300) = .ok receipt ∧
      strictJsonLoads floats (canonicalBytes receipt) = .ok received ∧ resultOf received = some result ∧
      ∀ now, clock - verifier.clockSkewSeconds ≤ now → now ≤ clock + 300 + verifier.clockSkewSeconds →
        validateAggregateReceipt integral verifier now received tenantId nonce suite.suiteSha256 fingerprint =
          .ok received := by
  obtain ⟨payload, made⟩ : ∃ payload, aggregatePayload receiptId issuedAt nonce fingerprint suite result = payload :=
    ⟨_, rfl⟩
  have sound : payload.Accepted floats := made ▸ payload_accepted one result
  have checked : checkPayload integral nonce suite.suiteSha256 fingerprint payload.canonical = .ok result :=
    made ▸ checkPayload_aggregate integral counted consistent
  obtain ⟨receipt, signed⟩ := sign_returns active early owned once short sound.2
  have complete := signed_complete (by rw [shared]) (fun _ found => by rw [shared, found]) proper sound.1 signed
  obtain ⟨_, _, _, _, _, _, _, _, _, form⟩ := sign_ok signed
  have accepted : receipt.Accepted floats := form ▸ signed_accepted _ sound.1 sound.2
  have within : receipt.Within Allowed 3 := form ▸ signed_within (made ▸ payload_within result)
  obtain ⟨members, rfl, distinct, carried⟩ : ∃ members, receipt = .obj members ∧ (members.map Prod.fst).Nodup ∧
      (Json.obj members).get? "payload" = some payload := ⟨_, form, signedMembers_distinct, rfl⟩
  refine ⟨.obj members, (Json.obj members).canonical, made ▸ signed,
    strictJsonLoads_canonicalBytes accepted within (by decide), ?_, ?_⟩
  · rw [resultOf, get?_canonical distinct, carried]
    exact (checkPayload_ok checked).1
  · intro now after before
    obtain ⟨-, value, verified, -⟩ := complete.accepted now (some aggregatePurpose) (some tenantId) (by omega)
      (by simpa using before) (by simp) (by simp)
    obtain rfl := verify_canonical distinct carried verified
    have object : isObject (Json.obj members).canonical = true := rfl
    simp [validateAggregateReceipt, object, walk_ok within.canonical, verified, authentic, checked, ensure, bind, Except.bind,
      pure, Except.pure]

end Aggregates

/-! A suite of two cases. -/

namespace BenchmarkSample

/-- One float, which is 1. -/
def floats : Floats where
  finite text := text = "1.0"
  read := asciiText
  number := by
    rintro _ rfl
    refine ⟨⟨[], [0x31], [0x2e, 0x30], []⟩, ⟨.inl rfl, .inr ⟨0x31, [], rfl, by decide, by decide⟩, .inr ?_, .inl rfl⟩,
      .inl (by simp), by decide⟩
    exact ⟨[0x30], by simp, rfl, by decide⟩
  back := by
    rintro _ rfl
    decide

def benchmarkCase (name : String) (input expected weight : Int) : Json := .obj [
  ("id", .str name), ("input", .int input), ("expected", .int expected), ("weight_micros", .int weight)]

def root : Json := .obj [
  ("schema_version", .float "1.0"),
  ("benchmark_id", .str "doubling"),
  ("cases", .arr [benchmarkCase "one" 2 4 3, benchmarkCase "two" 3 6 7])]

def sha256 (content : Bytes) : String := toString content.length

def raw : Bytes := canonicalBytes root

/-- The first case is answered and the second one fails. -/
def runs (index : Nat) : CandidateRun :=
  if index = 0 then ⟨true, canonicalBytes (.obj [("output", .int 4)])⟩ else ⟨false, []⟩

theorem root_accepted : root.Accepted floats := by
  refine ⟨?_, by decide +kernel⟩
  simp [root, benchmarkCase, Json.Genuine, Json.GenuineItems, Json.GenuineMembers, floats]

theorem case_within (name : String) (input expected weight : Int) :
    (benchmarkCase name input expected weight).Within (fun _ => True) 1 :=
  .obj (fun _ _ => trivial) (flat_members (by simp))

theorem root_within : root.Within (fun _ => True) 3 := by
  refine .obj (fun _ _ => trivial) ?_
  simp only [List.forall_mem_cons, List.not_mem_nil, false_implies, implies_true, and_true]
  refine ⟨.flat rfl, .flat rfl, .arr ?_⟩
  simp only [List.forall_mem_cons, List.not_mem_nil, false_implies, implies_true, and_true]
  exact ⟨case_within _ _ _ _, case_within _ _ _ _⟩

theorem loaded : ∃ suite, loadPrivateBenchmarkForWorker floats sha256 raw = .ok suite ∧ suite.cases.length = 2 := by
  have read : strictJsonLoads floats raw = .ok root.canonical :=
    strictJsonLoads_canonicalBytes root_accepted root_within (by decide)
  have sized : (readSuite (sha256 raw) root.canonical).toOption.map (·.cases.length) = some 2 := by decide +kernel
  have same : loadPrivateBenchmarkForWorker floats sha256 raw = readSuite (sha256 raw) root.canonical := by
    rw [loadPrivateBenchmarkForWorker, read]
    rfl
  cases found : readSuite (sha256 raw) root.canonical with
  | error error => simp [found, Except.toOption] at sized
  | ok suite => exact ⟨suite, same.trans found, by simpa [found, Except.toOption] using sized⟩

/-- Numbers of two cases, signed by the worker. -/
theorem reported (result : Tally) (consistent : Consistent result) (total : result.total = 2) : ∃ receipt,
    validateAggregateReceipt (fun _ => none) Note.verifier 110 receipt "worker" "request-1" (sha256 raw) "fingerprint" =
      .ok receipt ∧ resultOf receipt = some result := by
  obtain ⟨suite, found, counted⟩ := loaded
  have owned : "worker" ≠ "" := by decide
  have once : "request-1" ≠ "" := by decide
  have short : "request-1".length ≤ 256 := by decide
  have early : (0 : Int) ≤ 100 := by decide
  obtain ⟨_, receipt, _, _, reads, accepted⟩ := signed_validates (fun _ => none) "receipt" "issued" "fingerprint"
    (show floats.finite "1.0" from rfl) Note.proper rfl (rfl : Note.verifier.ring = _) owned once short early
    (total.trans (by rw [counted]; rfl)) consistent
  rw [loaded_digest found] at accepted
  exact ⟨receipt, accepted 110 (by decide) (by decide), reads⟩

end BenchmarkSample

section Claims

open BenchmarkSample

/-- The result of an accepted receipt is one that the worker can compute if and only if its scores fit its counts. -/
theorem validateAggregateReceipt_realisable {integral : String → Option Int} {verifier : ReceiptVerifier} {clock : Int}
    {receipt accepted : Json} {tenantId nonce suiteSha256 fingerprint : String}
    (ran : validateAggregateReceipt integral verifier clock receipt tenantId nonce suiteSha256 fingerprint = .ok accepted) :
    ∃ result, resultOf receipt = some result ∧ (Realisable result ↔ Attainable result) := by
  obtain ⟨result, read, consistent⟩ := validate_consistent ran
  exact ⟨result, read, consistent.realisable_iff⟩

theorem validateAggregateReceipt_realisable_sample : ∃ receipt result,
    validateAggregateReceipt (fun _ => none) Note.verifier 110 receipt "worker" "request-1" (sha256 raw) "fingerprint" =
      .ok receipt ∧ resultOf receipt = some result ∧ Realisable result := by
  have weighed : Weighed [3, 7] := by simp [Weighed, maxWeightMicros]
  obtain ⟨receipt, accepted, reads⟩ := reported (tally [(3, true), (7, false)])
    (tally_consistent (by simp) weighed) (by decide)
  obtain ⟨result, found, exactly⟩ := validateAggregateReceipt_realisable accepted
  obtain rfl := Option.some.inj (found.symm.trans reads)
  exact ⟨receipt, _, accepted, reads, exactly.mpr ⟨by decide, by decide, by decide⟩⟩

/-- A full score is accepted from a run in which no case passed. -/
theorem validateAggregateReceipt_unrealisable : ∃ receipt,
    validateAggregateReceipt (fun _ => none) Note.verifier 110 receipt "worker" "request-1" (sha256 raw) "fingerprint" =
      .ok receipt ∧ resultOf receipt = some ⟨0, 2, 2, 10, 10, 1000000⟩ ∧ ¬Realisable ⟨0, 2, 2, 10, 10, 1000000⟩ := by
  obtain ⟨receipt, accepted, reads⟩ := reported ⟨0, 2, 2, 10, 10, 1000000⟩
    ⟨by decide, by decide, by decide, by decide, by decide⟩ rfl
  refine ⟨receipt, accepted, reads, fun realisable => ?_⟩
  have scored := (realisable_attainable realisable).passed.2
  exact absurd scored (by decide)

end Claims

end HiddenBenchmark

end AgentTree
