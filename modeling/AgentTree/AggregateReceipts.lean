import AgentTree.Receipts

/-!
The hidden benchmark (`hidden_benchmark.py` and `benchmark_worker.py`): the private suite that the worker loads, the
aggregate that it signs, and the controller's check of the aggregate.
-/

namespace AgentTree.HiddenBenchmark

open Outcome

def securityError (message : String) : PyError := .other "BenchmarkSecurityError" message
def schemaError (message : String) : PyError := .other "BenchmarkSchemaError" message
def protocolError (message : String) : PyError := .other "BenchmarkProtocolError" message

def maxCases : Nat := 10000
def maxJsonDepth : Nat := 64

/-! Strict JSON. -/

mutual

def validateJsonDepth : Json → (depth : Nat) → Except PyError Unit
  | .arr items, depth => do
      ensure (depth ≤ maxJsonDepth) (schemaError "JSON nesting exceeds 64")
      validateItemsDepth items (depth + 1)
  | .obj members, depth => do
      ensure (depth ≤ maxJsonDepth) (schemaError "JSON nesting exceeds 64")
      validateMembersDepth members (depth + 1)
  | _, depth => ensure (depth ≤ maxJsonDepth) (schemaError "JSON nesting exceeds 64")

def validateItemsDepth : List Json → (depth : Nat) → Except PyError Unit
  | [], _ => .ok ()
  | item :: rest, depth => do
      validateJsonDepth item depth
      validateItemsDepth rest depth

def validateMembersDepth : List (String × Json) → (depth : Nat) → Except PyError Unit
  | [], _ => .ok ()
  | (_, child) :: rest, depth => do
      validateJsonDepth child depth
      validateMembersDepth rest depth

end

/-- `_unique_object`. -/
def uniqueObject (pairs : List (String × Json)) : Option Json :=
  if (pairs.map Prod.fst).Nodup then some (.obj pairs) else none

def strictJsonLoads (floats : Floats) (data : Bytes) : Except PyError Json := do
  let value ← orRaise (Json.readText floats uniqueObject data) (schemaError "invalid deterministic JSON")
  validateJsonDepth value 0
  ensure value.valid (schemaError "invalid deterministic JSON")
  return value

def isObject : Json → Bool
  | .obj _ => true
  | _ => false

/-- `isinstance(value, dict) and set(value) == names`. -/
def exactly (value : Json) (names : List String) : Bool :=
  match value with
  | .obj members =>
      names.all (fun name => members.any (·.1 = name)) && members.all fun member => names.contains member.1
  | _ => false

/-- `_SAFE_IDENTIFIER.fullmatch`. -/
def safeIdentifier (text : String) : Bool :=
  1 ≤ text.length && text.length ≤ 128 &&
    text.toList.all fun c => c.isAlphanum || c = '.' || c = '_' || c = ':' || c = '-'

/-! The private suite. -/

def maxWeightMicros : Nat := 10 ^ 12

structure BenchmarkCase where
  caseId : String
  inputValue : Json
  expectedValue : Json
  weightMicros : Nat
  weighted : 1 ≤ weightMicros ∧ weightMicros ≤ maxWeightMicros

/-- `schema_version` may be any JSON value that Python finds equal to 1. -/
structure PrivateBenchmark where
  benchmarkId : String
  version : Json
  suiteSha256 : String
  cases : List BenchmarkCase
  versioned : equalsOne version = true
  nonempty : cases ≠ []

/-- A name that the pattern accepts. -/
def safeName (value : Option Json) (message : String) : Except PyError String :=
  match value with
  | some (.str name) => if safeIdentifier name then .ok name else .error (schemaError message)
  | _ => .error (schemaError message)

def loadCase (seen : List String) (rawCase : Json) : Except PyError BenchmarkCase := do
  ensure (exactly rawCase ["id", "input", "expected", "weight_micros"])
    (schemaError "each case must contain exactly id, input, expected, and weight_micros")
  let caseId ← safeName (rawCase.get? "id") "invalid case id"
  ensure (!seen.contains caseId) (schemaError ("duplicate case id: " ++ caseId))
  match rawCase.get? "weight_micros" with
  | some (.int weight) =>
      if bounded : 1 ≤ weight.toNat ∧ weight.toNat ≤ maxWeightMicros then
        .ok ⟨caseId, (rawCase.get? "input").getD .null, (rawCase.get? "expected").getD .null, weight.toNat, bounded⟩
      else .error (schemaError "weight_micros must be an integer in [1, 10^12]")
  | _ => .error (schemaError "weight_micros must be an integer in [1, 10^12]")

def loadCases (seen : List String) : List Json → Except PyError (List BenchmarkCase)
  | [] => .ok []
  | rawCase :: rest => do
      let benchmarkCase ← loadCase seen rawCase
      let others ← loadCases (benchmarkCase.caseId :: seen) rest
      return benchmarkCase :: others

def rawCases (value : Option Json) : Except PyError (List Json) :=
  match value with
  | some (.arr items) =>
      if items ≠ [] ∧ items.length ≤ maxCases then .ok items
      else .error (schemaError "cases must contain 1..10000 entries")
  | _ => .error (schemaError "cases must contain 1..10000 entries")

/-- The suite of a JSON value. -/
def readSuite (suiteSha256 : String) (root : Json) : Except PyError PrivateBenchmark := do
  ensure (exactly root ["schema_version", "benchmark_id", "cases"])
    (schemaError "suite must contain exactly schema_version, benchmark_id, and cases")
  let version := (root.get? "schema_version").getD .null
  if versioned : equalsOne version = true then
    let benchmarkId ← safeName (root.get? "benchmark_id") "invalid benchmark_id"
    let entries ← rawCases (root.get? "cases")
    let cases ← loadCases [] entries
    if nonempty : cases ≠ [] then
      return ⟨benchmarkId, version, suiteSha256, cases, versioned, nonempty⟩
    else .error (schemaError "cases must contain 1..10000 entries")
  else .error (schemaError "unsupported benchmark schema_version")

/-- `load_private_benchmark_for_worker`, from the bytes of the file on. -/
def loadPrivateBenchmarkForWorker (floats : Floats) (sha256 : Bytes → String) (raw : Bytes) :
    Except PyError PrivateBenchmark := do
  let root ← strictJsonLoads floats raw
  readSuite (sha256 raw) root

/-! Scoring. -/

/-- The numbers of the result. -/
structure Tally where
  passed : Int
  failed : Int
  total : Int
  weightedScoreMicros : Int
  maxScoreMicros : Int
  normalizedScorePpm : Int
  deriving DecidableEq

/-- The loop over the cases, by their weights and whether they passed. -/
def scoreCases (passed weightedScore : Nat) : List (Nat × Bool) → Nat × Nat
  | [] => (passed, weightedScore)
  | (weight, casePassed) :: rest =>
      if casePassed then scoreCases (passed + 1) (weightedScore + weight) rest
      else scoreCases passed weightedScore rest

def tally (cases : List (Nat × Bool)) : Tally :=
  let maximumScore := (cases.map Prod.fst).sum
  let (passed, weightedScore) := scoreCases 0 0 cases
  { passed, failed := cases.length - passed, total := cases.length, weightedScoreMicros := weightedScore
    maxScoreMicros := maximumScore, normalizedScorePpm := (weightedScore * 1000000 / maximumScore : Nat) }

/-- What the runner reports of a case. -/
structure CandidateRun where
  ok : Bool
  stdout : Bytes

def casePassed (floats : Floats) (benchmarkCase : BenchmarkCase) (result : CandidateRun) : Bool :=
  result.ok && match strictJsonLoads floats result.stdout with
    | .ok response => exactly response ["output"] &&
        (response.get? "output").any fun output => canonicalBytes output = canonicalBytes benchmarkCase.expectedValue
    | .error _ => false

/-- The weights of the cases and whether they passed, when the case at each position ran as `runs` says. -/
def outcomes (floats : Floats) (suite : PrivateBenchmark) (runs : Nat → CandidateRun) : List (Nat × Bool) :=
  suite.cases.zipIdx.map fun (benchmarkCase, index) =>
    (benchmarkCase.weightMicros, casePassed floats benchmarkCase (runs index))

/-! The aggregate. -/

def Tally.json (result : Tally) : Json := .obj [
  ("passed", .int result.passed),
  ("failed", .int result.failed),
  ("total", .int result.total),
  ("weighted_score_micros", .int result.weightedScoreMicros),
  ("max_score_micros", .int result.maxScoreMicros),
  ("normalized_score_ppm", .int result.normalizedScorePpm)]

def PrivateBenchmark.metadata (suite : PrivateBenchmark) : Json := .obj [
  ("id", .str suite.benchmarkId),
  ("version", suite.version),
  ("suite_sha256", .str suite.suiteSha256),
  ("case_count", .int suite.cases.length)]

def candidateMetadata (fingerprint : String) : Json := .obj [("fingerprint_sha256", .str fingerprint)]

def aggregatePayload (receiptId issuedAt nonce fingerprint : String) (suite : PrivateBenchmark) (result : Tally) : Json :=
  .obj [
    ("receipt_type", .str "hidden_benchmark.aggregate.v1"),
    ("receipt_id", .str receiptId),
    ("request_nonce", .str nonce),
    ("issued_at", .str issuedAt),
    ("benchmark", suite.metadata),
    ("candidate", candidateMetadata fingerprint),
    ("result", result.json)]

def aggregatePurpose : String := "hidden-benchmark-aggregate"

/-- `_evaluate`, once the request is read and the candidate resolved. -/
def evaluate (floats : Floats) (signer : ReceiptSigner) (tenantId : String) (suite : PrivateBenchmark)
    (nonce fingerprint fingerprintAfter receiptId issuedAt : String) (clock : Int) (runs : Nat → CandidateRun) :
    Except PyError Json := do
  ensure (nonce ≠ "" && nonce.length ≤ 256) (securityError "worker request nonce is invalid")
  let result := tally (outcomes floats suite runs)
  ensure (fingerprintAfter = fingerprint) (securityError "candidate changed during benchmark execution")
  signer.sign clock nonce (aggregatePayload receiptId issuedAt nonce fingerprint suite result) aggregatePurpose tenantId
    (some 300)

/-! The check of the controller. -/

def forbiddenResponseKeys : List String :=
  ["case", "cases", "case_id", "expect", "expected", "input", "output", "prompt", "answer", "failure", "failures",
    "details", "stdout", "stderr"]

/-- `str.casefold` of the characters that it turns into ASCII letters; any other character remains outside ASCII. -/
def foldChar (c : Char) : List Char :=
  match c.toNat with
  | 0x00df | 0x1e9e => ['s', 's']
  | 0x017f => ['s']
  | 0x212a => ['k']
  | 0xfb00 => ['f', 'f']
  | 0xfb01 => ['f', 'i']
  | 0xfb02 => ['f', 'l']
  | 0xfb03 => ['f', 'f', 'i']
  | 0xfb04 => ['f', 'f', 'l']
  | 0xfb05 | 0xfb06 => ['s', 't']
  | _ => [c.toLower]

def casefold (text : String) : String := String.ofList (text.toList.flatMap foldChar)

mutual

def walkResponseKeys : Json → Except PyError Unit
  | .obj members => walkMembers members
  | .arr items => walkItems items
  | _ => .ok ()

def walkItems : List Json → Except PyError Unit
  | [] => .ok ()
  | item :: rest => do
      walkResponseKeys item
      walkItems rest

def walkMembers : List (String × Json) → Except PyError Unit
  | [] => .ok ()
  | (key, child) :: rest => do
      ensure (!forbiddenResponseKeys.contains (casefold key))
        (protocolError ("worker response contains forbidden key: " ++ key))
      walkResponseKeys child
      walkMembers rest

end

/-- Python's equality with an integer; `integral` gives the integer that a float is equal to. -/
def equalsInt (integral : String → Option Int) (value : Json) (number : Int) : Bool :=
  match value with
  | .int other => other = number
  | .bool flag => (if flag then 1 else 0) = number
  | .float text => integral text = some number
  | _ => false

/-- The integer fields of a result; a bool is not an integer. -/
def readTally (result : Json) : Option Tally :=
  match result.get? "passed", result.get? "failed", result.get? "total", result.get? "weighted_score_micros",
    result.get? "max_score_micros", result.get? "normalized_score_ppm" with
  | some (.int passed), some (.int failed), some (.int total), some (.int weighted), some (.int maximum),
    some (.int ppm) => some ⟨passed, failed, total, weighted, maximum, ppm⟩
  | _, _, _, _, _, _ => none

/-- The checks on the numbers of a result. -/
def checkTally (integral : String → Option Int) (caseCount : Json) (result : Tally) : Except PyError Unit := do
  ensure (0 ≤ result.passed && 0 ≤ result.failed && 0 ≤ result.total && 0 ≤ result.weightedScoreMicros &&
    0 ≤ result.maxScoreMicros && 0 ≤ result.normalizedScorePpm)
    (protocolError "aggregate counters and scores must be non-negative")
  ensure (result.passed + result.failed = result.total) (protocolError "aggregate case counts are inconsistent")
  ensure (equalsInt integral caseCount result.total) (protocolError "benchmark case_count does not match result total")
  ensure (result.weightedScoreMicros ≤ result.maxScoreMicros) (protocolError "aggregate weighted score exceeds maximum")
  ensure (0 ≤ result.normalizedScorePpm && result.normalizedScorePpm ≤ 1000000)
    (protocolError "normalized score is outside [0, 1_000_000]")
  let expectedPpm := if result.maxScoreMicros ≠ 0 then result.weightedScoreMicros * 1000000 / result.maxScoreMicros else 0
  ensure (result.normalizedScorePpm = expectedPpm) (protocolError "normalized score is inconsistent")

/-- The checks on an authentic payload. -/
def checkPayload (integral : String → Option Int) (nonce suiteSha256 fingerprint : String) (verified : Json) :
    Except PyError Tally := do
  ensure (exactly verified ["receipt_type", "receipt_id", "request_nonce", "issued_at", "benchmark", "candidate", "result"])
    (protocolError "worker payload has unexpected top-level fields")
  ensure (verified.get? "receipt_type" = some (.str "hidden_benchmark.aggregate.v1"))
    (protocolError "unexpected worker receipt type")
  ensure (verified.get? "request_nonce" = some (.str nonce))
    (protocolError "worker receipt nonce mismatch (replay or cross-talk)")
  let benchmark := (verified.get? "benchmark").getD .null
  let candidate := (verified.get? "candidate").getD .null
  let result := (verified.get? "result").getD .null
  ensure (exactly benchmark ["id", "version", "suite_sha256", "case_count"])
    (protocolError "invalid aggregate benchmark metadata")
  ensure (exactly candidate ["fingerprint_sha256"]) (protocolError "invalid aggregate candidate metadata")
  ensure (exactly result ["passed", "failed", "total", "weighted_score_micros", "max_score_micros",
    "normalized_score_ppm"]) (protocolError "invalid aggregate result")
  ensure (benchmark.get? "suite_sha256" = some (.str suiteSha256)) (protocolError "private suite digest mismatch")
  ensure (candidate.get? "fingerprint_sha256" = some (.str fingerprint))
    (protocolError "candidate fingerprint mismatch")
  let numbers ← orRaise (readTally result) (protocolError "aggregate counters and scores must be integers")
  checkTally integral ((benchmark.get? "case_count").getD .null) numbers
  return numbers

/-- `except ReceiptError`. -/
def authentic (outcome : Except PyError Json) : Except PyError Json :=
  match outcome with
  | .error (.receipt _ _) => .error (protocolError "worker receipt authentication failed")
  | outcome => outcome

def validateAggregateReceipt (integral : String → Option Int) (verifier : ReceiptVerifier) (clock : Int) (receipt : Json)
    (tenantId nonce suiteSha256 fingerprint : String) : Except PyError Json := do
  ensure (isObject receipt) (protocolError "worker response must be a JSON object")
  walkResponseKeys receipt
  let verified ← authentic (verifier.verify clock receipt (some aggregatePurpose) (some tenantId))
  let _ ← checkPayload integral nonce suiteSha256 fingerprint verified
  return receipt

end AgentTree.HiddenBenchmark
