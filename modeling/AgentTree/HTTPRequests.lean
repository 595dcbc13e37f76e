import AgentTree.Admission
import AgentTree.AggregateReceipts
import AgentTree.ControlCore
import AgentTree.RequestLimits

/-!
One HTTP request in `api.py`, up to the call of the control plane: its route, its principal, its body and its query.
The functions of Python's library are parameters.
-/

namespace AgentTree.Api

open Outcome

structure APIError where
  status : Nat
  code : String
  message : String
  deriving DecidableEq

/-- What a request can raise: an answer of its own, or any other exception. -/
inductive Fault : Type
  | api (error : APIError)
  | raised (error : PyError)
  deriving DecidableEq

def apiError (status : Nat) (code message : String) : Fault := .api ⟨status, code, message⟩

structure Principal extends AgentTree.Principal where
  roles : List String

def Principal.allows (principal : Principal) (roles : List String) : Bool := principal.roles.any roles.contains

/-- What the HTTP server reads of the settings. -/
structure ServerSettings where
  requireAuth : Bool
  tokenDigests : List (String × Principal)
  maxRequestBytes : Int
  maxWorkers : Nat
  maxOperationalWorkers : Nat

/-- The functions of Python's library that a request goes through. -/
structure Platform where
  urlsplit : String → Except PyError (String × String)
  parseQs : String → Except PyError (List (String × List String))
  int : String → Option Int
  sha256Hex : Bytes → String
  floats : Floats
  /-- `str(error)`. -/
  text : PyError → String

/-- What a handler sees of the connection. -/
structure Request where
  method : String
  path : String
  idempotencyKey : Option String
  authorization : Option String
  contentLength : Option String
  contentType : String
  /-- `self.rfile.read(length)`. -/
  read : Nat → Except PyError Bytes

/-! Routes. -/

def staticRoutes : List String := [
  "/healthz", "/readyz", "/metrics", "/v1/decisions/run", "/v1/evidence/run", "/v1/benchmarks/evaluate",
  "/v1/challengers/train", "/v1/audit"]

def unmatched : String × List (String × String) := ("unmatched", [])

def promoteRoute : String := "/v1/challengers/\x7bchallenger_id\x7d/promote"
def rollbackRoute : String := "/v1/families/\x7bfamily\x7d/rollback"
def championRoute : String := "/v1/families/\x7bfamily\x7d/champion"

/-- A route template and its parameters, for an exact path. -/
def matchRoute (path : String) : String × List (String × String) :=
  if staticRoutes.contains path then (path, [])
  else match (path.toList.splitOn '/').map String.ofList with
    | [first, version, kind, name, action] =>
        if first ≠ "" || name = "" then unmatched
        else if [version, kind] = ["v1", "challengers"] && action = "promote" then
          (promoteRoute, [("challenger_id", name)])
        else if [version, kind] = ["v1", "families"] && action = "rollback" then (rollbackRoute, [("family", name)])
        else if [version, kind] = ["v1", "families"] && action = "champion" then (championRoute, [("family", name)])
        else unmatched
    | _ => unmatched

/-! The principal. -/

def isAscii (text : String) : Bool := text.toList.all fun c => c.toNat < 128

/-- `hmac.compare_digest` of two texts. -/
def compareDigest (first second : String) : Except PyError Bool := do
  ensure (isAscii first && isAscii second)
    (.other "TypeError" "comparing strings with non-ASCII characters is not supported")
  return first = second

/-- `Settings.authenticate`: every digest is compared, and the last match wins. -/
def ServerSettings.authenticate (settings : ServerSettings) (platform : Platform) (bearerToken : String) :
    Except PyError (Option Principal) :=
  settings.tokenDigests.foldlM (fun found entry => do
    return if ← compareDigest entry.1 (platform.sha256Hex (utf8 bearerToken)) then some entry.2 else found) none

def development : Principal where
  tenantId := "development"
  subjectId := "local-development"
  roles := ["agent", "operator", "promoter", "auditor"]

def bearer : String := "Bearer "

def raisedBy {α : Type} (result : Except PyError α) : Except Fault α := result.mapError .raised

def authenticate (platform : Platform) (settings : ServerSettings) (request : Request) : Except Fault Principal :=
  if !settings.requireAuth then .ok development
  else do
    let header := request.authorization.getD ""
    ensure (bearer.toList.isPrefixOf header.toList) (apiError 401 "unauthorized" "bearer token required")
    let token := String.ofList (header.toList.drop 7)
    let principal ← raisedBy (settings.authenticate platform token)
    orRaise principal (apiError 401 "unauthorized" "invalid bearer token")

def require (principal : Principal) (roles : List String) : Except Fault Unit :=
  ensure (principal.allows roles) (apiError 403 "forbidden" "principal lacks required role")

/-! The body. -/

def rejectDuplicateJsonKeys (pairs : List (String × Json)) : Option Json :=
  if (pairs.map Prod.fst).Nodup then some (.obj pairs) else none

/-- Its hooks reject numbers that are not finite. -/
def strictJsonLoads (floats : Floats) (raw : Bytes) : Except PyError Json := do
  let parsed ← orRaise (Json.readText floats rejectDuplicateJsonKeys raw) (.valueError "invalid JSON")
  ensure parsed.valid (.valueError "non-finite JSON number")
  validateJsonLimits parsed
  return parsed

def body (platform : Platform) (settings : ServerSettings) (request : Request) : Except Fault Json := do
  let rawLength ← orRaise request.contentLength (apiError 411 "length_required" "Content-Length required")
  let length ← orRaise (platform.int rawLength) (apiError 400 "invalid_length" "invalid Content-Length")
  ensure (0 ≤ length && length ≤ settings.maxRequestBytes) (apiError 413 "body_too_large" "request body exceeds limit")
  ensure (request.contentType = "application/json")
    (apiError 415 "unsupported_media_type" "application/json required")
  let raw ← raisedBy (request.read length.toNat)
  let value ← orRaise (strictJsonLoads platform.floats raw).toOption (apiError 400 "invalid_json" "invalid JSON body")
  ensure (HiddenBenchmark.isObject value) (apiError 400 "invalid_body" "request JSON must be an object")
  return value

/-! The query of the audit route. -/

/-- More digits than CPython converts. -/
def maxIntDigits : Nat := 4300

def queryInteger (query : List (String × List String)) (name : String) (default minimum maximum : Int) :
    Except Fault Int :=
  match query.lookup name with
  | none => .ok default
  | some values => do
      ensure (values.length = 1) (apiError 400 "invalid_query" "audit query fields may appear only once")
      let raw := values.headD ""
      ensure (raw ≠ "" && raw.toList.all Char.isDigit)
        (apiError 400 "invalid_query" ("audit query field '" ++ name ++ "' must contain ASCII digits"))
      ensure (raw.length ≤ maxIntDigits)
        (apiError 400 "invalid_query" ("audit query field '" ++ name ++ "' is outside the supported range"))
      let value : Int := Nat.ofDigitChars 10 raw.toList 0
      ensure (minimum ≤ value && value ≤ maximum)
        (apiError 400 "invalid_query" ("audit query field '" ++ name ++ "' must be between " ++ toString minimum ++
          " and " ++ toString maximum))
      return value

def auditQuery (platform : Platform) (query : String) : Except Fault (Int × Int) := do
  let fields ← (platform.parseQs query).mapError fun _ => apiError 400 "invalid_query" "invalid audit query"
  let unknown := ((fields.map Prod.fst).filter fun name => name ≠ "after" && name ≠ "limit").dedup.insertionSort (· ≤ ·)
  ensure unknown.isEmpty (apiError 400 "invalid_query" ("unknown audit query fields: " ++ ", ".intercalate unknown))
  let after ← queryInteger fields "after" 0 0 9223372036854775807
  let limit ← queryInteger fields "limit" 100 1 500
  return (after, limit)

/-! The call. -/

inductive ControlCall : Type
  | health
  | readiness
  | runDecision (principal : Principal) (body : Json) (idempotencyKey : String)
  | runEvidence (principal : Principal) (body : Json) (idempotencyKey : String)
  | evaluateHiddenBenchmark (principal : Principal) (body : Json) (idempotencyKey : String)
  | trainChallenger (principal : Principal) (body : Json) (idempotencyKey : String)
  | promote (principal : Principal) (challengerId : String) (body : Json) (idempotencyKey : String)
  | rollback (principal : Principal) (family : String) (body : Json) (idempotencyKey : String)
  | getChampion (principal : Principal) (family : String)
  | audit (principal : Principal) (after limit : Int)

/-- What an admitted request does: one call of the control plane, or the text of the counters. -/
inductive Target : Type
  | control (call : ControlCall)
  | metrics

def parameter (parameters : List (String × String)) (name : String) : Except Fault String :=
  orRaise (parameters.lookup name) (.raised (.other "KeyError" name))

def posted (route : String) (parameters : List (String × String)) (principal : Principal) (body : Json)
    (idempotencyKey : String) : Except Fault ControlCall :=
  if route = "/v1/decisions/run" then do
    require principal ["agent"]
    return .runDecision principal body idempotencyKey
  else if route = "/v1/evidence/run" then do
    require principal ["operator"]
    return .runEvidence principal body idempotencyKey
  else if route = "/v1/benchmarks/evaluate" then do
    require principal ["promoter"]
    return .evaluateHiddenBenchmark principal body idempotencyKey
  else if route = "/v1/challengers/train" then do
    require principal ["agent"]
    return .trainChallenger principal body idempotencyKey
  else if route = promoteRoute then do
    require principal ["promoter"]
    return .promote principal (← parameter parameters "challenger_id") body idempotencyKey
  else if route = rollbackRoute then do
    require principal ["promoter"]
    return .rollback principal (← parameter parameters "family") body idempotencyKey
  else .error (apiError 404 "not_found" "route not found")

/-- The part of `_dispatch` between the admission and the call. -/
def target (platform : Platform) (settings : ServerSettings) (request : Request) (query route : String)
    (parameters : List (String × String)) : Except Fault Target := do
  ensure (query = "" || (request.method = "GET" && route = "/v1/audit"))
    (apiError 400 "invalid_query" "route accepts no query")
  if request.method = "GET" && route = "/healthz" then return .control .health
  else if request.method = "GET" && route = "/readyz" then return .control .readiness
  else if request.method = "GET" && route = "/metrics" then return .metrics
  else
    let principal ← authenticate platform settings request
    if request.method = "POST" then
      let idempotencyKey := request.idempotencyKey.getD ""
      ensure (8 ≤ idempotencyKey.length && idempotencyKey.length ≤ 200)
        (apiError 400 "idempotency_required" "Idempotency-Key must contain 8-200 characters")
      let value ← body platform settings request
      return .control (← posted route parameters principal value idempotencyKey)
    else if request.method = "GET" && route = championRoute then
      require principal ["operator", "promoter", "auditor"]
      return .control (.getChampion principal (← parameter parameters "family"))
    else if request.method = "GET" && route = "/v1/audit" then
      require principal ["auditor", "operator"]
      let (after, limit) ← auditQuery platform query
      return .control (.audit principal after limit)
    else .error (apiError 404 "not_found" "route not found")

/-- `isinstance(error, (ValueError, KeyError, json.JSONDecodeError))`. -/
def isInvalid : PyError → Bool
  | .valueError _ | .receipt _ _ | .replayDetected _ => true
  | .other typeName _ => ["KeyError", "JSONDecodeError", "UnicodeDecodeError", "UnicodeEncodeError",
      "ConfigurationError"].contains typeName
  | _ => false

/-- The except clauses: what a fault is answered with. -/
def failure (platform : Platform) : Fault → APIError
  | .api error => error
  | .raised error => match error with
      | .budgetExceeded _ _ => ⟨429, "budget_exceeded", platform.text error⟩
      | _ =>
          if error.isConflict then ⟨409, "conflict", platform.text error⟩
          else if error.isNotFound then ⟨404, "not_found", platform.text error⟩
          else if isInvalid error then ⟨400, "invalid_request", platform.text error⟩
          else ⟨500, "internal_error", "internal server error"⟩

/-! What a route says about the path. -/

theorem not_mem_of_mem_splitOn {separator : Char} {text piece : List Char} (there : piece ∈ text.splitOn separator) :
    separator ∉ piece := by
  induction text generalizing piece with
  | nil => simp_all [List.splitOn_nil]
  | cons c rest ih =>
      rw [List.splitOn_cons_eq_if_modifyHead] at there
      by_cases separates : c = separator
      · simp only [separates, beq_self_eq_true, if_true, List.mem_cons] at there
        rcases there with rfl | later
        · simp
        · exact ih later
      · obtain ⟨first, others, split⟩ := List.exists_cons_of_ne_nil (List.splitOn_ne_nil separator rest)
        rw [if_neg (by simpa using separates), split, List.modifyHead_cons, List.mem_cons] at there
        rcases there with rfl | later
        · rw [List.mem_cons, not_or]
          exact ⟨Ne.symm separates, ih (by simp [split])⟩
        · exact ih (by simp [split, later])

/-- A path with these five segments. -/
theorem path_of_segments {path : String} {first second third fourth fifth : String}
    (segments : (path.toList.splitOn '/').map String.ofList = [first, second, third, fourth, fifth]) :
    path = first ++ "/" ++ second ++ "/" ++ third ++ "/" ++ fourth ++ "/" ++ fifth ∧ '/' ∉ fourth.toList := by
  have texts : path.toList.splitOn '/' =
      [first.toList, second.toList, third.toList, fourth.toList, fifth.toList] := by
    have back := congrArg (List.map String.toList) segments
    simpa [List.map_map, Function.comp_def] using back
  have joined : ['/'].intercalate (path.toList.splitOn '/') = path.toList := List.intercalate_splitOn '/'
  rw [texts] at joined
  constructor
  · apply String.toList_injective
    rw [← joined]
    simp [List.intercalate]
  · exact not_mem_of_mem_splitOn (by rw [texts]; simp)

/-- A segment of a path. -/
def Segment (name : String) : Prop := name ≠ "" ∧ '/' ∉ name.toList

/-- What a matched route says: the path itself, nothing, or a path with one free segment. -/
theorem matchRoute_cases (path : String) :
    (path ∈ staticRoutes ∧ matchRoute path = (path, [])) ∨ matchRoute path = unmatched ∨
    ∃ name, Segment name ∧
      ((path = "/v1/challengers/" ++ name ++ "/promote" ∧
          matchRoute path = (promoteRoute, [("challenger_id", name)])) ∨
        (path = "/v1/families/" ++ name ++ "/rollback" ∧ matchRoute path = (rollbackRoute, [("family", name)])) ∨
        (path = "/v1/families/" ++ name ++ "/champion" ∧ matchRoute path = (championRoute, [("family", name)]))) := by
  unfold matchRoute
  split
  next known => exact .inl ⟨List.contains_iff_mem.mp known, rfl⟩
  next =>
    refine .inr ?_
    split
    next first version kind name action segments =>
      obtain ⟨whole, plain⟩ := path_of_segments segments
      split
      next => exact .inl rfl
      next shaped =>
        simp only [ne_eq, Bool.or_eq_true, decide_eq_true_eq, not_or, not_not] at shaped
        obtain ⟨rfl, named⟩ := shaped
        split
        next promotes =>
          simp only [Bool.and_eq_true, decide_eq_true_eq, List.cons.injEq, and_true] at promotes
          obtain ⟨⟨rfl, rfl⟩, rfl⟩ := promotes
          exact .inr ⟨name, ⟨named, plain⟩, .inl ⟨whole.trans (by apply String.toList_injective; simp), rfl⟩⟩
        next =>
          split
          next rolls =>
            simp only [Bool.and_eq_true, decide_eq_true_eq, List.cons.injEq, and_true] at rolls
            obtain ⟨⟨rfl, rfl⟩, rfl⟩ := rolls
            exact .inr ⟨name, ⟨named, plain⟩, .inr (.inl ⟨whole.trans (by apply String.toList_injective; simp), rfl⟩)⟩
          next =>
            split
            next reads =>
              simp only [Bool.and_eq_true, decide_eq_true_eq, List.cons.injEq, and_true] at reads
              obtain ⟨⟨rfl, rfl⟩, rfl⟩ := reads
              exact .inr ⟨name, ⟨named, plain⟩, .inr (.inr ⟨whole.trans (by apply String.toList_injective; simp), rfl⟩)⟩
            next => exact .inl rfl
    next => exact .inl rfl

section Routes

variable {path route name : String} {parameters : List (String × String)}

theorem static_path {known : String} (matched : matchRoute path = (route, parameters)) (same : route = known)
    (static : known ∈ staticRoutes) : path = known := by
  subst same
  rcases matchRoute_cases path with ⟨_, same⟩ | unmatched | ⟨name, _, ⟨_, free⟩ | ⟨_, free⟩ | ⟨_, free⟩⟩
  · exact (Prod.mk.inj (same.symm.trans matched)).1
  · obtain ⟨rfl, -⟩ := Prod.mk.inj (unmatched.symm.trans matched)
    exact absurd static (by decide)
  all_goals
    obtain ⟨rfl, -⟩ := Prod.mk.inj (free.symm.trans matched)
    exact absurd static (by decide)

/-- A template with a free segment is matched by the paths of that template only. -/
theorem free_path (matched : matchRoute path = (route, parameters)) (free : route ∉ staticRoutes)
    (known : route ≠ unmatched.1) : ∃ name, Segment name ∧
      ((route = promoteRoute ∧ parameters = [("challenger_id", name)] ∧
          path = "/v1/challengers/" ++ name ++ "/promote") ∨
        (route = rollbackRoute ∧ parameters = [("family", name)] ∧ path = "/v1/families/" ++ name ++ "/rollback") ∨
        (route = championRoute ∧ parameters = [("family", name)] ∧
          path = "/v1/families/" ++ name ++ "/champion")) := by
  rcases matchRoute_cases path with ⟨static, same⟩ | none | ⟨name, segment, ⟨there, same⟩ | ⟨there, same⟩ | ⟨there, same⟩⟩
  · obtain ⟨rfl, -⟩ := Prod.mk.inj (same.symm.trans matched)
    exact absurd static free
  · exact absurd (congrArg Prod.fst (none.symm.trans matched)).symm known
  · obtain ⟨rfl, rfl⟩ := Prod.mk.inj (same.symm.trans matched)
    exact ⟨name, segment, .inl ⟨rfl, rfl, there⟩⟩
  · obtain ⟨rfl, rfl⟩ := Prod.mk.inj (same.symm.trans matched)
    exact ⟨name, segment, .inr (.inl ⟨rfl, rfl, there⟩)⟩
  · obtain ⟨rfl, rfl⟩ := Prod.mk.inj (same.symm.trans matched)
    exact ⟨name, segment, .inr (.inr ⟨rfl, rfl, there⟩)⟩

theorem promote_path (matched : matchRoute path = (route, parameters)) (same : route = promoteRoute)
    (named : parameters.lookup "challenger_id" = some name) :
    path = "/v1/challengers/" ++ name ++ "/promote" ∧ Segment name := by
  subst same
  obtain ⟨other, segment, ⟨-, rfl, there⟩ | ⟨same, -⟩ | ⟨same, -⟩⟩ := free_path matched (by decide) (by decide)
  · obtain rfl : other = name := by simpa using named
    exact ⟨there, segment⟩
  all_goals exact absurd same (by decide)

theorem rollback_path (matched : matchRoute path = (route, parameters)) (same : route = rollbackRoute)
    (named : parameters.lookup "family" = some name) :
    path = "/v1/families/" ++ name ++ "/rollback" ∧ Segment name := by
  subst same
  obtain ⟨other, segment, ⟨same, -⟩ | ⟨-, rfl, there⟩ | ⟨same, -⟩⟩ := free_path matched (by decide) (by decide)
  · exact absurd same (by decide)
  · obtain rfl : other = name := by simpa using named
    exact ⟨there, segment⟩
  · exact absurd same (by decide)

theorem champion_path (matched : matchRoute path = (route, parameters)) (same : route = championRoute)
    (named : parameters.lookup "family" = some name) :
    path = "/v1/families/" ++ name ++ "/champion" ∧ Segment name := by
  subst same
  obtain ⟨other, segment, ⟨same, -⟩ | ⟨same, -⟩ | ⟨-, rfl, there⟩⟩ := free_path matched (by decide) (by decide)
  · exact absurd same (by decide)
  · exact absurd same (by decide)
  · obtain rfl : other = name := by simpa using named
    exact ⟨there, segment⟩

end Routes

/-! What a call of the control plane says about its request. -/

section Authorised

variable (platform : Platform) (settings : ServerSettings) (request : Request)

/-- Whose token the request carries; without authentication, everybody is the developer. -/
def Known (principal : Principal) : Prop :=
  (settings.requireAuth = false ∧ principal = development) ∨
  ∃ token, request.authorization = some (bearer ++ token) ∧
    (platform.sha256Hex (utf8 token), principal) ∈ settings.tokenDigests

/-- An object that the request has sent within the limits of length, size and depth. -/
def Sent (value : Json) : Prop :=
  ∃ rawLength length raw, request.contentLength = some rawLength ∧ platform.int rawLength = some length ∧
    0 ≤ length ∧ length ≤ settings.maxRequestBytes ∧ request.contentType = "application/json" ∧
    request.read length.toNat = .ok raw ∧
    Json.readText platform.floats rejectDuplicateJsonKeys raw = some value ∧ value.valid = true ∧
    HiddenBenchmark.isObject value = true ∧ value.valueCount ≤ maxJsonValues ∧ value.nesting ≤ maxJsonDepth

def Posted (role : String) (principal : Principal) (value : Json) (idempotencyKey : String) : Prop :=
  request.method = "POST" ∧ Known platform settings request principal ∧ role ∈ principal.roles ∧
  request.idempotencyKey = some idempotencyKey ∧ 8 ≤ idempotencyKey.length ∧ idempotencyKey.length ≤ 200 ∧
  Sent platform settings request value

/-- Who may make a call, and what its arguments are bound to. -/
def Authorised (path : String) : ControlCall → Prop
  | .health => request.method = "GET" ∧ path = "/healthz"
  | .readiness => request.method = "GET" ∧ path = "/readyz"
  | .runDecision principal value key =>
      path = "/v1/decisions/run" ∧ Posted platform settings request "agent" principal value key
  | .runEvidence principal value key =>
      path = "/v1/evidence/run" ∧ Posted platform settings request "operator" principal value key
  | .evaluateHiddenBenchmark principal value key =>
      path = "/v1/benchmarks/evaluate" ∧ Posted platform settings request "promoter" principal value key
  | .trainChallenger principal value key =>
      path = "/v1/challengers/train" ∧ Posted platform settings request "agent" principal value key
  | .promote principal challengerId value key =>
      path = "/v1/challengers/" ++ challengerId ++ "/promote" ∧ Segment challengerId ∧
        Posted platform settings request "promoter" principal value key
  | .rollback principal family value key =>
      path = "/v1/families/" ++ family ++ "/rollback" ∧ Segment family ∧
        Posted platform settings request "promoter" principal value key
  | .getChampion principal family =>
      request.method = "GET" ∧ path = "/v1/families/" ++ family ++ "/champion" ∧ Segment family ∧
        Known platform settings request principal ∧
        ∃ role ∈ principal.roles, role ∈ ["operator", "promoter", "auditor"]
  | .audit principal after limit =>
      request.method = "GET" ∧ path = "/v1/audit" ∧ Known platform settings request principal ∧
        (∃ role ∈ principal.roles, role ∈ ["auditor", "operator"]) ∧
        0 ≤ after ∧ after < 2 ^ 63 ∧ 1 ≤ limit ∧ limit ≤ 500

end Authorised

section Accepted

variable {platform : Platform} {settings : ServerSettings} {request : Request} {principal : Principal}

theorem require_ok {roles : List String} (allowed : require principal roles = .ok ()) :
    ∃ role ∈ principal.roles, role ∈ roles := by
  have some := ensure_eq_ok.mp allowed
  simpa [Principal.allows] using some

theorem require_one {role : String} (allowed : require principal [role] = .ok ()) : role ∈ principal.roles := by
  obtain ⟨same, held, listed⟩ := require_ok allowed
  exact List.mem_singleton.mp listed ▸ held

/-- The search for a token keeps the principal of an entry that matches it. -/
theorem ServerSettings.authenticate_ok {token : String} {found : Option Principal}
    (authenticated : settings.authenticate platform token = .ok found) :
    ∀ principal, found = some principal → (platform.sha256Hex (utf8 token), principal) ∈ settings.tokenDigests := by
  refine foldlM_kept (fun found => ∀ principal, found = some principal →
    (platform.sha256Hex (utf8 token), principal) ∈ settings.tokenDigests) ?_ ?_ authenticated
  · intro found entry after listed known turned
    obtain ⟨matched, compared, turned⟩ := bind_eq_ok.mp turned
    obtain ⟨_, _, compared⟩ := bind_eq_ok.mp compared
    cases matched with
    | false => exact pure_eq_ok.mp turned ▸ known
    | true =>
        obtain rfl := pure_eq_ok.mp turned
        intro principal same
        obtain rfl := Option.some.inj same
        have equal : entry.1 = platform.sha256Hex (utf8 token) := by simpa using pure_eq_ok.mp compared
        rw [← equal]
        exact listed
  · intro principal none
    simp at none

theorem raisedBy_ok {α : Type} {result : Except PyError α} {value : α} (passed : raisedBy result = .ok value) :
    result = .ok value := by
  cases result with
  | ok same => simpa [raisedBy, Except.mapError] using passed
  | error error => simp [raisedBy, Except.mapError] at passed

theorem authenticate_ok (authenticated : authenticate platform settings request = .ok principal) :
    Known platform settings request principal := by
  unfold authenticate at authenticated
  split at authenticated
  next off => exact .inl ⟨by simpa using off, (Except.ok.inj authenticated).symm⟩
  next =>
    obtain ⟨_, carried, authenticated⟩ := bind_eq_ok.mp authenticated
    have carried := List.isPrefixOf_iff_prefix.mp (ensure_eq_ok.mp carried)
    obtain ⟨found, looked, authenticated⟩ := bind_eq_ok.mp authenticated
    have matched := ServerSettings.authenticate_ok (raisedBy_ok looked) principal (orRaise_eq_ok.mp authenticated)
    obtain ⟨token, text⟩ := carried
    refine .inr ⟨String.ofList token, ?_, ?_⟩
    · cases header : request.authorization with
      | none => simp [header, bearer] at text
      | some value =>
          simp only [header, Option.getD_some] at text
          congr 1
          apply String.toList_injective
          rw [← text]
          simp
    · rw [← text] at matched
      simpa [bearer] using matched

theorem strictJsonLoads_ok {floats : Floats} {raw : Bytes} {value : Json}
    (loaded : strictJsonLoads floats raw = .ok value) :
    Json.readText floats rejectDuplicateJsonKeys raw = some value ∧ value.valid = true ∧
      value.valueCount ≤ maxJsonValues ∧ value.nesting ≤ maxJsonDepth := by
  obtain ⟨parsed, read, loaded⟩ := bind_eq_ok.mp loaded
  obtain ⟨_, valid, loaded⟩ := bind_eq_ok.mp loaded
  obtain ⟨_, limited, loaded⟩ := bind_eq_ok.mp loaded
  obtain rfl := pure_eq_ok.mp loaded
  have fits := (verdict_ok_iff (validateStack_verdict [(parsed, 0)] 0) (Nat.zero_le _)).mp limited
  exact ⟨orRaise_eq_ok.mp read, ensure_eq_ok.mp valid, (start_fits parsed).mp fits⟩

theorem body_ok {value : Json} (accepted : body platform settings request = .ok value) :
    Sent platform settings request value := by
  obtain ⟨rawLength, header, accepted⟩ := bind_eq_ok.mp accepted
  obtain ⟨length, parsed, accepted⟩ := bind_eq_ok.mp accepted
  obtain ⟨_, bounded, accepted⟩ := bind_eq_ok.mp accepted
  obtain ⟨_, typed, accepted⟩ := bind_eq_ok.mp accepted
  obtain ⟨raw, read, accepted⟩ := bind_eq_ok.mp accepted
  obtain ⟨loaded, found, accepted⟩ := bind_eq_ok.mp accepted
  obtain ⟨_, object, accepted⟩ := bind_eq_ok.mp accepted
  obtain rfl := pure_eq_ok.mp accepted
  have bounds : 0 ≤ length ∧ length ≤ settings.maxRequestBytes := by simpa using ensure_eq_ok.mp bounded
  have strict : strictJsonLoads platform.floats raw = .ok loaded := by
    have some := orRaise_eq_ok.mp found
    cases result : strictJsonLoads platform.floats raw with
    | ok same => simpa [result, Except.toOption] using some
    | error error => simp [result, Except.toOption] at some
  obtain ⟨text, valid, counted, shallow⟩ := strictJsonLoads_ok strict
  exact ⟨rawLength, length, raw, orRaise_eq_ok.mp header, orRaise_eq_ok.mp parsed, bounds.1, bounds.2,
    by simpa using ensure_eq_ok.mp typed, raisedBy_ok read, text, valid, ensure_eq_ok.mp object, counted, shallow⟩

theorem queryInteger_bounds {query : List (String × List String)} {name : String}
    {default minimum maximum value : Int} (read : queryInteger query name default minimum maximum = .ok value)
    (inside : minimum ≤ default ∧ default ≤ maximum) : minimum ≤ value ∧ value ≤ maximum := by
  unfold queryInteger at read
  split at read
  next => exact Except.ok.inj read ▸ inside
  next =>
    obtain ⟨-, -, read⟩ := bind_eq_ok.mp read
    obtain ⟨-, -, read⟩ := bind_eq_ok.mp read
    obtain ⟨-, -, read⟩ := bind_eq_ok.mp read
    obtain ⟨_, bounded, read⟩ := bind_eq_ok.mp read
    obtain rfl := pure_eq_ok.mp read
    simpa using ensure_eq_ok.mp bounded

theorem auditQuery_bounds {query : String} {after limit : Int}
    (read : auditQuery platform query = .ok (after, limit)) :
    0 ≤ after ∧ after < 2 ^ 63 ∧ 1 ≤ limit ∧ limit ≤ 500 := by
  obtain ⟨fields, _, read⟩ := bind_eq_ok.mp read
  obtain ⟨-, -, read⟩ := bind_eq_ok.mp read
  obtain ⟨first, after_read, read⟩ := bind_eq_ok.mp read
  obtain ⟨second, limit_read, read⟩ := bind_eq_ok.mp read
  obtain ⟨rfl, rfl⟩ := Prod.mk.inj (pure_eq_ok.mp read)
  have after_bounds := queryInteger_bounds after_read (by omega)
  have limit_bounds := queryInteger_bounds limit_read (by omega)
  omega

/-- A static route calls the control plane once its role is there. -/
theorem required_call {role : String} {made call : ControlCall}
    (calls : (require principal [role] >>= fun _ => pure made) = .ok call) : made = call ∧ role ∈ principal.roles := by
  obtain ⟨_, allowed, calls⟩ := bind_eq_ok.mp calls
  exact ⟨pure_eq_ok.mp calls, require_one allowed⟩

/-- The call of a POST is authorised where its route is. -/
theorem posted_authorised {path route key : String} {parameters : List (String × String)} {value : Json}
    {call : ControlCall} (matched : matchRoute path = (route, parameters))
    (calls : posted route parameters principal value key = .ok call)
    (sent : ∀ role ∈ principal.roles, Posted platform settings request role principal value key) :
    Authorised platform settings request path call := by
  unfold posted at calls
  split at calls
  next same =>
    obtain ⟨rfl, held⟩ := required_call calls
    exact ⟨static_path matched same (by decide), sent _ held⟩
  next =>
  split at calls
  next same =>
    obtain ⟨rfl, held⟩ := required_call calls
    exact ⟨static_path matched same (by decide), sent _ held⟩
  next =>
  split at calls
  next same =>
    obtain ⟨rfl, held⟩ := required_call calls
    exact ⟨static_path matched same (by decide), sent _ held⟩
  next =>
  split at calls
  next same =>
    obtain ⟨rfl, held⟩ := required_call calls
    exact ⟨static_path matched same (by decide), sent _ held⟩
  next =>
  split at calls
  next same =>
    obtain ⟨_, allowed, calls⟩ := bind_eq_ok.mp calls
    obtain ⟨name, read, calls⟩ := bind_eq_ok.mp calls
    obtain rfl := pure_eq_ok.mp calls
    obtain ⟨there, segment⟩ := promote_path matched same (orRaise_eq_ok.mp read)
    exact ⟨there, segment, sent _ (require_one allowed)⟩
  next =>
  split at calls
  next same =>
    obtain ⟨_, allowed, calls⟩ := bind_eq_ok.mp calls
    obtain ⟨name, read, calls⟩ := bind_eq_ok.mp calls
    obtain rfl := pure_eq_ok.mp calls
    obtain ⟨there, segment⟩ := rollback_path matched same (orRaise_eq_ok.mp read)
    exact ⟨there, segment, sent _ (require_one allowed)⟩
  next => simp at calls

/-- Whatever the control plane is called with is authorised by the request. -/
theorem target_authorised {path query route : String} {parameters : List (String × String)} {call : ControlCall}
    (matched : matchRoute path = (route, parameters))
    (reached : target platform settings request query route parameters = .ok (.control call)) :
    Authorised platform settings request path call := by
  obtain ⟨_, _, reached⟩ := bind_eq_ok.mp reached
  split at reached
  next health =>
    obtain ⟨get, same⟩ : request.method = "GET" ∧ route = "/healthz" := by simpa using health
    obtain rfl := Target.control.inj (pure_eq_ok.mp reached)
    exact ⟨get, static_path matched same (by decide)⟩
  next =>
  split at reached
  next ready =>
    obtain ⟨get, same⟩ : request.method = "GET" ∧ route = "/readyz" := by simpa using ready
    obtain rfl := Target.control.inj (pure_eq_ok.mp reached)
    exact ⟨get, static_path matched same (by decide)⟩
  next =>
  split at reached
  next => simp [pure, Except.pure] at reached
  next =>
  obtain ⟨principal, authenticated, reached⟩ := bind_eq_ok.mp reached
  have known := authenticate_ok authenticated
  split at reached
  next post =>
    obtain ⟨_, keyed, reached⟩ := bind_eq_ok.mp reached
    obtain ⟨value, accepted, reached⟩ := bind_eq_ok.mp reached
    obtain ⟨call, calls, reached⟩ := bind_eq_ok.mp reached
    obtain rfl := Target.control.inj (pure_eq_ok.mp reached)
    have bounds : 8 ≤ (request.idempotencyKey.getD "").length ∧ (request.idempotencyKey.getD "").length ≤ 200 := by
      simpa using ensure_eq_ok.mp keyed
    have given : request.idempotencyKey = some (request.idempotencyKey.getD "") := by
      cases key : request.idempotencyKey with
      | none => simp [key] at bounds
      | some key => rfl
    exact posted_authorised matched calls fun role held =>
      ⟨post, known, held, given, bounds.1, bounds.2, body_ok accepted⟩
  next =>
  split at reached
  next champion =>
    obtain ⟨get, same⟩ : request.method = "GET" ∧ route = championRoute := by simpa using champion
    obtain ⟨_, allowed, reached⟩ := bind_eq_ok.mp reached
    obtain ⟨family, read, reached⟩ := bind_eq_ok.mp reached
    obtain rfl := Target.control.inj (pure_eq_ok.mp reached)
    obtain ⟨there, segment⟩ := champion_path matched same (orRaise_eq_ok.mp read)
    exact ⟨get, there, segment, known, require_ok allowed⟩
  next =>
  split at reached
  next audits =>
    obtain ⟨get, same⟩ : request.method = "GET" ∧ route = "/v1/audit" := by simpa using audits
    obtain ⟨_, allowed, reached⟩ := bind_eq_ok.mp reached
    obtain ⟨window, read, reached⟩ := bind_eq_ok.mp reached
    obtain rfl := Target.control.inj (pure_eq_ok.mp reached)
    exact ⟨get, static_path matched same (by decide), known, require_ok allowed, auditQuery_bounds read⟩
  next => simp at reached

end Accepted

end AgentTree.Api
