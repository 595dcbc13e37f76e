import AgentTree.HTTPRequests
import AgentTree.KeyRotation

/-!
The first secrets of a service.  `initialize_secrets` (`secrets.py`) writes a key ring, the digests of four API tokens
and the tokens themselves; `Settings.from_env` (`config.py`) reads the digests back for the authentication of requests.
-/

namespace AgentTree.Api

open Outcome Relational

/-! Files that must not exist before. -/

/-- The private files of the machine, by their absolute paths. -/
abbrev SecretFiles := String → Option SecretFile

/-- `_atomic_private_json` without replacement.  A write that raises unlinks what it had published. -/
def createPrivateJson (fault : String → Option PyError) (path : String) (payload : Json) (files : SecretFiles) :
    Except PyError SecretFiles := do
  match fault path with
  | some error => .error error
  | none =>
      ensure (files path).isNone (.other "FileExistsError" path)
      return Function.update files path (some (atomicPrivateJson payload))

/-- The files of a bootstrap are created in turn; where one raises, those already created are unlinked. -/
def createAll (create : String → Json → SecretFiles → Except PyError SecretFiles) :
    List (String × Json) → List String → SecretFiles → Except PyError Unit × SecretFiles
  | [], _, files => (.ok (), files)
  | (path, payload) :: rest, created, files =>
      match create path payload files with
      | .ok after => createAll create rest (path :: created) after
      | .error error => (.error error, created.foldl (fun files path => Function.update files path none) files)

/-! What a bootstrap writes. -/

def tokenRoles : List String := ["agent", "operator", "promoter", "auditor"]

/-- The paths as `os.path.abspath` leaves them. -/
structure SecretPaths where
  keyring : String
  token : String
  plaintext : String

def SecretPaths.all (paths : SecretPaths) : List String := [paths.keyring, paths.token, paths.plaintext]

/-- `initialize_keyring`'s draws, and `secrets.token_urlsafe(48)` for each role. -/
structure SecretDraws where
  keyring : Draw
  token : String → String

def subjectId (role digest : String) : String :=
  "bootstrap-" ++ role ++ "-" ++ String.ofList (digest.toList.take 12)

section Bootstrap

variable (platform : Platform) (tenantId : String) (draws : SecretDraws)

def SecretDraws.digest (role : String) : String := platform.sha256Hex (utf8 (draws.token role))

def tokenEntry (role : String) : String × Json := (draws.digest platform role, .obj [
  ("tenant_id", .str tenantId),
  ("roles", .arr [.str role]),
  ("subject_id", .str (subjectId role (draws.digest platform role)))])

def tokenPayload : Json := .obj (Dict.ofList (tokenRoles.map (tokenEntry platform tenantId draws))).rows

def plaintextPayload : Json := .obj [
  ("api_tokens", .obj (tokenRoles.map fun role => (role, .str (draws.token role)))),
  ("tenant_id", .str tenantId),
  ("warning", .str "Move these one-time tokens to a secret manager, then securely delete this file.")]

def secretFiles (paths : SecretPaths) : List (String × Json) := [
  (paths.keyring, keyringPayload draws.keyring.keyId (Dict.ofList [draws.keyring.entry])),
  (paths.token, tokenPayload platform tenantId draws),
  (paths.plaintext, plaintextPayload tenantId draws)]

/-- `initialize_secrets`; the check of `initialize_keyring` is the one made here before anything is written. -/
def initializeSecrets (fault : String → Option PyError) (paths : SecretPaths) (files : SecretFiles) :
    Except PyError Unit × SecretFiles :=
  if ¬ paths.all.Nodup then (.error (.valueError "bootstrap secret paths must be distinct"), files)
  else if paths.all.any fun path => (files path).isSome then
    (.error (.other "FileExistsError" "refusing to overwrite existing production secrets"), files)
  else createAll (createPrivateJson fault) (secretFiles platform tenantId draws paths) [] files

end Bootstrap

/-! What `Settings.from_env` reads of the token file. -/

def invalidPrincipal : PyError := configurationError "API token principal is invalid"

def principalMembers (value : Json) : Except PyError (String × List Json × String) := do
  match value.get? "tenant_id", value.get? "roles", value.get? "subject_id" with
  | some (.str tenant), some (.arr roles), some (.str subject) =>
      ensure (tenant ≠ "" && subject ≠ "") invalidPrincipal
      return (tenant, roles, subject)
  | _, _, _ => .error invalidPrincipal

/-- The role that `str(role)` names; that of a value other than a text names none. -/
def tokenRole : Json → Option String
  | .str name => if tokenRoles.contains name then some name else none
  | _ => none

def tokenDigest (entry : String × Json) : Except PyError (String × Principal) := do
  ensure (entry.1.length = 64 && HiddenBenchmark.isObject entry.2)
    (configurationError "API token entries must use SHA-256 digest keys")
  let (tenant, items, subject) ← principalMembers entry.2
  let roles ← orRaise (items.mapM tokenRole) (configurationError "API token roles are invalid")
  ensure (roles ≠ []) (configurationError "API token roles are invalid")
  return (entry.1, { tenantId := tenant, subjectId := subject, roles := roles.dedup })

def tokenDigests (requireAuth : Bool) (floats : Floats) (path : String) (file : Option SecretFile) :
    Except PyError (List (String × Principal)) := do
  if !requireAuth then return []
  let value ← privateJson floats path file
  match value with
  | .obj (first :: rest) => (first :: rest).mapM tokenDigest
  | _ => .error (configurationError "API token file must contain at least one digest")

/-! A bootstrap creates all of its files or none. -/

section Created

variable {fault : String → Option PyError} {files after : SecretFiles}

theorem createPrivateJson_ok {path : String} {payload : Json}
    (created : createPrivateJson fault path payload files = .ok after) :
    files path = none ∧ after = Function.update files path (some (atomicPrivateJson payload)) := by
  unfold createPrivateJson at created
  split at created
  next => simp at created
  next =>
    obtain ⟨_, absent, created⟩ := bind_eq_ok.mp created
    exact ⟨Option.isNone_iff_eq_none.mp (ensure_eq_ok.mp absent), (pure_eq_ok.mp created).symm⟩

/-- Unlinking what was created brings back the files as they were. -/
theorem createAll_failed {error : PyError} : ∀ {pending : List (String × Json)} {created : List String}
    {files : SecretFiles}, createAll (createPrivateJson fault) pending created files = (.error error, after) →
    after = created.foldl (fun files path => Function.update files path none) files
  | [], created, files, failed => by simp [createAll] at failed
  | (path, payload) :: rest, created, files, failed => by
      rw [createAll] at failed
      split at failed
      next next made =>
        obtain ⟨absent, rfl⟩ := createPrivateJson_ok made
        rw [createAll_failed failed, List.foldl_cons, Function.update_idem]
        congr 1
        exact absent ▸ Function.update_eq_self path files
      next => exact (Prod.mk.inj failed).2.symm

theorem createAll_kept {path : String} : ∀ {pending : List (String × Json)} {created : List String}
    {files : SecretFiles}, createAll (createPrivateJson fault) pending created files = (.ok (), after) →
    path ∉ pending.map Prod.fst → after path = files path
  | [], created, files, done, _ => by
      obtain rfl := (Prod.mk.inj done).2
      rfl
  | (first, payload) :: rest, created, files, done, other => by
      rw [createAll] at done
      have different : path ≠ first := List.ne_of_not_mem_cons other
      have later : path ∉ rest.map Prod.fst := List.not_mem_of_not_mem_cons other
      split at done
      next next made =>
        obtain ⟨_, rfl⟩ := createPrivateJson_ok made
        rw [createAll_kept done later, Function.update_of_ne different]
      next => simp at done

theorem createAll_written {path : String} {payload : Json} : ∀ {pending : List (String × Json)}
    {created : List String} {files : SecretFiles},
    createAll (createPrivateJson fault) pending created files = (.ok (), after) → (pending.map Prod.fst).Nodup →
    (path, payload) ∈ pending → after path = some (atomicPrivateJson payload)
  | [], _, _, _, _, member => by simp at member
  | (first, content) :: rest, created, files, done, distinct, member => by
      rw [createAll] at done
      obtain ⟨fresh, distinct⟩ := List.nodup_cons.mp distinct
      split at done
      next next made =>
        obtain ⟨_, rfl⟩ := createPrivateJson_ok made
        rcases List.mem_cons.mp member with same | later
        · obtain ⟨rfl, rfl⟩ := Prod.mk.inj same
          rw [createAll_kept done fresh, Function.update_self]
        · exact createAll_written done distinct later
      next => simp at done

variable {platform : Platform} {tenantId : String} {draws : SecretDraws} {paths : SecretPaths}

/-- A bootstrap that raises leaves the files as they were. -/
theorem initializeSecrets_failed {error : PyError}
    (failed : initializeSecrets platform tenantId draws fault paths files = (.error error, after)) :
    after = files := by
  unfold initializeSecrets at failed
  split at failed
  next => exact (Prod.mk.inj failed).2.symm
  next =>
  split at failed
  next => exact (Prod.mk.inj failed).2.symm
  next => exact createAll_failed failed

theorem initializeSecrets_ok (done : initializeSecrets platform tenantId draws fault paths files = (.ok (), after)) :
    ∀ path payload, (path, payload) ∈ secretFiles platform tenantId draws paths →
      files path = none ∧ after path = some (atomicPrivateJson payload) := by
  unfold initializeSecrets at done
  split at done
  next => simp at done
  next distinct =>
  split at done
  next => simp at done
  next absent =>
    intro path payload member
    have listed : path ∈ (secretFiles platform tenantId draws paths).map Prod.fst :=
      List.mem_map_of_mem (f := Prod.fst) member
    refine ⟨?_, createAll_written done (not_not.mp distinct) member⟩
    simpa using fun present => absent (List.any_eq_true.mpr ⟨path, listed, present⟩)

end Created

/-! The digests are read back as they were written. -/

section Written

variable (platform : Platform) (tenantId : String) (draws : SecretDraws)

/-- The principal of the token that a bootstrap gives a role. -/
def issued (role : String) : Principal where
  tenantId := tenantId
  subjectId := subjectId role (draws.digest platform role)
  roles := [role]

/-- SHA-256 in hexadecimal. -/
structure Platform.Hexadecimal : Prop where
  length : ∀ bytes, (platform.sha256Hex bytes).length = 64
  ascii : ∀ bytes, isAscii (platform.sha256Hex bytes) = true

variable {platform} {tenantId} {draws}

theorem subjectId_nonempty (role digest : String) : subjectId role digest ≠ "" := by
  intro empty
  have length := congrArg String.length empty
  simp [subjectId] at length

theorem principalMembers_written (tenant : tenantId ≠ "") (role : String) :
    principalMembers (tokenEntry platform tenantId draws role).2.canonical =
      .ok (tenantId, [.str role], subjectId role (draws.digest platform role)) := by
  have members : ∀ name, (tokenEntry platform tenantId draws role).2.canonical.get? name =
      ((tokenEntry platform tenantId draws role).2.get? name).map Json.canonical := get?_canonical (by simp)
  have nonempty := subjectId_nonempty role (draws.digest platform role)
  have named : (tokenEntry platform tenantId draws role).2.canonical.get? "tenant_id" = some (.str tenantId) :=
    members "tenant_id"
  have listed : (tokenEntry platform tenantId draws role).2.canonical.get? "roles" = some (.arr [.str role]) :=
    members "roles"
  have subject : (tokenEntry platform tenantId draws role).2.canonical.get? "subject_id" =
      some (.str (subjectId role (draws.digest platform role))) := members "subject_id"
  simp [principalMembers, named, listed, subject, tenant, nonempty, ensure, bind, Except.bind, pure, Except.pure]

theorem tokenDigest_written (hex : platform.Hexadecimal) (tenant : tenantId ≠ "") {role : String}
    (known : role ∈ tokenRoles) :
    tokenDigest (draws.digest platform role, (tokenEntry platform tenantId draws role).2.canonical) =
      .ok (draws.digest platform role, issued platform tenantId draws role) := by
  have size : (draws.digest platform role).length = 64 := hex.length _
  have object : HiddenBenchmark.isObject (tokenEntry platform tenantId draws role).2.canonical = true := rfl
  have roles : [Json.str role].mapM tokenRole = some [role] := by
    simp [tokenRole, known]
  simp [tokenDigest, size, object, principalMembers_written tenant, roles, issued, ensure, orRaise, bind, Except.bind,
    pure, Except.pure]

theorem tokenPayload_rows (distinct : (tokenRoles.map (draws.digest platform)).Nodup) :
    tokenPayload platform tenantId draws = .obj (tokenRoles.map (tokenEntry platform tenantId draws)) := by
  have names : ((tokenRoles.map (tokenEntry platform tenantId draws)).map Prod.fst).Nodup := by
    rw [List.map_map]
    exact distinct
  rw [tokenPayload, Dict.rows_ofList names]

theorem tokenPayload_genuine {floats : Floats} : (tokenPayload platform tenantId draws).Genuine floats := by
  refine ⟨(Dict.ofList _).unique, Json.genuineMembers_iff.mpr fun entry member => ?_⟩
  obtain ⟨role, _, rfl⟩ := List.mem_map.mp (Dict.mem_ofList member)
  exact ⟨by simp, trivial, ⟨trivial, trivial⟩, trivial, trivial⟩

/-- The digests of the file stand in their own order. -/
theorem sortedMembers_tokens (platform : Platform) (tenantId : String) (draws : SecretDraws) :
    ∃ order : List String, order.Perm tokenRoles ∧
    Json.sortedMembers (tokenRoles.map (tokenEntry platform tenantId draws)) =
      order.map fun role => (draws.digest platform role, (tokenEntry platform tenantId draws role).2.canonical) := by
  refine ⟨tokenRoles.insertionSort fun a b =>
    Json.nameOrder (draws.digest platform a) ≤ Json.nameOrder (draws.digest platform b),
    List.perm_insertionSort _ _, ?_⟩
  rw [Json.sortedMembers, Json.canonicalMembers_eq, List.map_map]
  exact (List.map_insertionSort _ (fun a b : String × Json => Json.nameOrder a.1 ≤ Json.nameOrder b.1) _ tokenRoles
    fun _ _ _ _ => Iff.rfl).symm

theorem tokenDigests_written (hex : platform.Hexadecimal) (tenant : tenantId ≠ "")
    (distinct : (tokenRoles.map (draws.digest platform)).Nodup) (path : String)
    (small : (atomicPrivateJson (tokenPayload platform tenantId draws)).content.length ≤ maxPrivateJsonBytes) :
    ∃ order : List String, order.Perm tokenRoles ∧
      tokenDigests true platform.floats path (some (atomicPrivateJson (tokenPayload platform tenantId draws))) =
        .ok (order.map fun role => (draws.digest platform role, issued platform tenantId draws role)) := by
  obtain ⟨order, perm, sorted⟩ := sortedMembers_tokens platform tenantId draws
  have read : privateJson platform.floats path (some (atomicPrivateJson (tokenPayload platform tenantId draws))) =
      .ok (tokenPayload platform tenantId draws).canonical := privateJson_written tokenPayload_genuine small
  have form : (tokenPayload platform tenantId draws).canonical =
      .obj (order.map fun role =>
        (draws.digest platform role, (tokenEntry platform tenantId draws role).2.canonical)) := by
    rw [tokenPayload_rows distinct, Json.canonical, ← sorted]
    rfl
  have digests : (order.map fun role =>
      (draws.digest platform role, (tokenEntry platform tenantId draws role).2.canonical)).mapM tokenDigest =
      .ok (order.map fun role => (draws.digest platform role, issued platform tenantId draws role)) :=
    mapM_map_ok fun role member => tokenDigest_written hex tenant (perm.mem_iff.mp member)
  refine ⟨order, perm, ?_⟩
  rw [form] at read
  cases order with
  | nil => exact absurd perm.length_eq (by decide)
  | cons first rest =>
      simp only [tokenDigests, read, bind, Except.bind, Bool.not_true, Bool.false_eq_true, ↓reduceIte, List.map_cons]
      exact digests

end Written

/-! Who a bearer token is. -/

section Bearer

variable {platform : Platform} {settings : ServerSettings} {request : Request} {token : String}

theorem compareDigest_ascii {first second : String} (plain : isAscii first = true) (other : isAscii second = true) :
    compareDigest first second = .ok (first = second) := by
  simp [compareDigest, plain, other, ensure, bind, Except.bind, pure, Except.pure]

/-- Among ASCII digests the search finds the last that matches, whatever it had found before. -/
theorem authenticate_last (hex : platform.Hexadecimal)
    (plain : ∀ entry ∈ settings.tokenDigests, isAscii entry.1 = true) :
    settings.authenticate platform token =
      .ok ((settings.tokenDigests.reverse.find? fun entry =>
        entry.1 = platform.sha256Hex (utf8 token)).map Prod.snd) := by
  have searched : ∀ (entries : List (String × Principal)) (found : Option Principal),
      (∀ entry ∈ entries, isAscii entry.1 = true) →
      (entries.foldlM (fun found entry => do
        return if ← compareDigest entry.1 (platform.sha256Hex (utf8 token)) then some entry.2 else found) found :
        Except PyError (Option Principal)) =
      .ok (((entries.reverse.find? fun entry => entry.1 = platform.sha256Hex (utf8 token)).map Prod.snd).or found) := by
    intro entries
    induction entries with
    | nil => simp [pure, Except.pure]
    | cons entry rest ih =>
        intro found plain
        obtain ⟨first, later⟩ := List.forall_mem_cons.mp plain
        simp only [List.foldlM_cons, compareDigest_ascii first (hex.ascii _), bind, Except.bind, pure, Except.pure,
          decide_eq_true_eq]
        refine (ih _ later).trans ?_
        rw [List.reverse_cons, List.find?_append]
        by_cases same : entry.1 = platform.sha256Hex (utf8 token)
        · cases rest.reverse.find? fun other => other.1 = platform.sha256Hex (utf8 token) <;> simp [same]
        · cases rest.reverse.find? fun other => other.1 = platform.sha256Hex (utf8 token) <;> simp [same]
  have answered := searched settings.tokenDigests none plain
  rw [Option.or_none] at answered
  exact answered

theorem authenticate_bearer (on : settings.requireAuth = true)
    (sent : request.authorization = some (bearer ++ token)) {found : Option Principal}
    (searched : settings.authenticate platform token = .ok found) :
    authenticate platform settings request = orRaise found (apiError 401 "unauthorized" "invalid bearer token") := by
  have carried : (bearer.toList.isPrefixOf (bearer ++ token).toList) = true := by
    rw [List.isPrefixOf_iff_prefix, String.toList_append]
    exact List.prefix_append _ _
  have rest : String.ofList ((bearer ++ token).toList.drop 7) = token := by
    rw [String.toList_append, List.drop_left' (by decide)]
    exact String.ofList_toList
  simp only [authenticate, on, sent, carried, rest, searched, raisedBy, Except.mapError, ensure, bind, Except.bind,
    Option.getD_some, Bool.not_true, Bool.false_eq_true, ↓reduceIte]

theorem require_issued {tenantId : String} {draws : SecretDraws} {role : String} {allowed : List String} :
    require (issued platform tenantId draws role) allowed = .ok () ↔ role ∈ allowed := by
  simp [require, ensure_eq_ok, Principal.allows, issued]

end Bearer

/-! The tokens of a bootstrap. -/

section Issued

variable {platform : Platform} {tenantId : String} {draws : SecretDraws} {path : String} {file : Option SecretFile}

/-- The key ring of a bootstrap holds its key alone. -/
theorem keyring_loaded {floats : Floats}
    (stored : file = some (atomicPrivateJson (keyringPayload draws.keyring.keyId (Dict.ofList [draws.keyring.entry]))))
    (small : ∀ present ∈ file, present.content.length ≤ maxPrivateJsonBytes) :
    ∃ keys : Dict String Bytes, loadKeyring floats path file = .ok (keys, draws.keyring.keyId) ∧
      keys.rows = [draws.keyring.entry] := by
  subst stored
  have rows : (Dict.ofList [draws.keyring.entry]).rows = [draws.keyring.entry] := Dict.rows_ofList (by simp)
  have long : ∀ entry ∈ (Dict.ofList [draws.keyring.entry]).rows, 32 ≤ entry.2.length := by
    rw [rows]
    simp [Draw.entry, draws.keyring.long]
  have present : draws.keyring.keyId ∈ (Dict.ofList [draws.keyring.entry]).keys := by
    rw [Dict.keys, rows]
    simp [Draw.entry]
  obtain ⟨keys, loaded, same⟩ := loadKeyring_written long present (small _ rfl)
  rw [rows, List.perm_singleton] at same
  exact ⟨keys, loaded, same⟩

/-- The server knows exactly the four tokens, each as a principal of its own role alone. -/
def Served (platform : Platform) (tenantId : String) (draws : SecretDraws)
    (digests : List (String × Principal)) : Prop :=
  ∀ settings : ServerSettings, settings.requireAuth = true → settings.tokenDigests = digests →
    ∀ (request : Request) (token : String), request.authorization = some (bearer ++ token) →
      (∀ role ∈ tokenRoles, token = draws.token role →
        authenticate platform settings request = .ok (issued platform tenantId draws role) ∧
          ∀ allowed, require (issued platform tenantId draws role) allowed = .ok () ↔ role ∈ allowed) ∧
      ((∀ role ∈ tokenRoles, platform.sha256Hex (utf8 token) ≠ draws.digest platform role) →
        authenticate platform settings request = .error (apiError 401 "unauthorized" "invalid bearer token"))

theorem tokens_served (hex : platform.Hexadecimal) (tenant : tenantId ≠ "")
    (distinct : (tokenRoles.map (draws.digest platform)).Nodup)
    (stored : file = some (atomicPrivateJson (tokenPayload platform tenantId draws)))
    (small : ∀ present ∈ file, present.content.length ≤ maxPrivateJsonBytes) :
    ∃ digests, tokenDigests true platform.floats path file = .ok digests ∧
      Served platform tenantId draws digests := by
  subst stored
  obtain ⟨order, perm, digests⟩ := tokenDigests_written hex tenant distinct path (small _ rfl)
  refine ⟨_, digests, fun settings on read request token sent => ?_⟩
  have plain : ∀ entry ∈ settings.tokenDigests, isAscii entry.1 = true := by
    rw [read]
    intro entry member
    obtain ⟨role, _, rfl⟩ := List.mem_map.mp member
    exact hex.ascii _
  have answered := authenticate_bearer on sent (authenticate_last hex plain)
  constructor
  · rintro role known rfl
    refine ⟨?_, fun allowed => require_issued⟩
    cases found : settings.tokenDigests.reverse.find? fun entry => entry.1 = draws.digest platform role with
    | none =>
        have listed : (draws.digest platform role, issued platform tenantId draws role) ∈
            settings.tokenDigests.reverse := by
          rw [List.mem_reverse, read]
          exact List.mem_map_of_mem (perm.mem_iff.mpr known)
        exact absurd (decide_eq_true rfl) (List.find?_eq_none.mp found _ listed)
    | some entry =>
        have named : entry.1 = draws.digest platform role := by simpa using List.find?_some found
        have member := List.mem_of_find?_eq_some found
        rw [List.mem_reverse, read] at member
        obtain ⟨other, among, rfl⟩ := List.mem_map.mp member
        obtain rfl : other = role :=
          List.inj_on_of_nodup_map distinct (perm.mem_iff.mp among) known named
        rw [answered]
        exact congrArg (fun found => orRaise (Option.map Prod.snd found) _) found
  · intro foreign
    have absent : (settings.tokenDigests.reverse.find? fun entry => entry.1 = platform.sha256Hex (utf8 token)) =
        none := by
      refine List.find?_eq_none.mpr fun entry member => ?_
      rw [List.mem_reverse, read] at member
      obtain ⟨role, among, rfl⟩ := List.mem_map.mp member
      simpa using (foreign role (perm.mem_iff.mp among)).symm
    rw [answered, absent]
    rfl

end Issued

/-! A bootstrap whose digests are the parities of the bytes. -/

namespace TokenSample

def parity (byte : UInt8) : Char := if byte.toNat % 2 = 0 then '0' else '1'

def platform : Platform where
  urlsplit path := .ok (path, "")
  parseQs _ := .ok []
  int := String.toInt?
  sha256Hex bytes := String.ofList ((bytes.map parity ++ List.replicate 64 '0').take 64)
  floats := Floats.half
  text _ := "raised"

def paths : SecretPaths := ⟨"/data/receipt-keys.json", "/data/api-tokens.json", "/data/tokens.json"⟩

def draws : SecretDraws := ⟨KeyringSample.draw, id⟩

theorem hexadecimal : platform.Hexadecimal where
  length bytes := by simp [platform]
  ascii bytes := by
    simp only [isAscii, platform, String.toList_ofList, List.all_eq_true, decide_eq_true_eq]
    intro c member
    rcases List.mem_append.mp (List.mem_of_mem_take member) with digit | pad
    · obtain ⟨byte, _, rfl⟩ := List.mem_map.mp digit
      unfold parity
      split <;> decide
    · rw [List.eq_of_mem_replicate pad]
      decide

def after : SecretFiles := (initializeSecrets platform "default" draws (fun _ => none) paths fun _ => none).2

theorem done : initializeSecrets platform "default" draws (fun _ => none) paths (fun _ => none) = (.ok (), after) := by
  rfl

theorem small : ∀ path ∈ paths.all, ∀ file, after path = some file → file.content.length ≤ maxPrivateJsonBytes := by
  intro path member file stored
  have sizes : ∀ entry ∈ secretFiles platform "default" draws paths,
      (atomicPrivateJson entry.2).content.length ≤ maxPrivateJsonBytes := by decide +kernel
  have listed : path ∈ (secretFiles platform "default" draws paths).map Prod.fst := member
  obtain ⟨entry, among, rfl⟩ := List.mem_map.mp listed
  obtain ⟨_, written⟩ := initializeSecrets_ok done entry.1 entry.2 among
  obtain rfl := Option.some.inj (written.symm.trans stored)
  exact sizes entry among

end TokenSample

end AgentTree.Api
