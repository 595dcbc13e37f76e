import AgentTree.ControlRuns
import AgentTree.Sparing

/-!
The operations that reserve a budget, where the store calls of their cleanup either
succeed or raise an error of their own.  A call is a request, or the part of one that
ends where its operation body does.
-/

namespace AgentTree

open Outcome Relational Concurrent

/-- A store call that nothing strikes. -/
def stored (run : Int → Db → Except PyError (α × Db)) : Op α := .atomic (onStore run)

def storedRead (read : Db → Except PyError α) : Op α :=
  .atomic fun w => match read w.db with
    | .ok value => .ok (value, w)
    | .error error => .error error

namespace ControlPlane

variable {Model : Type} (plane : ControlPlane Model)

section Operations

variable (call : Nat) (key : OperationKey) (draws : Draws) (principal : Principal) (request : Json)

def settledDecision : Op Json := do
  let simulations ← Prog.ofExcept (boundedInt request "simulations" 128 8 4096)
  let seed ← Prog.ofExcept (boundedInt request "seed" 7 0 (2 ^ 31 - 1))
  let family ← Prog.ofExcept (boundedText request "family" policyFamily 128)
  Prog.require (family = policyFamily) (.valueError "unregistered policy family")
  let runId := draws.uuid 0
  let reservation := "decision-" ++ runId
  openBudget principal.tenantId "api-compute" plane.settings.defaultTenantBudget
  let _ ← storeCall fun now db =>
    reserveBudget now principal.tenantId "api-compute" reservation simulations db
  (plane.decisionWork call key draws principal runId reservation family simulations seed).tryCatch
    fun error => do
      let _ ← stored fun now db => releaseBudget now principal.tenantId "api-compute" reservation db
      throw error

def settledHidden : Op Json := do
  Prog.require plane.hiddenBenchmark.isSome
    (.valueError "hidden benchmark worker is not configured")
  let challengerId ← Prog.ofExcept (challengerArgument request)
  let _ ← plane.loadArtifact principal.tenantId challengerId
  let artifact ← storeRead (getPolicyArtifact principal.tenantId challengerId)
  let path ← Prog.ofExcept (plane.resolvePolicyArtifact principal.tenantId artifact.contentSha256
    artifact.artifactUri)
  let _ ← readWorld fun w => orRaise (w.files path) (.other "FileNotFoundError" path.2)
  let (_, suiteDigest) ← plane.opaqueSuiteDigest
  let quotaWindow ← readWorld fun w =>
    .ok (w.clock / plane.settings.hiddenBenchmarkQuotaWindowSeconds)
  let budgetId := "hidden-benchmark:" ++ challengerId ++ ":" ++
    asciiText ((utf8 suiteDigest).take 16) ++ ":" ++ toString quotaWindow
  let reservation := "attempt:" ++ key.key
  openBudget principal.tenantId budgetId plane.settings.hiddenBenchmarkAttemptLimit
  let _ ← storeCall fun now db => reserveBudget now principal.tenantId budgetId reservation 1 db
  let response ← (plane.hiddenWork call key draws principal challengerId budgetId reservation
    artifact.contentSha256 path).tryCatch fun error => do
      ignoreConflict do
        let _ ← stored fun now db => releaseBudget now principal.tenantId budgetId reservation db
        return ()
      throw error
  metricsIncrement
  return response

/-- `acquire_lease`: its transaction and its read either succeed or raise. -/
def settledAcquire (tenantId resourceId holder : String) (ttlSeconds : Int) : Op LeaseRow := do
  storeCall fun now db => acquireLease now tenantId resourceId holder ttlSeconds none db
  storedRead (getLease tenantId resourceId)

def settledCleanup (family holder reservation : String) (lease : Option LeaseRow) : Op Unit := do
  (do
    let budget ← storedRead (getBudget principal.tenantId "api-compute")
    if budget.reservedUnits ≠ 0 then do
      let _ ← stored fun now db => releaseBudget now principal.tenantId "api-compute" reservation db
      return ()
    else return () : Op Unit).tryCatch
      fun error => .require (error.isConflict || error.isNotFound) error
  match lease with
  | none => return ()
  | some lease => ignoreConflict (stored fun now db =>
      releaseLease now principal.tenantId ("train:" ++ family) holder lease.fencingToken db)

def settledTrain : Op Json := do
  let family ← Prog.ofExcept (boundedText request "family" policyFamily 128)
  Prog.require (family = policyFamily) (.valueError "unregistered policy family")
  let episodes ← Prog.ofExcept (boundedInt request "episodes" 12 1 1000)
  let simulations ← Prog.ofExcept (boundedInt request "simulations" 128 8 4096)
  let holder := draws.uuid 0
  let reservation := "training-" ++ holder
  openBudget principal.tenantId "api-compute" plane.settings.defaultTenantBudget
  let _ ← storeCall fun now db =>
    reserveBudget now principal.tenantId "api-compute" reservation (episodes * simulations) db
  let leaseTtl := max plane.settings.leaseSeconds (min 3600 (episodes * 2))
  let lease ← (settledAcquire principal.tenantId ("train:" ++ family) holder leaseTtl).tryCatch
    fun error => do
      settledCleanup principal family holder reservation none
      throw error
  Prog.tryFinally
    (plane.trainWork call key draws principal family holder reservation episodes simulations leaseTtl
      lease)
    (settledCleanup principal family holder reservation (some lease))

end Operations

def settledOperation (index : Nat) (call : Call) : Op Json :=
  match call.request with
  | .runDecision request =>
      plane.settledDecision index call.key call.draws call.principal request
  | .runEvidence request =>
      plane.evidenceOperation index call.key call.draws call.principal request
  | .evaluateHiddenBenchmark request =>
      plane.settledHidden index call.key call.draws call.principal request
  | .trainChallenger request =>
      plane.settledTrain index call.key call.draws call.principal request
  | .promote challengerId request =>
      plane.promoteOperation index call.key call.draws call.principal request challengerId
  | .rollback family request =>
      plane.rollbackOperation index call.key call.draws call.principal request family

def settledPerform (index : Nat) (call : Call) : Op Json := do
  Prog.ofExcept (allowedFields call)
  plane.idempotent index call.key call.payload (plane.settledOperation index call)

/-- A request up to the exit of its operation body, with the result that the body has there. -/
def settledBody (index : Nat) (call : Call) : Op Json := do
  Prog.ofExcept (allowedFields call)
  let record ← plane.claim call.key call.payload [.started index call.key call.payload]
  if record.isNew then plane.settledOperation index call
  else throw (.conflict ("idempotent operation is " ++ record.row.status.text))

end ControlPlane

/-- A whole request, or its part up to the exit of the operation body. -/
inductive SettledCall : Type
  | request (call : Call)
  | body (call : Call)

def SettledCall.call : SettledCall → Call
  | request call | body call => call

def SettledCall.run {Model : Type} (plane : ControlPlane Model) (index : Nat) : SettledCall → Op Json
  | request call => plane.settledPerform index call
  | body call => plane.settledBody index call

/-- Any of the calls at once; a recovery may come without a kill. -/
def ControlPlane.settledService {Model : Type} (plane : ControlPlane Model) (calls : Nat → SettledCall)
    (surroundings : World → World → Prop) : Service Nat World PyError Json where
  call index := (calls index).run plane index
  surroundings
  recovery := World.Recovers

/-! The whole operations are the same programs with more hazards. -/

section Spares

variable {Model : Type} {plane : ControlPlane Model} {call : Nat} {key : OperationKey} {draws : Draws}
  {principal : Principal}

theorem spares_stored (run : Int → Db → Except PyError (α × Db)) :
    (storeCall run).Spares (stored run) := Prog.spares_exposed _

theorem spares_storedRead (read : Db → Except PyError α) :
    (storeRead read).Spares (storedRead read) := Prog.spares_exposed _

namespace ControlPlane

theorem spares_decision (request : Json) :
    (plane.decisionOperation call key draws principal request).Spares
      (plane.settledDecision call key draws principal request) := by
  refine .then _ fun simulations => .then _ fun seed => .then _ fun family => .then _ fun _ => ?_
  refine .then _ fun _ => .then _ fun _ => ?_
  exact .tryCatch (.refl _) fun error => .bind (spares_stored _) fun _ => .refl _

theorem spares_ignoreConflict {cleanup other : Op Unit} (spares : cleanup.Spares other) :
    (ignoreConflict cleanup).Spares (ignoreConflict other) :=
  .tryCatch spares fun _ => .refl _

theorem spares_hidden (request : Json) :
    (plane.hiddenOperation call key draws principal request).Spares
      (plane.settledHidden call key draws principal request) := by
  refine .then _ fun _ => .then _ fun challengerId => .then _ fun _ => .then _ fun artifact => ?_
  refine .then _ fun path => .then _ fun _ => .then _ fun ⟨_, suiteDigest⟩ => .then _ fun window => ?_
  refine .then _ fun _ => .then _ fun _ => .bind ?_ fun _ => .refl _
  refine .tryCatch (.refl _) fun error => .bind (spares_ignoreConflict ?_) fun _ => .refl _
  exact .bind (spares_stored _) fun _ => .refl _

theorem spares_cleanup (family holder reservation : String) (lease : Option LeaseRow) :
    (trainCleanup principal family holder reservation lease).Spares
      (settledCleanup principal family holder reservation lease) := by
  refine .bind (.tryCatch (.bind (spares_storedRead _) fun budget => ?_) fun _ => .refl _) fun _ => ?_
  · split
    · exact .bind (spares_stored _) fun _ => .refl _
    · exact .refl _
  · cases lease with
    | none => exact .refl _
    | some lease => exact spares_ignoreConflict (spares_stored _)

theorem spares_train (request : Json) :
    (plane.trainOperation call key draws principal request).Spares
      (plane.settledTrain call key draws principal request) := by
  refine .then _ fun family => .then _ fun _ => .then _ fun episodes => .then _ fun simulations => ?_
  refine .then _ fun _ => .then _ fun _ => .bind ?_ fun lease => ?_
  · refine .tryCatch (.then _ fun _ => spares_storedRead _) fun error => ?_
    exact .bind (spares_cleanup _ _ _ _) fun _ => .refl _
  · exact .tryFinally (.refl _) (spares_cleanup _ _ _ _)

theorem spares_perform (plane : ControlPlane Model) (index : Nat) (call : Call) :
    (plane.perform index call).Spares (plane.settledPerform index call) := by
  have operation : (plane.operation index call).Spares (plane.settledOperation index call) := by
    unfold ControlPlane.operation settledOperation
    cases call.request with
    | runDecision request => exact spares_decision request
    | evaluateHiddenBenchmark request => exact spares_hidden request
    | trainChallenger request => exact spares_train request
    | runEvidence _ | promote _ _ | rollback _ _ => exact .refl _
  refine .then _ fun _ => .then _ fun record => ?_
  split
  · exact .tryCatch (.bind operation fun _ => .refl _) fun _ => .refl _
  · exact .refl _

/-- What the settled requests can do, the requests can do. -/
theorem settled_abreast (plane : ControlPlane Model) (calls : Nat → Call)
    (surroundings : World → World → Prop) {start : World} {config : Config Nat World PyError Json}
    (run : (plane.settledService (fun i => .request (calls i)) surroundings).Reachable (.start start)
      config) :
    ∃ whole, (plane.service calls surroundings).Reachable (.start start) whole ∧
      whole.state = config.state ∧ ∀ i, whole.result i = config.result i := by
  have spares : ∀ i, ((plane.service calls surroundings).call i).Spares
      ((plane.settledService (fun i => .request (calls i)) surroundings).call i) :=
    fun i => spares_perform plane i (calls i)
  exact Service.run_abreast spares (fun _ _ => id) (fun _ _ => id) run

end ControlPlane

end Spares

end AgentTree
