import AgentTree.ArtifactHashing
import AgentTree.OutputCapture

/-!
`EvidenceRunner.run`: the outcome of a command, and what its receipt says.
-/

namespace AgentTree.Evidence

open Outcome

/-- The limits of a policy.  The source refuses negative numbers of bytes. -/
structure RunnerPolicy where
  timeoutSeconds : ℚ
  outputCapBytes : Nat
  stdinCapBytes : Nat
  artifactFileCapBytes : Nat
  artifactTotalCapBytes : Nat
  artifactHashTimeoutSeconds : ℚ
  deriving DecidableEq

/-- The checks of `__post_init__` on the limits. -/
def RunnerPolicy.postInit (policy : RunnerPolicy) : Except PyError Unit := do
  ensure (0 < policy.timeoutSeconds && policy.timeoutSeconds ≤ 3600)
    (.valueError "timeout_seconds must be in (0, 3600]")
  ensure (1024 ≤ policy.outputCapBytes && policy.outputCapBytes ≤ 64 * 1024 * 1024)
    (.valueError "output_cap_bytes must be in [1024, 64 MiB]")
  ensure (policy.stdinCapBytes ≤ 64 * 1024 * 1024) (.valueError "stdin_cap_bytes must be in [0, 64 MiB]")
  ensure (1024 ≤ policy.artifactFileCapBytes && policy.artifactFileCapBytes ≤ 1024 * 1024 * 1024)
    (.valueError "artifact_file_cap_bytes must be in [1 KiB, 1 GiB]")
  ensure (policy.artifactFileCapBytes ≤ policy.artifactTotalCapBytes &&
    policy.artifactTotalCapBytes ≤ 4 * 1024 * 1024 * 1024)
    (.valueError "artifact_total_cap_bytes must cover one file and be at most 4 GiB")
  ensure (1 / 10 ≤ policy.artifactHashTimeoutSeconds && policy.artifactHashTimeoutSeconds ≤ 300)
    (.valueError "artifact_hash_timeout_seconds must be in [0.1, 300]")

structure EvidenceRunner where
  policy : RunnerPolicy
  accepted : policy.postInit = .ok ()
  sha256 : Bytes → String

inductive Stdin : Type
  | none
  | text (value : String)
  | bytes (value : Bytes)
  | other

def policyViolation (message : String) : PyError := .other "PolicyViolation" message

def Stdin.inputBytes : Stdin → Except PyError Bytes
  | .none => .ok []
  | .text value => .ok (utf8 value)
  | .bytes value => .ok value
  | .other => .error (policyViolation "stdin must be bytes, str, or None")

structure Request where
  stdin : Stdin
  correlationId : Option String

/-- What comes of the process: an `OSError` by its class, another exception, or what was collected and the exit code. -/
inductive Attempt (cap : Nat) (deadline : ℚ) : Type
  | osError (typeName : String)
  | raised (error : PyError)
  | collected (turns : List Turn) (capture : Capture) (returncode : Int)
      (ended : collect cap deadline turns .start = some capture)

/-- The world of a run: the executable before and after it, the clock, the process, and the artifacts. -/
structure World (policy : RunnerPolicy) where
  executable : ArtifactView
  started : ℚ
  attempt : Attempt policy.outputCapBytes (started + policy.timeoutSeconds)
  artifacts : List ArtifactView
  executableAfter : ArtifactView

/-- The variables that the `try` block sets. -/
structure Finished where
  stdout : Bytes
  stderr : Bytes
  termination : Option Termination
  totalOutput : Nat
  returncode : Int
  spawnError : Option String

def Attempt.finish {cap : Nat} {deadline : ℚ} : Attempt cap deadline → Except PyError Finished
  | .osError typeName => .ok ⟨[], [], none, 0, -1, some typeName⟩
  | .raised error => .error error
  | .collected _ capture returncode _ =>
      .ok ⟨capture.stdout, capture.stderr, capture.termination, capture.totalSeen, returncode, none⟩

inductive RunOutcome : Type
  | executableChanged
  | spawnError
  | timeout
  | outputLimit
  | failed
  | artifactError
  | passed
  deriving DecidableEq

def outcomeOf (executableStable : Bool) (finished : Finished) (artifacts : List ArtifactReceipt) : RunOutcome :=
  if !executableStable then .executableChanged
  else if finished.spawnError ≠ none then .spawnError
  else if finished.termination = some .timeout then .timeout
  else if finished.termination = some .outputLimit then .outputLimit
  else if finished.returncode ≠ 0 then .failed
  else if artifacts.any (·.status ≠ .hashed) then .artifactError
  else .passed

/-- The payload of a receipt. -/
structure Payload where
  correlationId : Option String
  outcome : RunOutcome
  limits : RunnerPolicy
  returncode : Int
  termination : Option Termination
  spawnError : Option String
  inputSizeBytes : Nat
  inputSha256 : String
  observedBytes : Nat
  capturedBytes : Nat
  truncated : Bool
  stdoutSizeBytes : Nat
  stderrSizeBytes : Nat
  stdoutSha256 : String
  stderrSha256 : String
  artifacts : List ArtifactReceipt
  executableSha256 : Option String
  executableStable : Bool

structure RunResult where
  payload : Payload
  stdout : Bytes
  stderr : Bytes

def RunResult.ok (result : RunResult) : Bool := result.payload.outcome = .passed

/-- The executable has to be hashed before anything is run. -/
def EvidenceRunner.fingerprint (runner : EvidenceRunner) (executable : ArtifactView) : Except PyError String := do
  let initial ← hashArtifact runner.sha256 false maxExecutableBytes executable
  ensure (initial.status = .hashed) (policyViolation "allowlisted executable could not be fingerprinted")
  orRaise initial.sha256 (policyViolation "allowlisted executable could not be fingerprinted")

def EvidenceRunner.run (runner : EvidenceRunner) (request : Request) (world : World runner.policy) :
    Except PyError RunResult := do
  let policy := runner.policy
  let initialSha256 ← runner.fingerprint world.executable
  let input ← request.stdin.inputBytes
  ensure (input.length ≤ policy.stdinCapBytes) (policyViolation "stdin exceeds configured byte cap")
  ensure (request.correlationId.all (·.length ≤ 256)) (policyViolation "invalid correlation_id")
  let finished ← world.attempt.finish
  let artifacts ← hashArtifacts runner.sha256 policy.artifactFileCapBytes policy.artifactTotalCapBytes world.artifacts
  let current ← hashArtifact runner.sha256 false maxExecutableBytes world.executableAfter
  let executableStable := current.sha256 = some initialSha256
  return {
    payload := {
      correlationId := request.correlationId
      outcome := outcomeOf executableStable finished artifacts
      limits := policy
      returncode := finished.returncode
      termination := finished.termination
      spawnError := finished.spawnError
      inputSizeBytes := input.length
      inputSha256 := runner.sha256 input
      observedBytes := finished.totalOutput
      capturedBytes := finished.stdout.length + finished.stderr.length
      truncated := finished.stdout.length + finished.stderr.length < finished.totalOutput
      stdoutSizeBytes := finished.stdout.length
      stderrSizeBytes := finished.stderr.length
      stdoutSha256 := runner.sha256 finished.stdout
      stderrSha256 := runner.sha256 finished.stderr
      artifacts
      executableSha256 := current.sha256
      executableStable }
    stdout := finished.stdout
    stderr := finished.stderr }

section Receipts

variable {runner : EvidenceRunner} {request : Request} {world : World runner.policy} {result : RunResult}

/-- What a run was made of. -/
structure Made (runner : EvidenceRunner) (world : World runner.policy) (payload : Payload) (initialSha256 : String)
    (finished : Finished) : Prop where
  fingerprint : runner.fingerprint world.executable = .ok initialSha256
  finish : world.attempt.finish = .ok finished
  artifacts : hashArtifacts runner.sha256 runner.policy.artifactFileCapBytes runner.policy.artifactTotalCapBytes
    world.artifacts = .ok payload.artifacts
  stable : payload.executableStable = true ↔ payload.executableSha256 = some initialSha256
  outcome : payload.outcome = outcomeOf payload.executableStable finished payload.artifacts
  returncode : payload.returncode = finished.returncode
  termination : payload.termination = finished.termination
  spawnError : payload.spawnError = finished.spawnError
  observed : payload.observedBytes = finished.totalOutput
  truncated : payload.truncated = true ↔ finished.stdout.length + finished.stderr.length < finished.totalOutput

theorem run_made (ran : runner.run request world = .ok result) :
    ∃ initialSha256 finished, Made runner world result.payload initialSha256 finished := by
  simp only [EvidenceRunner.run, bind_eq_ok, pure_eq_ok] at ran
  obtain ⟨initialSha256, fingerprint, _, _, _, _, _, _, finished, finish, artifacts, hashed, current, _, rfl⟩ := ran
  exact ⟨initialSha256, finished,
    { fingerprint, finish, artifacts := hashed, stable := by simp, outcome := rfl, returncode := rfl
      termination := rfl, spawnError := rfl, observed := rfl, truncated := by simp }⟩

theorem outcomeOf_passed {stable : Bool} {finished : Finished} {artifacts : List ArtifactReceipt}
    (passed : outcomeOf stable finished artifacts = .passed) :
    stable = true ∧ finished.spawnError = none ∧ finished.termination = none ∧ finished.returncode = 0 ∧
      ∀ artifact ∈ artifacts, artifact.status = .hashed := by
  unfold outcomeOf at passed
  split at passed
  next => cases passed
  next unchanged =>
    split at passed
    next => cases passed
    next spawned =>
      split at passed
      next => cases passed
      next =>
        split at passed
        next => cases passed
        next =>
          split at passed
          next => cases passed
          next zero =>
            split at passed
            next => cases passed
            next hashed =>
              refine ⟨by simpa using unchanged, by simpa using spawned, ?_, by simpa using zero, by simpa using hashed⟩
              match termination : finished.termination with
              | none => rfl
              | some .timeout => contradiction
              | some .outputLimit => contradiction

/-- A run after which nothing is left open. -/
structure Complete (runner : EvidenceRunner) (world : World runner.policy) (payload : Payload) : Prop where
  whole : payload.truncated = false
  unforced : payload.termination = none
  spawned : payload.spawnError = none
  returned : payload.returncode = 0
  unchanged : ∃ initialSha256, runner.fingerprint world.executable = .ok initialSha256 ∧
    payload.executableSha256 = some initialSha256
  requested : payload.artifacts.length = world.artifacts.length
  hashed : ∀ artifact ∈ payload.artifacts, artifact.status = .hashed

theorem finish_truncated {cap : Nat} {deadline : ℚ} {attempt : Attempt cap deadline} {finished : Finished}
    (finish : attempt.finish = .ok finished) :
    finished.stdout.length + finished.stderr.length < finished.totalOutput ↔ cap < finished.totalOutput := by
  cases attempt with
  | osError typeName =>
      obtain rfl := Except.ok.inj finish
      simp
  | raised error => simp [Attempt.finish] at finish
  | collected turns capture returncode ended =>
      obtain rfl := Except.ok.inj finish
      have exact := collect_exact start_exact ended
      have bounded := exact.bounded
      have counted := exact.counted
      dsimp only
      omega

/-- The process ran to its end within the cap if no exception and no limit is reported. -/
theorem finish_unforced {cap : Nat} {deadline : ℚ} {attempt : Attempt cap deadline} {finished : Finished}
    (finish : attempt.finish = .ok finished) (unforced : finished.termination = none) : finished.totalOutput ≤ cap := by
  cases attempt with
  | osError typeName =>
      obtain rfl := Except.ok.inj finish
      exact Nat.zero_le _
  | raised error => simp [Attempt.finish] at finish
  | collected turns capture returncode ended =>
      obtain rfl := Except.ok.inj finish
      have exact := collect_exact start_exact ended
      exact exact.counted ▸ exact.within unforced

theorem made_complete {payload : Payload} {initialSha256 : String} {finished : Finished}
    (made : Made runner world payload initialSha256 finished) (passed : payload.outcome = .passed) :
    Complete runner world payload := by
  obtain ⟨stable, spawned, unforced, returned, hashed⟩ := outcomeOf_passed (made.outcome ▸ passed)
  have within := finish_unforced made.finish unforced
  have truncated : ¬payload.truncated = true := by
    rw [made.truncated, finish_truncated made.finish]
    omega
  exact { whole := by simpa using truncated
          unforced := made.termination ▸ unforced
          spawned := made.spawnError ▸ spawned
          returned := made.returncode ▸ returned
          unchanged := ⟨initialSha256, made.fingerprint, made.stable.mp stable⟩
          requested := hashArtifacts_length made.artifacts
          hashed }

end Receipts

/-- A run of an executable that does not change, with files that do not change, returns. -/
theorem run_returns {runner : EvidenceRunner} {request : Request} {world : World runner.policy} {input : Bytes}
    {finished : Finished} {before after : Bytes} {contents : List Bytes} (given : request.stdin.inputBytes = .ok input)
    (small : input.length ≤ runner.policy.stdinCapBytes) (correlated : request.correlationId.all (·.length ≤ 256) = true)
    (executable : world.executable.Steady before) (bounded : before.length ≤ maxExecutableBytes)
    (finish : world.attempt.finish = .ok finished) (steady : List.Forall₂ ArtifactView.Steady world.artifacts contents)
    (executableAfter : world.executableAfter.Steady after) : ∃ result, runner.run request world = .ok result := by
  have fingerprint : runner.fingerprint world.executable = .ok (runner.sha256 before) := by
    simp [EvidenceRunner.fingerprint, executable.hashArtifact, bounded, ArtifactReceipt.hash, bind, Except.bind, ensure,
      orRaise]
  obtain ⟨receipts, hashed⟩ := hashArtifacts_returns runner.sha256 runner.policy.artifactFileCapBytes steady
    runner.policy.artifactTotalCapBytes
  simp [EvidenceRunner.run, fingerprint, given, small, correlated, finish, hashed, executableAfter.hashArtifact, ensure,
    bind, Except.bind, pure, Except.pure]

/-! A run of two short outputs. -/

namespace EvidenceSample

def policy : RunnerPolicy := ⟨30, 1024, 1024, 1024, 1024, 10⟩

def runner : EvidenceRunner := ⟨policy, by decide +kernel, fun content => toString content.length⟩

def turns : List Turn :=
  [⟨1, [⟨.stdout, some (utf8 "done"), 1⟩, ⟨.stderr, some (utf8 "note"), 1⟩]⟩,
    ⟨2, [⟨.stderr, some [], 2⟩, ⟨.stdout, none, 2⟩]⟩, ⟨3, [⟨.stdout, some [], 3⟩]⟩]

def capture : Capture :=
  ⟨[], utf8 "done", utf8 "note", 8, none, none, [(.stdout, utf8 "done"), (.stderr, utf8 "note")]⟩

/-- The same with a cap of six bytes. -/
def cut : Capture :=
  ⟨[.stdout], utf8 "done", utf8 "no", 8, some .outputLimit, some 3, [(.stdout, utf8 "done"), (.stderr, utf8 "note")]⟩

def request : Request := ⟨.text "input", some "run-1"⟩

/-- The command exits with 0 and leaves these files. -/
def world (files : List (String × Bytes)) : World policy where
  executable := .regular "/usr/bin/worker" (utf8 "worker")
  started := 0
  attempt := .collected turns capture 0 (by decide +kernel)
  artifacts := files.map fun file => .regular file.1 file.2
  executableAfter := .regular "/usr/bin/worker" (utf8 "worker")

theorem world_steady (files : List (String × Bytes)) :
    List.Forall₂ ArtifactView.Steady (world files).artifacts (files.map Prod.snd) := by
  induction files with
  | nil => exact .nil
  | cons file files ih => exact .cons (regular_steady _ _) ih

/-- A file of the size of the caps. -/
def full : Bytes := List.replicate 1024 1

theorem full_length : full.length = 1024 := List.length_replicate

theorem world_returns (files : List (String × Bytes)) : ∃ result, runner.run request (world files) = .ok result :=
  have small : (utf8 "input").length ≤ runner.policy.stdinCapBytes := by decide +kernel
  have correlated : request.correlationId.all (·.length ≤ 256) = true := by decide +kernel
  have bounded : (utf8 "worker").length ≤ maxExecutableBytes := by decide +kernel
  run_returns rfl small correlated (regular_steady _ _) bounded rfl (world_steady files) (regular_steady _ _)

end EvidenceSample

/-- Every file is within the cap of a file, and all of them are within the budget. -/
def Fits (policy : RunnerPolicy) (contents : List Bytes) : Prop :=
  (∀ content ∈ contents, content.length ≤ policy.artifactFileCapBytes) ∧
    (contents.map List.length).sum ≤ policy.artifactTotalCapBytes

/-- The caps hold of what is hashed, and files that fit are all hashed. -/
def CapsExact (runner : EvidenceRunner) (views : List ArtifactView) (contents : List Bytes) (payload : Payload) :
    Prop :=
  (∀ artifact ∈ payload.artifacts, artifact.hashedBytes ≤ runner.policy.artifactFileCapBytes) ∧
    (payload.artifacts.map ArtifactReceipt.hashedBytes).sum ≤ runner.policy.artifactTotalCapBytes ∧
    (Fits runner.policy contents → payload.artifacts = List.zipWith (.hash runner.sha256) views contents ∧
      payload.outcome ≠ .artifactError)

theorem outcomeOf_hashed {stable : Bool} {finished : Finished} {artifacts : List ArtifactReceipt}
    (hashed : ∀ artifact ∈ artifacts, artifact.status = .hashed) :
    outcomeOf stable finished artifacts ≠ .artifactError := by
  have clean : artifacts.any (·.status ≠ .hashed) = false := by simpa using hashed
  unfold outcomeOf
  rw [clean]
  split_ifs <;> simp_all

theorem zipWith_hashed {sha256 : Bytes → String} (views : List ArtifactView) (contents : List Bytes) :
    ∀ artifact ∈ List.zipWith (ArtifactReceipt.hash sha256) views contents, artifact.status = .hashed := by
  simp only [← List.map_uncurry_zip_eq_zipWith, List.forall_mem_map]
  intro pair _
  rfl

theorem made_hashed {runner : EvidenceRunner} {world : World runner.policy} {payload : Payload} {initialSha256 : String}
    {finished : Finished} {contents : List Bytes} (made : Made runner world payload initialSha256 finished)
    (steady : List.Forall₂ ArtifactView.Steady world.artifacts contents) (fits : Fits runner.policy contents) :
    payload.artifacts = List.zipWith (.hash runner.sha256) world.artifacts contents ↔
      Affordable runner.policy.artifactTotalCapBytes contents := by
  rw [← hashArtifacts_steady runner.sha256 steady fits.1 fits.2, made.artifacts, Except.ok.injEq]

/-- The caps of a run are exact if and only if no empty artifact comes when the budget is used up. -/
theorem EvidenceRunner.run_capsExact {runner : EvidenceRunner} {request : Request} {world : World runner.policy}
    {result : RunResult} {contents : List Bytes} (ran : runner.run request world = .ok result)
    (steady : List.Forall₂ ArtifactView.Steady world.artifacts contents) :
    CapsExact runner world.artifacts contents result.payload ↔
      (Fits runner.policy contents → Affordable runner.policy.artifactTotalCapBytes contents) := by
  obtain ⟨initialSha256, finished, made⟩ := run_made ran
  obtain ⟨each, total⟩ := hashArtifacts_capped made.artifacts
  constructor
  · intro caps fits
    exact (made_hashed made steady fits).mp (caps.2.2 fits).1
  · intro lasts
    refine ⟨each, total, fun fits => ?_⟩
    have same := (made_hashed made steady fits).mpr (lasts fits)
    refine ⟨same, made.outcome ▸ outcomeOf_hashed ?_⟩
    rw [same]
    exact zipWith_hashed _ _

theorem EvidenceRunner.run_capsExact_sample : ∃ result,
    EvidenceSample.runner.run EvidenceSample.request (EvidenceSample.world [("/work/empty", []), ("/work/proof", [1])]) =
      .ok result ∧
    CapsExact EvidenceSample.runner (EvidenceSample.world [("/work/empty", []), ("/work/proof", [1])]).artifacts [[], [1]]
      result.payload := by
  obtain ⟨result, ran⟩ := EvidenceSample.world_returns [("/work/empty", []), ("/work/proof", [1])]
  refine ⟨result, ran, (EvidenceRunner.run_capsExact ran (EvidenceSample.world_steady _)).mpr fun _ => ?_⟩
  rintro front back split
  have within : (front.map List.length).sum ≤ 1 := by
    have := congrArg (fun contents => (contents.map List.length).sum) split
    simp only [List.map_append, List.sum_append, List.map_cons, List.map_nil, List.sum_cons, List.sum_nil,
      List.length_cons, List.length_nil] at this
    omega
  exact Nat.lt_of_le_of_lt within (by decide)

/-- An empty file after one that uses up the budget is not hashed. -/
theorem EvidenceRunner.run_misses_empty : ∃ result,
    EvidenceSample.runner.run EvidenceSample.request
      (EvidenceSample.world [("/work/full", EvidenceSample.full), ("/work/empty", [])]) = .ok result ∧
    Fits EvidenceSample.policy [EvidenceSample.full, []] ∧
    ¬CapsExact EvidenceSample.runner
      (EvidenceSample.world [("/work/full", EvidenceSample.full), ("/work/empty", [])]).artifacts
      [EvidenceSample.full, []] result.payload := by
  obtain ⟨result, ran⟩ := EvidenceSample.world_returns [("/work/full", EvidenceSample.full), ("/work/empty", [])]
  have fits : Fits EvidenceSample.policy [EvidenceSample.full, []] := by
    simp [Fits, EvidenceSample.policy, EvidenceSample.full_length]
  refine ⟨result, ran, fits, fun caps => ?_⟩
  obtain ⟨_, _, made⟩ := run_made ran
  have lasts := (made_hashed made (EvidenceSample.world_steady _) fits).mp (caps.2.2 fits).1
  have spent := lasts [EvidenceSample.full] [] rfl
  simp [EvidenceSample.runner, EvidenceSample.policy, EvidenceSample.full_length] at spent

end AgentTree.Evidence
