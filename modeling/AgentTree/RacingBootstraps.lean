import AgentTree.ApiTokens
import AgentTree.RotatingProcesses

/-!
Bootstraps of the same secrets by several processes.  A file is published by `os.link`, which replaces nothing, and is
unlinked only by the process that still finds its own file there; any step may raise or be the last of its process.
-/

namespace AgentTree.Api

open Concurrent Outcome Relational

/-- The private files of the machine, with the process that has created each of them. -/
structure Vault (ι : Type) where
  entries : String → Option (Option ι × SecretFile)
  temporaries : ι → Option Bytes

namespace Vault

def start {ι : Type} (files : SecretFiles) : Vault ι := ⟨fun path => (files path).map (none, ·), fun _ => none⟩

def files {ι : Type} (vault : Vault ι) : SecretFiles := fun path => (vault.entries path).map Prod.snd

/-- Whose identity `os.lstat` finds. -/
def owner {ι : Type} (vault : Vault ι) (path : String) : Option ι := (vault.entries path).bind Prod.fst

section Processes

variable {ι : Type} [DecidableEq ι]

def setTemporary (i : ι) (content : Option Bytes) (vault : Vault ι) : Vault ι :=
  { vault with temporaries := Function.update vault.temporaries i content }

/-- `os.link` of the temporary file. -/
def link (i : ι) (path : String) (vault : Vault ι) : Except Halt (Unit × Vault ι) := do
  let content ← orRaise (vault.temporaries i) (.raised (.other "FileNotFoundError" path))
  ensure (vault.entries path).isNone (.raised (.other "FileExistsError" path))
  return ((), { vault with
    entries := Function.update vault.entries path (some (some i, ⟨.regular, 0o600, content⟩)) })

def unlink (path : String) (vault : Vault ι) : Vault ι :=
  { vault with entries := Function.update vault.entries path none }

def checkPublished (i : ι) (path : String) (vault : Vault ι) : Except Halt (Unit × Vault ι) := do
  ensure (vault.owner path = some i) (.raised (.other "OSError" "private-file path changed while publishing"))
  return ((), vault)

def checkAbsent (message path : String) (vault : Vault ι) : Except Halt (Unit × Vault ι) := do
  ensure (vault.entries path).isNone (.raised (.other "FileExistsError" message))
  return ((), vault)

abbrev Process (ι : Type) := Prog (Vault ι) Halt

def change (effect : Vault ι → Vault ι) : Process ι Unit := .act effect fun _ => .done (.ok ())

/-- `unlink_created_file`: the identity is compared in one step and the path is unlinked in another. -/
def unlinkCreated (i : ι) (path : String) : Process ι Unit := do
  Prog.mayRaise
  let mine ← Prog.atomic fun vault => .ok (decide (vault.owner path = some i), vault)
  Prog.mayRaise
  if mine then change (unlink path) else .done (.ok ())

/-- An exception of a cleanup is only noted. -/
def noted (recover : Process ι Unit) : Process ι Unit :=
  recover.tryCatch fun halt =>
    match halt with
    | .killed => .done (.error .killed)
    | .raised _ => .done (.ok ())

def failed (recover : Process ι Unit) : Halt → Process ι Unit
  | .killed => .done (.error .killed)
  | .raised error => do
      noted recover
      .done (.error (.raised error))

def withdraw (i : ι) (path : String) : Process ι Unit := do
  unlinkCreated i path
  Prog.mayRaise
  change (setTemporary i none)

def publish (i : ι) (path : String) (content : Bytes) : Process ι Unit := do
  Prog.mayRaise
  change (setTemporary i (some content))
  Prog.mayRaise
  Prog.atomic (link i path)
  Prog.mayRaise
  change (setTemporary i none)
  Prog.mayRaise
  Prog.atomic (checkPublished i path)

/-- `_atomic_private_json` without replacement. -/
def create (i : ι) (path : String) (content : Bytes) : Process ι Unit := do
  Prog.mayRaise
  change (setTemporary i (some []))
  (publish i path content).tryCatch (failed (withdraw i path))
  -- The descriptor is closed.
  Prog.mayRaise.tryCatch (failed (unlinkCreated i path))

def initializeKeyring (i : ι) (path : String) (content : Bytes) : Process ι Unit := do
  Prog.mayRaise
  Prog.atomic (checkAbsent "refusing to overwrite existing production keyring" path)
  create i path content

def rollback (i : ι) (created : List String) : Halt → Process ι Unit
  | .killed => .done (.error .killed)
  | .raised error => do
      Prog.forEach created (unlinkCreated i)
      .done (.error (.raised error))

def createEach (i : ι) : List (String × Bytes) → List String → Process ι Unit
  | [], created => Prog.mayRaise.tryCatch (rollback i created)
  | (path, content) :: rest, created => do
      (create i path content).tryCatch (rollback i created)
      createEach i rest (path :: created)

/-- `initialize_secrets`. -/
def bootstrap (i : ι) (paths : List String) (keyring : String × Bytes) (others : List (String × Bytes)) :
    Process ι Unit := do
  Prog.require paths.Nodup (.raised (.valueError "bootstrap secret paths must be distinct"))
  Prog.forEach paths fun path => do
    Prog.mayRaise
    Prog.atomic (checkAbsent "refusing to overwrite existing production secrets" path)
  (initializeKeyring i keyring.1 keyring.2).tryCatch (rollback i [])
  createEach i others [keyring.1]

end Processes

/-! What a process may rely on. -/

section Contracts

variable {ι : Type}

/-- The files from before the first bootstrap stand where they stood. -/
def Untouched (before : SecretFiles) (vault : Vault ι) : Prop :=
  ∀ path file, before path = some file → vault.entries path = some (none, file)

/-- The own files of a process stay as they are, and nothing else becomes its own. -/
def Leaves (i : ι) (s t : Vault ι) : Prop :=
  t.temporaries i = s.temporaries i ∧
    ∀ path file, s.entries path = some (some i, file) ↔ t.entries path = some (some i, file)

def Promises (i : ι) (s t : Vault ι) : Prop := ∀ j, j ≠ i → Leaves j s t

theorem leaves_refl (i : ι) (s : Vault ι) : Leaves i s s := ⟨rfl, fun _ _ => Iff.rfl⟩

theorem leaves_trans (i : ι) {s t u : Vault ι} (first : Leaves i s t) (second : Leaves i t u) : Leaves i s u :=
  ⟨second.1.trans first.1, fun path file => (first.2 path file).trans (second.2 path file)⟩

def bootstrapContract (before : SecretFiles) (i : ι) : Contract (Vault ι) :=
  ⟨Untouched before, Leaves i, Promises i, leaves_refl i, leaves_trans i⟩

/-- How far a process has come: its temporary file, and the files that it has published. -/
structure Stage (i : ι) (contents : List (String × Bytes)) (temporary : Option Bytes) (vault : Vault ι) : Prop where
  temporary : vault.temporaries i = temporary
  published : ∀ entry ∈ contents, vault.entries entry.1 = some (some i, ⟨.regular, 0o600, entry.2⟩)

variable {before : SecretFiles} {i : ι} {contents : List (String × Bytes)} {temporary : Option Bytes}
  {path : String} {content : Bytes} {s t : Vault ι}

theorem Stage.left (stage : Stage i contents temporary s) (moved : Leaves i s t) : Stage i contents temporary t :=
  ⟨moved.1.trans stage.temporary, fun entry member => (moved.2 _ _).mp (stage.published entry member)⟩

theorem owner_eq : s.owner path = some i ↔ ∃ file, s.entries path = some (some i, file) := by
  simp [owner, Option.bind_eq_some_iff]

theorem owner_left (moved : Leaves i s t) (mine : s.owner path = some i) : t.owner path = some i := by
  obtain ⟨file, here⟩ := owner_eq.mp mine
  exact owner_eq.mpr ⟨file, (moved.2 path file).mp here⟩

/-- A change at a path where another process has nothing before and nothing after. -/
theorem leaves_update {j : ι} {entry : Option (Option ι × SecretFile)} (foreign : s.owner path ≠ some j)
    (other : entry.bind Prod.fst ≠ some j) :
    Leaves j s { s with entries := Function.update s.entries path entry } := by
  refine ⟨rfl, fun name file => ?_⟩
  change _ ↔ Function.update s.entries path entry name = some (some j, file)
  by_cases same : name = path
  · subst same
    rw [Function.update_self]
    constructor
    · intro here
      exact absurd (owner_eq.mpr ⟨file, here⟩) foreign
    · rintro rfl
      exact absurd rfl other
  · rw [Function.update_of_ne same]

theorem wp_pause (stage : Stage i contents temporary s) :
    (Prog.mayRaise : Process ι Unit).wp (bootstrapContract before i)
      (Prog.Returning fun _ => Stage i contents temporary) s :=
  Prog.wp_pause fun _ moved => stage.left moved

/-- Only an absent path is linked, so that nothing of anybody else changes. -/
theorem wp_link (stage : Stage i contents (some content) s) :
    (Prog.atomic (link i path)).wp (bootstrapContract before i)
      (Prog.Returning fun _ => Stage i ((path, content) :: contents) (some content)) s := by
  refine Prog.wp_atomic ?_ fun t halt _ _ _ =>
    ⟨fun j _ => leaves_refl j t, fun _ _ _ _ same => by simp at same⟩
  intro t value u inv moved ran
  have here := stage.left moved
  obtain ⟨held, found, ran⟩ := bind_eq_ok.mp ran
  obtain rfl := Option.some.inj ((orRaise_eq_ok.mp found).symm.trans here.temporary)
  obtain ⟨_, absent, ran⟩ := bind_eq_ok.mp ran
  obtain ⟨-, rfl⟩ := Prod.mk.inj (pure_eq_ok.mp ran)
  have absent : t.entries path = none := Option.isNone_iff_eq_none.mp (ensure_eq_ok.mp absent)
  have distinct : ∀ {name : String} {entry : Option ι × SecretFile}, t.entries name = some entry → name ≠ path := by
    rintro name entry present rfl
    simp [absent] at present
  have linked : Stage i ((path, held) :: contents) (some held) { t with
      entries := Function.update t.entries path (some (some i, ⟨.regular, 0o600, held⟩)) } := by
    refine ⟨here.temporary, fun entry member => ?_⟩
    rcases List.mem_cons.mp member with rfl | older
    · exact Function.update_self _ _ _
    · have present := here.published entry older
      exact (Function.update_of_ne (distinct present) _ _).trans present
  refine ⟨fun name file stood => ?_, fun j other => ?_, fun v _ later _ _ => linked.left later⟩
  · have present := inv name file stood
    exact (Function.update_of_ne (distinct present) _ _).trans present
  · exact leaves_update (by simp [owner, absent]) (by simpa using other.symm)

/-- A check that changes nothing. -/
theorem wp_check {check : Vault ι → Except Halt (Unit × Vault ι)}
    (same : ∀ t value u, check t = .ok (value, u) → u = t) (stage : Stage i contents temporary s) :
    (Prog.atomic check).wp (bootstrapContract before i) (Prog.Returning fun _ => Stage i contents temporary) s := by
  refine Prog.wp_atomic ?_ fun t halt _ _ _ =>
    ⟨fun j _ => leaves_refl j t, fun _ _ _ _ same => by simp at same⟩
  intro t value u inv moved ran
  obtain rfl := same t value u ran
  exact ⟨inv, fun j _ => leaves_refl j u, fun v _ later _ _ => (stage.left moved).left later⟩

theorem wp_checkAbsent {message : String} (stage : Stage i contents temporary s) :
    (Prog.atomic (checkAbsent message path)).wp (bootstrapContract before i)
      (Prog.Returning fun _ => Stage i contents temporary) s := by
  refine wp_check (fun t _ u ran => ?_) stage
  obtain ⟨_, _, ran⟩ := bind_eq_ok.mp ran
  exact (Prod.mk.inj (pure_eq_ok.mp ran)).2.symm

theorem wp_failed {P : Unit → Vault ι → Prop} {recover : Process ι Unit} (inv : Untouched before s)
    (recovers : recover.wp (bootstrapContract before i) (Prog.Returning fun _ _ => True) s) (halt : Halt) :
    (failed recover halt).wp (bootstrapContract before i) (Prog.Returning P) s := by
  have ends : (noted recover).wp (bootstrapContract before i) (Prog.Returning fun _ _ => True) s := by
    refine Prog.wp_handled inv recovers fun halt t _ => ?_
    cases halt with
    | killed => exact Prog.wp_raised
    | raised error => exact Prog.wp_done fun _ _ _ _ _ => trivial
  cases halt with
  | killed => exact Prog.wp_raised
  | raised error => exact Prog.wp_then inv ends fun _ _ _ _ => Prog.wp_raised

variable [DecidableEq ι]

theorem wp_temporary (next : Option Bytes) (stage : Stage i contents temporary s) :
    (change (setTemporary i next)).wp (bootstrapContract before i)
      (Prog.Returning fun _ => Stage i contents next) s := by
  intro t inv moved
  refine ⟨inv, fun j other => ⟨Function.update_of_ne other _ _, fun _ _ => Iff.rfl⟩, ?_⟩
  have changed : Stage i contents next (setTemporary i next t) :=
    ⟨Function.update_self _ _ _, (stage.left moved).published⟩
  exact Prog.wp_done fun u _ later _ _ => changed.left later

/-- A process unlinks its own files only: between the comparison and the step nobody else can take the path. -/
theorem wp_unlinkCreated (inv : Untouched before s) :
    (unlinkCreated i path).wp (bootstrapContract before i) (Prog.Returning fun _ _ => True) s := by
  have looks : ∀ t : Vault ι, Untouched before t →
      (Prog.atomic fun vault => .ok (decide (vault.owner path = some i), vault) : Process ι Bool).wp
        (bootstrapContract before i) (Prog.Returning fun mine u => mine = true → u.owner path = some i) t := by
    intro t _
    refine Prog.wp_atomic_total fun u invU _ => ⟨_, _, rfl, invU, fun j _ => leaves_refl j u, ?_⟩
    intro v _ later mine same yes
    obtain rfl := Except.ok.inj same
    exact owner_left later (of_decide_eq_true yes)
  refine Prog.wp_then inv (Prog.wp_pause fun _ _ => trivial) fun _ t invT _ => ?_
  refine Prog.wp_then invT (looks t invT) fun mine u invU owned => ?_
  refine Prog.wp_then invU (Prog.wp_pause fun v moved now => owner_left moved (owned now)) fun _ v invV owned => ?_
  cases mine with
  | false => exact Prog.wp_done fun _ _ _ _ _ => trivial
  | true =>
    intro w invW moved
    obtain ⟨file, own⟩ := owner_eq.mp (owner_left moved (owned rfl))
    refine ⟨fun name file stood => ?_, fun j other => leaves_update ?_ (by simp), Prog.wp_done fun _ _ _ _ _ => trivial⟩
    · have present := invW name file stood
      have different : name ≠ path := by
        rintro rfl
        simp [present] at own
      exact (Function.update_of_ne different _ _).trans present
    · simpa [owner, own] using other.symm

theorem wp_withdraw (inv : Untouched before s) :
    (withdraw i path).wp (bootstrapContract before i) (Prog.Returning fun _ _ => True) s := by
  refine Prog.wp_then inv (wp_unlinkCreated inv) fun _ t invT _ => ?_
  refine Prog.wp_then invT (Prog.wp_pause fun _ _ => trivial) fun _ u _ _ => ?_
  have removed : (change (setTemporary i none)).wp (bootstrapContract before i)
      (Prog.Returning fun _ => Stage i [] none) u := wp_temporary none ⟨rfl, by simp⟩
  exact Prog.wp_mono (fun _ _ _ _ _ _ => trivial) removed

theorem wp_rollback {P : Unit → Vault ι → Prop} {created : List String} (inv : Untouched before s) (halt : Halt) :
    (rollback i created halt).wp (bootstrapContract before i) (Prog.Returning P) s := by
  cases halt with
  | killed => exact Prog.wp_raised
  | raised error =>
    have unlinked : (Prog.forEach created (unlinkCreated i)).wp (bootstrapContract before i)
        (Prog.Returning fun _ _ => True) s := by
      induction created generalizing s with
      | nil => exact Prog.wp_done fun _ _ _ _ _ => trivial
      | cons path rest ih => exact Prog.wp_then inv (wp_unlinkCreated inv) fun _ _ invT _ => ih invT
    exact Prog.wp_then inv unlinked fun _ _ _ _ => Prog.wp_raised

theorem wp_publish (inv : Untouched before s) (stage : Stage i contents temporary s) :
    (publish i path content).wp (bootstrapContract before i)
      (Prog.Returning fun _ => Stage i ((path, content) :: contents) none) s := by
  refine Prog.wp_then inv (wp_pause stage) fun _ t invT stage => ?_
  refine Prog.wp_then invT (wp_temporary (some content) stage) fun _ t invT stage => ?_
  refine Prog.wp_then invT (wp_pause stage) fun _ t invT stage => ?_
  refine Prog.wp_then invT (wp_link stage) fun _ t invT stage => ?_
  refine Prog.wp_then invT (wp_pause stage) fun _ t invT stage => ?_
  refine Prog.wp_then invT (wp_temporary none stage) fun _ t invT stage => ?_
  refine Prog.wp_then invT (wp_pause stage) fun _ t invT stage => ?_
  refine wp_check (fun u _ v ran => ?_) stage
  obtain ⟨_, _, ran⟩ := bind_eq_ok.mp ran
  exact (Prod.mk.inj (pure_eq_ok.mp ran)).2.symm

theorem wp_create (inv : Untouched before s) (stage : Stage i contents temporary s) :
    (create i path content).wp (bootstrapContract before i)
      (Prog.Returning fun _ => Stage i ((path, content) :: contents) none) s := by
  refine Prog.wp_then inv (wp_pause stage) fun _ t invT stage => ?_
  refine Prog.wp_then invT (wp_temporary (some []) stage) fun _ t invT stage => ?_
  refine Prog.wp_then invT (Prog.wp_handled invT (wp_publish invT stage) fun halt u invU =>
    wp_failed invU (wp_withdraw invU) halt) fun _ t invT stage => ?_
  exact Prog.wp_handled invT (wp_pause stage) fun halt u invU => wp_failed invU (wp_unlinkCreated invU) halt

theorem wp_initializeKeyring (inv : Untouched before s) (stage : Stage i contents temporary s) :
    (initializeKeyring i path content).wp (bootstrapContract before i)
      (Prog.Returning fun _ => Stage i ((path, content) :: contents) none) s := by
  refine Prog.wp_then inv (wp_pause stage) fun _ t invT stage => ?_
  refine Prog.wp_then invT (wp_checkAbsent stage) fun _ t invT stage => ?_
  exact wp_create invT stage

theorem wp_createEach {pending : List (String × Bytes)} {created : List String} (inv : Untouched before s)
    (stage : Stage i contents none s) :
    (createEach i pending created).wp (bootstrapContract before i)
      (Prog.Returning fun _ => Stage i (pending.reverse ++ contents) none) s := by
  induction pending generalizing contents created s with
  | nil => exact Prog.wp_handled inv (wp_pause stage) fun halt _ invT => wp_rollback invT halt
  | cons entry rest ih =>
      refine Prog.wp_then inv (Prog.wp_handled inv (wp_create inv stage) fun halt _ invT => wp_rollback invT halt)
        fun _ t invT stage => ?_
      simpa using ih invT stage

theorem wp_bootstrap {paths : List String} {keyring : String × Bytes} {others : List (String × Bytes)}
    (inv : Untouched before s) (idle : s.temporaries i = none) :
    (bootstrap i paths keyring others).wp (bootstrapContract before i)
      (Prog.Returning fun _ => Stage i (keyring :: others) none) s := by
  have begun : Stage i [] none s := ⟨idle, by simp⟩
  have absent : ∀ {t : Vault ι}, Untouched before t → Stage i [] none t →
      (Prog.forEach paths fun path => (do
        Prog.mayRaise
        Prog.atomic (checkAbsent "refusing to overwrite existing production secrets" path) : Process ι Unit)).wp
        (bootstrapContract before i) (Prog.Returning fun _ => Stage i [] none) t := by
    induction paths with
    | nil => exact fun _ stage => Prog.wp_done fun _ _ moved _ _ => stage.left moved
    | cons path rest ih =>
        intro t invT stage
        exact Prog.wp_then invT (Prog.wp_then invT (wp_pause stage) fun _ u _ stage => wp_checkAbsent stage)
          fun _ u invU stage => ih invU stage
  have required : (Prog.require paths.Nodup (.raised (.valueError "bootstrap secret paths must be distinct")) :
      Process ι Unit).wp (bootstrapContract before i) (Prog.Returning fun _ => Stage i [] none) s :=
    Prog.wp_require (fun _ _ _ moved _ _ => begun.left moved) fun _ _ _ _ same => by simp at same
  refine Prog.wp_then inv required fun _ t invT stage => ?_
  refine Prog.wp_then invT (absent invT stage) fun _ t invT stage => ?_
  refine Prog.wp_then invT (Prog.wp_handled invT (wp_initializeKeyring invT stage) fun halt u invU =>
    wp_rollback invU halt) fun _ t invT stage => ?_
  refine Prog.wp_mono (fun result u _ returned done same => ?_) (wp_createEach invT stage)
  have ended := returned done same
  refine ⟨ended.temporary, fun entry member => ended.published entry ?_⟩
  rcases List.mem_cons.mp member with rfl | other
  · simp
  · simp [other]

variable (platform : Platform) (tenantId : ι → String) (draws : ι → SecretDraws) (paths : SecretPaths)

/-- A path and the bytes that a bootstrap writes there. -/
def written (entry : String × Json) : String × Bytes := (entry.1, (atomicPrivateJson entry.2).content)

/-- One process a bootstrap. -/
def service : Service ι (Vault ι) Halt Unit where
  call i := bootstrap i paths.all
    (written (paths.keyring, keyringPayload (draws i).keyring.keyId (Dict.ofList [(draws i).keyring.entry])))
    [written (paths.token, tokenPayload platform (tenantId i) (draws i)),
      written (paths.plaintext, plaintextPayload (tenantId i) (draws i))]
  surroundings _ _ := False
  recovery _ _ := False

def verified (before : SecretFiles) : (service platform tenantId draws paths).Verified where
  inv := Untouched before
  rely := Leaves
  guar := Promises
  pre i vault := vault.temporaries i = none
  post i := Prog.Returning fun _ => Stage i ((secretFiles platform (tenantId i) (draws i) paths).map written) none
  dead _ _ := True
  rely_refl := leaves_refl
  rely_trans := leaves_trans
  compatible other _ _ promised := promised _ (Ne.symm other)
  pre_stable _ _ moved idle := moved.1.trans idle
  post_stable _ _ moved exit value same := (exit value same).left moved
  dead_stable _ _ _ dead := dead
  surroundings_kept _ moved := moved.elim
  recovery_kept _ moved := moved.elim
  calls_kept inv idle := wp_bootstrap inv idle

end Contracts

namespace RacingSample

def racing : Service Nat (Vault Nat) Halt Unit :=
  service TokenSample.platform (fun _ => "default") (fun _ => TokenSample.draws) TokenSample.paths

def empty : Config Nat (Vault Nat) Halt Unit := .start (start fun _ => none)

def schedule : List (Service.Move Nat (Vault Nat)) :=
  [.spawn 0, .spawn 1] ++ List.replicate 6 (.act 1) ++ List.replicate 42 (.act 0)

def returned : Option (Except Halt Unit) → Bool
  | some (.ok _) => true
  | _ => false

theorem returned_eq {result : Option (Except Halt Unit)} (done : returned result = true) : result = some (.ok ()) := by
  unfold returned at done
  split at done
  next => rfl
  next => simp at done

theorem raced : ∃ config, racing.Reachable empty config ∧ returned (config.result 0) = true := by
  refine racing.play_exists schedule empty (fun config => returned (config.result 0)) ?_ ?_
  · simp [schedule]
  · decide +kernel

end RacingSample

end Vault

end AgentTree.Api
