import AgentTree.Program

/-!
Any number of calls that run interleaved on one state, with exceptions, changes
made from outside, and process kills followed by a recovery.
-/

namespace Concurrent

variable {ι σ ε α κ : Type}

inductive Thread (σ ε α : Type) : Type
  | waiting
  | running (program : Prog σ ε α)
  | killed

/-- A finished call keeps its result; a kill only stops the calls still running. -/
def Thread.kill : Thread σ ε α → Thread σ ε α
  | .running (.done result) => .running (.done result)
  | .running _ => .killed
  | thread => thread

structure Config (ι σ ε α : Type) where
  state : σ
  threads : ι → Thread σ ε α

def Config.start (s : σ) : Config ι σ ε α := ⟨s, fun _ => .waiting⟩

/-- The call is not running: it waits, was killed or has a result. -/
def Config.Idle (config : Config ι σ ε α) (i : ι) : Prop :=
  ∀ program, config.threads i = .running program → ∃ result, program = .done result

/-- The result of a call that has returned or raised. -/
def Config.result (config : Config ι σ ε α) (i : ι) : Option (Except ε α) :=
  match config.threads i with
  | .running (.done result) => some result
  | _ => none

theorem Config.result_eq {config : Config ι σ ε α} {i : ι} {result : Except ε α}
    (exit : config.result i = some result) : config.threads i = .running (.done result) := by
  unfold Config.result at exit
  split at exit
  next other same =>
    obtain rfl := Option.some.inj exit
    exact same
  next => simp at exit

/-- The calls of a service, what its surroundings may change, and its recovery after a kill. -/
structure Service (ι σ ε α : Type) where
  call : ι → Prog σ ε α
  surroundings : σ → σ → Prop
  recovery : σ → σ → Prop

namespace Service

section Semantics

variable [DecidableEq ι] (service : Service ι σ ε α)

inductive Step : Config ι σ ε α → Config ι σ ε α → Prop
  | spawn {s threads} (i : ι) : threads i = .waiting →
      Step ⟨s, threads⟩ ⟨s, Function.update threads i (.running (service.call i))⟩
  | act {s threads effect next} (i : ι) : threads i = .running (.act effect next) →
      Step ⟨s, threads⟩ ⟨effect s, Function.update threads i (.running (next s))⟩
  | survive {s threads next fault} (i : ι) : threads i = .running (.hazard next fault) →
      Step ⟨s, threads⟩ ⟨s, Function.update threads i (.running next)⟩
  | strike {s threads next fault} (i : ι) (error : ε) :
      threads i = .running (.hazard next fault) →
      Step ⟨s, threads⟩ ⟨s, Function.update threads i (.running (fault error))⟩
  | surroundings {s t threads} : service.surroundings s t → Step ⟨s, threads⟩ ⟨t, threads⟩
  | crash {s t threads} : service.recovery s t → Step ⟨s, threads⟩ ⟨t, fun i => (threads i).kill⟩

def Reachable : Config ι σ ε α → Config ι σ ε α → Prop :=
  Relation.ReflTransGen service.Step

end Semantics

variable (service : Service ι σ ε α)

/-- Proof that a service keeps its contracts, call by call. -/
structure Verified where
  inv : σ → Prop
  rely : ι → σ → σ → Prop
  guar : ι → σ → σ → Prop
  pre : ι → σ → Prop
  post : ι → Except ε α → σ → Prop
  dead : ι → σ → Prop
  rely_refl : ∀ i s, rely i s s
  rely_trans : ∀ i {s t u}, rely i s t → rely i t u → rely i s u
  compatible : ∀ {i j s t}, i ≠ j → inv s → inv t → guar i s t → rely j s t
  pre_stable : ∀ {i s t}, inv s → inv t → rely i s t → pre i s → pre i t
  post_stable : ∀ {i result s t}, inv s → inv t → rely i s t → post i result s → post i result t
  dead_stable : ∀ {i s t}, inv s → inv t → rely i s t → dead i s → dead i t
  surroundings_kept : ∀ {s t}, inv s → service.surroundings s t → inv t ∧ ∀ i, rely i s t
  recovery_kept : ∀ {s t}, inv s → service.recovery s t → inv t ∧ ∀ i,
    dead i t ∧ (pre i s → pre i t) ∧ ∀ result, post i result s → post i result t
  calls_kept : ∀ {i s}, inv s → pre i s →
    (service.call i).wp ⟨inv, rely i, guar i, rely_refl i, rely_trans i⟩ (post i) s

section Soundness

variable {service}

def Verified.contract (verified : service.Verified) (i : ι) : Contract σ :=
  ⟨verified.inv, verified.rely i, verified.guar i, verified.rely_refl i, verified.rely_trans i⟩

/-- What the proof knows about one call, by how far it has come. -/
def Verified.Holds (verified : service.Verified) (i : ι) (s : σ) : Thread σ ε α → Prop
  | .waiting => verified.pre i s
  | .running program => program.wp (verified.contract i) (verified.post i) s
  | .killed => verified.dead i s

def Verified.Sound (verified : service.Verified) (config : Config ι σ ε α) : Prop :=
  verified.inv config.state ∧ ∀ i, verified.Holds i config.state (config.threads i)

theorem Verified.holds_stable (verified : service.Verified) {i : ι} {s t : σ}
    {thread : Thread σ ε α} (invS : verified.inv s) (invT : verified.inv t)
    (moved : verified.rely i s t) (holds : verified.Holds i s thread) :
    verified.Holds i t thread := by
  cases thread with
  | waiting => exact verified.pre_stable invS invT moved holds
  | running program =>
      simp only [Verified.Holds] at holds ⊢
      exact Prog.wp_stable moved holds
  | killed => exact verified.dead_stable invS invT moved holds

theorem Verified.sound_kill (verified : service.Verified) {s t : σ} {i : ι}
    {thread : Thread σ ε α} (invS : verified.inv s) (recovered : service.recovery s t)
    (holds : verified.Holds i s thread) : verified.Holds i t thread.kill := by
  obtain ⟨invT, kept⟩ := verified.recovery_kept invS recovered
  obtain ⟨dead, waits, finished⟩ := kept i
  cases thread with
  | waiting => exact waits holds
  | killed => exact dead
  | running program =>
      cases program with
      | done result =>
          have exit : verified.post i result t :=
            finished result (holds s invS (verified.rely_refl i s))
          exact Prog.wp_done fun u invU moved => verified.post_stable invT invU moved exit
      | act _ _ => exact dead
      | hazard _ _ => exact dead

theorem Verified.returned (verified : service.Verified) {config : Config ι σ ε α} {i : ι}
    {result : Except ε α} (sound : verified.Sound config) (exit : config.result i = some result) :
    verified.post i result config.state := by
  have holds := sound.2 i
  rw [Config.result_eq exit] at holds
  exact holds _ sound.1 (verified.rely_refl i _)

theorem Verified.idle (verified : service.Verified) {config : Config ι σ ε α} {i : ι}
    (sound : verified.Sound config) (idle : config.Idle i) :
    verified.pre i config.state ∨ verified.dead i config.state ∨
      ∃ result, verified.post i result config.state := by
  have holds := sound.2 i
  cases thread : config.threads i with
  | waiting => exact .inl (by simpa [Verified.Holds, thread] using holds)
  | killed => exact .inr (.inl (by simpa [Verified.Holds, thread] using holds))
  | running program =>
      obtain ⟨result, rfl⟩ := idle program thread
      rw [thread] at holds
      exact .inr (.inr ⟨result, holds _ sound.1 (verified.rely_refl i _)⟩)

variable [DecidableEq ι]

/-- One call moves and the others only see its guarantee. -/
theorem Verified.sound_update (verified : service.Verified) {s t : σ}
    {threads : ι → Thread σ ε α} {i : ι} {thread : Thread σ ε α}
    (sound : verified.Sound ⟨s, threads⟩) (invT : verified.inv t)
    (promised : ∀ j, j ≠ i → verified.rely j s t) (holds : verified.Holds i t thread) :
    verified.Sound ⟨t, Function.update threads i thread⟩ := by
  refine ⟨invT, fun j => ?_⟩
  by_cases same : j = i
  · subst j
    simpa using holds
  · simp only [Function.update_of_ne same]
    exact verified.holds_stable sound.1 invT (promised j same) (sound.2 j)

theorem Verified.sound_step (verified : service.Verified) {c d : Config ι σ ε α}
    (sound : verified.Sound c) (step : service.Step c d) : verified.Sound d := by
  cases step with
  | spawn i waits =>
      have ready := sound.2 i
      simp only [waits] at ready
      exact verified.sound_update sound sound.1 (fun j _ => verified.rely_refl j _)
        (verified.calls_kept sound.1 ready)
  | act i active =>
      have holds := sound.2 i
      simp only [active] at holds
      obtain ⟨kept, promised, later⟩ := holds _ sound.1 (verified.rely_refl i _)
      exact verified.sound_update sound kept
        (fun j other => verified.compatible (Ne.symm other) sound.1 kept promised) later
  | survive i active =>
      have holds := sound.2 i
      simp only [active] at holds
      exact verified.sound_update sound sound.1 (fun j _ => verified.rely_refl j _) holds.1
  | strike i error active =>
      have holds := sound.2 i
      simp only [active] at holds
      exact verified.sound_update sound sound.1 (fun j _ => verified.rely_refl j _) (holds.2 error)
  | surroundings changed =>
      obtain ⟨invT, kept⟩ := verified.surroundings_kept sound.1 changed
      exact ⟨invT, fun i => verified.holds_stable sound.1 invT (kept i) (sound.2 i)⟩
  | crash recovered =>
      exact ⟨(verified.recovery_kept sound.1 recovered).1,
        fun i => verified.sound_kill sound.1 recovered (sound.2 i)⟩

/-- A step is a change from outside, a recovery, or what one call guarantees. -/
theorem Verified.step_guar (verified : service.Verified) {c d : Config ι σ ε α}
    (sound : verified.Sound c) (step : service.Step c d) :
    d.state = c.state ∨ (∃ i, verified.guar i c.state d.state) ∨
      service.surroundings c.state d.state ∨ service.recovery c.state d.state := by
  cases step with
  | spawn i waits => exact .inl rfl
  | act i active =>
      have holds := sound.2 i
      simp only [active] at holds
      exact .inr (.inl ⟨i, (holds _ sound.1 (verified.rely_refl i _)).2.1⟩)
  | survive i active => exact .inl rfl
  | strike i error active => exact .inl rfl
  | surroundings changed => exact .inr (.inr (.inl changed))
  | crash recovered => exact .inr (.inr (.inr recovered))

/-- Every configuration of every run satisfies the contracts of its calls. -/
theorem Verified.sound_run (verified : service.Verified) {s : σ} {config : Config ι σ ε α}
    (inv : verified.inv s) (ready : ∀ i, verified.pre i s)
    (run : service.Reachable (Config.start s) config) : verified.Sound config := by
  induction run with
  | refl => exact ⟨inv, ready⟩
  | tail _ step ih => exact verified.sound_step ih step

end Soundness

/-! Schedules: an executable way to name one run. -/

variable [DecidableEq ι]

inductive Move (ι σ : Type) : Type
  | spawn (i : ι)
  | act (i : ι)
  | change (effect : σ → σ)

def move (config : Config ι σ ε α) : Move ι σ → Option (Config ι σ ε α)
  | .spawn i => match config.threads i with
      | .waiting => some ⟨config.state, Function.update config.threads i (.running (service.call i))⟩
      | _ => none
  | .act i => match config.threads i with
      | .running (.act effect next) =>
          some ⟨effect config.state, Function.update config.threads i (.running (next config.state))⟩
      | .running (.hazard next _) =>
          some ⟨config.state, Function.update config.threads i (.running next)⟩
      | _ => none
  | .change effect => some ⟨effect config.state, config.threads⟩

def play : List (Move ι σ) → Config ι σ ε α → Option (Config ι σ ε α)
  | [], config => some config
  | first :: rest, config => (service.move config first).bind (play rest)

theorem move_step {c d : Config ι σ ε α} {m : Move ι σ}
    (allowed : ∀ effect, m = .change effect → service.surroundings c.state (effect c.state))
    (moved : service.move c m = some d) : service.Step c d := by
  obtain ⟨s, threads⟩ := c
  cases m with
  | spawn i =>
      simp only [move] at moved
      split at moved
      next waits =>
        cases moved
        exact .spawn i waits
      next => simp at moved
  | act i =>
      simp only [move] at moved
      split at moved
      next active =>
        cases moved
        exact .act i active
      next active =>
        cases moved
        exact .survive i active
      next => simp at moved
  | change effect =>
      simp only [move, Option.some.injEq] at moved
      subst moved
      exact .surroundings (allowed effect rfl)

theorem play_reachable {moves : List (Move ι σ)} {c d : Config ι σ ε α}
    (allowed : ∀ effect, .change effect ∈ moves → ∀ s, service.surroundings s (effect s))
    (played : service.play moves c = some d) : service.Reachable c d := by
  induction moves generalizing c with
  | nil =>
      simp only [play, Option.some.injEq] at played
      subst played
      exact .refl
  | cons first rest ih =>
      obtain ⟨middle, moved, later⟩ := Option.bind_eq_some_iff.mp played
      refine .head (service.move_step ?_ moved) (ih ?_ later)
      · intro effect same
        exact allowed effect (by simp [same]) _
      · exact fun effect member => allowed effect (by simp [member])

/-- A schedule whose last configuration passes a check is a run that ends in one. -/
theorem play_exists (moves : List (Move ι σ)) (c : Config ι σ ε α) (check : Config ι σ ε α → Bool)
    (allowed : ∀ effect, .change effect ∈ moves → ∀ s, service.surroundings s (effect s))
    (played : (service.play moves c).any check = true) :
    ∃ d, service.Reachable c d ∧ check d = true := by
  cases last : service.play moves c with
  | none => simp [last] at played
  | some d => exact ⟨d, service.play_reachable allowed last, by simpa [last] using played⟩

/-! Runs whose steps all meet a condition. -/

def Guarded (condition : σ → σ → Prop) : Config ι σ ε α → Config ι σ ε α → Prop :=
  Relation.ReflTransGen fun c d => service.Step c d ∧ condition c.state d.state

def playGuarded (check : σ → σ → Bool) : List (Move ι σ) → Config ι σ ε α → Option (Config ι σ ε α)
  | [], config => some config
  | first :: rest, config => do
      let next ← service.move config first
      if check config.state next.state then playGuarded check rest next else none

theorem playGuarded_guarded {condition : σ → σ → Prop} {check : σ → σ → Bool}
    (sound : ∀ s t, check s t = true → condition s t) {moves : List (Move ι σ)} {c d : Config ι σ ε α}
    (allowed : ∀ effect, .change effect ∈ moves → ∀ s, service.surroundings s (effect s))
    (played : service.playGuarded check moves c = some d) : service.Guarded condition c d := by
  induction moves generalizing c with
  | nil =>
      simp only [playGuarded, Option.some.injEq] at played
      subst played
      exact .refl
  | cons first rest ih =>
      obtain ⟨middle, moved, later⟩ := Option.bind_eq_some_iff.mp played
      split at later
      next checked =>
        refine .head ⟨service.move_step ?_ moved, sound _ _ checked⟩ (ih ?_ later)
        · intro effect same
          exact allowed effect (by simp [same]) _
        · exact fun effect member => allowed effect (by simp [member])
      next => simp at later

/-- The invariant of the calls, and what every step that meets the condition keeps. -/
theorem Verified.guarded_run {service : Service ι σ ε α} (verified : service.Verified)
    {condition : σ → σ → Prop} {P : σ → Prop} {s : σ} {config : Config ι σ ε α} (inv : verified.inv s)
    (ready : ∀ i, verified.pre i s) (holds : P s)
    (kept : ∀ c d, verified.Sound c → service.Step c d → condition c.state d.state → P c.state → P d.state)
    (run : service.Guarded condition (.start s) config) : verified.Sound config ∧ P config.state := by
  induction run with
  | refl => exact ⟨⟨inv, ready⟩, holds⟩
  | tail _ step ih =>
      obtain ⟨sound, before⟩ := ih
      exact ⟨verified.sound_step sound step.1, kept _ _ sound step.1 step.2 before⟩

end Service

end Concurrent
