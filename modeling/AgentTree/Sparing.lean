import AgentTree.Pool

/-!
Programs that are spared some of their hazards.  Where no exception strikes, a program
goes on, so the runs of the spared programs are runs of the whole ones.
-/

namespace Concurrent

variable {ι σ ε α β : Type}

namespace Prog

/-- The second program is the first without some of its hazards. -/
inductive Spares : Prog σ ε α → Prog σ ε α → Prop
  | done (result : Except ε α) : Spares (done result) (done result)
  | act {effect : σ → σ} {next rest : σ → Prog σ ε α} :
      (∀ s, Spares (next s) (rest s)) → Spares (act effect next) (act effect rest)
  | hazard {next rest : Prog σ ε α} {fault handler : ε → Prog σ ε α} :
      Spares next rest → (∀ error, Spares (fault error) (handler error)) →
      Spares (hazard next fault) (hazard rest handler)
  | spared {next rest : Prog σ ε α} {fault : ε → Prog σ ε α} :
      Spares next rest → Spares (hazard next fault) rest

theorem Spares.refl (p : Prog σ ε α) : p.Spares p := by
  induction p with
  | done result => exact .done result
  | act effect next ih => exact .act ih
  | hazard next fault ihNext ihFault => exact .hazard ihNext ihFault

theorem Spares.bind {p q : Prog σ ε α} {rest later : α → Prog σ ε β} (first : p.Spares q)
    (spares : ∀ value, (rest value).Spares (later value)) : (p.bind rest).Spares (q.bind later) := by
  induction first with
  | done result =>
      cases result with
      | ok value => exact spares value
      | error error => exact .done _
  | act _ ih => exact .act ih
  | hazard _ _ ihNext ihFault => exact .hazard ihNext ihFault
  | spared _ ih => exact .spared ih

/-- A program that goes on in another way. -/
theorem Spares.then (p : Prog σ ε α) {rest later : α → Prog σ ε β}
    (spares : ∀ value, (rest value).Spares (later value)) : (p.bind rest).Spares (p.bind later) :=
  .bind (.refl p) spares

theorem Spares.tryCatch {p q : Prog σ ε α} {handler other : ε → Prog σ ε α} (body : p.Spares q)
    (handles : ∀ error, (handler error).Spares (other error)) :
    (p.tryCatch handler).Spares (q.tryCatch other) := by
  induction body with
  | done result =>
      cases result with
      | ok value => exact .done _
      | error error => exact handles error
  | act _ ih => exact .act ih
  | hazard _ _ ihNext ihFault => exact .hazard ihNext ihFault
  | spared _ ih => exact .spared ih

theorem Spares.tryFinally {p q : Prog σ ε α} {cleanup other : Prog σ ε Unit} (body : p.Spares q)
    (last : cleanup.Spares other) : (Prog.tryFinally p cleanup).Spares (Prog.tryFinally q other) :=
  .bind (.tryCatch body fun _ => .bind last fun _ => .refl _) fun _ => .bind last fun _ => .refl _

/-- Nothing strikes before the transaction. -/
theorem spares_exposed (run : σ → Except ε (α × σ)) : (exposed run).Spares (atomic run) :=
  .spared (.refl _)

/-- The same next step, and whole programs after it. -/
inductive Abreast : Prog σ ε α → Prog σ ε α → Prop
  | done (result : Except ε α) : Abreast (done result) (done result)
  | act {effect : σ → σ} {next rest : σ → Prog σ ε α} :
      (∀ s, Spares (next s) (rest s)) → Abreast (act effect next) (act effect rest)
  | hazard {next rest : Prog σ ε α} {fault handler : ε → Prog σ ε α} :
      Spares next rest → (∀ error, Spares (fault error) (handler error)) →
      Abreast (hazard next fault) (hazard rest handler)

end Prog

/-- The whole call and the spared one have come equally far. -/
inductive Thread.Abreast : Thread σ ε α → Thread σ ε α → Prop
  | waiting : Abreast .waiting .waiting
  | running {p q : Prog σ ε α} : p.Abreast q → Abreast (.running p) (.running q)
  | killed : Abreast .killed .killed

theorem Thread.Abreast.kill {whole spared : Thread σ ε α} (abreast : whole.Abreast spared) :
    whole.kill.Abreast spared.kill := by
  cases abreast with
  | waiting => exact .waiting
  | killed => exact .killed
  | running abreast =>
      cases abreast with
      | done result => exact .running (.done result)
      | act _ => exact .killed
      | hazard _ _ => exact .killed

structure Config.Abreast (whole spared : Config ι σ ε α) : Prop where
  state : whole.state = spared.state
  threads : ∀ i, (whole.threads i).Abreast (spared.threads i)

theorem Config.Abreast.result {whole spared : Config ι σ ε α} (abreast : whole.Abreast spared) (i : ι) :
    whole.result i = spared.result i := by
  have thread := abreast.threads i
  unfold Config.result
  generalize whole.threads i = first at thread ⊢
  generalize spared.threads i = second at thread ⊢
  cases thread with
  | waiting => rfl
  | killed => rfl
  | running abreast => cases abreast <;> rfl

namespace Service

variable [DecidableEq ι] {service spared : Service ι σ ε α}

/-- The whole call passes the hazards that the other one does not have. -/
theorem reachable_abreast (service : Service ι σ ε α) (s : σ) {p q : Prog σ ε α} (spares : p.Spares q)
    {whole threads : ι → Thread σ ε α} (i : ι) (abreast : ∀ j, (whole j).Abreast (threads j)) :
    ∃ config, service.Reachable ⟨s, Function.update whole i (.running p)⟩ config ∧
      config.Abreast ⟨s, Function.update threads i (.running q)⟩ := by
  have arrived : ∀ {p q : Prog σ ε α}, p.Abreast q → Config.Abreast
      ⟨s, Function.update whole i (.running p)⟩ ⟨s, Function.update threads i (.running q)⟩ := by
    intro p q here
    refine ⟨rfl, fun j => ?_⟩
    by_cases same : j = i
    · subst same
      simpa using .running here
    · simpa [Function.update_of_ne same] using abreast j
  induction spares with
  | done result => exact ⟨_, .refl, arrived (.done result)⟩
  | act spares => exact ⟨_, .refl, arrived (.act spares)⟩
  | hazard next fault => exact ⟨_, .refl, arrived (.hazard next fault)⟩
  | @spared next rest fault _ ih =>
      obtain ⟨config, run, here⟩ := ih
      refine ⟨config, .head ?_ run, here⟩
      have active : Function.update whole i (.running (.hazard next fault)) i =
          .running (.hazard next fault) := Function.update_self ..
      have step : service.Step ⟨s, _⟩ _ := .survive i active
      simpa using step

/-- A step of the spared calls is made by the whole ones. -/
theorem step_abreast (calls : ∀ i, (service.call i).Spares (spared.call i))
    (around : ∀ s t, spared.surroundings s t → service.surroundings s t)
    (recovers : ∀ s t, spared.recovery s t → service.recovery s t) {whole c d : Config ι σ ε α}
    (abreast : whole.Abreast c) (step : spared.Step c d) :
    ∃ after, service.Reachable whole after ∧ after.Abreast d := by
  obtain ⟨s, running⟩ := whole
  obtain ⟨same, threads⟩ := abreast
  cases step with
  | @spawn t others i waits =>
      have here := threads i
      simp only [waits] at here same
      generalize own : running i = thread at here
      cases here
      obtain ⟨config, run, there⟩ := reachable_abreast service s (calls i) i threads
      exact ⟨config, .head (.spawn i own) run, same ▸ there⟩
  | @act t others effect next i active =>
      have here := threads i
      simp only [active] at here same
      generalize own : running i = thread at here
      cases here with
      | running here =>
      cases here with
      | act spares =>
      subst same
      obtain ⟨config, run, there⟩ := reachable_abreast service (effect s) (spares s) i threads
      exact ⟨config, .head (.act i own) run, there⟩
  | @survive t others next fault i active =>
      have here := threads i
      simp only [active] at here same
      generalize own : running i = thread at here
      cases here with
      | running here =>
      cases here with
      | hazard spares _ =>
      obtain ⟨config, run, there⟩ := reachable_abreast service s spares i threads
      exact ⟨config, .head (.survive i own) run, same ▸ there⟩
  | @strike t others next fault i error active =>
      have here := threads i
      simp only [active] at here same
      generalize own : running i = thread at here
      cases here with
      | running here =>
      cases here with
      | hazard _ spares =>
      obtain ⟨config, run, there⟩ := reachable_abreast service s (spares error) i threads
      exact ⟨config, .head (.strike i error own) run, same ▸ there⟩
  | surroundings changed =>
      simp only at same
      subst same
      exact ⟨_, .single (.surroundings (around _ _ changed)), rfl, threads⟩
  | crash recovered =>
      simp only at same
      subst same
      exact ⟨_, .single (.crash (recovers _ _ recovered)), rfl, fun i => (threads i).kill⟩

/-- Every run of the spared calls is a run of the whole ones, with the same results. -/
theorem run_abreast (calls : ∀ i, (service.call i).Spares (spared.call i))
    (around : ∀ s t, spared.surroundings s t → service.surroundings s t)
    (recovers : ∀ s t, spared.recovery s t → service.recovery s t) {s : σ} {config : Config ι σ ε α}
    (run : spared.Reachable (.start s) config) :
    ∃ whole, service.Reachable (.start s) whole ∧ whole.state = config.state ∧
      ∀ i, whole.result i = config.result i := by
  have simulated : ∃ whole, service.Reachable (.start s) whole ∧ whole.Abreast config := by
    induction run with
    | refl => exact ⟨_, .refl, rfl, fun _ => .waiting⟩
    | tail _ step ih =>
        obtain ⟨whole, run, abreast⟩ := ih
        obtain ⟨after, later, there⟩ := step_abreast calls around recovers abreast step
        exact ⟨after, run.trans later, there⟩
  obtain ⟨whole, run, abreast⟩ := simulated
  exact ⟨whole, run, abreast.state, abreast.result⟩

end Service

end Concurrent
