import AgentTree.ProcessRegistry

/-!
What a cancellation reaches, in every order of the steps of `spawn`, the other operations of
the registry and the signal handlers.
-/

namespace AgentTree.ProcessRegistry

variable {ι : Type} {s t u : ProcessRegistry ι} {process : Nat} {entry : ProcessEntry}
  {sender : Sender ι} {signum : Signum}

def maker (s : ProcessRegistry ι) (process : Nat) : Option ι := (s.children[process]?).map (·.maker)

def Registered (s : ProcessRegistry ι) (process : Nat) : Prop := ∃ entry ∈ s.entries, entry.process = process

def Sent (s : ProcessRegistry ι) (sender : Sender ι) (process : Nat) (signum : Signum) : Prop :=
  ∃ delivery ∈ s.sent, delivery.sender = sender ∧ delivery.entry.process = process ∧ delivery.signum = signum

/-! Children are only reaped, entries only lost to a reaped child, signals only added. -/

structure Culled (touched : Nat → Prop) (s t : ProcessRegistry ι) : Prop where
  accepting : t.accepting = s.accepting
  owner : t.owner = s.owner
  spawns : t.spawns = s.spawns
  count : t.children.length = s.children.length
  makers : ∀ process, t.maker process = s.maker process
  unreaped : ∀ process, t.unreaped process = true → s.unreaped process = true
  spared : ∀ process, ¬ touched process → t.unreaped process = s.unreaped process
  entries : ∀ process, t.Registered process → s.Registered process
  kept : ∀ process, s.Registered process → t.unreaped process = true → t.Registered process
  sent : ∀ delivery ∈ s.sent, delivery ∈ t.sent

variable {touched : Nat → Prop}

theorem Culled.refl (s : ProcessRegistry ι) : Culled touched s s :=
  ⟨rfl, rfl, rfl, rfl, fun _ => rfl, fun _ held => held, fun _ _ => rfl, fun _ held => held,
    fun _ held _ => held, fun _ held => held⟩

theorem Culled.trans (first : Culled touched s t) (second : Culled touched t u) : Culled touched s u where
  accepting := second.accepting.trans first.accepting
  owner := second.owner.trans first.owner
  spawns := second.spawns.trans first.spawns
  count := second.count.trans first.count
  makers process := (second.makers process).trans (first.makers process)
  unreaped process held := first.unreaped process (second.unreaped process held)
  spared process far := (second.spared process far).trans (first.spared process far)
  entries process held := first.entries process (second.entries process held)
  kept process held alive := second.kept process (first.kept process held (second.unreaped process alive)) alive
  sent delivery held := second.sent delivery (first.sent delivery held)

theorem Culled.sent_kept (culled : Culled touched s t) (sent : s.Sent sender process signum) :
    t.Sent sender process signum := by
  obtain ⟨delivery, held, rest⟩ := sent
  exact ⟨delivery, culled.sent delivery held, rest⟩

theorem culled_foldl {step : ProcessRegistry ι → ProcessEntry → ProcessRegistry ι} {entries : List ProcessEntry}
    (culls : ∀ s, ∀ entry ∈ entries, Culled touched s (step s entry)) (s : ProcessRegistry ι) :
    Culled touched s (entries.foldl step s) := by
  induction entries generalizing s with
  | nil => exact .refl s
  | cons entry rest ih =>
      exact (culls s entry (by simp)).trans (ih (fun t other member => culls t other (by simp [member])) _)

theorem deliver_culled (sender : Sender ι) (signum : Signum) (s : ProcessRegistry ι) (entry : ProcessEntry) :
    Culled touched s (s.deliver sender signum entry) := by
  unfold deliver
  split
  · exact ⟨rfl, rfl, rfl, rfl, fun _ => rfl, fun _ held => held, fun _ _ => rfl, fun _ held => held,
      fun _ held _ => held, fun delivery held => by simp [held]⟩
  · exact .refl s

theorem deliver_sent (alive : s.unreaped entry.process = true) :
    (s.deliver sender signum entry).Sent sender entry.process signum := by
  refine ⟨⟨sender, entry, signum⟩, ?_, rfl, rfl, rfl⟩
  simp [deliver, alive]

theorem children_deliver : (s.deliver sender signum entry).children = s.children := by
  unfold deliver
  split <;> rfl

theorem unreaped_reap (reaped : Nat) :
    (s.reap reaped).unreaped process = true ↔ process ≠ reaped ∧ s.unreaped process = true := by
  simp only [reap, unreaped, List.getElem?_modify]
  by_cases same : reaped = process
  · subst same
    cases s.children[reaped]? <;> simp
  · simp [same, Ne.symm same]

theorem reap_spares {reaped : Nat} (other : process ≠ reaped) :
    (s.reap reaped).unreaped process = s.unreaped process := by
  rw [Bool.eq_iff_iff, unreaped_reap]
  simp [other]

theorem maker_reap (reaped : Nat) : (s.reap reaped).maker process = s.maker process := by
  simp only [maker, reap, List.getElem?_modify]
  cases s.children[process]? <;> simp
  split <;> rfl

theorem reap_pop_culled {reaped : Nat} (near : touched reaped) (s : ProcessRegistry ι) :
    Culled touched s ((s.reap reaped).pop reaped) where
  accepting := rfl
  owner := rfl
  spawns := rfl
  count := by simp [reap, pop]
  makers process := maker_reap reaped
  unreaped process alive := ((unreaped_reap reaped).mp alive).2
  spared process far := reap_spares fun same => far (same ▸ near)
  entries process held := by
    obtain ⟨entry, member, rfl⟩ := held
    exact ⟨entry, (List.mem_filter.mp member).1, rfl⟩
  kept process held alive := by
    obtain ⟨entry, member, rfl⟩ := held
    refine ⟨entry, List.mem_filter.mpr ⟨member, ?_⟩, rfl⟩
    simpa using ((unreaped_reap reaped).mp alive).1
  sent delivery held := held

theorem find_registered (found : s.find process = some entry) : s.Registered process :=
  ⟨entry, List.mem_of_find?_eq_some found, by simpa using List.find?_some found⟩

theorem signal_culled (s : ProcessRegistry ι) (process : Nat) (signum : Signum) :
    Culled touched s (s.signal process signum) := by
  unfold signal
  split
  · exact deliver_culled _ _ _ _
  · exact .refl s

theorem killAndReap_culled (s : ProcessRegistry ι) (process : Nat) (exits : Bool) :
    Culled s.Registered s (s.killAndReap process exits) := by
  unfold killAndReap
  split
  next => exact .refl s
  next entry found =>
    dsimp only
    split
    · exact (deliver_culled _ _ _ _).trans (reap_pop_culled (find_registered found) _)
    · exact deliver_culled _ _ _ _

theorem collect_culled (exits : Nat → Bool) (near : touched entry.process) (s : ProcessRegistry ι) :
    Culled touched s (s.collect exits entry) := by
  unfold collect
  split
  · exact reap_pop_culled near s
  · exact .refl s

theorem foldl_deliver_children (entries : List ProcessEntry) (s : ProcessRegistry ι) :
    (entries.foldl (deliver sender signum) s).children = s.children := by
  induction entries generalizing s with
  | nil => rfl
  | cons entry rest ih => exact (ih _).trans children_deliver

theorem foldl_deliver_sent {entries : List ProcessEntry} (member : entry ∈ entries)
    (alive : s.unreaped entry.process = true) :
    (entries.foldl (deliver sender signum) s).Sent sender entry.process signum := by
  induction entries generalizing s with
  | nil => simp at member
  | cons first rest ih =>
      rcases List.mem_cons.mp member with rfl | later
      · have culled : Culled (fun _ => True) _ (rest.foldl (deliver sender signum) (s.deliver sender signum entry)) :=
          culled_foldl (fun t other _ => deliver_culled sender signum t other) _
        exact culled.sent_kept (deliver_sent alive)
      · refine ih later ?_
        simpa [unreaped, children_deliver] using alive

/-- `cancel_all` closes the registry, then culls it. -/
theorem cancelAll_culled (exits : Nat → Bool) (s : ProcessRegistry ι) :
    Culled s.Registered { s with accepting := false, cancels := s.cancels + 1 } (s.cancelAll exits) :=
  ((culled_foldl (fun t entry _ => deliver_culled _ .term t entry) _).trans
    (culled_foldl (fun t entry _ => deliver_culled _ .kill t entry) _)).trans
      (culled_foldl (fun t entry member => collect_culled exits ⟨entry, member, rfl⟩ t) _)

theorem cancelAll_kills (exits : Nat → Bool) (registered : s.Registered process)
    (alive : s.unreaped process = true) : (s.cancelAll exits).Sent (.cancelAll s.cancels) process .kill := by
  obtain ⟨entry, member, rfl⟩ := registered
  have collected : Culled s.Registered _ (s.cancelAll exits) :=
    culled_foldl (fun t other held => collect_culled exits ⟨other, held, rfl⟩ t) _
  refine collected.sent_kept (foldl_deliver_sent member ?_)
  simpa [unreaped, foldl_deliver_children] using alive

/-! What is known of every call of `spawn` in a run in which no handler strikes between the
second look and the insertion, and no wait for a late child runs out of time. -/

def undisturbed (state : ProcessRegistry ι) : Event ι → Bool
  | .handler i _ => match state.spawns i with
      | .inserting _ => false
      | _ => true
  | .spawn i (.fails _) => match state.spawns i with
      | .waiting _ => false
      | _ => true
  | _ => true

/-- The call is inside the `with` block. -/
def Inside : SpawnPhase → Prop
  | .outside => False
  | .finished _ => False
  | _ => True

/-- The call has the child in its hands, and no entry has it. -/
def Carries (s : ProcessRegistry ι) (i : ι) (process : Nat) : Prop :=
  s.maker process = some i ∧ s.unreaped process = true ∧ ¬ s.Registered process

def CallOk (s : ProcessRegistry ι) (i : ι) : SpawnPhase → Prop
  | .created process => s.Carries i process
  | .building process => s.Carries i process
  | .rechecking process => s.Carries i process
  | .killing process => s.Carries i process ∧ s.accepting = false
  | .waiting process => s.Carries i process ∧ s.accepting = false ∧ s.Sent (.spawn i) process .kill
  | .raising process => s.maker process = some i ∧ s.unreaped process = false ∧ s.accepting = false ∧
      s.Sent (.spawn i) process .kill
  | .inserting process => s.Carries i process ∧ s.accepting = true
  | .returning process => s.maker process = some i ∧
      ((s.Registered process ∧ s.unreaped process = true) ∨ ∃ call, s.Sent (.cancelAll call) process .kill)
  | _ => True

/-- Where the child is in the hands of the call. -/
def InHand : SpawnPhase → Nat → Prop
  | .created carried, process => carried = process
  | .building carried, process => carried = process
  | .rechecking carried, process => carried = process
  | .killing carried, process => carried = process
  | .waiting carried, process => carried = process
  | .inserting carried, process => carried = process
  | _, _ => False

structure Tended (s : ProcessRegistry ι) : Prop where
  inside : ∀ i, Inside (s.spawns i) → s.owner = some i
  calls : ∀ i, s.CallOk i (s.spawns i)
  known : ∀ process, s.Registered process → process < s.children.length
  watched : ∀ process, s.unreaped process = true →
    s.Registered process ∨ ∃ i, InHand (s.spawns i) process

theorem tended_new : Tended (new : ProcessRegistry ι) where
  inside i inside := by simp [new, Inside] at inside
  calls i := trivial
  known process held := by simp [Registered, new] at held
  watched process alive := by simp [unreaped, new] at alive

theorem Culled.carries (culled : Culled s.Registered s t) {i : ι} (carries : s.Carries i process) :
    t.Carries i process :=
  ⟨(culled.makers process).trans carries.1, (culled.spared process carries.2.2).trans carries.2.1,
    fun held => carries.2.2 (culled.entries process held)⟩

theorem Tended.idle (tended : Tended s) {i : ι} (away : s.owner ≠ some i) : ¬ Inside (s.spawns i) :=
  fun inside => away (tended.inside i inside)

theorem callOk_outside {phase : SpawnPhase} {i : ι} (outside : ¬ Inside phase) : s.CallOk i phase := by
  cases phase <;> first | trivial | exact absurd trivial outside

theorem Tended.culled (tended : Tended s) (culled : Culled touched s t)
    (calls : ∀ i, Inside (s.spawns i) → t.CallOk i (s.spawns i)) : Tended t where
  inside i inside := by
    rw [culled.owner]
    exact tended.inside i (culled.spawns ▸ inside)
  calls i := by
    rw [culled.spawns]
    by_cases inside : Inside (s.spawns i)
    · exact calls i inside
    · exact callOk_outside inside
  known process held := culled.count ▸ tended.known process (culled.entries process held)
  watched process alive := by
    rcases tended.watched process (culled.unreaped process alive) with held | ⟨i, inHand⟩
    · exact .inl (culled.kept process held alive)
    · exact .inr ⟨i, culled.spawns ▸ inHand⟩

/-- An operation that holds the lock alone. -/
theorem Tended.unlocked (tended : Tended s) (free : s.owner = none) (culled : Culled touched s t) : Tended t :=
  tended.culled culled fun i inside => absurd (tended.inside i inside) (by simp [free])

theorem Tended.closed (tended : Tended s) (clear : ∀ i process, s.spawns i ≠ .inserting process) (call : Nat) :
    Tended { s with accepting := false, cancels := call } where
  inside := tended.inside
  calls i := by
    have call := tended.calls i
    change CallOk _ i (s.spawns i)
    cases stands : s.spawns i with
    | inserting process => exact absurd stands (clear i process)
    | killing process =>
        rw [stands] at call
        exact ⟨call.1, rfl⟩
    | waiting process =>
        rw [stands] at call
        exact ⟨call.1, rfl, call.2.2⟩
    | raising process =>
        rw [stands] at call
        exact ⟨call.1, call.2.1, rfl, call.2.2.2⟩
    | _ =>
        rw [stands] at call
        exact call
  known := tended.known
  watched := tended.watched

theorem Tended.cancelAll (tended : Tended s) (clear : ∀ i process, s.spawns i ≠ .inserting process)
    (exits : Nat → Bool) : Tended (s.cancelAll exits) := by
  have culled := cancelAll_culled exits s
  refine (tended.closed clear (s.cancels + 1)).culled culled fun i inside => ?_
  have call := (tended.closed clear (s.cancels + 1)).calls i
  change CallOk _ i (s.spawns i) at call ⊢
  cases stands : s.spawns i with
  | outside => trivial
  | checking => trivial
  | creating => trivial
  | finished outcome => trivial
  | inserting process => exact absurd stands (clear i process)
  | created process =>
      rw [stands] at call
      exact culled.carries call
  | building process =>
      rw [stands] at call
      exact culled.carries call
  | rechecking process =>
      rw [stands] at call
      exact culled.carries call
  | killing process =>
      rw [stands] at call
      exact ⟨culled.carries call.1, culled.accepting⟩
  | waiting process =>
      rw [stands] at call
      exact ⟨culled.carries call.1, culled.accepting, culled.sent_kept call.2.2⟩
  | raising process =>
      rw [stands] at call
      obtain ⟨made, reaped, _, sent⟩ := call
      refine ⟨(culled.makers process).trans made, ?_, culled.accepting, culled.sent_kept sent⟩
      exact Bool.eq_false_iff.mpr fun alive => by simp [culled.unreaped process alive] at reaped
  | returning process =>
      rw [stands] at call
      refine ⟨(culled.makers process).trans call.1, .inr ?_⟩
      rcases call.2 with ⟨registered, alive⟩ | ⟨earlier, sent⟩
      · exact ⟨s.cancels, cancelAll_kills exits registered alive⟩
      · exact ⟨earlier, culled.sent_kept sent⟩

theorem exit_culled (s : ProcessRegistry ι) (exited : Nat) :
    Culled (fun _ => False) s
      { s with children := s.children.modify exited fun child => { child with exited := true } } := by
  have unreaped : ∀ process, ProcessRegistry.unreaped
      { s with children := s.children.modify exited fun child => { child with exited := true } } process =
        s.unreaped process := by
    intro process
    simp only [ProcessRegistry.unreaped, List.getElem?_modify]
    cases s.children[process]? <;> simp
    split <;> rfl
  refine ⟨rfl, rfl, rfl, by simp, ?_, fun process alive => unreaped process ▸ alive,
    fun process _ => unreaped process, fun _ held => held, fun _ held _ => held, fun _ held => held⟩
  intro process
  simp only [maker, List.getElem?_modify]
  cases s.children[process]? <;> simp
  split <;> rfl

theorem Tended.exit (tended : Tended s) (exited : Nat) :
    Tended { s with children := s.children.modify exited fun child => { child with exited := true } } := by
  have culled := exit_culled s exited
  have carries : ∀ i process, s.Carries i process → Carries _ i process := fun i process carries =>
    ⟨(culled.makers process).trans carries.1, (culled.spared process not_false).trans carries.2.1, carries.2.2⟩
  refine tended.culled culled fun i _ => ?_
  have call := tended.calls i
  cases stands : s.spawns i with
  | outside => trivial
  | checking => trivial
  | creating => trivial
  | finished outcome => trivial
  | created process =>
      rw [stands] at call
      exact carries i process call
  | building process =>
      rw [stands] at call
      exact carries i process call
  | rechecking process =>
      rw [stands] at call
      exact carries i process call
  | killing process =>
      rw [stands] at call
      exact ⟨carries i process call.1, call.2⟩
  | waiting process =>
      rw [stands] at call
      exact ⟨carries i process call.1, call.2⟩
  | inserting process =>
      rw [stands] at call
      exact ⟨carries i process call.1, call.2⟩
  | raising process =>
      rw [stands] at call
      exact ⟨(culled.makers process).trans call.1, (culled.spared process not_false).trans call.2.1, call.2.2⟩
  | returning process =>
      rw [stands] at call
      refine ⟨(culled.makers process).trans call.1, call.2.imp_left fun held => ⟨held.1, ?_⟩⟩
      exact (culled.spared process not_false).trans held.2

/-! The steps of one call. -/

theorem InHand.inside {phase : SpawnPhase} (inHand : InHand phase process) : Inside phase := by
  cases phase <;> trivial

/-- While a call is inside, or can go in, no other call is. -/
theorem Tended.alone (tended : Tended s) {i : ι} (mine : s.owner = none ∨ s.owner = some i) {j : ι}
    (other : j ≠ i) : ¬ Inside (s.spawns j) := by
  intro inside
  have owner := tended.inside j inside
  rcases mine with free | held
  · simp [free] at owner
  · exact other (Option.some.inj (owner.symm.trans held))

theorem Tended.inHand (tended : Tended s) {i : ι} (mine : s.owner = none ∨ s.owner = some i)
    (alive : s.unreaped process = true) : s.Registered process ∨ InHand (s.spawns i) process := by
  rcases tended.watched process alive with held | ⟨j, inHand⟩
  · exact .inl held
  · by_cases same : j = i
    · exact .inr (same ▸ inHand)
    · exact absurd inHand.inside (tended.alone mine same)

theorem Tended.notInserting (tended : Tended s) (free : s.owner = none) (j : ι) (process : Nat) :
    s.spawns j ≠ .inserting process := by
  intro stands
  exact tended.idle (i := j) (by simp [free]) (by simp [stands, Inside])

section Spawning

variable [DecidableEq ι] {i : ι} {phase : SpawnPhase}

/-- One call goes on, and what it had in hand it still has, or has registered, or reaped. -/
theorem Tended.move (tended : Tended s) (mine : s.owner = none ∨ s.owner = some i)
    (spawns : t.spawns = Function.update s.spawns i phase) (owner : Inside phase → t.owner = some i)
    (call : t.CallOk i phase) (known : ∀ process, t.Registered process → process < t.children.length)
    (watched : ∀ process, t.unreaped process = true → t.Registered process ∨ InHand phase process) :
    Tended t where
  inside j inside := by
    by_cases same : j = i
    · subst same
      exact owner (by simpa [spawns] using inside)
    · exact absurd (by simpa [spawns, same] using inside) (tended.alone mine same)
  calls j := by
    by_cases same : j = i
    · subst same
      simpa [spawns] using call
    · refine callOk_outside ?_
      simpa [spawns, same] using tended.alone mine same
  known := known
  watched process alive := by
    rcases watched process alive with held | inHand
    · exact .inl held
    · exact .inr ⟨i, by simpa [spawns] using inHand⟩

variable {posix : Bool} {calls : ι → SpawnCall} {fate : Fate}

/-- The registry and the children stay, and so does what the call has in hand. -/
theorem Tended.still (tended : Tended s) (mine : s.owner = none ∨ s.owner = some i)
    (spawns : t.spawns = Function.update s.spawns i phase) (owner : Inside phase → t.owner = some i)
    (call : t.CallOk i phase) (entries : t.entries = s.entries) (children : t.children = s.children)
    (same : ∀ process, InHand (s.spawns i) process → InHand phase process) : Tended t := by
  refine tended.move mine spawns owner call ?_ fun process alive => ?_
  · intro process held
    have known := tended.known process (by simpa [Registered, entries] using held)
    rwa [children]
  · rcases tended.inHand (i := i) mine (by simpa [unreaped, children] using alive) with held | inHand
    · exact .inl (by simpa [Registered, entries] using held)
    · exact .inr (same process inHand)

theorem Tended.created (tended : Tended s) (stands : s.spawns i = .creating) (mine : s.owner = some i) :
    Tended { s with
      children := s.children ++ [⟨i, false, false⟩]
      spawns := Function.update s.spawns i (.created s.children.length) } := by
  have old : ∀ process, unreaped { s with children := s.children ++ [⟨i, false, false⟩] } process = true →
      process = s.children.length ∨ s.unreaped process = true := by
    intro process alive
    rcases Nat.lt_trichotomy process s.children.length with below | same | above
    · exact .inr (by simpa [unreaped, List.getElem?_append_left below] using alive)
    · exact .inl same
    · have beyond : s.children.length + 1 ≤ process := above
      rw [unreaped, List.getElem?_eq_none (by simpa using beyond)] at alive
      simp at alive
  refine tended.move (.inr mine) rfl (fun _ => mine) ?_ ?_ ?_
  · refine ⟨by simp [maker], by simp [unreaped], fun held => ?_⟩
    exact Nat.lt_irrefl _ (tended.known _ held)
  · intro process held
    have known := tended.known process held
    simp
    omega
  · intro process alive
    rcases old process alive with same | before
    · exact .inr same.symm
    · rcases tended.inHand (i := i) (.inr mine) before with held | inHand
      · exact .inl held
      · rw [stands] at inHand
        exact inHand.elim

theorem Tended.reaped (tended : Tended s) (stands : s.spawns i = .waiting process) (mine : s.owner = some i)
    (call : s.CallOk i (.waiting process)) :
    Tended { s.reap process with spawns := Function.update s.spawns i (.raising process) } := by
  have dead : (s.reap process).unreaped process = false :=
    Bool.eq_false_iff.mpr fun alive => ((unreaped_reap process).mp alive).1 rfl
  refine tended.move (.inr mine) rfl (fun _ => mine) ?_ ?_ ?_
  · exact ⟨(maker_reap process).trans call.1.1, dead, call.2.1, call.2.2⟩
  · intro other held
    have known := tended.known other held
    simpa [reap] using known
  · intro other alive
    obtain ⟨different, before⟩ := (unreaped_reap process).mp alive
    rcases tended.inHand (i := i) (.inr mine) before with held | inHand
    · exact .inl held
    · rw [stands] at inHand
      exact absurd inHand.symm different

theorem Tended.inserted (tended : Tended s) (stands : s.spawns i = .inserting process) (mine : s.owner = some i)
    (call : s.CallOk i (.inserting process)) (group : Option Nat) :
    Tended { s with
      entries := s.entries ++ [⟨process, group⟩]
      spawns := Function.update s.spawns i (.returning process) } := by
  have here : process < s.children.length := by
    have made := call.1.1
    by_contra beyond
    simp [maker, List.getElem?_eq_none (Nat.le_of_not_lt beyond)] at made
  refine tended.move (.inr mine) rfl (fun _ => mine) ?_ ?_ ?_
  · exact ⟨call.1.1, .inl ⟨⟨⟨process, group⟩, by simp, rfl⟩, call.1.2.1⟩⟩
  · rintro other ⟨entry, member, rfl⟩
    rcases List.mem_append.mp member with earlier | fresh
    · exact tended.known _ ⟨entry, earlier, rfl⟩
    · rw [List.mem_singleton.mp fresh]
      exact here
  · intro other alive
    rcases tended.inHand (i := i) (.inr mine) alive with ⟨entry, member, rfl⟩ | inHand
    · exact .inl ⟨entry, by simp [member], rfl⟩
    · rw [stands] at inHand
      exact .inl ⟨⟨process, group⟩, by simp, inHand⟩

variable {posix : Bool} {calls : ι → SpawnCall} {fate : Fate}

theorem Tended.spawnStep (tended : Tended s) (clear : s.undisturbed (.spawn i fate) = true)
    (stepped : s.spawnStep posix calls i fate = some t) : Tended t := by
  have call := tended.calls i
  have mine := tended.inside i
  unfold ProcessRegistry.spawnStep at stepped
  cases stands : s.spawns i with
  | outside =>
      simp only [stands] at stepped
      split at stepped
      next free =>
        cases stepped
        exact tended.still (.inl free) rfl (fun _ => rfl) trivial rfl rfl (by simp [stands, InHand])
      next => simp at stepped
  | checking =>
      have mine := mine (by simp [stands, Inside])
      simp only [stands] at stepped
      split at stepped
      · cases stepped
        exact tended.still (.inr mine) rfl (by simp [Inside]) trivial rfl rfl (by simp [stands, InHand])
      · split at stepped
        all_goals
          cases stepped
          exact tended.still (.inr mine) rfl (by simp [Inside, mine]) trivial rfl rfl (by simp [stands, InHand])
  | creating =>
      have mine := mine (by simp [stands, Inside])
      simp only [stands] at stepped
      split at stepped
      · cases stepped
        exact tended.created stands mine
      · cases stepped
        exact tended.still (.inr mine) rfl (by simp [Inside]) trivial rfl rfl (by simp [stands, InHand])
  | created process =>
      have mine := mine (by simp [stands, Inside])
      rw [stands] at call
      simp only [stands] at stepped
      cases stepped
      exact tended.still (.inr mine) rfl (fun _ => mine) call rfl rfl (by simp [stands, InHand])
  | building process =>
      have mine := mine (by simp [stands, Inside])
      rw [stands] at call
      simp only [stands] at stepped
      cases stepped
      exact tended.still (.inr mine) rfl (fun _ => mine) call rfl rfl (by simp [stands, InHand])
  | rechecking process =>
      have mine := mine (by simp [stands, Inside])
      rw [stands] at call
      simp only [stands] at stepped
      split at stepped
      next shut =>
        cases stepped
        exact tended.still (.inr mine) rfl (fun _ => mine) ⟨call, by simpa using shut⟩ rfl rfl
          (by simp [stands, InHand])
      next accepting =>
        cases stepped
        exact tended.still (.inr mine) rfl (fun _ => mine) ⟨call, by simpa using accepting⟩ rfl rfl
          (by simp [stands, InHand])
  | killing process =>
      have mine := mine (by simp [stands, Inside])
      rw [stands] at call
      have alive : s.unreaped (ProcessEntry.process ⟨process, if posix then some process else none⟩) = true :=
        call.1.2.1
      simp only [stands, deliver, alive, if_true] at stepped
      cases stepped
      refine tended.still (.inr mine) rfl (fun _ => mine) ⟨call.1, call.2, ?_⟩ rfl rfl (by simp [stands, InHand])
      exact ⟨_, List.mem_append_right _ (List.mem_singleton.mpr rfl), rfl, rfl, rfl⟩
  | waiting process =>
      have mine := mine (by simp [stands, Inside])
      rw [stands] at call
      simp only [stands] at stepped
      split at stepped
      · cases stepped
        exact tended.reaped stands mine call
      · simp [undisturbed, stands] at clear
  | raising process =>
      have mine := mine (by simp [stands, Inside])
      simp only [stands] at stepped
      cases stepped
      exact tended.still (.inr mine) rfl (by simp [Inside]) trivial rfl rfl (by simp [stands, InHand])
  | inserting process =>
      have mine := mine (by simp [stands, Inside])
      rw [stands] at call
      simp only [stands] at stepped
      cases stepped
      exact tended.inserted stands mine call _
  | returning process =>
      have mine := mine (by simp [stands, Inside])
      simp only [stands] at stepped
      cases stepped
      exact tended.still (.inr mine) rfl (by simp [Inside]) trivial rfl rfl (by simp [stands, InHand])
  | finished outcome => simp [stands] at stepped

theorem Tended.step (tended : Tended s) {event : Event ι} (clear : s.undisturbed event = true)
    (stepped : s.step posix calls event = some t) : Tended t := by
  unfold ProcessRegistry.step at stepped
  cases event with
  | spawn i fate => exact tended.spawnStep clear stepped
  | signal process signum =>
      dsimp only at stepped
      split at stepped
      next free =>
        cases stepped
        have culled : Culled s.Registered s _ := signal_culled s process signum
        exact tended.unlocked free culled
      next => simp at stepped
  | killAndReap process exits =>
      dsimp only at stepped
      split at stepped
      next free =>
        cases stepped
        exact tended.unlocked free (killAndReap_culled s process exits)
      next => simp at stepped
  | cancelAll exits =>
      dsimp only at stepped
      split at stepped
      next free =>
        cases stepped
        exact tended.cancelAll (tended.notInserting free) exits
      next => simp at stepped
  | handler i exits =>
      dsimp only at stepped
      split at stepped
      next held =>
        cases stepped
        refine tended.cancelAll (fun j process stands => ?_) exits
        have same : i = j := Option.some.inj (held.symm.trans (tended.inside j (by simp [stands, Inside])))
        simp [undisturbed, same, stands] at clear
      next => simp at stepped
  | exit process =>
      cases stepped
      exact tended.exit process

theorem Tended.run (tended : Tended s) (run : Run posix calls undisturbed s t) : Tended t := by
  induction run with
  | refl => exact tended
  | tail _ step ih =>
      obtain ⟨event, stepped, clear⟩ := step
      exact ih.step clear stepped

/-! After a cancellation. -/

/-- A child that its call will kill and reap, or has. -/
def Doomed (s : ProcessRegistry ι) (i : ι) (process : Nat) : SpawnPhase → Prop
  | .created carried => carried = process
  | .building carried => carried = process
  | .rechecking carried => carried = process
  | .killing carried => carried = process
  | .waiting carried => carried = process
  | .raising carried => carried = process
  | .finished outcome => outcome = .error processRegistryClosed ∧ s.Sent (.spawn i) process .kill ∧
      s.unreaped process = false
  | _ => False

/-- What a step of `spawn` does once the registry is closed. -/
structure Proceeds (s t : ProcessRegistry ι) (i : ι) : Prop where
  accepting : t.accepting = s.accepting
  others : ∀ j, j ≠ i → t.spawns j = s.spawns j
  count : s.children.length ≤ t.children.length
  makers : ∀ process, process < s.children.length → t.maker process = s.maker process
  unreaped : ∀ process, process < s.children.length → t.unreaped process = true → s.unreaped process = true
  sent : ∀ delivery ∈ s.sent, delivery ∈ t.sent
  doomed : ∀ process, s.Doomed i process (s.spawns i) → t.Doomed i process (t.spawns i)
  fresh : ∀ process, s.children.length ≤ process → process < t.children.length →
    t.maker process = some i ∧ t.spawns i = .created process
  kept : ∀ process, t.spawns i ≠ .returning process
  handed : ∀ process, t.spawns i = .finished (.ok process) → s.spawns i = .returning process

theorem proceeds_still (accepting : t.accepting = s.accepting) (spawns : t.spawns = Function.update s.spawns i phase)
    (children : t.children = s.children) (sent : ∀ delivery ∈ s.sent, delivery ∈ t.sent)
    (doomed : ∀ process, s.Doomed i process (s.spawns i) → t.Doomed i process phase)
    (kept : ∀ process, phase ≠ .returning process)
    (handed : ∀ process, phase = .finished (.ok process) → s.spawns i = .returning process) : Proceeds s t i where
  accepting := accepting
  others j other := by simp [spawns, other]
  count := by rw [children]
  makers process _ := by simp [maker, children]
  unreaped process _ alive := by simpa [ProcessRegistry.unreaped, children] using alive
  sent := sent
  doomed process held := by simpa [spawns] using doomed process held
  fresh process beyond below := by
    rw [children] at below
    omega
  kept process := by simpa [spawns] using kept process
  handed process stands := handed process (by simpa [spawns] using stands)

theorem Tended.proceeds (tended : Tended s) (shut : s.accepting = false) (clear : s.undisturbed (.spawn i fate) = true)
    (stepped : s.spawnStep posix calls i fate = some t) : Proceeds s t i := by
  have call := tended.calls i
  unfold ProcessRegistry.spawnStep at stepped
  cases stands : s.spawns i with
  | outside =>
      simp only [stands] at stepped
      split at stepped
      · cases stepped
        exact proceeds_still rfl rfl rfl (fun _ held => held) (by simp [stands, Doomed]) (by simp) (by simp)
      · simp at stepped
  | checking =>
      simp only [stands, shut] at stepped
      cases stepped
      exact proceeds_still shut.symm rfl rfl (fun _ held => held) (by simp [stands, Doomed]) (by simp) (by simp)
  | creating =>
      simp only [stands] at stepped
      split at stepped
      · cases stepped
        refine ⟨rfl, fun j other => by simp [other], by simp, ?_, ?_, fun _ held => held, by simp [stands, Doomed],
          ?_, by simp, by simp⟩
        · intro process below
          simp [maker, List.getElem?_append_left below]
        · intro process below alive
          simpa [unreaped, List.getElem?_append_left below] using alive
        · intro process beyond below
          obtain rfl : process = s.children.length := by
            simp only [List.length_append, List.length_singleton] at below
            omega
          simp [maker]
      · cases stepped
        exact proceeds_still rfl rfl rfl (fun _ held => held) (by simp [stands, Doomed]) (by simp) (by simp)
  | created process =>
      simp only [stands] at stepped
      cases stepped
      exact proceeds_still rfl rfl rfl (fun _ held => held) (by simp [stands, Doomed]) (by simp) (by simp)
  | building process =>
      simp only [stands] at stepped
      cases stepped
      exact proceeds_still rfl rfl rfl (fun _ held => held) (by simp [stands, Doomed]) (by simp) (by simp)
  | rechecking process =>
      simp only [stands, shut] at stepped
      cases stepped
      exact proceeds_still shut.symm rfl rfl (fun _ held => held) (by simp [stands, Doomed]) (by simp) (by simp)
  | killing process =>
      have culled : Culled (fun _ => True) s _ :=
        deliver_culled (.spawn i) .kill s ⟨process, if posix then some process else none⟩
      simp only [stands] at stepped
      cases stepped
      have spawns := congrArg (Function.update · i (.waiting process)) culled.spawns
      exact proceeds_still culled.accepting spawns children_deliver culled.sent (by simp [stands, Doomed]) (by simp)
        (by simp)
  | waiting process =>
      simp only [stands] at stepped
      split at stepped
      · cases stepped
        refine ⟨rfl, fun j other => by simp [reap, other], by simp [reap], fun other _ => maker_reap process,
          fun other _ alive => ((unreaped_reap process).mp alive).2, fun _ held => held, by simp [stands, Doomed],
          ?_, by simp, by simp⟩
        intro other beyond below
        simp only [reap, List.length_modify] at below
        omega
      · simp [undisturbed, stands] at clear
  | raising process =>
      rw [stands] at call
      simp only [stands] at stepped
      cases stepped
      refine proceeds_still rfl rfl rfl (fun _ held => held) ?_ (by simp) (by simp)
      intro other doomed
      rw [stands] at doomed
      obtain rfl : process = other := doomed
      exact ⟨rfl, call.2.2.2, call.2.1⟩
  | inserting process =>
      rw [stands] at call
      simp [shut, CallOk] at call
  | returning process =>
      simp only [stands] at stepped
      cases stepped
      exact proceeds_still rfl rfl rfl (fun _ held => held) (by simp [stands, Doomed]) (by simp) (by simp [stands])
  | finished outcome => simp [stands] at stepped

end Spawning

/-- The child is killed by the call of `cancel_all`, or its own call has it in hand and will
kill and reap it. -/
def Fated (call : Nat) (u : ProcessRegistry ι) (process : Nat) : Prop :=
  u.Sent (.cancelAll call) process .kill ∨ ∃ i, u.maker process = some i ∧ u.Doomed i process (u.spawns i)

/-- What holds from the cancellation of `s` on. -/
structure Cancelled (s u : ProcessRegistry ι) : Prop where
  tended : Tended u
  shut : u.accepting = false
  fated : ∀ process, s.unreaped process = true ∨ s.children.length ≤ process → process < u.children.length →
    u.Fated s.cancels process
  returning : ∀ i process, u.spawns i = .returning process → ∃ sender, u.Sent sender process .kill
  handed : ∀ i process, u.spawns i = .finished (.ok process) →
    s.spawns i = .finished (.ok process) ∨ ∃ sender, u.Sent sender process .kill

theorem lt_length_of_maker {i : ι} (made : s.maker process = some i) : process < s.children.length := by
  by_contra beyond
  simp [maker, List.getElem?_eq_none (Nat.le_of_not_lt beyond)] at made

theorem lt_length_of_unreaped (alive : s.unreaped process = true) : process < s.children.length := by
  by_contra beyond
  simp [unreaped, List.getElem?_eq_none (Nat.le_of_not_lt beyond)] at alive

theorem CallOk.made {i : ι} {phase : SpawnPhase} (call : s.CallOk i phase) (inHand : InHand phase process) :
    s.maker process = some i := by
  cases phase with
  | created carried => exact (show carried = process from inHand) ▸ call.1
  | building carried => exact (show carried = process from inHand) ▸ call.1
  | rechecking carried => exact (show carried = process from inHand) ▸ call.1
  | killing carried => exact (show carried = process from inHand) ▸ call.1.1
  | waiting carried => exact (show carried = process from inHand) ▸ call.1.1
  | inserting carried => exact (show carried = process from inHand) ▸ call.1.1
  | _ => exact inHand.elim

theorem InHand.doomed {i : ι} {phase : SpawnPhase} (inHand : InHand phase process)
    (clear : ∀ carried, phase ≠ .inserting carried) : s.Doomed i process phase := by
  cases phase with
  | inserting carried => exact absurd rfl (clear carried)
  | _ => first | exact inHand | exact inHand.elim

theorem Tended.cancelled (tended : Tended s) (clear : ∀ i process, s.spawns i ≠ .inserting process)
    (exits : Nat → Bool) : Cancelled s (s.cancelAll exits) := by
  have culled := cancelAll_culled exits s
  have spawns : (s.cancelAll exits).spawns = s.spawns := culled.spawns
  refine ⟨tended.cancelAll clear exits, culled.accepting, ?_, ?_, fun i process stands => .inl (spawns ▸ stands)⟩
  · intro process old below
    have alive : s.unreaped process = true := by
      rcases old with alive | beyond
      · exact alive
      · exact absurd (culled.count ▸ below : process < s.children.length) (Nat.not_lt.mpr beyond)
    rcases tended.watched process alive with registered | ⟨i, inHand⟩
    · exact .inl (cancelAll_kills exits registered alive)
    · refine .inr ⟨i, (culled.makers process).trans ((tended.calls i).made inHand), ?_⟩
      rw [spawns]
      exact inHand.doomed fun carried => clear i carried
  · intro i process stands
    have call := tended.calls i
    rw [spawns] at stands
    rw [stands] at call
    rcases call.2 with ⟨registered, alive⟩ | ⟨earlier, sent⟩
    · exact ⟨_, cancelAll_kills exits registered alive⟩
    · exact ⟨_, culled.sent_kept sent⟩

variable {v : ProcessRegistry ι}

theorem Doomed.onward {i : ι} {phase : SpawnPhase} (doomed : u.Doomed i process phase)
    (sent : ∀ delivery ∈ u.sent, delivery ∈ v.sent)
    (unreaped : v.unreaped process = true → u.unreaped process = true) : v.Doomed i process phase := by
  cases phase with
  | finished outcome =>
      obtain ⟨raised, ⟨delivery, held, rest⟩, reaped⟩ := doomed
      refine ⟨raised, ⟨delivery, sent delivery held, rest⟩, Bool.eq_false_iff.mpr fun alive => ?_⟩
      simp [unreaped alive] at reaped
  | _ => exact doomed

/-- Nothing but a step of `spawn` moves a call. -/
theorem Cancelled.culled (cancelled : Cancelled s u) (tended : Tended v) (culled : Culled touched u v) :
    Cancelled s v where
  tended := tended
  shut := culled.accepting.trans cancelled.shut
  fated process old below := by
    rcases cancelled.fated process old (culled.count ▸ below) with sent | ⟨i, made, doomed⟩
    · exact .inl (culled.sent_kept sent)
    · refine .inr ⟨i, (culled.makers process).trans made, ?_⟩
      rw [culled.spawns]
      exact doomed.onward culled.sent (culled.unreaped process)
  returning i process stands := by
    obtain ⟨sender, sent⟩ := cancelled.returning i process (culled.spawns ▸ stands)
    exact ⟨sender, culled.sent_kept sent⟩
  handed i process stands := by
    rcases cancelled.handed i process (culled.spawns ▸ stands) with before | ⟨sender, sent⟩
    · exact .inl before
    · exact .inr ⟨sender, culled.sent_kept sent⟩

theorem Cancelled.notInserting (cancelled : Cancelled s u) (i : ι) (process : Nat) :
    u.spawns i ≠ .inserting process := by
  intro stands
  have call := cancelled.tended.calls i
  rw [stands] at call
  simpa [cancelled.shut] using call.2

theorem Cancelled.again (cancelled : Cancelled s u) (exits : Nat → Bool) : Cancelled s (u.cancelAll exits) := by
  have closed : Cancelled s { u with accepting := false, cancels := u.cancels + 1 } :=
    ⟨cancelled.tended.closed cancelled.notInserting _, rfl, cancelled.fated, cancelled.returning, cancelled.handed⟩
  exact closed.culled (cancelled.tended.cancelAll cancelled.notInserting exits) (cancelAll_culled exits u)

/-- The call of `spawn` that made the child has killed and reaped it and raised
ProcessRegistryClosed, unless it is still inside. -/
def KilledInSpawn (s : ProcessRegistry ι) (process : Nat) : Prop :=
  ∃ i, s.maker process = some i ∧ ∀ outcome, s.spawns i = .finished outcome →
    outcome = .error processRegistryClosed ∧ s.Sent (.spawn i) process .kill ∧ s.unreaped process = false

theorem Fated.killed {call : Nat} (fated : u.Fated call process) :
    u.Sent (.cancelAll call) process .kill ∨ u.KilledInSpawn process := by
  rcases fated with sent | ⟨i, made, doomed⟩
  · exact .inl sent
  · refine .inr ⟨i, made, fun outcome stands => ?_⟩
    rw [stands] at doomed
    exact doomed

section Runs

variable [DecidableEq ι] {posix : Bool} {calls : ι → SpawnCall}

theorem Cancelled.proceeds (cancelled : Cancelled s u) {i : ι} (tended : Tended v) (proceeds : Proceeds u v i) :
    Cancelled s v := by
  have kept : ∀ {sender process signum}, u.Sent sender process signum → v.Sent sender process signum :=
    fun ⟨delivery, held, rest⟩ => ⟨delivery, proceeds.sent delivery held, rest⟩
  refine ⟨tended, proceeds.accepting.trans cancelled.shut, ?_, ?_, ?_⟩
  · intro process old below
    by_cases known : process < u.children.length
    · rcases cancelled.fated process old known with sent | ⟨j, made, doomed⟩
      · exact .inl (kept sent)
      · refine .inr ⟨j, (proceeds.makers process known).trans made, ?_⟩
        by_cases same : j = i
        · subst same
          exact proceeds.doomed process doomed
        · rw [proceeds.others j same]
          exact doomed.onward proceeds.sent (proceeds.unreaped process known)
    · obtain ⟨made, stands⟩ := proceeds.fresh process (Nat.le_of_not_lt known) below
      exact .inr ⟨i, made, by rw [stands]; exact rfl⟩
  · intro j process stands
    by_cases same : j = i
    · exact absurd (same ▸ stands) (proceeds.kept process)
    · obtain ⟨sender, sent⟩ := cancelled.returning j process (proceeds.others j same ▸ stands)
      exact ⟨sender, kept sent⟩
  · intro j process stands
    by_cases same : j = i
    · subst same
      obtain ⟨sender, sent⟩ := cancelled.returning j process (proceeds.handed process stands)
      exact .inr ⟨sender, kept sent⟩
    · rcases cancelled.handed j process (proceeds.others j same ▸ stands) with before | ⟨sender, sent⟩
      · exact .inl before
      · exact .inr ⟨sender, kept sent⟩

theorem Cancelled.step (cancelled : Cancelled s u) {event : Event ι} (clear : u.undisturbed event = true)
    (stepped : u.step posix calls event = some v) : Cancelled s v := by
  have tended := cancelled.tended.step clear stepped
  unfold ProcessRegistry.step at stepped
  cases event with
  | spawn i fate => exact cancelled.proceeds tended (cancelled.tended.proceeds cancelled.shut clear stepped)
  | signal process signum =>
      dsimp only at stepped
      split at stepped
      · cases stepped
        have culled : Culled u.Registered u _ := signal_culled u process signum
        exact cancelled.culled tended culled
      · simp at stepped
  | killAndReap process exits =>
      dsimp only at stepped
      split at stepped
      · cases stepped
        exact cancelled.culled tended (killAndReap_culled u process exits)
      · simp at stepped
  | cancelAll exits =>
      dsimp only at stepped
      split at stepped
      · cases stepped
        exact cancelled.again exits
      · simp at stepped
  | handler i exits =>
      dsimp only at stepped
      split at stepped
      · cases stepped
        exact cancelled.again exits
      · simp at stepped
  | exit process =>
      cases stepped
      exact cancelled.culled tended (exit_culled u process)

theorem Cancelled.run (cancelled : Cancelled s u) (run : Run posix calls undisturbed u v) : Cancelled s v := by
  induction run with
  | refl => exact cancelled
  | tail _ step ih =>
      obtain ⟨event, stepped, clear⟩ := step
      exact ih.step clear stepped

/-- One of the events in which `cancel_all` runs. -/
def Cancels : Event ι → Prop
  | .cancelAll _ => True
  | .handler _ _ => True
  | _ => False

theorem Tended.cancelled_by (tended : Tended s) {event : Event ι} (cancels : Cancels event)
    (clear : s.undisturbed event = true) (stepped : s.step posix calls event = some t) : Cancelled s t := by
  unfold ProcessRegistry.step at stepped
  cases event with
  | cancelAll exits =>
      dsimp only at stepped
      split at stepped
      next free =>
        cases stepped
        exact tended.cancelled (tended.notInserting free) exits
      next => simp at stepped
  | handler i exits =>
      dsimp only at stepped
      split at stepped
      next held =>
        cases stepped
        refine tended.cancelled (fun j process stands => ?_) exits
        have same : i = j := Option.some.inj (held.symm.trans (tended.inside j (by simp [stands, Inside])))
        simp [undisturbed, same, stands] at clear
      next => simp at stepped
  | _ => exact cancels.elim

/-- Nothing escapes the cancellation of `s`, as `u` sees it later. -/
def NothingEscapes (s u : ProcessRegistry ι) : Prop :=
  (∀ process, s.unreaped process = true ∨ s.children.length ≤ process → process < u.children.length →
    u.Sent (.cancelAll s.cancels) process .kill ∨ u.KilledInSpawn process) ∧
  ∀ i process, u.spawns i = .finished (.ok process) → s.spawns i ≠ .finished (.ok process) →
    ∃ sender signum, u.Sent sender process signum

end Runs

/-! Two runs of one call: a handler inside `Popen`, and one after the second look. -/

def plainCalls : Nat → SpawnCall := fun _ => ⟨false⟩

/-- So many steps of the call `0`. -/
def goesOn (steps : Nat) : List (Event Nat) := List.replicate steps (.spawn 0 .goesWell)

/-- A handler of the thread of the call `0`. -/
def strikes : Event Nat := .handler 0 fun _ => false

def stateAfter (events : List (Event Nat)) : ProcessRegistry Nat :=
  (new.play true plainCalls (fun _ _ => true) events).getD new

end AgentTree.ProcessRegistry
