import AgentTree.Census
import AgentTree.StoreSchema
import Mathlib.Data.Rat.Init
import Mathlib.Logic.Relation

/-!
The admission gate of the HTTP server and its drain.  The atomic steps are the sections
under `_lifecycle` and the operations of the two semaphores.
-/

namespace AgentTree

open Concurrent

/-- `threading.BoundedSemaphore`. -/
structure BoundedSemaphore where
  initial : Nat
  value : Nat
  bounded : value ≤ initial

namespace BoundedSemaphore

def full (permits : Nat) : BoundedSemaphore := ⟨permits, permits, Nat.le_refl permits⟩

/-- `acquire(blocking=False)`. -/
def acquire (semaphore : BoundedSemaphore) : Option BoundedSemaphore :=
  if 0 < semaphore.value then
    some ⟨semaphore.initial, semaphore.value - 1, by have := semaphore.bounded; omega⟩
  else none

def release (semaphore : BoundedSemaphore) : Except PyError BoundedSemaphore :=
  if room : semaphore.value < semaphore.initial then
    .ok ⟨semaphore.initial, semaphore.value + 1, room⟩
  else .error (.valueError "Semaphore released too many times")

/-- How many permits are taken. -/
def taken (semaphore : BoundedSemaphore) : Nat := semaphore.initial - semaphore.value

theorem taken_acquire {semaphore after : BoundedSemaphore} (acquired : semaphore.acquire = some after) :
    after.taken = semaphore.taken + 1 := by
  have bound := semaphore.bounded
  unfold acquire at acquired
  split at acquired
  next free =>
    obtain rfl := Option.some.inj acquired
    simp only [taken]
    omega
  next => simp at acquired

theorem release_taken {semaphore : BoundedSemaphore} {others : Nat} (held : semaphore.taken = others + 1) :
    ∃ after, semaphore.release = .ok after ∧ after.taken = others := by
  unfold taken at held
  have room : semaphore.value < semaphore.initial := by omega
  refine ⟨_, dif_pos room, ?_⟩
  simp only [taken]
  omega

theorem initial_acquire {semaphore after : BoundedSemaphore} (acquired : semaphore.acquire = some after) :
    after.initial = semaphore.initial := by
  unfold acquire at acquired
  split at acquired
  next => exact (Option.some.inj acquired) ▸ rfl
  next => simp at acquired

theorem initial_release {semaphore after : BoundedSemaphore} (released : semaphore.release = .ok after) :
    after.initial = semaphore.initial := by
  unfold release at released
  split at released
  next => exact (Except.ok.inj released) ▸ rfl
  next => simp at released

theorem full_of_none_taken {semaphore : BoundedSemaphore} (none : semaphore.taken = 0) :
    semaphore.value = semaphore.initial := by
  have bound := semaphore.bounded
  unfold taken at none
  omega

end BoundedSemaphore

structure HTTPServer where
  workSemaphore : BoundedSemaphore
  operationalSemaphore : BoundedSemaphore
  draining : Bool
  activeWorkRequests : Int

namespace HTTPServer

def new (maxWorkers maxOperationalWorkers : Nat) : HTTPServer :=
  ⟨.full maxWorkers, .full maxOperationalWorkers, false, 0⟩

def semaphore (server : HTTPServer) (operational : Bool) : BoundedSemaphore :=
  if operational then server.operationalSemaphore else server.workSemaphore

def setSemaphore (server : HTTPServer) (operational : Bool) (semaphore : BoundedSemaphore) : HTTPServer :=
  if operational then { server with operationalSemaphore := semaphore }
  else { server with workSemaphore := semaphore }

/-! `admit_request`, section by section. -/

/-- The first look at the drain gate. -/
def gateCheck (server : HTTPServer) (operational : Bool) : Option String :=
  if server.draining && !operational then some "draining" else none

def overloaded (operational : Bool) : String :=
  if operational then "operational_overloaded" else "overloaded"

def acquirePermit (server : HTTPServer) (operational : Bool) : Except String HTTPServer :=
  match (server.semaphore operational).acquire with
  | some semaphore => .ok (server.setSemaphore operational semaphore)
  | none => .error (overloaded operational)

/-- The second look at the drain gate, now with a permit. -/
def enter (server : HTTPServer) (operational : Bool) : Except PyError (Option String × HTTPServer) :=
  if server.draining && !operational then do
    let semaphore ← (server.semaphore operational).release
    return (some "draining", server.setSemaphore operational semaphore)
  else if !operational then
    .ok (none, { server with activeWorkRequests := server.activeWorkRequests + 1 })
  else .ok (none, server)

/-! `release_admission`, section by section. -/

def returnPermit (server : HTTPServer) (operational : Bool) : Except PyError HTTPServer := do
  let semaphore ← (server.semaphore operational).release
  return server.setSemaphore operational semaphore

/-- The count stays lowered when the section raises. -/
def leave (server : HTTPServer) : Option PyError × HTTPServer :=
  let lowered := { server with activeWorkRequests := server.activeWorkRequests - 1 }
  if lowered.activeWorkRequests < 0 then
    (some (.other "RuntimeError" "HTTP active work request count underflow"), lowered)
  else (none, lowered)

/-- `begin_draining`; the control plane, where it has such a method, is told first and may raise. -/
def beginDraining (control : Option (Except PyError Unit)) (server : HTTPServer) :
    Except PyError Bool × HTTPServer :=
  if server.draining then (.ok false, server)
  else match control with
    | some (.error error) => (.error error, server)
    | _ => (.ok true, { server with draining := true })

/-- The predicate of `wait_for_drain`. -/
def idle (server : HTTPServer) : Bool := server.activeWorkRequests = 0

end HTTPServer

/-! Request threads, drain calls and every order of their sections. -/

def operationalRoutes : List String := ["/healthz", "/readyz", "/metrics"]

/-- What `_dispatch` reads of a request before it is admitted. -/
structure Incoming where
  method : String
  route : String

def Incoming.operational (incoming : Incoming) : Bool :=
  incoming.method = "GET" && operationalRoutes.contains incoming.route

/-- Where a request thread stands, by the section it has behind it. -/
inductive RequestPhase : Type
  | arriving
  | gated
  | permitted
  | admitted
  | returning
  | released
  | rejected (code : String)
  | raised (error : PyError)

/-- A `wait_for_drain` call. -/
inductive DrainCall : Type
  | idle
  | waiting
  | returned (drained : Bool)
  | raised (error : PyError)

structure HTTPState (ι ω : Type) where
  server : HTTPServer
  requests : ι → RequestPhase
  drains : ω → DrainCall

namespace HTTPState

variable {ι ω : Type}

def start (maxWorkers maxOperationalWorkers : Nat) : HTTPState ι ω :=
  ⟨.new maxWorkers maxOperationalWorkers, fun _ => .arriving, fun _ => .idle⟩

section Semantics

variable [DecidableEq ι] [DecidableEq ω] (incoming : ι → Incoming)

/-- The request thread `i` runs its next section. -/
def advance (state : HTTPState ι ω) (i : ι) : HTTPState ι ω :=
  let operational := (incoming i).operational
  let go (server : HTTPServer) (phase : RequestPhase) : HTTPState ι ω :=
    { state with server, requests := Function.update state.requests i phase }
  match state.requests i with
  | .arriving => match state.server.gateCheck operational with
      | some code => go state.server (.rejected code)
      | none => go state.server .gated
  | .gated => match state.server.acquirePermit operational with
      | .ok server => go server .permitted
      | .error code => go state.server (.rejected code)
  | .permitted => match state.server.enter operational with
      | .ok (none, server) => go server .admitted
      | .ok (some code, server) => go server (.rejected code)
      | .error error => go state.server (.raised error)
  | .admitted => match state.server.returnPermit operational with
      | .ok server => go server (if operational then .released else .returning)
      | .error error => go state.server (.raised error)
  | .returning => match state.server.leave with
      | (none, server) => go server .released
      | (some error, server) => go server (.raised error)
  | .released => state
  | .rejected _ => state
  | .raised _ => state

/-- `wait_for_drain(timeout=...)` looks at the count for the first time. -/
def callDrain (state : HTTPState ι ω) (w : ω) (timeout : ℚ) : HTTPState ι ω :=
  let call : DrainCall :=
    if timeout < 0 then .raised (.valueError "drain timeout must be nonnegative")
    else if state.server.idle then .returned true
    else .waiting
  { state with drains := Function.update state.drains w call }

/-- A waiting call wakes, looks again, and gives up if its time is over. -/
def wakeDrain (state : HTTPState ι ω) (w : ω) (expired : Bool) : HTTPState ι ω :=
  let call : DrainCall :=
    if state.server.idle then .returned true
    else if expired then .returned false
    else .waiting
  { state with drains := Function.update state.drains w call }

inductive Step : HTTPState ι ω → HTTPState ι ω → Prop
  | request {state} (i : ι) : Step state (state.advance incoming i)
  | beginDraining {state} (control : Option (Except PyError Unit)) :
      Step state { state with server := (state.server.beginDraining control).2 }
  | callDrain {state} (w : ω) (timeout : ℚ) : state.drains w = .idle → Step state (state.callDrain w timeout)
  | wakeDrain {state} (w : ω) (expired : Bool) : state.drains w = .waiting →
      Step state (state.wakeDrain w expired)

def Run : HTTPState ι ω → HTTPState ι ω → Prop := Relation.ReflTransGen (Step incoming)

end Semantics

end HTTPState

/-! What each section does to the semaphores and the count. -/

namespace HTTPServer

variable {server after : HTTPServer} {operational : Bool}

@[simp] theorem semaphore_setSemaphore (other : Bool) (semaphore : BoundedSemaphore) :
    (server.setSemaphore operational semaphore).semaphore other =
      if other = operational then semaphore else server.semaphore other := by
  cases operational <;> cases other <;> rfl

@[simp] theorem activeWorkRequests_setSemaphore (semaphore : BoundedSemaphore) :
    (server.setSemaphore operational semaphore).activeWorkRequests = server.activeWorkRequests := by
  cases operational <;> rfl

@[simp] theorem draining_setSemaphore (semaphore : BoundedSemaphore) :
    (server.setSemaphore operational semaphore).draining = server.draining := by
  cases operational <;> rfl

theorem acquirePermit_ok (acquired : server.acquirePermit operational = .ok after) :
    ∃ semaphore, (server.semaphore operational).acquire = some semaphore ∧
      after = server.setSemaphore operational semaphore := by
  unfold acquirePermit at acquired
  split at acquired
  next semaphore free => exact ⟨semaphore, free, by simpa using acquired.symm⟩
  next => simp at acquired

theorem returnPermit_held {others : Nat} (held : (server.semaphore operational).taken = others + 1) :
    ∃ semaphore, server.returnPermit operational = .ok (server.setSemaphore operational semaphore) ∧
      semaphore.initial = (server.semaphore operational).initial ∧ semaphore.taken = others := by
  obtain ⟨semaphore, released, taken⟩ := BoundedSemaphore.release_taken held
  refine ⟨semaphore, by simp [returnPermit, released, bind, Except.bind, pure, Except.pure], ?_, taken⟩
  exact BoundedSemaphore.initial_release released

/-- With a permit in hand the second look cannot fail. -/
theorem enter_held {others : Nat} (held : (server.semaphore operational).taken = others + 1) :
    (server.draining = true ∧ operational = false ∧ ∃ semaphore,
      server.enter operational = .ok (some "draining", server.setSemaphore operational semaphore) ∧
      semaphore.initial = (server.semaphore operational).initial ∧ semaphore.taken = others) ∨
    (server.draining = false ∧ operational = false ∧ server.enter operational =
      .ok (none, { server with activeWorkRequests := server.activeWorkRequests + 1 })) ∨
    (operational = true ∧ server.enter operational = .ok (none, server)) := by
  obtain ⟨semaphore, released, taken⟩ := BoundedSemaphore.release_taken held
  cases operational with
  | true => exact .inr (.inr ⟨rfl, by simp [enter]⟩)
  | false =>
      cases draining : server.draining with
      | true =>
          refine .inl ⟨rfl, rfl, semaphore, ?_, BoundedSemaphore.initial_release released, taken⟩
          simp [enter, draining, released, bind, Except.bind, pure, Except.pure]
      | false => exact .inr (.inl ⟨rfl, rfl, by simp [enter, draining]⟩)

theorem enter_draining {code : Option String} (entered : server.enter operational = .ok (code, after)) :
    after.draining = server.draining := by
  unfold enter at entered
  split at entered
  · cases released : (server.semaphore operational).release with
    | ok semaphore =>
        simp only [released, bind, Except.bind, pure, Except.pure, Except.ok.injEq, Prod.mk.injEq] at entered
        rw [← entered.2, draining_setSemaphore]
    | error error => simp [released, bind, Except.bind] at entered
  · split at entered
    all_goals
      simp only [Except.ok.injEq, Prod.mk.injEq] at entered
      rw [← entered.2]

theorem returnPermit_draining (returned : server.returnPermit operational = .ok after) :
    after.draining = server.draining := by
  unfold returnPermit at returned
  cases released : (server.semaphore operational).release with
  | ok semaphore =>
      simp only [released, bind, Except.bind, pure, Except.pure, Except.ok.injEq] at returned
      rw [← returned, draining_setSemaphore]
  | error error => simp [released, bind, Except.bind] at returned

theorem leave_draining : server.leave.2.draining = server.draining := by
  unfold leave
  dsimp only
  split <;> rfl

end HTTPServer

/-! The permits and the count agree with the threads, in every order of the sections. -/

namespace HTTPState

variable {ι ω : Type} (incoming : ι → Incoming)

/-- The thread has a permit of the semaphore for operational requests, or of the one for work. -/
def Holds (operational : Bool) (i : ι) (phase : RequestPhase) : Prop :=
  (incoming i).operational = operational ∧ (phase = .permitted ∨ phase = .admitted)

/-- The thread is an admitted work request that has not been released to its end. -/
def Unreleased (i : ι) (phase : RequestPhase) : Prop :=
  (incoming i).operational = false ∧ (phase = .admitted ∨ phase = .returning)

structure Balanced (permits : Bool → Nat) (state : HTTPState ι ω) : Prop where
  initial : ∀ operational, (state.server.semaphore operational).initial = permits operational
  held : ∀ operational,
    Numbers state.requests (Holds incoming operational) (state.server.semaphore operational).taken
  active : ∃ count : Nat, state.server.activeWorkRequests = count ∧
    Numbers state.requests (Unreleased incoming) count
  returning : ∀ i, state.requests i = .returning → (incoming i).operational = false
  calm : ∀ i error, state.requests i ≠ .raised error

variable {incoming} {permits : Bool → Nat} {state after : HTTPState ι ω}

theorem balanced_start (maxWorkers maxOperationalWorkers : Nat) :
    (start maxWorkers maxOperationalWorkers : HTTPState ι ω).Balanced incoming
      fun operational => if operational then maxOperationalWorkers else maxWorkers where
  initial operational := by cases operational <;> rfl
  held operational := by
    have nobody : ∀ i : ι, ¬ Holds incoming operational i .arriving := by simp [Holds]
    have none : ((HTTPServer.new maxWorkers maxOperationalWorkers).semaphore operational).taken = 0 := by
      cases operational <;> simp [HTTPServer.new, HTTPServer.semaphore, BoundedSemaphore.full,
        BoundedSemaphore.taken]
    simpa only [start, none] using numbers_zero nobody
  active := ⟨0, rfl, numbers_zero fun i => by simp [start, Unreleased]⟩
  returning i stands := by simp [start] at stands
  calm i error := by simp [start]

theorem initial_set {server : HTTPServer} {semaphore : BoundedSemaphore} {mine : Bool}
    (kept : semaphore.initial = (server.semaphore mine).initial) (operational : Bool) :
    ((server.setSemaphore mine semaphore).semaphore operational).initial =
      (server.semaphore operational).initial := by
  rw [HTTPServer.semaphore_setSemaphore]
  split
  next same => rw [same, kept]
  next => rfl

theorem Balanced.holding {i : ι} (balanced : state.Balanced incoming permits)
    (here : Holds incoming (incoming i).operational i (state.requests i)) :
    ∃ others, (state.server.semaphore (incoming i).operational).taken = others + 1 := by
  have positive := (balanced.held (incoming i).operational).pos here
  exact ⟨_, (Nat.succ_pred_eq_of_pos positive).symm⟩

theorem Balanced.idle (balanced : state.Balanced incoming permits) (idle : state.server.idle = true) (i : ι) :
    ¬ Unreleased incoming i (state.requests i) := by
  obtain ⟨count, counted, numbers⟩ := balanced.active
  have none : count = 0 := by
    simp only [HTTPServer.idle, decide_eq_true_eq] at idle
    omega
  subst none
  exact numbers.absent i

/-- The thread is inside `admit_request`, admitted, or inside `release_admission`. -/
def InFlight (state : HTTPState ι ω) (i : ι) : Prop :=
  state.requests i = .gated ∨ state.requests i = .permitted ∨ state.requests i = .admitted ∨
    state.requests i = .returning

theorem Balanced.quiet (balanced : state.Balanced incoming permits) (quiet : ∀ i, ¬ state.InFlight i)
    (operational : Bool) : (state.server.semaphore operational).value = permits operational := by
  have none : (state.server.semaphore operational).taken = 0 := by
    refine (balanced.held operational).eq_zero fun i holds => quiet i ?_
    rcases holds.2 with stands | stands
    · exact .inr (.inl stands)
    · exact .inr (.inr (.inl stands))
  rw [BoundedSemaphore.full_of_none_taken none, balanced.initial]

section Moves

variable [DecidableEq ι] {i : ι} {phase : RequestPhase} {server : HTTPServer}

/-- A thread goes on, and the server pays for the permit and the count that it gains or loses. -/
theorem Balanced.move (balanced : state.Balanced incoming permits)
    (initial : ∀ operational,
      (server.semaphore operational).initial = (state.server.semaphore operational).initial)
    (held : ∀ operational, Numbers (Function.update state.requests i phase) (Holds incoming operational)
      (server.semaphore operational).taken)
    (active : ∃ count : Nat, server.activeWorkRequests = count ∧
      Numbers (Function.update state.requests i phase) (Unreleased incoming) count)
    (returning : phase = .returning → (incoming i).operational = false)
    (calm : ∀ error, phase ≠ .raised error) :
    ({ state with server, requests := Function.update state.requests i phase } :
      HTTPState ι ω).Balanced incoming permits where
  initial operational := (initial operational).trans (balanced.initial operational)
  held := held
  active := active
  returning j stands := by
    by_cases same : j = i
    · subst same
      exact returning (by simpa using stands)
    · exact balanced.returning j (by simpa [same] using stands)
  calm j error := by
    by_cases same : j = i
    · subst same
      simpa using calm error
    · simpa [same] using balanced.calm j error

theorem Balanced.held_same (balanced : state.Balanced incoming permits)
    (semaphores : ∀ operational, server.semaphore operational = state.server.semaphore operational)
    (same : ∀ operational, Holds incoming operational i (state.requests i) ↔ Holds incoming operational i phase) :
    ∀ operational, Numbers (Function.update state.requests i phase) (Holds incoming operational)
      (server.semaphore operational).taken := by
  intro operational
  rw [semaphores]
  exact (balanced.held operational).stays (same operational)

theorem Balanced.active_same (balanced : state.Balanced incoming permits)
    (counts : server.activeWorkRequests = state.server.activeWorkRequests)
    (same : Unreleased incoming i (state.requests i) ↔ Unreleased incoming i phase) :
    ∃ count : Nat, server.activeWorkRequests = count ∧
      Numbers (Function.update state.requests i phase) (Unreleased incoming) count := by
  obtain ⟨count, counted, numbers⟩ := balanced.active
  exact ⟨count, counts.trans counted, numbers.stays same⟩

/-- The thread hands its permit back. -/
theorem Balanced.held_back (balanced : state.Balanced incoming permits) {semaphore : BoundedSemaphore}
    {others : Nat} (before : (state.server.semaphore (incoming i).operational).taken = others + 1)
    (taken : semaphore.taken = others)
    (here : Holds incoming (incoming i).operational i (state.requests i))
    (gone : ¬ Holds incoming (incoming i).operational i phase) :
    ∀ operational, Numbers (Function.update state.requests i phase) (Holds incoming operational)
      ((state.server.setSemaphore (incoming i).operational semaphore).semaphore operational).taken := by
  intro operational
  rw [HTTPServer.semaphore_setSemaphore]
  by_cases mine : operational = (incoming i).operational
  · subst mine
    obtain ⟨rest, total, numbers⟩ := (balanced.held _).leaves here gone
    obtain rfl : rest = others := by omega
    simpa [taken] using numbers
  · rw [if_neg mine]
    exact (balanced.held operational).stays (by simp [Holds, Ne.symm mine])

theorem Balanced.advance (balanced : state.Balanced incoming permits) (i : ι) :
    (state.advance incoming i).Balanced incoming permits := by
  unfold HTTPState.advance
  cases stands : state.requests i with
  | arriving =>
      dsimp only
      split
      next code =>
        exact balanced.move (fun _ => rfl) (balanced.held_same (fun _ => rfl) (by simp [Holds, stands]))
          (balanced.active_same rfl (by simp [Unreleased, stands])) (by simp) (by simp)
      next =>
        exact balanced.move (fun _ => rfl) (balanced.held_same (fun _ => rfl) (by simp [Holds, stands]))
          (balanced.active_same rfl (by simp [Unreleased, stands])) (by simp) (by simp)
  | gated =>
      dsimp only
      split
      next server acquired =>
        obtain ⟨semaphore, free, rfl⟩ := HTTPServer.acquirePermit_ok acquired
        refine balanced.move (initial_set (BoundedSemaphore.initial_acquire free)) ?_
          (balanced.active_same (by simp) (by simp [Unreleased, stands])) (by simp) (by simp)
        intro operational
        rw [HTTPServer.semaphore_setSemaphore]
        by_cases mine : operational = (incoming i).operational
        · rw [if_pos mine, BoundedSemaphore.taken_acquire free, ← mine]
          exact (balanced.held operational).arrives (by simp [Holds, stands]) (by simp [Holds, mine])
        · rw [if_neg mine]
          exact (balanced.held operational).stays (by simp [Holds, Ne.symm mine])
      next code =>
        exact balanced.move (fun _ => rfl) (balanced.held_same (fun _ => rfl) (by simp [Holds, stands]))
          (balanced.active_same rfl (by simp [Unreleased, stands])) (by simp) (by simp)
  | permitted =>
      have here : Holds incoming (incoming i).operational i (state.requests i) := ⟨rfl, .inl stands⟩
      obtain ⟨others, before⟩ := balanced.holding here
      rcases HTTPServer.enter_held before with ⟨_, _, semaphore, entered, kept, taken⟩ | ⟨_, work, entered⟩ |
        ⟨operational, entered⟩
      · simp only [entered]
        exact balanced.move (initial_set kept) (balanced.held_back before taken here (by simp [Holds]))
          (balanced.active_same (by simp) (by simp [Unreleased, stands])) (by simp) (by simp)
      · simp only [entered]
        refine balanced.move (fun _ => rfl) (balanced.held_same (fun _ => rfl) (by simp [Holds, stands]))
          ?_ (by simp) (by simp)
        obtain ⟨count, counted, numbers⟩ := balanced.active
        refine ⟨count + 1, by simp [counted], ?_⟩
        exact numbers.arrives (by simp [Unreleased, stands]) ⟨work, .inl rfl⟩
      · simp only [entered]
        exact balanced.move (fun _ => rfl) (balanced.held_same (fun _ => rfl) (by simp [Holds, stands]))
          (balanced.active_same rfl (by simp [Unreleased, operational])) (by simp) (by simp)
  | admitted =>
      have here : Holds incoming (incoming i).operational i (state.requests i) := ⟨rfl, .inr stands⟩
      obtain ⟨others, before⟩ := balanced.holding here
      obtain ⟨semaphore, returned, kept, taken⟩ := HTTPServer.returnPermit_held before
      simp only [returned]
      refine balanced.move (initial_set kept) (balanced.held_back before taken here ?_)
        (balanced.active_same (by simp) ?_) ?_ ?_ <;>
        cases kind : (incoming i).operational <;> simp [Holds, Unreleased, kind, stands]
  | returning =>
      have work := balanced.returning i stands
      obtain ⟨count, counted, numbers⟩ := balanced.active
      have gone : ¬ Unreleased incoming i .released := by simp [Unreleased]
      obtain ⟨rest, rfl, fewer⟩ := numbers.leaves ⟨work, .inr stands⟩ gone
      have lowered : state.server.leave =
          (none, { state.server with activeWorkRequests := state.server.activeWorkRequests - 1 }) := by
        have : ¬ state.server.activeWorkRequests - 1 < 0 := by omega
        simp [HTTPServer.leave, this]
      simp only [lowered]
      refine balanced.move (fun _ => rfl) (balanced.held_same (fun _ => rfl) (by simp [Holds, stands]))
        ⟨rest, ?_, fewer⟩ (by simp) (by simp)
      simp [counted]
  | released => exact balanced
  | rejected code => exact balanced
  | raised error => exact balanced

/-! The drain gate. -/

/-- `admit_request` has returned None to the thread. -/
def Admitted (state : HTTPState ι ω) (i : ι) : Prop :=
  state.requests i = .admitted ∨ state.requests i = .returning ∨ state.requests i = .released

theorem admitted_move (stands : phase = .admitted ∨ phase = .returning ∨ phase = .released →
      (incoming i).operational = false → state.Admitted i) {j : ι} (work : (incoming j).operational = false)
    (later : ({ state with server, requests := Function.update state.requests i phase } :
      HTTPState ι ω).Admitted j) : state.Admitted j := by
  by_cases same : j = i
  · subst same
    exact stands (by simpa [Admitted] using later) work
  · simpa [Admitted, same] using later

/-- While the server drains, no section lets a work request in. -/
theorem advance_shut (draining : state.server.draining = true) (i : ι) {j : ι}
    (work : (incoming j).operational = false) (later : (state.advance incoming i).Admitted j) :
    state.Admitted j := by
  unfold HTTPState.advance at later
  cases stands : state.requests i with
  | arriving =>
      simp only [stands] at later
      split at later
      all_goals exact admitted_move (by simp) work later
  | gated =>
      simp only [stands] at later
      split at later
      all_goals exact admitted_move (by simp) work later
  | permitted =>
      simp only [stands] at later
      split at later
      next server entered =>
        refine admitted_move (fun _ works => ?_) work later
        -- the second look answers "draining"
        cases released : (state.server.semaphore false).release <;>
          simp [HTTPServer.enter, draining, works, released, bind, Except.bind, pure, Except.pure] at entered
      all_goals exact admitted_move (by simp) work later
  | admitted =>
      have before : state.Admitted i := .inl stands
      simp only [stands] at later
      split at later
      all_goals exact admitted_move (fun _ _ => before) work later
  | returning =>
      have before : state.Admitted i := .inr (.inl stands)
      simp only [stands] at later
      split at later
      all_goals exact admitted_move (fun _ _ => before) work later
  | released => simpa only [stands] using later
  | rejected code => simpa only [stands] using later
  | raised error => simpa only [stands] using later

theorem advance_draining (i : ι) : (state.advance incoming i).server.draining = state.server.draining := by
  unfold HTTPState.advance
  cases stands : state.requests i with
  | arriving => dsimp only; split <;> rfl
  | gated =>
      dsimp only
      split
      next server acquired =>
        obtain ⟨semaphore, _, rfl⟩ := HTTPServer.acquirePermit_ok acquired
        exact HTTPServer.draining_setSemaphore semaphore
      next => rfl
  | permitted =>
      dsimp only
      split
      next entered => exact HTTPServer.enter_draining entered
      next entered => exact HTTPServer.enter_draining entered
      next => rfl
  | admitted =>
      dsimp only
      split
      next returned => exact HTTPServer.returnPermit_draining returned
      next => rfl
  | returning =>
      have kept : state.server.leave.2.draining = state.server.draining := HTTPServer.leave_draining
      dsimp only
      split
      all_goals
        next left =>
          rw [left] at kept
          exact kept
  | released => rfl
  | rejected code => rfl
  | raised error => rfl

/-! Steps and runs. -/

variable [DecidableEq ω]

theorem Balanced.step (balanced : state.Balanced incoming permits) (step : Step incoming state after) :
    after.Balanced incoming permits := by
  cases step with
  | request i => exact balanced.advance i
  | beginDraining control =>
      have same : (state.server.beginDraining control).2 = state.server ∨
          (state.server.beginDraining control).2 = { state.server with draining := true } := by
        unfold HTTPServer.beginDraining
        split
        · exact .inl rfl
        · split <;> simp
      rcases same with same | same
      all_goals
        rw [same]
        exact ⟨balanced.initial, balanced.held, balanced.active, balanced.returning, balanced.calm⟩
  | callDrain w timeout _ =>
      exact ⟨balanced.initial, balanced.held, balanced.active, balanced.returning, balanced.calm⟩
  | wakeDrain w expired _ =>
      exact ⟨balanced.initial, balanced.held, balanced.active, balanced.returning, balanced.calm⟩

theorem Balanced.run (balanced : state.Balanced incoming permits) (run : Run incoming state after) :
    after.Balanced incoming permits := by
  induction run with
  | refl => exact balanced
  | tail _ step ih => exact ih.step step

theorem step_shut (draining : state.server.draining = true) (step : Step incoming state after) :
    after.server.draining = true ∧
    ∀ j, (incoming j).operational = false → after.Admitted j → state.Admitted j := by
  cases step with
  | request i =>
      exact ⟨(advance_draining i).trans draining, fun j work later => advance_shut draining i work later⟩
  | beginDraining control => simp [HTTPServer.beginDraining, draining, Admitted]
  | callDrain w timeout _ => exact ⟨draining, fun _ _ later => later⟩
  | wakeDrain w expired _ => exact ⟨draining, fun _ _ later => later⟩

theorem run_shut (draining : state.server.draining = true) (run : Run incoming state after) :
    after.server.draining = true ∧
    ∀ j, (incoming j).operational = false → after.Admitted j → state.Admitted j := by
  induction run with
  | refl => exact ⟨draining, fun _ _ later => later⟩
  | tail _ step ih =>
      obtain ⟨shut, earlier⟩ := ih
      obtain ⟨still, before⟩ := step_shut shut step
      exact ⟨still, fun j work later => earlier j work (before j work later)⟩

theorem step_released (step : Step incoming state after) {j : ι} (done : state.requests j = .released) :
    after.requests j = .released := by
  cases step with
  | request i =>
      by_cases same : j = i
      · subst same
        simp only [HTTPState.advance, done]
      · unfold HTTPState.advance
        dsimp only
        split <;> (try split) <;> simp [same, done]
  | beginDraining control => exact done
  | callDrain w timeout _ => exact done
  | wakeDrain w expired _ => exact done

theorem run_released (run : Run incoming state after) {j : ι} (done : state.requests j = .released) :
    after.requests j = .released := by
  induction run with
  | refl => exact done
  | tail _ step ih => exact step_released step ih

/-- A drain call returns True on a look at an empty count. -/
theorem step_drained (step : Step incoming state after) {w : ω} (pending : state.drains w ≠ .returned true)
    (drained : after.drains w = .returned true) :
    state.server.idle = true ∧ after.server = state.server ∧ after.requests = state.requests := by
  cases step with
  | request i =>
      have unmoved : (state.advance incoming i).drains = state.drains := by
        unfold HTTPState.advance
        dsimp only
        split <;> (try split) <;> rfl
      rw [unmoved] at drained
      exact absurd drained pending
  | beginDraining control => exact absurd drained pending
  | callDrain v timeout _ =>
      by_cases same : w = v
      · subst same
        simp only [callDrain, Function.update_self] at drained
        split at drained
        · simp at drained
        · split at drained
          next idle => exact ⟨idle, rfl, rfl⟩
          next => simp at drained
      · exact absurd (by simpa [callDrain, same] using drained) pending
  | wakeDrain v expired _ =>
      by_cases same : w = v
      · subst same
        simp only [wakeDrain, Function.update_self] at drained
        split at drained
        next idle => exact ⟨idle, rfl, rfl⟩
        next => split at drained <;> simp at drained
      · exact absurd (by simpa [wakeDrain, same] using drained) pending

/-- Nothing is unreleased when the server drains and the count is empty, nor at any later time. -/
theorem Balanced.drained (balanced : state.Balanced incoming permits) (draining : state.server.draining = true)
    (idle : state.server.idle = true) (run : Run incoming state after) (i : ι) :
    ¬ Unreleased incoming i (after.requests i) := by
  intro unreleased
  have later : after.Admitted i := by
    rcases unreleased.2 with stands | stands
    · exact .inl stands
    · exact .inr (.inl stands)
  rcases (run_shut draining run).2 i unreleased.1 later with stands | stands | stands
  · exact balanced.idle idle i ⟨unreleased.1, .inl stands⟩
  · exact balanced.idle idle i ⟨unreleased.1, .inr stands⟩
  · have done := run_released run stands
    rcases unreleased.2 with other | other <;> simp [done] at other

end Moves

variable [DecidableEq ι] [DecidableEq ω]

/-- Admission and drain, in every order of the sections of any number of threads. -/
theorem admission_and_drain {maxWorkers maxOperationalWorkers : Nat}
    (run : Run incoming (start maxWorkers maxOperationalWorkers) state) :
    (state.server.draining = true → ∀ later, Run incoming state later →
      ∀ i, (incoming i).operational = false → later.Admitted i → state.Admitted i) ∧
    (state.server.draining = true → ∀ after w, Step incoming state after →
      state.drains w ≠ .returned true → after.drains w = .returned true →
      ∀ later, Run incoming after later → ∀ i, ¬ Unreleased incoming i (later.requests i)) ∧
    0 ≤ state.server.activeWorkRequests ∧
    (∀ i error, state.requests i ≠ .raised error) ∧
    ((∀ i, ¬ state.InFlight i) → state.server.workSemaphore.value = maxWorkers ∧
      state.server.operationalSemaphore.value = maxOperationalWorkers) := by
  have balanced := (balanced_start maxWorkers maxOperationalWorkers).run run
  refine ⟨fun draining later onward => (run_shut draining onward).2, ?_, ?_, balanced.calm, ?_⟩
  · intro draining after w step before drained later onward i
    obtain ⟨idle, server, _⟩ := step_drained step before drained
    exact (balanced.step step).drained (by rwa [server]) (by rwa [server]) onward i
  · obtain ⟨count, counted, _⟩ := balanced.active
    omega
  · intro quiet
    exact ⟨balanced.quiet quiet false, balanced.quiet quiet true⟩

/-- A work request is admitted, then the server drains. -/
def sampleBusy : HTTPState Nat Nat :=
  let incoming := fun _ => ⟨"POST", "/v1/decisions/run"⟩
  let admitted := (((start 1 1).advance incoming 0).advance incoming 0).advance incoming 0
  { admitted with server := (admitted.server.beginDraining (some (.ok ()))).2 }

theorem sampleBusy_run : Run (fun _ => ⟨"POST", "/v1/decisions/run"⟩) (start 1 1) sampleBusy :=
  .tail (.tail (.tail (.tail .refl (.request 0)) (.request 0)) (.request 0)) (.beginDraining (some (.ok ())))

theorem admission_and_drain_sample :
    sampleBusy.Admitted 0 ∧ sampleBusy.server.workSemaphore.value = 0 ∧
    (∀ later, Run (fun _ => ⟨"POST", "/v1/decisions/run"⟩) sampleBusy later →
      ∀ i, (Incoming.mk "POST" "/v1/decisions/run").operational = false → later.Admitted i → sampleBusy.Admitted i) ∧
    0 ≤ sampleBusy.server.activeWorkRequests :=
  have holds := admission_and_drain sampleBusy_run
  ⟨.inl rfl, rfl, holds.1 rfl, holds.2.2.1⟩

end HTTPState

end AgentTree
