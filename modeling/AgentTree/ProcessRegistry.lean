import AgentTree.StoreSchema
import Mathlib.Logic.Function.Basic
import Mathlib.Logic.Relation

/-!
The registry of subprocesses.  `_lock` is re-entrant: while a thread is inside `spawn`, no
other thread gets in, but a signal handler of the same thread may run `cancel_all` between
any two of its steps.
-/

namespace AgentTree

inductive Signum : Type
  | term
  | kill
  | other (number : Nat)
  deriving DecidableEq

/-- `_Entry`; a process stands for its Popen object and its pid. -/
structure ProcessEntry where
  process : Nat
  processGroupId : Option Nat
  deriving DecidableEq

/-- Who calls `_signal`; calls of `cancel_all` are numbered. -/
inductive Sender (ι : Type) : Type
  | spawn (i : ι)
  | signal
  | killAndReap
  | cancelAll (call : Nat)
  deriving DecidableEq

/-- A signal that has reached its process. -/
structure Delivery (ι : Type) where
  sender : Sender ι
  entry : ProcessEntry
  signum : Signum
  deriving DecidableEq

/-- What the kernel and Popen know of a child. -/
structure Child (ι : Type) where
  maker : ι
  exited : Bool
  reaped : Bool

/-- The steps of `spawn`, by what it does next. -/
inductive SpawnPhase : Type
  | outside
  | checking
  | creating
  | created (process : Nat)
  | building (process : Nat)
  | rechecking (process : Nat)
  | killing (process : Nat)
  | waiting (process : Nat)
  | raising (process : Nat)
  | inserting (process : Nat)
  | returning (process : Nat)
  | finished (outcome : Except PyError Nat)

def processRegistryClosed : PyError := .other "ProcessRegistryClosed" "subprocess registry is draining"

structure CancellationReport where
  registered : Nat
  termSignalled : Nat
  killSignalled : Nat
  remaining : Nat

structure ProcessRegistry (ι : Type) where
  accepting : Bool
  entries : List ProcessEntry
  owner : Option ι
  children : List (Child ι)
  spawns : ι → SpawnPhase
  sent : List (Delivery ι)
  cancels : Nat

namespace ProcessRegistry

variable {ι : Type}

def new : ProcessRegistry ι := ⟨true, [], none, [], fun _ => .outside, [], 0⟩

def unreaped (state : ProcessRegistry ι) (process : Nat) : Bool :=
  (state.children[process]?).any (!·.reaped)

/-- `_signal`: a reaped process is no longer there and the lookup error is passed over. -/
def deliver (sender : Sender ι) (signum : Signum) (state : ProcessRegistry ι) (entry : ProcessEntry) :
    ProcessRegistry ι :=
  if state.unreaped entry.process then { state with sent := state.sent ++ [⟨sender, entry, signum⟩] }
  else state

/-- A wait that returns: the process has exited and is no longer waitable. -/
def reap (state : ProcessRegistry ι) (process : Nat) : ProcessRegistry ι :=
  { state with children := state.children.modify process fun child => { child with exited := true, reaped := true } }

def find (state : ProcessRegistry ι) (process : Nat) : Option ProcessEntry :=
  state.entries.find? (·.process = process)

/-- `self._entries.pop(id(process), None)`. -/
def pop (state : ProcessRegistry ι) (process : Nat) : ProcessRegistry ι :=
  { state with entries := state.entries.filter (·.process ≠ process) }

def signal (state : ProcessRegistry ι) (process : Nat) (signum : Signum) : ProcessRegistry ι :=
  match state.find process with
  | some entry => state.deliver .signal signum entry
  | none => state

/-- `kill_and_reap`; when its wait runs out of time the entry stays. -/
def killAndReap (state : ProcessRegistry ι) (process : Nat) (exits : Bool) : ProcessRegistry ι :=
  match state.find process with
  | none => state
  | some entry =>
      let killed := state.deliver .killAndReap .kill entry
      if exits then (killed.reap process).pop process else killed

/-- The waits of `cancel_all`, one entry after the other. -/
def collect (exits : Nat → Bool) (state : ProcessRegistry ι) (entry : ProcessEntry) : ProcessRegistry ι :=
  if exits entry.process then (state.reap entry.process).pop entry.process else state

/-- `cancel_all`, where `exits` tells which processes exit before the final deadline. -/
def cancelAll (exits : Nat → Bool) (state : ProcessRegistry ι) : ProcessRegistry ι :=
  let call := state.cancels
  let entries := state.entries
  let closed := { state with accepting := false, cancels := call + 1 }
  let termed := entries.foldl (deliver (.cancelAll call) .term) closed
  let killed := entries.foldl (deliver (.cancelAll call) .kill) termed
  entries.foldl (collect exits) killed

def cancellationReport (exits : Nat → Bool) (state : ProcessRegistry ι) : CancellationReport :=
  let entries := state.entries
  ⟨entries.length, entries.length, entries.length, (entries.filter fun entry => !exits entry.process).length⟩

/-- What the surroundings decide in a step of `spawn`. -/
inductive Fate : Type
  | goesWell
  | fails (error : PyError)

/-- The arguments of a `spawn` that matter here. -/
structure SpawnCall where
  passesStartNewSession : Bool

section Semantics

variable [DecidableEq ι] (posix : Bool) (calls : ι → SpawnCall)

/-- The next step of the call `i` of `spawn`. -/
def spawnStep (state : ProcessRegistry ι) (i : ι) (fate : Fate) : Option (ProcessRegistry ι) :=
  let go (state : ProcessRegistry ι) (phase : SpawnPhase) : Option (ProcessRegistry ι) :=
    some { state with spawns := Function.update state.spawns i phase }
  -- leaving the `with` block
  let finish (state : ProcessRegistry ι) (outcome : Except PyError Nat) : Option (ProcessRegistry ι) :=
    some { state with owner := none, spawns := Function.update state.spawns i (.finished outcome) }
  match state.spawns i with
  | .outside => match state.owner with
      | none => go { state with owner := some i } .checking
      | some _ => none
  | .checking =>
      if !state.accepting then finish state (.error processRegistryClosed)
      else if (calls i).passesStartNewSession then
        finish state (.error (.valueError "process registry owns start_new_session"))
      else go state .creating
  | .creating => match fate with
      | .goesWell =>
          go { state with children := state.children ++ [⟨i, false, false⟩] } (.created state.children.length)
      | .fails error => finish state (.error error)
  | .created process => go state (.building process)
  | .building process => go state (.rechecking process)
  | .rechecking process => if !state.accepting then go state (.killing process) else go state (.inserting process)
  | .killing process =>
      go (state.deliver (.spawn i) .kill ⟨process, if posix then some process else none⟩) (.waiting process)
  | .waiting process => match fate with
      | .goesWell => go (state.reap process) (.raising process)
      | .fails error => finish state (.error error)
  | .raising _ => finish state (.error processRegistryClosed)
  | .inserting process =>
      go { state with entries := state.entries ++ [⟨process, if posix then some process else none⟩] }
        (.returning process)
  | .returning process => finish state (.ok process)
  | .finished _ => none

inductive Event (ι : Type) : Type
  | spawn (i : ι) (fate : Fate)
  | signal (process : Nat) (signum : Signum)
  | killAndReap (process : Nat) (exits : Bool)
  | cancelAll (exits : Nat → Bool)
  | handler (i : ι) (exits : Nat → Bool)
  | exit (process : Nat)

/-- One event, where it can happen: another thread needs the lock to be free, and a handler
interrupts the thread that has it. -/
def step (state : ProcessRegistry ι) : Event ι → Option (ProcessRegistry ι)
  | .spawn i fate => state.spawnStep posix calls i fate
  | .signal process signum => match state.owner with
      | none => some (state.signal process signum)
      | some _ => none
  | .killAndReap process exits => match state.owner with
      | none => some (state.killAndReap process exits)
      | some _ => none
  | .cancelAll exits => match state.owner with
      | none => some (state.cancelAll exits)
      | some _ => none
  | .handler i exits => if state.owner = some i then some (state.cancelAll exits) else none
  | .exit process =>
      some { state with children := state.children.modify process fun child => { child with exited := true } }

/-- A run whose events all meet a condition. -/
def Run (condition : ProcessRegistry ι → Event ι → Bool) :
    ProcessRegistry ι → ProcessRegistry ι → Prop :=
  Relation.ReflTransGen fun state after =>
    ∃ event, state.step posix calls event = some after ∧ condition state event = true

/-- Play a list of events. -/
def play (condition : ProcessRegistry ι → Event ι → Bool) :
    List (Event ι) → ProcessRegistry ι → Option (ProcessRegistry ι)
  | [], state => some state
  | event :: rest, state =>
      if condition state event then (state.step posix calls event).bind (play condition rest) else none

theorem play_run {condition : ProcessRegistry ι → Event ι → Bool} {state after : ProcessRegistry ι}
    (events : List (Event ι)) (played : play posix calls condition events state = some after) :
    Run posix calls condition state after := by
  induction events generalizing state with
  | nil =>
      obtain rfl := Option.some.inj played
      exact .refl
  | cons event rest ih =>
      simp only [play] at played
      split at played
      next met =>
        obtain ⟨middle, stepped, later⟩ := Option.bind_eq_some_iff.mp played
        exact .head ⟨event, stepped, met⟩ (ih later)
      next => simp at played

end Semantics

end ProcessRegistry

end AgentTree
