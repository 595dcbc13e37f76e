import AgentTree.ProcessRegistry

/-!
The registry of subprocesses, one step at a time.  The lock is re-entrant: a signal handler
of the thread that has it may run `cancel_all` between any two steps of that thread, also
inside another `cancel_all`.
-/

namespace AgentTree

/-- A child as the kernel and its Popen object know it. -/
structure Waitable where
  exited : Bool
  waited : Bool
  deriving DecidableEq

/-- A signal that was sent, and whether the leader had been waited for by then. -/
structure SentSignal where
  entry : ProcessEntry
  signum : Signum
  waited : Bool
  deriving DecidableEq

/-- Where a call of the registry stands, by what it does next. -/
inductive Activation : Type
  -- spawn
  | checking (passesStartNewSession : Bool)
  | creating
  | rechecking (process : Nat)
  | killingLate (process : Nat)
  | waitingLate (process : Nat)
  | inserting (process : Nat)
  -- signal
  | lookingUp (process : Nat) (signum : Signum)
  | sending (entry : ProcessEntry) (signum : Signum)
  -- kill_and_reap
  | finding (process : Nat)
  | killing (entry : ProcessEntry)
  | waiting (entry : ProcessEntry)
  | popping (entry : ProcessEntry)
  -- cancel_all
  | closing
  | listing
  | terming (entries left : List ProcessEntry)
  | sleeping (entries : List ProcessEntry)
  | finishing (entries left : List ProcessEntry)
  | collecting (left : List ProcessEntry)
  | removing (entry : ProcessEntry) (left : List ProcessEntry)

/-- What the system answers: a child is created, a process exits in time, a group may be signalled; or not. -/
inductive SystemReply : Type
  | done
  | refused
  deriving DecidableEq

/-- The registry with the activations of the thread that has the lock, innermost first. -/
structure GroupRegistry where
  accepting : Bool
  entries : List ProcessEntry
  children : List Waitable
  activations : List Activation
  sent : List SentSignal

namespace GroupRegistry

def new : GroupRegistry := ⟨true, [], [], [], []⟩

def waitedFor (state : GroupRegistry) (process : Nat) : Bool := (state.children[process]?).any Waitable.waited

def hasExited (state : GroupRegistry) (process : Nat) : Bool := (state.children[process]?).any Waitable.exited

/-- The leader has exited and is no longer waitable. -/
def reap (state : GroupRegistry) (process : Nat) : GroupRegistry :=
  { state with children := state.children.modify process fun _ => ⟨true, true⟩ }

/-- `Popen.wait`; none where it runs out of time. -/
def await (state : GroupRegistry) (process : Nat) (reply : SystemReply) : Option GroupRegistry :=
  if state.waitedFor process then some state
  else match reply with
    | .done => some (state.reap process)
    | .refused => none

def find (state : GroupRegistry) (process : Nat) : Option ProcessEntry :=
  state.entries.find? (·.process = process)

def pop (state : GroupRegistry) (process : Nat) : GroupRegistry :=
  { state with entries := state.entries.filter (·.process ≠ process) }

def record (state : GroupRegistry) (entry : ProcessEntry) (signum : Signum) : GroupRegistry :=
  { state with sent := state.sent ++ [⟨entry, signum, state.waitedFor entry.process⟩] }

/-- `Popen.send_signal`, which polls first. -/
def sendSignal (state : GroupRegistry) (entry : ProcessEntry) (signum : Signum) : GroupRegistry :=
  if state.waitedFor entry.process then state
  else if state.hasExited entry.process then state.reap entry.process
  else state.record entry signum

/-- `_signal`; a refused `killpg` is one that raises PermissionError. -/
def send (state : GroupRegistry) (entry : ProcessEntry) (signum : Signum) (reply : SystemReply) : GroupRegistry :=
  match entry.processGroupId with
  | some _ =>
      match reply with
      | .done => state.record entry signum
      | .refused => (state.record entry signum).sendSignal entry signum
  | none => if state.waitedFor entry.process then state else state.record entry signum

section Steps

variable (posix : Bool)

def entryOf (process : Nat) : ProcessEntry := ⟨process, if posix then some process else none⟩

/-- The next step of the innermost activation. -/
def advance (state : GroupRegistry) (below : List Activation) (reply : SystemReply) : Activation → GroupRegistry
  | .checking passesStartNewSession =>
      if !state.accepting then { state with activations := below }
      else if passesStartNewSession then { state with activations := below }
      else { state with activations := .creating :: below }
  | .creating => match reply with
      | .done => { state with
          children := state.children ++ [⟨false, false⟩]
          activations := .rechecking state.children.length :: below }
      | .refused => { state with activations := below }
  | .rechecking process =>
      if !state.accepting then { state with activations := .killingLate process :: below }
      else { state with activations := .inserting process :: below }
  | .killingLate process =>
      { state.send (entryOf posix process) .kill reply with activations := .waitingLate process :: below }
  | .waitingLate process => { (state.await process reply).getD state with activations := below }
  | .inserting process => { state with entries := state.entries ++ [entryOf posix process], activations := below }
  | .lookingUp process signum => match state.find process with
      | some entry => { state with activations := .sending entry signum :: below }
      | none => { state with activations := below }
  | .sending entry signum => { state.send entry signum reply with activations := below }
  | .finding process => match state.find process with
      | some entry => { state with activations := .killing entry :: below }
      | none => { state with activations := below }
  | .killing entry => { state.send entry .kill reply with activations := .waiting entry :: below }
  | .waiting entry => match state.await entry.process reply with
      | some waited => { waited with activations := .popping entry :: below }
      | none => { state with activations := below }
  | .popping entry => { state.pop entry.process with activations := below }
  | .closing => { state with accepting := false, activations := .listing :: below }
  | .listing => { state with activations := .terming state.entries state.entries :: below }
  | .terming entries [] => { state with activations := .sleeping entries :: below }
  | .terming entries (entry :: left) =>
      { state.send entry .term reply with activations := .terming entries left :: below }
  | .sleeping entries => { state with activations := .finishing entries entries :: below }
  | .finishing entries [] => { state with activations := .collecting entries :: below }
  | .finishing entries (entry :: left) =>
      { state.send entry .kill reply with activations := .finishing entries left :: below }
  | .collecting [] => { state with activations := below }
  | .collecting (entry :: left) => match state.await entry.process reply with
      | some waited => { waited with activations := .removing entry left :: below }
      | none => { state with activations := .collecting left :: below }
  | .removing entry left => { state.pop entry.process with activations := .collecting left :: below }

inductive Call : Type
  | spawn (passesStartNewSession : Bool)
  | signal (process : Nat) (signum : Signum)
  | killAndReap (process : Nat)
  | cancelAll

def Call.activation : Call → Activation
  | .spawn passes => .checking passes
  | .signal process signum => .lookingUp process signum
  | .killAndReap process => .finding process
  | .cancelAll => .closing

inductive Event : Type
  | call (call : Call)
  | advance (reply : SystemReply)
  | handler
  | exit (process : Nat)

/-- A call needs the lock to be free; a handler interrupts the thread that has it. -/
def step (state : GroupRegistry) : Event → Option GroupRegistry
  | .call call => match state.activations with
      | [] => some { state with activations := [call.activation] }
      | _ :: _ => none
  | .advance reply => match state.activations with
      | [] => none
      | activation :: below => some (state.advance posix below reply activation)
  | .handler => match state.activations with
      | [] => none
      | _ :: _ => some { state with activations := .closing :: state.activations }
  | .exit process =>
      some { state with children := state.children.modify process fun child => { child with exited := true } }

end Steps

end GroupRegistry

namespace Activation

/-- The processes that an activation goes on to signal or to enter in the table. -/
def holds : Activation → List Nat
  | rechecking process => [process]
  | killingLate process => [process]
  | inserting process => [process]
  | sending entry _ => [entry.process]
  | killing entry => [entry.process]
  | terming entries left => (entries ++ left).map ProcessEntry.process
  | sleeping entries => entries.map ProcessEntry.process
  | finishing _ left => left.map ProcessEntry.process
  | _ => []

/-- The process that the next step takes from the table. -/
def removes : Activation → Option Nat
  | popping entry => some entry.process
  | removing entry _ => some entry.process
  | _ => none

/-- A child that is not in the table yet. -/
def late : Activation → Option Nat
  | rechecking process => some process
  | killingLate process => some process
  | waitingLate process => some process
  | inserting process => some process
  | _ => none

def cancels : Activation → Bool
  | closing => true
  | listing => true
  | terming _ _ => true
  | sleeping _ => true
  | finishing _ _ => true
  | collecting _ => true
  | removing _ _ => true
  | _ => false

/-- The entry that the next step signals, unless it is a late child. -/
def signals : Activation → Option ProcessEntry
  | sending entry _ => some entry
  | killing entry => some entry
  | terming _ (entry :: _) => some entry
  | finishing _ (entry :: _) => some entry
  | _ => none

/-- The entry that the next step of a `cancel_all` waits for. -/
def collects : Activation → Option ProcessEntry
  | collecting (entry :: _) => some entry
  | _ => none

end Activation

namespace GroupRegistry

/-- No handler runs between the wait for a process and its removal from the table, no `cancel_all` of a handler waits
for a process that an interrupted activation goes on to signal, and no group is refused whose leader has exited. -/
def allowed (state : GroupRegistry) (event : Event) : Bool :=
  match event, state.activations with
  | .handler, activation :: _ => activation.removes.isNone
  | .advance .done, activation :: below =>
      activation.collects.all fun entry => below.all fun inner => entry.process ∉ inner.holds
  | .advance .refused, activation :: _ => activation.signals.all fun entry => !state.hasExited entry.process
  | _, _ => true

variable (posix : Bool)

/-- A run whose events all meet a condition. -/
def Run (condition : GroupRegistry → Event → Bool) : GroupRegistry → GroupRegistry → Prop :=
  Relation.ReflTransGen fun state after => ∃ event, state.step posix event = some after ∧ condition state event = true

/-- The process that the next step takes from the table. -/
def nextRemoved (state : GroupRegistry) : Option Nat := state.activations.head?.bind Activation.removes

/-- What holds along the allowed runs. -/
structure Sparing (state : GroupRegistry) : Prop where
  sent : ∀ signal ∈ state.sent, signal.waited = false
  table : ∀ entry ∈ state.entries, state.waitedFor entry.process = true → state.nextRemoved = some entry.process
  held : ∀ activation ∈ state.activations, ∀ process ∈ activation.holds, state.waitedFor process = false
  inner : ∀ activation ∈ state.activations.tail, activation.removes = none
  nested : state.activations.Pairwise fun upper _ => upper.cancels = true
  known : ∀ entry ∈ state.entries, entry.process < state.children.length
  late : ∀ activation ∈ state.activations, ∀ process, activation.late = some process →
    process < state.children.length ∧ ∀ entry ∈ state.entries, entry.process ≠ process

variable {state : GroupRegistry} {activation next : Activation} {below : List Activation} {process : Nat}
  {entry : ProcessEntry} {signum : Signum} {reply : SystemReply}

theorem waitedFor_reap {other : Nat} (waited : (state.reap process).waitedFor other = true) :
    other = process ∨ state.waitedFor other = true := by
  by_cases same : other = process
  · exact .inl same
  · right
    simpa [waitedFor, reap, List.getElem?_modify, Ne.symm same] using waited

/-- Nothing in the table has been waited for where the next step removes nothing. -/
theorem Sparing.clean (sparing : state.Sparing) (top : state.activations = activation :: below)
    (keeps : activation.removes = none) : ∀ entry ∈ state.entries, state.waitedFor entry.process = false := by
  intro entry member
  by_contra waited
  have removed := sparing.table entry member (by simpa using waited)
  simp [nextRemoved, top, keeps] at removed

/-- The innermost activation ends. -/
theorem Sparing.leave (sparing : state.Sparing) (top : state.activations = activation :: below)
    (keeps : activation.removes = none) : Sparing { state with activations := below } := by
  have clean := sparing.clean top keeps
  have inner := sparing.inner
  have nested := sparing.nested
  rw [top] at inner nested
  have within : ∀ other ∈ below, other ∈ state.activations := fun other member => top ▸ List.mem_cons_of_mem _ member
  refine ⟨sparing.sent, fun entry member waited => ?_, fun other member => sparing.held other (within other member),
    fun other member => inner other (List.mem_of_mem_tail member), (List.pairwise_cons.mp nested).2, sparing.known,
    fun other member => sparing.late other (within other member)⟩
  exact absurd waited (Bool.eq_false_iff.mp (clean entry member))

/-- The innermost activation goes on to another step. -/
theorem Sparing.go (sparing : state.Sparing) (top : state.activations = activation :: below)
    (keeps : activation.removes = none) (cancels : activation.cancels = next.cancels)
    (holds : ∀ process ∈ next.holds, state.waitedFor process = false)
    (late : ∀ process, next.late = some process →
      process < state.children.length ∧ ∀ entry ∈ state.entries, entry.process ≠ process) :
    Sparing { state with activations := next :: below } := by
  have clean := sparing.clean top keeps
  have inner := sparing.inner
  have nested := sparing.nested
  rw [top] at inner nested
  have within : ∀ other ∈ below, other ∈ state.activations := fun other member => top ▸ List.mem_cons_of_mem _ member
  obtain ⟨first, rest⟩ := List.pairwise_cons.mp nested
  refine ⟨sparing.sent, fun entry member waited => ?_, ?_, inner, ?_, sparing.known, ?_⟩
  · exact absurd waited (Bool.eq_false_iff.mp (clean entry member))
  · intro other member
    rcases List.mem_cons.mp member with rfl | there
    · exact holds
    · exact sparing.held other (within other there)
  · exact List.pairwise_cons.mpr ⟨fun other member => cancels ▸ first other member, rest⟩
  · intro other member
    rcases List.mem_cons.mp member with rfl | there
    · exact late
    · exact sparing.late other (within other there)

/-- A signal to a process that has not been waited for. -/
theorem Sparing.record (sparing : state.Sparing) (unwaited : state.waitedFor entry.process = false) :
    (state.record entry signum).Sparing := by
  refine ⟨fun signal member => ?_, sparing.table, sparing.held, sparing.inner, sparing.nested, sparing.known,
    sparing.late⟩
  rcases List.mem_append.mp member with old | new
  · exact sparing.sent signal old
  · obtain rfl := List.mem_singleton.mp new
    exact unwaited

/-- A signal to a process that has not been waited for is sent once or twice, or its refusal finds that the process has
exited. -/
theorem send_cases (unwaited : state.waitedFor entry.process = false) :
    state.send entry signum reply = state.record entry signum ∨
      state.send entry signum reply = (state.record entry signum).record entry signum ∨
      reply = .refused ∧ state.hasExited entry.process = true ∧
        state.send entry signum reply = (state.record entry signum).reap entry.process := by
  have waiting : ¬state.waitedFor entry.process = true := Bool.eq_false_iff.mp unwaited
  have still : ¬(state.record entry signum).waitedFor entry.process = true := waiting
  unfold GroupRegistry.send
  split
  next =>
    cases reply with
    | done => exact .inl rfl
    | refused =>
        right
        simp only [sendSignal, if_neg still]
        by_cases exited : state.hasExited entry.process = true
        · exact .inr ⟨trivial, exited, if_pos exited⟩
        · exact .inl (if_neg exited)
  next => exact .inl (if_neg waiting)

/-- What a signal to a running leader changes. -/
theorem Sparing.send (sparing : state.Sparing) (unwaited : state.waitedFor entry.process = false)
    (reachable : reply = .refused → state.hasExited entry.process = false) :
    (state.send entry signum reply).Sparing ∧ (state.send entry signum reply).activations = state.activations ∧
      (state.send entry signum reply).children = state.children := by
  have once : (state.record entry signum).Sparing := sparing.record unwaited
  rcases send_cases unwaited with same | same | ⟨refused, exited, _⟩
  · rw [same]
    exact ⟨once, rfl, rfl⟩
  · rw [same]
    exact ⟨once.record unwaited, rfl, rfl⟩
  · exact absurd exited (Bool.eq_false_iff.mp (reachable refused))

/-- A wait returns for a process that no interrupted activation holds. -/
theorem Sparing.reaped (sparing : state.Sparing) (top : state.activations = activation :: below)
    (keeps : activation.removes = none) (free : ∀ other ∈ below, process ∉ other.holds)
    (cancels : activation.cancels = next.cancels) (holds : next.holds = []) (late : next.late = none)
    (removes : next.removes = some process) :
    Sparing { state.reap process with activations := next :: below } := by
  have clean := sparing.clean top keeps
  have inner := sparing.inner
  have nested := sparing.nested
  rw [top] at inner nested
  have within : ∀ other ∈ below, other ∈ state.activations := fun other member => top ▸ List.mem_cons_of_mem _ member
  obtain ⟨first, rest⟩ := List.pairwise_cons.mp nested
  have size : (state.reap process).children.length = state.children.length := List.length_modify _ _ _
  refine ⟨sparing.sent, fun entry member waited => ?_, ?_, inner, ?_, size ▸ sparing.known, ?_⟩
  · rcases waitedFor_reap (show (state.reap process).waitedFor entry.process = true from waited) with rfl | old
    · simp [nextRemoved, removes]
    · exact absurd old (Bool.eq_false_iff.mp (clean entry member))
  · intro other member held inside
    rcases List.mem_cons.mp member with rfl | there
    · simp [holds] at inside
    · refine Bool.eq_false_iff.mpr fun waited => ?_
      rcases waitedFor_reap waited with rfl | old
      · exact free other there inside
      · exact absurd old (Bool.eq_false_iff.mp (sparing.held other (within other there) held inside))
  · exact List.pairwise_cons.mpr ⟨fun other member => cancels ▸ first other member, rest⟩
  · intro other member
    rcases List.mem_cons.mp member with rfl | there
    · simp [late]
    · rw [show GroupRegistry.children _ = (state.reap process).children from rfl, size]
      exact sparing.late other (within other there)

/-- The process that has been waited for is taken from the table. -/
theorem Sparing.popped (sparing : state.Sparing) (top : state.activations = activation :: below)
    (removes : activation.removes = some process) {after : List Activation}
    (goes : after = below ∨ ∃ left, after = .collecting left :: below ∧ activation.cancels = true) :
    Sparing { state.pop process with activations := after } := by
  have inner := sparing.inner
  have nested := sparing.nested
  rw [top] at inner nested
  have within : ∀ other ∈ below, other ∈ state.activations := fun other member => top ▸ List.mem_cons_of_mem _ member
  have kept : ∀ entry ∈ (state.pop process).entries, entry ∈ state.entries ∧ entry.process ≠ process := by
    intro entry member
    simpa [pop] using member
  obtain ⟨first, rest⟩ := List.pairwise_cons.mp nested
  refine ⟨sparing.sent, fun entry member waited => ?_, ?_, ?_, ?_, fun entry member => sparing.known entry (kept entry member).1,
    ?_⟩
  · have next := sparing.table entry (kept entry member).1 waited
    rw [nextRemoved, top] at next
    exact absurd (Option.some.inj (next.symm.trans removes)) (kept entry member).2
  · intro other member
    rcases goes with rfl | ⟨left, rfl, _⟩
    · exact sparing.held other (within other member)
    · rcases List.mem_cons.mp member with rfl | there
      · simp [Activation.holds]
      · exact sparing.held other (within other there)
  · intro other member
    rcases goes with rfl | ⟨left, rfl, _⟩
    · exact inner other (List.mem_of_mem_tail member)
    · exact inner other member
  · rcases goes with rfl | ⟨left, rfl, cancels⟩
    · exact rest
    · exact List.pairwise_cons.mpr ⟨fun _ _ => rfl, rest⟩
  · intro other member process late
    have old : ∀ other ∈ below, other.late = some process → process < state.children.length ∧
        ∀ entry ∈ (state.pop _).entries, entry.process ≠ process := fun other there late =>
      ⟨(sparing.late other (within other there) process late).1, fun entry present =>
        (sparing.late other (within other there) process late).2 entry (kept entry present).1⟩
    rcases goes with rfl | ⟨left, rfl, _⟩
    · exact old other member late
    · rcases List.mem_cons.mp member with rfl | there
      · simp [Activation.late] at late
      · exact old other there late

/-- Only a `cancel_all` interrupts other activations. -/
theorem Sparing.outermost (sparing : state.Sparing) (top : state.activations = activation :: below)
    (plain : activation.cancels = false) : below = [] := by
  have nested := sparing.nested
  rw [top] at nested
  refine List.eq_nil_iff_forall_not_mem.mpr fun other member => ?_
  have cancels := (List.pairwise_cons.mp nested).1 other member
  simp [plain] at cancels

/-- A child that is not in the table is waited for. -/
theorem Sparing.reapedLate (sparing : state.Sparing) (top : state.activations = [activation])
    (late : activation.late = some process) (keeps : activation.removes = none) {after : List Activation}
    (goes : after = [] ∨ after = [.waitingLate process]) :
    Sparing { state.reap process with activations := after } := by
  have clean := sparing.clean top keeps
  obtain ⟨known, absent⟩ := sparing.late activation (top ▸ List.mem_singleton.mpr rfl) process late
  have size : (state.reap process).children.length = state.children.length := List.length_modify _ _ _
  refine ⟨sparing.sent, fun entry member waited => ?_, ?_, ?_, ?_, size ▸ sparing.known, ?_⟩
  · rcases waitedFor_reap (show (state.reap process).waitedFor entry.process = true from waited) with same | old
    · exact absurd same (absent entry member)
    · exact absurd old (Bool.eq_false_iff.mp (clean entry member))
  · rcases goes with rfl | rfl <;> simp [Activation.holds]
  · rcases goes with rfl | rfl <;> simp
  · rcases goes with rfl | rfl <;> simp
  · rcases goes with rfl | rfl
    · simp
    · intro other member process' late'
      obtain rfl := List.mem_singleton.mp member
      obtain rfl := Option.some.inj late'
      exact ⟨size ▸ known, absent⟩

/-- An entry of the table that is looked up has not been waited for. -/
theorem Sparing.found (sparing : state.Sparing) (top : state.activations = activation :: below)
    (keeps : activation.removes = none) (found : state.find process = some entry) :
    state.waitedFor entry.process = false :=
  sparing.clean top keeps entry (List.mem_of_find?_eq_some found)

omit posix in
/-- What is signalled next may be signalled. -/
theorem advance_signals (top : state.activations = activation :: below)
    (allowed : state.allowed (.advance reply) = true) (signals : activation.signals = some entry) :
    reply = .refused → state.hasExited entry.process = false := by
  rintro rfl
  simpa [GroupRegistry.allowed, top, signals] using allowed

/-- A child is created. -/
theorem Sparing.create (sparing : state.Sparing) (top : state.activations = .creating :: below) :
    Sparing { state with
      children := state.children ++ [⟨false, false⟩]
      activations := .rechecking state.children.length :: below } := by
  obtain rfl := sparing.outermost top rfl
  have clean := sparing.clean top rfl
  have unwaited : ∀ process, state.waitedFor process = false →
      (Option.any Waitable.waited (state.children ++ [⟨false, false⟩])[process]?) = false := by
    intro process before
    by_cases inside : process < state.children.length
    · rwa [List.getElem?_append_left inside]
    · rw [List.getElem?_append_right (by omega)]
      cases process - state.children.length <;> simp
  refine ⟨sparing.sent, fun entry member waited => ?_, ?_, by simp, by simp, fun entry member => ?_, ?_⟩
  · exact absurd waited (Bool.eq_false_iff.mp (unwaited _ (clean entry member)))
  · intro other member process inside
    obtain rfl := List.mem_singleton.mp member
    obtain rfl : process = state.children.length := by simpa [Activation.holds] using inside
    exact unwaited _ (by simp [waitedFor])
  · have below := sparing.known entry member
    simp only [List.length_append, List.length_singleton]
    omega
  · intro other member process late
    obtain rfl := List.mem_singleton.mp member
    obtain rfl := Option.some.inj late
    refine ⟨by simp, fun entry present => ?_⟩
    have below := sparing.known entry present
    omega

/-- A new child enters the table. -/
theorem Sparing.insert (sparing : state.Sparing) (top : state.activations = .inserting process :: below)
    (own : entry.process = process) :
    Sparing { state with entries := state.entries ++ [entry], activations := below } := by
  obtain rfl := sparing.outermost top rfl
  have member : Activation.inserting process ∈ state.activations := top ▸ List.mem_cons_self
  have unwaited := sparing.held _ member process (by simp [Activation.holds])
  obtain ⟨known, _⟩ := sparing.late _ member process rfl
  have clean := sparing.clean top rfl
  refine ⟨sparing.sent, fun other inside waited => ?_, by simp, by simp, by simp, fun other inside => ?_, by simp⟩
  · rcases List.mem_append.mp inside with old | new
    · exact absurd waited (Bool.eq_false_iff.mp (clean other old))
    · obtain rfl := List.mem_singleton.mp new
      exact absurd waited (Bool.eq_false_iff.mp (own ▸ unwaited))
  · rcases List.mem_append.mp inside with old | new
    · exact sparing.known other old
    · obtain rfl := List.mem_singleton.mp new
      exact own ▸ known

/-- A late child is killed; a refusal may find that it has exited. -/
theorem Sparing.killLate (sparing : state.Sparing) (top : state.activations = .killingLate process :: below)
    (own : entry.process = process) :
    Sparing { state.send entry signum reply with activations := .waitingLate process :: below } := by
  obtain rfl := sparing.outermost top rfl
  have member : Activation.killingLate process ∈ state.activations := top ▸ List.mem_cons_self
  have unwaited : state.waitedFor entry.process = false :=
    own ▸ sparing.held _ member process (by simp [Activation.holds])
  have fresh := sparing.late _ member process rfl
  have late : ∀ other, Activation.late (.waitingLate process) = some other →
      other < state.children.length ∧ ∀ entry ∈ state.entries, entry.process ≠ other := by
    rintro other ⟨⟩
    exact fresh
  have holds : ∀ other ∈ Activation.holds (.waitingLate process), state.waitedFor other = false := by
    simp [Activation.holds]
  have once : (state.record entry signum).Sparing := sparing.record unwaited
  rcases send_cases unwaited with same | same | ⟨_, _, same⟩
  · rw [same]
    exact once.go top rfl rfl holds late
  · rw [same]
    exact (once.record unwaited).go top rfl rfl holds late
  · rw [same, own]
    exact once.reapedLate top rfl rfl (.inr rfl)

theorem Sparing.advance (sparing : state.Sparing) (top : state.activations = activation :: below)
    (allowed : state.allowed (.advance reply) = true) : (state.advance posix below reply activation).Sparing := by
  have own : activation ∈ state.activations := top ▸ List.mem_cons_self
  cases activation with
  | checking passes =>
      simp only [GroupRegistry.advance]
      split
      · exact sparing.leave top rfl
      · split
        · exact sparing.leave top rfl
        · exact sparing.go top rfl rfl (by simp [Activation.holds]) (by simp [Activation.late])
  | creating =>
      cases reply with
      | done => exact sparing.create top
      | refused => exact sparing.leave top rfl
  | rechecking process =>
      have fresh := sparing.late _ own process rfl
      have unwaited := sparing.held _ own process (by simp [Activation.holds])
      simp only [GroupRegistry.advance]
      split
      · exact sparing.go top rfl rfl (by simpa [Activation.holds] using unwaited) (by simpa [Activation.late] using fresh)
      · exact sparing.go top rfl rfl (by simpa [Activation.holds] using unwaited) (by simpa [Activation.late] using fresh)
  | killingLate process => exact sparing.killLate top rfl
  | waitingLate process =>
      obtain rfl := sparing.outermost top rfl
      simp only [GroupRegistry.advance, await]
      split
      · exact sparing.leave top rfl
      · cases reply with
        | done => exact sparing.reapedLate top rfl rfl (.inl rfl)
        | refused => exact sparing.leave top rfl
  | inserting process => exact sparing.insert top rfl
  | lookingUp process signum =>
      simp only [GroupRegistry.advance]
      split
      next entry found =>
        have unwaited := sparing.found top rfl found
        exact sparing.go top rfl rfl (by simpa [Activation.holds] using unwaited) (by simp [Activation.late])
      next => exact sparing.leave top rfl
  | sending entry signum =>
      have unwaited := sparing.held _ own entry.process (by simp [Activation.holds])
      obtain ⟨sent, same, _⟩ := sparing.send unwaited (advance_signals top allowed rfl)
      exact sent.leave (same.trans top) rfl
  | finding process =>
      simp only [GroupRegistry.advance]
      split
      next entry found =>
        have unwaited := sparing.found top rfl found
        exact sparing.go top rfl rfl (by simpa [Activation.holds] using unwaited) (by simp [Activation.late])
      next => exact sparing.leave top rfl
  | killing entry =>
      have unwaited := sparing.held _ own entry.process (by simp [Activation.holds])
      obtain ⟨sent, same, _⟩ := sparing.send unwaited (advance_signals top allowed rfl)
      exact sent.go (same.trans top) rfl rfl (by simp [Activation.holds]) (by simp [Activation.late])
  | waiting entry =>
      obtain rfl := sparing.outermost top rfl
      simp only [GroupRegistry.advance, await]
      by_cases waited : state.waitedFor entry.process = true
      · simp only [waited, if_true]
        exact sparing.go top rfl rfl (by simp [Activation.holds]) (by simp [Activation.late])
      · cases reply with
        | done =>
            simp only [waited, Bool.false_eq_true, if_false]
            exact sparing.reaped top rfl (by simp) rfl rfl rfl rfl
        | refused =>
            simp only [waited, Bool.false_eq_true, if_false]
            exact sparing.leave top rfl
  | popping entry => exact sparing.popped top rfl (.inl rfl)
  | closing =>
      have gone : Sparing { state with activations := .listing :: below } :=
        sparing.go top rfl rfl (by simp [Activation.holds]) (by simp [Activation.late])
      exact ⟨gone.sent, gone.table, gone.held, gone.inner, gone.nested, gone.known, gone.late⟩
  | listing =>
      have clean := sparing.clean top rfl
      exact sparing.go top rfl rfl (by simpa [Activation.holds, or_imp, forall_and] using clean) (by simp [Activation.late])
  | terming entries left =>
      have unwaited := sparing.held _ own
      cases left with
      | nil => exact sparing.go top rfl rfl (by simpa [Activation.holds] using unwaited) (by simp [Activation.late])
      | cons entry left =>
          obtain ⟨sent, same, children⟩ := sparing.send (unwaited entry.process (by simp [Activation.holds]))
            (advance_signals top allowed rfl)
          refine sent.go (same.trans top) rfl rfl (fun process inside => ?_) (by simp [Activation.late])
          rw [waitedFor, children]
          exact unwaited process (by
            simp only [Activation.holds, List.map_append, List.map_cons, List.mem_append, List.mem_cons] at inside ⊢
            tauto)
  | sleeping entries => exact sparing.go top rfl rfl (fun process => sparing.held _ own process) (by simp [Activation.late])
  | finishing entries left =>
      have unwaited := sparing.held _ own
      cases left with
      | nil => exact sparing.go top rfl rfl (by simp [Activation.holds]) (by simp [Activation.late])
      | cons entry left =>
          obtain ⟨sent, same, children⟩ := sparing.send (unwaited entry.process (by simp [Activation.holds]))
            (advance_signals top allowed rfl)
          refine sent.go (same.trans top) rfl rfl (fun process inside => ?_) (by simp [Activation.late])
          rw [waitedFor, children]
          exact unwaited process (List.mem_cons_of_mem _ inside)
  | collecting left =>
      cases left with
      | nil => exact sparing.leave top rfl
      | cons entry left =>
          simp only [GroupRegistry.advance, await]
          by_cases waited : state.waitedFor entry.process = true
          · simp only [waited, if_true]
            exact sparing.go top rfl rfl (by simp [Activation.holds]) (by simp [Activation.late])
          · cases reply with
            | done =>
                simp only [waited, Bool.false_eq_true, if_false]
                have free : ∀ other ∈ below, entry.process ∉ other.holds := by
                  simpa [GroupRegistry.allowed, top, Activation.collects] using allowed
                exact sparing.reaped top rfl free rfl rfl rfl rfl
            | refused =>
                simp only [waited, Bool.false_eq_true, if_false]
                exact sparing.go top rfl rfl (by simp [Activation.holds]) (by simp [Activation.late])
  | removing entry left => exact sparing.popped top rfl (.inr ⟨left, rfl, rfl⟩)

theorem Sparing.step {event : Event} {after : GroupRegistry} (sparing : state.Sparing)
    (stepped : state.step posix event = some after) (allowed : state.allowed event = true) : after.Sparing := by
  cases event with
  | call call =>
      simp only [GroupRegistry.step] at stepped
      split at stepped
      next free =>
        obtain rfl := Option.some.inj stepped
        refine ⟨sparing.sent, fun entry member waited => ?_, ?_, by simp, by simp, sparing.known, ?_⟩
        · have removed := sparing.table entry member waited
          simp [nextRemoved, free] at removed
        · cases call <;> simp [Call.activation, Activation.holds]
        · cases call <;> simp [Call.activation, Activation.late]
      next => simp at stepped
  | advance reply =>
      simp only [GroupRegistry.step] at stepped
      split at stepped
      next => simp at stepped
      next activation below top =>
        obtain rfl := Option.some.inj stepped
        exact sparing.advance posix top allowed
  | handler =>
      simp only [GroupRegistry.step] at stepped
      split at stepped
      next => simp at stepped
      next activation below top =>
        obtain rfl := Option.some.inj stepped
        have keeps : activation.removes = none := by simpa [GroupRegistry.allowed, top] using allowed
        have clean := sparing.clean top keeps
        refine ⟨sparing.sent, fun entry member waited => ?_, ?_, ?_, ?_, sparing.known, ?_⟩
        · exact absurd waited (Bool.eq_false_iff.mp (clean entry member))
        · intro other member
          rcases List.mem_cons.mp member with rfl | there
          · simp [Activation.holds]
          · exact sparing.held other there
        · intro other member
          have inside : other ∈ activation :: below := top ▸ member
          rcases List.mem_cons.mp inside with rfl | there
          · exact keeps
          · exact sparing.inner other (by simpa [top] using there)
        · exact List.pairwise_cons.mpr ⟨fun _ _ => rfl, sparing.nested⟩
        · intro other member
          rcases List.mem_cons.mp member with rfl | there
          · simp [Activation.late]
          · exact sparing.late other there
  | exit process =>
      obtain rfl := Option.some.inj stepped
      have same : ∀ other, Option.any Waitable.waited
          (state.children.modify process fun child => { child with exited := true })[other]? = state.waitedFor other := by
        intro other
        rw [waitedFor, List.getElem?_modify]
        cases state.children[other]? with
        | none => rfl
        | some child => by_cases here : process = other <;> simp [here]
      have size : (state.children.modify process fun child => { child with exited := true }).length =
          state.children.length := List.length_modify _ _ _
      refine ⟨sparing.sent, fun entry member waited => sparing.table entry member ((same _).symm.trans waited),
        fun other member process inside => (same _).trans (sparing.held other member process inside), sparing.inner,
        sparing.nested, fun entry member => size.symm ▸ sparing.known entry member, fun other member process late => ?_⟩
      exact ⟨size.symm ▸ (sparing.late other member process late).1, (sparing.late other member process late).2⟩

/-- Along the runs whose events are all allowed, no signal is sent to a group whose leader has been waited for, and what
has been waited for leaves the table before the registry does anything else. -/
theorem signals_spare_reaped (state : GroupRegistry) (run : Run posix allowed new state) :
    (∀ signal ∈ state.sent, signal.waited = false) ∧
      ∀ entry ∈ state.entries, state.waitedFor entry.process = true →
        ∀ event after, state.step posix event = some after → state.allowed event = true →
          (∃ process, event = .exit process) ∨ (∃ reply, event = .advance reply) ∧ state.nextRemoved = some entry.process := by
  have sparing : state.Sparing := by
    induction run with
    | refl => exact ⟨by simp [new], by simp [new], by simp [new], by simp [new], by simp [new], by simp [new], by simp [new]⟩
    | tail _ stepped ih =>
        obtain ⟨event, moved, met⟩ := stepped
        exact ih.step posix moved met
  refine ⟨sparing.sent, fun entry member waited event after stepped allowed => ?_⟩
  have removed := sparing.table entry member waited
  cases event with
  | exit process => exact .inl ⟨process, rfl⟩
  | advance reply => exact .inr ⟨⟨reply, rfl⟩, removed⟩
  | call call =>
      cases top : state.activations with
      | nil => simp [nextRemoved, top] at removed
      | cons activation below => simp [GroupRegistry.step, top] at stepped
  | handler =>
      cases top : state.activations with
      | nil => simp [nextRemoved, top] at removed
      | cons activation below =>
          have keeps : activation.removes = none := by simpa [GroupRegistry.allowed, top] using allowed
          simp [nextRemoved, top, keeps] at removed

/-- Play a list of events. -/
def play (condition : GroupRegistry → Event → Bool) : List Event → GroupRegistry → Option GroupRegistry
  | [], state => some state
  | event :: rest, state =>
      if condition state event then (state.step posix event).bind (play condition rest) else none

theorem play_run {condition : GroupRegistry → Event → Bool} {after : GroupRegistry} (events : List Event)
    (played : play posix condition events state = some after) : Run posix condition state after := by
  induction events generalizing state with
  | nil =>
      obtain rfl := Option.some.inj played
      exact .refl
  | cons event rest ih =>
      simp only [play] at played
      split at played
      next met =>
        obtain ⟨middle, stepped, later⟩ := Option.bind_eq_some_iff.mp played
        exact .head ⟨event, stepped, met⟩ (ih later)
      next => simp at played

/-- A child is spawned. -/
def spawning : List Event := [.call (.spawn false), .advance .done, .advance .done, .advance .done, .advance .done]

/-- A handler interrupts the sleep of a `cancel_all`, and its own wait runs out of time. -/
theorem signals_spare_reaped_nested : ∃ state, Run true allowed new state ∧ state.sent.length = 4 ∧
    ((∀ signal ∈ state.sent, signal.waited = false) ∧
      ∀ entry ∈ state.entries, state.waitedFor entry.process = true →
        ∀ event after, state.step true event = some after → state.allowed event = true →
          (∃ process, event = .exit process) ∨
            (∃ reply, event = .advance reply) ∧ state.nextRemoved = some entry.process) := by
  have played : ∃ state, play true allowed (spawning ++ [.call .cancelAll, .advance .done, .advance .done, .advance .done,
      .handler, .advance .done, .advance .done, .advance .done, .advance .done, .advance .done, .advance .done,
      .advance .done, .advance .refused, .advance .done, .advance .done, .advance .done, .advance .done, .advance .done,
      .advance .done]) new = some state ∧ state.sent.length = 4 := ⟨_, rfl, rfl⟩
  obtain ⟨state, ran, counted⟩ := played
  exact ⟨state, play_run true _ ran, counted, signals_spare_reaped true state (play_run true _ ran)⟩

/-- A handler that runs after the wait of `kill_and_reap` finds the reaped child in the table, and signals its group. -/
theorem signals_reach_reaped : ∃ state, Run true (fun _ _ => true) new state ∧
    ⟨entryOf true 0, .term, true⟩ ∈ state.sent := by
  have played : ∃ state, play true (fun _ _ => true) (spawning ++ [.call (.killAndReap 0), .advance .done, .advance .done,
      .advance .done, .handler, .advance .done, .advance .done, .advance .done]) new = some state ∧
      ⟨entryOf true 0, .term, true⟩ ∈ state.sent := ⟨_, rfl, by decide⟩
  obtain ⟨state, ran, reached⟩ := played
  exact ⟨state, play_run true _ ran, reached⟩

end GroupRegistry

end AgentTree
