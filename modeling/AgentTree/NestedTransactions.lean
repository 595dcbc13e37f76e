import AgentTree.NestedBlocks

/-!
The threads of one store run their outermost blocks one after the other, each with the
outcome and the writes that its program has on its own.
-/

namespace AgentTree.Nested

open Sql

variable {σ ω ε ν ι : Type} [DecidableEq ι] {apply : ω → σ → σ}

/-! What the code of a thread takes for granted about its own frames. -/

/-- How often a thread has taken the lock. -/
def Thread.holds (thread : Thread σ ω ε ν) : Nat :=
  match thread.control with
  | .code _ | .undone _ => blocks thread.frames
  | _ => blocks thread.frames + 1

/-- Each open block has stored the number of blocks around it. -/
def numbered : List (Frame σ ω ε ν) → Prop
  | [] => True
  | .inside depth _ _ :: rest => depth = blocks rest ∧ numbered rest
  | _ :: rest => numbered rest

/-- The local variable `depth` of the code of `transaction`. -/
def Control.counted (control : Control σ ω ε ν) (frames : List (Frame σ ω ε ν)) : Prop :=
  match control with
  | .opening depth .. | .opened depth .. | .closing depth .. => depth = blocks frames
  | .undone _ => ∃ depth body next rest, frames = .inside (depth + 1) body next :: rest
  | _ => True

structure Thread.Orderly (thread : Thread σ ω ε ν) : Prop where
  depth : thread.depth = thread.openBlocks
  numbered : numbered thread.frames
  counted : thread.control.counted thread.frames

/-! What is left to do inside an outermost block that began on `s`. -/

/-- The program that a thread has still to run before it returns to its frames. -/
def Control.result (apply : ω → σ → σ) : Control σ ω ε ν → σ → Except ε ν × σ
  | .code p, s => p.result apply s
  | .locked immediate body next, s | .opening _ immediate body next, s | .opened _ immediate body next, s =>
      (Prog.transaction immediate body next).result apply s
  | .undone error, s => (.error error, s)
  | .closing _ outcome next, s | .unlocking outcome next, s => proceed apply next (outcome, s)
  | .fetching next, s => (Prog.fetch next).result apply s
  | .fetched row next, s => (next row).result apply s

/-- The level that a block has begun and not yet entered. -/
def Control.begun (control : Control σ ω ε ν) (current : σ) : List σ :=
  match control with
  | .opened .. => [current]
  | _ => []

/-- After `ROLLBACK TO` the database is the one that the block began on. -/
def Control.settled (control : Control σ ω ε ν) (current : σ) (levels : List σ) : Prop :=
  match control with
  | .undone _ => levels.head? = some current
  | _ => True

/-- If the control ends with the given result, then the outermost block ends as its body does alone on
`s`.  The levels hold the databases that the open blocks began on. -/
def Pending (apply : ω → σ → σ) (s : σ) : List (Frame σ ω ε ν) → List σ → Except ε ν × σ → Prop
  | .handling handler next :: rest, levels, result =>
      Pending apply s rest levels (proceed apply next (rescue apply handler result))
  | .after next :: rest, levels, result => Pending apply s rest levels (proceed apply next result)
  | .inside _ body next :: rest, before :: levels, result =>
      if blocks rest = 0 then
        levels = [] ∧ before = s ∧ settle s result = settle s (body.result apply s)
      else
        Pending apply s rest levels (proceed apply next (settle before result))
  | _, _, _ => False

/-- A thread that has the store to itself, with `s` committed. -/
inductive Thread.View (apply : ω → σ → σ) (s : σ) (thread : Thread σ ω ε ν) : Connection σ → Prop
  | outside (free : blocks thread.frames = 0) :
      View apply s thread (.within (thread.control.begun s) s)
  | inside {current : σ} {levels : List σ} (busy : 0 < blocks thread.frames)
      (settled : thread.control.settled current levels)
      (pending : Pending apply s thread.frames levels (thread.control.result apply current)) :
      View apply s thread (.within (thread.control.begun current ++ levels) current)

theorem Pending.length {s : σ} {frames : List (Frame σ ω ε ν)} {levels : List σ} {result : Except ε ν × σ}
    (busy : 0 < blocks frames) (pending : Pending apply s frames levels result) :
    levels.length = blocks frames ∧ levels.getLast? = some s := by
  induction frames generalizing levels result with
  | nil => exact absurd busy (by simp [blocks])
  | cons frame rest ih =>
      cases frame with
      | handling handler next => exact ih busy pending
      | after next => exact ih busy pending
      | inside depth body next =>
          cases levels with
          | nil => exact pending.elim
          | cons before levels =>
              simp only [Pending] at pending
              split at pending
              next outermost =>
                obtain ⟨rfl, rfl, _⟩ := pending
                simp [blocks, outermost]
              next nested =>
                obtain ⟨same, last⟩ := ih (Nat.pos_of_ne_zero nested) pending
                have some : levels ≠ [] := by
                  rintro rfl
                  exact absurd last nofun
                exact ⟨by simp [blocks, same], (Connection.getLast?_cons some).trans last⟩

/-- The innermost of several blocks. -/
theorem Pending.nested {s : σ} {depth outer : Nat} {body : Prog σ ω ε ν} {next : ν → Prog σ ω ε ν}
    {rest : List (Frame σ ω ε ν)} {levels : List σ} {result : Except ε ν × σ}
    (count : outer + 1 = blocks rest)
    (pending : Pending apply s (.inside depth body next :: rest) levels result) :
    ∃ before around, levels = before :: around ∧ around ≠ [] ∧ around.length = outer + 1 ∧
      Pending apply s rest around (proceed apply next (settle before result)) := by
  cases levels with
  | nil => exact pending.elim
  | cons before around =>
      rw [Pending, if_neg (count ▸ Nat.succ_ne_zero outer)] at pending
      obtain ⟨long, _⟩ := pending.length (count ▸ Nat.succ_pos outer)
      exact ⟨before, around, rfl, List.ne_nil_of_length_eq_add_one (long.trans count.symm),
        long.trans count.symm, pending⟩

/-- The outermost block. -/
theorem Pending.outermost {s : σ} {depth : Nat} {body : Prog σ ω ε ν} {next : ν → Prog σ ω ε ν}
    {rest : List (Frame σ ω ε ν)} {levels : List σ} {result : Except ε ν × σ} (count : 0 = blocks rest)
    (pending : Pending apply s (.inside depth body next :: rest) levels result) :
    levels = [s] ∧ settle s result = settle s (body.result apply s) := by
  cases levels with
  | nil => exact pending.elim
  | cons before around =>
      rw [Pending, if_pos count.symm] at pending
      obtain ⟨rfl, rfl, same⟩ := pending
      exact ⟨rfl, same⟩

/-! Steps without the connection. -/

section Compute

variable {s : σ} {thread after : Thread σ ω ε ν} {connection : Connection σ}

theorem Thread.View.idle (free : blocks thread.frames = 0) (unbegun : thread.control.begun s = []) :
    thread.View apply s (.idle s) := by
  have view : thread.View apply s (.within (thread.control.begun s) s) := .outside free
  rw [unbegun] at view
  exact view

theorem Thread.Move.orderly {action : Action σ ω ε ν} (move : thread.Move action after)
    (orderly : thread.Orderly) : after.Orderly := by
  obtain ⟨depth, numbers, counted⟩ := orderly
  cases move with
  | call => exact ⟨depth, numbers, trivial⟩
  | attempt => exact ⟨depth, numbers, trivial⟩
  | attempted => exact ⟨depth, numbers, trivial⟩
  | handle => exact ⟨depth, numbers, trivial⟩
  | handled => exact ⟨depth, numbers, trivial⟩
  | takeLock => exact ⟨depth, numbers, trivial⟩
  | readDepth => exact ⟨depth, numbers, depth⟩
  | begin => exact ⟨depth, numbers, counted⟩
  | savepoint => exact ⟨depth, numbers, counted⟩
  | enter => exact ⟨congrArg Nat.succ counted, ⟨counted, numbers⟩, trivial⟩
  | write => exact ⟨depth, numbers, trivial⟩
  | commit => exact ⟨depth, numbers.2, numbers.1⟩
  | keep => exact ⟨depth, numbers.2, numbers.1⟩
  | rollback => exact ⟨depth, numbers.2, numbers.1⟩
  | undo => exact ⟨depth, numbers, ⟨_, _, _, _, rfl⟩⟩
  | drop => exact ⟨depth, numbers.2, numbers.1⟩
  | resetDepth => exact ⟨counted, numbers, trivial⟩
  | giveLock => exact ⟨depth, numbers, trivial⟩
  | lockFetch => exact ⟨depth, numbers, trivial⟩
  | fetch => exact ⟨depth, numbers, trivial⟩
  | unlockFetch => exact ⟨depth, numbers, trivial⟩

/-- How often an action takes the lock, and how often it gives it back. -/
def Action.takes : Action σ ω ε ν → Nat
  | .acquire => 1
  | _ => 0

def Action.gives : Action σ ω ε ν → Nat
  | .release => 1
  | _ => 0

/-- An action on the connection. -/
def Action.connected : Action σ ω ε ν → Bool
  | .sql _ | .finish .. | .fetch _ => true
  | _ => false

theorem Thread.Move.holds {action : Action σ ω ε ν} (move : thread.Move action after) :
    after.holds + action.gives = thread.holds + action.takes := by
  cases move <;> rfl

/-- Only the thread that has the lock uses the connection. -/
theorem Thread.Move.locked {action : Action σ ω ε ν} (move : thread.Move action after)
    (connected : action.connected = true) : 0 < thread.holds := by
  cases move with
  | write handed => exact handed
  | begin | savepoint | commit | keep | rollback | undo | drop | fetch => exact Nat.succ_pos _
  | _ => exact absurd connected nofun

/-- What the thread sees and has still to do is the same after a step without the connection. -/
theorem Thread.Move.view_quiet {action : Action σ ω ε ν} (move : thread.Move action after)
    (quiet : action.connected = false) (orderly : thread.Orderly)
    (view : thread.View apply s connection) : after.View apply s connection := by
  cases view with
  | outside free =>
      cases move with
      | enter =>
          refine .inside (Nat.succ_pos _) trivial ?_
          rw [Pending, if_pos free]
          exact ⟨rfl, rfl, rfl⟩
      | write | begin | savepoint | commit | keep | rollback | undo | drop | fetch =>
          exact absurd quiet nofun
      | _ => exact .outside free
  | inside busy settled pending =>
      cases move with
      | call => exact absurd busy nofun
      | attempt =>
          refine .inside busy trivial ?_
          rw [Control.result, Prog.result_attempt] at pending
          exact pending
      | handled =>
          refine .inside busy trivial ?_
          rw [Control.result, Prog.result_ended, Pending] at pending
          rw [Control.result, Prog.result_resume]
          exact pending
      | enter =>
          refine .inside (Nat.succ_pos _) trivial ?_
          rw [Control.result, Prog.result_transaction] at pending
          rw [Pending, if_neg (Nat.pos_iff_ne_zero.mp busy)]
          exact pending
      | giveLock =>
          refine .inside busy trivial ?_
          rw [Control.result, Prog.result_resume]
          exact pending
      | write | begin | savepoint | commit | keep | rollback | undo | drop | fetch =>
          exact absurd quiet nofun
      | _ => exact .inside busy trivial pending

/-- A row that a thread fetches; without open blocks it is a committed one. -/
theorem Thread.Move.view_fetch {row : σ} (move : thread.Move (.fetch row) after)
    (view : thread.View apply s connection) (read : row = connection.current) :
    after.View apply s connection ∧ (thread.openBlocks = 0 → row = s) := by
  cases move with
  | fetch =>
      cases view with
      | outside free => exact ⟨.outside free, fun _ => read⟩
      | inside busy settled pending =>
          subst read
          exact ⟨.inside busy trivial pending, fun free => absurd free (Nat.pos_iff_ne_zero.mp busy)⟩

/-- A statement in the middle of an outermost block. -/
theorem Thread.Move.view_sql {statement : Statement ω} (move : thread.Move (.sql statement) after)
    (orderly : thread.Orderly) (view : thread.View apply s connection) :
    ∃ changed, connection.execute apply statement = .ok changed ∧ after.View apply s changed := by
  obtain ⟨depth, numbers, counted⟩ := orderly
  cases view with
  | outside free =>
      cases move with
      | write handed => exact absurd free (Nat.pos_iff_ne_zero.mp handed)
      | begin => exact ⟨_, Connection.execute_begin, .outside free⟩
      | savepoint => exact absurd (counted.trans free) nofun
      | keep | undo | drop => exact absurd free nofun
  | @inside current levels busy settled pending =>
      obtain ⟨long, last⟩ := pending.length busy
      cases move with
      | write handed => exact ⟨_, Connection.execute_write, .inside busy trivial pending⟩
      | begin => exact absurd counted.symm (Nat.pos_iff_ne_zero.mp busy)
      | savepoint =>
          have nested : levels ≠ [] := List.ne_nil_of_length_pos (long ▸ busy)
          have name : Connection.savepointName levels.length = _ := congrArg _ (long.trans counted.symm)
          refine ⟨_, name ▸ Connection.execute_savepoint nested, .inside busy trivial pending⟩
      | keep =>
          obtain ⟨before, around, rfl, some, deep, pending⟩ := pending.nested numbers.1
          exact ⟨_, deep ▸ Connection.execute_release some, .inside (numbers.1 ▸ Nat.succ_pos _) trivial pending⟩
      | undo =>
          obtain ⟨before, around, rfl, some, deep, _⟩ := pending.nested numbers.1
          have undone : ∀ error : ε, Control.settled (.undone error : Control σ ω ε ν) before
              (before :: around) := fun _ => rfl
          refine ⟨_, deep ▸ Connection.execute_rollbackTo some, .inside busy (undone _) ?_⟩
          rw [Pending, if_neg (numbers.1 ▸ Nat.succ_ne_zero _)] at pending ⊢
          exact pending
      | drop =>
          obtain ⟨before, around, rfl, some, deep, pending⟩ := pending.nested numbers.1
          obtain rfl : before = current := Option.some.inj settled
          exact ⟨_, deep ▸ Connection.execute_release some, .inside (numbers.1 ▸ Nat.succ_pos _) trivial pending⟩

/-- The statement that ends an outermost block commits its writes, or takes them back. -/
theorem Thread.Move.view_finish {statement : Statement ω} {body : Prog σ ω ε ν} {outcome : Except ε ν}
    (move : thread.Move (.finish statement body outcome) after) (orderly : thread.Orderly)
    (view : thread.View apply s connection) :
    ∃ changed kept, connection.execute apply statement = .ok changed ∧
      (outcome, kept) = settle s (body.result apply s) ∧ after.View apply kept changed := by
  obtain ⟨depth, numbers, counted⟩ := orderly
  cases view with
  | outside free =>
      cases move with
      | commit | rollback => exact absurd free nofun
  | @inside current levels busy settled pending =>
      cases move with
      | commit =>
          obtain ⟨rfl, same⟩ := pending.outermost numbers.1
          exact ⟨_, _, Connection.execute_commit, same, .outside numbers.1.symm⟩
      | rollback =>
          obtain ⟨rfl, same⟩ := pending.outermost numbers.1
          exact ⟨_, _, Connection.execute_rollback, same, .outside numbers.1.symm⟩

end Compute

/-! Steps of the shared store. -/

/-- The invariant of the store, with `s` committed. -/
structure Shared.Sound (apply : ω → σ → σ) (s : σ) (c : Shared σ ω ε ν ι) : Prop where
  committed : c.connection.committed = s
  orderly : ∀ t, (c.threads t).Orderly
  holds : ∀ t, (c.threads t).holds = RLock.heldBy t c.lock
  view : ∀ t, (∀ u, u ≠ t → RLock.heldBy u c.lock = 0) → (c.threads t).View apply s c.connection

theorem Shared.Sound.start (s : σ) (value : ν) :
    (Shared.start s value : Shared σ ω ε ν ι).Sound apply s :=
  ⟨rfl, fun _ => ⟨rfl, trivial, trivial⟩, fun _ => rfl, fun _ _ => .outside rfl⟩


section Shared

variable {s : σ} {c d : Shared σ ω ε ν ι} {t : ι} {after : Thread σ ω ε ν}

/-- The thread that has the lock has the store to itself. -/
theorem Shared.Sound.alone (sound : c.Sound apply s) (held : 0 < (c.threads t).holds) :
    ∀ u, u ≠ t → RLock.heldBy u c.lock = 0 :=
  fun _ other => RLock.heldBy_other (sound.holds t ▸ held) other

/-- A thread without the lock sees the committed database. -/
theorem Thread.View.waiting {thread : Thread σ ω ε ν} {connection : Connection σ}
    (view : thread.View apply s connection) (free : thread.holds = 0) : connection = .idle s := by
  obtain ⟨control, frames, depth⟩ := thread
  cases view with
  | outside =>
      cases control with
      | code | undone => rfl
      | _ => exact absurd free nofun
  | inside busy =>
      cases control with
      | code | undone => exact absurd free (Nat.pos_iff_ne_zero.mp busy)
      | _ => exact absurd free nofun

theorem Thread.View.of_waiting {thread : Thread σ ω ε ν} (free : thread.holds = 0) :
    thread.View apply s (.idle s) := by
  obtain ⟨control, frames, depth⟩ := thread
  cases control with
  | code | undone => exact .outside free
  | _ => exact absurd free nofun

theorem Thread.View.committed {thread : Thread σ ω ε ν} {connection : Connection σ}
    (view : thread.View apply s connection) : connection.committed = s := by
  obtain ⟨control, frames, depth⟩ := thread
  cases view with
  | outside => cases control <;> rfl
  | @inside current levels busy settled pending =>
      obtain ⟨_, last⟩ := pending.length busy
      cases control with
      | opened =>
          have nested : levels ≠ [] := by
            rintro rfl
            exact absurd last nofun
          exact Connection.committed_within ((Connection.getLast?_cons nested).trans last)
      | _ => exact Connection.committed_within last

theorem Thread.openBlocks_le_holds (thread : Thread σ ω ε ν) : thread.openBlocks ≤ thread.holds := by
  obtain ⟨control, frames, depth⟩ := thread
  cases control with
  | closing | code | undone => exact Nat.le_refl _
  | _ => exact Nat.le_succ _

/-- The invariant after a step of one thread, from what holds of that thread. -/
theorem Shared.Sound.moved {kept : σ} {action : Action σ ω ε ν} {lock : RLock ι}
    {connection : Connection σ} (sound : c.Sound apply s) (move : (c.threads t).Move action after)
    (locked : RLock.heldBy t lock + action.gives = RLock.heldBy t c.lock + action.takes)
    (others : ∀ u, u ≠ t → RLock.heldBy u lock = RLock.heldBy u c.lock)
    (view : (∀ u, u ≠ t → RLock.heldBy u c.lock = 0) → after.View apply kept connection)
    (unlocked : RLock.heldBy t c.lock = 0 → c.connection = connection ∧ s = kept) :
    ({ c.put t after with lock, connection } : Shared σ ω ε ν ι).Sound apply kept := by
  have counted : after.holds = RLock.heldBy t lock := by
    have balance := move.holds
    have before := sound.holds t
    omega
  constructor
  · by_cases held : RLock.heldBy t c.lock = 0
    · obtain ⟨rfl, rfl⟩ := unlocked held
      exact sound.committed
    · exact (view fun v other => RLock.heldBy_other (Nat.pos_of_ne_zero held) other).committed
  · intro u
    by_cases same : u = t
    · subst same
      simpa [Shared.put] using move.orderly (sound.orderly u)
    · simpa [Shared.put, same] using sound.orderly u
  · intro u
    by_cases same : u = t
    · subst same
      simpa [Shared.put] using counted
    · simpa [Shared.put, same, others u same] using sound.holds u
  · intro u alone
    by_cases same : u = t
    · subst same
      simpa [Shared.put] using view fun v other => others v other ▸ alone v other
    · have quiet : ∀ v, v ≠ u → v ≠ t → RLock.heldBy v c.lock = 0 :=
        fun v other distinct => others v distinct ▸ alone v other
      simp only [Shared.put, Function.update_of_ne same]
      by_cases held : RLock.heldBy t c.lock = 0
      · obtain ⟨rfl, rfl⟩ := unlocked held
        refine sound.view u fun v other => ?_
        by_cases mover : v = t
        · exact mover ▸ held
        · exact quiet v other mover
      · -- The step gave the lock back, so that the others see what it has left.
        have only : ∀ v, v ≠ t → RLock.heldBy v c.lock = 0 := fun v other =>
          RLock.heldBy_other (Nat.pos_of_ne_zero held) other
        have free : after.holds = 0 := counted.trans (alone t (Ne.symm same))
        rw [(view only).waiting free]
        exact .of_waiting ((sound.holds u).trans (only u same))

/-- One step of the store, and what the events in it say about the committed database. -/
theorem Shared.Sound.step {event : Option (Event σ ω ε ν ι)} (sound : c.Sound apply s)
    (step : c.Step apply event d) :
    ∃ kept, (match event with
      | some event => event.Moves apply s kept
      | none => kept = s) ∧ d.Sound apply kept := by
  cases step with
  | compute moved =>
      exact ⟨s, rfl, sound.moved moved rfl (fun _ _ => rfl)
        (fun alone => moved.view_quiet rfl (sound.orderly _) (sound.view _ alone)) fun _ => ⟨rfl, rfl⟩⟩
  | acquire moved acquired =>
      obtain ⟨once, others⟩ := RLock.acquire_heldBy acquired
      refine ⟨s, rfl, sound.moved moved once (fun u other => ?_)
        (fun alone => moved.view_quiet rfl (sound.orderly _) (sound.view _ alone)) fun _ => ⟨rfl, rfl⟩⟩
      rw [(others u other).1, (others u other).2]
  | release moved released =>
      obtain ⟨once, others⟩ := RLock.release_heldBy released
      refine ⟨s, rfl, sound.moved moved once.symm (fun u other => ?_)
        (fun alone => moved.view_quiet rfl (sound.orderly _) (sound.view _ alone)) fun _ => ⟨rfl, rfl⟩⟩
      rw [(others u other).1, (others u other).2]
  | @sql t after statement connection moved executed =>
      have held := moved.locked rfl
      obtain ⟨changed, ran, view⟩ := moved.view_sql (sound.orderly t) (sound.view t (sound.alone held))
      obtain rfl := Except.ok.inj (executed.symm.trans ran)
      exact ⟨s, rfl, sound.moved moved rfl (fun _ _ => rfl) (fun _ => view)
        fun free => absurd free (Nat.pos_iff_ne_zero.mp (sound.holds t ▸ held))⟩
  | @finish t after statement body outcome connection moved executed =>
      have held := moved.locked rfl
      obtain ⟨changed, kept, ran, ends, view⟩ :=
        moved.view_finish (sound.orderly t) (sound.view t (sound.alone held))
      obtain rfl := Except.ok.inj (executed.symm.trans ran)
      have whole : (Prog.transaction true body .ret).result apply s = (outcome, kept) := by
        rw [Prog.result_transaction, ← ends]
        cases outcome <;> rfl
      obtain ⟨same, left⟩ := Prod.mk.inj whole
      exact ⟨kept, ⟨same, left.symm⟩, sound.moved moved rfl (fun _ _ => rfl) (fun _ => view)
        fun free => absurd free (Nat.pos_iff_ne_zero.mp (sound.holds t ▸ held))⟩
  | @fetch t after moved =>
      have held := moved.locked rfl
      obtain ⟨view, seen⟩ := moved.view_fetch (sound.view t (sound.alone held)) rfl
      have still := sound.moved moved rfl (fun _ _ => rfl) (fun _ => view) fun _ => ⟨rfl, rfl⟩
      by_cases outside : (c.threads t).openBlocks = 0
      · rw [if_pos outside]
        exact ⟨s, ⟨seen outside, rfl⟩, still⟩
      · rw [if_neg outside]
        exact ⟨s, rfl, still⟩

theorem Shared.Run.sound {start : Shared σ ω ε ν ι} {events : List (Event σ ω ε ν ι)}
    (run : Shared.Run apply start events c) (first : start.Sound apply s) :
    ∃ kept, Serial apply s events kept ∧ c.Sound apply kept := by
  induction run with
  | start => exact ⟨s, .start, first⟩
  | @step events event c d run step ih =>
      obtain ⟨kept, serial, sound⟩ := ih
      obtain ⟨later, moves, still⟩ := sound.step step
      cases event with
      | none =>
          obtain rfl : later = kept := moves
          exact ⟨later, by simpa using serial, still⟩
      | some event => exact ⟨later, .step serial moves, still⟩

/-- No transaction is open when a block is about to issue `BEGIN`. -/
theorem Thread.Move.begin_idle {thread : Thread σ ω ε ν} {connection : Connection σ} {immediate : Bool}
    (move : thread.Move (.sql (.begin immediate)) after) (orderly : thread.Orderly)
    (view : thread.View apply s connection) : connection.isOpen = false := by
  have counted := orderly.counted
  cases move with
  | begin =>
      cases view with
      | outside => rfl
      | inside busy => exact absurd counted.symm (Nat.pos_iff_ne_zero.mp busy)

end Shared

/-- Any number of threads run any programs on one store.  Seen from outside, their outermost blocks and
fetches happen at once, in one order, and the database holds what the blocks that ended normally wrote. -/
theorem nested_transactions_atomic (apply : ω → σ → σ) (s : σ) (value : ν)
    (events : List (Event σ ω ε ν ι)) (c : Shared σ ω ε ν ι)
    (run : Shared.Run apply (.start s value) events c) :
    Serial apply s events c.connection.committed ∧
      (∀ t, (c.threads t).depth = (c.threads t).openBlocks) ∧
      (∀ t u, 0 < (c.threads t).openBlocks → 0 < (c.threads u).openBlocks → t = u) ∧
      (∀ t row after, (c.threads t).Move (.fetch row) after → ∀ u, u ≠ t → (c.threads u).openBlocks = 0) ∧
      (∀ t immediate after, (c.threads t).Move (.sql (.begin immediate)) after →
        c.connection.isOpen = false) ∧
      (∀ t statement after, (c.threads t).Move (.sql statement) after →
        ∃ changed, c.connection.execute apply statement = .ok changed) ∧
      ∀ t statement body outcome after, (c.threads t).Move (.finish statement body outcome) after →
        ∃ changed, c.connection.execute apply statement = .ok changed := by
  obtain ⟨kept, serial, sound⟩ := run.sound (.start s value)
  have alone : ∀ t, 0 < (c.threads t).holds → ∀ u, u ≠ t → (c.threads u).openBlocks = 0 := by
    intro t held u other
    have free : (c.threads u).holds = 0 := (sound.holds u).trans (sound.alone held u other)
    exact Nat.le_zero.mp (free ▸ (c.threads u).openBlocks_le_holds)
  refine ⟨sound.committed ▸ serial, fun t => (sound.orderly t).depth, ?_, ?_, ?_, ?_, ?_⟩
  · intro t u busy other
    by_contra distinct
    have held : 0 < (c.threads t).holds := Nat.lt_of_lt_of_le busy (c.threads t).openBlocks_le_holds
    have none := alone t held u (Ne.symm distinct)
    omega
  · intro t row after moved
    exact alone t (moved.locked rfl)
  · intro t immediate after moved
    exact moved.begin_idle (sound.orderly t) (sound.view t (sound.alone (moved.locked rfl)))
  · intro t statement after moved
    have view := sound.view t (sound.alone (moved.locked rfl))
    obtain ⟨changed, executed, _⟩ := moved.view_sql (sound.orderly t) view
    exact ⟨changed, executed⟩
  · intro t statement body outcome after moved
    have view := sound.view t (sound.alone (moved.locked rfl))
    obtain ⟨changed, _, executed, _⟩ := moved.view_finish (sound.orderly t) view
    exact ⟨changed, executed⟩

/-! One thread keeps a write and takes back a nested one before another thread reads. -/

namespace Savepoint

abbrev P := Prog (List Nat) Nat Unit Unit

def append (n : Nat) (s : List Nat) : List Nat := s ++ [n]

def dropped : P := .write 2 (.raise ())

def body : P := .write 1 (.attempt (.transaction true dropped .ret) (fun _ => .ret ()) .ret)

def writer : P := .transaction true body .ret

def reader : P := .fetch fun _ => .ret ()

abbrev S := Shared (List Nat) Nat Unit Unit Bool

theorem ran : ∃ c : S, Shared.Run append (.start [] ()) [.ended true body (.ok ()), .fetched false [1]] c ∧
    c.connection.committed = [1] := by
  have r0 : Shared.Run append (.start [] () : S) [] (.start [] ()) := .start
  have r1 := r0.step (.compute (t := true) (@Thread.Move.call _ _ _ _ (.ok ()) writer 0))
  have r2 := r1.step (.acquire (t := true) .takeLock rfl)
  have r3 := r2.step (.compute (t := true) .readDepth)
  have r4 := r3.step (.sql (t := true) .begin rfl)
  have r5 := r4.step (.compute (t := true) .enter)
  have r6 := r5.step (.sql (t := true) (.write (by decide)) rfl)
  have r7 := r6.step (.compute (t := true) .attempt)
  have r8 := r7.step (.acquire (t := true) .takeLock rfl)
  have r9 := r8.step (.compute (t := true) .readDepth)
  have r10 := r9.step (.sql (t := true) .savepoint rfl)
  have r11 := r10.step (.compute (t := true) .enter)
  have r12 := r11.step (.sql (t := true) (.write (by decide)) rfl)
  have r13 := r12.step (.sql (t := true) .undo rfl)
  have r14 := r13.step (.sql (t := true) .drop rfl)
  have r15 := r14.step (.compute (t := true) .resetDepth)
  have r16 := r15.step (.release (t := true) .giveLock rfl)
  have r17 := r16.step (.compute (t := true) .handle)
  have r18 := r17.step (.compute (t := true) (@Thread.Move.handled _ _ _ _ (.ok ()) _ _ _))
  have r19 := r18.step (.finish (t := true) .commit rfl)
  have r20 := r19.step (.compute (t := true) .resetDepth)
  have r21 := r20.step (.release (t := true) .giveLock rfl)
  have r22 := r21.step (.compute (t := false) (@Thread.Move.call _ _ _ _ (.ok ()) reader 0))
  have r23 := r22.step (.acquire (t := false) .lockFetch rfl)
  have r24 := r23.step (.fetch (t := false) .fetch)
  exact ⟨_, r24, rfl⟩

end Savepoint

open Savepoint in
theorem nested_transactions_atomic_savepoint : ∃ c : S, Serial append []
    [.ended true body (.ok ()), .fetched false [1]] c.connection.committed ∧ c.connection.committed = [1] := by
  obtain ⟨c, run, one⟩ := ran
  exact ⟨c, (nested_transactions_atomic append [] () _ c run).1, one⟩

end AgentTree.Nested
