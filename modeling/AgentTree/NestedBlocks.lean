import AgentTree.SqlConnection

/-!
Programs of writes, reads, exceptions and nested `transaction()` blocks, and the
steps that threads take when they run them on one `SQLiteStore`.
-/

namespace AgentTree.Nested

open Sql

/-! Programs.  A write is one SQL statement, a fetch goes through `_fetchone` or `_fetchall`. -/

inductive Prog (σ ω ε ν : Type) : Type
  | ret (value : ν)
  | raise (error : ε)
  | write (w : ω) (next : Prog σ ω ε ν)
  | fetch (next : σ → Prog σ ω ε ν)
  | transaction (immediate : Bool) (body : Prog σ ω ε ν) (next : ν → Prog σ ω ε ν)
  | attempt (body : Prog σ ω ε ν) (handler : ε → Prog σ ω ε ν) (next : ν → Prog σ ω ε ν)

section Meaning

variable {σ ω ε ν : Type}

def applyAll (apply : ω → σ → σ) (writes : List ω) (s : σ) : σ := writes.foldl (fun s w => apply w s) s

theorem applyAll_append {apply : ω → σ → σ} {first later : List ω} {s : σ} :
    applyAll apply (first ++ later) s = applyAll apply later (applyAll apply first s) :=
  List.foldl_append

/-- A write, and for each block around it whether the block ended normally, outermost first. -/
abbrev Written (ω : Type) := ω × List Bool

/-- The writes of the blocks that ended normally together with all blocks around them. -/
def kept (writes : List (Written ω)) : List ω := (writes.filter fun w => w.2.all id).map Prod.fst

/-- The writes in a block, once it is known how the block ended. -/
def closed (normally : Bool) (writes : List (Written ω)) : List (Written ω) :=
  writes.map fun w => (w.1, normally :: w.2)

@[simp] theorem kept_nil : kept ([] : List (Written ω)) = [] := rfl

theorem kept_append {first later : List (Written ω)} : kept (first ++ later) = kept first ++ kept later := by
  simp [kept]

@[simp] theorem kept_normal {writes : List (Written ω)} : kept (closed true writes) = kept writes := by
  simp [kept, closed, List.filter_map, Function.comp_def]

@[simp] theorem kept_raised {writes : List (Written ω)} : kept (closed false writes) = [] := by
  simp [kept, closed, List.filter_map, Function.comp_def]

namespace Prog

/-- How a program ends when nothing else runs, and all its writes. -/
def trace (apply : ω → σ → σ) : Prog σ ω ε ν → σ → Except ε ν × List (Written ω)
  | ret value, _ => (.ok value, [])
  | raise error, _ => (.error error, [])
  | write w next, s =>
      let rest := next.trace apply (apply w s)
      (rest.1, (w, []) :: rest.2)
  | fetch next, s => (next s).trace apply s
  | transaction _ body next, s =>
      match body.trace apply s with
      | (.ok value, writes) =>
          let rest := (next value).trace apply (applyAll apply (kept writes) s)
          (rest.1, closed true writes ++ rest.2)
      | (.error error, writes) => (.error error, closed false writes)
  | attempt body handler next, s =>
      match body.trace apply s with
      | (.ok value, writes) =>
          let rest := (next value).trace apply (applyAll apply (kept writes) s)
          (rest.1, writes ++ rest.2)
      | (.error error, writes) =>
          match (handler error).trace apply (applyAll apply (kept writes) s) with
          | (.ok value, more) =>
              let rest := (next value).trace apply (applyAll apply (kept (writes ++ more)) s)
              (rest.1, writes ++ more ++ rest.2)
          | (.error other, more) => (.error other, writes ++ more)

/-- How a program ends, and the database that it leaves. -/
def result (apply : ω → σ → σ) (p : Prog σ ω ε ν) (s : σ) : Except ε ν × σ :=
  ((p.trace apply s).1, applyAll apply (kept (p.trace apply s).2) s)

end Prog

/-- The block that began on `before` ends. -/
def settle (before : σ) : Except ε ν × σ → Except ε ν × σ
  | (.ok value, s) => (.ok value, s)
  | (.error error, _) => (.error error, before)

def rescue (apply : ω → σ → σ) (handler : ε → Prog σ ω ε ν) : Except ε ν × σ → Except ε ν × σ
  | (.ok value, s) => (.ok value, s)
  | (.error error, s) => (handler error).result apply s

def proceed (apply : ω → σ → σ) (next : ν → Prog σ ω ε ν) : Except ε ν × σ → Except ε ν × σ
  | (.ok value, s) => (next value).result apply s
  | (.error error, s) => (.error error, s)

namespace Prog

/-- Nothing is left to run. -/
def ended : Except ε ν → Prog σ ω ε ν
  | .ok value => ret value
  | .error error => raise error

/-- What runs after a statement has ended. -/
def resume (outcome : Except ε ν) (next : ν → Prog σ ω ε ν) : Prog σ ω ε ν :=
  match outcome with
  | .ok value => next value
  | .error error => raise error

variable {apply : ω → σ → σ} {s : σ}

@[simp] theorem result_ended {outcome : Except ε ν} :
    (ended outcome : Prog σ ω ε ν).result apply s = (outcome, s) := by
  cases outcome <;> rfl

@[simp] theorem result_resume {outcome : Except ε ν} {next : ν → Prog σ ω ε ν} :
    (resume outcome next).result apply s = proceed apply next (outcome, s) := by
  cases outcome <;> rfl

@[simp] theorem result_ret {value : ν} : (ret value : Prog σ ω ε ν).result apply s = (.ok value, s) := rfl

@[simp] theorem result_raise {error : ε} :
    (raise error : Prog σ ω ε ν).result apply s = (.error error, s) := rfl

@[simp] theorem result_write {w : ω} {next : Prog σ ω ε ν} :
    (write w next).result apply s = next.result apply (apply w s) := rfl

@[simp] theorem result_fetch {next : σ → Prog σ ω ε ν} :
    (fetch next).result apply s = (next s).result apply s := rfl

@[simp] theorem result_transaction {immediate : Bool} {body : Prog σ ω ε ν} {next : ν → Prog σ ω ε ν} :
    (transaction immediate body next).result apply s =
      proceed apply next (settle s (body.result apply s)) := by
  simp only [result, trace]
  cases body.trace apply s with
  | mk outcome writes =>
      cases outcome with
      | ok value => simp only [settle, proceed, result, kept_append, kept_normal, applyAll_append]
      | error error => simp only [settle, proceed, kept_raised, applyAll, List.foldl_nil]

@[simp] theorem result_attempt {body : Prog σ ω ε ν} {handler : ε → Prog σ ω ε ν}
    {next : ν → Prog σ ω ε ν} : (attempt body handler next).result apply s =
      proceed apply next (rescue apply handler (body.result apply s)) := by
  simp only [result, trace]
  cases body.trace apply s with
  | mk outcome writes =>
      cases outcome with
      | ok value => simp only [rescue, proceed, result, kept_append, applyAll_append]
      | error error =>
          simp only [rescue, result]
          cases (handler error).trace apply (applyAll apply (kept writes) s) with
          | mk second more =>
              cases second <;> simp only [proceed, result, kept_append, applyAll_append]

end Prog

end Meaning

/-! The re-entrant lock: its owner, and how often more than once it has been taken. -/

abbrev RLock (ι : Type) := Option (ι × Nat)

namespace RLock

variable {ι : Type} [DecidableEq ι] {t u : ι} {lock after : RLock ι}

def heldBy (t : ι) : RLock ι → Nat
  | some (owner, more) => if owner = t then more + 1 else 0
  | none => 0

/-- None while another thread owns the lock. -/
def acquire (t : ι) : RLock ι → Option (RLock ι)
  | none => some (some (t, 0))
  | some (owner, more) => if owner = t then some (some (t, more + 1)) else none

def release (t : ι) : RLock ι → Option (RLock ι)
  | none => none
  | some (owner, more) =>
      if owner = t then
        match more with
        | 0 => some none
        | less + 1 => some (some (t, less))
      else none

theorem heldBy_other (held : 0 < heldBy t lock) (other : u ≠ t) : heldBy u lock = 0 := by
  cases lock with
  | none => rfl
  | some pair =>
      obtain ⟨owner, more⟩ := pair
      simp only [heldBy] at held ⊢
      split at held
      next same => rw [if_neg (same ▸ other.symm)]
      next => omega

theorem acquire_heldBy (acquired : acquire t lock = some after) :
    heldBy t after = heldBy t lock + 1 ∧ ∀ u, u ≠ t → heldBy u lock = 0 ∧ heldBy u after = 0 := by
  cases lock with
  | none =>
      obtain rfl := Option.some.inj acquired
      exact ⟨by simp [heldBy], fun u other => ⟨rfl, by simp [heldBy, other.symm]⟩⟩
  | some pair =>
      obtain ⟨owner, more⟩ := pair
      simp only [acquire] at acquired
      split at acquired
      next same =>
        obtain rfl := Option.some.inj acquired
        subst same
        exact ⟨by simp [heldBy], fun u other => by simp [heldBy, other.symm]⟩
      next => exact absurd acquired nofun

theorem release_heldBy (released : release t lock = some after) :
    heldBy t lock = heldBy t after + 1 ∧ ∀ u, u ≠ t → heldBy u lock = 0 ∧ heldBy u after = 0 := by
  cases lock with
  | none => exact absurd released nofun
  | some pair =>
      obtain ⟨owner, more⟩ := pair
      simp only [release] at released
      split at released
      next same =>
        subst same
        cases more with
        | zero =>
            obtain rfl := Option.some.inj released
            exact ⟨by simp [heldBy], fun u other => by simp [heldBy, other.symm]⟩
        | succ less =>
            obtain rfl := Option.some.inj released
            exact ⟨by simp [heldBy], fun u other => by simp [heldBy, other.symm]⟩
      next => exact absurd released nofun

end RLock

/-! Threads. -/

/-- What a thread returns to: a `try`, the code after one, or an open block with its `depth`. -/
inductive Frame (σ ω ε ν : Type) : Type
  | handling (handler : ε → Prog σ ω ε ν) (next : ν → Prog σ ω ε ν)
  | after (next : ν → Prog σ ω ε ν)
  | inside (depth : Nat) (body : Prog σ ω ε ν) (next : ν → Prog σ ω ε ν)

/-- Where a thread is in its program, or in the code of `transaction` or of a fetch. -/
inductive Control (σ ω ε ν : Type) : Type
  | code (p : Prog σ ω ε ν)
  | locked (immediate : Bool) (body : Prog σ ω ε ν) (next : ν → Prog σ ω ε ν)
  | opening (depth : Nat) (immediate : Bool) (body : Prog σ ω ε ν) (next : ν → Prog σ ω ε ν)
  | opened (depth : Nat) (immediate : Bool) (body : Prog σ ω ε ν) (next : ν → Prog σ ω ε ν)
  | undone (error : ε)
  | closing (depth : Nat) (outcome : Except ε ν) (next : ν → Prog σ ω ε ν)
  | unlocking (outcome : Except ε ν) (next : ν → Prog σ ω ε ν)
  | fetching (next : σ → Prog σ ω ε ν)
  | fetched (row : σ) (next : σ → Prog σ ω ε ν)

/-- A thread, with its `_local.transaction_depth`. -/
structure Thread (σ ω ε ν : Type) where
  control : Control σ ω ε ν
  frames : List (Frame σ ω ε ν)
  depth : Nat

/-- What other threads may notice: an outermost block has ended, or a thread without open blocks has
fetched. -/
inductive Event (σ ω ε ν ι : Type) : Type
  | ended (thread : ι) (body : Prog σ ω ε ν) (outcome : Except ε ν)
  | fetched (thread : ι) (seen : σ)

section Steps

variable {σ ω ε ν ι : Type} [DecidableEq ι]

/-- The `with` statements whose block has begun and not ended. -/
def blocks : List (Frame σ ω ε ν) → Nat
  | [] => 0
  | .inside .. :: rest => blocks rest + 1
  | _ :: rest => blocks rest

/-- A block is open until its `finally` has run. -/
def Thread.openBlocks (thread : Thread σ ω ε ν) : Nat :=
  match thread.control with
  | .closing .. => blocks thread.frames + 1
  | _ => blocks thread.frames

/-- What a step of a thread needs of the store. -/
inductive Action (σ ω ε ν : Type) : Type
  | compute
  | acquire
  | release
  | sql (statement : Statement ω)
  /-- The statement that ends an outermost block. -/
  | finish (statement : Statement ω) (body : Prog σ ω ε ν) (outcome : Except ε ν)
  | fetch (row : σ)

namespace Thread

/-- The code of `transaction`, of a fetch, and of the program around them. -/
inductive Move : Thread σ ω ε ν → Action σ ω ε ν → Thread σ ω ε ν → Prop
  -- A thread that has nothing left to do is given a program.
  | call {outcome : Except ε ν} {p : Prog σ ω ε ν} {depth : Nat} :
      Move ⟨.code (.ended outcome), [], depth⟩ .compute ⟨.code p, [], depth⟩
  | attempt {body : Prog σ ω ε ν} {handler : ε → Prog σ ω ε ν} {next : ν → Prog σ ω ε ν}
      {frames : List (Frame σ ω ε ν)} {depth : Nat} :
      Move ⟨.code (.attempt body handler next), frames, depth⟩ .compute
        ⟨.code body, .handling handler next :: frames, depth⟩
  | attempted {value : ν} {handler : ε → Prog σ ω ε ν} {next : ν → Prog σ ω ε ν}
      {frames : List (Frame σ ω ε ν)} {depth : Nat} :
      Move ⟨.code (.ret value), .handling handler next :: frames, depth⟩ .compute
        ⟨.code (next value), frames, depth⟩
  | handle {error : ε} {handler : ε → Prog σ ω ε ν} {next : ν → Prog σ ω ε ν}
      {frames : List (Frame σ ω ε ν)} {depth : Nat} :
      Move ⟨.code (.raise error), .handling handler next :: frames, depth⟩ .compute
        ⟨.code (handler error), .after next :: frames, depth⟩
  | handled {outcome : Except ε ν} {next : ν → Prog σ ω ε ν} {frames : List (Frame σ ω ε ν)}
      {depth : Nat} :
      Move ⟨.code (.ended outcome), .after next :: frames, depth⟩ .compute
        ⟨.code (.resume outcome next), frames, depth⟩
  | takeLock {immediate : Bool} {body : Prog σ ω ε ν} {next : ν → Prog σ ω ε ν}
      {frames : List (Frame σ ω ε ν)} {depth : Nat} :
      Move ⟨.code (.transaction immediate body next), frames, depth⟩ .acquire
        ⟨.locked immediate body next, frames, depth⟩
  | readDepth {immediate : Bool} {body : Prog σ ω ε ν} {next : ν → Prog σ ω ε ν}
      {frames : List (Frame σ ω ε ν)} {depth : Nat} :
      Move ⟨.locked immediate body next, frames, depth⟩ .compute
        ⟨.opening depth immediate body next, frames, depth⟩
  | begin {immediate : Bool} {body : Prog σ ω ε ν} {next : ν → Prog σ ω ε ν}
      {frames : List (Frame σ ω ε ν)} {depth : Nat} :
      Move ⟨.opening 0 immediate body next, frames, depth⟩ (.sql (.begin immediate))
        ⟨.opened 0 immediate body next, frames, depth⟩
  | savepoint {outer : Nat} {immediate : Bool} {body : Prog σ ω ε ν} {next : ν → Prog σ ω ε ν}
      {frames : List (Frame σ ω ε ν)} {depth : Nat} :
      Move ⟨.opening (outer + 1) immediate body next, frames, depth⟩
        (.sql (.savepoint (Connection.savepointName (outer + 1))))
        ⟨.opened (outer + 1) immediate body next, frames, depth⟩
  | enter {outer : Nat} {immediate : Bool} {body : Prog σ ω ε ν} {next : ν → Prog σ ω ε ν}
      {frames : List (Frame σ ω ε ν)} {depth : Nat} :
      Move ⟨.opened outer immediate body next, frames, depth⟩ .compute
        ⟨.code body, .inside outer body next :: frames, outer + 1⟩
  -- Only a block hands out the connection.
  | write {w : ω} {next : Prog σ ω ε ν} {frames : List (Frame σ ω ε ν)} {depth : Nat}
      (handed : 0 < blocks frames) :
      Move ⟨.code (.write w next), frames, depth⟩ (.sql (.write w)) ⟨.code next, frames, depth⟩
  | commit {value : ν} {body : Prog σ ω ε ν} {next : ν → Prog σ ω ε ν}
      {frames : List (Frame σ ω ε ν)} {depth : Nat} :
      Move ⟨.code (.ret value), .inside 0 body next :: frames, depth⟩ (.finish .commit body (.ok value))
        ⟨.closing 0 (.ok value) next, frames, depth⟩
  | keep {value : ν} {outer : Nat} {body : Prog σ ω ε ν} {next : ν → Prog σ ω ε ν}
      {frames : List (Frame σ ω ε ν)} {depth : Nat} :
      Move ⟨.code (.ret value), .inside (outer + 1) body next :: frames, depth⟩
        (.sql (.release (Connection.savepointName (outer + 1))))
        ⟨.closing (outer + 1) (.ok value) next, frames, depth⟩
  | rollback {error : ε} {body : Prog σ ω ε ν} {next : ν → Prog σ ω ε ν}
      {frames : List (Frame σ ω ε ν)} {depth : Nat} :
      Move ⟨.code (.raise error), .inside 0 body next :: frames, depth⟩
        (.finish .rollback body (.error error)) ⟨.closing 0 (.error error) next, frames, depth⟩
  | undo {error : ε} {outer : Nat} {body : Prog σ ω ε ν} {next : ν → Prog σ ω ε ν}
      {frames : List (Frame σ ω ε ν)} {depth : Nat} :
      Move ⟨.code (.raise error), .inside (outer + 1) body next :: frames, depth⟩
        (.sql (.rollbackTo (Connection.savepointName (outer + 1))))
        ⟨.undone error, .inside (outer + 1) body next :: frames, depth⟩
  | drop {error : ε} {outer : Nat} {body : Prog σ ω ε ν} {next : ν → Prog σ ω ε ν}
      {frames : List (Frame σ ω ε ν)} {depth : Nat} :
      Move ⟨.undone error, .inside (outer + 1) body next :: frames, depth⟩
        (.sql (.release (Connection.savepointName (outer + 1))))
        ⟨.closing (outer + 1) (.error error) next, frames, depth⟩
  | resetDepth {outer : Nat} {outcome : Except ε ν} {next : ν → Prog σ ω ε ν}
      {frames : List (Frame σ ω ε ν)} {depth : Nat} :
      Move ⟨.closing outer outcome next, frames, depth⟩ .compute ⟨.unlocking outcome next, frames, outer⟩
  | giveLock {outcome : Except ε ν} {next : ν → Prog σ ω ε ν} {frames : List (Frame σ ω ε ν)}
      {depth : Nat} :
      Move ⟨.unlocking outcome next, frames, depth⟩ .release ⟨.code (.resume outcome next), frames, depth⟩
  | lockFetch {next : σ → Prog σ ω ε ν} {frames : List (Frame σ ω ε ν)} {depth : Nat} :
      Move ⟨.code (.fetch next), frames, depth⟩ .acquire ⟨.fetching next, frames, depth⟩
  | fetch {row : σ} {next : σ → Prog σ ω ε ν} {frames : List (Frame σ ω ε ν)} {depth : Nat} :
      Move ⟨.fetching next, frames, depth⟩ (.fetch row) ⟨.fetched row next, frames, depth⟩
  | unlockFetch {row : σ} {next : σ → Prog σ ω ε ν} {frames : List (Frame σ ω ε ν)} {depth : Nat} :
      Move ⟨.fetched row next, frames, depth⟩ .release ⟨.code (next row), frames, depth⟩

end Thread

/-- The store that the threads share. -/
structure Shared (σ ω ε ν ι : Type) where
  connection : Connection σ
  lock : RLock ι
  threads : ι → Thread σ ω ε ν

def Shared.put (c : Shared σ ω ε ν ι) (t : ι) (thread : Thread σ ω ε ν) : Shared σ ω ε ν ι :=
  { c with threads := Function.update c.threads t thread }

/-- Nothing has run yet. -/
def Shared.start (s : σ) (value : ν) : Shared σ ω ε ν ι :=
  ⟨.idle s, none, fun _ => ⟨.code (.ret value), [], 0⟩⟩

/-- One step of one thread; a statement that fails is no step. -/
inductive Shared.Step (apply : ω → σ → σ) (c : Shared σ ω ε ν ι) :
    Option (Event σ ω ε ν ι) → Shared σ ω ε ν ι → Prop
  | compute {t : ι} {after : Thread σ ω ε ν} (moved : (c.threads t).Move .compute after) :
      Step apply c none (c.put t after)
  | acquire {t : ι} {after : Thread σ ω ε ν} {lock : RLock ι} (moved : (c.threads t).Move .acquire after)
      (acquired : RLock.acquire t c.lock = some lock) : Step apply c none { c.put t after with lock }
  | release {t : ι} {after : Thread σ ω ε ν} {lock : RLock ι} (moved : (c.threads t).Move .release after)
      (released : RLock.release t c.lock = some lock) : Step apply c none { c.put t after with lock }
  | sql {t : ι} {after : Thread σ ω ε ν} {statement : Statement ω} {connection : Connection σ}
      (moved : (c.threads t).Move (.sql statement) after)
      (executed : c.connection.execute apply statement = .ok connection) :
      Step apply c none { c.put t after with connection }
  | finish {t : ι} {after : Thread σ ω ε ν} {statement : Statement ω} {body : Prog σ ω ε ν}
      {outcome : Except ε ν} {connection : Connection σ}
      (moved : (c.threads t).Move (.finish statement body outcome) after)
      (executed : c.connection.execute apply statement = .ok connection) :
      Step apply c (some (.ended t body outcome)) { c.put t after with connection }
  | fetch {t : ι} {after : Thread σ ω ε ν} (moved : (c.threads t).Move (.fetch c.connection.current) after) :
      Step apply c
        (if (c.threads t).openBlocks = 0 then some (.fetched t c.connection.current) else none)
        (c.put t after)

/-- A run with the events in it, in their order. -/
inductive Shared.Run (apply : ω → σ → σ) (start : Shared σ ω ε ν ι) :
    List (Event σ ω ε ν ι) → Shared σ ω ε ν ι → Prop
  | start : Run apply start [] start
  | step {events : List (Event σ ω ε ν ι)} {event : Option (Event σ ω ε ν ι)}
      {c d : Shared σ ω ε ν ι} (run : Run apply start events c) (step : c.Step apply event d) :
      Run apply start (events ++ event.toList) d

/-! The store as one sees it from outside: outermost blocks and fetches happen at once. -/

/-- An event moves the database from one state to the next. -/
def Event.Moves (apply : ω → σ → σ) (event : Event σ ω ε ν ι) (before after : σ) : Prop :=
  match event with
  | .ended _ body outcome =>
      ((Prog.transaction true body .ret).trace apply before).1 = outcome ∧
        after = applyAll apply (kept ((Prog.transaction true body .ret).trace apply before).2) before
  | .fetched _ seen => seen = before ∧ after = before

inductive Serial (apply : ω → σ → σ) (start : σ) : List (Event σ ω ε ν ι) → σ → Prop
  | start : Serial apply start [] start
  | step {events : List (Event σ ω ε ν ι)} {event : Event σ ω ε ν ι} {s after : σ}
      (serial : Serial apply start events s) (moves : event.Moves apply s after) :
      Serial apply start (events ++ [event]) after

end Steps

end AgentTree.Nested
