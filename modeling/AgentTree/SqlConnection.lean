import Mathlib.Data.List.Basic

/-!
Transaction control on one SQL connection: `BEGIN` keeps the database to go back
to, and savepoints are a stack of names with the database that each was set on.
-/

namespace Sql

inductive Statement (ω : Type) : Type
  | begin (immediate : Bool)
  | commit
  | rollback
  | savepoint (name : String)
  | rollbackTo (name : String)
  | release (name : String)
  | write (w : ω)

structure Connection (σ : Type) where
  current : σ
  /-- The database when the transaction began, if one is open. -/
  begun : Option σ
  /-- The savepoints with the databases that they were set on, innermost first. -/
  savepoints : List (String × σ)

namespace Connection

variable {σ ω : Type}

/-- No transaction is open. -/
def idle (s : σ) : Connection σ := ⟨s, none, []⟩

/-- A transaction is open, by `BEGIN` or by a savepoint on its own. -/
def isOpen (connection : Connection σ) : Bool := connection.begun.isSome || !connection.savepoints.isEmpty

/-- What survives if the connection is closed now. -/
def committed (connection : Connection σ) : σ :=
  match connection.begun with
  | some before => before
  | none => (connection.savepoints.getLast?.map Prod.snd).getD connection.current

/-- The savepoints from the latest one of a name on. -/
def upTo (connection : Connection σ) (name : String) : List (String × σ) :=
  connection.savepoints.dropWhile (·.1 ≠ name)

/-- One statement; `apply` is what a write does to the database. -/
def execute (apply : ω → σ → σ) (connection : Connection σ) :
    Statement ω → Except String (Connection σ)
  | .begin _ =>
      if connection.isOpen then
        .error "cannot start a transaction within a transaction"
      else
        .ok { connection with begun := some connection.current }
  | .commit =>
      if connection.isOpen then
        .ok (idle connection.current)
      else
        .error "cannot commit - no transaction is active"
  | .rollback =>
      if connection.isOpen then
        .ok (idle connection.committed)
      else
        .error "cannot rollback - no transaction is active"
  | .savepoint name =>
      .ok { connection with savepoints := (name, connection.current) :: connection.savepoints }
  | .rollbackTo name =>
      match connection.upTo name with
      | [] => .error ("no such savepoint: " ++ name)
      | (_, before) :: outer => .ok { connection with
          current := before
          savepoints := (name, before) :: outer }
  | .release name =>
      match connection.upTo name with
      | [] => .error ("no such savepoint: " ++ name)
      | _ :: outer => .ok { connection with savepoints := outer }
  | .write w => .ok { connection with current := apply w connection.current }

/-! A connection inside nested blocks, each with the database that it began on, innermost first. -/

/-- The savepoint that the block at a depth sets. -/
def savepointName (depth : Nat) : String := "nested_" ++ toString depth

def savepointsOf : List σ → List (String × σ)
  | [] => []
  | [_] => []
  | before :: outer => (savepointName outer.length, before) :: savepointsOf outer

def within (levels : List σ) (current : σ) : Connection σ :=
  ⟨current, levels.getLast?, savepointsOf levels⟩

variable {apply : ω → σ → σ} {current before : σ} {levels : List σ}

@[simp] theorem within_nil : within [] current = idle current := rfl

@[simp] theorem committed_idle : (idle current).committed = current := rfl

theorem committed_within {outermost : σ} (last : levels.getLast? = some outermost) :
    (within levels current).committed = outermost := by
  simp only [committed, within, last]

theorem savepointsOf_cons (nested : levels ≠ []) :
    savepointsOf (before :: levels) = (savepointName levels.length, before) :: savepointsOf levels := by
  cases levels with
  | nil => exact absurd rfl nested
  | cons outer rest => rfl

theorem getLast?_cons (nested : levels ≠ []) : (before :: levels).getLast? = levels.getLast? := by
  cases levels with
  | nil => exact absurd rfl nested
  | cons outer rest => simp

theorem execute_begin {immediate : Bool} : (within [] current).execute apply (.begin immediate) =
    .ok (within [current] current) := rfl

theorem execute_savepoint (nested : levels ≠ []) :
    (within levels current).execute apply (.savepoint (savepointName levels.length)) =
      .ok (within (current :: levels) current) := by
  simp only [execute, within, savepointsOf_cons nested, getLast?_cons nested]

theorem execute_commit : (within [before] current).execute apply .commit = .ok (within [] current) := rfl

theorem execute_rollback : (within [before] current).execute apply .rollback = .ok (within [] before) := rfl

theorem upTo_within (nested : levels ≠ []) :
    (within (before :: levels) current).upTo (savepointName levels.length) =
      (savepointName levels.length, before) :: savepointsOf levels := by
  simp [upTo, within, savepointsOf_cons nested]

theorem execute_rollbackTo (nested : levels ≠ []) :
    (within (before :: levels) current).execute apply (.rollbackTo (savepointName levels.length)) =
      .ok (within (before :: levels) before) := by
  simp only [execute, upTo_within nested]
  simp only [within, savepointsOf_cons nested]

theorem execute_release (nested : levels ≠ []) :
    (within (before :: levels) current).execute apply (.release (savepointName levels.length)) =
      .ok (within levels current) := by
  simp only [execute, upTo_within nested]
  simp only [within, getLast?_cons nested]

theorem execute_write {w : ω} : (within levels current).execute apply (.write w) =
    .ok (within levels (apply w current)) := rfl

end Connection

end Sql
