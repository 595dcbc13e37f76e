import AgentTree.NestedBlocks

/-!
`SQLiteStore.transaction()` on a database whose statements may fail: what an outermost
block leaves on the connection when it exits by an exception.
-/

namespace AgentTree.Nested

open Sql

/-- How the database answers a statement: it fails and leaves everything as it is, or it fails and rolls the whole
transaction back. -/
inductive Answer : Type
  | done
  | refused (message : String)
  | undone (message : String)
  deriving DecidableEq

/-- The connection, and how many statements it has been given. -/
structure Session (σ : Type) where
  connection : Connection σ
  clock : Nat

namespace Session

variable {σ ω ε α β : Type}

/-- One statement, with the exception that a failed one raises. -/
def perform (answers : Nat → Answer) (failure : String → ε) (effect : Connection σ → Except String (Connection σ))
    (session : Session σ) : Except ε Unit × Session σ :=
  match answers session.clock with
  | .done =>
      match effect session.connection with
      | .ok connection => (.ok (), ⟨connection, session.clock + 1⟩)
      | .error message => (.error (failure message), ⟨session.connection, session.clock + 1⟩)
  | .refused message => (.error (failure message), ⟨session.connection, session.clock + 1⟩)
  | .undone message => (.error (failure message), ⟨.idle session.connection.committed, session.clock + 1⟩)

/-- What follows unless an exception was raised. -/
def andThen (first : Except ε α × Session σ) (next : α → Session σ → Except ε β × Session σ) :
    Except ε β × Session σ :=
  match first with
  | (.ok value, session) => next value session
  | (.error error, session) => (.error error, session)

end Session

section Faults

variable {σ ω ε ν : Type} (apply : ω → σ → σ) (answers : Nat → Answer) (failure : String → ε)

/-- The statement that opens a block. -/
def opening (immediate : Bool) (depth : Nat) : Statement ω :=
  if depth = 0 then .begin immediate else .savepoint (Connection.savepointName depth)

def sql (statement : Statement ω) (session : Session σ) : Except ε Unit × Session σ :=
  session.perform answers failure fun connection => connection.execute apply statement

/-- The `except` and `else` clauses of `transaction`. -/
def closing (depth : Nat) (ended : Except ε ν) (session : Session σ) : Except ε ν × Session σ :=
  match ended with
  | .error error =>
      if depth = 0 then Session.andThen (sql apply answers failure .rollback session) fun _ after => (.error error, after)
      else
        Session.andThen (sql apply answers failure (.rollbackTo (Connection.savepointName depth)) session) fun _ undone =>
          Session.andThen (sql apply answers failure (.release (Connection.savepointName depth)) undone) fun _ after =>
            (.error error, after)
  | .ok value =>
      Session.andThen (sql apply answers failure
        (if depth = 0 then .commit else .release (Connection.savepointName depth)) session) fun _ after =>
          (.ok value, after)

/-- A program in `depth` blocks; a read is a statement as well. -/
def Prog.runOn : Prog σ ω ε ν → (depth : Nat) → Session σ → Except ε ν × Session σ
  | ret value, _, session => (.ok value, session)
  | raise error, _, session => (.error error, session)
  | write w next, depth, session =>
      Session.andThen (sql apply answers failure (.write w) session) fun _ after => next.runOn depth after
  | fetch next, depth, session =>
      Session.andThen (session.perform answers failure .ok) fun _ after =>
        (next after.connection.current).runOn depth after
  | transaction immediate body next, depth, session =>
      Session.andThen (sql apply answers failure (opening immediate depth) session) fun _ opened =>
        let inner := body.runOn (depth + 1) opened
        Session.andThen (closing apply answers failure depth inner.1 inner.2) fun value after =>
          (next value).runOn depth after
  | attempt body handler next, depth, session =>
      let tried := body.runOn depth session
      let handled := match tried.1 with
        | .ok value => (.ok value, tried.2)
        | .error error => (handler error).runOn depth tried.2
      Session.andThen handled fun value after => (next value).runOn depth after

variable {apply answers failure}

/-! Where every statement succeeds, a program means what it meant before. -/

section Done

variable {levels : List σ} {s : σ} {clock : Nat}

theorem sql_done {statement : Statement ω} {connection after : Connection σ}
    (succeeds : ∀ time, answers time = .done) (executed : connection.execute apply statement = .ok after) :
    sql apply answers failure statement ⟨connection, clock⟩ = (.ok (), ⟨after, clock + 1⟩) := by
  simp only [sql, Session.perform, succeeds, executed]

/-- The block that its statement opened on `s` ends. -/
theorem closing_done (succeeds : ∀ time, answers time = .done) (ended : Except ε ν × σ) :
    ∃ later, closing apply answers failure levels.length ended.1 ⟨.within (s :: levels) ended.2, clock⟩ =
      ((settle s ended).1, ⟨.within levels (settle s ended).2, later⟩) := by
  obtain ⟨outcome, current⟩ := ended
  cases levels with
  | nil =>
      cases outcome with
      | ok value =>
          simp only [closing, List.length_nil, if_true, sql_done succeeds Connection.execute_commit]
          exact ⟨_, rfl⟩
      | error error =>
          simp only [closing, List.length_nil, if_true, sql_done succeeds Connection.execute_rollback]
          exact ⟨_, rfl⟩
  | cons outer rest =>
      have nested : outer :: rest ≠ [] := List.cons_ne_nil outer rest
      have inner : (outer :: rest).length ≠ 0 := by simp
      cases outcome with
      | ok value =>
          simp only [closing, if_neg inner, sql_done succeeds (Connection.execute_release nested)]
          exact ⟨_, rfl⟩
      | error error =>
          simp only [closing, if_neg inner, sql_done succeeds (Connection.execute_rollbackTo nested), Session.andThen,
            sql_done succeeds (Connection.execute_release nested)]
          exact ⟨_, rfl⟩

theorem runOn_done (succeeds : ∀ time, answers time = .done) (p : Prog σ ω ε ν) :
    ∃ later, p.runOn apply answers failure levels.length ⟨.within levels s, clock⟩ =
      ((p.result apply s).1, ⟨.within levels (p.result apply s).2, later⟩) := by
  -- What follows a block or a `try`, once it has ended.
  have follows : ∀ {next : ν → Prog σ ω ε ν} {levels : List σ} (ended : Except ε ν × σ) (clock : Nat),
      (∀ (value : ν) {levels : List σ} {s : σ} {clock : Nat}, ∃ later,
        (next value).runOn apply answers failure levels.length ⟨.within levels s, clock⟩ =
          (((next value).result apply s).1, ⟨.within levels ((next value).result apply s).2, later⟩)) →
      ∃ later, Session.andThen (ended.1, ⟨.within levels ended.2, clock⟩)
        (fun value after => (next value).runOn apply answers failure levels.length after) =
          ((proceed apply next ended).1, ⟨.within levels (proceed apply next ended).2, later⟩) := by
    rintro next levels ⟨outcome, current⟩ clock runs
    cases outcome with
    | ok value => exact runs value
    | error error => exact ⟨clock, rfl⟩
  induction p generalizing levels s clock with
  | ret value => exact ⟨clock, rfl⟩
  | raise error => exact ⟨clock, rfl⟩
  | write w next ih =>
      simp only [Prog.runOn, sql_done succeeds Connection.execute_write, Prog.result_write]
      exact ih
  | fetch next ih =>
      simp only [Prog.runOn, Session.perform, succeeds, Prog.result_fetch]
      exact ih s
  | transaction immediate body next bodyRuns nextRuns =>
      have opened : sql apply answers failure (opening immediate levels.length) ⟨.within levels s, clock⟩ =
          (.ok (), ⟨.within (s :: levels) s, clock + 1⟩) := by
        by_cases outermost : levels = []
        · subst outermost
          exact sql_done succeeds Connection.execute_begin
        · rw [opening, if_neg (by simpa using outermost)]
          exact sql_done succeeds (Connection.execute_savepoint outermost)
      obtain ⟨left, ran⟩ := @bodyRuns (s :: levels) s (clock + 1)
      obtain ⟨closed, ended⟩ : ∃ later, closing apply answers failure levels.length (body.result apply s).1
          ⟨.within (s :: levels) (body.result apply s).2, left⟩ =
            ((settle s (body.result apply s)).1, ⟨.within levels (settle s (body.result apply s)).2, later⟩) :=
        closing_done succeeds (body.result apply s)
      rw [List.length_cons] at ran
      simp only [Prog.runOn, opened, Session.andThen, ran, ended, Prog.result_transaction]
      exact follows _ closed nextRuns
  | attempt body handler next bodyRuns handlerRuns nextRuns =>
      obtain ⟨left, ran⟩ := @bodyRuns levels s clock
      simp only [Prog.runOn, ran, Prog.result_attempt]
      generalize body.result apply s = tried
      obtain ⟨outcome, current⟩ := tried
      cases outcome with
      | ok value => exact follows (.ok value, current) left nextRuns
      | error error =>
          obtain ⟨after, handled⟩ := @handlerRuns error levels current left
          simp only [rescue, handled]
          exact follows _ after nextRuns

end Done

/-! What an outermost block leaves behind. -/

/-- No transaction is open, nothing is seen of the block, and the next block can begin. -/
structure Clean (apply : ω → σ → σ) (start : σ) (connection : Connection σ) : Prop where
  closed : connection.isOpen = false
  unseen : connection.current = start
  begins : ∀ immediate, ∃ begun, connection.execute apply (.begin immediate) = .ok begun

variable (apply answers failure) in
/-- How the body of an outermost block ends, if the block begins. -/
def bodyEnd (immediate : Bool) (body : Prog σ ω ε ν) (session : Session σ) : Option (Except ε ν × Session σ) :=
  match sql apply answers failure (.begin immediate) session with
  | (.ok _, opened) => some (body.runOn apply answers failure 1 opened)
  | (.error _, _) => none

/-- What has been committed by now is what was there at the start, and the statement that ends the block is not
refused with the transaction left open. -/
structure Ends (answers : Nat → Answer) (start : σ) (session : Session σ) : Prop where
  outside : session.connection.committed = start
  answered : session.connection.isOpen = true → ∀ message, answers session.clock ≠ .refused message

variable {start : σ} {session : Session σ}

theorem idle_of_closed {connection : Connection σ} (closed : connection.isOpen = false) :
    connection = .idle connection.current := by
  obtain ⟨current, begun, savepoints⟩ := connection
  cases begun with
  | some before => simp [Connection.isOpen] at closed
  | none =>
      cases savepoints with
      | nil => rfl
      | cons first rest => simp [Connection.isOpen] at closed

theorem clean_idle {current : σ} : Clean apply start (.idle current) ↔ current = start :=
  ⟨Clean.unseen, fun same => ⟨rfl, same, fun _ => ⟨_, rfl⟩⟩⟩

/-- A statement that ends the block in vain, or by a rollback. -/
theorem sql_clean {statement : Statement ω}
    (ending : statement = .rollback ∨
      statement = .commit ∧ ∃ error, (sql apply answers failure statement session).1 = .error error) :
    Clean apply start (sql apply answers failure statement session).2.connection ↔ Ends answers start session := by
  obtain ⟨connection, clock⟩ := session
  cases opened : connection.isOpen with
  | false =>
      -- The transaction has been lost before, and the statement fails whatever the answer is.
      obtain ⟨current, rfl⟩ : ∃ current, connection = .idle current := ⟨_, idle_of_closed opened⟩
      have unchanged : (sql apply answers failure statement ⟨.idle current, clock⟩).2.connection = .idle current := by
        rcases ending with rfl | ⟨rfl, _⟩ <;> cases answered : answers clock <;> simp only [sql, Session.perform, answered]
          <;> rfl
      rw [unchanged, clean_idle]
      exact ⟨fun same => ⟨same, fun some => by simp [opened] at some⟩, Ends.outside⟩
  | true =>
      cases answered : answers clock with
      | done =>
          rcases ending with rfl | ⟨rfl, error, raised⟩
          · have idle : (sql apply answers failure .rollback ⟨connection, clock⟩).2.connection = .idle connection.committed := by
              simp only [sql, Session.perform, answered, Connection.execute, opened, if_true]
            rw [idle, clean_idle]
            exact ⟨fun same => ⟨same, fun _ message => by simp [answered]⟩, Ends.outside⟩
          · simp [sql, Session.perform, answered, Connection.execute, opened] at raised
      | refused message =>
          constructor
          · intro clean
            have left := clean.closed
            simp [sql, Session.perform, answered, opened] at left
          · intro ends
            exact absurd answered (ends.answered opened message)
      | undone message =>
          have idle : (sql apply answers failure statement ⟨connection, clock⟩).2.connection =
              .idle connection.committed := by
            simp only [sql, Session.perform, answered]
          rw [idle, clean_idle]
          exact ⟨fun same => ⟨same, fun _ other => by simp [answered]⟩, Ends.outside⟩

theorem begin_refused {immediate : Bool} {clock : Nat} {error : ε}
    (failed : sql apply answers failure (.begin immediate) ⟨.idle start, clock⟩ = (.error error, session)) :
    session.connection = .idle start := by
  unfold sql Session.perform at failed
  split at failed
  next => simp [Connection.execute, Connection.isOpen, Connection.idle] at failed
  next =>
    obtain ⟨_, rfl⟩ := Prod.mk.inj failed
    rfl
  next =>
    obtain ⟨_, rfl⟩ := Prod.mk.inj failed
    rfl

theorem andThen_ret (ran : Except ε ν × Session σ) :
    (Session.andThen ran fun value after => (.ok value, after)) = ran := by
  obtain ⟨outcome, session⟩ := ran
  cases outcome <;> rfl

/-- How an outermost block raises: with an exception of its body, rolled back, or with that of its `COMMIT`. -/
theorem closing_raised {outcome : Except ε ν} {error : ε} {after : Session σ}
    (raised : closing apply answers failure 0 outcome session = (.error error, after)) :
    (sql apply answers failure .rollback session).2 = after ∨
      sql apply answers failure .commit session = (.error error, after) := by
  cases outcome with
  | error cause =>
      left
      simp only [closing, if_true] at raised
      cases ended : sql apply answers failure .rollback session with
      | mk answer left =>
          rw [ended] at raised
          cases answer <;> exact (Prod.mk.inj raised).2
  | ok value =>
      right
      simp only [closing, if_true] at raised
      cases ended : sql apply answers failure .commit session with
      | mk answer left =>
          rw [ended] at raised
          cases answer with
          | ok _ => simp [Session.andThen] at raised
          | error cause => simpa [Session.andThen] using raised

/-- A statement that is none of those of an outermost block. -/
def inner : Statement ω → Bool
  | .begin _ => false
  | .commit => false
  | .rollback => false
  | _ => true

theorem sql_begun (kept : ∀ time message, answers time ≠ .undone message) {statement : Statement ω}
    (nested : inner statement = true) (begun : session.connection.begun = some start) :
    (sql apply answers failure statement session).2.connection.begun = some start := by
  unfold sql Session.perform
  split
  next =>
    cases statement with
    | rollbackTo name =>
        simp only [Connection.execute]
        cases session.connection.upTo name <;> exact begun
    | release name =>
        simp only [Connection.execute]
        cases session.connection.upTo name <;> exact begun
    | savepoint name => exact begun
    | write w => exact begun
    | «begin» immediate => simp [inner] at nested
    | commit => simp [inner] at nested
    | rollback => simp [inner] at nested
  next => exact begun
  next message undone => exact absurd undone (kept _ message)

theorem andThen_begun {α β : Type} {first : Except ε α × Session σ} {next : α → Session σ → Except ε β × Session σ}
    (begun : first.2.connection.begun = some start)
    (later : ∀ value session, session.connection.begun = some start → (next value session).2.connection.begun = some start) :
    (Session.andThen first next).2.connection.begun = some start := by
  obtain ⟨outcome, session⟩ := first
  cases outcome with
  | ok value => exact later value session begun
  | error error => exact begun

theorem closing_begun (kept : ∀ time message, answers time ≠ .undone message) {depth : Nat} (deep : depth ≠ 0)
    {ended : Except ε ν} (begun : session.connection.begun = some start) :
    (closing apply answers failure depth ended session).2.connection.begun = some start := by
  cases ended with
  | ok value =>
      simp only [closing, if_neg deep]
      exact andThen_begun (sql_begun kept rfl begun) fun _ _ still => still
  | error error =>
      simp only [closing, if_neg deep]
      exact andThen_begun (sql_begun kept rfl begun) fun _ _ still =>
        andThen_begun (sql_begun kept rfl still) fun _ _ left => left

/-- The body of a block stays inside its transaction, unless a statement is answered by a rollback. -/
theorem runOn_begun (kept : ∀ time message, answers time ≠ .undone message) (p : Prog σ ω ε ν) {depth : Nat}
    (deep : depth ≠ 0) (begun : session.connection.begun = some start) :
    (p.runOn apply answers failure depth session).2.connection.begun = some start := by
  induction p generalizing depth session with
  | ret value => exact begun
  | raise error => exact begun
  | write w next ih => exact andThen_begun (sql_begun kept rfl begun) fun _ _ still => ih deep still
  | fetch next ih =>
      refine andThen_begun ?_ fun _ _ still => ih _ deep still
      unfold Session.perform
      split
      next => exact begun
      next => exact begun
      next message undone => exact absurd undone (kept _ message)
  | transaction immediate body next bodyRuns nextRuns =>
      have opens : inner (opening immediate depth : Statement ω) = true := by
        rw [opening, if_neg deep]
        rfl
      exact andThen_begun (sql_begun kept opens begun) fun _ _ still =>
        andThen_begun (closing_begun kept deep (bodyRuns (Nat.succ_ne_zero depth) still)) fun value _ left =>
          nextRuns value deep left
  | attempt body handler next bodyRuns handlerRuns nextRuns =>
      simp only [Prog.runOn]
      refine andThen_begun ?_ fun value _ left => nextRuns value deep left
      have tried := bodyRuns deep begun
      split
      next => exact tried
      next error _ => exact handlerRuns error deep tried

/-- Without such an answer only the statement that ends the block matters. -/
theorem bodyEnd_outside (kept : ∀ time message, answers time ≠ .undone message) {immediate : Bool}
    {body : Prog σ ω ε ν} {clock : Nat} {ended : Except ε ν × Session σ}
    (ran : bodyEnd apply answers failure immediate body ⟨.idle start, clock⟩ = some ended) :
    ended.2.connection.committed = start := by
  unfold bodyEnd at ran
  split at ran
  next opened begins =>
    have begun : opened.connection.begun = some start := by
      unfold sql Session.perform at begins
      split at begins
      next =>
        obtain ⟨_, rfl⟩ := Prod.mk.inj begins
        rfl
      next => simp at begins
      next => simp at begins
    obtain rfl := Option.some.inj ran
    have still : (body.runOn apply answers failure 1 opened).2.connection.begun = some start :=
      runOn_begun kept body Nat.one_ne_zero begun
    simp only [Connection.committed, still]
  next => simp at ran

/-- A block that exits by an exception leaves the connection clean if and only if it ends on a transaction of its own,
and the statement that ends it is not refused with the transaction left open. -/
theorem transaction_clean (apply : ω → σ → σ) (answers : Nat → Answer) (failure : String → ε) (immediate : Bool)
    (body : Prog σ ω ε ν) (start : σ) (clock : Nat) (error : ε) (after : Session σ)
    (raised : (Prog.transaction immediate body .ret).runOn apply answers failure 0 ⟨.idle start, clock⟩ =
      (.error error, after)) :
    Clean apply start after.connection ↔
      ∀ ended, bodyEnd apply answers failure immediate body ⟨.idle start, clock⟩ = some ended →
        Ends answers start ended.2 := by
  simp only [Prog.runOn, opening, if_true, andThen_ret] at raised
  unfold bodyEnd
  cases begun : sql apply answers failure (.begin immediate) ⟨.idle start, clock⟩ with
  | mk result opened =>
      cases result with
      | error refusal =>
          have unopened : opened.connection = .idle start := begin_refused begun
          simp only [begun, Session.andThen, Prod.mk.injEq] at raised
          rw [← raised.2, unopened, clean_idle]
          simp
      | ok value =>
          simp only [begun, Session.andThen] at raised
          simp only [Option.some.injEq, forall_eq']
          rcases closing_raised raised with rolled | failed
          · rw [← rolled]
            exact sql_clean (.inl rfl)
          · have committed : Clean apply start (sql apply answers failure .commit _).2.connection ↔ Ends answers start _ :=
              sql_clean (.inr ⟨rfl, error, congrArg Prod.fst failed⟩)
            rwa [failed] at committed

end Faults

namespace FaultSample

def append (n : Nat) (s : List Nat) : List Nat := s ++ [n]

/-- A body that writes once. -/
def body : Prog (List Nat) Nat String Unit := .write 1 (.ret ())

/-- One statement is answered with an error. -/
def failing (time : Nat) (answer : Answer) : Nat → Answer := fun now => if now = time then answer else .done

end FaultSample

open FaultSample in
theorem transaction_clean_sample : ∃ after,
    (Prog.transaction true body .ret).runOn append (failing 1 (.refused "constraint failed")) id 0 ⟨.idle [], 0⟩ =
      (.error "constraint failed", after) ∧ Clean append [] after.connection := by
  refine ⟨⟨.idle [], 3⟩, rfl,
    (transaction_clean append (failing 1 (.refused "constraint failed")) id true body [] 0 _ _ rfl).mpr ?_⟩
  rintro _ ⟨⟩
  refine ⟨rfl, fun _ message => ?_⟩
  show Answer.done ≠ .refused message
  simp

open FaultSample in
/-- A `COMMIT` that is refused leaves the transaction open: a reader sees the write, and no block can begin. -/
theorem transaction_left_open : ∃ after,
    (Prog.transaction true body .ret).runOn append (failing 2 (.refused "database is locked")) id 0 ⟨.idle [], 0⟩ =
      (.error "database is locked", after) ∧
    after.connection.isOpen = true ∧ after.connection.current = [1] ∧
    after.connection.execute append (.begin true) = .error "cannot start a transaction within a transaction" ∧
    ¬Clean append [] after.connection := by
  refine ⟨⟨⟨[1], some [], []⟩, 3⟩, rfl, rfl, rfl, rfl, fun clean => ?_⟩
  exact absurd clean.closed (by decide)

end AgentTree.Nested
