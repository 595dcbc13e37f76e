import Mathlib.Logic.Function.Basic
import Mathlib.Logic.Relation

/-!
Programs that share one state, and the rules that reason about them.

A program is a tree of atomic actions and hazards.  An action changes the state
in one indivisible step; a hazard is a point where an exception may strike.
`Prog.wp` is the rely/guarantee weakest precondition: it asks for the invariant
and the guarantee after each action of the program, whatever the other programs
do in between.
-/

namespace Concurrent

inductive Prog (σ ε α : Type) : Type
  | done (result : Except ε α)
  | act (effect : σ → σ) (next : σ → Prog σ ε α)
  | hazard (next : Prog σ ε α) (fault : ε → Prog σ ε α)

namespace Prog

variable {σ ε α β : Type}

def bind : Prog σ ε α → (α → Prog σ ε β) → Prog σ ε β
  | done (.ok value), rest => rest value
  | done (.error error), _ => done (.error error)
  | act effect next, rest => act effect fun s => (next s).bind rest
  | hazard next fault, rest => hazard (next.bind rest) fun error => (fault error).bind rest

def tryCatch : Prog σ ε α → (ε → Prog σ ε α) → Prog σ ε α
  | done (.ok value), _ => done (.ok value)
  | done (.error error), handler => handler error
  | act effect next, handler => act effect fun s => (next s).tryCatch handler
  | hazard next fault, handler =>
      hazard (next.tryCatch handler) fun error => (fault error).tryCatch handler

instance : Monad (Prog σ ε) where
  pure value := done (.ok value)
  bind := Prog.bind

instance : MonadExcept ε (Prog σ ε) where
  throw error := done (.error error)
  tryCatch := Prog.tryCatch

/-- Run `cleanup` on both exits of `body`; an exception of `cleanup` wins. -/
def tryFinally (body : Prog σ ε α) (cleanup : Prog σ ε Unit) : Prog σ ε α := do
  let value ← body.tryCatch fun error => do
    cleanup
    done (.error error)
  cleanup
  return value

/-- The state after a transaction: what it wrote, or what was there before it raised. -/
def commit (run : σ → Except ε (α × σ)) (s : σ) : σ :=
  match run s with
  | .ok (_, t) => t
  | .error _ => s

def outcome (run : σ → Except ε (α × σ)) (s : σ) : Except ε α :=
  match run s with
  | .ok (value, _) => .ok value
  | .error error => .error error

/-- One transaction; an exception of the transaction leaves the state as it was. -/
def atomic (run : σ → Except ε (α × σ)) : Prog σ ε α :=
  act (commit run) fun s => done (outcome run s)

/-- One transaction that may also be struck by an exception before it happens. -/
def exposed (run : σ → Except ε (α × σ)) : Prog σ ε α :=
  hazard (atomic run) fun error => done (.error error)

/-- A point between two actions where an exception may strike. -/
def mayRaise : Prog σ ε Unit :=
  hazard (done (.ok ())) fun error => done (.error error)

/-- Raise unless the condition holds. -/
def require (condition : Bool) (error : ε) : Prog σ ε Unit :=
  if condition then done (.ok ()) else done (.error error)

/-- Raise the error of a pure computation, or go on with its value. -/
def ofExcept (result : Except ε α) : Prog σ ε α := done result

/-- The steps of a loop over a list, in order. -/
def forEach (items : List β) (body : β → Prog σ ε Unit) : Prog σ ε Unit :=
  match items with
  | [] => done (.ok ())
  | item :: rest => (body item).bind fun _ => forEach rest body

/-- A run that nothing interrupts. -/
def alone : Prog σ ε α → σ → Except ε α × σ
  | done result, s => (result, s)
  | act effect next, s => (next s).alone (effect s)
  | hazard next _, s => next.alone s

theorem alone_bind (p : Prog σ ε α) (rest : α → Prog σ ε β) (s : σ) :
    (p >>= rest).alone s = match p.alone s with
      | (.ok value, t) => (rest value).alone t
      | (.error error, t) => (.error error, t) := by
  change (p.bind rest).alone s = _
  induction p generalizing s with
  | done result => cases result <;> rfl
  | act effect next ih => exact ih s (effect s)
  | hazard next fault ih _ => exact ih s

end Prog

/-- What a program may assume about the others and must promise to them. -/
structure Contract (σ : Type) where
  inv : σ → Prop
  rely : σ → σ → Prop
  guar : σ → σ → Prop
  rely_refl : ∀ s, rely s s
  rely_trans : ∀ {s t u}, rely s t → rely t u → rely s u

namespace Prog

variable {σ ε α β : Type} {c : Contract σ}

def wp (c : Contract σ) : Prog σ ε α → (Except ε α → σ → Prop) → σ → Prop
  | done result, post, s => ∀ t, c.inv t → c.rely s t → post result t
  | act effect next, post, s => ∀ t, c.inv t → c.rely s t →
      c.inv (effect t) ∧ c.guar t (effect t) ∧ (next t).wp c post (effect t)
  | hazard next fault, post, s => next.wp c post s ∧ ∀ error, (fault error).wp c post s

theorem wp_stable {p : Prog σ ε α} {post : Except ε α → σ → Prop} {s t : σ}
    (moved : c.rely s t) (holds : p.wp c post s) : p.wp c post t := by
  induction p with
  | done result => exact fun u inv later => holds u inv (c.rely_trans moved later)
  | act effect next _ => exact fun u inv later => holds u inv (c.rely_trans moved later)
  | hazard next fault ihNext ihFault =>
      exact ⟨ihNext holds.1, fun error => ihFault error (holds.2 error)⟩

theorem wp_mono {p : Prog σ ε α} {post weaker : Except ε α → σ → Prop} {s : σ}
    (weaken : ∀ result t, c.inv t → post result t → weaker result t)
    (holds : p.wp c post s) : p.wp c weaker s := by
  induction p generalizing s with
  | done result => exact fun t inv moved => weaken result t inv (holds t inv moved)
  | act effect next ih =>
      intro t inv moved
      obtain ⟨kept, promised, rest⟩ := holds t inv moved
      exact ⟨kept, promised, ih t rest⟩
  | hazard next fault ihNext ihFault =>
      exact ⟨ihNext holds.1, fun error => ihFault error (holds.2 error)⟩

/-- Where a program promises what it relies on, its exits are related to its start. -/
theorem wp_since {p : Prog σ ε α} {post : Except ε α → σ → Prop} {origin s : σ}
    (promised : ∀ {s t}, c.guar s t → c.rely s t) (since : c.rely origin s) (holds : p.wp c post s) :
    p.wp c (fun result t => c.rely origin t ∧ post result t) s := by
  induction p generalizing s with
  | done result => exact fun t inv moved => ⟨c.rely_trans since moved, holds t inv moved⟩
  | act effect next ih =>
      intro t inv moved
      obtain ⟨kept, step, rest⟩ := holds t inv moved
      exact ⟨kept, step, ih t (c.rely_trans (c.rely_trans since moved) (promised step)) rest⟩
  | hazard next fault ihNext ihFault =>
      exact ⟨ihNext since holds.1, fun error => ihFault error since (holds.2 error)⟩

theorem wp_done {result : Except ε α} {post : Except ε α → σ → Prop} {s : σ}
    (holds : ∀ t, c.inv t → c.rely s t → post result t) : (done result).wp c post s := holds

theorem wp_bind {p : Prog σ ε α} {rest : α → Prog σ ε β} {post : Except ε β → σ → Prop} {s : σ}
    (inv : c.inv s)
    (holds : p.wp c (fun result t => match result with
      | .ok value => (rest value).wp c post t
      | .error error => post (.error error) t) s) :
    (p.bind rest).wp c post s := by
  induction p generalizing s with
  | done result =>
      cases result with
      | ok value => exact holds s inv (c.rely_refl s)
      | error error => exact holds
  | act effect next ih =>
      intro t invT moved
      obtain ⟨kept, promised, later⟩ := holds t invT moved
      exact ⟨kept, promised, ih t kept later⟩
  | hazard next fault ihNext ihFault =>
      exact ⟨ihNext inv holds.1, fun error => ihFault error inv (holds.2 error)⟩

theorem wp_tryCatch {p : Prog σ ε α} {handler : ε → Prog σ ε α}
    {post : Except ε α → σ → Prop} {s : σ} (inv : c.inv s)
    (holds : p.wp c (fun result t => match result with
      | .ok value => post (.ok value) t
      | .error error => (handler error).wp c post t) s) :
    (p.tryCatch handler).wp c post s := by
  induction p generalizing s with
  | done result =>
      cases result with
      | ok value => exact holds
      | error error => exact holds s inv (c.rely_refl s)
  | act effect next ih =>
      intro t invT moved
      obtain ⟨kept, promised, later⟩ := holds t invT moved
      exact ⟨kept, promised, ih t kept later⟩
  | hazard next fault ihNext ihFault =>
      exact ⟨ihNext inv holds.1, fun error => ihFault error inv (holds.2 error)⟩

/-- The rule of the finally clause.  The cleanup starts from the exit of the body
and keeps its result unless it raises itself. -/
theorem wp_tryFinally {body : Prog σ ε α} {cleanup : Prog σ ε Unit}
    {post : Except ε α → σ → Prop} {s : σ} (inv : c.inv s)
    (holds : body.wp c (fun result t => cleanup.wp c (fun outcome u => match outcome with
      | .ok _ => ∀ v, c.inv v → c.rely u v → post result v
      | .error error => post (.error error) u) t) s) :
    (tryFinally body cleanup).wp c post s := by
  refine wp_bind inv (wp_tryCatch inv (wp_mono ?_ holds))
  intro result t invT cleaned
  cases result with
  | ok value =>
      refine wp_bind invT (wp_mono ?_ cleaned)
      intro outcome u _ exit
      cases outcome with
      | ok _ => exact wp_done exit
      | error error => exact exit
  | error error =>
      refine wp_bind invT (wp_mono ?_ cleaned)
      intro outcome u _ exit
      cases outcome with
      | ok _ => exact wp_done exit
      | error error => exact exit

theorem wp_atomic {run : σ → Except ε (α × σ)} {post : Except ε α → σ → Prop} {s : σ}
    (succeeds : ∀ t value u, c.inv t → c.rely s t → run t = .ok (value, u) →
      c.inv u ∧ c.guar t u ∧ ∀ v, c.inv v → c.rely u v → post (.ok value) v)
    (raises : ∀ t error, c.inv t → c.rely s t → run t = .error error →
      c.guar t t ∧ ∀ v, c.inv v → c.rely t v → post (.error error) v) :
    (atomic run).wp c post s := by
  intro t inv moved
  cases ran : run t with
  | ok pair =>
      obtain ⟨value, u⟩ := pair
      obtain ⟨kept, promised, exit⟩ := succeeds t value u inv moved ran
      simp only [commit, outcome, ran]
      exact ⟨kept, promised, exit⟩
  | error error =>
      obtain ⟨promised, exit⟩ := raises t error inv moved ran
      simp only [commit, outcome, ran]
      exact ⟨inv, promised, exit⟩

/-- A transaction that does not raise. -/
theorem wp_atomic_total {run : σ → Except ε (α × σ)} {post : Except ε α → σ → Prop} {s : σ}
    (succeeds : ∀ t, c.inv t → c.rely s t → ∃ value u, run t = .ok (value, u) ∧
      c.inv u ∧ c.guar t u ∧ ∀ v, c.inv v → c.rely u v → post (.ok value) v) :
    (atomic run).wp c post s := by
  intro t inv moved
  obtain ⟨value, u, ran, kept, promised, exit⟩ := succeeds t inv moved
  simp only [commit, outcome, ran]
  exact ⟨kept, promised, exit⟩

theorem wp_exposed {run : σ → Except ε (α × σ)} {post : Except ε α → σ → Prop} {s : σ}
    (struck : ∀ error t, c.inv t → c.rely s t → post (.error error) t)
    (holds : (atomic run).wp c post s) : (exposed run).wp c post s :=
  ⟨holds, fun error => wp_done (struck error)⟩

theorem wp_mayRaise {post : Except ε Unit → σ → Prop} {s : σ}
    (holds : ∀ result t, c.inv t → c.rely s t → post result t) :
    (mayRaise : Prog σ ε Unit).wp c post s :=
  ⟨wp_done (holds _), fun _ => wp_done (holds _)⟩

theorem wp_require {condition : Bool} {error : ε} {post : Except ε Unit → σ → Prop} {s : σ}
    (passes : condition = true → ∀ t, c.inv t → c.rely s t → post (.ok ()) t)
    (raises : ∀ t, c.inv t → c.rely s t → post (.error error) t) :
    (require condition error).wp c post s := by
  cases condition with
  | true => exact wp_done (passes rfl)
  | false => exact wp_done raises

theorem wp_forEach {items : List β} {body : β → Prog σ ε Unit} {P : σ → Prop}
    {post : Except ε Unit → σ → Prop} {s : σ} (inv : c.inv s) (holds : P s)
    (stable : ∀ s t, c.inv s → c.inv t → c.rely s t → P s → P t)
    (exit : ∀ t, c.inv t → P t → post (.ok ()) t)
    (turn : ∀ item ∈ items, ∀ s, c.inv s → P s → (body item).wp c (fun result t => match result with
      | .ok _ => P t
      | .error error => post (.error error) t) s) :
    (forEach items body).wp c post s := by
  induction items generalizing s with
  | nil => exact wp_done fun t invT moved => exit t invT (stable s t inv invT moved holds)
  | cons item rest ih =>
      refine wp_bind inv (wp_mono ?_ (turn item (by simp) s inv holds))
      intro result t invT after
      cases result with
      | ok _ => exact ih invT after fun other member => turn other (by simp [member])
      | error error => exact after

/-! Programs of which only the return matters: nothing is said of their exceptions. -/

section Returning

variable {P : α → σ → Prop} {Q : β → σ → Prop} {s : σ}

def Returning (P : α → σ → Prop) (result : Except ε α) (s : σ) : Prop := ∀ value, result = .ok value → P value s

theorem wp_raised {error : ε} : (done (.error error) : Prog σ ε α).wp c (Returning P) s :=
  wp_done fun _ _ _ value same => by simp at same

theorem wp_then {p : Prog σ ε α} {rest : α → Prog σ ε β} (inv : c.inv s) (first : p.wp c (Returning P) s)
    (later : ∀ value t, c.inv t → P value t → (rest value).wp c (Returning Q) t) :
    (p.bind rest).wp c (Returning Q) s := by
  refine wp_bind inv (wp_mono ?_ first)
  intro result t invT returned
  cases result with
  | ok value => exact later value t invT (returned value rfl)
  | error error => exact fun value same => by simp at same

theorem wp_handled {p : Prog σ ε α} {handler : ε → Prog σ ε α} (inv : c.inv s) (body : p.wp c (Returning P) s)
    (handles : ∀ error t, c.inv t → (handler error).wp c (Returning P) t) :
    (p.tryCatch handler).wp c (Returning P) s := by
  refine wp_tryCatch inv (wp_mono ?_ body)
  intro result t invT returned
  cases result with
  | ok value => exact returned
  | error error => exact handles error t invT

theorem wp_pause {R : σ → Prop} (stable : ∀ t, c.rely s t → R t) :
    (mayRaise : Prog σ ε Unit).wp c (Returning fun _ => R) s :=
  wp_mayRaise fun _ t _ moved _ _ => stable t moved

end Returning

/-! A program takes only allowed steps when each of its actions, from any state,
is one of them. -/

def Only (allowed : σ → σ → Prop) : Prog σ ε α → Prop
  | done _ => True
  | act effect next => ∀ s, allowed s (effect s) ∧ (next s).Only allowed
  | hazard next fault => next.Only allowed ∧ ∀ error, (fault error).Only allowed

variable {allowed wider : σ → σ → Prop}

theorem only_done (result : Except ε α) : (done result : Prog σ ε α).Only allowed := trivial

theorem Only.mono {p : Prog σ ε α} (widen : ∀ s t, allowed s t → wider s t)
    (only : p.Only allowed) : p.Only wider := by
  induction p with
  | done _ => trivial
  | act effect next ih => exact fun s => ⟨widen _ _ (only s).1, ih s (only s).2⟩
  | hazard next fault ihNext ihFault =>
      exact ⟨ihNext only.1, fun error => ihFault error (only.2 error)⟩

theorem Only.bind {p : Prog σ ε α} {rest : α → Prog σ ε β} (first : p.Only allowed)
    (later : ∀ value, (rest value).Only allowed) : (p.bind rest).Only allowed := by
  induction p with
  | done result =>
      cases result with
      | ok value => exact later value
      | error _ => trivial
  | act effect next ih => exact fun s => ⟨(first s).1, ih s (first s).2⟩
  | hazard next fault ihNext ihFault =>
      exact ⟨ihNext first.1, fun error => ihFault error (first.2 error)⟩

theorem Only.tryCatch {p : Prog σ ε α} {handler : ε → Prog σ ε α} (body : p.Only allowed)
    (handles : ∀ error, (handler error).Only allowed) : (p.tryCatch handler).Only allowed := by
  induction p with
  | done result =>
      cases result with
      | ok _ => trivial
      | error error => exact handles error
  | act effect next ih => exact fun s => ⟨(body s).1, ih s (body s).2⟩
  | hazard next fault ihNext ihFault =>
      exact ⟨ihNext body.1, fun error => ihFault error (body.2 error)⟩

theorem Only.tryFinally {body : Prog σ ε α} {cleanup : Prog σ ε Unit}
    (first : body.Only allowed) (last : cleanup.Only allowed) :
    (Prog.tryFinally body cleanup).Only allowed :=
  Only.bind (Only.tryCatch first fun _ => Only.bind last fun _ => trivial)
    fun _ => Only.bind last fun _ => trivial

theorem only_atomic {run : σ → Except ε (α × σ)} (still : ∀ s, allowed s s)
    (writes : ∀ s value t, run s = .ok (value, t) → allowed s t) :
    (atomic run).Only allowed := by
  intro s
  refine ⟨?_, trivial⟩
  unfold commit
  split
  next value t ran => exact writes s value t ran
  next => exact still s

theorem only_exposed {run : σ → Except ε (α × σ)} (still : ∀ s, allowed s s)
    (writes : ∀ s value t, run s = .ok (value, t) → allowed s t) :
    (exposed run).Only allowed :=
  ⟨only_atomic still writes, fun _ => trivial⟩

theorem only_mayRaise : (mayRaise : Prog σ ε Unit).Only allowed := ⟨trivial, fun _ => trivial⟩

theorem only_require (condition : Bool) (error : ε) :
    (require condition error : Prog σ ε Unit).Only allowed := by
  cases condition <;> trivial

theorem only_forEach {items : List β} {body : β → Prog σ ε Unit}
    (turn : ∀ item ∈ items, (body item).Only allowed) : (forEach items body).Only allowed := by
  induction items with
  | nil => trivial
  | cons item rest ih =>
      exact Only.bind (turn item (by simp)) fun _ => ih fun other member => turn other (by simp [member])

/-- A program whose steps all keep `P` establishes `P` on every exit. -/
theorem wp_of_only {p : Prog σ ε α} {P : σ → Prop} {s : σ} (only : p.Only allowed)
    (inv : c.inv s) (holds : P s)
    (stable : ∀ s t, c.inv s → c.inv t → c.rely s t → P s → P t)
    (kept : ∀ s t, c.inv s → P s → allowed s t → c.inv t ∧ c.guar s t ∧ P t) :
    p.wp c (fun _ t => P t) s := by
  induction p generalizing s with
  | done _ => exact fun t invT moved => stable s t inv invT moved holds
  | act effect next ih =>
      intro t invT moved
      have step := kept t (effect t) invT (stable s t inv invT moved holds) (only t).1
      exact ⟨step.1, step.2.1, ih t (only t).2 step.1 step.2.2⟩
  | hazard next fault ihNext ihFault =>
      exact ⟨ihNext only.1 inv holds, fun error => ihFault error (only.2 error) inv holds⟩

/-! A program that commits at most once, and returns a value only if it is the one
that it has committed. -/

def Commits (quiet : σ → σ → Prop) (commits : α → σ → σ → Prop) : Option α → Prog σ ε α → Prop
  | committed, done (.ok value) => committed = some value
  | _, done (.error _) => True
  | committed, act effect next => ∀ s,
      (quiet s (effect s) ∧ (next s).Commits quiet commits committed) ∨
      (committed = none ∧ ∃ value, commits value s (effect s) ∧
        (next s).Commits quiet commits (some value))
  | committed, hazard next fault =>
      next.Commits quiet commits committed ∧ ∀ error, (fault error).Commits quiet commits committed

section Commitment

variable {quiet : σ → σ → Prop} {effects : α → σ → σ → Prop} {committed : Option α}

theorem commits_error (error : ε) :
    (done (.error error) : Prog σ ε α).Commits quiet effects committed := trivial

theorem commits_ok (value : α) :
    (done (.ok value) : Prog σ ε α).Commits quiet effects (some value) := rfl

theorem Commits.after_quiet {p : Prog σ ε β} {rest : β → Prog σ ε α} (first : p.Only quiet)
    (later : ∀ value, (rest value).Commits quiet effects committed) :
    (p.bind rest).Commits quiet effects committed := by
  induction p with
  | done result =>
      cases result with
      | ok value => exact later value
      | error _ => trivial
  | act effect next ih => exact fun s => .inl ⟨(first s).1, ih s (first s).2⟩
  | hazard next fault ihNext ihFault =>
      exact ⟨ihNext first.1, fun error => ihFault error (first.2 error)⟩

theorem Commits.bind {p : Prog σ ε α} {rest : α → Prog σ ε α} (first : p.Commits quiet effects committed)
    (later : ∀ value, (rest value).Commits quiet effects (some value)) :
    (p.bind rest).Commits quiet effects committed := by
  induction p generalizing committed with
  | done result =>
      cases result with
      | ok value => exact (first : committed = some value) ▸ later value
      | error _ => trivial
  | act effect next ih =>
      intro s
      rcases first s with ⟨still, after⟩ | ⟨fresh, value, commits, after⟩
      · exact .inl ⟨still, ih s after⟩
      · exact .inr ⟨fresh, value, commits, ih s after⟩
  | hazard next fault ihNext ihFault =>
      exact ⟨ihNext first.1, fun error => ihFault error (first.2 error)⟩

theorem Commits.tryCatch {p : Prog σ ε α} {handler : ε → Prog σ ε α}
    (body : p.Commits quiet effects committed)
    (handles : ∀ error state, (handler error).Commits quiet effects state) :
    (p.tryCatch handler).Commits quiet effects committed := by
  induction p generalizing committed with
  | done result =>
      cases result with
      | ok _ => exact body
      | error error => exact handles error committed
  | act effect next ih =>
      intro s
      rcases body s with ⟨still, after⟩ | ⟨fresh, value, commits, after⟩
      · exact .inl ⟨still, ih s after⟩
      · exact .inr ⟨fresh, value, commits, ih s after⟩
  | hazard next fault ihNext ihFault =>
      exact ⟨ihNext body.1, fun error => ihFault error (body.2 error)⟩

theorem Commits.tryFinally {body : Prog σ ε α} {cleanup : Prog σ ε Unit}
    (first : body.Commits quiet effects committed) (last : cleanup.Only quiet) :
    (Prog.tryFinally body cleanup).Commits quiet effects committed := by
  refine Commits.bind (Commits.tryCatch first fun error state => ?_) fun value => ?_
  · exact Commits.after_quiet last fun _ => trivial
  · exact Commits.after_quiet last fun _ => rfl

theorem commits_exposed {run : σ → Except ε (α × σ)} (still : ∀ s, quiet s s)
    (writes : ∀ s value t, run s = .ok (value, t) → effects value s t) :
    (exposed run).Commits quiet effects none := by
  refine ⟨fun s => ?_, fun _ => trivial⟩
  cases ran : run s with
  | ok pair =>
      obtain ⟨value, t⟩ := pair
      simp only [commit, outcome, ran]
      exact .inr ⟨trivial, value, writes s value t ran, rfl⟩
  | error error =>
      simp only [commit, outcome, ran]
      exact .inl ⟨still s, trivial⟩

theorem Commits.mono {p : Prog σ ε α} {wider : α → σ → σ → Prop}
    (widen : ∀ value s t, effects value s t → wider value s t)
    (commits : p.Commits quiet effects committed) : p.Commits quiet wider committed := by
  induction p generalizing committed with
  | done result => cases result <;> exact commits
  | act effect next ih =>
      intro s
      rcases commits s with ⟨still, after⟩ | ⟨fresh, value, commits, after⟩
      · exact .inl ⟨still, ih s after⟩
      · exact .inr ⟨fresh, value, widen _ _ _ commits, ih s after⟩
  | hazard next fault ihNext ihFault =>
      exact ⟨ihNext commits.1, fun error => ihFault error (commits.2 error)⟩

theorem Commits.only {p : Prog σ ε α} (commits : p.Commits quiet effects committed) :
    p.Only fun s t => quiet s t ∨ ∃ value, effects value s t := by
  induction p generalizing committed with
  | done _ => trivial
  | act effect next ih =>
      intro s
      rcases commits s with ⟨still, after⟩ | ⟨_, value, commits, after⟩
      · exact ⟨.inl still, ih s after⟩
      · exact ⟨.inr ⟨value, commits⟩, ih s after⟩
  | hazard next fault ihNext ihFault =>
      exact ⟨ihNext commits.1, fun error => ihFault error (commits.2 error)⟩

/-- What holds before the commit, and of the committed value after it. -/
theorem wp_of_commits {p : Prog σ ε α} {P : Option α → σ → Prop} {s : σ}
    (commits : p.Commits quiet effects committed) (inv : c.inv s) (holds : P committed s)
    (stable : ∀ state s t, c.inv s → c.inv t → c.rely s t → P state s → P state t)
    (kept : ∀ state s t, c.inv s → P state s → quiet s t → c.inv t ∧ c.guar s t ∧ P state t)
    (moved : ∀ value s t, c.inv s → P none s → effects value s t →
      c.inv t ∧ c.guar s t ∧ P (some value) t) :
    p.wp c (fun result t => match result with
      | .ok value => P (some value) t
      | .error _ => ∃ state, P state t) s := by
  induction p generalizing s committed with
  | done result =>
      intro t invT relied
      have after := stable committed s t inv invT relied holds
      cases result with
      | ok value =>
          obtain rfl : committed = some value := commits
          exact after
      | error _ => exact ⟨committed, after⟩
  | act effect next ih =>
      intro t invT relied
      have before := stable committed s t inv invT relied holds
      rcases commits t with ⟨still, later⟩ | ⟨fresh, value, committing, later⟩
      · obtain ⟨invU, promised, after⟩ := kept committed t (effect t) invT before still
        exact ⟨invU, promised, ih t later invU after⟩
      · subst fresh
        obtain ⟨invU, promised, after⟩ := moved value t (effect t) invT before committing
        exact ⟨invU, promised, ih t later invU after⟩
  | hazard next fault ihNext ihFault =>
      exact ⟨ihNext commits.1 inv holds, fun error => ihFault error (commits.2 error) inv holds⟩

end Commitment

end Prog

end Concurrent
