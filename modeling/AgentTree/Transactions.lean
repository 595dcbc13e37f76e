import Mathlib.Data.List.Chain

/-!
Nested transactions on one connection.  An outermost block begins a transaction,
an inner one sets a savepoint, and an exception that leaves a block takes the
state back to where the block began.  A run is a list of commands, so that every
nesting of blocks and calls is one.
-/

namespace Transactional

variable {σ κ : Type}

/-- The state a connection sees, and the states to go back to, innermost first. -/
structure Session (σ : Type) where
  saved : List σ
  current : σ

inductive Command (κ : Type) : Type
  | enter
  | call (k : κ)
  | leave
  | rollback

namespace Session

def start (s : σ) : Session σ := ⟨[], s⟩

/-- What other connections see. -/
def committed (session : Session σ) : σ :=
  (session.current :: session.saved).getLast (List.cons_ne_nil _ _)

def step (run : κ → σ → σ) (session : Session σ) : Command κ → Session σ
  | .enter => ⟨session.current :: session.saved, session.current⟩
  | .call k => ⟨session.saved, run k session.current⟩
  | .leave => ⟨session.saved.tail, session.current⟩
  | .rollback => ⟨session.saved.tail, session.saved.headD session.current⟩

def play (run : κ → σ → σ) (session : Session σ) (commands : List (Command κ)) : Session σ :=
  commands.foldl (step run) session

/-- Each state of the session satisfies the invariant and has moved on from the ones below it. -/
structure Sound (inv : σ → Prop) (moves : σ → σ → Prop) (session : Session σ) : Prop where
  all : ∀ s ∈ session.current :: session.saved, inv s
  ordered : (session.current :: session.saved).Pairwise fun newer older => moves older newer

section Soundness

variable {run : κ → σ → σ} {inv : σ → Prop} {moves : σ → σ → Prop} {session : Session σ}

theorem Sound.start {s : σ} (holds : inv s) : Sound inv moves (start s) :=
  ⟨by simpa [Session.start] using holds, by simp [Session.start]⟩

theorem Sound.committed (sound : Sound inv moves session) : inv session.committed :=
  sound.all _ (List.getLast_mem _)

theorem Sound.current (sound : Sound inv moves session) : inv session.current :=
  sound.all _ (by simp)

theorem Sound.step (still : ∀ s, moves s s)
    (compose : ∀ {s t u}, moves s t → moves t u → moves s u)
    (kept : ∀ k s, inv s → inv (run k s) ∧ moves s (run k s))
    (sound : Sound inv moves session) (command : Command κ) :
    Sound inv moves (session.step run command) ∧
      moves session.committed (session.step run command).committed := by
  obtain ⟨all, ordered⟩ := sound
  obtain ⟨saved, current⟩ := session
  rw [List.pairwise_cons] at ordered
  cases command with
  | enter =>
      refine ⟨⟨by simpa [Session.step] using all, ?_⟩, ?_⟩
      · simp only [Session.step, List.pairwise_cons]
        exact ⟨fun older member => (List.mem_cons.mp member).elim (· ▸ still _) (ordered.1 older),
          ordered⟩
      · simpa [Session.step, Session.committed] using still _
  | call k =>
      have next := kept k current (all current (by simp))
      refine ⟨⟨?_, ?_⟩, ?_⟩
      · intro s member
        rcases List.mem_cons.mp member with rfl | member
        · exact next.1
        · exact all s (List.mem_cons_of_mem _ member)
      · simp only [Session.step, List.pairwise_cons]
        exact ⟨fun older member => compose (ordered.1 older member) next.2, ordered.2⟩
      · cases saved with
        | nil => exact next.2
        | cons older rest => simpa [Session.step, Session.committed] using still _
  | leave =>
      cases saved with
      | nil => exact ⟨⟨all, List.pairwise_cons.mpr ordered⟩, still _⟩
      | cons older rest =>
          refine ⟨⟨?_, ?_⟩, ?_⟩
          · intro s member
            refine all s ?_
            rcases List.mem_cons.mp member with rfl | member
            · simp
            · exact List.mem_cons_of_mem _ (List.mem_cons_of_mem _ member)
          · simp only [Session.step, List.tail_cons, List.pairwise_cons]
            exact ⟨fun s member => ordered.1 s (List.mem_cons_of_mem _ member),
              (List.pairwise_cons.mp ordered.2).2⟩
          · cases rest with
            | nil => exact ordered.1 older (by simp)
            | cons bottom rest => simpa [Session.step, Session.committed] using still _
  | rollback =>
      cases saved with
      | nil => exact ⟨⟨all, List.pairwise_cons.mpr ordered⟩, still _⟩
      | cons older rest =>
          refine ⟨⟨?_, ordered.2⟩, ?_⟩
          · exact fun s member => all s (List.mem_cons_of_mem _ member)
          · simpa [Session.step, Session.committed] using still _

/-- What each call keeps holds of every committed state, however the calls are nested. -/
theorem Sound.play (still : ∀ s, moves s s)
    (compose : ∀ {s t u}, moves s t → moves t u → moves s u)
    (kept : ∀ k s, inv s → inv (run k s) ∧ moves s (run k s))
    (sound : Sound inv moves session) (commands : List (Command κ)) :
    Sound inv moves (session.play run commands) ∧
      moves session.committed (session.play run commands).committed := by
  induction commands generalizing session with
  | nil => exact ⟨sound, still _⟩
  | cons command rest ih =>
      have first := sound.step still compose kept command
      have later := ih first.1
      exact ⟨later.1, compose first.2 later.2⟩

end Soundness

end Session

end Transactional
