import AgentTree.Program

/-!
Programs that run alone and may be interrupted: the states in which a run may be killed, its ends, and how both relate
to the weakest precondition and to the run that nothing interrupts.
-/

namespace Concurrent

namespace Prog

variable {σ τ ε α β : Type}

/-- The states in which a run may be killed, the first and the last among them. -/
def Visits : Prog σ ε α → σ → σ → Prop
  | done _, s, t => t = s
  | act effect next, s, t => t = s ∨ (next s).Visits (effect s) t
  | hazard next fault, s, t => next.Visits s t ∨ ∃ error, (fault error).Visits s t

/-- The ends of a run that is not killed. -/
def Exits : Prog σ ε α → σ → Except ε α → σ → Prop
  | done result, s, outcome, t => outcome = result ∧ t = s
  | act effect next, s, outcome, t => (next s).Exits (effect s) outcome t
  | hazard next fault, s, outcome, t => next.Exits s outcome t ∨ ∃ error, (fault error).Exits s outcome t

theorem visits_start (p : Prog σ ε α) (s : σ) : p.Visits s s := by
  induction p with
  | done _ => rfl
  | act effect next _ => exact .inl rfl
  | hazard next fault ih _ => exact .inl ih

theorem visits_of_exits {p : Prog σ ε α} {s t : σ} {outcome : Except ε α} (exit : p.Exits s outcome t) :
    p.Visits s t := by
  induction p generalizing s with
  | done _ => exact exit.2
  | act effect next ih => exact .inr (ih s exit)
  | hazard next fault ihNext ihFault =>
      rcases exit with exit | ⟨error, exit⟩
      · exact .inl (ihNext exit)
      · exact .inr ⟨error, ihFault error exit⟩

theorem exits_alone (p : Prog σ ε α) (s : σ) : p.Exits s (p.alone s).1 (p.alone s).2 := by
  induction p generalizing s with
  | done _ => exact ⟨rfl, rfl⟩
  | act effect next ih => exact ih s (effect s)
  | hazard next fault ih _ => exact .inl (ih s)

theorem exits_of_alone {p : Prog σ ε α} {s t : σ} {outcome : Except ε α} (ran : p.alone s = (outcome, t)) :
    p.Exits s outcome t := by
  have exit := exits_alone p s
  rwa [ran] at exit

theorem visits_bind {p : Prog σ ε α} {rest : α → Prog σ ε β} {s t : σ} (visit : p.Visits s t) :
    (p.bind rest).Visits s t := by
  induction p generalizing s with
  | done result =>
      obtain rfl : t = s := visit
      exact visits_start _ _
  | act effect next ih =>
      rcases visit with rfl | visit
      · exact .inl rfl
      · exact .inr (ih s visit)
  | hazard next fault ihNext ihFault =>
      rcases visit with visit | ⟨error, visit⟩
      · exact .inl (ihNext visit)
      · exact .inr ⟨error, ihFault error visit⟩

theorem visits_later {p : Prog σ ε α} {rest : α → Prog σ ε β} {s t u : σ} {value : α} (exit : p.Exits s (.ok value) t)
    (visit : (rest value).Visits t u) : (p.bind rest).Visits s u := by
  induction p generalizing s with
  | done result =>
      obtain ⟨rfl, rfl⟩ := exit
      exact visit
  | act effect next ih => exact .inr (ih s exit)
  | hazard next fault ihNext ihFault =>
      rcases exit with exit | ⟨error, exit⟩
      · exact .inl (ihNext exit)
      · exact .inr ⟨error, ihFault error exit⟩

theorem visits_tryCatch {p : Prog σ ε α} {handler : ε → Prog σ ε α} {s t : σ} (visit : p.Visits s t) :
    (p.tryCatch handler).Visits s t := by
  induction p generalizing s with
  | done result =>
      obtain rfl : t = s := visit
      exact visits_start _ _
  | act effect next ih =>
      rcases visit with rfl | visit
      · exact .inl rfl
      · exact .inr (ih s visit)
  | hazard next fault ihNext ihFault =>
      rcases visit with visit | ⟨error, visit⟩
      · exact .inl (ihNext visit)
      · exact .inr ⟨error, ihFault error visit⟩

/-! The contract of a program that nothing runs beside. -/

def solo (inv : σ → Prop) : Contract σ where
  inv := inv
  rely := Eq
  guar _ _ := True
  rely_refl _ := rfl
  rely_trans := Eq.trans

section Solo

variable {inv : σ → Prop} {p : Prog σ ε α} {post : Except ε α → σ → Prop} {s : σ}

theorem wp_solo (start : inv s) :
    p.wp (solo inv) post s ↔ (∀ t, p.Visits s t → inv t) ∧ ∀ outcome t, p.Exits s outcome t → post outcome t := by
  induction p generalizing s with
  | done result =>
      constructor
      · intro holds
        exact ⟨fun t same => same ▸ start, fun outcome t ⟨same, here⟩ => same ▸ here ▸ holds s start rfl⟩
      · rintro ⟨_, exit⟩ t _ rfl
        exact exit result s ⟨rfl, rfl⟩
  | act effect next ih =>
      constructor
      · intro holds
        obtain ⟨kept, _, later⟩ := holds s start rfl
        obtain ⟨visits, exits⟩ := (ih s kept).mp later
        exact ⟨fun t visit => visit.elim (fun same => same ▸ start) (visits t), exits⟩
      · rintro ⟨visits, exits⟩ t _ rfl
        have kept := visits (effect s) (.inr (visits_start _ _))
        exact ⟨kept, trivial, (ih s kept).mpr ⟨fun t visit => visits t (.inr visit), exits⟩⟩
  | hazard next fault ihNext ihFault =>
      constructor
      · rintro ⟨first, struck⟩
        obtain ⟨visits, exits⟩ := (ihNext start).mp first
        have faults := fun error => (ihFault error start).mp (struck error)
        exact ⟨fun t visit => visit.elim (visits t) fun ⟨error, visit⟩ => (faults error).1 t visit,
          fun outcome t exit => exit.elim (exits outcome t) fun ⟨error, exit⟩ => (faults error).2 outcome t exit⟩
      · rintro ⟨visits, exits⟩
        exact ⟨(ihNext start).mpr ⟨fun t visit => visits t (.inl visit), fun outcome t exit => exits outcome t (.inl exit)⟩,
          fun error => (ihFault error start).mpr ⟨fun t visit => visits t (.inr ⟨error, visit⟩),
            fun outcome t exit => exits outcome t (.inr ⟨error, exit⟩)⟩⟩

theorem visits_kept {t : σ} (start : inv s) (holds : p.wp (solo inv) post s) (visit : p.Visits s t) : inv t :=
  ((wp_solo start).mp holds).1 t visit

theorem exits_post {outcome : Except ε α} {t : σ} (start : inv s) (holds : p.wp (solo inv) post s)
    (exit : p.Exits s outcome t) : post outcome t :=
  ((wp_solo start).mp holds).2 outcome t exit

theorem solo_weaken {wider : σ → Prop} (start : inv s) (weaken : ∀ t, inv t → wider t) (holds : p.wp (solo inv) post s) :
    p.wp (solo wider) post s := by
  obtain ⟨visits, exits⟩ := (wp_solo start).mp holds
  exact (wp_solo (weaken s start)).mpr ⟨fun t visit => weaken t (visits t visit), exits⟩

theorem solo_done {result : Except ε α} (holds : post result s) : (done result).wp (solo inv) post s := by
  rintro t _ rfl
  exact holds

theorem solo_exposed {run : σ → Except ε (α × σ)} (raises : ∀ error, post (.error error) s)
    (runs : ∀ value t, run s = .ok (value, t) → inv t ∧ post (.ok value) t) : (exposed run).wp (solo inv) post s := by
  refine wp_exposed ?_ (wp_atomic ?_ ?_)
  · rintro error t _ rfl
    exact raises error
  · rintro t value u _ rfl ran
    obtain ⟨kept, exit⟩ := runs value u ran
    refine ⟨kept, trivial, ?_⟩
    rintro v _ rfl
    exact exit
  · rintro t error _ rfl _
    refine ⟨trivial, ?_⟩
    rintro v _ rfl
    exact raises error

theorem solo_mayRaise {post : Except ε Unit → σ → Prop} (holds : ∀ result, post result s) :
    (mayRaise : Prog σ ε Unit).wp (solo inv) post s :=
  ⟨solo_done (holds _), fun _ => solo_done (holds _)⟩

/-- A program whose steps all keep `P`, which is all that its ends are asked for. -/
theorem solo_of_only {allowed : σ → σ → Prop} {P : σ → Prop} (only : p.Only allowed) (start : inv s) (holds : P s)
    (kept : ∀ s t, P s → allowed s t → inv t ∧ P t) : p.wp (solo inv) (fun _ t => P t) s := by
  refine wp_of_only only start holds ?_ ?_
  · rintro s t _ _ rfl holds
    exact holds
  · intro s t _ holds step
    obtain ⟨invT, after⟩ := kept s t holds step
    exact ⟨invT, trivial, after⟩

end Solo

/-! Programs on a part of the state. -/

end Prog

structure Lens (σ τ : Type) where
  get : σ → τ
  set : τ → σ → σ
  get_set : ∀ part s, get (set part s) = part
  set_get : ∀ s, set (get s) s = s
  set_set : ∀ part other s, set part (set other s) = set part s

namespace Prog

variable {σ τ ε α β : Type} {lens : Lens σ τ}

def zoom (lens : Lens σ τ) : Prog τ ε α → Prog σ ε α
  | done result => done result
  | act effect next => act (fun s => lens.set (effect (lens.get s)) s) fun s => zoom lens (next (lens.get s))
  | hazard next fault => hazard (zoom lens next) fun error => zoom lens (fault error)

theorem alone_zoom (p : Prog τ ε α) (s : σ) :
    (zoom lens p).alone s = ((p.alone (lens.get s)).1, lens.set (p.alone (lens.get s)).2 s) := by
  induction p generalizing s with
  | done result => simp [zoom, alone, lens.set_get]
  | act effect next ih =>
      rw [zoom, alone, ih, lens.get_set, lens.set_set]
      rfl
  | hazard next fault ih _ => exact ih s

theorem visits_zoom {p : Prog τ ε α} {s t : σ} :
    (zoom lens p).Visits s t ↔ ∃ part, p.Visits (lens.get s) part ∧ t = lens.set part s := by
  induction p generalizing s with
  | done result => simp [zoom, Visits, lens.set_get]
  | act effect next ih =>
      simp only [zoom, Visits, ih, lens.get_set, lens.set_set]
      constructor
      · rintro (rfl | ⟨part, visit, rfl⟩)
        · exact ⟨lens.get t, .inl rfl, (lens.set_get t).symm⟩
        · exact ⟨part, .inr visit, rfl⟩
      · rintro ⟨part, rfl | visit, rfl⟩
        · exact .inl (lens.set_get s)
        · exact .inr ⟨part, visit, rfl⟩
  | hazard next fault ihNext ihFault =>
      simp only [zoom, Visits, ihNext, ihFault]
      constructor
      · rintro (⟨part, visit, rfl⟩ | ⟨error, part, visit, rfl⟩)
        · exact ⟨part, .inl visit, rfl⟩
        · exact ⟨part, .inr ⟨error, visit⟩, rfl⟩
      · rintro ⟨part, visit | ⟨error, visit⟩, rfl⟩
        · exact .inl ⟨part, visit, rfl⟩
        · exact .inr ⟨error, part, visit, rfl⟩

theorem exits_zoom {p : Prog τ ε α} {s t : σ} {outcome : Except ε α} :
    (zoom lens p).Exits s outcome t ↔ ∃ part, p.Exits (lens.get s) outcome part ∧ t = lens.set part s := by
  induction p generalizing s with
  | done result =>
      simp only [zoom, Exits]
      constructor
      · rintro ⟨rfl, rfl⟩
        exact ⟨lens.get t, ⟨rfl, rfl⟩, (lens.set_get t).symm⟩
      · rintro ⟨part, ⟨rfl, rfl⟩, rfl⟩
        exact ⟨rfl, lens.set_get s⟩
  | act effect next ih => simp only [zoom, Exits, ih, lens.get_set, lens.set_set]
  | hazard next fault ihNext ihFault =>
      simp only [zoom, Exits, ihNext, ihFault]
      constructor
      · rintro (⟨part, exit, rfl⟩ | ⟨error, part, exit, rfl⟩)
        · exact ⟨part, .inl exit, rfl⟩
        · exact ⟨part, .inr ⟨error, exit⟩, rfl⟩
      · rintro ⟨part, exit | ⟨error, exit⟩, rfl⟩
        · exact .inl ⟨part, exit, rfl⟩
        · exact .inr ⟨error, part, exit, rfl⟩

/-- The rule of a program on a part that the invariant does not look at. -/
theorem solo_zoom {inv : σ → Prop} {p : Prog τ ε α} {post : Except ε α → σ → Prop} {s : σ}
    (free : ∀ part, inv (lens.set part s))
    (exits : ∀ outcome part, p.Exits (lens.get s) outcome part → post outcome (lens.set part s)) :
    (zoom lens p).wp (solo inv) post s := by
  have start : inv s := lens.set_get s ▸ free (lens.get s)
  refine (wp_solo start).mpr ⟨?_, ?_⟩
  · intro t visit
    obtain ⟨part, _, rfl⟩ := visits_zoom.mp visit
    exact free part
  · intro outcome t exit
    obtain ⟨part, ended, rfl⟩ := exits_zoom.mp exit
    exact exits outcome part ended

/-! Programs that return only when nothing has struck them. -/

def Raises : Prog σ ε α → Prop
  | done (.ok _) => False
  | done (.error _) => True
  | act _ next => ∀ s, (next s).Raises
  | hazard next fault => next.Raises ∧ ∀ error, (fault error).Raises

def Strict : Prog σ ε α → Prop
  | done _ => True
  | act _ next => ∀ s, (next s).Strict
  | hazard next fault => next.Strict ∧ ∀ error, (fault error).Raises

section Strictness

variable {p : Prog σ ε α} {s t : σ}

theorem Raises.strict (raises : p.Raises) : p.Strict := by
  induction p with
  | done _ => trivial
  | act effect next ih => exact fun s => ih s (raises s)
  | hazard next fault ih _ => exact ⟨ih raises.1, raises.2⟩

theorem Raises.exits {value : α} (raises : p.Raises) : ¬p.Exits s (.ok value) t := by
  induction p generalizing s with
  | done result =>
      rintro ⟨rfl, _⟩
      exact raises
  | act effect next ih => exact ih s (raises s)
  | hazard next fault ihNext ihFault =>
      rintro (exit | ⟨error, exit⟩)
      · exact ihNext raises.1 exit
      · exact ihFault error (raises.2 error) exit

theorem Raises.bind {rest : α → Prog σ ε β} (raises : p.Raises) : (p.bind rest).Raises := by
  induction p with
  | done result =>
      cases result with
      | ok _ => exact raises.elim
      | error _ => trivial
  | act effect next ih => exact fun s => ih s (raises s)
  | hazard next fault ihNext ihFault => exact ⟨ihNext raises.1, fun error => ihFault error (raises.2 error)⟩

theorem Raises.after {rest : α → Prog σ ε β} (later : ∀ value, (rest value).Raises) : (p.bind rest).Raises := by
  induction p with
  | done result =>
      cases result with
      | ok value => exact later value
      | error _ => trivial
  | act effect next ih => exact fun s => ih s
  | hazard next fault ihNext ihFault => exact ⟨ihNext, ihFault⟩

theorem Raises.tryCatch {handler : ε → Prog σ ε α} (body : p.Raises) (handles : ∀ error, (handler error).Raises) :
    (p.tryCatch handler).Raises := by
  induction p with
  | done result =>
      cases result with
      | ok _ => exact body.elim
      | error error => exact handles error
  | act effect next ih => exact fun s => ih s (body s)
  | hazard next fault ihNext ihFault => exact ⟨ihNext body.1, fun error => ihFault error (body.2 error)⟩

theorem Strict.alone {value : α} (strict : p.Strict) (exit : p.Exits s (.ok value) t) : p.alone s = (.ok value, t) := by
  induction p generalizing s with
  | done result =>
      obtain ⟨rfl, rfl⟩ := exit
      rfl
  | act effect next ih => exact ih s (strict s) exit
  | hazard next fault ih _ =>
      rcases exit with exit | ⟨error, exit⟩
      · exact ih strict.1 exit
      · exact absurd exit (strict.2 error).exits

theorem Strict.bind {rest : α → Prog σ ε β} (first : p.Strict) (later : ∀ value, (rest value).Strict) :
    (p.bind rest).Strict := by
  induction p with
  | done result =>
      cases result with
      | ok value => exact later value
      | error _ => trivial
  | act effect next ih => exact fun s => ih s (first s)
  | hazard next fault ih _ => exact ⟨ih first.1, fun error => (first.2 error).bind⟩

/-- A handler that always raises. -/
theorem Strict.tryCatch {handler : ε → Prog σ ε α} (body : p.Strict) (raises : ∀ error, (handler error).Raises) :
    (p.tryCatch handler).Strict := by
  induction p with
  | done result =>
      cases result with
      | ok _ => trivial
      | error error => exact (raises error).strict
  | act effect next ih => exact fun s => ih s (body s)
  | hazard next fault ih _ => exact ⟨ih body.1, fun error => (body.2 error).tryCatch raises⟩

theorem strict_atomic (run : σ → Except ε (α × σ)) : (atomic run).Strict := fun _ => trivial

theorem strict_exposed (run : σ → Except ε (α × σ)) : (exposed run).Strict := ⟨strict_atomic run, fun _ => trivial⟩

theorem strict_mayRaise : (mayRaise : Prog σ ε Unit).Strict := ⟨trivial, fun _ => trivial⟩

theorem strict_require (condition : Bool) (error : ε) : (require condition error : Prog σ ε Unit).Strict := by
  cases condition <;> trivial

theorem strict_forEach {items : List β} {body : β → Prog σ ε Unit} (turn : ∀ item ∈ items, (body item).Strict) :
    (forEach items body).Strict := by
  induction items with
  | nil => trivial
  | cons item rest ih =>
      exact Strict.bind (turn item (by simp)) fun _ => ih fun other member => turn other (by simp [member])

end Strictness

/-! Programs that never raise. -/

def Returns : Prog σ ε α → Prop
  | done (.ok _) => True
  | done (.error _) => False
  | act _ next => ∀ s, (next s).Returns
  | hazard next fault => next.Returns ∧ ∀ error, (fault error).Returns

section Returning

variable {p : Prog σ ε α} {s t : σ}

theorem Returns.exits {error : ε} (returns : p.Returns) : ¬p.Exits s (.error error) t := by
  induction p generalizing s with
  | done result =>
      rintro ⟨rfl, _⟩
      exact returns
  | act effect next ih => exact ih s (returns s)
  | hazard next fault ihNext ihFault =>
      rintro (exit | ⟨error, exit⟩)
      · exact ihNext returns.1 exit
      · exact ihFault error (returns.2 error) exit

theorem Returns.bind {rest : α → Prog σ ε β} (first : p.Returns) (later : ∀ value, (rest value).Returns) :
    (p.bind rest).Returns := by
  induction p with
  | done result =>
      cases result with
      | ok value => exact later value
      | error _ => exact first.elim
  | act effect next ih => exact fun s => ih s (first s)
  | hazard next fault ihNext ihFault => exact ⟨ihNext first.1, fun error => ihFault error (first.2 error)⟩

theorem returns_forEach {items : List β} {body : β → Prog σ ε Unit} (turn : ∀ item ∈ items, (body item).Returns) :
    (forEach items body).Returns := by
  induction items with
  | nil => trivial
  | cons item rest ih =>
      exact Returns.bind (turn item (by simp)) fun _ => ih fun other member => turn other (by simp [member])

theorem Returns.zoom {lens : Lens σ τ} {q : Prog τ ε α} (returns : q.Returns) : (zoom lens q).Returns := by
  induction q with
  | done result => cases result <;> exact returns
  | act effect next ih => exact fun s => ih _ (returns _)
  | hazard next fault ihNext ihFault => exact ⟨ihNext returns.1, fun error => ihFault error (returns.2 error)⟩

end Returning

/-! What nothing interrupts. -/

section Alone

variable {p : Prog σ ε α} {s t : σ}

theorem alone_bind_ok {rest : α → Prog σ ε β} {value : β} : (p >>= rest).alone s = (.ok value, t) ↔
    ∃ first u, p.alone s = (.ok first, u) ∧ (rest first).alone u = (.ok value, t) := by
  rw [alone_bind]
  cases begun : p.alone s with
  | mk outcome u =>
      cases outcome with
      | ok first =>
          simp only [Prod.mk.injEq, Except.ok.injEq]
          exact ⟨fun later => ⟨first, u, ⟨rfl, rfl⟩, later⟩, fun ⟨_, _, ⟨rfl, rfl⟩, later⟩ => later⟩
      | error error => simp

theorem alone_bind_error {rest : α → Prog σ ε β} {error : ε} (raised : p.alone s = (.error error, t)) :
    (p >>= rest).alone s = (.error error, t) := by
  rw [alone_bind, raised]

theorem alone_tryCatch (handler : ε → Prog σ ε α) : (p.tryCatch handler).alone s = match p.alone s with
    | (.ok value, t) => (.ok value, t)
    | (.error error, t) => (handler error).alone t := by
  induction p generalizing s with
  | done result => cases result <;> rfl
  | act effect next ih => exact ih s
  | hazard next fault ih _ => exact ih

theorem alone_tryCatch_ok {handler : ε → Prog σ ε α} {value : α} (ran : p.alone s = (.ok value, t)) :
    (p.tryCatch handler).alone s = (.ok value, t) := by
  rw [alone_tryCatch, ran]

theorem alone_tryFinally_ok {cleanup : Prog σ ε Unit} {value : α} {u : σ} (ran : p.alone s = (.ok value, t))
    (cleaned : cleanup.alone t = (.ok (), u)) : (tryFinally p cleanup).alone s = (.ok value, u) :=
  alone_bind_ok.mpr ⟨value, t, alone_tryCatch_ok ran, alone_bind_ok.mpr ⟨(), u, cleaned, rfl⟩⟩

theorem Returns.alone (returns : p.Returns) (s : σ) : ∃ value t, p.alone s = (.ok value, t) := by
  have exit := exits_alone p s
  cases ran : p.alone s with
  | mk outcome t =>
      rw [ran] at exit
      cases outcome with
      | ok value => exact ⟨value, t, rfl⟩
      | error error => exact absurd exit returns.exits

theorem alone_exposed (run : σ → Except ε (α × σ)) (s : σ) :
    (exposed run : Prog σ ε α).alone s = (outcome run s, commit run s) := rfl

theorem alone_exposed_ok {run : σ → Except ε (α × σ)} {value : α} :
    (exposed run).alone s = (.ok value, t) ↔ run s = .ok (value, t) := by
  rw [alone_exposed, outcome, commit]
  cases ran : run s with
  | ok pair => simp [Prod.ext_iff]
  | error error => simp

theorem alone_require_ok {condition : Bool} {error : ε} {result : Unit} :
    (require condition error).alone s = (.ok result, t) ↔ condition = true ∧ t = s := by
  cases condition <;> simp [require, alone, eq_comm]

theorem alone_ofExcept_ok {result : Except ε α} {value : α} :
    (ofExcept result).alone s = (.ok value, t) ↔ result = .ok value ∧ t = s := by
  simp [ofExcept, alone, eq_comm]

theorem alone_mayRaise_ok {result : Unit} : (mayRaise : Prog σ ε Unit).alone s = (.ok result, t) ↔ t = s := by
  simp [mayRaise, alone, eq_comm]

theorem alone_pure_ok {value result : α} : (pure value : Prog σ ε α).alone s = (.ok result, t) ↔ value = result ∧ t = s := by
  simp [pure, alone, eq_comm]

/-- What every turn of a loop keeps. -/
theorem alone_forEach_kept {items : List β} {body : β → Prog σ ε Unit} (P : σ → Prop) (start : P s)
    (turn : ∀ item ∈ items, ∀ u v, P u → (body item).alone u = (.ok (), v) → P v)
    (ran : (forEach items body).alone s = (.ok (), t)) : P t := by
  induction items generalizing s with
  | nil =>
      obtain rfl : s = t := by simpa [forEach, alone] using ran
      exact start
  | cons item rest ih =>
      obtain ⟨_, u, first, later⟩ := alone_bind_ok.mp ran
      exact ih (turn item (by simp) s u start first) (fun other member => turn other (by simp [member])) later

end Alone

end Prog

end Concurrent
