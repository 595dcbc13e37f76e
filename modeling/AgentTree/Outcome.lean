import Mathlib.Data.List.Forall2

/-!
Computations that return a value or raise, taken apart one step at a time.
-/

namespace Outcome

variable {ε α β σ : Type}

/-- Raise unless the condition holds. -/
def ensure (condition : Bool) (error : ε) : Except ε Unit :=
  if condition then .ok () else .error error

/-- The value, or the error where there is none. -/
def orRaise (value : Option α) (error : ε) : Except ε α :=
  match value with
  | some value => .ok value
  | none => .error error

theorem bind_eq_ok {first : Except ε α} {rest : α → Except ε β} {result : β} :
    (first >>= rest) = .ok result ↔ ∃ value, first = .ok value ∧ rest value = .ok result := by
  cases first with
  | ok value => simp [bind, Except.bind]
  | error error => simp [bind, Except.bind]

theorem bind_eq_error {first : Except ε α} {rest : α → Except ε β} {error : ε} :
    (first >>= rest) = .error error ↔
      first = .error error ∨ ∃ value, first = .ok value ∧ rest value = .error error := by
  cases first with
  | ok value => simp [bind, Except.bind]
  | error other => simp [bind, Except.bind]

theorem pure_eq_ok {value result : α} :
    (pure value : Except ε α) = .ok result ↔ value = result := by
  simp [pure, Except.pure]

@[simp] theorem throw_eq_ok {error : ε} {result : α} :
    (throw error : Except ε α) = .ok result ↔ False := by
  simp [throw, throwThe, MonadExceptOf.throw]

theorem ensure_eq_ok {condition : Bool} {error : ε} {result : Unit} :
    ensure condition error = .ok result ↔ condition = true := by
  cases condition <;> simp [ensure]

theorem orRaise_eq_ok {value : Option α} {error : ε} {result : α} :
    orRaise value error = .ok result ↔ value = some result := by
  cases value <;> simp [orRaise]

@[simp] theorem pure_eq_error {value : α} {error : ε} :
    (pure value : Except ε α) = .error error ↔ False := by
  simp [pure, Except.pure]

theorem ensure_eq_error {condition : Bool} {error raised : ε} :
    ensure condition error = .error raised ↔ condition = false ∧ error = raised := by
  cases condition <;> simp [ensure]

theorem orRaise_eq_error {value : Option α} {error raised : ε} :
    orRaise value error = .error raised ↔ value = none ∧ error = raised := by
  cases value <;> simp [orRaise]

/-! Loops over a list. -/

theorem forM_eq_ok {items : List α} {action : α → Except ε Unit} {result : Unit} :
    items.forM action = .ok result ↔ ∀ item ∈ items, action item = .ok () := by
  induction items with
  | nil => simp [pure, Except.pure]
  | cons item rest ih =>
      rw [show (item :: rest).forM action = (action item >>= fun _ => rest.forM action) from rfl, bind_eq_ok]
      simp only [ih, List.forall_mem_cons]
      exact ⟨fun ⟨_, first, others⟩ => ⟨first, others⟩, fun ⟨first, others⟩ => ⟨(), first, others⟩⟩

theorem mapM_eq_ok {items : List α} {action : α → Except ε β} {results : List β} :
    items.mapM action = .ok results ↔ List.Forall₂ (fun item result => action item = .ok result) items results := by
  induction items generalizing results with
  | nil => simp [pure, Except.pure, eq_comm]
  | cons item rest ih =>
      simp only [List.mapM_cons, bind_eq_ok, pure_eq_ok, ih, List.forall₂_cons_left_iff]
      constructor
      · rintro ⟨first, acted, others, loop, rfl⟩
        exact ⟨first, others, acted, loop, rfl⟩
      · rintro ⟨first, others, acted, loop, rfl⟩
        exact ⟨first, acted, others, loop, rfl⟩

theorem mapM_map_ok {items : List σ} {change : σ → α} {action : α → Except ε β} {value : σ → β}
    (each : ∀ item ∈ items, action (change item) = .ok (value item)) :
    (items.map change).mapM action = .ok (items.map value) := by
  induction items with
  | nil => rfl
  | cons item rest ih =>
      rw [List.map_cons, List.mapM_cons, each item List.mem_cons_self,
        ih fun other member => each other (List.mem_cons_of_mem _ member)]
      rfl

theorem mapM_ok {items : List α} {action : α → Except ε β} {value : α → β}
    (each : ∀ item ∈ items, action item = .ok (value item)) : items.mapM action = .ok (items.map value) := by
  have mapped : (items.map fun item => item).mapM action = .ok (items.map value) := mapM_map_ok each
  simpa using mapped

theorem mapM_total {items : List α} {action : α → Except ε β}
    (each : ∀ item ∈ items, ∃ value, action item = .ok value) : ∃ values, items.mapM action = .ok values := by
  induction items with
  | nil => exact ⟨[], rfl⟩
  | cons item rest ih =>
      obtain ⟨first, acted⟩ := each item List.mem_cons_self
      obtain ⟨others, looped⟩ := ih fun other member => each other (List.mem_cons_of_mem _ member)
      refine ⟨first :: others, ?_⟩
      rw [List.mapM_cons, acted, looped]
      rfl

theorem mapM_mem {items : List α} {action : α → Except ε β} {results : List β}
    (looped : items.mapM action = .ok results) {result : β} (member : result ∈ results) :
    ∃ item ∈ items, action item = .ok result := by
  have each := mapM_eq_ok.mp looped
  clear looped
  induction each with
  | nil => simp at member
  | cons first _ ih =>
      rcases List.mem_cons.mp member with rfl | later
      · exact ⟨_, List.mem_cons_self, first⟩
      · obtain ⟨item, there, acted⟩ := ih later
        exact ⟨item, List.mem_cons_of_mem _ there, acted⟩

theorem mapM_each {items : List α} {action : α → Except ε β} {results : List β}
    (looped : items.mapM action = .ok results) {item : α} (member : item ∈ items) :
    ∃ result ∈ results, action item = .ok result := by
  have each := mapM_eq_ok.mp looped
  clear looped
  induction each with
  | nil => simp at member
  | cons first _ ih =>
      rcases List.mem_cons.mp member with rfl | later
      · exact ⟨_, List.mem_cons_self, first⟩
      · obtain ⟨result, there, acted⟩ := ih later
        exact ⟨result, List.mem_cons_of_mem _ there, acted⟩

/-- What every turn of a loop keeps. -/
theorem foldlM_kept {items : List α} {turn : σ → α → Except ε σ} (P : σ → Prop) {first last : σ}
    (kept : ∀ before item after, item ∈ items → P before → turn before item = .ok after → P after)
    (start : P first) (looped : items.foldlM turn first = .ok last) : P last := by
  induction items generalizing first with
  | nil =>
      obtain rfl : first = last := by simpa [pure, Except.pure] using looped
      exact start
  | cons item rest ih =>
      rw [List.foldlM_cons] at looped
      obtain ⟨next, turned, later⟩ := bind_eq_ok.mp looped
      exact ih (fun before other after member => kept before other after (List.mem_cons_of_mem _ member))
        (kept first item next List.mem_cons_self start turned) later

/-- A transaction and what is done with its value; an error rolls the state back. -/
def transact (run : σ → Except ε (α × σ)) (reply : α → σ → Except ε β) (s : σ) : Except ε β × σ :=
  match run s with
  | .ok (value, after) => (reply value after, after)
  | .error error => (.error error, s)

theorem transact_kept {run : σ → Except ε (α × σ)} {reply : α → σ → Except ε β} {s : σ}
    (P : σ → Prop) (still : P s) (kept : ∀ value after, run s = .ok (value, after) → P after) :
    P (transact run reply s).2 := by
  unfold transact
  split
  next value after ran => exact kept value after ran
  next => exact still

theorem transact_raises {run : σ → Except ε (α × σ)} {reply : α → σ → Except ε β} {s : σ} {error : ε}
    (replies : ∀ value after, run s = .ok (value, after) → ∃ result, reply value after = .ok result)
    (raised : (transact run reply s).1 = .error error) : (transact run reply s).2 = s := by
  unfold transact at raised ⊢
  split at raised
  next value after ran =>
    obtain ⟨result, answered⟩ := replies value after ran
    simp [answered] at raised
  next => rfl

end Outcome
