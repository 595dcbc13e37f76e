import AgentTree.Outcome
import AgentTree.Table

/-!
Two tables that agree on the rows of one observer, and two computations that give
that observer the same answer.
-/

namespace Relational.Table

variable {κ ρ : Type} {key : ρ → κ} {seen : ρ → Bool}

/-- The same visible rows in the same order. -/
def Agree (seen : ρ → Bool) (left right : Table κ ρ key) : Prop :=
  left.rows.filter seen = right.rows.filter seen

namespace Agree

variable {left right other : Table κ ρ key}

theorem refl (table : Table κ ρ key) : table.Agree seen table := rfl

theorem symm (agree : left.Agree seen right) : right.Agree seen left := Eq.symm agree

theorem trans (one : left.Agree seen other) (two : other.Agree seen right) : left.Agree seen right :=
  Eq.trans one two

/-- An observer of fewer rows. -/
theorem narrow {fewer : ρ → Bool} (agree : left.Agree seen right)
    (narrower : ∀ row, fewer row = true → seen row = true) : left.Agree fewer right := by
  have twice : ∀ rows : List ρ, rows.filter fewer = (rows.filter seen).filter fewer := by
    intro rows
    rw [List.filter_filter]
    refine List.filter_congr fun row _ => ?_
    by_cases visible : fewer row = true
    · simp [visible, narrower row visible]
    · simp [visible]
  unfold Agree at agree ⊢
  rw [twice, twice right.rows, agree]

/-- A query whose condition only visible rows meet. -/
theorem filter {condition : ρ → Bool} (agree : left.Agree seen right)
    (visible : ∀ row, condition row = true → seen row = true) :
    left.rows.filter condition = right.rows.filter condition := agree.narrow visible

theorem any {condition : ρ → Bool} (agree : left.Agree seen right)
    (visible : ∀ row, condition row = true → seen row = true) :
    left.rows.any condition = right.rows.any condition := by
  have same := agree.filter visible
  rw [Bool.eq_iff_iff, List.any_eq_true, List.any_eq_true]
  constructor
  · rintro ⟨row, member, hit⟩
    have there : row ∈ right.rows.filter condition := same ▸ List.mem_filter.mpr ⟨member, hit⟩
    exact ⟨row, (List.mem_filter.mp there).1, hit⟩
  · rintro ⟨row, member, hit⟩
    have there : row ∈ left.rows.filter condition := same.symm ▸ List.mem_filter.mpr ⟨member, hit⟩
    exact ⟨row, (List.mem_filter.mp there).1, hit⟩

theorem delete {condition : ρ → Bool} (agree : left.Agree seen right) :
    (left.delete condition).Agree seen (right.delete condition) := by
  unfold Agree Table.delete at *
  rw [List.filter_filter, List.filter_filter]
  have swapped : ∀ rows : List ρ, (rows.filter fun row => seen row && !condition row) =
      (rows.filter seen).filter fun row => !condition row := by
    intro rows
    rw [List.filter_filter]
    exact List.filter_congr fun row _ => by rw [Bool.and_comm]
  rw [swapped, swapped, agree]

theorem update {condition : ρ → Bool} {change : ρ → ρ} (agree : left.Agree seen right)
    (kept : ∀ row, seen (change row) = seen row := by exact fun _ => rfl)
    (same : ∀ row, key (change row) = key row := by exact fun _ => rfl) :
    (left.update condition change same).Agree seen (right.update condition change same) := by
  have pushed : ∀ rows : List ρ,
      (rows.map fun row => if condition row then change row else row).filter seen =
        (rows.filter seen).map fun row => if condition row then change row else row := by
    intro rows
    rw [List.filter_map]
    congr 1
    refine List.filter_congr fun row _ => ?_
    simp only [Function.comp]
    split
    · exact kept row
    · rfl
  unfold Agree Table.update at *
  rw [pushed, pushed, agree]

/-- A change of rows that nobody sees, before or after. -/
theorem unseen_update {condition : ρ → Bool} {change : ρ → ρ} (table : Table κ ρ key)
    (hidden : ∀ row ∈ table.rows, condition row = true → seen row = false ∧ seen (change row) = false)
    (same : ∀ row, key (change row) = key row := by exact fun _ => rfl) :
    table.Agree seen (table.update condition change same) := by
  have unmoved : ∀ rows : List ρ,
      (∀ row ∈ rows, condition row = true → seen row = false ∧ seen (change row) = false) →
      rows.filter seen =
        (rows.map fun row => if condition row then change row else row).filter seen := by
    intro rows unseen
    induction rows with
    | nil => rfl
    | cons row rest ih =>
        have next := ih fun other member => unseen other (List.mem_cons_of_mem _ member)
        simp only [List.map_cons, List.filter_cons]
        by_cases hit : condition row = true
        · simp [hit, unseen row (by simp) hit, next]
        · simp [hit, next]
  exact unmoved table.rows hidden

theorem unseen_delete {condition : ρ → Bool} (table : Table κ ρ key)
    (hidden : ∀ row ∈ table.rows, condition row = true → seen row = false) :
    table.Agree seen (table.delete condition) := by
  unfold Agree Table.delete
  rw [List.filter_filter]
  refine List.filter_congr fun row member => ?_
  by_cases hit : condition row = true
  · simp [hit, hidden row member hit]
  · simp [hit]

variable [DecidableEq κ]

theorem unseen_insert {row : ρ} {table after : Table κ ρ key} (hidden : seen row = false)
    (inserted : table.insert row = some after) : table.Agree seen after := by
  unfold Agree
  rw [(insert_eq_some.mp inserted).2, List.filter_append]
  simp [hidden]

/-- A key that only visible rows have. -/
theorem find? (agree : left.Agree seen right) {k : κ} (visible : ∀ row, key row = k → seen row = true) :
    left.find? k = right.find? k := by
  have same : left.rows.filter (fun row => decide (key row = k)) =
      right.rows.filter fun row => decide (key row = k) :=
    agree.filter fun row keyed => visible row (of_decide_eq_true keyed)
  rw [Table.find?, Table.find?, ← List.head?_filter, ← List.head?_filter, same]

theorem insert {row : ρ} (agree : left.Agree seen right)
    (visible : ∀ other, key other = key row → seen other = true) :
    (left.insert row = none ∧ right.insert row = none) ∨
      ∃ one two, left.insert row = some one ∧ right.insert row = some two ∧ one.Agree seen two := by
  have found := agree.find? visible
  cases first : left.insert row with
  | none =>
      obtain ⟨taken, present⟩ := insert_eq_none.mp first
      exact .inl ⟨rfl, insert_eq_none.mpr ⟨taken, found ▸ present⟩⟩
  | some one =>
      obtain ⟨absent, rowsOne⟩ := insert_eq_some.mp first
      cases second : right.insert row with
      | none =>
          obtain ⟨taken, present⟩ := insert_eq_none.mp second
          rw [← found, absent] at present
          exact absurd present nofun
      | some two =>
          refine .inr ⟨one, two, rfl, rfl, ?_⟩
          unfold Agree
          rw [rowsOne, (insert_eq_some.mp second).2, List.filter_append, List.filter_append, agree]

theorem updateAt {k : κ} {change : ρ → ρ} (agree : left.Agree seen right)
    (kept : ∀ row, seen (change row) = seen row := by exact fun _ => rfl)
    (same : ∀ row, key (change row) = key row := by exact fun _ => rfl) :
    (left.updateAt k change same).Agree seen (right.updateAt k change same) := agree.update kept same

theorem unseen_updateAt {k : κ} {change : ρ → ρ} (table : Table κ ρ key)
    (hidden : ∀ row ∈ table.rows, key row = k → seen row = false)
    (kept : ∀ row, seen (change row) = seen row := by exact fun _ => rfl)
    (same : ∀ row, key (change row) = key row := by exact fun _ => rfl) :
    table.Agree seen (table.updateAt k change same) := by
  refine unseen_update table (fun row member hit => ?_) same
  have invisible := hidden row member (of_decide_eq_true hit)
  exact ⟨invisible, (kept row).trans invisible⟩

theorem upsert {row : ρ} {change : ρ → ρ} (agree : left.Agree seen right)
    (visible : ∀ other, key other = key row → seen other = true)
    (kept : ∀ row, seen (change row) = seen row := by exact fun _ => rfl)
    (same : ∀ row, key (change row) = key row := by exact fun _ => rfl) :
    (left.upsert row change same).Agree seen (right.upsert row change same) := by
  unfold Table.upsert
  rcases agree.insert visible with ⟨first, second⟩ | ⟨one, two, first, second, after⟩
  · rw [first, second]
    exact agree.updateAt kept same
  · rw [first, second]
    exact after

theorem unseen_upsert {row : ρ} {change : ρ → ρ} (table : Table κ ρ key)
    (hidden : ∀ other, key other = key row → seen other = false)
    (kept : ∀ row, seen (change row) = seen row := by exact fun _ => rfl)
    (same : ∀ row, key (change row) = key row := by exact fun _ => rfl) :
    table.Agree seen (table.upsert row change same) := by
  unfold Table.upsert
  split
  next after inserted => exact unseen_insert (hidden row rfl) inserted
  next => exact unseen_updateAt table (fun other _ => hidden other) kept same

end Agree

/-- The same visible rows up to columns that are masked. -/
def AgreeBy (mask : ρ → ρ) (seen : ρ → Bool) (left right : Table κ ρ key) : Prop :=
  (left.rows.filter seen).map mask = (right.rows.filter seen).map mask

namespace AgreeBy

variable {mask : ρ → ρ} {left right other : Table κ ρ key} {condition : ρ → Bool}

theorem refl (table : Table κ ρ key) : table.AgreeBy mask seen table := rfl

theorem symm (agree : left.AgreeBy mask seen right) : right.AgreeBy mask seen left := Eq.symm agree

theorem trans (one : left.AgreeBy mask seen other) (two : other.AgreeBy mask seen right) :
    left.AgreeBy mask seen right := Eq.trans one two

/-- A query that only meets visible rows and does not look behind the mask. -/
theorem filter (agree : left.AgreeBy mask seen right)
    (visible : ∀ row, condition row = true → seen row = true)
    (blind : ∀ row, condition (mask row) = condition row) :
    (left.rows.filter condition).map mask = (right.rows.filter condition).map mask := by
  have pushed : ∀ rows : List ρ,
      (rows.filter condition).map mask = ((rows.filter seen).map mask).filter condition := by
    intro rows
    rw [List.filter_map, List.filter_filter]
    congr 1
    refine List.filter_congr fun row _ => ?_
    simp only [Function.comp, blind]
    by_cases hit : condition row = true
    · simp [hit, visible row hit]
    · simp [hit]
  rw [pushed, pushed right.rows, agree]

theorem any (agree : left.AgreeBy mask seen right)
    (visible : ∀ row, condition row = true → seen row = true)
    (blind : ∀ row, condition (mask row) = condition row) :
    left.rows.any condition = right.rows.any condition := by
  have counted : ∀ rows : List ρ, rows.any condition = !((rows.filter condition).map mask).isEmpty := by
    intro rows
    induction rows with
    | nil => rfl
    | cons row rest ih => by_cases hit : condition row = true <;> simp [hit, ih]
  rw [counted, counted right.rows, agree.filter visible blind]

theorem find? (agree : left.AgreeBy mask seen right)
    (visible : ∀ row, condition row = true → seen row = true)
    (blind : ∀ row, condition (mask row) = condition row) :
    (left.rows.find? condition).map mask = (right.rows.find? condition).map mask := by
  rw [← List.head?_filter, ← List.head?_filter, ← List.head?_map, ← List.head?_map,
    agree.filter visible blind]

theorem append {one two : Table κ ρ key} {first second : ρ} (agree : left.AgreeBy mask seen right)
    (rowsOne : one.rows = left.rows ++ [first]) (rowsTwo : two.rows = right.rows ++ [second])
    (visible : seen first = seen second) (same : mask first = mask second) :
    one.AgreeBy mask seen two := by
  unfold AgreeBy at agree ⊢
  rw [rowsOne, rowsTwo, List.filter_append, List.filter_append, List.map_append, List.map_append, agree]
  congr 1
  by_cases hit : seen first = true
  · simp [← visible, hit, same]
  · simp [← visible, hit]

theorem unseen_append {after : Table κ ρ key} {row : ρ} (hidden : seen row = false)
    (rows : after.rows = left.rows ++ [row]) : left.AgreeBy mask seen after := by
  unfold AgreeBy
  rw [rows, List.filter_append]
  simp [hidden]

end AgreeBy

end Relational.Table

namespace Outcome

variable {ε α β σ : Type}

/-- Two runs raise the same error, or return related values in related states. -/
def Matches (Value : α → α → Prop) (State : σ → σ → Prop) :
    Except ε (α × σ) → Except ε (α × σ) → Prop
  | .ok (one, left), .ok (two, right) => Value one two ∧ State left right
  | .error one, .error two => one = two
  | _, _ => False

namespace Matches

variable {Value : α → α → Prop} {State : σ → σ → Prop}

theorem bind {common : Except ε β} {left right : β → Except ε (α × σ)}
    (rest : ∀ value, common = .ok value → Matches Value State (left value) (right value)) :
    Matches Value State (common >>= left) (common >>= right) := by
  cases common with
  | error error => rfl
  | ok value => exact rest value rfl

theorem andThen {β τ : Type} {Middle : β → β → Prop} {Between : τ → τ → Prop}
    {one two : Except ε (β × τ)} {left right : β × τ → Except ε (α × σ)}
    (first : Matches Middle Between one two)
    (rest : ∀ a b x y, Middle a b → Between x y → Matches Value State (left (a, x)) (right (b, y))) :
    Matches Value State (one >>= left) (two >>= right) := by
  cases one with
  | error raised =>
      cases two with
      | error other => exact first
      | ok value => exact first.elim
  | ok value =>
      cases two with
      | error other => exact first.elim
      | ok other => exact rest _ _ _ _ first.1 first.2

theorem error {raised : ε} : Matches Value State (.error raised) (.error raised) := rfl

theorem ok {one two : α} {left right : σ} (value : Value one two) (state : State left right) :
    Matches Value State (pure (one, left) : Except ε (α × σ)) (pure (two, right)) := ⟨value, state⟩

theorem insert {κ ρ : Type} {key : ρ → κ} [DecidableEq κ] {seen : ρ → Bool} {row : ρ}
    {one two : Relational.Table κ ρ key} {raised : ε}
    {left right : Relational.Table κ ρ key → Except ε (α × σ)} (agree : one.Agree seen two)
    (visible : ∀ other, key other = key row → seen other = true)
    (rest : ∀ first second, first.Agree seen second → Matches Value State (left first) (right second)) :
    Matches Value State (orRaise (one.insert row) raised >>= left)
      (orRaise (two.insert row) raised >>= right) := by
  rcases agree.insert visible with ⟨first, second⟩ | ⟨after, other, first, second, still⟩
  · rw [first, second]
    rfl
  · rw [first, second]
    exact rest after other still

end Matches

end Outcome
