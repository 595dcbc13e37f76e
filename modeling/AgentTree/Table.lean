import Mathlib.Algebra.BigOperators.Group.List.Basic
import Mathlib.Algebra.Order.BigOperators.Group.List
import Mathlib.Algebra.Ring.Int.Defs
import Mathlib.Data.List.Nodup

/-!
Tables with a primary key, and the statements of SQL that the rest of the
development uses: lookup by key, INSERT, UPDATE, DELETE and SUM.  A table carries
the proof that its keys are distinct.
-/

namespace Relational

/-- What holds of all items of a list is decided along the list, also where the type has finitely many values. -/
instance (priority := 2000) decidableItems {α : Type} (p : α → Prop) [DecidablePred p] (items : List α) :
    Decidable (∀ item ∈ items, p item) := List.decidableBAll p items

@[ext] structure Table (κ ρ : Type) (key : ρ → κ) where
  rows : List ρ
  unique : (rows.map key).Nodup

namespace Table

variable {κ ρ : Type} {key : ρ → κ}

def empty : Table κ ρ key := ⟨[], List.nodup_nil⟩

/-- The sum of one column expression over all rows. -/
def total (amount : ρ → Int) (table : Table κ ρ key) : Int := (table.rows.map amount).sum

/-- UPDATE: the rows that satisfy the condition are changed and keep their key. -/
def update (condition : ρ → Bool) (change : ρ → ρ) (same : ∀ row, key (change row) = key row)
    (table : Table κ ρ key) : Table κ ρ key where
  rows := table.rows.map fun row => if condition row then change row else row
  unique := by
    have keys : (key ∘ fun row => if condition row then change row else row) = key := by
      funext row
      simp only [Function.comp]
      split <;> simp [same]
    rw [List.map_map, keys]
    exact table.unique

/-- DELETE: the rows that satisfy the condition go. -/
def delete (condition : ρ → Bool) (table : Table κ ρ key) : Table κ ρ key where
  rows := table.rows.filter fun row => !condition row
  unique := table.unique.sublist (List.filter_sublist.map key)

section Lookup

variable [DecidableEq κ]

def find? (table : Table κ ρ key) (k : κ) : Option ρ := table.rows.find? fun row => key row = k

theorem find?_eq_none {table : Table κ ρ key} {k : κ} :
    table.find? k = none ↔ ∀ row ∈ table.rows, key row ≠ k := by
  simp [find?]

theorem find?_eq_some {table : Table κ ρ key} {k : κ} {row : ρ} :
    table.find? k = some row ↔ row ∈ table.rows ∧ key row = k := by
  constructor
  · intro found
    exact ⟨List.mem_of_find?_eq_some found, by simpa using List.find?_some found⟩
  · rintro ⟨member, rfl⟩
    cases found : table.find? (key row) with
    | none => exact absurd rfl (find?_eq_none.mp found row member)
    | some other =>
        have same : key other = key row := by simpa using List.find?_some found
        have otherMember := List.mem_of_find?_eq_some found
        rw [List.inj_on_of_nodup_map table.unique otherMember member same]

/-- INSERT: an existing key is an integrity error. -/
def insert (row : ρ) (table : Table κ ρ key) : Option (Table κ ρ key) :=
  if fresh : ∀ other ∈ table.rows, key other ≠ key row then
    some {
      rows := table.rows ++ [row]
      unique := by
        rw [List.map_append, List.nodup_append]
        refine ⟨table.unique, by simp, ?_⟩
        intro k member other last
        obtain ⟨existing, present, rfl⟩ := List.mem_map.mp member
        simp only [List.map_cons, List.map_nil, List.mem_singleton] at last
        subst last
        exact fresh existing present
    }
  else none

theorem insert_eq_some {row : ρ} {table after : Table κ ρ key} :
    table.insert row = some after ↔
      table.find? (key row) = none ∧ after.rows = table.rows ++ [row] := by
  rw [find?_eq_none]
  unfold insert
  split
  next fresh =>
    simp only [Option.some.injEq]
    constructor
    · rintro rfl
      exact ⟨fresh, rfl⟩
    · rintro ⟨_, rows⟩
      exact Table.ext rows.symm
  next taken => simp [taken]

theorem insert_eq_none {row : ρ} {table : Table κ ρ key} :
    table.insert row = none ↔ ∃ other, table.find? (key row) = some other := by
  rw [← Option.isSome_iff_exists, Option.isSome_iff_ne_none, Ne, find?_eq_none]
  unfold insert
  split
  next fresh => simpa using fresh
  next taken => simpa using taken

theorem find?_insert {row : ρ} {table after : Table κ ρ key} (inserted : table.insert row = some after)
    (k : κ) : after.find? k = if key row = k then some row else table.find? k := by
  obtain ⟨fresh, rows⟩ := insert_eq_some.mp inserted
  simp only [find?, rows, List.find?_append]
  by_cases same : key row = k
  · subst same
    have absent : table.rows.find? (fun other => key other = key row) = none := fresh
    simp [absent]
  · simp [same]

theorem find?_inserted {row : ρ} {table after : Table κ ρ key}
    (inserted : table.insert row = some after) : after.find? (key row) = some row := by
  rw [find?_insert inserted, if_pos rfl]

@[simp] theorem find?_empty (k : κ) : (empty : Table κ ρ key).find? k = none := rfl

theorem find?_update {condition : ρ → Bool} {change : ρ → ρ}
    {same : ∀ row, key (change row) = key row} {table : Table κ ρ key} (k : κ) :
    (table.update condition change same).find? k =
      (table.find? k).map fun row => if condition row then change row else row := by
  simp only [find?, update, List.find?_map]
  congr 2
  funext row
  simp only [Function.comp]
  split <;> simp [same]

theorem found_insert {row existing : ρ} {table after : Table κ ρ key} {k : κ}
    (inserted : table.insert row = some after) (found : table.find? k = some existing) :
    after.find? k = some existing := by
  rw [find?_insert inserted, if_neg, found]
  rintro rfl
  rw [(insert_eq_some.mp inserted).1] at found
  simp at found

theorem find?_delete {condition : ρ → Bool} {table : Table κ ρ key} (k : κ) :
    (table.delete condition).find? k = (table.find? k).filter fun row => !condition row := by
  cases found : table.find? k with
  | none =>
      rw [find?_eq_none] at found
      simp only [Option.filter_none, find?_eq_none]
      intro row member
      exact found row (List.mem_of_mem_filter member)
  | some row =>
      rw [find?_eq_some] at found
      by_cases removed : condition row
      · simp only [Option.filter_some, removed, Bool.not_true, Bool.false_eq_true, if_false,
          find?_eq_none]
        intro other member sameKey
        have parts := List.mem_filter.mp member
        have equal := List.inj_on_of_nodup_map table.unique parts.1 found.1 (sameKey.trans found.2.symm)
        simp [equal, removed] at parts
      · simp only [Option.filter_some, removed, Bool.not_false, if_true, find?_eq_some]
        exact ⟨List.mem_filter.mpr ⟨found.1, by simp [removed]⟩, found.2⟩

/-- UPDATE of the row with one key. -/
def updateAt (k : κ) (change : ρ → ρ) (same : ∀ row, key (change row) = key row)
    (table : Table κ ρ key) : Table κ ρ key :=
  table.update (fun row => key row = k) change same

theorem find?_updateAt {k other : κ} {change : ρ → ρ} {same : ∀ row, key (change row) = key row}
    {table : Table κ ρ key} :
    (table.updateAt k change same).find? other =
      if other = k then (table.find? k).map change else table.find? other := by
  rw [updateAt, find?_update]
  cases found : table.find? other with
  | none =>
      split
      next equal => subst equal; simp [found]
      next => rfl
  | some row =>
      have keyed := (find?_eq_some.mp found).2
      by_cases equal : other = k
      · subst equal
        simp [found, keyed]
      · simp [keyed, equal]

/-- INSERT … ON CONFLICT DO UPDATE. -/
def upsert (row : ρ) (change : ρ → ρ) (same : ∀ row, key (change row) = key row)
    (table : Table κ ρ key) : Table κ ρ key :=
  match table.insert row with
  | some after => after
  | none => table.updateAt (key row) change same

theorem find?_upsert {row : ρ} {change : ρ → ρ} {same : ∀ row, key (change row) = key row}
    {table : Table κ ρ key} {k : κ} :
    (table.upsert row change same).find? k =
      if k = key row then some (((table.find? (key row)).map change).getD row)
      else table.find? k := by
  unfold upsert
  split
  next after inserted =>
    rw [find?_insert inserted, (insert_eq_some.mp inserted).1]
    simp [eq_comm]
  next taken =>
    obtain ⟨old, found⟩ := insert_eq_none.mp taken
    rw [find?_updateAt, found]
    rfl

/-- A row changed by key moves a sum by the difference it makes to that row. -/
theorem total_updateAt {k : κ} {change : ρ → ρ} {same : ∀ row, key (change row) = key row}
    {table : Table κ ρ key} {row : ρ} (amount : ρ → Int) (found : table.find? k = some row) :
    (table.updateAt k change same).total amount =
      table.total amount + (amount (change row) - amount row) := by
  obtain ⟨member, keyed⟩ := find?_eq_some.mp found
  obtain ⟨before, after, split⟩ := List.append_of_mem member
  have distinct := table.unique
  rw [split, List.map_append, List.map_cons, List.nodup_append, List.nodup_cons] at distinct
  have elsewhere : ∀ other, other ∈ before ∨ other ∈ after → key other ≠ k := by
    rintro other (early | late) equal
    · exact distinct.2.2 (key other) (List.mem_map_of_mem early) (key row) (by simp)
        (equal.trans keyed.symm)
    · exact distinct.2.1.1 ((equal.trans keyed.symm) ▸ List.mem_map_of_mem late)
  have unchanged : ∀ part : List ρ, (∀ other ∈ part, key other ≠ k) →
      part.map (fun row => if decide (key row = k) then change row else row) = part := by
    intro part apart
    conv_rhs => rw [← List.map_id part]
    exact List.map_congr_left fun other member => by simp [apart other member]
  simp only [total, updateAt, update, split, List.map_append, List.map_cons, keyed, decide_true,
    if_true, unchanged before fun other member => elsewhere other (.inl member),
    unchanged after fun other member => elsewhere other (.inr member), List.sum_append, List.sum_cons]
  omega

/-- The number of rows that are gone or are not as they were. -/
def changed [DecidableEq ρ] (before after : Table κ ρ key) : Nat :=
  before.rows.countP fun row => after.find? (key row) ≠ some row

theorem changed_update [DecidableEq ρ] {condition : ρ → Bool} {change : ρ → ρ}
    {same : ∀ row, key (change row) = key row} {table : Table κ ρ key}
    (moves : ∀ row, condition row = true → change row ≠ row) :
    table.changed (table.update condition change same) = table.rows.countP condition := by
  apply List.countP_congr
  intro row member
  rw [find?_update, find?_eq_some.mpr ⟨member, rfl⟩]
  by_cases hit : condition row = true
  · simp [hit, moves row hit]
  · simp [hit]

/-- Every row is still there under its key, and has only changed as `allowed`. -/
def Evolves (allowed : ρ → ρ → Prop) (before after : Table κ ρ key) : Prop :=
  ∀ k row, before.find? k = some row → ∃ later, after.find? k = some later ∧ allowed row later

section Evolution

variable {allowed : ρ → ρ → Prop} {first second third : Table κ ρ key}

theorem Evolves.refl (still : ∀ row, allowed row row) (table : Table κ ρ key) :
    table.Evolves allowed table := fun _ row found => ⟨row, found, still row⟩

theorem Evolves.trans (compose : ∀ {a b c}, allowed a b → allowed b c → allowed a c)
    (one : first.Evolves allowed second) (two : second.Evolves allowed third) :
    first.Evolves allowed third := by
  intro k row found
  obtain ⟨middle, present, moved⟩ := one k row found
  obtain ⟨last, there, again⟩ := two k middle present
  exact ⟨last, there, compose moved again⟩

theorem evolves_insert {row : ρ} (still : ∀ row, allowed row row)
    (inserted : first.insert row = some second) : first.Evolves allowed second :=
  fun _ existing found => ⟨existing, found_insert inserted found, still existing⟩

theorem evolves_update {condition : ρ → Bool} {change : ρ → ρ} {table : Table κ ρ key}
    (changes : ∀ row ∈ table.rows, allowed row (if condition row then change row else row))
    (same : ∀ row, key (change row) = key row := by exact fun _ => rfl) :
    table.Evolves allowed (table.update condition change same) := by
  intro k row found
  rw [find?_update, found]
  exact ⟨_, rfl, changes row (find?_eq_some.mp found).1⟩

theorem evolves_updateAt {k : κ} {change : ρ → ρ} {table : Table κ ρ key}
    (still : ∀ row, allowed row row)
    (changes : ∀ row, table.find? k = some row → allowed row (change row))
    (same : ∀ row, key (change row) = key row := by exact fun _ => rfl) :
    table.Evolves allowed (table.updateAt k change same) := by
  refine evolves_update (fun row member => ?_) same
  split
  next keyed => exact changes row (find?_eq_some.mpr ⟨member, of_decide_eq_true keyed⟩)
  next => exact still row

end Evolution

end Lookup

theorem update_none {condition : ρ → Bool} {change : ρ → ρ} {same : ∀ row, key (change row) = key row}
    {table : Table κ ρ key} (untouched : ∀ row ∈ table.rows, condition row = false) :
    table.update condition change same = table := by
  apply Table.ext
  conv_rhs => rw [← List.map_id table.rows]
  exact List.map_congr_left fun row member => by simp [untouched row member]

theorem mem_update {condition : ρ → Bool} {change : ρ → ρ}
    {same : ∀ row, key (change row) = key row} {table : Table κ ρ key} {row : ρ} :
    row ∈ (table.update condition change same).rows ↔
      ∃ old ∈ table.rows, (if condition old then change old else old) = row := by
  simp [update]

theorem total_update {condition : ρ → Bool} {change : ρ → ρ}
    {same : ∀ row, key (change row) = key row} {table : Table κ ρ key} (amount : ρ → Int) :
    (table.update condition change same).total amount =
      table.total fun row => amount (if condition row then change row else row) := by
  simp [total, update, List.map_map, Function.comp_def]

theorem total_congr {table : Table κ ρ key} {first second : ρ → Int}
    (agree : ∀ row ∈ table.rows, first row = second row) : table.total first = table.total second := by
  simp only [total]
  rw [List.map_congr_left agree]

theorem total_append {table after : Table κ ρ key} {row : ρ} (amount : ρ → Int)
    (rows : after.rows = table.rows ++ [row]) : after.total amount = table.total amount + amount row := by
  simp [total, rows]

/-- A sum that only the row with one key adds to. -/
theorem total_single [DecidableEq ρ] [DecidableEq κ] {table : Table κ ρ key} {k : κ} {row : ρ}
    {amount : ρ → Int} (found : table.find? k = some row)
    (elsewhere : ∀ other, key other ≠ k → amount other = 0) : table.total amount = amount row := by
  obtain ⟨member, keyed⟩ := find?_eq_some.mp found
  have only : ∀ other, other ≠ row → other ∈ table.rows → amount other = 0 := by
    intro other different present
    refine elsewhere other fun same => different ?_
    exact List.inj_on_of_nodup_map table.unique present member (same.trans keyed.symm)
  have once := List.count_eq_one_of_mem (List.Nodup.of_map key table.unique) member
  rw [total, List.sum_map_eq_nsmul_single row amount only, once, one_nsmul]

@[simp] theorem total_empty (amount : ρ → Int) : (empty : Table κ ρ key).total amount = 0 := rfl

theorem total_zero {table : Table κ ρ key} {amount : ρ → Int}
    (zero : ∀ row ∈ table.rows, amount row = 0) : table.total amount = 0 := by
  rw [total_congr zero]
  simp [total]

theorem total_nonneg {table : Table κ ρ key} {amount : ρ → Int}
    (nonneg : ∀ row ∈ table.rows, 0 ≤ amount row) : 0 ≤ table.total amount := by
  apply List.sum_nonneg
  intro value member
  obtain ⟨row, present, rfl⟩ := List.mem_map.mp member
  exact nonneg row present

end Table

end Relational
