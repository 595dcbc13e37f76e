import Mathlib.Data.Set.Card

/-!
How many members of a family stand at a given point, while the members move one at a time.
-/

namespace Concurrent

variable {ι π : Type} {members : ι → π} {place : ι → π → Prop} {n : Nat}

/-- Exactly `n` members of the family stand at the place. -/
def Numbers (members : ι → π) (place : ι → π → Prop) (n : Nat) : Prop :=
  {i | place i (members i)}.encard = n

theorem numbers_zero (nobody : ∀ i, ¬ place i (members i)) : Numbers members place 0 := by
  simp [Numbers, nobody]

theorem Numbers.eq_zero (counted : Numbers members place n) (nobody : ∀ i, ¬ place i (members i)) :
    n = 0 := by
  simpa [Numbers, nobody, eq_comm] using counted

theorem Numbers.absent (counted : Numbers members place 0) (i : ι) : ¬ place i (members i) := by
  intro here
  have empty : {i | place i (members i)} = ∅ := by simpa [Numbers] using counted
  exact Set.eq_empty_iff_forall_notMem.mp empty i here

theorem Numbers.pos (counted : Numbers members place n) {i : ι} (here : place i (members i)) : 0 < n := by
  rcases Nat.eq_zero_or_pos n with rfl | positive
  · exact absurd here (counted.absent i)
  · exact positive

section Moves

variable [DecidableEq ι] {i : ι} {target : π}

theorem Numbers.arrives (counted : Numbers members place n) (away : ¬ place i (members i)) (there : place i target) :
    Numbers (Function.update members i target) place (n + 1) := by
  have joined : {j | place j (Function.update members i target j)} = insert i {j | place j (members j)} := by
    ext j
    by_cases same : j = i
    · subst same
      simp [there]
    · simp [same]
  have fresh : i ∉ {j | place j (members j)} := away
  unfold Numbers
  rw [joined, Set.encard_insert_of_notMem fresh, counted, Nat.cast_add, Nat.cast_one]

theorem Numbers.stays (counted : Numbers members place n) (same : place i (members i) ↔ place i target) :
    Numbers (Function.update members i target) place n := by
  have unmoved : {j | place j (Function.update members i target j)} = {j | place j (members j)} := by
    ext j
    by_cases equal : j = i
    · subst equal
      simp [same]
    · simp [equal]
  unfold Numbers
  rw [unmoved, counted]

theorem Numbers.leaves (counted : Numbers members place n) (here : place i (members i)) (gone : ¬ place i target) :
    ∃ m, n = m + 1 ∧ Numbers (Function.update members i target) place m := by
  have without : {j | place j (Function.update members i target j)} = {j | place j (members j)} \ {i} := by
    ext j
    by_cases same : j = i
    · subst same
      simp [gone]
    · simp [same]
  obtain ⟨m, rfl⟩ : ∃ m, n = m + 1 := ⟨n - 1, by have := counted.pos here; omega⟩
  refine ⟨m, rfl, ?_⟩
  have total : ({j | place j (members j)} \ {i}).encard + 1 = (m + 1 : Nat) := by
    rw [Set.encard_sdiff_singleton_add_one (by exact here)]
    exact counted
  have cancelled : ({j | place j (members j)} \ {i}).encard + 1 = (m : ℕ∞) + 1 := by
    rw [total, Nat.cast_add, Nat.cast_one]
  unfold Numbers
  rw [without]
  exact ENat.add_left_injective_of_ne_top ENat.one_ne_top cancelled

end Moves

end Concurrent
