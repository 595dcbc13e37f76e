import Mathlib.Algebra.BigOperators.Group.Finset.Basic
import Mathlib.Algebra.Order.Archimedean.Basic
import Mathlib.Algebra.Order.BigOperators.Group.Finset
import Mathlib.Algebra.Order.Field.Basic
import Mathlib.Tactic.FieldSimp
import Mathlib.Tactic.Linarith
import Mathlib.Tactic.Positivity

/-!
Selection by a bounded value plus an exploration bonus.  The bonus of an option grows with
the total of all counts and shrinks with the option's own count, so that no option is starved.
-/

namespace Exploration

variable {F : Type} [Field F] [LinearOrder F]

/-- Options and how often each has been taken, in the course of time. -/
structure Course (F : Type) where
  size : Nat
  base : Nat
  weight : Nat → F
  growth : Nat → F
  value : Nat → Nat → F
  counts : Nat → Nat → Nat

namespace Course

def total (course : Course F) (time : Nat) : Nat :=
  course.base + ∑ option ∈ Finset.range course.size, course.counts time option

def score (course : Course F) (time option : Nat) : F :=
  course.value time option +
    course.weight option * course.growth (course.total time) / ((1 + course.counts time option : Nat) : F)

/-- At every time nothing changes, or an option of the greatest score is taken. -/
structure Greedy (course : Course F) : Prop where
  weight : ∀ option < course.size, 0 < course.weight option
  value : ∀ time, ∀ option < course.size, |course.value time option| ≤ 1
  growth : ∀ bound : F, ∃ total, ∀ later, total ≤ later → bound ≤ course.growth later
  step : ∀ time, (∀ option < course.size, course.counts (time + 1) option = course.counts time option) ∨
    ∃ taken < course.size, (∀ option < course.size, course.score time option ≤ course.score time taken) ∧
      ∀ option < course.size,
        course.counts (time + 1) option = course.counts time option + if option = taken then 1 else 0

variable {course : Course F}

theorem Greedy.counts_mono (greedy : course.Greedy) {option : Nat} (listed : option < course.size) {first last : Nat}
    (before : first ≤ last) : course.counts first option ≤ course.counts last option := by
  induction last, before using Nat.le_induction with
  | base => exact le_refl _
  | succ time _ ih =>
      rcases greedy.step time with same | ⟨taken, _, _, after⟩
      · rw [same option listed]
        exact ih
      · rw [after option listed]
        omega

theorem Greedy.total_mono (greedy : course.Greedy) {first last : Nat} (before : first ≤ last) :
    course.total first ≤ course.total last :=
  Nat.add_le_add_left (Finset.sum_le_sum fun _ member =>
    greedy.counts_mono (Finset.mem_range.mp member) before) _

variable [IsStrictOrderedRing F] [Archimedean F]

/-- Once the bonus of a rarely taken option is large, an option that is taken instead has a bounded count. -/
theorem Greedy.taken_bounded (greedy : course.Greedy) {rare limit : Nat} (listed : rare < course.size)
    (rarely : ∀ time, course.counts time rare ≤ limit) :
    ∃ start ceiling, ∀ time taken, start ≤ course.total time → taken < course.size →
      course.score time rare ≤ course.score time taken → course.counts time taken ≤ ceiling := by
  have heavy := greedy.weight rare listed
  obtain ⟨start, grown⟩ := greedy.growth (4 * (1 + limit) / course.weight rare)
  obtain ⟨ceiling, high⟩ : ∃ ceiling : Nat, ∀ option < course.size,
      2 * (1 + (limit : F)) * course.weight option / course.weight rare ≤ ceiling := by
    obtain ⟨ceiling, above⟩ := exists_nat_ge (∑ option ∈ Finset.range course.size,
      2 * (1 + (limit : F)) * course.weight option / course.weight rare)
    refine ⟨ceiling, fun option there => le_trans ?_ above⟩
    refine Finset.single_le_sum (f := fun option => 2 * (1 + (limit : F)) * course.weight option / course.weight rare)
      (fun other member => ?_) (Finset.mem_range.mpr there)
    have positive := greedy.weight other (Finset.mem_range.mp member)
    positivity
  refine ⟨start, ceiling, fun time taken late there preferred => ?_⟩
  have large := grown _ late
  have light := greedy.weight taken there
  set root := course.growth (course.total time)
  have positive : 0 < root := lt_of_lt_of_le (by positivity) large
  have room : (0 : F) < 1 + limit := by positivity
  have count : (0 : F) < 1 + course.counts time taken := by positivity
  have rarely : (1 + course.counts time rare : F) ≤ 1 + limit := by
    have few := rarely time
    exact_mod_cast Nat.add_le_add_left few 1
  -- The bonus of the rare option is at least four, so that of the other is at least half of it.
  have least : course.weight rare * root / (1 + limit) ≤ course.weight rare * root / (1 + course.counts time rare) :=
    div_le_div_of_nonneg_left (by positivity) (by positivity) rarely
  have four : 4 ≤ course.weight rare * root / (1 + limit) := by
    rw [le_div_iff₀ room]
    rw [div_le_iff₀ heavy] at large
    linarith
  have valueRare := abs_le.mp (greedy.value time rare listed)
  have valueTaken := abs_le.mp (greedy.value time taken there)
  have half : course.weight rare * root / (1 + limit) ≤ 2 * (course.weight taken * root / (1 + course.counts time taken)) := by
    simp only [score, Nat.cast_add, Nat.cast_one] at preferred
    linarith [valueRare.1, valueTaken.2]
  have bounded : (1 + course.counts time taken : F) ≤ 2 * (1 + limit) * course.weight taken / course.weight rare := by
    rw [le_div_iff₀ heavy]
    rw [← mul_div_assoc, div_le_div_iff₀ room count] at half
    refine le_of_mul_le_mul_right ?_ positive
    linarith
  have natural : (1 + course.counts time taken : F) ≤ ceiling := bounded.trans (high taken there)
  have fits : 1 + course.counts time taken ≤ ceiling := by exact_mod_cast natural
  omega

/-- No option is starved while the total grows. -/
theorem Greedy.unstarved (greedy : course.Greedy) (unbounded : ∀ bound, ∃ time, bound ≤ course.total time)
    {rare : Nat} (listed : rare < course.size) (bound : Nat) : ∃ time, bound ≤ course.counts time rare := by
  by_contra starved
  have rarely : ∀ time, course.counts time rare ≤ bound := by
    intro time
    by_contra often
    exact starved ⟨time, by omega⟩
  obtain ⟨least, ceiling, taken_le⟩ := greedy.taken_bounded listed rarely
  obtain ⟨start, started⟩ := unbounded least
  -- From then on no count rises above what it was or one above the ceiling.
  have capped : ∀ time, start ≤ time → ∀ option < course.size,
      course.counts time option ≤ ceiling + 1 + course.counts start option := by
    intro time later
    induction time, later using Nat.le_induction with
    | base =>
        intro option _
        omega
    | succ time later ih =>
        intro option there
        rcases greedy.step time with same | ⟨taken, inside, best, after⟩
        · rw [same option there]
          exact ih option there
        · rw [after option there]
          split
          next chosen =>
            subst chosen
            have few := taken_le time option (started.trans (greedy.total_mono later)) inside (best rare listed)
            omega
          next =>
            have before := ih option there
            omega
  obtain ⟨time, large⟩ := unbounded (course.base +
    ∑ option ∈ Finset.range course.size, (ceiling + 1 + course.counts start option) + 1)
  have later : course.total time ≤ course.total (max start time) := greedy.total_mono (le_max_right _ _)
  have sum : course.total (max start time) ≤
      course.base + ∑ option ∈ Finset.range course.size, (ceiling + 1 + course.counts start option) :=
    Nat.add_le_add_left (Finset.sum_le_sum fun option member =>
      capped _ (le_max_left _ _) option (Finset.mem_range.mp member)) _
  omega

end Course

end Exploration
