import Mathlib.Algebra.Order.Field.Rat
import Mathlib.Data.Rat.Floor
import Mathlib.Data.Rat.Cast.OfScientific
import Mathlib.Tactic.Linarith

/-!
Binary floating point numbers of 64 bits.  A number is the rational that it stands for, and
every operation rounds its exact result to the nearest double, to the even one of two.  The
two zeros are one number here.
-/

namespace Binary64

inductive Double : Type
  | number (value : ℚ)
  | infinite (negative : Bool)
  | nan
  deriving DecidableEq

/-- A power of two. -/
def power : Int → ℚ
  | .ofNat exponent => ((2 ^ exponent : Nat) : ℚ)
  | .negSucc exponent => 1 / ((2 ^ (exponent + 1) : Nat) : ℚ)

/-- The exponent of the leading digit of a number that is not zero. -/
def leading (value : ℚ) : Int :=
  let guess : Int := (Nat.log2 value.num.natAbs : Int) - Nat.log2 value.den
  if power guess ≤ |value| then guess else guess - 1

/-- The nearest integer, the even one of two. -/
def nearest (value : ℚ) : Int :=
  let below := value.floor
  let rest := value - below
  if rest < 1 / 2 then below
  else if 1 / 2 < rest then below + 1
  else if below % 2 = 0 then below else below + 1

namespace Double

/-- The double nearest to a number. -/
def round (value : ℚ) : Double :=
  if value = 0 then number 0
  else
    let place := power (max (-1074) (leading value - 52))
    let rounded := nearest (value / place) * place
    if |rounded| < power 1024 then number rounded else infinite (decide (value < 0))

def isFinite : Double → Bool
  | number _ => true
  | _ => false

def neg : Double → Double
  | number value => number (-value)
  | infinite negative => infinite (!negative)
  | nan => nan

def add : Double → Double → Double
  | number a, number b => round (a + b)
  | number _, infinite negative => infinite negative
  | infinite negative, number _ => infinite negative
  | infinite first, infinite second => if first = second then infinite first else nan
  | _, _ => nan

def mul : Double → Double → Double
  | number a, number b => round (a * b)
  | number a, infinite negative => if a = 0 then nan else infinite (negative ^^ decide (a < 0))
  | infinite negative, number a => if a = 0 then nan else infinite (negative ^^ decide (a < 0))
  | infinite first, infinite second => infinite (first ^^ second)
  | _, _ => nan

def div : Double → Double → Double
  | number a, number b => if b = 0 then (if a = 0 then nan else infinite (decide (a < 0))) else round (a / b)
  | number _, infinite _ => number 0
  | infinite negative, number a => infinite (negative ^^ decide (a < 0))
  | _, _ => nan

def less : Double → Double → Bool
  | number a, number b => a < b
  | number _, infinite negative => !negative
  | infinite negative, number _ => negative
  | infinite first, infinite second => first && !second
  | _, _ => false

/-- Two numbers are in order unless the second is less, and a NaN is in no order. -/
def lessEqual (a b : Double) : Bool := a ≠ nan && b ≠ nan && !less b a

instance : Zero Double := ⟨number 0⟩
instance : One Double := ⟨number 1⟩
instance : Neg Double := ⟨neg⟩
instance : Add Double := ⟨add⟩
instance : Sub Double := ⟨fun a b => add a (neg b)⟩
instance : Mul Double := ⟨mul⟩
instance : Div Double := ⟨div⟩
instance : LT Double := ⟨fun a b => less a b = true⟩
instance : LE Double := ⟨fun a b => lessEqual a b = true⟩
instance : DecidableLT Double := fun a b => inferInstanceAs (Decidable (less a b = true))
instance : DecidableLE Double := fun a b => inferInstanceAs (Decidable (lessEqual a b = true))
instance : NatCast Double := ⟨fun count => round count⟩
instance : IntCast Double := ⟨fun count => round count⟩
instance : OfScientific Double := ⟨fun digits negative exponent =>
  round (if negative then (digits : ℚ) / ((10 ^ exponent : Nat) : ℚ) else ((digits * 10 ^ exponent : Nat) : ℚ))⟩

theorem lt_def {a b : Double} : a < b ↔ less a b = true := Iff.rfl

theorem le_def {a b : Double} : a ≤ b ↔ a ≠ nan ∧ b ≠ nan ∧ ¬b < a := by
  show lessEqual a b = true ↔ _
  simp [lessEqual, lt_def, and_assoc]

theorem round_ne_nan (value : ℚ) : round value ≠ nan := by
  unfold round
  split
  next => simp
  next =>
    simp only
    split <;> simp

theorem lt_asymm {a b : Double} (before : a < b) : ¬b < a := by
  rw [lt_def] at *
  cases a <;> cases b <;> simp_all [less]
  exact le_of_lt before

/-- A number that is not NaN is in order with itself, and of two the one or the other comes first. -/
theorem le_self {a : Double} : a ≤ a ↔ a ≠ nan := by
  rw [le_def]
  exact ⟨fun order => order.1, fun ordered => ⟨ordered, ordered, fun before => lt_asymm before before⟩⟩

theorem le_of_not_lt {a b : Double} (first : a ≤ a) (second : b ≤ b) (before : ¬a < b) : b ≤ a :=
  le_def.mpr ⟨le_self.mp second, le_self.mp first, before⟩

/-- Numbers that are in order are none of them a NaN. -/
theorem le_of_lt {a b : Double} (before : a < b) : a ≤ b ∧ a ≤ a ∧ b ≤ b := by
  have numbers : a ≠ nan ∧ b ≠ nan := by
    rw [lt_def] at before
    cases a <;> cases b <;> simp_all [less]
  exact ⟨le_def.mpr ⟨numbers.1, numbers.2, lt_asymm before⟩, le_self.mpr numbers.1, le_self.mpr numbers.2⟩

theorem le_trans {a b c : Double} (first : a ≤ b) (second : b ≤ c) : a ≤ c := by
  rw [le_def] at *
  refine ⟨first.1, second.2.1, fun before => ?_⟩
  obtain ⟨someA, someB, low⟩ := first
  obtain ⟨_, someC, high⟩ := second
  rw [lt_def] at before low high
  cases a with
  | nan => exact someA rfl
  | number a => cases b with
    | nan => exact someB rfl
    | number b => cases c with
      | nan => exact someC rfl
      | number c =>
          simp only [less, decide_eq_true_eq, not_lt] at before low high
          exact absurd before (not_lt.mpr (low.trans high))
      | infinite negative => simp_all [less]
    | infinite negative => cases c <;> simp_all [less]
  | infinite negative => cases b <;> cases c <;> simp_all [less]

theorem ne_nan_of_finite {a : Double} (finite : a.isFinite = true) : a ≠ nan := by
  rintro rfl
  simp [isFinite] at finite

theorem div_le_self {a b : Double} (finite : a.isFinite = true) (positive : 0 < b) : a / b ≤ a / b := by
  rw [le_self]
  cases a with
  | number value =>
      cases b with
      | number divisor =>
          have nonzero : divisor ≠ 0 := by
            rintro rfl
            exact lt_asymm positive positive
          show (if divisor = 0 then _ else round (value / divisor)) ≠ nan
          rw [if_neg nonzero]
          exact round_ne_nan _
      | infinite negative => exact fun same => by cases same
      | nan => exact absurd positive (by decide)
  | infinite negative => simp [isFinite] at finite
  | nan => simp [isFinite] at finite

theorem neg_lt {a b : Double} (before : -a < b) : -b < a := by
  change less (neg a) b = true at before
  show less (neg b) a = true
  cases a <;> cases b <;> simp_all [less, neg]
  linarith

theorem neg_neg (a : Double) : -(-a) = a := by
  show neg (neg a) = a
  cases a <;> simp [neg]

theorem neg_lt_zero {a : Double} (positive : 0 < a) : -a < 0 := by
  change less (number 0) a = true at positive
  show less (neg a) (number 0) = true
  cases a <;> simp_all [less, neg]

theorem isFinite_neg {a : Double} (finite : a.isFinite = true) : (-a).isFinite = true := by
  cases a <;> simp_all [isFinite]
  rfl

theorem isFinite_between {a b c : Double} (low : a.isFinite = true) (high : b.isFinite = true) (above : a < c)
    (below : c < b) : c.isFinite = true := by
  rw [lt_def] at above below
  cases a <;> cases b <;> cases c <;> simp_all [isFinite, less]

theorem pos_of_not_le {a : Double} (finite : a.isFinite = true) (above : ¬a ≤ 0) : 0 < a := by
  by_contra below
  exact above (le_def.mpr ⟨ne_nan_of_finite finite, by decide, below⟩)

/-! The error of rounding. -/

theorem power_eq (exponent : Int) : power exponent = (2 : ℚ) ^ exponent := by
  cases exponent with
  | ofNat exponent => simp [power]
  | negSucc exponent => simp [power, zpow_negSucc]

theorem power_pos (exponent : Int) : 0 < power exponent := by
  rw [power_eq]
  exact zpow_pos (by norm_num) exponent

theorem nearest_bounds (value : ℚ) : value - 1 / 2 ≤ nearest value ∧ (nearest value : ℚ) ≤ value + 1 / 2 := by
  have below := Int.floor_le value
  have above := Int.lt_floor_add_one value
  have floor : (value.floor : ℚ) = (⌊value⌋ : ℚ) := rfl
  unfold nearest
  simp only [floor]
  split
  next => constructor <;> linarith
  next first =>
    split
    next => constructor <;> push_cast <;> linarith
    next second =>
      split
      next => constructor <;> linarith
      next => constructor <;> push_cast <;> linarith

theorem nearest_nonneg {value : ℚ} (nonneg : 0 ≤ value) : 0 ≤ nearest value := by
  have floor : 0 ≤ value.floor := Int.floor_nonneg.mpr nonneg
  unfold nearest
  simp only
  repeat' split
  all_goals omega

/-- The leading power is at most the number. -/
theorem power_leading_le {value : ℚ} (positive : 0 < value) : power (leading value) ≤ value := by
  unfold leading
  simp only [abs_of_pos positive]
  split
  next below => exact below
  next =>
    have numerator : value.num.natAbs ≠ 0 := by simpa using positive.ne'
    have low : ((2 ^ value.num.natAbs.log2 : Nat) : ℚ) ≤ (value.num.natAbs : ℚ) := by
      exact_mod_cast Nat.log2_self_le numerator
    have high : (value.den : ℚ) ≤ ((2 ^ (value.den.log2 + 1) : Nat) : ℚ) := by
      exact_mod_cast Nat.lt_log2_self.le
    have whole : (value.num.natAbs : ℚ) = value.num := by
      rw [Nat.cast_natAbs, abs_of_nonneg (Rat.num_nonneg.mpr positive.le)]
    have shifted : power ((value.num.natAbs.log2 : Int) - value.den.log2 - 1) =
        ((2 ^ value.num.natAbs.log2 : Nat) : ℚ) / ((2 ^ (value.den.log2 + 1) : Nat) : ℚ) := by
      have exponent : (value.num.natAbs.log2 : Int) - value.den.log2 - 1 =
          (value.num.natAbs.log2 : Int) - ((value.den.log2 + 1 : Nat) : Int) := by push_cast; ring
      rw [power_eq, exponent, zpow_sub₀ (by norm_num), zpow_natCast, zpow_natCast]
      push_cast
      rfl
    calc power ((value.num.natAbs.log2 : Int) - value.den.log2 - 1)
        = ((2 ^ value.num.natAbs.log2 : Nat) : ℚ) / ((2 ^ (value.den.log2 + 1) : Nat) : ℚ) := shifted
      _ ≤ (value.num.natAbs : ℚ) / (value.den : ℚ) := by
          have den : (0 : ℚ) < value.den := by exact_mod_cast value.pos
          exact div_le_div₀ (by positivity) low den high
      _ = value := by rw [whole, Rat.num_div_den]

/-- A number that does not round to zero is at most half as much again as what it rounds to. -/
theorem round_number {value rounded : ℚ} (positive : 0 < value) (same : round value = number rounded)
    (nonzero : rounded ≠ 0) : 0 < rounded ∧ value ≤ 3 / 2 * rounded := by
  unfold round at same
  rw [if_neg positive.ne'] at same
  simp only at same
  split at same
  next =>
    have place := power_pos (max (-1074) (leading value - 52))
    generalize power (max (-1074) (leading value - 52)) = unit at same place
    have whole := nearest_nonneg (div_nonneg positive.le place.le)
    have above := (nearest_bounds (value / unit)).1
    obtain rfl := Double.number.inj same
    have one : (1 : ℚ) ≤ nearest (value / unit) := by
      have some : nearest (value / unit) ≠ 0 := by
        intro none
        exact nonzero (by simp [none])
      exact_mod_cast (show 1 ≤ nearest (value / unit) by omega)
    have share : value / unit ≤ 3 / 2 * nearest (value / unit) := by linarith
    refine ⟨mul_pos (by linarith) place, ?_⟩
    calc value = value / unit * unit := by field_simp
      _ ≤ 3 / 2 * nearest (value / unit) * unit := mul_le_mul_of_nonneg_right share place.le
      _ = 3 / 2 * (nearest (value / unit) * unit) := by ring
  next => simp at same

theorem isFinite_round {value : ℚ} (nonneg : 0 ≤ value) (small : value ≤ 3 / 2) : (round value).isFinite = true := by
  rcases nonneg.eq_or_lt with rfl | positive
  · rfl
  · unfold round
    rw [if_neg positive.ne']
    simp only
    have leads := power_leading_le positive
    have first : leading value ≤ 0 := by
      by_contra above
      have two : (2 : ℚ) ^ (1 : Int) ≤ 2 ^ leading value := zpow_le_zpow_right₀ (by norm_num) (by omega)
      rw [power_eq] at leads
      norm_num at two
      linarith
    have place := power_pos (max (-1074) (leading value - 52))
    have least : power (max (-1074) (leading value - 52)) ≤ 1 := by
      rw [power_eq]
      exact zpow_le_one_of_nonpos₀ (by norm_num) (by omega)
    generalize power (max (-1074) (leading value - 52)) = unit at place least ⊢
    have whole : (0 : ℚ) ≤ nearest (value / unit) := by exact_mod_cast nearest_nonneg (div_nonneg positive.le place.le)
    have below := (nearest_bounds (value / unit)).2
    have bound : (nearest (value / unit) : ℚ) * unit ≤ 2 := calc
      (nearest (value / unit) : ℚ) * unit ≤ (value / unit + 1 / 2) * unit := mul_le_mul_of_nonneg_right below place.le
      _ = value + 1 / 2 * unit := by field_simp
      _ ≤ 2 := by linarith
    have limit : (2 : ℚ) < power 1024 := by decide +kernel
    rw [abs_of_nonneg (mul_nonneg whole place.le), if_pos (bound.trans_lt limit)]
    rfl

/-! Signs. -/

theorem round_not_neg {value : ℚ} (nonneg : 0 ≤ value) : ¬round value < 0 := by
  change ¬less (round value) (number 0) = true
  rcases nonneg.eq_or_lt with rfl | positive
  · decide
  · unfold round
    rw [if_neg positive.ne']
    have place := power_pos (max (-1074) (leading value - 52))
    have whole : (0 : ℚ) ≤ nearest (value / power (max (-1074) (leading value - 52))) := by
      exact_mod_cast nearest_nonneg (div_nonneg positive.le place.le)
    simp only
    split
    next => simpa [less] using mul_nonneg whole place.le
    next => simpa [less] using positive.le

theorem number_not_neg {value : ℚ} : ¬number value < 0 ↔ 0 ≤ value := by
  change ¬less (number value) (number 0) = true ↔ _
  simp [less]

theorem infinite_not_neg {negative : Bool} : ¬infinite negative < 0 ↔ negative = false := by
  change ¬less (infinite negative) (number 0) = true ↔ _
  simp [less]

theorem add_not_neg {a b : Double} (first : ¬a < 0) (second : ¬b < 0) : ¬a + b < 0 := by
  change ¬add a b < 0
  cases a with
  | number x =>
      cases b with
      | number y => exact round_not_neg (add_nonneg (number_not_neg.mp first) (number_not_neg.mp second))
      | infinite negative => exact second
      | nan => exact second
  | infinite negative =>
      obtain rfl := infinite_not_neg.mp first
      cases b with
      | number y => exact first
      | infinite other =>
          obtain rfl := infinite_not_neg.mp second
          exact first
      | nan => exact second
  | nan => cases b <;> exact first

theorem mul_not_neg {a b : Double} (first : ¬a < 0) (second : ¬b < 0) : ¬a * b < 0 := by
  change ¬mul a b < 0
  cases a with
  | number x =>
      have nonneg := number_not_neg.mp first
      cases b with
      | number y => exact round_not_neg (mul_nonneg nonneg (number_not_neg.mp second))
      | infinite negative =>
          obtain rfl := infinite_not_neg.mp second
          simp only [mul]
          split
          next => decide
          next => exact infinite_not_neg.mpr (by simpa using nonneg)
      | nan => exact second
  | infinite negative =>
      obtain rfl := infinite_not_neg.mp first
      cases b with
      | number y =>
          have nonneg := number_not_neg.mp second
          simp only [mul]
          split
          next => decide
          next => exact infinite_not_neg.mpr (by simpa using nonneg)
      | infinite other =>
          obtain rfl := infinite_not_neg.mp second
          exact first
      | nan => exact second
  | nan => cases b <;> exact first

theorem div_not_neg {a b : Double} (first : ¬a < 0) (second : ¬b < 0) : ¬a / b < 0 := by
  change ¬div a b < 0
  cases a with
  | number x =>
      have nonneg := number_not_neg.mp first
      cases b with
      | number y =>
          simp only [div]
          split
          next =>
            split
            next => decide
            next => exact infinite_not_neg.mpr (by simpa using nonneg)
          next => exact round_not_neg (div_nonneg nonneg (number_not_neg.mp second))
      | infinite negative => exact number_not_neg.mpr (le_refl 0)
      | nan => exact second
  | infinite negative =>
      obtain rfl := infinite_not_neg.mp first
      cases b with
      | number y => exact infinite_not_neg.mpr (by simpa using number_not_neg.mp second)
      | infinite other => cases other <;> decide
      | nan => exact second
  | nan => cases b <;> exact first

/-- The share of one number in the sum of two is finite. -/
theorem isFinite_share {a b : Double} (first : a.isFinite = true) (second : b.isFinite = true) (positive : 0 < a)
    (other : 0 < b) (some : a + b ≠ 0) : (a / (a + b)).isFinite = true := by
  cases a with
  | number x =>
      cases b with
      | number y =>
          have nonneg : 0 < x := by simpa [lt_def, less] using positive
          have rest : 0 < y := by simpa [lt_def, less] using other
          change (div (number x) (round (x + y))).isFinite = true
          change round (x + y) ≠ number 0 at some
          cases rounded : round (x + y) with
          | number total =>
              have nonzero : total ≠ 0 := fun zero => some (by rw [rounded, zero])
              obtain ⟨above, bound⟩ := round_number (by linarith) rounded nonzero
              simp only [div, if_neg nonzero]
              exact isFinite_round (div_nonneg nonneg.le above.le) ((div_le_iff₀ above).mpr (by linarith))
          | infinite negative => rfl
          | nan => exact absurd rounded (round_ne_nan _)
      | infinite negative => simp [isFinite] at second
      | nan => simp [isFinite] at second
  | infinite negative => simp [isFinite] at first
  | nan => simp [isFinite] at first

example : (1e308 : Double) + 1e308 = infinite false := by decide +kernel

example : (0.1 : Double) + 0.2 ≠ 0.3 := by decide +kernel

end Double

end Binary64
