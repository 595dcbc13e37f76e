import AgentTree.StoreSchema
import AgentTree.Json
import AgentTree.Outcome
import Mathlib.Algebra.BigOperators.Group.Multiset.Basic

/-!
The limits on a request body in `api.py`: `_validate_json_limits` walks a parsed value with a stack of
its own.  The walk is also described with the stack replaced by a collection from which any value may be
taken next, and both are compared with the number of values and the longest chain of containers.
-/

namespace AgentTree.Json

mutual

/-- The value itself and every value inside it. -/
def valueCount : Json → Nat
  | arr items => 1 + itemsCount items
  | obj members => 1 + membersCount members
  | _ => 1

def itemsCount : List Json → Nat
  | [] => 0
  | item :: rest => item.valueCount + itemsCount rest

def membersCount : List (String × Json) → Nat
  | [] => 0
  | (_, value) :: rest => value.valueCount + membersCount rest

end

mutual

/-- How many objects and lists lie one inside the other, this value included. -/
def nesting : Json → Nat
  | arr items => 1 + itemsNesting items
  | obj members => 1 + membersNesting members
  | _ => 0

def itemsNesting : List Json → Nat
  | [] => 0
  | item :: rest => max item.nesting (itemsNesting rest)

def membersNesting : List (String × Json) → Nat
  | [] => 0
  | (_, value) :: rest => max value.nesting (membersNesting rest)

end

/-- What an object or a list holds. -/
def children : Json → Option (List Json)
  | obj members => some (members.map Prod.snd)
  | arr items => some items
  | _ => none

/-- Objects and lists, each directly inside the one before it, of which the value is the first. -/
inductive Chain : Json → (length : Nat) → Prop
  | one {value inside} : children value = some inside → Chain value 1
  | longer {value inside child length} : children value = some inside → child ∈ inside →
      Chain child length → Chain value (length + 1)

theorem itemsCount_eq (items : List Json) : itemsCount items = (items.map valueCount).sum := by
  induction items with
  | nil => rfl
  | cons item rest ih => simp [itemsCount, ih]

theorem membersCount_eq (members : List (String × Json)) :
    membersCount members = ((members.map Prod.snd).map valueCount).sum := by
  induction members with
  | nil => rfl
  | cons member rest ih => simp [membersCount, ih]

theorem itemsNesting_le (items : List Json) (bound : Nat) :
    itemsNesting items ≤ bound ↔ ∀ item ∈ items, item.nesting ≤ bound := by
  induction items with
  | nil => simp [itemsNesting]
  | cons item rest ih => simp [itemsNesting, ih]

theorem membersNesting_le (members : List (String × Json)) (bound : Nat) :
    membersNesting members ≤ bound ↔ ∀ item ∈ members.map Prod.snd, item.nesting ≤ bound := by
  induction members with
  | nil => simp [membersNesting]
  | cons member rest ih =>
      rw [membersNesting, max_le_iff, ih]
      simp only [List.map_cons, List.forall_mem_cons]

theorem valueCount_leaf {value : Json} (leaf : children value = none) : value.valueCount = 1 := by
  cases value <;> simp_all [children, valueCount]

theorem valueCount_node {value : Json} {inside : List Json} (node : children value = some inside) :
    value.valueCount = 1 + (inside.map valueCount).sum := by
  cases value with
  | arr items =>
      obtain rfl : items = inside := by simpa [children] using node
      rw [valueCount, itemsCount_eq]
  | obj members =>
      obtain rfl : members.map Prod.snd = inside := by simpa [children] using node
      rw [valueCount, membersCount_eq]
  | null | bool _ | int _ | float _ | str _ => simp [children] at node

theorem nesting_leaf {value : Json} (leaf : children value = none) : value.nesting = 0 := by
  cases value <;> simp_all [children, nesting]

theorem nesting_node {value : Json} {inside : List Json} (node : children value = some inside) (bound : Nat) :
    value.nesting ≤ bound ↔ 1 ≤ bound ∧ ∀ child ∈ inside, child.nesting + 1 ≤ bound := by
  have less : ∀ deepest, 1 + deepest ≤ bound ↔ 1 ≤ bound ∧ deepest ≤ bound - 1 := by omega
  have each : ∀ child : Json, 1 ≤ bound → (child.nesting ≤ bound - 1 ↔ child.nesting + 1 ≤ bound) := by
    intro child positive
    omega
  cases value with
  | arr items =>
      obtain rfl : items = inside := by simpa [children] using node
      rw [nesting, less, itemsNesting_le]
      exact and_congr_right fun positive => forall₂_congr fun child _ => each child positive
  | obj members =>
      obtain rfl : members.map Prod.snd = inside := by simpa [children] using node
      rw [nesting, less, membersNesting_le]
      exact and_congr_right fun positive => forall₂_congr fun child _ => each child positive
  | null | bool _ | int _ | float _ | str _ => simp [children] at node

theorem chain_le_nesting {value : Json} {length : Nat} (chain : Chain value length) :
    length ≤ value.nesting := by
  induction chain with
  | one node => exact ((nesting_node node _).mp le_rfl).1
  | longer node inside _ ih => exact (Nat.succ_le_succ ih).trans (((nesting_node node _).mp le_rfl).2 _ inside)

/-- The longest chain is as long as the nesting is deep. -/
theorem nesting_le_iff {value : Json} {bound : Nat} :
    value.nesting ≤ bound ↔ ∀ length, Chain value length → length ≤ bound := by
  constructor
  · intro shallow length chain
    exact (chain_le_nesting chain).trans shallow
  · intro short
    induction bound generalizing value with
    | zero =>
        cases node : children value with
        | none => exact (nesting_leaf node).le
        | some inside => exact absurd (short 1 (.one node)) (by omega)
    | succ bound ih =>
        cases node : children value with
        | none => exact (nesting_leaf node).le.trans (Nat.zero_le _)
        | some inside =>
            rw [nesting_node node]
            refine ⟨by omega, fun child held => Nat.succ_le_succ (ih fun length chain => ?_)⟩
            exact Nat.le_of_succ_le_succ (short (length + 1) (.longer node held chain))

end AgentTree.Json

namespace AgentTree.Api

open Outcome

def maxJsonDepth : Nat := 64
def maxJsonValues : Nat := 10000

/-- One turn of the loop for the pair that was popped: the new count and the pairs to push. -/
def visit (current : Json) (enclosingDepth valueCount : Nat) : Except PyError (Nat × List (Json × Nat)) := do
  let valueCount := valueCount + 1
  ensure (valueCount ≤ maxJsonValues) (.valueError "JSON value limit exceeded")
  match current.children with
  | none => return (valueCount, [])
  | some children =>
      let depth := enclosingDepth + 1
      ensure (depth ≤ maxJsonDepth) (.valueError "JSON nesting depth exceeded")
      return (valueCount, children.map fun item => (item, depth))

/-- The values still to be visited, counted with all that they hold. -/
def weight (pending : List (Json × Nat)) : Nat := (pending.map fun pair => pair.1.valueCount).sum

@[simp] theorem weight_nil : weight [] = 0 := rfl

@[simp] theorem weight_cons (pair : Json × Nat) (rest : List (Json × Nat)) :
    weight (pair :: rest) = pair.1.valueCount + weight rest := by
  simp [weight]

@[simp] theorem weight_append (first rest : List (Json × Nat)) :
    weight (first ++ rest) = weight first + weight rest := by
  simp [weight]

@[simp] theorem weight_reverse (pending : List (Json × Nat)) : weight pending.reverse = weight pending := by
  simp [weight, List.sum_reverse]

theorem weight_perm {pending other : List (Json × Nat)} (same : pending.Perm other) :
    weight pending = weight other :=
  (same.map _).sum_eq

theorem weight_pushed (inside : List Json) (depth : Nat) :
    weight (inside.map fun item => (item, depth)) = (inside.map Json.valueCount).sum := by
  rw [weight, List.map_map]
  rfl

/-- A turn that does not raise replaces the value by its children, one level down. -/
theorem visit_ok {current : Json} {enclosing count counted : Nat} {pushed : List (Json × Nat)} :
    visit current enclosing count = .ok (counted, pushed) ↔
      counted = count + 1 ∧ count + 1 ≤ maxJsonValues ∧
      ((current.children = none ∧ pushed = []) ∨
        ∃ inside, current.children = some inside ∧ enclosing + 1 ≤ maxJsonDepth ∧
          pushed = inside.map fun item => (item, enclosing + 1)) := by
  simp only [visit, bind_eq_ok, ensure_eq_ok, decide_eq_true_eq]
  cases current.children with
  | none =>
      simp only [pure_eq_ok, Prod.mk.injEq]
      constructor
      · rintro ⟨_, within, rfl, rfl⟩
        exact ⟨rfl, within, .inl ⟨trivial, rfl⟩⟩
      · rintro ⟨rfl, within, ⟨-, rfl⟩ | ⟨_, other, -⟩⟩
        · exact ⟨(), within, by simp⟩
        · exact absurd other (by simp)
  | some inside =>
      simp only [bind_eq_ok, ensure_eq_ok, decide_eq_true_eq, pure_eq_ok, Prod.mk.injEq]
      constructor
      · rintro ⟨_, within, _, shallow, rfl, rfl⟩
        exact ⟨rfl, within, .inr ⟨inside, rfl, shallow, rfl⟩⟩
      · rintro ⟨rfl, within, ⟨other, -⟩ | ⟨_, same, shallow, rfl⟩⟩
        · exact absurd other (by simp)
        · obtain rfl := Option.some.inj same
          exact ⟨(), within, (), shallow, rfl, rfl⟩

/-- A turn that raises found too many values, or a container too deep. -/
theorem visit_error {current : Json} {enclosing count : Nat} {error : PyError}
    (raised : visit current enclosing count = .error error) :
    maxJsonValues < count + 1 ∨ (∃ inside, current.children = some inside) ∧ maxJsonDepth < enclosing + 1 := by
  by_contra within
  have counted : count + 1 ≤ maxJsonValues := by
    by_contra many
    exact within (.inl (by omega))
  have shallow : ∀ inside, current.children = some inside → enclosing + 1 ≤ maxJsonDepth := by
    intro inside node
    by_contra deep
    exact within (.inr ⟨⟨inside, node⟩, by omega⟩)
  have done : ∃ result, visit current enclosing count = .ok result := by
    cases inside : current.children with
    | none => exact ⟨_, visit_ok.mpr ⟨rfl, counted, .inl ⟨inside, rfl⟩⟩⟩
    | some held => exact ⟨_, visit_ok.mpr ⟨rfl, counted, .inr ⟨held, inside, shallow held inside, rfl⟩⟩⟩
  obtain ⟨result, same⟩ := done
  exact absurd (raised.symm.trans same) (by simp)

/-- Every turn visits one value. -/
theorem visit_weight {current : Json} {enclosing count counted : Nat} {pushed : List (Json × Nat)}
    (visited : visit current enclosing count = .ok (counted, pushed)) :
    current.valueCount = 1 + weight pushed := by
  obtain ⟨-, -, ⟨leaf, rfl⟩ | ⟨inside, node, -, rfl⟩⟩ := visit_ok.mp visited
  · simp [Json.valueCount_leaf leaf]
  · rw [Json.valueCount_node node, weight_pushed]

/-- The loop, with the top of the stack first. -/
def validateStack : (stack : List (Json × Nat)) → (valueCount : Nat) → Except PyError Unit
  | [], _ => .ok ()
  | (current, enclosingDepth) :: stack, valueCount =>
      match _visited : visit current enclosingDepth valueCount with
      | .error error => .error error
      | .ok (valueCount, pushed) => validateStack (pushed.reverse ++ stack) valueCount
termination_by stack => weight stack
decreasing_by
  have := visit_weight _visited
  simp only [weight_append, weight_reverse, weight_cons]
  omega

def validateJsonLimits (value : Json) : Except PyError Unit := validateStack [(value, 0)] 0

/-- The loop with its stack replaced by a collection without an order. -/
structure Walk where
  pending : Multiset (Json × Nat)
  valueCount : Nat

def Walk.start (value : Json) : Walk := ⟨{(value, 0)}, 0⟩

/-- Any pending value is visited and does not raise. -/
inductive Turn : Walk → Walk → Prop
  | visited {current enclosing count counted} {pushed : List (Json × Nat)} (rest) :
      visit current enclosing count = .ok (counted, pushed) →
      Turn ⟨(current, enclosing) ::ₘ rest, count⟩ ⟨↑pushed + rest, counted⟩

/-- How a walk can end: nothing is left, or a value that may come next raises. -/
inductive Verdict : Walk → Except PyError Unit → Prop
  | finished (count) : Verdict ⟨0, count⟩ (.ok ())
  | raised {current enclosing count error} (rest) : visit current enclosing count = .error error →
      Verdict ⟨(current, enclosing) ::ₘ rest, count⟩ (.error error)
  | turned {walk next verdict} : Turn walk next → Verdict next verdict → Verdict walk verdict

def Walk.weight (walk : Walk) : Nat := (walk.pending.map fun pair => pair.1.valueCount).sum

theorem Walk.weight_coe (pending : List (Json × Nat)) (count : Nat) :
    Walk.weight ⟨pending, count⟩ = Api.weight pending := by
  simp [Walk.weight, Api.weight]

theorem Walk.weight_cons (pair : Json × Nat) (rest : Multiset (Json × Nat)) (count other : Nat) :
    Walk.weight ⟨pair ::ₘ rest, count⟩ = pair.1.valueCount + Walk.weight ⟨rest, other⟩ := by
  simp [Walk.weight]

theorem Walk.weight_add (pushed : List (Json × Nat)) (rest : Multiset (Json × Nat)) (count other : Nat) :
    Walk.weight ⟨↑pushed + rest, count⟩ = Api.weight pushed + Walk.weight ⟨rest, other⟩ := by
  simp [Walk.weight, Api.weight]

theorem Turn.weight {walk next : Walk} (turn : Turn walk next) : next.weight + 1 = walk.weight := by
  obtain ⟨rest, visited⟩ := turn
  have one := visit_weight visited
  rw [Walk.weight_cons _ rest _ 0, Walk.weight_add _ rest _ 0]
  dsimp only
  omega

/-- Whatever is visited next, a walk ends. -/
theorem turn_ends (walk : Walk) : Acc (fun next walk => Turn walk next) walk := by
  generalize size : walk.weight = left
  induction left generalizing walk with
  | zero =>
      refine ⟨_, fun next turn => ?_⟩
      have := turn.weight
      omega
  | succ left ih =>
      refine ⟨_, fun next turn => ih next ?_⟩
      have := turn.weight
      omega

/-- A pending pair that will not raise for its depth. -/
def Shallow (pair : Json × Nat) : Prop := pair.1.nesting = 0 ∨ pair.2 + pair.1.nesting ≤ maxJsonDepth

/-- What is pending is within both limits, together with what was counted. -/
structure Walk.Fits (walk : Walk) : Prop where
  counted : walk.valueCount + walk.weight ≤ maxJsonValues
  shallow : ∀ pair ∈ walk.pending, Shallow pair

theorem shallow_visited {current : Json} {enclosing count counted : Nat} {pushed : List (Json × Nat)}
    (visited : visit current enclosing count = .ok (counted, pushed)) :
    Shallow (current, enclosing) ↔ ∀ pair ∈ pushed, Shallow pair := by
  obtain ⟨-, -, ⟨leaf, rfl⟩ | ⟨inside, node, within, rfl⟩⟩ := visit_ok.mp visited
  · simp [Shallow, Json.nesting_leaf leaf]
  · have deep := Json.nesting_node node
    have some : 1 ≤ current.nesting := ((deep _).mp le_rfl).1
    have bounded : Shallow (current, enclosing) ↔ current.nesting ≤ maxJsonDepth - enclosing := by
      simp only [Shallow]
      omega
    rw [bounded, deep, List.forall_mem_map]
    constructor
    · rintro ⟨-, lower⟩ child held
      have := lower child held
      exact .inr (by dsimp only; omega)
    · intro lower
      refine ⟨by omega, fun child held => ?_⟩
      have := lower child held
      simp only [Shallow] at this
      omega

/-- A turn changes neither what was counted and is still to be counted, nor whether it is too deep. -/
theorem Turn.fits {walk next : Walk} (turn : Turn walk next) : walk.Fits ↔ next.Fits := by
  have one := turn.weight
  cases turn with | @visited current enclosing count counted pushed rest visited =>
  obtain ⟨rfl, -⟩ := visit_ok.mp visited
  have depths := shallow_visited visited
  constructor
  · rintro ⟨counted, shallow⟩
    refine ⟨by dsimp only at counted ⊢; omega, fun pair held => ?_⟩
    obtain pushed | kept := Multiset.mem_add.mp held
    · exact depths.mp (shallow _ (Multiset.mem_cons_self _ _)) pair pushed
    · exact shallow pair (Multiset.mem_cons_of_mem kept)
  · rintro ⟨counted, shallow⟩
    refine ⟨by dsimp only at counted ⊢; omega, fun pair held => ?_⟩
    obtain rfl | kept := Multiset.mem_cons.mp held
    · exact depths.mpr fun pair pushed => shallow pair (Multiset.mem_add.mpr (.inl pushed))
    · exact shallow pair (Multiset.mem_add.mpr (.inr kept))

/-- A walk that raises, with whatever it visited last, was not within the limits. -/
theorem not_fits_of_error {current : Json} {enclosing count : Nat} {error : PyError}
    {rest : Multiset (Json × Nat)} (raised : visit current enclosing count = .error error) :
    ¬ Walk.Fits ⟨(current, enclosing) ::ₘ rest, count⟩ := by
  rintro ⟨counted, shallow⟩
  obtain many | ⟨⟨inside, node⟩, deep⟩ := visit_error raised
  · have positive : 1 ≤ current.valueCount := by
      cases node : current.children with
      | none => exact (Json.valueCount_leaf node).ge
      | some inside => exact (Json.valueCount_node node).ge.trans' (Nat.le_add_right _ _)
    rw [Walk.weight_cons _ rest _ 0] at counted
    dsimp only at counted
    omega
  · have some : 1 ≤ current.nesting := ((Json.nesting_node node _).mp le_rfl).1
    have := shallow _ (Multiset.mem_cons_self _ _)
    simp only [Shallow] at this
    omega

/-- Whatever is visited next, the verdict is whether the walk was within the limits. -/
theorem verdict_ok_iff {walk : Walk} {verdict : Except PyError Unit} (ended : Verdict walk verdict)
    (within : walk.valueCount ≤ maxJsonValues) : verdict = .ok () ↔ walk.Fits := by
  induction ended with
  | finished count => exact iff_of_true rfl ⟨by simpa [Walk.weight] using within, by simp⟩
  | raised rest raised => exact iff_of_false (by simp) (not_fits_of_error raised)
  | turned turn _ ih =>
      rw [turn.fits]
      apply ih
      obtain ⟨rest, visited⟩ := turn
      obtain ⟨rfl, counted, -⟩ := visit_ok.mp visited
      exact counted

/-- The stack is one of the orders. -/
theorem validateStack_verdict (stack : List (Json × Nat)) (count : Nat) :
    Verdict ⟨stack, count⟩ (validateStack stack count) := by
  induction stack, count using validateStack.induct with
  | case1 count =>
      rw [validateStack]
      exact .finished count
  | case2 current enclosing stack count error raised =>
      rw [validateStack]
      split
      next other same =>
        rw [← Multiset.cons_coe]
        exact .raised _ same
      next other pushed same => exact absurd (raised.symm.trans same) (by simp)
  | case3 current enclosing stack count counted pushed visited ih =>
      rw [validateStack]
      split
      next other same => exact absurd (visited.symm.trans same) (by simp)
      next other others same =>
        obtain ⟨rfl, rfl⟩ := Prod.mk.inj (Except.ok.inj (visited.symm.trans same))
        rw [← Multiset.cons_coe]
        refine .turned (.visited _ visited) ?_
        rw [← Multiset.coe_add, Multiset.coe_reverse] at ih
        exact ih

theorem start_fits (value : Json) :
    (Walk.start value).Fits ↔ value.valueCount ≤ maxJsonValues ∧ value.nesting ≤ maxJsonDepth := by
  constructor
  · rintro ⟨counted, shallow⟩
    have depth := shallow (value, 0) (Multiset.mem_singleton_self _)
    simp only [Shallow] at depth
    refine ⟨by simpa [Walk.start, Walk.weight] using counted, by omega⟩
  · rintro ⟨counted, depth⟩
    refine ⟨by simpa [Walk.start, Walk.weight] using counted, fun pair held => ?_⟩
    obtain rfl := Multiset.mem_singleton.mp held
    exact .inr (by dsimp only; omega)

/-- The loop ends in every order, and accepts, in every order, what is within the two limits. -/
theorem validateJsonLimits_iff (value : Json) :
    (validateJsonLimits value = .ok () ↔
      value.valueCount ≤ 10000 ∧ ∀ length, Json.Chain value length → length ≤ 64) ∧
    Acc (fun next walk => Turn walk next) (Walk.start value) ∧
    ∀ verdict, Verdict (Walk.start value) verdict → (verdict = .ok () ↔ validateJsonLimits value = .ok ()) := by
  have own : Verdict (Walk.start value) (validateJsonLimits value) := validateStack_verdict [(value, 0)] 0
  have accepts := verdict_ok_iff own (Nat.zero_le _)
  refine ⟨?_, turn_ends _, fun verdict ended => ?_⟩
  · rw [accepts, start_fits, Json.nesting_le_iff]
    rfl
  · rw [accepts]
    exact verdict_ok_iff ended (Nat.zero_le _)

end AgentTree.Api
