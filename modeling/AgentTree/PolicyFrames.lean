import AgentTree.Learning

/-!
What a call of `engine.py` may change in a model: the weights to clipped values, the
counters, and the records of the agents that it is about.
-/

namespace AgentTree.Engine

open Outcome Relational

variable {F H : Type} [Zero F] [One F] [Add F] [Sub F] [Mul F] [Div F] [Neg F] [LT F] [LE F] [DecidableLT F]
  [DecidableLE F] [DecidableEq F] [OfScientific F] [NatCast F] [IntCast F]

namespace PolicyValueModel

variable {runtime : Runtime F} {model after last : PolicyValueModel F}

/-- Every weight is an old one or a clipped value. -/
def Clipped (limit : F) (before after : Dict String F) : Prop :=
  ∀ entry ∈ after.rows, entry ∈ before.rows ∨ ∃ value, entry.2 = clip value limit

omit [Zero F] [One F] [Add F] [Sub F] [Mul F] [Div F] [LE F] [DecidableLE F] [DecidableEq F] [OfScientific F]
  [NatCast F] [IntCast F]

theorem Clipped.refl (limit : F) (weights : Dict String F) : Clipped limit weights weights :=
  fun _ member => .inl member

theorem Clipped.trans {limit : F} {first second third : Dict String F} (early : Clipped limit first second)
    (late : Clipped limit second third) : Clipped limit first third := by
  intro entry member
  rcases late entry member with old | clipped
  · exact early entry old
  · exact .inr clipped

theorem shiftTags_clipped [Zero F] [Add F] (limit shift : F) (weights : Dict String F) (tags : List String) :
    Clipped limit weights (shiftTags limit shift weights tags) := by
  induction tags generalizing weights with
  | nil => exact .refl limit weights
  | cons tag rest ih =>
      refine Clipped.trans (fun entry member => ?_) (ih _)
      rcases Dict.mem_set member with rfl | member
      · exact .inr ⟨_, rfl⟩
      · exact .inl member

/-- What training changes, after some calls of `learn_value`. -/
structure Trained (before after : PolicyValueModel F) (count : Nat) : Prop where
  policyWeights : Clipped before.policyLimit before.policyWeights after.policyWeights
  valueWeights : Clipped before.valueLimit before.valueWeights after.valueWeights
  valueBias : after.valueBias = before.valueBias ∨ ∃ value, after.valueBias = clip value before.valueLimit
  frame : after = { before with
    policyWeights := after.policyWeights
    valueWeights := after.valueWeights
    valueBias := after.valueBias
    valueUpdates := before.valueUpdates + count }

theorem Trained.refl (model : PolicyValueModel F) : Trained model model 0 :=
  ⟨.refl _ _, .refl _ _, .inl rfl, by simp⟩

theorem Trained.trans {first second : Nat} (early : Trained model after first) (late : Trained after last second) :
    Trained model last (first + second) := by
  have policyLimit : after.policyLimit = model.policyLimit := by rw [early.frame]
  have valueLimit : after.valueLimit = model.valueLimit := by rw [early.frame]
  refine ⟨early.policyWeights.trans (policyLimit ▸ late.policyWeights),
    early.valueWeights.trans (valueLimit ▸ late.valueWeights), ?_, ?_⟩
  · rcases late.valueBias with same | clipped
    · exact same ▸ early.valueBias
    · exact .inr (valueLimit ▸ clipped)
  · rw [late.frame, early.frame]
    simp [Int.add_assoc]

variable [Zero F] [One F] [Add F] [Sub F] [Mul F] [Div F] [OfScientific F] [NatCast F]

omit [One F] [OfScientific F] in
theorem learnMoves_trained (targets predicted : Dict String F) (rate : F) (moves : List (Move F))
    (model : PolicyValueModel F) : Trained model (learnMoves targets predicted rate moves model).2 0 := by
  induction moves generalizing model with
  | nil => exact .refl model
  | cons move rest ih =>
      unfold learnMoves
      split
      next => exact .refl model
      next prior _ =>
        have shifted : ∀ weights, Clipped model.policyLimit model.policyWeights weights →
            Trained model { model with policyWeights := weights } 0 :=
          fun weights clipped => ⟨clipped, .refl _ _, .inl rfl, by simp⟩
        exact (shifted _ (shiftTags_clipped _ _ _ _)).trans (ih _)

theorem learnPolicy_trained [LE F] [DecidableLE F] [DecidableEq F] (runtime : Runtime F)
    (model : PolicyValueModel F) (moves : List (Move F)) (targets : Dict String F) (rate : F) :
    Trained model (model.learnPolicy runtime moves targets rate).2 0 := by
  unfold learnPolicy
  split
  next => exact .refl model
  next =>
    split
    next => exact .refl model
    next => exact learnMoves_trained _ _ _ _ _

omit [OfScientific F] in
theorem shiftValue_trained (runtime : Runtime F) (model : PolicyValueModel F) (position : Position F)
    (reward rate : F) : Trained model (model.shiftValue runtime position reward rate) 1 :=
  ⟨.refl _ _, shiftTags_clipped _ _ _ _, .inr ⟨_, rfl⟩, rfl⟩

omit [OfScientific F] in
/-- A call of `learn_value` raises and changes nothing, or updates the model. -/
theorem learnValue_cases [LE F] [DecidableLE F] (runtime : Runtime F) (model : PolicyValueModel F)
    (position : Position F) (reward rate : F) :
    (∃ error, model.learnValue runtime position reward rate = (.error error, model)) ∨
      model.learnValue runtime position reward rate = (.ok (), model.shiftValue runtime position reward rate) := by
  unfold learnValue
  split
  next error _ => exact .inl ⟨error, rfl⟩
  next => exact .inr rfl

end PolicyValueModel

open PolicyValueModel

section Results

variable {runtime : Runtime F} {model challenger : PolicyValueModel F}

omit [IntCast F]

omit [Add F] [Neg F] [Zero F] [One F] [Sub F] [Mul F] [Div F] [LT F] [LE F] [DecidableLT F] [DecidableLE F]
  [DecidableEq F] [OfScientific F] [NatCast F] in
theorem settled_eq_ok {outcome : Except PyError Unit × PolicyValueModel F} :
    settled outcome = .ok challenger ↔ outcome = (.ok (), challenger) := by
  obtain ⟨result, after⟩ := outcome
  cases result <;> simp [settled, Except.map]

theorem learnLesson_trained {systemAbstain : Bool} {reward : F} {lesson : Lesson F}
    (learned : learnLesson runtime systemAbstain reward model lesson = .ok challenger) :
    Trained model challenger 1 := by
  obtain ⟨taught, policy, value⟩ := bind_eq_ok.mp learned
  rw [settled_eq_ok] at policy value
  have first : Trained model taught 0 := by
    split at policy
    next => exact (Prod.mk.inj policy).2 ▸ .refl model
    next =>
      have kept := learnPolicy_trained runtime model lesson.legal lesson.targetProbabilities policyRate
      rwa [policy] at kept
  have second : Trained taught challenger 1 := by
    rcases learnValue_cases runtime taught lesson.position reward valueRate with ⟨error, raised⟩ | updated
    · simp [raised] at value
    · obtain rfl := (Prod.mk.inj (updated.symm.trans value)).2
      exact shiftValue_trained runtime taught lesson.position reward valueRate
  exact first.trans second

theorem learnLessons_trained {scenario : Scenario F} {systemAbstain : Bool} {reward : F} {lessons : List (Lesson F)}
    (learned : learnLessons runtime scenario systemAbstain reward lessons model = .ok challenger) :
    Trained model challenger (max 1 lessons.length) := by
  obtain ⟨taught, looped, value⟩ := bind_eq_ok.mp learned
  rw [settled_eq_ok] at value
  have loop : Trained model taught lessons.length := by
    clear value learned
    induction lessons generalizing model with
    | nil =>
        obtain rfl : model = taught := by simpa [pure, Except.pure] using looped
        exact .refl model
    | cons lesson rest ih =>
        rw [List.foldlM_cons] at looped
        obtain ⟨next, first, later⟩ := bind_eq_ok.mp looped
        have both := (learnLesson_trained first).trans (ih later)
        rwa [Nat.add_comm] at both
  split at value
  next empty =>
    rcases learnValue_cases runtime taught scenario.initialPosition reward valueRate with ⟨error, raised⟩ | updated
    · simp [raised] at value
    · obtain rfl := (Prod.mk.inj (updated.symm.trans value)).2
      have both := loop.trans (shiftValue_trained runtime taught scenario.initialPosition reward valueRate)
      simpa [List.isEmpty_iff.mp empty] using both
  next filled =>
    obtain rfl := (Prod.mk.inj value).2
    have some : 1 ≤ lessons.length := List.length_pos_iff.mpr (by simpa using filled)
    rwa [max_eq_right some]

variable [IntCast F] [DecidableEq H] {hashing : Hashing F H} {scenario : Scenario F} {suite : BenchmarkSuite F H}
  {result : SearchResult F H}

omit [IntCast F] in
/-- Everything that has succeeded when a challenger is trained. -/
theorem trainChallenger_ok (trained : trainChallenger runtime hashing scenario suite model result = .ok challenger) :
    ∃ states replayed score lessons taught,
      checkBinding hashing scenario suite model result = .ok () ∧
      result.replay runtime hashing scenario model.benchedAgents = .ok (states, replayed) ∧
      replayed.stateHash hashing = result.finalPosition.stateHash hashing ∧
      suite.evaluate runtime hashing replayed = .ok score ∧
      checkReplay hashing result replayed score = .ok () ∧
      validateTargets hashing scenario model.benchedAgents
        (Dict.ofList (states.map fun position => (position.stateHash hashing, position))) [] result.policyTargets =
        .ok lessons ∧
      model.postInit runtime = .ok () ∧
      learnLessons runtime scenario (isSystemAbstain result.trajectory) score.reward lessons model = .ok taught ∧
      challenger = { taught with generation := taught.generation + 1 } := by
  simp only [trainChallenger, frozenCopy, bind_eq_ok, ensure_eq_ok, decide_eq_true_eq, pure_eq_ok] at trained
  obtain ⟨_, bound, ⟨states, replayed⟩, replays, _, same, score, scored, _, checked, lessons, validated, copy,
    ⟨_, accepted, rfl⟩, taught, learned, rfl⟩ := trained
  exact ⟨states, replayed, score, lessons, taught, bound, replays, same, scored, checked, validated, accepted,
    learned, rfl⟩

omit [IntCast F] in
variable (runtime hashing scenario suite model result) in
/-- `learn_from_result` raises and changes nothing, or publishes what a training makes of the model. -/
theorem learnFromResult_cases :
    (∃ error, learnFromResult runtime hashing scenario suite model result = (.error error, model)) ∨
      ∃ taught count, 1 ≤ count ∧ Trained model taught count ∧
        learnFromResult runtime hashing scenario suite model result =
          (.ok (), { taught with generation := model.generation + 1 }) := by
  unfold learnFromResult
  split
  next error _ => exact .inl ⟨error, rfl⟩
  next challenger trained =>
    right
    obtain ⟨states, replayed, score, lessons, taught, _, _, _, _, _, _, _, learned, rfl⟩ := trainChallenger_ok trained
    have kept := learnLessons_trained learned
    refine ⟨taught, max 1 lessons.length, le_max_left _ _, kept, ?_⟩
    rw [kept.frame]

end Results

end AgentTree.Engine
