import AgentTree.GatedResults

/-!
A longer search extends the tree of a shorter one, and returns a terminal that is no worse
than the terminal of the shorter one.  Numbers are those of the source; doubles are among them.
-/

set_option linter.unusedSectionVars false

namespace AgentTree.Engine

open Outcome Relational

section Growth

variable {F H : Type} [Zero F] [One F] [Add F] [Sub F] [Mul F] [Div F] [Neg F] [LT F] [LE F] [DecidableLT F]
  [DecidableLE F] [DecidableEq F] [OfScientific F] [NatCast F] [IntCast F] [DecidableEq H]
  {runtime : Runtime F} {hashing : Hashing F H}

namespace PUCTSearch

variable {search : PUCTSearch F H} {before after : Scores F H} {value : F} {node next : SearchNode F}

/-- A tree that has every path of another, to the same position. -/
def Extends (node next : SearchNode F) : Prop :=
  ∀ path found, node.At path found → ∃ other, next.At path other ∧ other.position = found.position

theorem Extends.refl (node : SearchNode F) : Extends node node := fun _ found there => ⟨found, there, rfl⟩

theorem Extends.trans {last : SearchNode F} (first : Extends node next) (second : Extends next last) :
    Extends node last := by
  intro path found there
  obtain ⟨other, reached, same⟩ := first path found there
  obtain ⟨final, arrived, again⟩ := second path other reached
  exact ⟨final, arrived, again.trans same⟩

/-- A node with every child of another, each extended. -/
theorem Extends.make (position : next.position = node.position)
    (children : ∀ child ∈ node.children, ∃ other ∈ next.children, other.move = child.move ∧ Extends child other) :
    Extends node next := by
  intro path found there
  cases there with
  | here => exact ⟨next, .here next, position⟩
  | step member below =>
      obtain ⟨other, inside, moved, extended⟩ := children _ member
      obtain ⟨last, arrived, same⟩ := extended _ found below
      exact ⟨last, moved ▸ .step inside arrived, same⟩

theorem Extends.keep (position : next.position = node.position)
    (children : ∀ child ∈ node.children, child ∈ next.children) : Extends node next :=
  .make position fun child member => ⟨child, children child member, rfl, .refl child⟩

theorem Simulated.extends (scenario : search.scenario.Accepted)
    (simulated : Simulated runtime hashing search before value after node next)
    (linked : node.Everywhere (Linked runtime hashing search)) : Extends node next := by
  induction simulated with
  | terminal => exact .keep rfl fun _ member => member
  | @expanded node move rest priors position prior running prepared applied =>
      have fresh := linked.here.fresh scenario prepared
      have appended : SearchNode.setChild ((SearchNode.make position (some move) prior).visit value) node.children =
          node.children ++ [(SearchNode.make position (some move) prior).visit value] := SearchNode.setChild_fresh fresh
      rw [appended]
      exact .keep rfl fun child member => List.mem_append_left _ member
  | dead => exact .keep rfl fun _ member => member
  | @descended node child next priors index running prepared selected there simulated ih =>
      have member := List.mem_of_getElem? there
      have extended := ih (linked.children child member)
      obtain ⟨bound, held⟩ := List.getElem?_eq_some_iff.mp there
      refine .make rfl fun other inside => ?_
      by_cases same : other = child
      · exact ⟨next, List.mem_set bound next, same ▸ simulated.frame.2.1, same ▸ extended⟩
      · obtain ⟨place, present⟩ := List.mem_iff_getElem?.mp inside
        have apart : index ≠ place := by
          rintro rfl
          exact same (Option.some.inj (present.symm.trans there))
        have kept : (node.children.set index next)[place]? = some other := by
          rw [List.getElem?_set_ne apart, present]
        exact ⟨other, List.mem_of_getElem? kept, rfl, .refl other⟩

/-- The tree of more simulations extends that of fewer. -/
theorem simulations_extends (scenario : search.scenario.Accepted) {fewer more : Nat} {root longer : SearchNode F}
    {scores others : Scores F H} (order : fewer ≤ more)
    (ran : search.simulations runtime hashing fewer = .ok (root, scores))
    (again : search.simulations runtime hashing more = .ok (longer, others)) : Extends root longer := by
  induction more, order using Nat.le_induction generalizing longer others with
  | base =>
      obtain ⟨rfl, _⟩ := Prod.mk.inj (Except.ok.inj (ran.symm.trans again))
      exact .refl root
  | succ more _ ih =>
      obtain ⟨earlier, before, value, earlierRan, simulated⟩ := simulations_succ again
      have linked := (simulations_tree scenario earlierRan).1.linked
      exact (ih earlierRan).trans (simulated.extends scenario linked)

/-- The comparisons of a search, of which only a NaN is in no order. -/
structure Ranked (runtime : Runtime F) : Prop extends runtime.Ordered where
  constants : (-1 : F) ≤ -1 ∧ (1 : F) ≤ 1
  less : ∀ a b : F, a < b → a ≤ b ∧ a ≤ a ∧ b ≤ b
  trans : ∀ a b c : F, a ≤ b → b ≤ c → a ≤ c

theorem Ranked.pyMax (ranked : Ranked runtime) {a : F} (number : a ≤ a) (b : F) : pyMax a b ≤ pyMax a b := by
  unfold Engine.pyMax
  split
  next less => exact (ranked.less a b less).2.2
  next => exact number

/-- No reward is a NaN. -/
theorem Ranked.reward (ranked : Ranked runtime) {suite : BenchmarkSuite F H}
    (built : suite.postInit runtime hashing = .ok ()) {position : Position F} {card : ScoreCard F}
    (scored : suite.evaluate runtime hashing position = .ok card) : card.reward ≤ card.reward := by
  simp only [BenchmarkSuite.postInit, bind_eq_ok, ensure_eq_ok, Bool.and_eq_true] at built
  obtain ⟨_, _, _, _, _, _, _, _, _, _, _, _, _, _, _, ⟨⟨violation, _⟩, _⟩, _, ⟨⟨abstain, _⟩, _⟩, _⟩ := built
  unfold BenchmarkSuite.evaluate at scored
  split at scored
  next =>
    unfold BenchmarkSuite.evaluateAbstained at scored
    split at scored
    next =>
      obtain rfl := Except.ok.inj scored
      exact ranked.finite _ abstain
    next =>
      obtain ⟨_, _, same⟩ := bind_eq_ok.mp scored
      obtain rfl := pure_eq_ok.mp same
      exact ranked.pyMax ranked.constants.1 _
  next =>
    obtain ⟨_, _, same⟩ := bind_eq_ok.mp scored
    obtain rfl := pure_eq_ok.mp same
    show (if _ then _ else _) ≤ (if _ then _ else _)
    split
    · exact ranked.pyMax ranked.constants.1 _
    · exact ranked.finite _ violation

/-- Where no reward is a NaN, the greatest of what is found has the greatest reward. -/
theorem Ranked.best (ranked : Ranked runtime) {found : List (Found F)} {best : Found F}
    (numbers : ∀ one ∈ found, one.score.reward ≤ one.score.reward) (greatest : maximum foundBefore found = .ok best) :
    ∀ one ∈ found, one.score.reward ≤ best.score.reward := by
  refine (maximum_among (fun one : Found F => one.score.reward ≤ one.score.reward)
    (fun a b => a.score.reward ≤ b.score.reward) (fun _ number => number) (fun _ _ _ => ranked.trans _ _ _) ?_ ?_
    numbers greatest).2
  · intro a b first _ before
    unfold foundBefore at before
    split at before
    next => exact (ranked.less _ _ (of_decide_eq_true before)).1
    next same => rw [← not_not.mp same]; exact first
  · intro a b first second before
    unfold foundBefore at before
    split at before
    next => exact ranked.total _ _ first second (of_decide_eq_false before)
    next same => rw [← not_not.mp same]; exact first

/-- The terminals that a run has found: what it returns is a best of them, or the system abstains for want of any. -/
structure Returned (runtime : Runtime F) (hashing : Hashing F H) (search : PUCTSearch F H) (found : List (Found F))
    (result : SearchResult F H) : Prop where
  genuine : ∀ one ∈ found, one.Genuine runtime hashing search ∧ ∃ path, result.root.At path one.terminal ∧
    one.terminal.position.terminal = true
  complete : ∀ path terminal card, result.root.At path terminal → terminal.position.terminal = true →
    search.benchmark.evaluate runtime hashing terminal.position = .ok card → card.feasible = true →
    ∃ one ∈ found, one.score = card
  best : found ≠ [] → ∃ one ∈ found, result.terminalNode = some one.terminal ∧ result.score = one.score ∧
    ∀ other ∈ found, other.score.reward ≤ one.score.reward
  abstains : found = [] → result.terminalNode = none ∧ ∃ position,
    search.scenario.safeAbstain Scenario.systemAbstainText = .ok position ∧
    search.benchmark.evaluate runtime hashing position = .ok result.score

theorem run_returned (ranked : Ranked runtime) (injective : Function.Injective hashing.digest)
    (constructed : search.Constructed runtime hashing) {count : Int} {result : SearchResult F H}
    (ran : search.run runtime hashing count = .ok result) : ∃ found, Returned runtime hashing search found result := by
  have scenario := Scenario.postInit_accepted constructed.scenario
  obtain ⟨_, scores, found, middle, choice, last, simulated, listed, chosen, reports⟩ := run_ok ran
  have linked := (simulations_tree scenario simulated).1.linked
  have reached : ∀ path ∈ SearchNode.terminalPaths [] result.root, ∀ terminal, path.getLast? = some terminal →
      Reached runtime hashing search terminal.position := by
    intro path member terminal ends
    obtain ⟨below, _, rfl, there, _, _⟩ := SearchNode.mem_terminalPaths.mp member
    exact (there.everywhere linked terminal (List.mem_of_getLast? ends)).here.reached
  obtain ⟨kept, sound, every⟩ :=
    feasibleTerminals_ok scenario injective (simulations_cached scenario simulated) reached listed
  refine ⟨found, fun one member => ?_, fun path terminal card there stops scored feasible => ?_, fun some => ?_,
    fun none => ?_⟩
  · obtain ⟨inside, genuine⟩ := sound one member
    obtain ⟨below, terminal, same, down, final, stops⟩ := SearchNode.mem_terminalPaths.mp inside
    rw [List.nil_append] at same
    obtain rfl := Option.some.inj ((same ▸ genuine.last).symm.trans final)
    obtain ⟨_, _, _, ends, arrived⟩ := down.last
    obtain rfl := Option.some.inj (final.symm.trans ends)
    exact ⟨genuine, _, arrived, stops⟩
  · obtain ⟨nodes, inside, final⟩ := there.path
    exact ⟨_, every nodes (SearchNode.mem_terminalPaths.mpr ⟨nodes, terminal, rfl, inside, final, stops⟩) terminal card
      final scored feasible, rfl⟩
  · rcases choose_ok chosen with ⟨none, _⟩ | ⟨best, greatest, rfl⟩
    · exact absurd none some
    · have numbers : ∀ one ∈ found, one.score.reward ≤ one.score.reward :=
        fun one member => ranked.reward constructed.benchmark (sound one member).2.scored
      exact ⟨best, maximum_mem greatest, reports.terminalNode, reports.score, ranked.best numbers greatest⟩
  · rcases choose_ok chosen with ⟨_, position, card, abstains, scored, rfl⟩ | ⟨best, greatest, rfl⟩
    · refine ⟨reports.terminalNode, position, abstains, ?_⟩
      rw [reports.score]
      exact score_safeAbstain scenario injective kept abstains scored
    · simp [none, maximum] at greatest

/-- A result of more simulations, compared with one of fewer. -/
structure NoWorse (result longer : SearchResult F H) : Prop where
  found : result.terminalNode.isSome = true → longer.terminalNode.isSome = true
  reward : result.terminalNode.isSome = true ∨ longer.terminalNode = none → result.score.reward ≤ longer.score.reward

/-- More search does not lose a terminal, and returns none that is worse. -/
theorem run_noWorse (runtime : Runtime F) (hashing : Hashing F H) (search : PUCTSearch F H) (fewer more : Int)
    (result longer : SearchResult F H) (ranked : Ranked runtime) (injective : Function.Injective hashing.digest)
    (constructed : search.Constructed runtime hashing) (order : fewer ≤ more)
    (ran : search.run runtime hashing fewer = .ok result) (again : search.run runtime hashing more = .ok longer) :
    NoWorse result longer := by
  have scenario := Scenario.postInit_accepted constructed.scenario
  obtain ⟨found, short⟩ := run_returned ranked injective constructed ran
  obtain ⟨others, long⟩ := run_returned ranked injective constructed again
  obtain ⟨_, _, _, _, _, _, simulated, _⟩ := run_ok ran
  obtain ⟨_, _, _, _, _, _, repeated, _⟩ := run_ok again
  have extended := simulations_extends scenario (Int.toNat_le_toNat order) simulated repeated
  have kept : ∀ one ∈ found, ∃ other ∈ others, other.score = one.score := by
    intro one member
    obtain ⟨genuine, path, there, stops⟩ := short.genuine one member
    obtain ⟨node, arrived, same⟩ := extended path _ there
    exact long.complete path node one.score arrived (same ▸ stops) (same ▸ genuine.scored) genuine.feasible
  by_cases none : found = []
  · obtain ⟨absent, position, abstains, scored⟩ := short.abstains none
    refine ⟨fun some => by simp [absent] at some, fun either => ?_⟩
    rcases either with some | nothing
    · simp [absent] at some
    · have empty : others = [] := by
        by_contra some
        obtain ⟨_, _, there, _⟩ := long.best some
        simp [nothing] at there
      obtain ⟨_, other, abstained, rescored⟩ := long.abstains empty
      obtain rfl := Except.ok.inj (abstains.symm.trans abstained)
      rw [← Except.ok.inj (scored.symm.trans rescored)]
      exact ranked.reward constructed.benchmark scored
  · obtain ⟨one, member, _, reported, _⟩ := short.best none
    obtain ⟨other, inside, same⟩ := kept one member
    obtain ⟨best, _, there, reread, greatest⟩ := long.best (List.ne_nil_of_mem inside)
    refine ⟨fun _ => by simp [there], fun _ => ?_⟩
    rw [reported, reread, ← same]
    exact greatest other inside

end PUCTSearch

end Growth

namespace DoubleSample

open Binary64

theorem runtime_ranked : PUCTSearch.Ranked runtime where
  toOrdered := runtime_ordered
  constants := by decide +kernel
  less _ _ := Double.le_of_lt
  trans _ _ _ := Double.le_trans

/-- A search whose suite has no gate and receipts of a low safety. -/
def lenient : PUCTSearch Double (List (Token Double)) :=
  { search 1 1 with benchmark := { suite 1 0.1 with metrics := [⟨"safety", 1, none⟩] } }

theorem lenient_constructed : lenient.Constructed runtime digests where
  scenario := by
    show scenario.postInit digests = .ok ()
    decide +kernel
  moves := by
    show ∀ phase ∈ scenario.phases, ∀ move ∈ phase, move.postInit runtime = .ok ()
    decide +kernel
  benchmark := by decide +kernel
  metrics := by
    show ∀ metric ∈ [BenchmarkMetric.mk "safety" (1 : Double) none], metric.postInit runtime = .ok ()
    decide +kernel
  search := ⟨model, PUCTSearch.init_same (by decide +kernel)⟩

end DoubleSample

open DoubleSample Binary64 in
theorem PUCTSearch.run_noWorse_sample : ∃ result longer, lenient.run runtime digests 4 = .ok result ∧
    lenient.run runtime digests 6 = .ok longer ∧ NoWorse result longer := by
  have first : (lenient.run runtime digests 4).toOption.isSome = true := by decide +kernel
  have second : (lenient.run runtime digests 6).toOption.isSome = true := by decide +kernel
  cases ran : lenient.run runtime digests 4 with
  | error error => simp [ran, Except.toOption] at first
  | ok result =>
      cases again : lenient.run runtime digests 6 with
      | error error => simp [again, Except.toOption] at second
      | ok longer =>
          exact ⟨result, longer, rfl, rfl, run_noWorse runtime digests lenient 4 6 result longer runtime_ranked
            digests_injective lenient_constructed (by decide) ran again⟩

open DoubleSample Binary64 in
/-- One simulation abstains at no loss, and four commit to a loss. -/
theorem PUCTSearch.run_worse : lenient.Constructed runtime digests ∧ ∃ result longer,
    lenient.run runtime digests 1 = .ok result ∧ lenient.run runtime digests 4 = .ok longer ∧
    ¬result.score.reward ≤ longer.score.reward := by
  refine ⟨lenient_constructed, ?_⟩
  have compared : ((lenient.run runtime digests 1).toOption.any fun result =>
      (lenient.run runtime digests 4).toOption.any fun longer =>
        !decide (result.score.reward ≤ longer.score.reward)) = true := by decide +kernel
  cases ran : lenient.run runtime digests 1 with
  | error error => simp [ran, Except.toOption] at compared
  | ok result =>
      cases again : lenient.run runtime digests 4 with
      | error error => simp [ran, again, Except.toOption] at compared
      | ok longer =>
          simp only [ran, again, Except.toOption, Option.any_some, Bool.not_eq_true', decide_eq_false_iff_not] at compared
          exact ⟨result, longer, rfl, rfl, compared⟩

end AgentTree.Engine
