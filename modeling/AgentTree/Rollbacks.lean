import AgentTree.CommitRuns

/-!
Rollbacks.  The target is read before the transaction, which compares the artifact
of the champion and not its generation.
-/

namespace AgentTree

open Outcome Relational Concurrent ControlPlane

/-- The rollback installed what the audit row of the generation it replaced names as its predecessor. -/
def RollbackCommit.Restores (c : RollbackCommit) : Prop :=
  ∃ champion row installed, c.before.champions.find? (c.tenantId, c.family) = some champion ∧
    c.before.promotionAt c.tenantId c.family champion.generation = some row ∧
    c.after.champions.find? (c.tenantId, c.family) = some installed ∧
    row.previousArtifactId = some installed.artifactId

instance (c : RollbackCommit) : Decidable c.Restores :=
  decidable_of_iff
    (((c.before.champions.find? (c.tenantId, c.family)).bind fun champion =>
      (c.before.promotionAt c.tenantId c.family champion.generation).bind fun row =>
        (c.after.champions.find? (c.tenantId, c.family)).filter fun installed =>
          row.previousArtifactId = some installed.artifactId).isSome = true) <| by
    simp only [RollbackCommit.Restores, Option.isSome_iff_exists, Option.bind_eq_some_iff,
      Option.filter_eq_some_iff, decide_eq_true_eq]
    exact ⟨fun ⟨installed, champion, first, row, second, third, last⟩ =>
        ⟨champion, row, installed, first, second, third, last⟩,
      fun ⟨champion, row, installed, first, second, third, last⟩ =>
        ⟨installed, champion, first, row, second, third, last⟩⟩

/-- The champion is still of the generation that the rollback has read. -/
def RollbackCommit.Current (c : RollbackCommit) : Prop :=
  (c.before.champions.find? (c.tenantId, c.family)).map ChampionRow.generation = some c.generation

instance (c : RollbackCommit) : Decidable c.Current := decEq _ _

/-- An audit row stays the one of its generation. -/
theorem Retains.promotionAt {before after : Db} (retains : Retains before after)
    (chained : before.chained) {tenantId policyName : String} {generation : Nat} {row : Promotion}
    (found : before.promotionAt tenantId policyName generation = some row) :
    after.promotionAt tenantId policyName generation = some row := by
  have conditions := List.find?_some found
  obtain ⟨_, present, rfl⟩ := retains.audit row.key row
    (Table.find?_eq_some.mpr ⟨List.mem_of_find?_eq_some found, rfl⟩)
  have member := (Table.find?_eq_some.mp present).1
  simp only [Bool.and_eq_true, decide_eq_true_eq] at conditions
  obtain ⟨⟨tenant, policy⟩, same⟩ := conditions
  have listed : row ∈ after.lineage tenantId policyName := by
    simp [Db.lineage, member, tenant, policy]
  cases last : after.promotionAt tenantId policyName generation with
  | none =>
      rw [promotionAt_eq, List.find?_eq_none] at last
      exact absurd (decide_eq_true same) (last row listed)
  | some other =>
      rw [promotionAt_eq] at last
      have equal : other.generation = generation := by simpa using List.find?_some last
      rw [(retains.chained chained tenantId policyName).generation_unique
        (List.mem_of_find?_eq_some last) listed (equal.trans same.symm)]

/-- What a rollback leaves behind as the champion. -/
theorem rollbackTransaction_installs {Model : Type} {plane : ControlPlane Model} {draws : Draws}
    {principal : Principal} {family reason previous : String} {current : ChampionRow} {now : Int}
    {db later : Db} {response : Json} {commit : Commit}
    (ran : plane.rollbackTransaction draws principal family reason previous current now db =
      .ok (response, commit, later)) :
    ∃ after installed, commit = .rolledBack {
        before := db
        after, family
        tenantId := principal.tenantId
        generation := current.generation } ∧
      after.champions.find? (principal.tenantId, family) = some installed ∧
      installed.artifactId = previous := by
  simp only [rollbackTransaction, bind_eq_ok, pure_eq_ok, Prod.exists, Prod.mk.injEq] at ran
  obtain ⟨promotion, middle, promoted, _, _, appended, _, rfl, rfl⟩ := ran
  obtain ⟨events, _, rfl, _⟩ := appendEvent_cases appended
  obtain ⟨_, matched, ⟨rfl, same, row, found, _⟩ |
    ⟨_, _, _, _, _, _, _, _, champions, audit, _, rfl, found, _⟩⟩ := promotePolicy_cases promoted
  · refine ⟨_, row, rfl, found, ?_⟩
    rw [found, same] at matched
    exact (Option.some.inj matched).symm
  · exact ⟨_, _, rfl, found, rfl⟩

section Rollback

variable {Model : Type} {plane : ControlPlane Model}

/-- What a rollback keeps: it restores the predecessor unless the generation has moved on. -/
def Commit.restores : Commit → Prop
  | .rolledBack c => c.Current → c.Restores
  | _ => True

theorem rollbackOperation_keeps {index : Nat} {call : Call} {s : World} (named : call.scope = "rollback")
    (inv : CommitInv Commit.restores s) (request : Json) (family : String) :
    Keeps Commit.restores
      (plane.rollbackOperation index call.key call.draws call.principal request family) s := by
  refine yields_ofExcept fun reason _ => ?_
  refine yields_read inv fun champion t u _ readChampion invU _ => ?_
  refine yields_ofExcept fun current isChampion => ?_
  refine yields_read invU fun audit v w sinceRead readAudit invW sinceAudit => ?_
  refine yields_ofExcept fun promotion isAudited => ?_
  refine yields_ofExcept fun previous isPrevious => ?_
  refine keeps_commit_then invW (.rollback named ..) (fun _ => Prog.Only.bind Prog.only_mayRaise
    fun _ => only_pure _) fun x response commit db since invX ran => ?_
  obtain ⟨after, installed, rfl, found, rfl⟩ := rollbackTransaction_installs ran
  intro still
  obtain ⟨now, champion, same⟩ := Option.map_eq_some_iff.mp still
  -- The audit row that was read is the one of the generation that is replaced.
  simp only [getPromotionAtGeneration, bind_eq_ok, pure_eq_ok] at readAudit
  obtain ⟨_, _, _, _, rfl⟩ := readAudit
  obtain ⟨audited, _⟩ := Option.filter_eq_some_iff.mp (orRaise_eq_ok.mp isAudited)
  have there := (sinceAudit.trans since).promotionAt (sinceRead.chained invU.chained) audited
  refine ⟨now, promotion, installed, champion, ?_, found, orRaise_eq_ok.mp isPrevious⟩
  rw [same]
  exact there

theorem operation_restores (index : Nat) (call : Call) (s : World) (inv : CommitInv Commit.restores s) :
    Keeps Commit.restores (plane.operation index call) s := by
  cases request : call.request with
  | rollback family body =>
      simp only [operation, request]
      exact rollbackOperation_keeps (by simp [Call.scope, request]) inv body family
  | _ =>
      refine operation_keeps inv fun commit scope => ?_
      cases commit with
      | rolledBack c => simp [Commit.scope, Call.scope, request] at scope
      | _ => trivial

end Rollback

/-- In every run, a rollback that commits while the champion is of the generation it has
read restores the predecessor of that generation. -/
theorem rollback_restores {Model : Type} (plane : ControlPlane Model) (calls : Nat → Call) {start : World}
    {config : Config Nat World PyError Json} {c : RollbackCommit} (chained : start.db.chained)
    (unused : start.notes = [])
    (run : (plane.service calls World.Around).Reachable (.start start) config)
    (committed : .rolledBack c ∈ config.state.commits) (current : c.Current) : c.Restores :=
  commits_good calls Commit.restores chained unused (fun i s => operation_restores i (calls i) s) run _
    committed current

/-- A rollback that reads the second artifact, stops while the third one is promoted and
rolled back, and then installs the first. -/
def Sample.rollbacks : Nat → Call := fun call =>
  if call = 1 then promotion 1 "promoter" [1] else rollback call

def World.rollbacks (w : World) : List RollbackCommit :=
  w.commits.filterMap fun commit => match commit with
    | .rolledBack c => some c
    | _ => none

theorem World.mem_rollbacks {w : World} {c : RollbackCommit} :
    c ∈ w.rollbacks ↔ .rolledBack c ∈ w.commits := by
  simp only [World.rollbacks, List.mem_filterMap]
  constructor
  · rintro ⟨commit, member, same⟩
    cases commit with
    | rolledBack other =>
        obtain rfl := Option.some.inj same
        exact member
    | _ => simp at same
  · exact fun member => ⟨_, member, rfl⟩

theorem rollback_restores_second : ∃ (config : Config Nat World PyError Json) (c : RollbackCommit),
    .rolledBack c ∈ config.state.commits ∧ c.Current ∧ c.Restores := by
  obtain ⟨config, run, checked⟩ := (Sample.plane.service Sample.rollbacks World.Around).play_exists
    (.spawn 0 :: List.replicate 10 (.act 0)) (.start Sample.ready)
    (fun config => config.state.rollbacks.any fun c => c.Current) (by simp) (by decide +kernel)
  obtain ⟨c, member, current⟩ := List.any_eq_true.mp checked
  have committed := World.mem_rollbacks.mp member
  exact ⟨config, c, committed, of_decide_eq_true current, rollback_restores Sample.plane Sample.rollbacks
    Sample.ready_chained Sample.ready_notes run committed (of_decide_eq_true current)⟩

theorem rollback_not_always_restores : ∃ (config : Config Nat World PyError Json) (c : RollbackCommit),
    (Sample.plane.service Sample.rollbacks World.Around).Reachable (.start Sample.ready) config ∧
      .rolledBack c ∈ config.state.commits ∧ ¬c.Restores := by
  obtain ⟨config, run, checked⟩ := (Sample.plane.service Sample.rollbacks World.Around).play_exists
    (.spawn 0 :: List.replicate 5 (.act 0) ++ .spawn 1 :: List.replicate 50 (.act 1) ++
      .spawn 2 :: List.replicate 10 (.act 2) ++ List.replicate 5 (.act 0)) (.start Sample.ready)
    (fun config => config.state.rollbacks.any fun c => !decide c.Restores) (by simp) (by decide +kernel)
  obtain ⟨c, member, wrong⟩ := List.any_eq_true.mp checked
  exact ⟨config, c, run, World.mem_rollbacks.mp member, by simpa using wrong⟩

end AgentTree
