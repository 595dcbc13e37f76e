import AgentTree.StoreCore
import AgentTree.Transactions

/-!
The promotion registry and its audit trail: `register_policy_artifact` and
`promote_policy` called in any order, in any nesting of transactions.
-/

namespace AgentTree

open Outcome Relational Transactional

/-- The audit rows of one policy in the order in which they were inserted. -/
def Db.lineage (db : Db) (tenantId policyName : String) : List Promotion :=
  db.audit.rows.filter fun row => row.tenantId = tenantId && row.policyName = policyName

/-- `next` replaced the champion that `row` had installed. -/
def Promotion.precedes (row next : Promotion) : Prop :=
  next.previousArtifactId = some row.artifactId ∧ next.artifactId ≠ row.artifactId

/-- The registry and the audit rows of one policy tell the same story. -/
structure Lineage (db : Db) (tenantId policyName : String) : Prop where
  generations : (db.lineage tenantId policyName).map Promotion.generation =
    List.range' 1 (db.lineage tenantId policyName).length
  champion : (db.champions.find? (tenantId, policyName)).map
      (fun row => (row.artifactId, row.generation)) =
    (db.lineage tenantId policyName).getLast?.map fun row => (row.artifactId, row.generation)
  first : ∀ row, (db.lineage tenantId policyName).head? = some row → row.previousArtifactId = none
  linked : (db.lineage tenantId policyName).IsChain Promotion.precedes
  registered : ∀ row ∈ db.lineage tenantId policyName,
    ∃ artifact, db.artifacts.find? (tenantId, row.artifactId) = some artifact ∧
      artifact.policyName = policyName

def Db.chained (db : Db) : Prop := ∀ tenantId policyName, Lineage db tenantId policyName

/-- Artifacts and audit rows are only ever added. -/
structure Immutable (before after : Db) : Prop where
  artifacts : before.artifacts.Evolves Eq after.artifacts
  audit : before.audit.Evolves Eq after.audit

theorem Immutable.refl (db : Db) : Immutable db db :=
  ⟨.refl (fun _ => rfl) _, .refl (fun _ => rfl) _⟩

theorem Immutable.trans {first second third : Db} (one : Immutable first second)
    (two : Immutable second third) : Immutable first third :=
  ⟨.trans Eq.trans one.artifacts two.artifacts, .trans Eq.trans one.audit two.audit⟩

theorem chained_empty : Db.empty.chained :=
  fun _ _ => ⟨rfl, rfl, by simp [Db.lineage, Db.empty, Table.empty], .nil,
    by simp [Db.lineage, Db.empty, Table.empty]⟩

/-! What the two calls can do. -/

theorem registerPolicyArtifact_cases {now : Int} {tenantId artifactId policyName version contentSha256
    artifactUri : String} {metadata : Option Json} {db after : Db} {stored : ArtifactRow}
    (ran : registerPolicyArtifact now tenantId artifactId policyName version contentSha256 artifactUri
      metadata db = .ok (stored, after)) :
    (after = db ∧ db.artifacts.find? (tenantId, artifactId) = some stored) ∨
      ∃ artifacts, db.artifacts.insert stored = some artifacts ∧ after = { db with artifacts } ∧
        stored.key = (tenantId, artifactId) := by
  simp only [registerPolicyArtifact, bind_eq_ok] at ran
  obtain ⟨_, _, _, _, json, _, ran⟩ := ran
  split at ran
  next existing found =>
    simp only [bind_eq_ok, pure_eq_ok, Prod.mk.injEq] at ran
    obtain ⟨_, _, rfl, rfl⟩ := ran
    exact .inl ⟨rfl, found⟩
  next absent =>
    simp only [bind_eq_ok, pure_eq_ok, orRaise_eq_ok, Prod.mk.injEq] at ran
    obtain ⟨_, _, artifacts, inserted, rfl, rfl⟩ := ran
    exact .inr ⟨artifacts, inserted, rfl, rfl⟩

/-- Either the candidate is the champion already, or it becomes the next generation. -/
theorem promotePolicy_cases {now : Int} {uuid tenantId policyName artifactId : String}
    {expected : Option String} {decidedBy reason : String} {benchmarkReceiptId auditId : Option String}
    {db after : Db} {promotion : Promotion}
    (ran : promotePolicy now uuid tenantId policyName artifactId expected decidedBy reason
      benchmarkReceiptId auditId db = .ok (promotion, after)) :
    (∃ artifact, db.artifacts.find? (tenantId, artifactId) = some artifact ∧
      artifact.policyName = policyName) ∧
    expected = (db.champions.find? (tenantId, policyName)).map ChampionRow.artifactId ∧
    ((after = db ∧ expected = some artifactId ∧ ∃ row,
        db.champions.find? (tenantId, policyName) = some row ∧
        db.promotionAt tenantId policyName row.generation = some promotion) ∨
      (expected ≠ some artifactId ∧
        promotion.tenantId = tenantId ∧ promotion.policyName = policyName ∧
        promotion.artifactId = artifactId ∧ promotion.previousArtifactId = expected ∧
        promotion.decidedBy = decidedBy ∧ promotion.benchmarkReceiptId = benchmarkReceiptId ∧
        promotion.generation = (match db.champions.find? (tenantId, policyName) with
          | none => 1
          | some row => row.generation + 1) ∧
        ∃ champions audit, db.audit.insert promotion = some audit ∧
          after = { db with champions, audit } ∧
          champions.find? (tenantId, policyName) = some {
            tenantId, policyName, artifactId
            generation := promotion.generation
            promotedAt := now } ∧
          ∀ k, k ≠ (tenantId, policyName) → champions.find? k = db.champions.find? k)) := by
  simp only [promotePolicy, bind_eq_ok, orRaise_eq_ok, ensure_eq_ok, decide_eq_true_eq] at ran
  obtain ⟨_, _, artifact, found, _, owned, _, matched, ran⟩ := ran
  refine ⟨⟨artifact, found, owned⟩, matched, ?_⟩
  split at ran
  next same =>
    simp only [bind_eq_ok, pure_eq_ok, orRaise_eq_ok, Prod.mk.injEq] at ran
    obtain ⟨audit, present, rfl, rfl⟩ := ran
    obtain ⟨row, champion, rfl⟩ := Option.map_eq_some_iff.mp same
    rw [champion] at present
    exact .inl ⟨rfl, matched.trans same, row, champion, present⟩
  next other =>
    simp only [bind_eq_ok, pure_eq_ok, orRaise_eq_ok, Prod.mk.injEq] at ran
    obtain ⟨_, _, audits, inserted, rfl, rfl⟩ := ran
    refine .inr ⟨matched ▸ other, rfl, rfl, rfl, matched.symm, rfl, rfl, rfl, _, _, inserted, rfl,
      ?_, ?_⟩
    · rw [Table.find?_upsert, if_pos rfl]
      cases current : db.champions.find? (tenantId, policyName) with
      | none => rfl
      | some row =>
          obtain ⟨rfl, rfl⟩ := Prod.mk.inj (Table.find?_eq_some.mp current).2
          rfl
    · exact fun k apart => by rw [Table.find?_upsert, if_neg apart]

/-! The chain of one policy. -/

theorem promotionAt_eq (db : Db) (tenantId policyName : String) (generation : Nat) :
    db.promotionAt tenantId policyName generation =
      (db.lineage tenantId policyName).find? fun row => row.generation = generation := by
  simp only [Db.promotionAt, Db.lineage, List.find?_filter]
  congr 1
  funext row
  simp [Bool.and_assoc]

namespace Lineage

variable {db : Db} {tenantId policyName : String}

theorem last_generation (chain : Lineage db tenantId policyName) {row : Promotion}
    (last : (db.lineage tenantId policyName).getLast? = some row) :
    row.generation = (db.lineage tenantId policyName).length := by
  have ends := congrArg List.getLast? chain.generations
  rw [List.getLast?_map, last, List.getLast?_range'] at ends
  split at ends
  next => simp at ends
  next =>
    simp only [Option.map_some, Option.some.injEq] at ends
    omega

/-- The champion is the last audit row, and its generation counts the rows. -/
theorem champion_last (chain : Lineage db tenantId policyName) {champion : ChampionRow}
    (found : db.champions.find? (tenantId, policyName) = some champion) :
    ∃ row, (db.lineage tenantId policyName).getLast? = some row ∧
      row.artifactId = champion.artifactId ∧ row.generation = champion.generation := by
  have same := chain.champion
  rw [found, Option.map_some] at same
  obtain ⟨row, last, equal⟩ := Option.map_eq_some_iff.mp same.symm
  exact ⟨row, last, (Prod.mk.inj equal).1, (Prod.mk.inj equal).2⟩

theorem unpromoted (chain : Lineage db tenantId policyName)
    (absent : db.champions.find? (tenantId, policyName) = none) :
    db.lineage tenantId policyName = [] := by
  have same := chain.champion
  rw [absent, Option.map_none] at same
  simpa using same.symm

theorem next_generation (chain : Lineage db tenantId policyName) :
    (match db.champions.find? (tenantId, policyName) with
      | none => 1
      | some row => row.generation + 1) = (db.lineage tenantId policyName).length + 1 := by
  cases found : db.champions.find? (tenantId, policyName) with
  | none => simp [chain.unpromoted found]
  | some champion =>
      obtain ⟨row, last, _, same⟩ := chain.champion_last found
      simp only
      rw [← same, chain.last_generation last]

/-- The audit row of the champion's generation is there. -/
theorem audited (chain : Lineage db tenantId policyName) {champion : ChampionRow}
    (found : db.champions.find? (tenantId, policyName) = some champion) :
    ∃ row, db.promotionAt tenantId policyName champion.generation = some row := by
  obtain ⟨row, last, _, same⟩ := chain.champion_last found
  rw [promotionAt_eq, ← Option.isSome_iff_exists, List.find?_isSome]
  exact ⟨row, List.mem_of_getLast? last, by simpa using same⟩

/-- A generation names one audit row. -/
theorem generation_unique (chain : Lineage db tenantId policyName) {row other : Promotion}
    (member : row ∈ db.lineage tenantId policyName) (present : other ∈ db.lineage tenantId policyName)
    (same : row.generation = other.generation) : row = other := by
  refine List.inj_on_of_nodup_map ?_ member present same
  rw [chain.generations]
  exact List.nodup_range'

/-- One more promotion on top of the champion it expects. -/
theorem extend (chain : Lineage db tenantId policyName) {after : Db} {promotion : Promotion}
    (rows : after.lineage tenantId policyName = db.lineage tenantId policyName ++ [promotion])
    (artifacts : after.artifacts = db.artifacts)
    (installed : (after.champions.find? (tenantId, policyName)).map
      (fun row => (row.artifactId, row.generation)) = some (promotion.artifactId, promotion.generation))
    (generation : promotion.generation = (db.lineage tenantId policyName).length + 1)
    (previous : promotion.previousArtifactId =
      (db.champions.find? (tenantId, policyName)).map ChampionRow.artifactId)
    (changed : promotion.previousArtifactId ≠ some promotion.artifactId)
    (known : ∃ artifact, db.artifacts.find? (tenantId, promotion.artifactId) = some artifact ∧
      artifact.policyName = policyName) : Lineage after tenantId policyName := by
  constructor
  · rw [rows, List.map_append, chain.generations, List.length_append, List.length_singleton,
      List.range'_concat, List.map_singleton, generation]
    simp [Nat.add_comm]
  · rw [rows, installed, List.getLast?_concat]
    rfl
  · intro row head
    cases found : db.champions.find? (tenantId, policyName) with
    | none =>
        rw [rows, chain.unpromoted found] at head
        obtain rfl : promotion = row := by simpa using head
        rw [previous, found]
        rfl
    | some champion =>
        obtain ⟨last, ends, _⟩ := chain.champion_last found
        apply chain.first row
        rw [rows] at head
        cases listed : db.lineage tenantId policyName with
        | nil => simp [listed] at ends
        | cons first rest => simpa [listed] using head
  · rw [rows, List.isChain_append]
    refine ⟨chain.linked, .singleton _, ?_⟩
    intro last ends next begins
    obtain rfl : promotion = next := by simpa using begins
    have same := chain.champion
    rw [Option.mem_def.mp ends] at same
    obtain ⟨champion, found, equal⟩ := Option.map_eq_some_iff.mp same
    rw [found] at previous
    have installedBefore : promotion.previousArtifactId = some last.artifactId :=
      previous.trans (congrArg some (Prod.mk.inj equal).1)
    exact ⟨installedBefore, fun equal => changed (installedBefore.trans (congrArg some equal.symm))⟩
  · intro row member
    rw [rows, List.mem_append, List.mem_singleton] at member
    rw [artifacts]
    rcases member with old | rfl
    · exact chain.registered row old
    · exact known

/-- What another policy's promotion or a registration leaves alone. -/
theorem frame (chain : Lineage db tenantId policyName) {after : Db}
    (rows : after.lineage tenantId policyName = db.lineage tenantId policyName)
    (champion : after.champions.find? (tenantId, policyName) =
      db.champions.find? (tenantId, policyName))
    (artifacts : db.artifacts.Evolves Eq after.artifacts) : Lineage after tenantId policyName := by
  refine ⟨rows ▸ chain.generations, by rw [rows, champion, chain.champion], rows ▸ chain.first,
    rows ▸ chain.linked, ?_⟩
  intro row member
  rw [rows] at member
  obtain ⟨artifact, found, owned⟩ := chain.registered row member
  obtain ⟨_, later, rfl⟩ := artifacts _ artifact found
  exact ⟨artifact, later, owned⟩

end Lineage

theorem registerPolicyArtifact_kept {now : Int} {tenantId artifactId policyName version contentSha256
    artifactUri : String} {metadata : Option Json} {db after : Db} {stored : ArtifactRow}
    (chained : db.chained)
    (ran : registerPolicyArtifact now tenantId artifactId policyName version contentSha256 artifactUri
      metadata db = .ok (stored, after)) : after.chained ∧ Immutable db after := by
  rcases registerPolicyArtifact_cases ran with ⟨rfl, _⟩ | ⟨artifacts, inserted, rfl, _⟩
  · exact ⟨chained, .refl _⟩
  · have grown := Table.evolves_insert (fun _ => rfl) inserted
    exact ⟨fun tenant policy => (chained tenant policy).frame rfl rfl grown,
      grown, (Immutable.refl db).audit⟩

theorem promotePolicy_kept {now : Int} {uuid tenantId policyName artifactId : String}
    {expected : Option String} {decidedBy reason : String} {benchmarkReceiptId auditId : Option String}
    {db after : Db} {promotion : Promotion} (chained : db.chained)
    (ran : promotePolicy now uuid tenantId policyName artifactId expected decidedBy reason
      benchmarkReceiptId auditId db = .ok (promotion, after)) : after.chained ∧ Immutable db after := by
  obtain ⟨known, matched, ⟨rfl, _⟩ | ⟨other, tenant, policy, artifact, previous, _, _, generation,
    champions, audit, inserted, rfl, installed, apart⟩⟩ := promotePolicy_cases ran
  · exact ⟨chained, .refl _⟩
  · subst tenant policy artifact
    have rows := (Table.insert_eq_some.mp inserted).2
    refine ⟨?_, (Immutable.refl db).artifacts, Table.evolves_insert (fun _ => rfl) inserted⟩
    intro tenant policy
    by_cases same : (tenant, policy) = (promotion.tenantId, promotion.policyName)
    · obtain ⟨rfl, rfl⟩ := Prod.mk.inj same
      have chain := chained promotion.tenantId promotion.policyName
      refine chain.extend ?_ rfl ?_ (generation.trans chain.next_generation)
        (previous.trans matched) (previous ▸ other) known
      · simp [Db.lineage, rows]
      · simp [installed]
    · refine (chained tenant policy).frame ?_ (apart _ same) (Immutable.refl db).artifacts
      have distinct : ¬(promotion.tenantId = tenant ∧ promotion.policyName = policy) :=
        fun equal => same (by rw [equal.1, equal.2])
      have dropped : [promotion].filter (fun row => row.tenantId = tenant && row.policyName = policy) = [] := by
        simpa using distinct
      rw [Db.lineage, rows, List.filter_append, dropped, List.append_nil, Db.lineage]

/-- `promote_policy` does not come to look for an audit row that is not there. -/
theorem promotePolicy_never_unaudited {now : Int} {uuid tenantId policyName artifactId : String}
    {expected : Option String} {decidedBy reason : String} {benchmarkReceiptId auditId : Option String}
    {db : Db} (chained : db.chained) :
    promotePolicy now uuid tenantId policyName artifactId expected decidedBy reason benchmarkReceiptId
      auditId db ≠ .error (.other "TypeError" "'NoneType' object is not iterable") := by
  simp only [promotePolicy, ne_eq, bind_eq_error, orRaise_eq_error, ensure_eq_error]
  rintro (missing | ⟨_, _, ⟨_, missing⟩ | ⟨_, _, ⟨_, missing⟩ | ⟨_, _, ⟨_, missing⟩ | ⟨_, _, raised⟩⟩⟩⟩)
  · obtain ⟨message, equal⟩ := required_eq_error missing
    simp at equal
  · simp at missing
  · simp at missing
  · simp at missing
  · split at raised
    next same =>
      obtain ⟨row, found, _⟩ := Option.map_eq_some_iff.mp same
      obtain ⟨audit, present⟩ := (chained tenantId policyName).audited found
      simp only [bind_eq_error, orRaise_eq_error, found, Option.map_some, Option.getD_some, present] at raised
      simp at raised
    next =>
      simp only [bind_eq_error, ensure_eq_error, orRaise_eq_error] at raised
      simp at raised

/-! Runs of calls. -/

inductive RegistryCall : Type
  | registerPolicyArtifact (now : Int) (tenantId artifactId policyName version contentSha256
      artifactUri : String) (metadata : Option Json)
  | promotePolicy (now : Int) (uuid tenantId policyName artifactId : String)
      (expectedCurrentArtifactId : Option String) (decidedBy reason : String)
      (benchmarkReceiptId auditId : Option String)

def RegistryCall.run : RegistryCall → Db → Except PyError (ArtifactRow ⊕ Promotion) × Db
  | registerPolicyArtifact now tenantId artifactId policyName version contentSha256 artifactUri metadata =>
      -- `get_policy_artifact` is a read of its own, after the transaction.
      transact (AgentTree.registerPolicyArtifact now tenantId artifactId policyName version contentSha256
        artifactUri metadata) fun _ after => (getPolicyArtifact tenantId artifactId after).map .inl
  | promotePolicy now uuid tenantId policyName artifactId expectedCurrentArtifactId decidedBy reason
      benchmarkReceiptId auditId =>
      transact (AgentTree.promotePolicy now uuid tenantId policyName artifactId
        expectedCurrentArtifactId decidedBy reason benchmarkReceiptId auditId) fun promotion _ =>
          .ok (.inr promotion)

def runRegistry (commands : List (Command RegistryCall)) : Session Db :=
  (Session.start Db.empty).play (fun call db => (call.run db).2) commands

theorem RegistryCall.run_kept (call : RegistryCall) (db : Db) (chained : db.chained) :
    (call.run db).2.chained ∧ Immutable db (call.run db).2 := by
  let P := fun after => Db.chained after ∧ Immutable db after
  have still : P db := ⟨chained, .refl db⟩
  cases call with
  | registerPolicyArtifact =>
      exact transact_kept P still fun _ _ ran => registerPolicyArtifact_kept chained ran
  | promotePolicy => exact transact_kept P still fun _ _ ran => promotePolicy_kept chained ran

theorem RegistryCall.run_raises {call : RegistryCall} {db : Db} {error : PyError}
    (raised : (call.run db).1 = .error error) : (call.run db).2 = db := by
  cases call with
  | registerPolicyArtifact =>
      refine transact_raises (fun stored after ran => ?_) raised
      rcases registerPolicyArtifact_cases ran with ⟨rfl, found⟩ | ⟨artifacts, inserted, rfl, keyed⟩
      · exact ⟨.inl stored, by simp [getPolicyArtifact, orRaise, found, Except.map]⟩
      · have found := Table.find?_insert inserted stored.key
        rw [if_pos rfl, keyed] at found
        exact ⟨.inl stored, by simp [getPolicyArtifact, orRaise, found, Except.map]⟩
  | promotePolicy => exact transact_raises (fun _ _ _ => ⟨_, rfl⟩) raised

theorem runRegistry_sound (commands : List (Command RegistryCall)) :
    (runRegistry commands).Sound Db.chained Immutable :=
  (Session.Sound.play Immutable.refl Immutable.trans RegistryCall.run_kept
    (Session.Sound.start chained_empty) commands).1

/-- In every state that a run commits, nested and rolled back blocks included, the
audit rows of each policy are the generations 1 to n, each naming its predecessor,
and the champion is the last of them; what is committed stays. -/
theorem registry_chained (commands : List (Command RegistryCall)) :
    (∀ tenantId policyName, Lineage (runRegistry commands).committed tenantId policyName) ∧
    (∀ later, Immutable (runRegistry commands).committed (runRegistry (commands ++ later)).committed) ∧
    (∀ (call : RegistryCall) error, (call.run (runRegistry commands).current).1 = .error error →
      (call.run (runRegistry commands).current).2 = (runRegistry commands).current) ∧
    ∀ now uuid tenantId policyName artifactId expected decidedBy reason benchmarkReceiptId auditId,
      promotePolicy now uuid tenantId policyName artifactId expected decidedBy reason
          benchmarkReceiptId auditId (runRegistry commands).current ≠
        .error (.other "TypeError" "'NoneType' object is not iterable") := by
  have sound := runRegistry_sound commands
  refine ⟨sound.committed, ?_, fun _ _ => RegistryCall.run_raises, ?_⟩
  · intro later
    rw [runRegistry, runRegistry, Session.play, Session.play, List.foldl_append]
    exact (Session.Sound.play Immutable.refl Immutable.trans RegistryCall.run_kept sound later).2
  · intros
    exact promotePolicy_never_unaudited sound.current

end AgentTree
