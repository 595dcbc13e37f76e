import AgentTree.ArtifactFiles
import AgentTree.BudgetLedger
import AgentTree.CanonicalJson
import AgentTree.ControlRuns
import AgentTree.Leases
import AgentTree.PromotionChain

/-!
Registered artifacts survive a power loss as long as their files were on the medium
when they were registered.
-/

namespace AgentTree

open Outcome Relational Concurrent Durability

/-! Paths. -/

theorem location_injective {one two : ArtifactPath} (same : location one = location two) : one = two := by
  simp only [location, tenantDirectory, Path.child.injEq, true_and, String.append_left_inj] at same
  exact Prod.ext same.1 same.2

/-- A digest does not begin like a temporary name. -/
theorem digest_apart {digest suffix : String} (valid : isSha256 digest = true) :
    "artifact." ++ suffix ≠ digest ++ ".json" := by
  intro same
  simp only [isSha256, Bool.and_eq_true, decide_eq_true_eq, List.all_eq_true] at valid
  obtain ⟨length, digits⟩ := valid
  obtain ⟨first, second, rest, spelled⟩ : ∃ first second rest, utf8 digest = first :: second :: rest := by
    match utf8 digest, length with
    | first :: second :: rest, _ => exact ⟨first, second, rest, rfl⟩
  have bytes := congrArg utf8 same
  rw [Json.utf8_append, Json.utf8_append, spelled] at bytes
  have letters : utf8 "artifact." = [0x61, 0x72, 0x74, 0x69, 0x66, 0x61, 0x63, 0x74, 0x2e] := by decide
  simp only [letters, List.cons_append, List.cons.injEq] at bytes
  have digit := digits second (by simp [spelled])
  rw [← bytes.2.1] at digit
  simp at digit

namespace ControlPlane

variable {Model : Type} (plane : ControlPlane Model)

/-- The policy files: each has the digest that is its name, and holds an object. -/
def policyFiles : Publication Bytes where
  place p := ∃ path : ArtifactPath, isSha256 path.2 = true ∧ p = location path
  valid p encoded := ∃ path : ArtifactPath, p = location path ∧ plane.store.sha256 encoded = path.2 ∧
    ∃ members, plane.jsonLoads encoded = some (.obj members)

variable {plane}

theorem temporary_unplaced (path : ArtifactPath) (suffix : String) :
    ¬plane.policyFiles.place (.child (tenantDirectory path) ("artifact." ++ suffix)) := by
  rintro ⟨other, valid, same⟩
  simp only [location, Path.child.injEq] at same
  exact digest_apart valid same.2

theorem base_unplaced : ¬plane.policyFiles.place .base := by
  rintro ⟨_, _, same⟩
  simp [location] at same

theorem root_unplaced : ¬plane.policyFiles.place artifactRoot := by
  rintro ⟨_, _, same⟩
  simp [location, tenantDirectory, artifactRoot] at same

theorem directory_unplaced (path : ArtifactPath) : ¬plane.policyFiles.place (tenantDirectory path) := by
  rintro ⟨_, _, same⟩
  simp [location, tenantDirectory, artifactRoot] at same

variable (plane) in
/-- The policy file that a row stands for. -/
def FileOf (row : ArtifactRow) (path : ArtifactPath) : Prop :=
  plane.resolvePolicyArtifact row.tenantId row.contentSha256 row.artifactUri = .ok path

variable (plane) in
/-- What is published stays, and a new row has its file. -/
structure Advance (s t : Machine) : Prop where
  keeps : plane.policyFiles.Keeps s.disk t.disk
  rows : ∀ row ∈ t.db.artifacts.rows, row ∈ s.db.artifacts.rows ∨
    t.disk = s.disk ∧ ∃ path, plane.FileOf row path ∧ s.disk.entry (location path) ≠ none

variable (plane) in
/-- The holder of the write lock is the only one that writes files or rows. -/
def fileContract (call : Nat) : Contract Machine where
  inv m := plane.policyFiles.Sealed m.disk
  rely s t := s.writer = some call → t.writer = some call ∧ Disk.Writeback s.disk t.disk
  guar s t := t = s ∨ (s.writer = none ∨ s.writer = some call) ∧ plane.Advance s t
  rely_refl s own := ⟨own, .refl s.disk⟩
  rely_trans one two own := ⟨(two (one own).1).1, (one own).2.trans (two (one own).1).2⟩

/-! Programs of the holder of the lock. -/

def Stable (K : Disk Bytes → Prop) : Prop := ∀ before after, Disk.Writeback before after → K before → K after

variable (plane) in
/-- Run by the holder of the write lock, the program takes disks with `K` to values and disks with `Q`. -/
def Locked (call : Nat) (program : FileOp α) (K : Disk Bytes → Prop) (Q : α → Disk Bytes → Prop) : Prop :=
  ∀ m : Machine, plane.policyFiles.Sealed m.disk → m.writer = some call → K m.disk →
    program.wp (plane.fileContract call)
      (fun result t => t.writer = some call ∧ ∀ value, result = .ok value → Q value t.disk) m

variable {call : Nat} {K : Disk Bytes → Prop} {Q : α → Disk Bytes → Prop} {R : β → Disk Bytes → Prop}

theorem locked_systemCall {run : Disk Bytes → Except Refusal (α × Disk Bytes)} (stable : Stable K)
    (lasting : ∀ value, Stable (Q value))
    (step : ∀ disk value after, plane.policyFiles.Sealed disk → K disk → run disk = .ok (value, after) →
      plane.policyFiles.Keeps disk after ∧ Q value after) :
    plane.Locked call (systemCall run) K Q := by
  intro m complete own holds
  refine Prog.wp_exposed (fun error t _ relied => ⟨(relied own).1, by simp⟩) ?_
  refine Prog.wp_atomic (fun t value u inv relied ran => ?_) fun t error inv relied ran => ?_
  · obtain ⟨ours, written⟩ := relied own
    split at ran
    next value disk called =>
      cases ran
      obtain ⟨keeps, after⟩ := step t.disk _ disk inv (stable _ _ written holds) called
      refine ⟨keeps.complete, .inr ⟨.inr ours, keeps, fun row member => .inl member⟩, fun v _ later => ?_⟩
      refine ⟨(later ours).1, fun result same => ?_⟩
      cases same
      exact lasting _ _ _ (later ours).2 after
    next => simp at ran
  · have ours := (relied own).1
    exact ⟨.inl rfl, fun v _ later => ⟨(later ours).1, by simp⟩⟩

theorem locked_bind {program : FileOp α} {rest : α → FileOp β} (first : plane.Locked call program K Q)
    (later : ∀ value, plane.Locked call (rest value) (Q value) R) :
    plane.Locked call (program >>= rest) K R := by
  intro m complete own holds
  refine Prog.wp_bind complete (Prog.wp_mono ?_ (first m complete own holds))
  intro result t inv exit
  cases result with
  | ok value => exact later value t inv exit.1 (exit.2 value rfl)
  | error error => exact ⟨exit.1, by simp⟩

theorem locked_tryCatch {program : FileOp α} {handler : PyError → FileOp α}
    (body : plane.Locked call program K Q)
    (handles : ∀ error, plane.Locked call (handler error) (fun _ => True) Q) :
    plane.Locked call (program.tryCatch handler) K Q := by
  intro m complete own holds
  refine Prog.wp_tryCatch complete (Prog.wp_mono ?_ (body m complete own holds))
  intro result t inv exit
  cases result with
  | ok value => exact exit
  | error error => exact handles error t inv exit.1 trivial

theorem locked_done {result : Except PyError α} (stable : Stable K)
    (holds : ∀ value, result = .ok value → ∀ disk, K disk → Q value disk) :
    plane.Locked call (.done result) K Q := by
  intro m _ own here
  refine Prog.wp_done fun t _ relied => ⟨(relied own).1, fun value same => ?_⟩
  exact holds value same _ (stable _ _ (relied own).2 here)

theorem locked_throw (error : PyError) (stable : Stable K) :
    plane.Locked call (throw error : FileOp α) K Q := locked_done stable (by simp)

theorem locked_require (condition : Bool) (error : PyError) :
    plane.Locked call (.require condition error) (fun _ => True) (fun _ _ => True) := by
  cases condition
  · exact locked_done (fun _ _ _ => id) fun _ _ _ => id
  · exact locked_done (fun _ _ _ => id) fun _ _ _ => id

theorem stable_true : Stable fun _ => True := fun _ _ _ => id

theorem stable_entry (property : (Path → Option Entry) → Prop) : Stable fun disk => property disk.entry :=
  fun before after written holds => by
    change property after.entry
    rwa [written.entry]

/-! The files. -/

theorem locked_osMkdir {path : Path} (apart : ¬plane.policyFiles.place path) :
    plane.Locked call (osMkdir path) (fun _ => True) (fun _ _ => True) := by
  refine locked_systemCall stable_true (fun _ => stable_true) fun disk _ after complete _ made => ?_
  cases ran : disk.mkdir path with
  | error refusal => simp [ran, Except.map] at made
  | ok made' =>
      simp only [ran, Except.map, Except.ok.injEq, Prod.mk.injEq, true_and] at made
      exact ⟨made ▸ Publication.keeps_mkdir complete apart ran, trivial⟩

theorem locked_isDirectory (path : Path) :
    plane.Locked call (isDirectory path) (fun _ => True) (fun _ _ => True) := by
  refine locked_systemCall stable_true (fun _ => stable_true) fun disk _ after complete _ called => ?_
  cases called
  exact ⟨.refl complete, trivial⟩

theorem locked_mkdirExisting {path : Path} (apart : ¬plane.policyFiles.place path) :
    plane.Locked call (mkdirExisting path) (fun _ => True) (fun _ _ => True) := by
  refine locked_tryCatch (locked_osMkdir apart) fun error => ?_
  split
  · exact locked_throw error stable_true
  · exact locked_bind (locked_isDirectory path) fun directory => locked_require directory error

theorem locked_mkdirParents {parent : Path} {name : String}
    (above : plane.Locked call (mkdirParents parent) (fun _ => True) (fun _ _ => True))
    (apart : ¬plane.policyFiles.place (.child parent name)) :
    plane.Locked call (mkdirParents (.child parent name)) (fun _ => True) (fun _ _ => True) := by
  refine locked_tryCatch (locked_osMkdir apart) fun error => ?_
  split
  · exact locked_bind above fun _ => locked_mkdirExisting apart
  · split
    · exact locked_throw error stable_true
    · exact locked_bind (locked_isDirectory _) fun directory => locked_require directory error

theorem locked_tenantDirectory (path : ArtifactPath) :
    plane.Locked call (mkdirParents (tenantDirectory path)) (fun _ => True) (fun _ _ => True) := by
  have base : plane.Locked call (mkdirParents .base) (fun _ => True) (fun _ _ => True) :=
    locked_mkdirExisting base_unplaced
  exact locked_mkdirParents (locked_mkdirParents base root_unplaced) (directory_unplaced path)

variable (plane) in
/-- A temporary file that nothing else can reach, with no file in its place yet. -/
structure Draft (path : ArtifactPath) (temporary : Path) (inode : Nat) (disk : Disk Bytes) : Prop where
  found : disk.entry temporary = some (.file inode)
  free : disk.entry (location path) = none
  below : inode < disk.inodes
  hidden : plane.policyFiles.Unpublished disk inode

variable {path : ArtifactPath} {temporary : Path} {inode : Nat} {encoded : Bytes}

theorem Draft.writeback {before after : Disk Bytes} (written : Disk.Writeback before after)
    (draft : plane.Draft path temporary inode before) : plane.Draft path temporary inode after := by
  refine ⟨written.entry ▸ draft.found, written.entry ▸ draft.free, written.inodes ▸ draft.below, ?_⟩
  intro other place listed
  refine draft.hidden other place ?_
  rw [Disk.versions, written.entry] at listed
  rcases List.mem_cons.mp listed with head | tail
  · exact List.mem_cons.mpr (.inl head)
  · exact List.mem_cons_of_mem _ (written.older other tail)

theorem stable_written : Stable fun disk =>
    plane.Draft path temporary inode disk ∧ disk.content inode = encoded :=
  fun _ _ written ⟨draft, holds⟩ => ⟨draft.writeback written, by rw [written.content, holds]⟩

theorem stable_synced : Stable fun disk => plane.Draft path temporary inode disk ∧
    disk.content inode = encoded ∧ disk.synced inode = true :=
  fun _ _ written ⟨draft, holds, synced⟩ =>
    ⟨draft.writeback written, by rw [written.content, holds], written.synced inode synced⟩

theorem locked_pathExists (path : ArtifactPath) :
    plane.Locked call (pathExists (location path)) (fun _ => True) fun there disk =>
      (disk.entry (location path)).isSome = there := by
  refine locked_systemCall stable_true
    (fun there => stable_entry fun entry => (entry (location path)).isSome = there)
    fun disk _ after complete _ called => ?_
  cases called
  exact ⟨.refl complete, rfl⟩

theorem locked_create (apart : ¬plane.policyFiles.place temporary) (distinct : location path ≠ temporary) :
    plane.Locked call (systemCall (·.create [] temporary))
      (fun disk => (disk.entry (location path)).isSome = false)
      fun inode disk => plane.Draft path temporary inode disk := by
  refine locked_systemCall (stable_entry fun entry => (entry (location path)).isSome = false)
    (fun _ _ _ => Draft.writeback) fun disk inode after complete free made => ?_
  obtain ⟨keeps, hidden, found, others, below⟩ := Publication.keeps_create complete apart made
  refine ⟨keeps, found, ?_, below, hidden⟩
  rw [others _ distinct]
  simpa using free

theorem locked_write : plane.Locked call (systemCall fun disk => .ok ((), disk.write inode encoded))
    (plane.Draft path temporary inode)
    fun _ disk => plane.Draft path temporary inode disk ∧ disk.content inode = encoded := by
  refine locked_systemCall (fun _ _ => Draft.writeback) (fun _ => stable_written)
    fun disk _ after complete draft called => ?_
  cases called
  exact ⟨Publication.keeps_write complete draft.hidden,
    ⟨draft.found, draft.free, draft.below, draft.hidden⟩, by simp [Disk.write]⟩

theorem locked_fsync : plane.Locked call (systemCall fun disk => .ok ((), disk.fsync inode))
    (fun disk => plane.Draft path temporary inode disk ∧ disk.content inode = encoded)
    fun _ disk => plane.Draft path temporary inode disk ∧ disk.content inode = encoded ∧
      disk.synced inode = true := by
  refine locked_systemCall stable_written (fun _ => stable_synced) fun disk _ after complete written called => ?_
  cases called
  obtain ⟨draft, holds⟩ := written
  exact ⟨Publication.keeps_fsync complete, ⟨draft.found, draft.free, draft.below, draft.hidden⟩, holds,
    by simp [Disk.fsync]⟩

theorem locked_replace (apart : ¬plane.policyFiles.place temporary) (distinct : location path ≠ temporary)
    (valid : plane.policyFiles.valid (location path) encoded) :
    plane.Locked call (systemCall fun disk => (disk.replace temporary (location path)).map ((), ·))
      (fun disk => plane.Draft path temporary inode disk ∧ disk.content inode = encoded ∧
        disk.synced inode = true)
      fun _ disk => disk.entry (location path) ≠ none := by
  refine locked_systemCall stable_synced (fun _ => stable_entry fun entry => entry (location path) ≠ none)
    fun disk _ after complete ready called => ?_
  obtain ⟨draft, holds, synced⟩ := ready
  cases ran : disk.replace temporary (location path) with
  | error refusal => simp [ran, Except.map] at called
  | ok renamed =>
      simp only [ran, Except.map, Except.ok.injEq, Prod.mk.injEq, true_and] at called
      subst called
      obtain ⟨keeps, there⟩ := Publication.keeps_replace complete draft.found apart (Ne.symm distinct)
        draft.free ⟨inode, rfl, draft.below, synced, holds ▸ valid⟩ ran
      exact ⟨keeps, by simp [there]⟩

theorem locked_mayRaise (stable : Stable K) : plane.Locked call .mayRaise K fun _ => K := by
  intro m _ own holds
  refine Prog.wp_mayRaise fun result t _ relied => ?_
  exact ⟨(relied own).1, fun _ _ => stable _ _ (relied own).2 holds⟩

theorem locked_unlink (apart : ¬plane.policyFiles.place temporary) :
    plane.Locked call (unlink temporary) (fun _ => True) fun _ _ => True := by
  refine locked_systemCall stable_true (fun _ => stable_true) fun disk _ after complete _ called => ?_
  cases ran : disk.unlink temporary with
  | error refusal => simp [ran, Except.map] at called
  | ok removed =>
      simp only [ran, Except.map, Except.ok.injEq, Prod.mk.injEq, true_and] at called
      exact ⟨called ▸ Publication.keeps_unlink complete apart ran, trivial⟩

/-- Whatever strikes, the file is complete once it is in its place. -/
theorem locked_persistFile (suffix : String) (named : isSha256 path.2 = true)
    (valid : plane.policyFiles.valid (location path) encoded) :
    plane.Locked call (persistFile path suffix encoded) (fun _ => True)
      fun _ disk => disk.entry (location path) ≠ none := by
  have apart : ¬plane.policyFiles.place (.child (tenantDirectory path) ("artifact." ++ suffix)) :=
    temporary_unplaced path suffix
  have distinct : location path ≠ .child (tenantDirectory path) ("artifact." ++ suffix) :=
    fun same => apart ⟨path, named, same.symm⟩
  refine locked_bind (locked_tenantDirectory path) fun _ => ?_
  refine locked_bind (locked_pathExists path) fun there => ?_
  cases there with
  | true =>
      refine locked_done (stable_entry fun entry => (entry (location path)).isSome = true) ?_
      intro _ _ disk found
      exact Option.isSome_iff_ne_none.mp found
  | false =>
      refine locked_bind (locked_create apart distinct) fun inode => ?_
      refine locked_tryCatch ?_ fun error => ?_
      · refine locked_bind (locked_mayRaise fun _ _ => Draft.writeback) fun _ => ?_
        refine locked_bind locked_write fun _ => ?_
        exact locked_bind locked_fsync fun _ => locked_replace apart distinct valid
      · refine locked_bind (Q := fun _ _ => True) ?_ fun _ => locked_throw error stable_true
        exact locked_tryCatch (locked_unlink apart) fun missing => locked_require _ missing

/-! The transaction. -/

theorem policyArtifactPath_eq {tenantId contentSha256 : String}
    (named : plane.policyArtifactPath tenantId contentSha256 = .ok path) :
    isSha256 path.2 = true ∧ path.2 = contentSha256 := by
  simp only [policyArtifactPath, contentDigest, bind_eq_ok, ensure_eq_ok, pure_eq_ok] at named
  obtain ⟨_, valid, directory, _, rfl⟩ := named
  exact ⟨valid, rfl⟩

theorem FileOf.located {row : ArtifactRow} (stands : plane.FileOf row path) :
    plane.policyArtifactPath row.tenantId row.contentSha256 = .ok path := by
  simp only [FileOf, resolvePolicyArtifact, bind_eq_ok] at stands
  obtain ⟨_, _, _, _, named⟩ := stands
  exact named

theorem FileOf.place {row : ArtifactRow} (stands : plane.FileOf row path) :
    plane.policyFiles.place (location path) :=
  ⟨path, (policyArtifactPath_eq stands.located).1, rfl⟩

/-- The one row that the transaction may add. -/
theorem registerArtifact_rows {now : Int} {tenantId family contentHash : String} {model : Model}
    {metadata : Json} {db after : Db} {stored : ArtifactRow}
    (named : plane.policyArtifactPath tenantId contentHash = .ok path)
    (ran : plane.registerArtifact now tenantId family model contentHash metadata db = .ok (stored, after)) :
    ∀ row ∈ after.artifacts.rows, row ∈ db.artifacts.rows ∨ plane.FileOf row path := by
  simp only [registerArtifact, bind_eq_ok] at ran
  obtain ⟨uri, canonical, ran⟩ := ran
  have stands : plane.resolvePolicyArtifact tenantId contentHash uri = .ok path := by
    simp only [resolvePolicyArtifact, bind_eq_ok, ensure_eq_ok]
    exact ⟨uri, canonical, (), by simp, named⟩
  simp only [registerPolicyArtifact, bind_eq_ok] at ran
  obtain ⟨_, _, _, _, json, _, ran⟩ := ran
  split at ran
  next existing found =>
    simp only [bind_eq_ok, pure_eq_ok, Prod.mk.injEq] at ran
    obtain ⟨_, _, _, rfl⟩ := ran
    exact fun row member => .inl member
  next absent =>
    simp only [bind_eq_ok, pure_eq_ok, orRaise_eq_ok, Prod.mk.injEq] at ran
    obtain ⟨_, _, artifacts, inserted, _, rfl⟩ := ran
    intro row member
    rw [(Table.insert_eq_some.mp inserted).2, List.mem_append, List.mem_singleton] at member
    rcases member with old | rfl
    · exact .inl old
    · exact .inr stands

theorem trainTransaction_rows {key : OperationKey} {draws : Draws} {principal : Principal}
    {family holder reservation contentHash : String} {fencingToken leaseTtl now : Int}
    {challenger : Model} {report : PromotionReport} {db after : Db} {response : Json} {commit : Commit}
    (named : plane.policyArtifactPath principal.tenantId contentHash = .ok path)
    (ran : plane.trainTransaction key draws principal family holder reservation fencingToken leaseTtl
      challenger contentHash report now db = .ok (response, commit, after)) :
    ∀ row ∈ after.artifacts.rows, row ∈ db.artifacts.rows ∨ plane.FileOf row path := by
  simp only [trainTransaction, bind_eq_ok, pure_eq_ok, Prod.exists, Prod.mk.injEq] at ran
  obtain ⟨_, leased, renewed, _, _, artifact, registered, register, run, recorded, trained, event, appended,
    append, _, spent, consumed, _, _, rfl⟩ := ran
  obtain ⟨_, _, _, _, _, rfl⟩ := renewLease_cases renewed
  have rows := registerArtifact_rows named register
  have first : recorded.artifacts = registered.artifacts := by
    obtain ⟨_, _, _, ⟨rfl, _⟩ | ⟨_, _, rfl⟩⟩ := recordTrainingRun_cases trained <;> rfl
  have second : appended.artifacts = recorded.artifacts := by
    obtain ⟨_, _, rfl, _⟩ := appendEvent_cases append
    rfl
  have third : spent.artifacts = appended.artifacts := by
    rcases transitionReservation_cases consumed with ⟨rfl, _⟩ | ⟨_, _, _, _, rfl⟩ <;> rfl
  rwa [third, second, first]

variable (plane) in
/-- What is encoded for a policy file is read back as an object. -/
def LoadsModels : Prop :=
  ∀ model family payload, jsonText (plane.modelToPayload model family) = .ok payload →
    ∃ members, plane.jsonLoads (canonicalBytes payload) = some (.obj members)

theorem encodeArtifact_valid {tenantId family contentHash : String} {model : Model} (loads : plane.LoadsModels)
    (ran : plane.encodeArtifact tenantId family model = .ok (path, encoded, contentHash)) :
    plane.policyArtifactPath tenantId contentHash = .ok path ∧ isSha256 path.2 = true ∧
      plane.policyFiles.valid (location path) encoded := by
  simp only [encodeArtifact, bind_eq_ok, pure_eq_ok, Prod.mk.injEq] at ran
  obtain ⟨payload, text, _, named, rfl, rfl, rfl⟩ := ran
  obtain ⟨valid, same⟩ := policyArtifactPath_eq named
  exact ⟨named, valid, _, rfl, same.symm, loads model family payload text⟩

/-- The lock is still held after an error. -/
def Abandoned (call : Nat) (result : Except PyError β) (m : Machine) : Prop :=
  ∀ error, result = .error error → m.writer = some call

variable {m : Machine} {commit : TrainingCommit Model} {now : Int} {contentHash : String}

theorem commitChallenger_kept (own : m.writer = some call)
    (named : plane.policyArtifactPath commit.tenantId contentHash = .ok path)
    (there : m.disk.entry (location path) ≠ none) :
    (plane.commitChallenger commit contentHash now).wp (plane.fileContract call) (Abandoned call) m := by
  refine Prog.wp_exposed (fun error t _ relied _ _ => (relied own).1) ?_
  refine Prog.wp_atomic (fun t value u inv relied ran => ?_) fun t error inv relied ran => ?_
  · obtain ⟨ours, written⟩ := relied own
    simp only [bind_eq_ok, pure_eq_ok, Prod.exists, Prod.mk.injEq] at ran
    obtain ⟨response, _, middle, trained, _, db, completed, rfl, rfl⟩ := ran
    refine ⟨inv, .inr ⟨.inr ours, .refl inv, fun row member => ?_⟩, fun v _ _ error same => by simp at same⟩
    have rows : db.artifacts = middle.artifacts := by
      obtain ⟨_, _, ⟨_, rfl⟩ | ⟨_, _, rfl⟩⟩ := finishIdempotency_cases completed <;> rfl
    rcases trainTransaction_rows named trained row (rows ▸ member) with old | stands
    · exact .inl old
    · exact .inr ⟨rfl, path, stands, written.entry ▸ there⟩
  · exact ⟨.inl rfl, fun v _ later _ _ => (later (relied own).1).1⟩

theorem checkLease_kept (own : m.writer = some call) :
    (checkLease commit now).wp (plane.fileContract call) (fun _ t => t.writer = some call) m := by
  refine Prog.wp_exposed (fun error t _ relied => (relied own).1) ?_
  refine Prog.wp_atomic (fun t value u inv relied ran => ?_) fun t error inv relied ran => ?_
  · simp only [bind_eq_ok, pure_eq_ok, Prod.exists, Prod.mk.injEq] at ran
    obtain ⟨_, _, _, _, rfl⟩ := ran
    exact ⟨inv, .inl rfl, fun v _ later => (later (relied own).1).1⟩
  · exact ⟨.inl rfl, fun v _ later => (later (relied own).1).1⟩

theorem beginImmediate_kept (m : Machine) : (beginImmediate call).wp (plane.fileContract call)
    (fun result t => ∀ now, result = .ok now → t.writer = some call) m := by
  refine Prog.wp_exposed (fun error t _ _ => by simp) ?_
  refine Prog.wp_atomic (fun t value u inv relied ran => ?_) fun t error inv relied ran => ?_
  · split at ran
    next free =>
      cases ran
      refine ⟨inv, .inr ⟨.inl free, .refl inv, fun row member => .inl member⟩, fun v _ later now _ => ?_⟩
      exact (later rfl).1
    next => simp at ran
  · exact ⟨.inl rfl, fun _ _ _ => by simp⟩

/-- The body of the transaction, up to its commit. -/
theorem body_kept (loads : plane.LoadsModels) (complete : plane.policyFiles.Sealed m.disk)
    (own : m.writer = some call) :
    (do
      checkLease commit now
      let (path, encoded, contentHash) ← Prog.ofExcept
        (plane.encodeArtifact commit.tenantId commit.family commit.challenger)
      persistFile path commit.temporary encoded
      plane.commitChallenger commit contentHash now : FileOp Json).wp (plane.fileContract call)
      (Abandoned call) m := by
  refine Prog.wp_bind complete (Prog.wp_mono (fun result u invU ours => ?_) (checkLease_kept own))
  cases result with
  | error error => exact fun _ _ => ours
  | ok _ =>
      cases encodes : plane.encodeArtifact commit.tenantId commit.family commit.challenger with
      | error error => exact Prog.wp_done fun v _ relied _ _ => (relied ours).1
      | ok encoding =>
          obtain ⟨path, encoded, contentHash⟩ := encoding
          obtain ⟨named, digest, valid⟩ := encodeArtifact_valid loads encodes
          have written : plane.Locked call (persistFile path commit.temporary encoded) _ _ :=
            locked_persistFile commit.temporary digest valid
          refine Prog.wp_bind (p := persistFile path commit.temporary encoded) invU
            (Prog.wp_mono (fun result v invV exit => ?_) (written u invU ours trivial))
          cases result with
          | error error => exact fun _ _ => exit.1
          | ok _ => exact commitChallenger_kept exit.1 named (exit.2 () rfl)

theorem trainCommit_kept (loads : plane.LoadsModels) (complete : plane.policyFiles.Sealed m.disk) :
    (plane.trainCommit commit call).wp (plane.fileContract call) (fun _ _ => True) m := by
  refine Prog.wp_bind complete (Prog.wp_mono (fun result t inv started => ?_) (beginImmediate_kept m))
  cases result with
  | error error => trivial
  | ok now =>
      have own : t.writer = some call := started now rfl
      refine Prog.wp_tryCatch inv (Prog.wp_mono (fun result u invU abandoned => ?_)
        (body_kept loads inv own))
      cases result with
      | ok value => trivial
      | error error =>
          refine Prog.wp_bind invU (Prog.wp_atomic_total fun v invV relied => ?_)
          have ours := (relied (abandoned error rfl)).1
          refine ⟨(), _, rfl, invV, .inr ⟨.inr ours, .refl invV, fun row member => .inl member⟩, ?_⟩
          exact fun w _ _ => Prog.wp_done fun _ _ _ => trivial
/-! Runs. -/

theorem recovers_keeps {s t : Machine} (complete : plane.policyFiles.Sealed s.disk)
    (recovered : s.Recovers t) : plane.policyFiles.Keeps s.disk t.disk := by
  obtain ⟨left, lost, made⟩ := recovered.disk
  have first : plane.policyFiles.Keeps s.disk left := by
    rcases lost with rfl | lost
    · exact .refl complete
    · exact Publication.keeps_powerLoss complete lost
  rcases made with same | made
  · rwa [same]
  · exact first.trans (Publication.keeps_mkdir first.complete root_unplaced made)

/-- Proof that the policy files are complete, whenever the commits are cut off. -/
def filesVerified (loads : plane.LoadsModels) (commits : Nat → TrainingCommit Model) :
    (plane.trainingService commits).Verified where
  inv := (plane.fileContract 0).inv
  rely call := (plane.fileContract call).rely
  guar call := (plane.fileContract call).guar
  pre _ _ := True
  post _ _ _ := True
  dead _ _ := True
  rely_refl call := (plane.fileContract call).rely_refl
  rely_trans call := (plane.fileContract call).rely_trans
  compatible := by
    rintro i j s t other _ _ (rfl | ⟨locked, _⟩) own
    · exact ⟨own, .refl _⟩
    · rcases locked with free | taken
      · simp [own] at free
      · exact absurd (Option.some.inj (taken.symm.trans own)) other
  pre_stable _ _ _ := id
  post_stable _ _ _ := id
  dead_stable _ _ _ := id
  surroundings_kept inv changed :=
    ⟨(Publication.keeps_writeback inv changed.written).complete,
      fun _ own => ⟨changed.writer.trans own, changed.written⟩⟩
  recovery_kept inv recovered :=
    ⟨(recovers_keeps inv recovered).complete, fun _ => ⟨trivial, id, fun _ => id⟩⟩
  calls_kept inv _ := trainCommit_kept loads inv

variable (plane) in
/-- The file of the row is there to stay, and can be read. -/
def Lasting (m : Machine) (row : ArtifactRow) : Prop :=
  ∃ path encoded, plane.FileOf row path ∧ m.disk.Published (location path) encoded ∧
    encoded.length ≤ maxPolicyBytes

variable (plane) in
/-- A step that registers an artifact finds its file on the medium, with every directory above it,
and of a size that is read. -/
def OnMedium (s t : Machine) : Prop :=
  ∀ row ∈ t.db.artifacts.rows, row ∉ s.db.artifacts.rows → ∀ path, plane.FileOf row path →
    s.disk.Durable (location path) ∧
      ∀ encoded, s.disk.read (location path) = some encoded → encoded.length ≤ maxPolicyBytes

theorem Lasting.keeps {s t : Machine} {row : ArtifactRow} (keeps : plane.policyFiles.Keeps s.disk t.disk)
    (lasting : plane.Lasting s row) : plane.Lasting t row := by
  obtain ⟨path, encoded, stands, published, short⟩ := lasting
  exact ⟨path, encoded, stands, keeps.published _ stands.place _ published, short⟩

theorem Advance.lasting {s t : Machine} (complete : plane.policyFiles.Sealed s.disk)
    (advance : plane.Advance s t) (medium : plane.OnMedium s t)
    (lasting : ∀ row ∈ s.db.artifacts.rows, plane.Lasting s row) :
    ∀ row ∈ t.db.artifacts.rows, plane.Lasting t row := by
  intro row member
  by_cases old : row ∈ s.db.artifacts.rows
  · exact (lasting row old).keeps advance.keeps
  · obtain ⟨same, path, stands, there⟩ := (advance.rows row member).resolve_left old
    obtain ⟨durable, short⟩ := medium row member old path stands
    obtain ⟨entry, found⟩ := Option.ne_none_iff_exists'.mp there
    obtain ⟨inode, rfl, _⟩ := complete _ stands.place entry (List.mem_cons.mpr (.inl found.symm))
    have reads := Disk.read_file found
    exact ⟨path, s.disk.content inode, stands, by rw [same]; exact ⟨durable, reads⟩, short _ reads⟩

/-- A file that can be read is loaded. -/
theorem Lasting.loaded {row : ArtifactRow} (complete : plane.policyFiles.Sealed m.disk)
    (lasting : plane.Lasting m row) : ∃ path encoded members,
      plane.policyArtifactPath row.tenantId row.contentSha256 = .ok path ∧
      m.disk.read (location path) = some encoded ∧
      plane.store.sha256 encoded = row.contentSha256 ∧
      plane.resolvePolicyArtifact row.tenantId row.contentSha256 row.artifactUri = .ok path ∧
      plane.readVerifiedPolicy path row.contentSha256 m.world = .ok encoded ∧
      plane.jsonLoads encoded = some (.obj members) := by
  obtain ⟨path, encoded, stands, ⟨_, reads⟩, short⟩ := lasting
  obtain ⟨_, _, _, _, _, ⟨other, same, digest, members, loads⟩, _⟩ := complete.published stands.place reads
  obtain rfl := location_injective same
  obtain ⟨valid, named⟩ := policyArtifactPath_eq stands.located
  refine ⟨path, encoded, members, stands.located, reads, digest.trans named, stands, ?_, loads⟩
  simp only [readVerifiedPolicy, contentDigest, bind_eq_ok, ensure_eq_ok, orRaise_eq_ok, pure_eq_ok]
  refine ⟨(), by rwa [← named], encoded, reads, (), by simpa using short, (), ?_, rfl⟩
  simpa using digest.trans named

theorem alone_readWorld (read : World → Except PyError α) (w : World) :
    (readWorld read).alone w = (read w, w) := by
  simp only [readWorld, Prog.exposed, Prog.atomic, Prog.alone, Prog.commit, Prog.outcome]
  cases read w <;> rfl

theorem loadArtifact_alone {tenantId artifactId : String} {row : ArtifactRow} {members : List (String × Json)}
    (found : m.db.artifacts.find? (tenantId, artifactId) = some row)
    (stands : plane.resolvePolicyArtifact row.tenantId row.contentSha256 row.artifactUri = .ok path)
    (reads : plane.readVerifiedPolicy path row.contentSha256 m.world = .ok encoded)
    (loads : plane.jsonLoads encoded = some (.obj members)) :
    (plane.loadArtifact tenantId artifactId).alone m.world = (.ok (.obj members), m.world) := by
  obtain rfl : row.tenantId = tenantId := congrArg Prod.fst (Table.find?_eq_some.mp found).2
  have read : getPolicyArtifact row.tenantId artifactId m.db = .ok row := orRaise_eq_ok.mpr found
  have row' : m.world.db = m.db := rfl
  simp only [loadArtifact, Prog.alone_bind, storeRead, alone_readWorld, row', read, stands, reads, loads,
    Prog.ofExcept, Prog.alone, orRaise]
  rfl

end ControlPlane

/-- No artifact is registered, and there is no policy file now or after a power loss. -/
structure Machine.Fresh (m : Machine) : Prop where
  rows : m.db.artifacts.rows = []
  bare : ∀ directory name, ∀ version ∈ m.disk.versions (.child (.child artifactRoot directory) name),
    version = none

open ControlPlane in
/-- In every run of commits whose files are on the medium when their rows are committed, cut off
anywhere: every registered artifact has its file, and it is loaded. -/
theorem artifacts_durable {Model : Type} (plane : ControlPlane Model) (commits : Nat → TrainingCommit Model)
    {start : Machine} {config : Config Nat Machine PyError Json} {tenantId artifactId : String}
    {row : ArtifactRow} (loads : plane.LoadsModels) (fresh : start.Fresh)
    (run : (plane.trainingService commits).Guarded plane.OnMedium (.start start) config)
    (registered : config.state.db.artifacts.find? (tenantId, artifactId) = some row) :
    (∃ path encoded, plane.policyArtifactPath tenantId row.contentSha256 = .ok path ∧
      config.state.disk.read (location path) = some encoded ∧
      plane.store.sha256 encoded = row.contentSha256) ∧
    ∃ payload, (plane.loadArtifact tenantId artifactId).alone config.state.world =
      (.ok payload, config.state.world) := by
  have complete : plane.policyFiles.Sealed start.disk := by
    rintro _ ⟨path, _, rfl⟩ entry listed
    simpa using fresh.bare _ _ _ listed
  have outcome := (filesVerified loads commits).guarded_run (P := fun m => ∀ row ∈ m.db.artifacts.rows,
    plane.Lasting m row) complete (fun _ => trivial) (by simp [fresh.rows]) (fun c d sound step medium lasting => ?_) run
  · obtain ⟨⟨inv, _⟩, lasting⟩ := outcome
    obtain ⟨member, keyed⟩ := Table.find?_eq_some.mp registered
    obtain ⟨path, encoded, members, named, reads, digest, stands, verified, object⟩ :=
      (lasting row member).loaded inv
    obtain rfl : row.tenantId = tenantId := congrArg Prod.fst keyed
    exact ⟨⟨path, encoded, named, reads, digest⟩, _, loadArtifact_alone registered stands verified object⟩
  · rcases (filesVerified loads commits).step_guar sound step with same | ⟨i, still | ⟨_, advance⟩⟩ | changed | recovered
    · rwa [same]
    · rwa [still]
    · exact advance.lasting sound.1 medium lasting
    · intro row member
      exact (lasting row (changed.artifacts ▸ member)).keeps (Publication.keeps_writeback sound.1 changed.written)
    · intro row member
      exact (lasting row (recovered.db ▸ member)).keeps (recovers_keeps sound.1 recovered)

namespace Sample

/-- The small control plane, with the JSON reader. -/
def reader : ControlPlane String := { plane with jsonLoads := Json.loads Floats.half }

/-- A training request has claimed its key, its budget and its lease. -/
def trainee : Db :=
  settle (acquireLease 1000 "tenant" ("train:" ++ ControlPlane.policyFamily) "holder" 60 none) <|
    settle (reserveBudget 1000 "tenant" "api-compute" "training-holder" 8) <|
      settle (createBudget 1000 "tenant" "api-compute" 1000) <|
        settle (store.claimIdempotency 1000 "tenant" "train" "key" (.obj []) (some 86400)) .empty

def challenge (call : Nat) : TrainingCommit String where
  tenantId := "tenant"
  subjectId := "trainer"
  family := ControlPlane.policyFamily
  idempotencyKey := "key"
  holder := "holder"
  reservation := "training-holder"
  fencingToken := 1
  leaseTtl := 60
  challenger := "third"
  report := {
    accepted := true
    reasons := []
    payload := .obj [] }
  draws := draws call
  temporary := "x7"

def machine : Machine := ⟨trainee, 1000, .blank [], none⟩

theorem machine_fresh : machine.Fresh := by
  refine ⟨by decide +kernel, fun directory name version member => ?_⟩
  simpa [machine, Disk.blank, Disk.versions] using member

theorem reader_loads : reader.LoadsModels := by
  intro model family value text
  obtain rfl := jsonText_eq text
  have accepted : (payload model).Accepted Floats.half := ⟨⟨by simp, trivial, trivial⟩, rfl⟩
  have reads := Json.loads_canonicalBytes accepted.canonical
  rw [Json.canonical_canonical] at reads
  exact ⟨_, reads⟩

def written (m : Machine) : Machine := { m with disk := m.disk.flush }

theorem written_around (m : Machine) : m.Around (written m) :=
  ⟨rfl, fun _ => rfl, rfl, m.disk.flush_writeback⟩

def lose (m : Machine) : Machine := { m with
  disk := m.disk.rewind
  writer := none }

theorem lose_recovers (m : Machine) : m.Recovers (lose m) :=
  ⟨rfl, rfl, _, .inr m.disk.rewind_powerLoss, .inl rfl⟩

def challengerKey : String × String := ("tenant", artifactId "third")

/-- The file of an artifact is gone, and it cannot be loaded. -/
def gone (m : Machine) : Bool :=
  (m.db.artifacts.find? challengerKey).any fun row =>
    (match reader.policyArtifactPath "tenant" row.contentSha256 with
      | .ok path => m.disk.read (location path) = none
      | .error _ => false) &&
    match ((reader.loadArtifact challengerKey.1 challengerKey.2).alone m.world).1 with
      | .error error => error.isFileNotFound
      | .ok _ => false

end Sample

open Sample in
/-- The row of a committed challenger survives the power loss that its file does not survive. -/
theorem artifacts_not_always_durable : ∃ (config : Config Nat Machine PyError Json) (row : ArtifactRow)
    (path : ArtifactPath) (error : PyError),
    machine.Fresh ∧ (reader.trainingService challenge).Reachable (.start machine) config ∧
      config.state.db.artifacts.find? challengerKey = some row ∧
      reader.policyArtifactPath "tenant" row.contentSha256 = .ok path ∧
      config.state.disk.read (location path) = none ∧
      ((reader.loadArtifact challengerKey.1 challengerKey.2).alone config.state.world).1 = .error error ∧
      error.isFileNotFound = true := by
  obtain ⟨config, run, checked⟩ := (reader.trainingService challenge).play_exists
    (.spawn 0 :: List.replicate 23 (.act 0)) (.start machine) (fun config => gone (lose config.state))
    (by simp) (by decide +kernel)
  obtain ⟨row, found, checks⟩ := (Option.any_eq_true ..).mp checked
  rw [Bool.and_eq_true] at checks
  obtain ⟨absent, failed⟩ := checks
  split at absent
  next path named =>
    split at failed
    next error raised =>
      exact ⟨⟨lose config.state, fun call => (config.threads call).kill⟩, row, path, error, machine_fresh,
        run.tail (.crash (lose_recovers _)), found, named, by simpa using absent, raised, failed⟩
    next => simp at failed
  next => simp at absent

namespace Sample

/-- `OnMedium`, evaluated. -/
def onMedium (s t : Machine) : Bool :=
  t.db.artifacts.rows.all fun row => row ∈ s.db.artifacts.rows ||
    match reader.resolvePolicyArtifact row.tenantId row.contentSha256 row.artifactUri with
    | .ok path => decide (s.disk.Durable (location path)) &&
        (s.disk.read (location path)).all (·.length ≤ ControlPlane.maxPolicyBytes)
    | .error _ => true

theorem onMedium_sound (s t : Machine) (checked : onMedium s t = true) : reader.OnMedium s t := by
  intro row member fresh path stands
  have holds := List.all_eq_true.mp checked row member
  rw [stands] at holds
  simp only [fresh, decide_false, Bool.false_or, Bool.and_eq_true, decide_eq_true_eq] at holds
  refine ⟨holds.1, fun encoded reads => ?_⟩
  simpa [reads] using holds.2

end Sample

open Sample in
/-- A commit whose file is written to the medium in time, and a power loss. -/
theorem artifacts_durable_written : ∃ (config : Config Nat Machine PyError Json) (row : ArtifactRow),
    config.state.db.artifacts.find? challengerKey = some row ∧
    (∃ path encoded, reader.policyArtifactPath "tenant" row.contentSha256 = .ok path ∧
      config.state.disk.read (location path) = some encoded ∧
      reader.store.sha256 encoded = row.contentSha256) ∧
    ∃ payload, (reader.loadArtifact challengerKey.1 challengerKey.2).alone config.state.world =
      (.ok payload, config.state.world) := by
  let moves : List (Service.Move Nat Machine) :=
    .spawn 0 :: List.replicate 22 (.act 0) ++ [.change written, .act 0]
  have reached : (((reader.trainingService challenge).playGuarded onMedium moves (.start machine)).any
      fun config => (config.state.db.artifacts.find? challengerKey).isSome) = true := by decide +kernel
  obtain ⟨config, played, found⟩ := (Option.any_eq_true ..).mp reached
  obtain ⟨row, found⟩ := Option.isSome_iff_exists.mp found
  have allowed : ∀ effect, .change effect ∈ moves →
      ∀ m, (reader.trainingService challenge).surroundings m (effect m) := by
    intro effect member
    obtain rfl : effect = written := by simpa [moves] using member
    exact written_around
  have run := (reader.trainingService challenge).playGuarded_guarded onMedium_sound allowed played
  have lost : (reader.trainingService challenge).Guarded reader.OnMedium (.start machine)
      ⟨lose config.state, fun call => (config.threads call).kill⟩ :=
    run.tail ⟨.crash (lose_recovers _), fun row member fresh => absurd member fresh⟩
  exact ⟨⟨lose config.state, _⟩, row, found,
    artifacts_durable reader challenge reader_loads machine_fresh lost found⟩

end AgentTree
