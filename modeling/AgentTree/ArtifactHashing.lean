import AgentTree.Json
import AgentTree.Outcome
import AgentTree.StoreSchema

/-!
The artifacts of an evidence run (`evidence.py`): how one file is hashed below a limit, and
how the byte budget of a run is spent on its files.
-/

namespace AgentTree.Evidence

open Outcome

inductive ArtifactStatus : Type
  | hashed
  | unresolvableParent
  | rejectedEscape
  | missing
  | rejectedSymlink
  | rejectedNonRegular
  | sizeLimit
  | aggregateSizeLimit
  | changedWhileOpening
  | hashTimeout
  | changedWhileHashing
  | unreadable
  deriving DecidableEq

structure ArtifactReceipt where
  path : String
  status : ArtifactStatus
  sizeBytes : Option Nat
  sha256 : Option String
  deriving DecidableEq

inductive FileKind : Type
  | regular
  | symlink
  | other
  deriving DecidableEq

structure FileStat where
  kind : FileKind
  device : Nat
  inode : Nat
  size : Nat
  mtime : Nat
  ctime : Nat
  deriving DecidableEq

inductive Lookup : Type
  | missing
  | failed (error : PyError)
  | found (stat : FileStat)

/-- What the file system and the clock show while a path is hashed: its parent resolved, `lstat`, `open`, `fstat`,
whether the deadline has passed before a read, the reads by offset and count, and `fstat` again. -/
structure ArtifactView where
  path : String
  resolved : Option String
  within : Bool
  before : Lookup
  opens : Bool
  after : Option FileStat
  expired : Nat → Bool
  read : Nat → Nat → Option Bytes
  final : Option FileStat

def maxExecutableBytes : Nat := 256 * 1024 * 1024

/-- The loop of reads, with what has been digested; each read that is not the last one lowers what remains. -/
def ArtifactView.readAll (view : ArtifactView) :
    (fuel turn : Nat) → (digested : Bytes) → (remaining : Nat) → Except ArtifactStatus Bytes
  | 0, _, digested, _ => .ok digested
  | fuel + 1, turn, digested, remaining =>
      if remaining = 0 then .ok digested
      else if view.expired turn then .error .hashTimeout
      else match view.read digested.length (min 65536 remaining) with
        | none => .error .unreadable
        | some [] => .ok digested
        | some (byte :: chunk) =>
            view.readAll fuel (turn + 1) (digested ++ byte :: chunk) (remaining - (byte :: chunk).length)

/-- The open file, once it is known what `lstat` said of it. -/
def ArtifactView.digest (view : ArtifactView) (maxBytes : Nat) (before : FileStat) : Except ArtifactStatus Bytes := do
  ensure view.opens .unreadable
  let after ← orRaise view.after .unreadable
  ensure (before.device = after.device && before.inode = after.inode) .changedWhileOpening
  ensure (after.kind = .regular) .rejectedNonRegular
  ensure (after.size ≤ maxBytes) .sizeLimit
  let content ← view.readAll (maxBytes + 2) 0 [] (maxBytes + 1)
  ensure (content.length ≤ maxBytes) .sizeLimit
  let final ← orRaise view.final .unreadable
  ensure (content.length = after.size && final.size = after.size && final.mtime = after.mtime &&
    final.ctime = after.ctime) .changedWhileHashing
  return content

/-- A path without a digest. -/
def ArtifactReceipt.of (path : String) (status : ArtifactStatus) : ArtifactReceipt := ⟨path, status, none, none⟩

/-- `_hash_artifact` below the check of the roots. -/
def hashFile (sha256 : Bytes → String) (maxBytes : Nat) (view : ArtifactView) (path : String) :
    Except PyError ArtifactReceipt :=
  match view.before with
  | .failed error => .error error
  | .missing => .ok (.of path .missing)
  | .found before =>
      if before.kind = .symlink then .ok (.of path .rejectedSymlink)
      else if before.kind ≠ .regular then .ok (.of path .rejectedNonRegular)
      else if maxBytes < before.size then .ok (.of path .sizeLimit)
      else match view.digest maxBytes before with
        | .error status => .ok (.of path status)
        | .ok content => .ok ⟨path, .hashed, some content.length, some (sha256 content)⟩

/-- `_hash_artifact`; an executable is hashed without roots. -/
def hashArtifact (sha256 : Bytes → String) (rooted : Bool) (maxBytes : Nat) (view : ArtifactView) :
    Except PyError ArtifactReceipt :=
  if rooted then
    match view.resolved with
    | none => .ok (.of view.path .unresolvableParent)
    | some path => if !view.within then .ok (.of path .rejectedEscape) else hashFile sha256 maxBytes view path
  else hashFile sha256 maxBytes view view.path

/-- A limit that is lower than that of a file is due to the budget. -/
def ArtifactReceipt.attributed (perFileLimit fileCap : Nat) (artifact : ArtifactReceipt) : ArtifactReceipt :=
  if artifact.status = .sizeLimit ∧ perFileLimit < fileCap then { artifact with status := .aggregateSizeLimit }
  else artifact

/-- The loop over the requested artifacts, with the bytes of the budget that remain.  No file is hashed that is larger
than what remains, so the budget does not become negative. -/
def hashArtifacts (sha256 : Bytes → String) (fileCap : Nat) :
    (remaining : Nat) → List ArtifactView → Except PyError (List ArtifactReceipt)
  | _, [] => .ok []
  | remaining, view :: rest =>
      if remaining = 0 then do
        let others ← hashArtifacts sha256 fileCap remaining rest
        return .of view.path .aggregateSizeLimit :: others
      else do
        let perFileLimit := min fileCap remaining
        let found ← hashArtifact sha256 true perFileLimit view
        let artifact := found.attributed perFileLimit fileCap
        let left := if artifact.status = .hashed then remaining - artifact.sizeBytes.getD 0 else remaining
        let others ← hashArtifacts sha256 fileCap left rest
        return artifact :: others

/-- The bytes that a receipt says were hashed. -/
def ArtifactReceipt.hashedBytes (receipt : ArtifactReceipt) : Nat :=
  if receipt.status = .hashed then receipt.sizeBytes.getD 0 else 0

section Caps

variable {sha256 : Bytes → String} {view : ArtifactView} {maxBytes fileCap remaining : Nat} {receipt : ArtifactReceipt}

theorem digest_size {before : FileStat} {content : Bytes} (digested : view.digest maxBytes before = .ok content) :
    content.length ≤ maxBytes := by
  simp only [ArtifactView.digest, bind_eq_ok, ensure_eq_ok, pure_eq_ok] at digested
  obtain ⟨_, _, _, _, _, _, _, _, _, _, read, _, _, small, _, _, _, _, rfl⟩ := digested
  exact of_decide_eq_true small

@[simp] theorem hashedBytes_of (path : String) (status : ArtifactStatus) :
    (ArtifactReceipt.of path status).hashedBytes = 0 := by
  unfold ArtifactReceipt.hashedBytes
  split <;> rfl

theorem hashedBytes_attributed (perFileLimit fileCap : Nat) (receipt : ArtifactReceipt) :
    (receipt.attributed perFileLimit fileCap).hashedBytes = receipt.hashedBytes := by
  unfold ArtifactReceipt.attributed
  split
  next limited => simp [ArtifactReceipt.hashedBytes, limited.1]
  next => rfl

theorem hashFile_size {path : String} (made : hashFile sha256 maxBytes view path = .ok receipt) :
    receipt.hashedBytes ≤ maxBytes := by
  unfold hashFile at made
  split at made
  next => simp at made
  next =>
    obtain rfl := Except.ok.inj made
    simp
  next before _ =>
    split at made
    next =>
      obtain rfl := Except.ok.inj made
      simp
    next =>
      split at made
      next =>
        obtain rfl := Except.ok.inj made
        simp
      next =>
        split at made
        next =>
          obtain rfl := Except.ok.inj made
          simp
        next =>
          split at made
          next =>
            obtain rfl := Except.ok.inj made
            simp
          next content digested =>
            obtain rfl := Except.ok.inj made
            exact digest_size digested

/-- What is hashed is within the limit. -/
theorem hashArtifact_size {rooted : Bool} (made : hashArtifact sha256 rooted maxBytes view = .ok receipt) :
    receipt.hashedBytes ≤ maxBytes := by
  unfold hashArtifact at made
  split at made
  next =>
    split at made
    next =>
      obtain rfl := Except.ok.inj made
      simp
    next =>
      split at made
      next =>
        obtain rfl := Except.ok.inj made
        simp
      next => exact hashFile_size made
  next => exact hashFile_size made

theorem hashedBytes_left : (if receipt.status = .hashed then remaining - receipt.sizeBytes.getD 0 else remaining) =
    remaining - receipt.hashedBytes := by
  unfold ArtifactReceipt.hashedBytes
  split <;> rfl

/-- The loop goes on after a file with what the file leaves of the budget. -/
theorem hashArtifacts_cons {rest : List ArtifactView} {receipts : List ArtifactReceipt} (positive : remaining ≠ 0) :
    hashArtifacts sha256 fileCap remaining (view :: rest) = .ok receipts ↔
      ∃ found others, hashArtifact sha256 true (min fileCap remaining) view = .ok found ∧
        hashArtifacts sha256 fileCap (remaining - found.hashedBytes) rest = .ok others ∧
        found.attributed (min fileCap remaining) fileCap :: others = receipts := by
  rw [hashArtifacts, if_neg positive]
  simp only [bind_eq_ok, pure_eq_ok, hashedBytes_left, hashedBytes_attributed, exists_and_left]

/-- The files of a run are within the cap of a file and the budget. -/
theorem hashArtifacts_capped {views : List ArtifactView} {receipts : List ArtifactReceipt}
    (made : hashArtifacts sha256 fileCap remaining views = .ok receipts) :
    (∀ receipt ∈ receipts, receipt.hashedBytes ≤ fileCap) ∧
      (receipts.map ArtifactReceipt.hashedBytes).sum ≤ remaining := by
  induction views generalizing remaining receipts with
  | nil =>
      obtain rfl := Except.ok.inj made
      simp
  | cons view rest ih =>
      by_cases exhausted : remaining = 0
      · rw [hashArtifacts, if_pos exhausted] at made
        obtain ⟨others, later, same⟩ := bind_eq_ok.mp made
        obtain rfl := pure_eq_ok.mp same
        obtain ⟨each, total⟩ := ih later
        simp only [List.forall_mem_cons, hashedBytes_of, List.map_cons, List.sum_cons]
        exact ⟨⟨Nat.zero_le _, each⟩, by omega⟩
      · obtain ⟨found, others, hashed, later, rfl⟩ := (hashArtifacts_cons exhausted).mp made
        obtain ⟨each, total⟩ := ih later
        have size : found.hashedBytes ≤ min fileCap remaining := hashArtifact_size hashed
        simp only [List.forall_mem_cons, List.map_cons, List.sum_cons, hashedBytes_attributed]
        exact ⟨⟨by omega, each⟩, by omega⟩

/-- Every requested artifact has its receipt. -/
theorem hashArtifacts_length {views : List ArtifactView} {receipts : List ArtifactReceipt}
    (made : hashArtifacts sha256 fileCap remaining views = .ok receipts) : receipts.length = views.length := by
  induction views generalizing remaining receipts with
  | nil =>
      obtain rfl := Except.ok.inj made
      rfl
  | cons view rest ih =>
      by_cases exhausted : remaining = 0
      · rw [hashArtifacts, if_pos exhausted] at made
        obtain ⟨others, later, same⟩ := bind_eq_ok.mp made
        obtain rfl := pure_eq_ok.mp same
        rw [List.length_cons, ih later, List.length_cons]
      · obtain ⟨found, others, _, later, rfl⟩ := (hashArtifacts_cons exhausted).mp made
        rw [List.length_cons, ih later, List.length_cons]

end Caps

/-! Regular files that can be read and do not change. -/

/-- A view of a regular file inside the roots, with one content and in good time. -/
structure ArtifactView.Steady (view : ArtifactView) (content : Bytes) : Prop where
  resolved : view.resolved = some view.path
  within : view.within = true
  opens : view.opens = true
  stat : ∃ stat : FileStat, view.before = .found stat ∧ stat.kind = .regular ∧ stat.size = content.length ∧
    view.after = some stat ∧ view.final = some stat
  timely : ∀ turn, view.expired turn = false
  read : ∀ offset count, 0 < count → ∃ length, 0 < length ∧ length ≤ count ∧
    view.read offset count = some ((content.drop offset).take length)

/-- The receipt of a content. -/
def ArtifactReceipt.hash (sha256 : Bytes → String) (view : ArtifactView) (content : Bytes) : ArtifactReceipt :=
  ⟨view.path, .hashed, some content.length, some (sha256 content)⟩

section Steady

variable {sha256 : Bytes → String} {view : ArtifactView} {maxBytes fileCap remaining : Nat} {content : Bytes}

theorem ArtifactView.Steady.readAll (steady : view.Steady content) {fuel turn : Nat} {digested rest : Bytes}
    (split : content = digested ++ rest) (room : rest.length < remaining) (fueled : rest.length < fuel) :
    view.readAll fuel turn digested remaining = .ok content := by
  induction fuel generalizing turn digested rest remaining with
  | zero => omega
  | succ fuel ih =>
      obtain ⟨length, positive, _, read⟩ := steady.read digested.length (min 65536 remaining) (by omega)
      rw [split, List.drop_left] at read
      simp only [ArtifactView.readAll, steady.timely, read, Bool.false_eq_true, if_false]
      rw [if_neg (by omega)]
      cases rest with
      | nil => simp [split]
      | cons byte rest =>
          obtain ⟨shorter, rfl⟩ : ∃ shorter, length = shorter + 1 := ⟨length - 1, by omega⟩
          simp only [List.take_succ_cons]
          have split : content = (digested ++ byte :: rest.take shorter) ++ rest.drop shorter := by
            rw [split, List.append_assoc, List.cons_append, List.take_append_drop]
          refine ih split ?_ ?_
          · simp only [List.length_cons, List.length_take, List.length_drop] at *
            omega
          · simp only [List.length_cons, List.length_drop] at *
            omega

theorem ArtifactView.Steady.hashFile (steady : view.Steady content) :
    hashFile sha256 maxBytes view view.path =
      .ok (if content.length ≤ maxBytes then .hash sha256 view content else .of view.path .sizeLimit) := by
  obtain ⟨stat, before, regular, size, after, final⟩ := steady.stat
  simp only [Evidence.hashFile, before, regular, size]
  by_cases small : content.length ≤ maxBytes
  · have digested : view.digest maxBytes stat = .ok content := by
      have read : view.readAll (maxBytes + 2) 0 [] (maxBytes + 1) = .ok content :=
        steady.readAll rfl (by omega) (by omega)
      simp [ArtifactView.digest, steady.opens, after, final, regular, size, small, read, ensure, orRaise, bind, Except.bind,
        pure, Except.pure]
    simp [small, digested, Nat.not_lt.mpr small, ArtifactReceipt.hash]
  · simp [small, Nat.lt_of_not_le small]

/-- A steady file is hashed if it is within the limit. -/
theorem ArtifactView.Steady.hashArtifact (steady : view.Steady content) (rooted : Bool) :
    hashArtifact sha256 rooted maxBytes view =
      .ok (if content.length ≤ maxBytes then .hash sha256 view content else .of view.path .sizeLimit) := by
  cases rooted <;> simp [Evidence.hashArtifact, steady.resolved, steady.within, steady.hashFile]

/-- No empty file comes after files that use the budget up. -/
def Affordable (budget : Nat) (contents : List Bytes) : Prop :=
  ∀ front back, contents = front ++ [] :: back → (front.map List.length).sum < budget

theorem affordable_cons {contents : List Bytes} {budget : Nat} (fits : content.length ≤ budget) :
    Affordable budget (content :: contents) ↔
      (content = [] → 0 < budget) ∧ Affordable (budget - content.length) contents := by
  constructor
  · intro affordable
    refine ⟨fun empty => affordable [] contents (by rw [empty]; rfl), ?_⟩
    intro front back split
    have := affordable (content :: front) back (by rw [split]; rfl)
    simp only [List.map_cons, List.sum_cons] at this
    omega
  · rintro ⟨first, later⟩ front back split
    cases front with
    | nil => exact first (List.cons.inj split).1
    | cons head front =>
        obtain ⟨rfl, splitRest⟩ := List.cons.inj split
        have := later front back splitRest
        simp only [List.map_cons, List.sum_cons]
        omega

/-- Files within the caps are all hashed if and only if the budget lasts for the empty ones. -/
theorem hashArtifacts_steady (sha256 : Bytes → String) {views : List ArtifactView} {contents : List Bytes}
    (steady : List.Forall₂ ArtifactView.Steady views contents) (each : ∀ content ∈ contents, content.length ≤ fileCap)
    (total : (contents.map List.length).sum ≤ remaining) :
    hashArtifacts sha256 fileCap remaining views = .ok (List.zipWith (.hash sha256) views contents) ↔
      Affordable remaining contents := by
  induction steady generalizing remaining with
  | nil => simp [hashArtifacts, Affordable]
  | @cons view content views contents first others ih =>
      simp only [List.forall_mem_cons] at each
      simp only [List.map_cons, List.sum_cons] at total
      have ih : hashArtifacts sha256 fileCap (remaining - content.length) views = _ ↔ _ := ih each.2 (by omega)
      rw [affordable_cons (by omega), ← ih, List.zipWith_cons_cons]
      by_cases exhausted : remaining = 0
      · have empty : content = [] := List.length_eq_zero_iff.mp (by omega)
        rw [hashArtifacts, if_pos exhausted]
        constructor
        · intro made
          obtain ⟨others, _, same⟩ := bind_eq_ok.mp made
          have head := (List.cons.inj (pure_eq_ok.mp same)).1
          simp [ArtifactReceipt.of, ArtifactReceipt.hash] at head
        · intro affordable
          exact absurd (affordable.1 empty) (by omega)
      · have hashed : hashArtifact sha256 true (min fileCap remaining) view = .ok (if _ then _ else _) :=
          first.hashArtifact true
        rw [if_pos (by omega)] at hashed
        rw [hashArtifacts_cons exhausted]
        constructor
        · rintro ⟨found, rest, found_eq, later, same⟩
          obtain rfl := Except.ok.inj (hashed.symm.trans found_eq)
          obtain ⟨-, rfl⟩ := List.cons.inj same
          exact ⟨fun _ => Nat.pos_of_ne_zero exhausted, later⟩
        · rintro ⟨-, later⟩
          exact ⟨_, _, hashed, later, rfl⟩

/-- Steady files are reported on, hashed or not. -/
theorem hashArtifacts_returns (sha256 : Bytes → String) (fileCap : Nat) {views : List ArtifactView}
    {contents : List Bytes} (steady : List.Forall₂ ArtifactView.Steady views contents) (remaining : Nat) :
    ∃ receipts, hashArtifacts sha256 fileCap remaining views = .ok receipts := by
  induction steady generalizing remaining with
  | nil => exact ⟨[], rfl⟩
  | cons first others ih =>
      by_cases exhausted : remaining = 0
      · obtain ⟨receipts, rest⟩ := ih remaining
        rw [hashArtifacts, if_pos exhausted, rest]
        exact ⟨_, rfl⟩
      · obtain ⟨receipts, rest⟩ := ih _
        exact ⟨_, (hashArtifacts_cons exhausted).mpr ⟨_, receipts, first.hashArtifact true, rest, rfl⟩⟩

/-- A regular file as it is seen when nothing happens to it. -/
def ArtifactView.regular (path : String) (content : Bytes) : ArtifactView where
  path := path
  resolved := some path
  within := true
  before := .found ⟨.regular, 1, 1, content.length, 0, 0⟩
  opens := true
  after := some ⟨.regular, 1, 1, content.length, 0, 0⟩
  expired := fun _ => false
  read := fun offset count => some ((content.drop offset).take count)
  final := some ⟨.regular, 1, 1, content.length, 0, 0⟩

theorem regular_steady (path : String) (content : Bytes) : (ArtifactView.regular path content).Steady content where
  resolved := rfl
  within := rfl
  opens := rfl
  stat := ⟨_, rfl, rfl, rfl, rfl, rfl⟩
  timely := fun _ => rfl
  read := fun _ count positive => ⟨count, positive, le_rfl, rfl⟩

end Steady

end AgentTree.Evidence
