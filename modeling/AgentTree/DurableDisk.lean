import Mathlib.Logic.Function.Basic

/-!
A file system that may lose power.  Programs see the current entry of a path; a power
loss may bring back an older entry that was never made durable, and takes away what is
below a directory that it takes away.
-/

namespace Durability

/-- A path below a directory that is always there. -/
inductive Path : Type
  | base
  | child (parent : Path) (name : String)
  deriving DecidableEq

inductive Entry : Type
  | directory
  | file (inode : Nat)
  deriving DecidableEq

/-- What is left of the entries when only those below a directory that is left can be reached. -/
def standing (kept : Path → Option Entry) : Path → Option Entry
  | .base => some .directory
  | .child parent name =>
      if standing kept parent = some .directory then kept (.child parent name) else none

structure Disk (γ : Type) where
  entry : Path → Option Entry
  /-- The earlier entries that a power loss may bring back. -/
  older : Path → List (Option Entry)
  content : Nat → γ
  /-- The content of the inode is on the medium. -/
  synced : Nat → Bool
  inodes : Nat
  rooted : entry .base = some .directory
  closed : ∀ parent name, entry (.child parent name) ≠ none → entry parent = some .directory

inductive Refusal : Type
  | missing
  | present
  | notDirectory
  | isDirectory
  deriving DecidableEq

namespace Disk

variable {γ : Type} (disk : Disk γ)

/-- A disk that has nothing but its base directory. -/
def blank (initial : γ) : Disk γ where
  entry path := if path = .base then some .directory else none
  older _ := []
  content _ := initial
  synced _ := true
  inodes := 0
  rooted := by simp
  closed := by simp

/-- What a power loss may leave at a path. -/
def versions (path : Path) : List (Option Entry) := disk.entry path :: disk.older path

/-- The content of a regular file. -/
def read (path : Path) : Option γ :=
  match disk.entry path with
  | some (.file inode) => some (disk.content inode)
  | _ => none

def put (parent : Path) (name : String) (value : Option Entry)
    (there : disk.entry parent = some .directory)
    (plain : disk.entry (.child parent name) ≠ some .directory) : Disk γ := { disk with
  entry := Function.update disk.entry (.child parent name) value
  older := Function.update disk.older (.child parent name) (disk.versions (.child parent name))
  rooted := by simpa using disk.rooted
  closed := by
    intro above below reached
    have lasting : ∀ path, disk.entry path = some .directory →
        Function.update disk.entry (.child parent name) value path = some .directory := by
      intro path directory
      rw [Function.update_of_ne (fun same => by simp [same ▸ directory] at plain)]
      exact directory
    by_cases here : Path.child above below = .child parent name
    · cases here
      exact lasting _ there
    · rw [Function.update_of_ne here] at reached
      exact lasting _ (disk.closed above below reached) }

/-- Why there is no directory to put an entry into. -/
def unreachable (parent : Path) : Refusal :=
  if disk.entry parent = none then .missing else .notDirectory

def mkdir : Path → Except Refusal (Disk γ)
  | .base => .error .present
  | .child parent name =>
      if there : disk.entry parent = some .directory then
        if free : disk.entry (.child parent name) = none then
          .ok (disk.put parent name (some .directory) there (by simp [free]))
        else .error .present
      else .error (disk.unreachable parent)

/-- A new file, which must not be there yet. -/
def create (initial : γ) : Path → Except Refusal (Nat × Disk γ)
  | .base => .error .present
  | .child parent name =>
      if there : disk.entry parent = some .directory then
        if free : disk.entry (.child parent name) = none then
          let linked := disk.put parent name (some (.file disk.inodes)) there (by simp [free])
          .ok (disk.inodes, { linked with
            content := Function.update disk.content disk.inodes initial
            synced := Function.update disk.synced disk.inodes false
            inodes := disk.inodes + 1 })
        else .error .present
      else .error (disk.unreachable parent)

def write (inode : Nat) (value : γ) : Disk γ := { disk with
  content := Function.update disk.content inode value
  synced := Function.update disk.synced inode false }

def fsync (inode : Nat) : Disk γ := { disk with synced := Function.update disk.synced inode true }

def unlink : Path → Except Refusal (Disk γ)
  | .base => .error .isDirectory
  | .child parent name =>
      match found : disk.entry (.child parent name) with
      | none => .error .missing
      | some .directory => .error .isDirectory
      | some (.file _) =>
          .ok (disk.put parent name none (disk.closed parent name (by simp [found])) (by simp [found]))

/-- A regular file takes another name, and replaces the file that has it. -/
def replace (source : Path) : Path → Except Refusal (Disk γ)
  | .base => .error .isDirectory
  | .child parent name =>
      match disk.entry source with
      | none => .error .missing
      | some .directory => .error .isDirectory
      | some (.file inode) =>
          if source = .child parent name then .ok disk
          else if there : disk.entry parent = some .directory then
            if plain : disk.entry (.child parent name) ≠ some .directory then
              (disk.put parent name (some (.file inode)) there plain).unlink source
            else .error .isDirectory
          else .error (disk.unreachable parent)

/-- The disk after a power loss that kept the given entries. -/
def reboot (kept : Path → Option Entry) (garbage : Nat → γ) : Disk γ where
  entry := standing kept
  older _ := []
  content inode := if disk.synced inode then disk.content inode else garbage inode
  synced _ := true
  inodes := disk.inodes
  rooted := rfl
  closed := by
    intro parent name reached
    by_contra lost
    simp [standing, lost] at reached

/-- A power loss: of each entry some version is kept, and an unsynced file may hold anything. -/
def PowerLoss (before after : Disk γ) : Prop :=
  ∃ kept garbage, (∀ path, kept path ∈ before.versions path) ∧ after = before.reboot kept garbage

/-- The system may write to the medium whenever it likes. -/
structure Writeback (before after : Disk γ) : Prop where
  entry : after.entry = before.entry
  older : ∀ path, after.older path ⊆ before.older path
  content : after.content = before.content
  synced : ∀ inode, before.synced inode = true → after.synced inode = true
  inodes : after.inodes = before.inodes

/-- Everything is written to the medium. -/
def flush : Disk γ := { disk with
  older := fun _ => []
  synced := fun _ => true }

/-- The power loss that keeps the oldest versions. -/
def rewind : Disk γ := disk.reboot (fun path => (disk.older path).getLastD (disk.entry path)) disk.content

/-- No power loss takes away or changes the entry. -/
def Durable : Path → Prop
  | .base => True
  | .child parent name => Durable parent ∧
      ∀ version ∈ disk.older (.child parent name), version = disk.entry (.child parent name)

instance decidableDurable : ∀ path, Decidable (disk.Durable path)
  | .base => inferInstanceAs (Decidable True)
  | .child parent _ =>
      have := decidableDurable parent
      inferInstanceAs (Decidable (_ ∧ _))

theorem Writeback.refl : Writeback disk disk :=
  ⟨rfl, fun _ => List.Subset.refl _, rfl, fun _ => id, rfl⟩

theorem Writeback.trans {first second third : Disk γ} (one : Writeback first second)
    (two : Writeback second third) : Writeback first third :=
  ⟨two.entry.trans one.entry, fun path => List.Subset.trans (two.older path) (one.older path),
    two.content.trans one.content, fun inode => two.synced inode ∘ one.synced inode,
    two.inodes.trans one.inodes⟩

theorem flush_writeback : Writeback disk disk.flush :=
  ⟨rfl, fun _ => List.nil_subset _, rfl, fun _ _ => rfl, rfl⟩

theorem rewind_powerLoss : PowerLoss disk disk.rewind := by
  refine ⟨_, _, fun path => ?_, rfl⟩
  by_cases settled : disk.older path = []
  · simp [versions, settled]
  · rw [List.getLastD_eq_getLast?, List.getLast?_eq_some_getLast settled]
    exact List.mem_cons_of_mem _ (List.getLast_mem settled)

variable {disk}

/-- Nothing happens to a durable entry when another path changes. -/
theorem put_durable {parent path : Path} {name : String} {value : Option Entry}
    {there : disk.entry parent = some .directory}
    {plain : disk.entry (.child parent name) ≠ some .directory}
    (durable : disk.Durable path) (reached : disk.entry path ≠ none) (apart : path ≠ .child parent name) :
    (disk.put parent name value there plain).Durable path ∧
      (disk.put parent name value there plain).entry path = disk.entry path := by
  induction path with
  | base => exact ⟨trivial, by simp [put]⟩
  | child above below ih =>
      obtain ⟨durableAbove, settled⟩ := durable
      have directory := disk.closed above below reached
      have other : above ≠ .child parent name := fun same => plain (same ▸ directory)
      have kept := (ih durableAbove (by simp [directory]) other).1
      have entry : (disk.put parent name value there plain).entry (.child above below) =
          disk.entry (.child above below) := Function.update_of_ne apart ..
      refine ⟨⟨kept, ?_⟩, entry⟩
      rw [entry]
      simpa only [put, Function.update_of_ne apart] using settled

theorem durable_of_older {before after : Disk γ} {path : Path} (entry : after.entry = before.entry)
    (older : ∀ path, after.older path ⊆ before.older path) (durable : before.Durable path) :
    after.Durable path := by
  induction path with
  | base => trivial
  | child above below ih =>
      refine ⟨ih durable.1, fun version member => ?_⟩
      rw [entry]
      exact durable.2 version (older _ member)

/-- A durable entry is there after any power loss. -/
theorem standing_durable {kept : Path → Option Entry} {path : Path}
    (possible : ∀ path, kept path ∈ disk.versions path) (durable : disk.Durable path) :
    standing kept path = disk.entry path := by
  induction path with
  | base => exact disk.rooted.symm
  | child above below ih =>
      have same : kept (.child above below) = disk.entry (.child above below) := by
        rcases List.mem_cons.mp (possible (.child above below)) with same | older
        · exact same
        · exact durable.2 _ older
      simp only [standing, ih durable.1, same]
      split
      next => rfl
      next lost =>
        by_contra reached
        exact lost (disk.closed above below (Ne.symm reached))

theorem standing_possible {kept : Path → Option Entry} {path : Path} {entry : Entry}
    (possible : ∀ path, kept path ∈ disk.versions path) (left : standing kept path = some entry) :
    some entry ∈ disk.versions path := by
  cases path with
  | base =>
      rw [← left]
      exact List.mem_cons.mpr (.inl disk.rooted.symm)
  | child above below =>
      simp only [standing] at left
      split at left
      next => exact left ▸ possible _
      next => simp at left

theorem reboot_durable {kept : Path → Option Entry} {garbage : Nat → γ} (path : Path) :
    (disk.reboot kept garbage).Durable path := by
  induction path with
  | base => trivial
  | child above below ih => exact ⟨ih, fun _ older => absurd older List.not_mem_nil⟩

/-- The file is there to stay. -/
def Published (disk : Disk γ) (path : Path) (value : γ) : Prop :=
  disk.Durable path ∧ disk.read path = some value

theorem read_eq {path : Path} {value : γ} (there : disk.read path = some value) :
    ∃ inode, disk.entry path = some (.file inode) ∧ disk.content inode = value := by
  unfold read at there
  split at there
  next inode found => exact ⟨inode, found, Option.some.inj there⟩
  next => simp at there

theorem read_file {path : Path} {inode : Nat} (found : disk.entry path = some (.file inode)) :
    disk.read path = some (disk.content inode) := by
  simp [read, found]

end Disk

/-- Where complete files are published, and what they hold. -/
structure Publication (γ : Type) where
  place : Path → Prop
  valid : Path → γ → Prop

namespace Publication

open Disk

variable {γ : Type} (publication : Publication γ) {before after last : Disk γ}

def Complete (disk : Disk γ) (path : Path) (entry : Entry) : Prop :=
  ∃ inode, entry = .file inode ∧ inode < disk.inodes ∧ disk.synced inode = true ∧
    publication.valid path (disk.content inode)

/-- Whatever is at a place of publication, now or after a power loss, is complete. -/
def Sealed (disk : Disk γ) : Prop :=
  ∀ path, publication.place path → ∀ entry, some entry ∈ disk.versions path →
    publication.Complete disk path entry

def Unpublished (disk : Disk γ) (inode : Nat) : Prop :=
  ∀ path, publication.place path → some (.file inode) ∉ disk.versions path

/-- A step that leaves what is published as it is. -/
structure Keeps (before after : Disk γ) : Prop where
  complete : publication.Sealed after
  published : ∀ path, publication.place path → ∀ value, before.Published path value →
    after.Published path value

variable {publication}

theorem Keeps.refl (complete : publication.Sealed before) : publication.Keeps before before :=
  ⟨complete, fun _ _ _ published => published⟩

theorem Keeps.trans (one : publication.Keeps before after) (two : publication.Keeps after last) :
    publication.Keeps before last :=
  ⟨two.complete, fun path place value published =>
    two.published path place value (one.published path place value published)⟩

/-- The inode of a published file. -/
theorem Sealed.published (complete : publication.Sealed before) {path : Path} {value : γ}
    (place : publication.place path) (there : before.read path = some value) :
    ∃ inode, before.entry path = some (.file inode) ∧ before.content inode = value ∧
      inode < before.inodes ∧ before.synced inode = true ∧ publication.valid path value ∧
      ¬publication.Unpublished before inode := by
  obtain ⟨inode, found, holds⟩ := read_eq there
  have listed : some (.file inode) ∈ before.versions path := List.mem_cons.mpr (.inl found.symm)
  obtain ⟨same, equal, below, synced, valid⟩ := complete path place _ listed
  cases equal
  exact ⟨inode, found, holds, below, synced, holds ▸ valid, fun none => none path place listed⟩

/-- What does not touch published files and adds no entries. -/
theorem keeps_of_same (complete : publication.Sealed before) (entry : after.entry = before.entry)
    (older : ∀ path, after.older path ⊆ before.older path) (inodes : before.inodes ≤ after.inodes)
    (same : ∀ inode < before.inodes, ¬publication.Unpublished before inode →
      (before.synced inode = true → after.synced inode = true) ∧
        after.content inode = before.content inode) : publication.Keeps before after := by
  constructor
  · intro path place found listed
    have before_listed : some found ∈ before.versions path := by
      rw [versions, entry] at listed
      rcases List.mem_cons.mp listed with head | tail
      · exact List.mem_cons.mpr (.inl head)
      · exact List.mem_cons_of_mem _ (older path tail)
    obtain ⟨inode, rfl, below, synced, valid⟩ := complete path place found before_listed
    obtain ⟨stays, content⟩ := same inode below fun none => none path place before_listed
    exact ⟨inode, rfl, by omega, stays synced, content ▸ valid⟩
  · intro path place value ⟨durable, there⟩
    obtain ⟨inode, found, holds, below, _, _, referenced⟩ := complete.published place there
    refine ⟨durable_of_older entry older durable, ?_⟩
    rw [read_file (entry ▸ found), (same inode below referenced).2, holds]

/-- A new entry: at a place of publication only a complete file, and only where nothing is. -/
theorem keeps_put (complete : publication.Sealed before) {parent : Path} {name : String}
    {value : Option Entry} {there : before.entry parent = some .directory}
    {plain : before.entry (.child parent name) ≠ some .directory}
    (fresh : publication.place (.child parent name) → before.entry (.child parent name) = none ∧
      ∀ entry, value = some entry → publication.Complete before (.child parent name) entry) :
    publication.Keeps before (before.put parent name value there plain) := by
  constructor
  · intro path place found listed
    by_cases here : path = .child parent name
    · subst here
      simp only [versions, put, Function.update_self, List.mem_cons] at listed
      rcases listed with new | old
      · exact (fresh place).2 found new.symm
      · exact complete _ place found (List.mem_cons.mpr old)
    · simp only [versions, put, Function.update_of_ne here] at listed
      exact complete path place found listed
  · intro path place content ⟨durable, reads⟩
    obtain ⟨inode, found, holds⟩ := read_eq reads
    have apart : path ≠ .child parent name := by
      rintro rfl
      simp [(fresh place).1] at found
    obtain ⟨stays, same⟩ : (before.put parent name value there plain).Durable path ∧ _ :=
      put_durable durable (by simp [found]) apart
    exact ⟨stays, (read_file (same.trans found)).trans (congrArg some holds)⟩

theorem keeps_writeback (complete : publication.Sealed before) (written : Writeback before after) :
    publication.Keeps before after :=
  keeps_of_same complete written.entry written.older (Nat.le_of_eq written.inodes.symm)
    fun inode _ _ => ⟨written.synced inode, by rw [written.content]⟩

theorem keeps_write (complete : publication.Sealed before) {inode : Nat} {value : γ}
    (hidden : publication.Unpublished before inode) :
    publication.Keeps before (before.write inode value) := by
  refine keeps_of_same complete rfl (fun _ => List.Subset.refl _) (Nat.le_refl _) fun other _ referenced => ?_
  have apart : other ≠ inode := fun same => referenced (same ▸ hidden)
  simp [write, Function.update_of_ne apart]

theorem keeps_fsync (complete : publication.Sealed before) {inode : Nat} :
    publication.Keeps before (before.fsync inode) := by
  refine keeps_of_same complete rfl (fun _ => List.Subset.refl _) (Nat.le_refl _) fun other _ _ => ⟨?_, rfl⟩
  intro synced
  simp only [fsync, Function.update_apply]
  split <;> simp [synced]

theorem keeps_mkdir (complete : publication.Sealed before) {path : Path}
    (apart : ¬publication.place path) (made : before.mkdir path = .ok after) :
    publication.Keeps before after := by
  unfold mkdir at made
  split at made
  next => simp at made
  next =>
    split at made
    next =>
      split at made
      next =>
        cases made
        exact keeps_put complete fun place => absurd place apart
      next => simp at made
    next => simp at made

theorem keeps_create (complete : publication.Sealed before) {path : Path} {initial : γ} {inode : Nat}
    (apart : ¬publication.place path) (made : before.create initial path = .ok (inode, after)) :
    publication.Keeps before after ∧ publication.Unpublished after inode ∧
      after.entry path = some (.file inode) ∧
      (∀ other, other ≠ path → after.entry other = before.entry other) ∧ inode < after.inodes := by
  unfold create at made
  split at made
  next => simp at made
  next parent name =>
    split at made
    next there =>
      split at made
      next free =>
        cases made
        have linked : publication.Keeps before (before.put parent name (some (.file before.inodes)) there
            (by simp [free])) := keeps_put complete fun place => absurd place apart
        refine ⟨linked.trans (keeps_of_same linked.complete rfl (fun _ => List.Subset.refl _)
          (Nat.le_succ _) fun other below _ => ?_), ?_, by simp [put], ?_, Nat.lt_succ_self _⟩
        · have older : other ≠ before.inodes := Nat.ne_of_lt below
          simp [put, Function.update_of_ne older]
        · intro path place listed
          have here : path ≠ .child parent name := fun same => apart (same ▸ place)
          simp only [versions, put, Function.update_of_ne here] at listed
          obtain ⟨_, same, below, _⟩ := complete path place _ listed
          cases same
          exact absurd below (Nat.lt_irrefl _)
        · intro other apart
          simp [put, Function.update_of_ne apart]
      next => simp at made
    next => simp at made

theorem keeps_unlink (complete : publication.Sealed before) {path : Path}
    (apart : ¬publication.place path) (removed : before.unlink path = .ok after) :
    publication.Keeps before after := by
  unfold unlink at removed
  split at removed
  next => simp at removed
  next =>
    split at removed
    next => simp at removed
    next => simp at removed
    next =>
      cases removed
      exact keeps_put complete fun place => absurd place apart

theorem entry_unlink {path other : Path} (removed : before.unlink path = .ok after)
    (apart : other ≠ path) : after.entry other = before.entry other := by
  unfold unlink at removed
  split at removed
  next => simp at removed
  next =>
    split at removed
    next => simp at removed
    next => simp at removed
    next =>
      cases removed
      simp [put, Function.update_of_ne apart]

/-- Publishing: a complete file is renamed to where nothing is. -/
theorem keeps_replace (complete : publication.Sealed before) {source path : Path} {inode : Nat}
    (found : before.entry source = some (.file inode)) (apart : ¬publication.place source)
    (distinct : source ≠ path) (free : before.entry path = none)
    (whole : publication.Complete before path (.file inode))
    (replaced : before.replace source path = .ok after) :
    publication.Keeps before after ∧ after.entry path = some (.file inode) := by
  unfold replace at replaced
  split at replaced
  next => simp at replaced
  next parent name =>
    simp only [found, distinct, if_false] at replaced
    split at replaced
    next there =>
      split at replaced
      next plain =>
        have linked : publication.Keeps before (before.put parent name (some (.file inode)) there plain) := by
          refine keeps_put complete fun _ => ⟨free, fun entry same => ?_⟩
          cases same
          exact whole
        refine ⟨linked.trans (keeps_unlink linked.complete apart replaced), ?_⟩
        rw [entry_unlink replaced (Ne.symm distinct)]
        simp [put]
      next => simp at replaced
    next => simp at replaced

theorem keeps_powerLoss (complete : publication.Sealed before) (lost : PowerLoss before after) :
    publication.Keeps before after := by
  obtain ⟨kept, garbage, possible, rfl⟩ := lost
  constructor
  · intro path place entry listed
    have left : standing kept path = some entry := (List.mem_singleton.mp listed).symm
    obtain ⟨inode, rfl, below, synced, valid⟩ := complete path place entry (standing_possible possible left)
    exact ⟨inode, rfl, below, rfl, by simpa [reboot, synced] using valid⟩
  · intro path place value ⟨durable, there⟩
    obtain ⟨inode, found, holds, _, synced, _⟩ := complete.published place there
    have entry : (before.reboot kept garbage).entry path = some (.file inode) :=
      (standing_durable possible durable).trans found
    refine ⟨reboot_durable path, ?_⟩
    rw [read_file entry]
    simp [reboot, synced, holds]

end Publication

end Durability
