import AgentTree.KeyRotation
import AgentTree.Pool

/-!
Rotations of one key ring file by several processes.  Nothing locks the file: each rotation reads it, writes a
temporary file byte by byte and renames it into place, and any of them may raise or be killed between two steps.
-/

namespace AgentTree

open Concurrent Outcome Relational

/-- How a process ends early. -/
inductive Halt : Type
  | raised (error : PyError)
  | killed

/-- The directory of the key ring file. -/
structure KeyringDirectory (ι : Type) where
  published : SecretFile
  /-- Who has published the file that stands there. -/
  publisher : Option ι
  temporaries : ι → Option Bytes
  /-- The files that stood there before. -/
  earlier : List SecretFile

namespace KeyringDirectory

def start {ι : Type} (file : SecretFile) : KeyringDirectory ι := ⟨file, none, fun _ => none, []⟩

/-- Every file that was ever published. -/
def files {ι : Type} (directory : KeyringDirectory ι) : List SecretFile := directory.published :: directory.earlier

section Processes

variable {ι : Type} [DecidableEq ι]

def setTemporary (i : ι) (content : Option Bytes) (directory : KeyringDirectory ι) : KeyringDirectory ι :=
  { directory with temporaries := Function.update directory.temporaries i content }

/-- `os.replace` of the temporary file. -/
def replace (i : ι) (directory : KeyringDirectory ι) : Except Halt (Unit × KeyringDirectory ι) :=
  match directory.temporaries i with
  | none => .error (.raised (.other "FileNotFoundError" "temporary file"))
  | some content => .ok ((), {
      published := ⟨.regular, 0o600, content⟩, publisher := some i,
      temporaries := Function.update directory.temporaries i none,
      earlier := directory.published :: directory.earlier })

/-- The path must still lead to the file of this process. -/
def checkPublished (i : ι) (directory : KeyringDirectory ι) : Except Halt (Unit × KeyringDirectory ι) := do
  ensure (directory.publisher = some i) (.raised (.other "OSError" "private-file path changed while publishing"))
  return ((), directory)

abbrev Process (ι : Type) := Prog (KeyringDirectory ι) Halt

def change (effect : KeyringDirectory ι → KeyringDirectory ι) : Process ι Unit :=
  .act effect fun _ => .done (.ok ())

def appendByte (i : ι) (byte : UInt8) : Process ι Unit := do
  Prog.mayRaise
  change fun directory => directory.setTemporary i ((directory.temporaries i).map (· ++ [byte]))

def publish (i : ι) (content : Bytes) : Process ι Unit := do
  Prog.forEach content (appendByte i)
  Prog.mayRaise
  Prog.atomic (replace i)
  Prog.mayRaise
  Prog.atomic (checkPublished i)

/-- A failed cleanup is only noted. -/
def discard (i : ι) : Process ι Unit :=
  (do
    Prog.mayRaise
    change (setTemporary i none)).tryCatch fun halt =>
      match halt with
      | .killed => .done (.error .killed)
      | .raised _ => .done (.ok ())

/-- `_atomic_private_json`. -/
def writeFile (i : ι) (content : Bytes) : Process ι Unit := do
  Prog.mayRaise
  change (setTemporary i (some []))
  (publish i content).tryCatch fun halt =>
    match halt with
    | .killed => .done (.error .killed)
    | .raised error => do
        discard i
        .done (.error (.raised error))
  Prog.mayRaise

/-- `rotate_keyring`. -/
def rotate (floats : Floats) (path : String) (draw : Draw) (i : ι) : Process ι String := do
  Prog.mayRaise
  let rotated ← Prog.atomic fun directory =>
    ((rotateKeyring floats path draw (some directory.published)).mapError Halt.raised).map (·, directory)
  writeFile i rotated.2.content
  return rotated.1

/-- One process a rotation. -/
def service (floats : Floats) (path : String) (draw : ι → Draw) :
    Service ι (KeyringDirectory ι) Halt String where
  call i := rotate floats path (draw i) i
  surroundings _ _ := False
  recovery _ _ := False

end Processes

/-! What a published file holds. -/

section Files

variable {ι : Type} (floats : Floats) (path : String) (keys : Dict String Bytes) (active : String) (draw : ι → Draw)

/-- As long as the file is small enough to be read, it is a whole key ring with every first key, and everything else in
it was drawn by a rotation. -/
def Kept (file : SecretFile) : Prop :=
  file.content.length ≤ maxPrivateJsonBytes → ∃ held name, loadKeyring floats path (some file) = .ok (held, name) ∧
    (∀ keyId key, keys.get? keyId = some key → held.get? keyId = some key) ∧
    (∀ keyId key, held.get? keyId = some key → keys.get? keyId = some key ∨ ∃ i, (keyId, key) = (draw i).entry) ∧
    (name = active ∨ ∃ i, name = (draw i).keyId)

/-- The file that a rotation has written: its own key is there, and active. -/
def WrittenBy (i : ι) (file : SecretFile) : Prop :=
  file.content.length ≤ maxPrivateJsonBytes → ∃ held, loadKeyring floats path (some file) = .ok (held, (draw i).keyId) ∧
    held.get? (draw i).keyId = some (draw i).key

variable {floats path keys active draw} {file after : SecretFile} {keyId : String} {i : ι}

theorem loadKeyring_small {held : Dict String Bytes} {name : String}
    (loaded : loadKeyring floats path (some file) = .ok (held, name)) : file.content.length ≤ maxPrivateJsonBytes := by
  obtain ⟨value, _, read, _, _⟩ := loadKeyring_ok.mp loaded
  obtain ⟨same, found, read⟩ := bind_eq_ok.mp read
  obtain rfl := Option.some.inj (orRaise_eq_ok.mp found)
  obtain ⟨_, _, read⟩ := bind_eq_ok.mp read
  obtain ⟨_, small, _⟩ := bind_eq_ok.mp read
  simpa using ensure_eq_ok.mp small

theorem reload_written {held : Dict String Bytes} {name : String} (long : ∀ entry ∈ held.rows, 32 ≤ entry.2.length)
    (present : name ∈ held.keys)
    (capped : (atomicPrivateJson (keyringPayload name held)).content.length ≤ maxPrivateJsonBytes) :
    ∃ next : Dict String Bytes,
      loadKeyring floats path (some (atomicPrivateJson (keyringPayload name held))) = .ok (next, name) ∧
      ∀ keyId key, next.get? keyId = some key ↔ held.get? keyId = some key := by
  obtain ⟨next, again, perm⟩ := loadKeyring_written long present capped
  refine ⟨next, again, fun keyId key => ?_⟩
  rw [Dict.get?_eq_some, Dict.get?_eq_some, perm.mem_iff]

/-- A rotation reads a whole key ring and writes one, whoever has published it in between. -/
theorem rotate_kept (fresh : ∀ i, (draw i).keyId ∉ keys.keys) (kept : Kept floats path keys active draw file)
    (rotated : rotateKeyring floats path (draw i) (some file) = .ok (keyId, after)) :
    keyId = (draw i).keyId ∧ after = ⟨.regular, 0o600, after.content⟩ ∧ Kept floats path keys active draw after ∧
      WrittenBy floats path draw i after := by
  obtain ⟨⟨held, name⟩, loaded, rest⟩ := bind_eq_ok.mp rotated
  obtain ⟨rfl, rfl⟩ := Prod.mk.inj (pure_eq_ok.mp rest)
  obtain ⟨same, active', read, older, drawn, _⟩ := kept (loadKeyring_small loaded)
  obtain ⟨rfl, rfl⟩ := Prod.mk.inj (Except.ok.inj (read.symm.trans loaded))
  have long : ∀ entry ∈ (same.set (draw i).keyId (draw i).key).rows, 32 ≤ entry.2.length := by
    intro entry member
    rcases Dict.mem_set member with rfl | before
    · exact (draw i).long.ge
    · exact loadKeyring_long loaded entry before
  have own : (same.set (draw i).keyId (draw i).key).get? (draw i).keyId = some (draw i).key := by
    rw [Dict.get?_set, if_pos rfl]
  have present : (draw i).keyId ∈ (same.set (draw i).keyId (draw i).key).keys := by
    rw [← Dict.contains_iff, Dict.contains, own]
    rfl
  refine ⟨rfl, rfl, fun capped => ?_, fun capped => ?_⟩
  · obtain ⟨next, again, entries⟩ := reload_written long present capped
    refine ⟨next, _, again, fun keyId key first => ?_, fun keyId key found => ?_, .inr ⟨i, rfl⟩⟩
    · have other : keyId ≠ (draw i).keyId := by
        rintro rfl
        have known : keys.contains (draw i).keyId = true := by simp [Dict.contains, first]
        exact fresh i (Dict.contains_iff.mp known)
      rw [entries, Dict.get?_set, if_neg other]
      exact older keyId key first
    · rw [entries, Dict.get?_set] at found
      split at found
      next equal => exact .inr ⟨i, by rw [equal, ← Option.some.inj found]; rfl⟩
      next => exact drawn keyId key found
  · obtain ⟨next, again, entries⟩ := reload_written long present capped
    exact ⟨next, again, (entries _ _).mpr own⟩

end Files

/-! Every process keeps what the others rely on. -/

section Contracts

variable {ι : Type} {floats : Floats} {path : String} {keys : Dict String Bytes} {active : String}
  {draw : ι → Draw}

def AllKept (floats : Floats) (path : String) (keys : Dict String Bytes) (active : String) (draw : ι → Draw)
    (directory : KeyringDirectory ι) : Prop := ∀ file ∈ directory.files, Kept floats path keys active draw file

/-- What a process may rely on: its temporary file is its own, and no published file is forgotten. -/
def Leaves (i : ι) (s t : KeyringDirectory ι) : Prop :=
  t.temporaries i = s.temporaries i ∧ ∀ file ∈ s.files, file ∈ t.files

def Promises (i : ι) (s t : KeyringDirectory ι) : Prop := ∀ j, j ≠ i → Leaves j s t

theorem leaves_refl (i : ι) (s : KeyringDirectory ι) : Leaves i s s := ⟨rfl, fun _ member => member⟩

theorem leaves_trans (i : ι) {s t u : KeyringDirectory ι} (first : Leaves i s t) (second : Leaves i t u) :
    Leaves i s u :=
  ⟨second.1.trans first.1, fun file member => second.2 file (first.2 file member)⟩

def rotationContract (floats : Floats) (path : String) (keys : Dict String Bytes) (active : String) (draw : ι → Draw)
    (i : ι) : Contract (KeyringDirectory ι) :=
  ⟨AllKept floats path keys active draw, Leaves i, Promises i, leaves_refl i, leaves_trans i⟩

/-- How a rotation that returns leaves the directory. -/
def Rotated (floats : Floats) (path : String) (draw : ι → Draw) (i : ι) (directory : KeyringDirectory ι) : Prop :=
  directory.temporaries i = none ∧ ∃ file ∈ directory.files, WrittenBy floats path draw i file

theorem Rotated.left {i : ι} {s t : KeyringDirectory ι} (rotated : Rotated floats path draw i s)
    (moved : Leaves i s t) : Rotated floats path draw i t := by
  obtain ⟨gone, file, member, written⟩ := rotated
  exact ⟨moved.1.trans gone, file, moved.2 file member, written⟩

variable [DecidableEq ι] {i : ι} {s : KeyringDirectory ι}

/-- A change of the own temporary file. -/
theorem wp_setTemporary {effect : KeyringDirectory ι → KeyringDirectory ι} (content : Option Bytes)
    (same : ∀ t : KeyringDirectory ι, t.temporaries i = s.temporaries i → effect t = t.setTemporary i content) :
    (change effect).wp (rotationContract floats path keys active draw i)
      (Prog.Returning fun _ t => t.temporaries i = content) s := by
  intro t inv moved
  have step := same t moved.1
  refine ⟨?_, ?_, ?_⟩
  · rw [step]
    exact inv
  · intro j other
    rw [step]
    exact ⟨Function.update_of_ne other _ _, fun _ member => member⟩
  · refine Prog.wp_done fun u _ later _ _ => later.1.trans ?_
    rw [step]
    simp [setTemporary]

theorem wp_append {content written : Bytes} (inv : AllKept floats path keys active draw s)
    (here : s.temporaries i = some written) :
    (Prog.forEach content (appendByte i)).wp (rotationContract floats path keys active draw i)
      (Prog.Returning fun _ t => t.temporaries i = some (written ++ content)) s := by
  induction content generalizing s written with
  | nil => exact Prog.wp_done fun t _ moved _ _ => (moved.1.trans here).trans (by rw [List.append_nil])
  | cons byte rest ih =>
      have one : (appendByte i byte).wp (rotationContract floats path keys active draw i)
          (Prog.Returning fun _ t => t.temporaries i = some (written ++ [byte])) s := by
        refine Prog.wp_then inv (Prog.wp_pause fun t moved => moved.1.trans here) fun _ t _ there => ?_
        refine wp_setTemporary (some (written ++ [byte])) fun u same => ?_
        rw [same, there]
        rfl
      refine Prog.wp_then inv one fun _ t invT appended => ?_
      have later := ih invT appended
      rwa [List.append_assoc] at later

theorem wp_replace {file : SecretFile} (here : s.temporaries i = some file.content)
    (whole : file = ⟨.regular, 0o600, file.content⟩) (kept : Kept floats path keys active draw file)
    (written : WrittenBy floats path draw i file) :
    (Prog.atomic (replace i)).wp (rotationContract floats path keys active draw i)
      (Prog.Returning fun _ => Rotated floats path draw i) s := by
  refine Prog.wp_atomic_total fun t inv moved => ?_
  have there : t.temporaries i = some file.content := moved.1.trans here
  have ran : replace i t = .ok ((), ⟨file, some i, Function.update t.temporaries i none, t.files⟩) := by
    simp only [replace, there]
    rw [← whole]
    rfl
  refine ⟨_, _, ran, ?_, ?_, ?_⟩
  · intro other member
    rcases List.mem_cons.mp member with rfl | before
    · exact kept
    · exact inv other before
  · intro j other
    exact ⟨Function.update_of_ne other _ _, fun _ member => List.mem_cons_of_mem _ member⟩
  · intro u _ later done _
    refine Rotated.left ⟨?_, file, List.mem_cons_self, written⟩ later
    simp

/-- What a process writes is published whole or not at all. -/
theorem wp_publish {file : SecretFile} (inv : AllKept floats path keys active draw s)
    (here : s.temporaries i = some []) (whole : file = ⟨.regular, 0o600, file.content⟩)
    (kept : Kept floats path keys active draw file) (written : WrittenBy floats path draw i file) :
    (publish i file.content).wp (rotationContract floats path keys active draw i)
      (Prog.Returning fun _ => Rotated floats path draw i) s := by
  refine Prog.wp_then inv (wp_append inv here) fun _ t invT ready => ?_
  refine Prog.wp_then invT (Prog.wp_pause fun u moved => moved.1.trans ready) fun _ u invU there => ?_
  refine Prog.wp_then invU (wp_replace there whole kept written) fun _ v invV rotated => ?_
  refine Prog.wp_then invV (Prog.wp_pause fun w moved => rotated.left moved) fun _ w invW rotated => ?_
  refine Prog.wp_atomic ?_ fun x halt _ _ _ => ⟨fun j _ => leaves_refl j x, fun _ _ _ done same => by simp at same⟩
  intro x value y invX since ran
  obtain ⟨_, _, ran⟩ := bind_eq_ok.mp ran
  obtain ⟨-, rfl⟩ := Prod.mk.inj (pure_eq_ok.mp ran)
  exact ⟨invX, fun j _ => leaves_refl j x, fun z _ later _ _ => (rotated.left since).left later⟩

theorem wp_discard (inv : AllKept floats path keys active draw s) :
    (discard i).wp (rotationContract floats path keys active draw i) (Prog.Returning fun _ _ => True) s := by
  refine Prog.wp_handled inv ?_ fun halt t _ => ?_
  · refine Prog.wp_then inv (Prog.wp_pause fun _ _ => trivial) fun _ t _ _ => ?_
    exact Prog.wp_mono (fun _ _ _ _ _ _ => trivial) (wp_setTemporary none fun _ _ => rfl)
  · cases halt with
    | killed => exact Prog.wp_raised
    | raised error => exact Prog.wp_done fun _ _ _ _ _ => trivial

theorem wp_writeFile {file : SecretFile} (inv : AllKept floats path keys active draw s)
    (whole : file = ⟨.regular, 0o600, file.content⟩) (kept : Kept floats path keys active draw file)
    (written : WrittenBy floats path draw i file) :
    (writeFile i file.content).wp (rotationContract floats path keys active draw i)
      (Prog.Returning fun _ => Rotated floats path draw i) s := by
  refine Prog.wp_then inv (Prog.wp_pause fun _ _ => trivial) fun _ t invT _ => ?_
  refine Prog.wp_then invT (wp_setTemporary (some []) fun _ _ => rfl) fun _ u invU empty => ?_
  refine Prog.wp_then invU (Prog.wp_handled invU (wp_publish invU empty whole kept written) fun halt v invV => ?_)
    fun _ v _ published => ?_
  · cases halt with
    | killed => exact Prog.wp_raised
    | raised error => exact Prog.wp_then invV (wp_discard invV) fun _ _ _ _ => Prog.wp_raised
  · exact Prog.wp_pause fun w moved => published.left moved

theorem wp_rotate (fresh : ∀ i, (draw i).keyId ∉ keys.keys) (inv : AllKept floats path keys active draw s) :
    (rotate floats path (draw i) i).wp (rotationContract floats path keys active draw i)
      (Prog.Returning fun keyId t => keyId = (draw i).keyId ∧ Rotated floats path draw i t) s := by
  refine Prog.wp_then inv (Prog.wp_pause fun _ _ => trivial) fun _ t invT _ => ?_
  have reads : (Prog.atomic fun directory =>
      ((rotateKeyring floats path (draw i) (some directory.published)).mapError Halt.raised).map
        fun rotated => (rotated, directory) : Process ι (String × SecretFile)).wp
      (rotationContract floats path keys active draw i) (Prog.Returning fun rotated _ =>
        ∃ before, Kept floats path keys active draw before ∧
          rotateKeyring floats path (draw i) (some before) = .ok rotated) t := by
    refine Prog.wp_atomic ?_ fun u halt _ _ _ =>
      ⟨fun j _ => leaves_refl j u, fun _ _ _ rotated same => by simp at same⟩
    intro u rotated v invU _ ran
    cases read : rotateKeyring floats path (draw i) (some u.published) with
    | error error => simp [read, Except.mapError, Except.map] at ran
    | ok made =>
        simp only [read, Except.mapError, Except.map, Except.ok.injEq, Prod.mk.injEq] at ran
        obtain ⟨rfl, rfl⟩ := ran
        refine ⟨invU, fun j _ => leaves_refl j u, fun _ _ _ rotated same => ?_⟩
        obtain rfl := Except.ok.inj same
        exact ⟨u.published, invU _ List.mem_cons_self, read⟩
  refine Prog.wp_then invT reads fun rotated u invU read => ?_
  obtain ⟨before, kept, made⟩ := read
  obtain ⟨named, whole, keeps, written⟩ := rotate_kept fresh kept made
  refine Prog.wp_then invU (wp_writeFile invU whole keeps written) fun _ v _ ends => ?_
  refine Prog.wp_done fun w _ moved keyId same => ?_
  obtain rfl := Except.ok.inj same
  exact ⟨named, ends.left moved⟩

def verified (floats : Floats) (path : String) (keys : Dict String Bytes) (active : String) (draw : ι → Draw)
    (fresh : ∀ i, (draw i).keyId ∉ keys.keys) : (service floats path draw).Verified where
  inv := AllKept floats path keys active draw
  rely := Leaves
  guar := Promises
  pre _ _ := True
  post i result directory :=
    ∀ keyId, result = .ok keyId → keyId = (draw i).keyId ∧ Rotated floats path draw i directory
  dead _ _ := True
  rely_refl := leaves_refl
  rely_trans := leaves_trans
  compatible other _ _ promised := promised _ (Ne.symm other)
  pre_stable _ _ _ ready := ready
  post_stable _ _ moved exit keyId same := ⟨(exit keyId same).1, (exit keyId same).2.left moved⟩
  dead_stable _ _ _ dead := dead
  surroundings_kept _ moved := moved.elim
  recovery_kept _ moved := moved.elim
  calls_kept inv _ := wp_rotate fresh inv

end Contracts

end KeyringDirectory

end AgentTree
