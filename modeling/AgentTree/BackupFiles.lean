import AgentTree.BackupRestore

/-!
The functions of `backup.py` that write files: what they leave when they return, and when they are interrupted.
-/

namespace AgentTree.Backup

open Outcome Relational Concurrent

namespace File

variable {σ : Type} {file : File σ} {s t : σ} {data : Bytes}

section Strict

theorem strict_throw {α : Type} (error : PyError) : (throw error : Prog σ PyError α).Raises := trivial

theorem strict_exclusively {body : Prog σ PyError Unit} (strict : body.Strict) : (file.exclusively body).Strict :=
  Prog.Strict.bind (Prog.strict_exposed _) fun _ => Prog.Strict.tryCatch strict fun error =>
    Prog.Raises.after fun _ => strict_throw error

theorem strict_append (data : Bytes) : (file.append data).Strict :=
  Prog.strict_forEach fun _ _ => Prog.strict_exposed _

theorem strict_writePrivate (data : Bytes) : (file.writePrivate data).Strict :=
  strict_exclusively (Prog.Strict.bind (strict_append data) fun _ => Prog.strict_mayRaise)

theorem strict_copyPrivate (source : σ → Option Bytes) : (file.copyPrivate source).Strict :=
  strict_exclusively (Prog.Strict.bind (Prog.strict_exposed _) fun data =>
    Prog.Strict.bind (strict_append data) fun _ => Prog.strict_mayRaise)

theorem strict_copyBytes (cap size : Nat) (data : Bytes) : (file.copyBytes cap size data).Strict := by
  induction data generalizing size with
  | nil => trivial
  | cons b rest ih =>
      exact Prog.Strict.bind (Prog.strict_require _ _) fun _ => Prog.Strict.bind (Prog.strict_exposed _) fun _ => ih _

theorem strict_copyVerified (sha256 : Bytes → String) (info : ZipInfo) (expectedSize : Nat) (expectedDigest : String)
    (cap : Nat) : (file.copyVerified sha256 info expectedSize expectedDigest cap).Strict :=
  Prog.Strict.bind (Prog.strict_require _ _) fun _ => strict_exclusively
    (Prog.Strict.bind (strict_copyBytes _ _ _) fun _ => Prog.Strict.bind trivial fun _ =>
      Prog.Strict.bind Prog.strict_mayRaise fun _ => Prog.strict_require _ _)

end Strict

/-! Runs that nothing interrupts. -/

section Alone

theorem create_alone : file.create.alone s = (.ok (), t) ↔ file.read s = none ∧ t = file.write [] s := by
  rw [create, Prog.alone_exposed_ok]
  cases file.read s <;> simp [eq_comm]

theorem append_alone (old data : Bytes) (s : σ) :
    (file.append data).alone (file.write old s) = (.ok (), file.write (old ++ data) s) := by
  induction data generalizing old with
  | nil => simp [append, Prog.forEach, Prog.alone]
  | cons b rest ih =>
      have first : (file.appendByte b).alone (file.write old s) = (.ok (), file.write (old ++ [b]) s) := by
        rw [appendByte, Prog.alone_exposed_ok, file.read_write, file.write_write]
        rfl
      have later := ih (old ++ [b])
      rw [List.append_assoc, List.singleton_append] at later
      exact Prog.alone_bind_ok.mpr ⟨(), _, first, later⟩

theorem exclusively_alone {body : Prog σ PyError Unit} : (file.exclusively body).alone s = (.ok (), t) ↔
    file.read s = none ∧ body.alone (file.write [] s) = (.ok (), t) := by
  have handled : ∀ u, (body.tryCatch fun error => do
      file.discard
      throw error).alone u = (.ok (), t) ↔ body.alone u = (.ok (), t) := by
    intro u
    rw [Prog.alone_tryCatch]
    split
    next same => rw [same]
    next error v same =>
      rw [same]
      have raises : ((file.discard).bind fun _ => (throw error : Prog σ PyError Unit)).Raises :=
        Prog.Raises.after fun _ => strict_throw error
      constructor
      · intro returned
        have exit := Prog.exits_alone ((file.discard).bind fun _ => (throw error : Prog σ PyError Unit)) v
        rw [show ((file.discard).bind fun _ => (throw error : Prog σ PyError Unit)).alone v = (.ok (), t) from returned]
          at exit
        exact absurd exit raises.exits
      · simp
  rw [exclusively]
  constructor
  · intro returned
    obtain ⟨_, u, created, later⟩ := Prog.alone_bind_ok.mp returned
    obtain ⟨fresh, rfl⟩ := create_alone.mp created
    exact ⟨fresh, (handled _).mp later⟩
  · rintro ⟨fresh, later⟩
    exact Prog.alone_bind_ok.mpr ⟨(), _, create_alone.mpr ⟨fresh, rfl⟩, (handled _).mpr later⟩

theorem written_alone (data : Bytes) (s : σ) :
    (file.append data >>= fun _ => Prog.mayRaise).alone (file.write [] s) = (.ok (), file.write data s) :=
  Prog.alone_bind_ok.mpr ⟨(), _, append_alone [] data s, rfl⟩

theorem writePrivate_alone {result : Unit} : (file.writePrivate data).alone s = (.ok result, t) ↔
    file.read s = none ∧ t = file.write data s := by
  rw [writePrivate, exclusively_alone, written_alone]
  simp [eq_comm]

theorem copyPrivate_alone {source : σ → Option Bytes} {result : Unit} : (file.copyPrivate source).alone s = (.ok result, t) ↔
    file.read s = none ∧ ∃ data, source (file.write [] s) = some data ∧ t = file.write data s := by
  rw [copyPrivate, exclusively_alone]
  refine and_congr_right fun _ => ?_
  constructor
  · intro returned
    obtain ⟨data, u, found, later⟩ := Prog.alone_bind_ok.mp returned
    rw [Prog.alone_exposed_ok] at found
    simp only [bind_eq_ok, orRaise_eq_ok, pure_eq_ok, Prod.mk.injEq] at found
    obtain ⟨_, there, rfl, rfl⟩ := found
    rw [written_alone] at later
    simp only [Prod.mk.injEq, true_and] at later
    exact ⟨_, there, later.symm⟩
  · rintro ⟨data, there, rfl⟩
    refine Prog.alone_bind_ok.mpr ⟨data, _, Prog.alone_exposed_ok.mpr ?_, written_alone data s⟩
    simp [there, orRaise, bind, Except.bind, pure, Except.pure]

theorem copyBytes_alone (cap size : Nat) (old data : Bytes) (s : σ) :
    (file.copyBytes cap size data).alone (file.write old s) = (.ok (), t) ↔
      (data = [] ∨ size + data.length ≤ cap) ∧ t = file.write (old ++ data) s := by
  induction data generalizing old size with
  | nil => simp [copyBytes, Prog.alone, pure, eq_comm]
  | cons b rest ih =>
      have first : (file.appendByte b).alone (file.write old s) = (.ok (), file.write (old ++ [b]) s) := by
        rw [appendByte, Prog.alone_exposed_ok, file.read_write, file.write_write]
        rfl
      rw [copyBytes]
      by_cases room : size < cap
      · have later := ih (size + 1) (old ++ [b])
        rw [List.append_assoc, List.singleton_append] at later
        constructor
        · intro returned
          obtain ⟨_, u, passed, returned⟩ := Prog.alone_bind_ok.mp returned
          obtain ⟨_, v, added, returned⟩ := Prog.alone_bind_ok.mp returned
          simp only [room, decide_true, Prog.require, ↓reduceIte, Prog.alone, Prod.mk.injEq, true_and] at passed
          obtain rfl := passed
          rw [first] at added
          simp only [Prod.mk.injEq, true_and] at added
          obtain rfl := added
          obtain ⟨fits, rfl⟩ := later.mp returned
          refine ⟨.inr ?_, rfl⟩
          rcases fits with rfl | fits
          · exact room
          · simp only [List.length_cons]
            omega
        · rintro ⟨fits, rfl⟩
          refine Prog.alone_bind_ok.mpr ⟨(), _, by simp only [room, decide_true]; rfl,
            Prog.alone_bind_ok.mpr ⟨(), _, first, later.mpr ⟨.inr ?_, rfl⟩⟩⟩
          simp only [List.length_cons, reduceCtorEq, false_or] at fits
          omega
      · constructor
        · intro returned
          obtain ⟨_, u, passed, _⟩ := Prog.alone_bind_ok.mp returned
          simp [room, Prog.require, Prog.alone] at passed
        · rintro ⟨fits, _⟩
          simp only [List.length_cons, reduceCtorEq, false_or] at fits
          omega

theorem copyVerified_alone {sha256 : Bytes → String} {info : ZipInfo} {expectedSize cap : Nat} {expectedDigest : String}
    {result : Unit} : (file.copyVerified sha256 info expectedSize expectedDigest cap).alone s = (.ok result, t) ↔
      (info.fileSize ≤ cap ∧ info.fileSize = expectedSize) ∧ file.read s = none ∧ info.failure = none ∧
      info.content.length = expectedSize ∧ sha256 info.content = expectedDigest ∧ t = file.write info.content s := by
  rw [copyVerified]
  by_cases sized : info.fileSize ≤ cap ∧ info.fileSize = expectedSize
  · have passed : (decide (info.fileSize ≤ cap) && decide (info.fileSize = expectedSize)) = true := by simpa using sized
    rw [passed]
    change (file.exclusively _).alone s = _ ↔ _
    rw [exclusively_alone]
    refine Iff.trans (and_congr_right fun _ => ?_) (and_iff_right sized).symm
    constructor
    · intro returned
      obtain ⟨_, u, copied, returned⟩ := Prog.alone_bind_ok.mp returned
      obtain ⟨_, rfl⟩ := (copyBytes_alone cap 0 [] info.content s).mp copied
      cases failure : info.failure with
      | some error => simp [failure, Prog.ofExcept, bind, Prog.bind, Prog.alone] at returned
      | none =>
          by_cases matched : info.content.length = expectedSize ∧ sha256 info.content = expectedDigest
          · rw [failure] at returned
            simp only [matched, decide_true] at returned
            have same : ((.ok (), file.write ([] ++ info.content) s) : Except PyError Unit × σ) = (.ok (), t) := returned
            simp only [List.nil_append, Prod.mk.injEq, true_and] at same
            exact ⟨rfl, matched.1, matched.2, same.symm⟩
          · have refused : (decide (info.content.length = expectedSize) &&
                decide (sha256 info.content = expectedDigest)) = false := by simpa using matched
            rw [failure, refused] at returned
            have never : ((.error (backupError "bundle member hash or size mismatch"), file.write ([] ++ info.content) s) :
                Except PyError Unit × σ) = (.ok (), t) := returned
            simp at never
    · rintro ⟨failure, long, digest, rfl⟩
      have fits : info.content = [] ∨ 0 + info.content.length ≤ cap := .inr (by omega)
      refine Prog.alone_bind_ok.mpr ⟨(), _, (copyBytes_alone cap 0 [] info.content s).mpr ⟨fits, rfl⟩, ?_⟩
      rw [failure]
      simp only [long, digest, decide_true, Bool.and_self, List.nil_append]
      rfl
  · have refused : (decide (info.fileSize ≤ cap) && decide (info.fileSize = expectedSize)) = false := by
      simpa using sized
    rw [refused]
    constructor
    · intro returned
      simp [Prog.require, bind, Prog.bind, Prog.alone] at returned
    · exact fun holds => absurd holds.1 sized

end Alone

/-! Runs that may be interrupted. -/

section Interrupted

variable {inv : σ → Prop} {post : Except PyError Unit → σ → Prop}

theorem solo_append {old : Bytes} (parts : ∀ part, part <+: data → inv (file.write (old ++ part) s))
    (raises : ∀ error part, part <+: data → post (.error error) (file.write (old ++ part) s))
    (returns : post (.ok ()) (file.write (old ++ data) s)) :
    (file.append data).wp (Prog.solo inv) post (file.write old s) := by
  induction data generalizing old with
  | nil => exact Prog.solo_done (by simpa using returns)
  | cons b rest ih =>
      have start : inv (file.write old s) := by simpa using parts [] (List.nil_prefix)
      have raised : ∀ error, post (.error error) (file.write old s) := fun error => by
        simpa using raises error [] List.nil_prefix
      have longer : ∀ part, part <+: rest → b :: part <+: b :: rest := fun part short =>
        List.cons_prefix_cons.mpr ⟨rfl, short⟩
      refine Prog.wp_bind start (Prog.solo_exposed raised ?_)
      intro _ t ran
      rw [file.read_write, file.write_write] at ran
      obtain rfl : file.write (old ++ [b]) s = t := by simpa using ran
      refine ⟨?_, ih ?_ ?_ ?_⟩
      · exact parts [b] (longer [] List.nil_prefix)
      · intro part short
        simpa using parts (b :: part) (longer part short)
      · intro error part short
        simpa using raises error (b :: part) (longer part short)
      · simpa using returns

theorem solo_discard (start : inv s) (removed : inv (file.unlink s)) (stays : ∀ outcome, post outcome s)
    (gone : post (.ok ()) (file.unlink s)) : file.discard.wp (Prog.solo inv) post s := by
  have handles : ∀ error : PyError, (Prog.require (error.typeName = "FileNotFoundError") error).wp (Prog.solo inv) post s := by
    intro error
    refine Prog.wp_require ?_ ?_
    · rintro _ t _ rfl
      exact stays _
    · rintro t _ rfl
      exact stays _
  refine Prog.wp_tryCatch start (Prog.solo_exposed handles ?_)
  intro _ t ran
  split at ran
  next =>
    obtain rfl : file.unlink s = t := by simpa using ran
    exact ⟨removed, gone⟩
  next => simp at ran

/-- Writing a file leaves a part of it, or nothing, or all. -/
theorem solo_writePrivate (start : inv s) (parts : ∀ part, part <+: data → inv (file.write part s))
    (undone : ∀ part, part <+: data → inv (file.unlink (file.write part s)))
    (returns : file.read s = none → post (.ok ()) (file.write data s)) (refused : ∀ error, post (.error error) s)
    (left : ∀ error part, part <+: data → post (.error error) (file.write part s))
    (gone : ∀ error part, part <+: data → post (.error error) (file.unlink (file.write part s))) :
    (file.writePrivate data).wp (Prog.solo inv) post s := by
  have cleans : ∀ error part, part <+: data → ((file.discard).bind fun _ => (throw error : Prog σ PyError Unit)).wp
      (Prog.solo inv) post (file.write part s) := by
    intro error part short
    refine Prog.wp_bind (parts part short) (solo_discard (parts part short) (undone part short) ?_ ?_)
    · rintro (raised | _)
      · exact left raised part short
      · exact Prog.solo_done (left error part short)
    · exact Prog.solo_done (gone error part short)
  refine Prog.wp_bind start (Prog.solo_exposed refused ?_)
  intro _ t ran
  split at ran
  next => simp at ran
  next fresh =>
    obtain rfl : file.write [] s = t := by simpa using ran
    have empty := parts [] List.nil_prefix
    refine ⟨empty, Prog.wp_tryCatch empty (Prog.wp_bind empty (solo_append ?_ ?_ ?_))⟩
    · simpa using parts
    · intro error part short
      exact cleans error part (by simpa using short)
    · refine Prog.solo_mayRaise ?_
      rintro (error | _)
      · exact cleans error data (List.prefix_refl _)
      · exact returns fresh

end Interrupted

end File

end AgentTree.Backup
