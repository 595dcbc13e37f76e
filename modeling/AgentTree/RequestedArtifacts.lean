import AgentTree.EvidenceRuns
import AgentTree.PurePaths

/-!
The artifacts that a caller requests (`evidence.py`, `_artifact_paths`): the parent of a path is
resolved, its last component is not, and containment is decided on the components.
-/

namespace AgentTree.Evidence

open Outcome Pathlib

/-- What paths meet outside of `pathlib`: home directories, and `resolve(strict=True)`, whose
results have no dot-dot components left. -/
structure PathWorld where
  home : Component → Option PurePath
  resolve : PurePath → Except PyError PurePath
  resolved : ∀ {path real}, resolve path = .ok real → real.Plain

def expanduser (world : PathWorld) (path : PurePath) : Except PyError PurePath :=
  match path.isAbsolute, path.parts with
  | false, first :: rest =>
      if first.text.toList.head? = some '~' then do
        let directory ← orRaise (world.home first) (.other "RuntimeError" "Could not determine home directory.")
        return ⟨directory.root, directory.parts ++ rest⟩
      else .ok path
  | _, _ => .ok path

def isWithin (path : PurePath) (roots : List PurePath) : Bool := roots.any fun root => path.RelativeTo root

/-- The resolved parent of a request, and the last component as it was requested. -/
def requestedEntry (world : PathWorld) (cwd : PurePath) (raw : String) :
    Except PyError (PurePath × Option Component) := do
  let expanded ← expanduser world (.read raw)
  let candidate := if expanded.isAbsolute then expanded else cwd.join expanded
  let parent ← world.resolve candidate.parent
  return (parent, candidate.name)

def artifactPath (world : PathWorld) (roots : List PurePath) (cwd : PurePath) (result : List PurePath)
    (raw : String) : Except PyError PurePath := do
  let (parent, name) ← requestedEntry world cwd raw
  let normalized := parent.joinName name
  ensure (isWithin normalized roots)
    (policyViolation ("artifact is outside allowlisted roots: " ++ normalized.text))
  ensure (normalized ∉ result) (policyViolation ("duplicate artifact request: " ++ normalized.text))
  return normalized

def collectPaths (world : PathWorld) (roots : List PurePath) (cwd : PurePath) :
    List String → List PurePath → Except PyError (List PurePath)
  | [], result => .ok result
  | raw :: rest, result => do
      let normalized ← artifactPath world roots cwd result raw
      collectPaths world roots cwd rest (result ++ [normalized])

def artifactPaths (world : PathWorld) (roots : List PurePath) (cwd : PurePath) (artifacts : List String) :
    Except PyError (List PurePath) := collectPaths world roots cwd artifacts []

/-! Where a request leads. -/

/-- The location that an entry names: a last dot-dot is the parent of its directory. -/
def location (entry : PurePath × Option Component) : PurePath :=
  if entry.2 = some dotDot then entry.1.parent else entry.1.joinName entry.2

section Requests

variable {world : PathWorld} {roots : List PurePath} {cwd : PurePath}

theorem artifactPath_ok {result : List PurePath} {raw : String} {path : PurePath} :
    artifactPath world roots cwd result raw = .ok path ↔
      ∃ entry, requestedEntry world cwd raw = .ok entry ∧ path = entry.1.joinName entry.2 ∧
        isWithin path roots = true ∧ path ∉ result := by
  simp only [artifactPath, bind_eq_ok, ensure_eq_ok, pure_eq_ok, decide_eq_true_eq]
  constructor
  · rintro ⟨entry, found, _, inside, _, fresh, rfl⟩
    exact ⟨entry, found, rfl, inside, fresh⟩
  · rintro ⟨entry, found, rfl, inside, fresh⟩
    exact ⟨entry, found, (), inside, (), fresh, rfl⟩

theorem requestedEntry_plain {raw : String} {entry : PurePath × Option Component}
    (found : requestedEntry world cwd raw = .ok entry) : entry.1.Plain := by
  simp only [requestedEntry, bind_eq_ok, pure_eq_ok] at found
  obtain ⟨_, _, real, resolved, rfl⟩ := found
  exact world.resolved resolved

theorem located_entry {entry : PurePath × Option Component} (plain : entry.1.Plain) :
    (entry.1.joinName entry.2).located = location entry := by
  unfold location
  split
  next last => rw [last, plain.located_dotDot]
  next other => rw [(plain.joinName other).located]

/-- The entries of the requests that were accepted, in their order. -/
theorem collectPaths_ok : ∀ {artifacts : List String} {before result : List PurePath},
    collectPaths world roots cwd artifacts before = .ok result → before.Nodup →
    ∃ entries, List.Forall₂ (fun raw entry => requestedEntry world cwd raw = .ok entry) artifacts entries ∧
      result = before ++ entries.map (fun entry => entry.1.joinName entry.2) ∧ result.Nodup ∧
      ∀ entry ∈ entries, isWithin (entry.1.joinName entry.2) roots = true
  | [], before, result, ran, distinct => by
      obtain rfl := Except.ok.inj ran
      exact ⟨[], .nil, by simp, distinct, by simp⟩
  | raw :: rest, before, result, ran, distinct => by
      simp only [collectPaths, bind_eq_ok] at ran
      obtain ⟨path, accepted, ran⟩ := ran
      obtain ⟨entry, found, rfl, inside, fresh⟩ := artifactPath_ok.mp accepted
      have still : (before ++ [entry.1.joinName entry.2]).Nodup :=
        List.nodup_append.mpr ⟨distinct, by simp, fun path member other last same => by
          rw [List.mem_singleton.mp last] at same
          exact fresh (same ▸ member)⟩
      obtain ⟨entries, all, rfl, unique, contained⟩ := collectPaths_ok ran still
      refine ⟨entry :: entries, .cons found all, by simp, unique, fun other member => ?_⟩
      rcases List.mem_cons.mp member with rfl | later
      · exact inside
      · exact contained other later

end Requests

/-- A request for a dot-dot leads into a root, one directory further up than its resolved parent. -/
def StaysInside (world : PathWorld) (roots : List PurePath) (cwd : PurePath) (artifacts : List String) : Prop :=
  ∀ raw ∈ artifacts, ∀ directory, requestedEntry world cwd raw = .ok (directory, some dotDot) →
    isWithin directory.parent roots = true

/-- No other request names the directory that a request for a dot-dot leads to. -/
def NamedOnce (world : PathWorld) (cwd : PurePath) (artifacts : List String) : Prop :=
  artifacts.Pairwise fun one other => ∀ first second, requestedEntry world cwd one = .ok first →
    requestedEntry world cwd other = .ok second → first.2 = some dotDot ∨ second.2 = some dotDot →
    location first ≠ location second

section Pairs

variable {α β : Type} {R : α → β → Prop} {as : List α} {bs : List β}

theorem forall₂_forall (unique : ∀ a b c, R a b → R a c → b = c) (all : List.Forall₂ R as bs) (P : β → Prop) :
    (∀ a ∈ as, ∀ b, R a b → P b) ↔ ∀ b ∈ bs, P b := by
  induction all with
  | nil => simp
  | @cons a b as bs first _ ih =>
      rw [List.forall_mem_cons, List.forall_mem_cons, ih]
      refine and_congr_left fun _ => ⟨fun each => each b first, fun known c related => ?_⟩
      rw [unique a c b related first]
      exact known

theorem forall₂_pairwise (unique : ∀ a b c, R a b → R a c → b = c) (all : List.Forall₂ R as bs)
    (P : β → β → Prop) :
    (as.Pairwise fun x y => ∀ b c, R x b → R y c → P b c) ↔ bs.Pairwise P := by
  induction all with
  | nil => simp
  | @cons a b as bs first rest ih =>
      have later := forall₂_forall unique rest (P b)
      rw [List.pairwise_cons, List.pairwise_cons, ih, ← later]
      refine and_congr_left fun _ => ⟨fun each y member c related => each y member b c first related,
        fun each y member other c leads related => ?_⟩
      rw [unique a other b leads first]
      exact each y member c related

end Pairs

theorem isWithin_iff {path : PurePath} {roots : List PurePath} :
    isWithin path roots = true ↔ ∃ root ∈ roots, path.RelativeTo root := by
  simp [isWithin]

/-- The accepted paths stay below the roots and are distinct locations if and only if
the requests that end in a dot-dot do. -/
theorem artifactPaths_inside (world : PathWorld) (roots : List PurePath) (cwd : PurePath) (artifacts : List String)
    (result : List PurePath) (accepted : artifactPaths world roots cwd artifacts = .ok result) :
    ((∀ path ∈ result, ∃ root ∈ roots, path.located.RelativeTo root) ∧ (result.map PurePath.located).Nodup) ↔
      StaysInside world roots cwd artifacts ∧ NamedOnce world cwd artifacts := by
  obtain ⟨entries, all, rfl, distinct, contained⟩ := collectPaths_ok accepted List.nodup_nil
  rw [List.nil_append] at distinct ⊢
  have unique : ∀ raw first second, requestedEntry world cwd raw = .ok first →
      requestedEntry world cwd raw = .ok second → first = second :=
    fun raw first second one other => Except.ok.inj (one.symm.trans other)
  have plain : ∀ entry ∈ entries, entry.1.Plain :=
    (forall₂_forall unique all fun entry => entry.1.Plain).mp fun _ _ _ found => requestedEntry_plain found
  have places : (entries.map fun entry => entry.1.joinName entry.2).map PurePath.located = entries.map location := by
    rw [List.map_map]
    exact List.map_congr_left fun entry member => located_entry (plain entry member)
  have stays : StaysInside world roots cwd artifacts ↔
      ∀ entry ∈ entries, entry.2 = some dotDot → isWithin entry.1.parent roots = true := by
    rw [← forall₂_forall unique all fun entry => entry.2 = some dotDot → isWithin entry.1.parent roots = true]
    constructor
    · rintro inside raw member ⟨directory, _⟩ found rfl
      exact inside raw member directory found
    · intro inside raw member directory found
      exact inside raw member (directory, some dotDot) found rfl
  have once : NamedOnce world cwd artifacts ↔ entries.Pairwise fun first second =>
      first.2 = some dotDot ∨ second.2 = some dotDot → location first ≠ location second :=
    forall₂_pairwise unique all _
  rw [stays, once, places]
  refine and_congr ?_ ?_
  · constructor
    · intro inside entry member last
      have below := inside _ (List.mem_map_of_mem member)
      rw [located_entry (plain entry member), location, if_pos last] at below
      exact isWithin_iff.mpr below
    · intro inside path member
      obtain ⟨entry, present, rfl⟩ := List.mem_map.mp member
      rw [located_entry (plain entry present), location]
      split
      next last => exact isWithin_iff.mp (inside entry present last)
      next => exact isWithin_iff.mp (contained entry present)
  · rw [List.Nodup, List.pairwise_map]
    constructor
    · intro apart
      refine apart.imp ?_
      intro first second different _
      exact different
    · intro apart
      have spelled : entries.Pairwise fun first second =>
          first.1.joinName first.2 ≠ second.1.joinName second.2 := List.pairwise_map.mp distinct
      refine (apart.and spelled).imp fun {first second} both same => ?_
      -- Without a dot-dot the location is the path itself, and the paths are distinct.
      have neither : ¬(first.2 = some dotDot ∨ second.2 = some dotDot) := fun either => both.1 either same
      rw [not_or] at neither
      rw [location, location, if_neg neither.1, if_neg neither.2] at same
      exact both.2 same

/-! Directories without symlinks, below the one root `/r`. -/

namespace DotDot

def world : PathWorld where
  home _ := none
  resolve path := if path.located.Plain then .ok path.located else .error (.other "OSError" "")
  resolved := by
    intro path real found
    split at found
    next plain => exact Except.ok.inj found ▸ plain
    next => exact absurd found (by simp)

def top : PurePath := .read "/r"

end DotDot

/-- A dot-dot below the root leads to a directory below the root. -/
theorem artifactPaths_inside_below :
    artifactPaths DotDot.world [DotDot.top] DotDot.top ["a/b/..", "c"] = .ok [.read "/r/a/b/..", .read "/r/c"] ∧
      ∀ path ∈ [PurePath.read "/r/a/b/..", .read "/r/c"], ∃ root ∈ [DotDot.top], path.located.RelativeTo root := by
  have accepted : artifactPaths DotDot.world [DotDot.top] DotDot.top ["a/b/..", "c"] =
      .ok [.read "/r/a/b/..", .read "/r/c"] := by decide +kernel
  have first : requestedEntry DotDot.world DotDot.top "a/b/.." = .ok (.read "/r/a/b", some dotDot) := by
    decide +kernel
  have second : requestedEntry DotDot.world DotDot.top "c" = .ok (DotDot.top, Component.read "c") := by decide +kernel
  have plain : Component.read "c" ≠ some dotDot := by decide
  have stays : StaysInside DotDot.world [DotDot.top] DotDot.top ["a/b/..", "c"] := by
    intro raw member directory found
    rcases List.mem_pair.mp member with rfl | rfl
    · obtain ⟨rfl, _⟩ := Prod.mk.inj (Except.ok.inj (first.symm.trans found))
      decide +kernel
    · exact absurd (Prod.mk.inj (Except.ok.inj (second.symm.trans found))).2 plain
  have once : NamedOnce DotDot.world DotDot.top ["a/b/..", "c"] := by
    refine List.pairwise_pair.mpr fun one other foundOne foundOther _ => ?_
    rw [← Except.ok.inj (first.symm.trans foundOne), ← Except.ok.inj (second.symm.trans foundOther)]
    decide +kernel
  exact ⟨accepted, ((artifactPaths_inside DotDot.world [DotDot.top] DotDot.top _ _ accepted).mpr ⟨stays, once⟩).1⟩

/-- The request `..` is accepted, and is the directory above the only root. -/
theorem dotDot_escapes : ∃ path,
    artifactPaths DotDot.world [DotDot.top] DotDot.top [".."] = .ok [path] ∧
      ¬∃ root ∈ [DotDot.top], path.located.RelativeTo root := by
  refine ⟨.read "/r/..", ?_, ?_⟩ <;> decide +kernel

end AgentTree.Evidence
