import Mathlib.Data.List.Infix

/-!
POSIX paths as `pathlib` reads them: a root and components, with the lexical `parent`, `name` and
`relative_to`, and the location of a path once its dot-dot components are resolved.
-/

namespace Pathlib

/-- A component of a path: an empty one or a single dot is dropped where a path is read. -/
structure Component where
  text : String
  kept : text ≠ "" ∧ text ≠ "."
  single : '/' ∉ text.toList
  deriving DecidableEq

def Component.read (text : String) : Option Component :=
  if accepted : (text ≠ "" ∧ text ≠ ".") ∧ '/' ∉ text.toList then some ⟨text, accepted.1, accepted.2⟩ else none

def dotDot : Component := ⟨"..", by decide, by decide⟩

/-- Two slashes at the start are kept apart from one; three or more are one. -/
inductive Root : Type
  | relative
  | slash
  | doubleSlash
  deriving DecidableEq

structure PurePath where
  root : Root
  parts : List Component
  deriving DecidableEq

def splitRoot : List Char → Root × List Char
  | '/' :: '/' :: '/' :: rest => (.slash, rest)
  | '/' :: '/' :: rest => (.doubleSlash, rest)
  | '/' :: rest => (.slash, rest)
  | rest => (.relative, rest)

namespace PurePath

def read (text : String) : PurePath where
  root := (splitRoot text.toList).1
  parts := ((splitRoot text.toList).2.splitOn '/').filterMap fun piece => Component.read (String.ofList piece)

def isAbsolute (path : PurePath) : Bool := path.root ≠ .relative

def parent (path : PurePath) : PurePath := ⟨path.root, path.parts.dropLast⟩

/-- The last component; `none` stands for the empty name of a path without components. -/
def name (path : PurePath) : Option Component := path.parts.getLast?

def joinName (path : PurePath) (name : Option Component) : PurePath := ⟨path.root, path.parts ++ name.toList⟩

def join (path other : PurePath) : PurePath :=
  if other.isAbsolute then other else ⟨path.root, path.parts ++ other.parts⟩

def text (path : PurePath) : String :=
  match path.root, path.parts with
  | .relative, [] => "."
  | .relative, parts => "/".intercalate (parts.map Component.text)
  | .slash, parts => "/" ++ "/".intercalate (parts.map Component.text)
  | .doubleSlash, parts => "//" ++ "/".intercalate (parts.map Component.text)

/-- `relative_to` does not raise: it compares the components, and nothing of the file system. -/
def RelativeTo (path root : PurePath) : Prop := path.root = root.root ∧ root.parts <+: path.parts

instance (path root : PurePath) : Decidable (path.RelativeTo root) :=
  inferInstanceAs (Decidable (path.root = root.root ∧ root.parts <+: path.parts))

/-- The parent of the root is the root. -/
def resolveStep (seen : List Component) (part : Component) : List Component :=
  if part = dotDot then seen.dropLast else seen ++ [part]

/-- The location of a path through directories that are no symlinks. -/
def located (path : PurePath) : PurePath := ⟨path.root, path.parts.foldl resolveStep []⟩

/-- A path without dot-dot components. -/
def Plain (path : PurePath) : Prop := ∀ part ∈ path.parts, part ≠ dotDot

instance (path : PurePath) : Decidable path.Plain :=
  inferInstanceAs (Decidable (∀ part ∈ path.parts, part ≠ dotDot))

variable {path root : PurePath} {name : Option Component}

@[simp] theorem joinName_root : (path.joinName name).root = path.root := rfl

@[simp] theorem parent_root : path.parent.root = path.root := rfl

theorem foldl_resolveStep {parts : List Component} (plain : ∀ part ∈ parts, part ≠ dotDot) (seen : List Component) :
    parts.foldl resolveStep seen = seen ++ parts := by
  induction parts generalizing seen with
  | nil => simp
  | cons part rest ih =>
      have kept : resolveStep seen part = seen ++ [part] := if_neg (plain part List.mem_cons_self)
      rw [List.foldl_cons, kept, ih fun other member => plain other (List.mem_cons_of_mem _ member)]
      simp

theorem Plain.located (plain : path.Plain) : path.located = path := by
  rw [PurePath.located, foldl_resolveStep plain, List.nil_append]

theorem Plain.joinName (plain : path.Plain) (other : name ≠ some dotDot) : (path.joinName name).Plain := by
  intro part member
  rcases List.mem_append.mp member with before | last
  · exact plain part before
  · rw [Option.mem_toList] at last
    rintro rfl
    exact other last

/-- A last dot-dot takes back the component before it. -/
theorem Plain.located_dotDot (plain : path.Plain) : (path.joinName (some dotDot)).located = path.parent := by
  have back : resolveStep path.parts dotDot = path.parts.dropLast := if_pos rfl
  rw [PurePath.located, PurePath.joinName, List.foldl_append, foldl_resolveStep plain, List.nil_append, Option.toList_some,
    List.foldl_cons, List.foldl_nil, back]
  rfl

end PurePath

end Pathlib
