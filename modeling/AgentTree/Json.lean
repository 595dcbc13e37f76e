import AgentTree.Table
import Mathlib.Algebra.GroupWithZero.Nat
import Mathlib.Data.List.Lex
import Mathlib.Data.List.Sort

/-!
JSON values as the Python code holds them, and their canonical encoding
(`canonical_json_bytes` in `crypto.py`).  A float is held by its `repr`, and an
object keeps its insertion order.
-/

namespace AgentTree

abbrev Bytes := List UInt8

def utf8 (text : String) : Bytes := text.toUTF8.data.toList

/-- The text of bytes that are all ASCII. -/
def asciiText (bytes : Bytes) : String := String.ofList (bytes.map fun b => Char.ofNat b.toNat)

inductive Json : Type
  | null
  | bool (value : Bool)
  | int (value : Int)
  | float (text : String)
  | str (value : String)
  | arr (items : List Json)
  | obj (members : List (String × Json))

namespace Json

mutual

def decEq : (left right : Json) → Decidable (left = right)
  | null, null => .isTrue rfl
  | bool a, bool b => if h : a = b then .isTrue (by rw [h]) else .isFalse (by simpa using h)
  | int a, int b => if h : a = b then .isTrue (by rw [h]) else .isFalse (by simpa using h)
  | float a, float b => if h : a = b then .isTrue (by rw [h]) else .isFalse (by simpa using h)
  | str a, str b => if h : a = b then .isTrue (by rw [h]) else .isFalse (by simpa using h)
  | arr a, arr b => match decEqItems a b with
      | .isTrue h => .isTrue (by rw [h])
      | .isFalse h => .isFalse (by simpa using h)
  | obj a, obj b => match decEqMembers a b with
      | .isTrue h => .isTrue (by rw [h])
      | .isFalse h => .isFalse (by simpa using h)
  | null, bool _ | null, int _ | null, float _ | null, str _ | null, arr _ | null, obj _
  | bool _, null | bool _, int _ | bool _, float _ | bool _, str _ | bool _, arr _ | bool _, obj _
  | int _, null | int _, bool _ | int _, float _ | int _, str _ | int _, arr _ | int _, obj _
  | float _, null | float _, bool _ | float _, int _ | float _, str _ | float _, arr _ | float _, obj _
  | str _, null | str _, bool _ | str _, int _ | str _, float _ | str _, arr _ | str _, obj _
  | arr _, null | arr _, bool _ | arr _, int _ | arr _, float _ | arr _, str _ | arr _, obj _
  | obj _, null | obj _, bool _ | obj _, int _ | obj _, float _ | obj _, str _ | obj _, arr _ =>
      .isFalse nofun

def decEqItems : (left right : List Json) → Decidable (left = right)
  | [], [] => .isTrue rfl
  | a :: as, b :: bs => match decEq a b, decEqItems as bs with
      | .isTrue first, .isTrue rest => .isTrue (by rw [first, rest])
      | .isFalse first, _ => .isFalse fun same => first (List.cons.inj same).1
      | _, .isFalse rest => .isFalse fun same => rest (List.cons.inj same).2
  | [], _ :: _ | _ :: _, [] => .isFalse nofun

def decEqMembers : (left right : List (String × Json)) → Decidable (left = right)
  | [], [] => .isTrue rfl
  | (name, a) :: as, (other, b) :: bs =>
      if named : name = other then
        match decEq a b, decEqMembers as bs with
        | .isTrue first, .isTrue rest => .isTrue (by rw [named, first, rest])
        | .isFalse first, _ => .isFalse fun same => first (Prod.mk.inj (List.cons.inj same).1).2
        | _, .isFalse rest => .isFalse fun same => rest (List.cons.inj same).2
      else .isFalse fun same => named (Prod.mk.inj (List.cons.inj same).1).1
  | [], _ :: _ | _ :: _, [] => .isFalse nofun

end

instance : DecidableEq Json := decEq

/-- `dict.get(name)`; `none` also for a value that is not an object. -/
def get? (value : Json) (name : String) : Option Json :=
  match value with
  | obj members => (members.find? fun member => member.1 = name).map Prod.snd
  | _ => none

/-- The order of the UTF-8 bytes is the order of the code points. -/
def nameOrder (name : String) : List Nat := (utf8 name).map UInt8.toNat

mutual

/-- The value with the keys of every object in code point order. -/
def canonical : Json → Json
  | arr items => arr (canonicalItems items)
  | obj members => obj ((canonicalMembers members).insertionSort fun a b => nameOrder a.1 ≤ nameOrder b.1)
  | value => value

def canonicalItems : List Json → List Json
  | [] => []
  | item :: rest => item.canonical :: canonicalItems rest

def canonicalMembers : List (String × Json) → List (String × Json)
  | [] => []
  | (name, value) :: rest => (name, value.canonical) :: canonicalMembers rest

end

theorem canonicalMembers_eq (members : List (String × Json)) :
    canonicalMembers members = members.map fun member => (member.1, member.2.canonical) := by
  induction members with
  | nil => rfl
  | cons member rest ih =>
      obtain ⟨name, value⟩ := member
      simp [canonicalMembers, ih]

mutual

/-- The canonical value is its own canonical value. -/
theorem canonical_canonical : (value : Json) → value.canonical.canonical = value.canonical
  | null | bool _ | int _ | float _ | str _ => rfl
  | arr items => by
      simp only [canonical]
      rw [canonicalItems_canonical items]
  | obj members => by
      have fixed : canonicalMembers ((canonicalMembers members).insertionSort fun a b => nameOrder a.1 ≤ nameOrder b.1) =
          (canonicalMembers members).insertionSort fun a b => nameOrder a.1 ≤ nameOrder b.1 := by
        rw [canonicalMembers_eq]
        refine (List.map_congr_left fun member present => ?_).trans (List.map_id _)
        have same := canonicalMembers_canonical members member (List.mem_insertionSort _ |>.mp present)
        exact Prod.ext rfl same
      simp only [canonical]
      rw [fixed, (List.pairwise_insertionSort _ _).insertionSort_eq]

theorem canonicalItems_canonical : (items : List Json) →
    canonicalItems (canonicalItems items) = canonicalItems items
  | [] => rfl
  | item :: rest => by
      simp only [canonicalItems]
      rw [canonical_canonical item, canonicalItems_canonical rest]

theorem canonicalMembers_canonical : (members : List (String × Json)) →
    ∀ member ∈ canonicalMembers members, member.2.canonical = member.2
  | [] => by simp [canonicalMembers]
  | (name, value) :: rest => by
      intro member present
      simp only [canonicalMembers, List.mem_cons] at present
      rcases present with rfl | present
      · exact canonical_canonical value
      · exact canonicalMembers_canonical rest member present

end

mutual

/-- `_validate_json`: floats must be finite; the other conditions hold by type. -/
def valid : Json → Bool
  | float text => text ≠ "nan" && text ≠ "inf" && text ≠ "-inf"
  | arr items => validItems items
  | obj members => validMembers members
  | _ => true

def validItems : List Json → Bool
  | [] => true
  | item :: rest => item.valid && validItems rest

def validMembers : List (String × Json) → Bool
  | [] => true
  | (_, value) :: rest => value.valid && validMembers rest

end

def hexDigit (n : Nat) : UInt8 := UInt8.ofNat (if n < 10 then 48 + n else 87 + n)

/-- The characters that JSON escapes are single bytes, and no other character has such a byte. -/
def escapeByte (b : UInt8) : Bytes :=
  if b = 0x22 then utf8 "\\\""
  else if b = 0x5c then utf8 "\\\\"
  else if b = 0x0a then utf8 "\\n"
  else if b = 0x0d then utf8 "\\r"
  else if b = 0x09 then utf8 "\\t"
  else if b = 0x08 then utf8 "\\b"
  else if b = 0x0c then utf8 "\\f"
  else if b < 0x20 then utf8 "\\u00" ++ [hexDigit (b.toNat / 16), hexDigit (b.toNat % 16)]
  else [b]

def quote (text : String) : Bytes := utf8 "\"" ++ (utf8 text).flatMap escapeByte ++ utf8 "\""

mutual

def encode : Json → Bytes
  | null => utf8 "null"
  | bool true => utf8 "true"
  | bool false => utf8 "false"
  | int value => utf8 (toString value)
  | float text => utf8 text
  | str value => quote value
  | arr items => utf8 "[" ++ encodeItems items ++ utf8 "]"
  | obj members => utf8 "\x7b" ++ encodeMembers members ++ utf8 "\x7d"

def encodeItems : List Json → Bytes
  | [] => []
  | [item] => item.encode
  | item :: next :: rest => item.encode ++ utf8 "," ++ encodeItems (next :: rest)

def encodeMembers : List (String × Json) → Bytes
  | [] => []
  | [(name, value)] => quote name ++ utf8 ":" ++ value.encode
  | (name, value) :: next :: rest =>
      quote name ++ utf8 ":" ++ value.encode ++ utf8 "," ++ encodeMembers (next :: rest)

end

def optional (f : α → Json) : Option α → Json
  | none => null
  | some value => f value

end Json

/-- The bytes that `canonical_json_bytes` returns for a value it accepts. -/
def canonicalBytes (value : Json) : Bytes := value.canonical.encode

example : canonicalBytes (.obj [("b", .arr [.int (-2), .null]), ("a", .str "x\"y")]) =
    utf8 "\x7b\"a\":\"x\\\"y\",\"b\":[-2,null]\x7d" := by decide +kernel

end AgentTree
