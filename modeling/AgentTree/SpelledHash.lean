import AgentTree.EngineCore

/-!
A digest that is injective: the value spelled out in tokens.  It stands in for SHA-256
where a run of the engine is evaluated.
-/

namespace AgentTree.Engine

inductive Token (F : Type) : Type
  | null
  | bool (value : Bool)
  | int (value : Int)
  | num (value : F)
  | str (text : String)
  | hash (length : Nat)
  | arr
  | obj
  | name (text : String)
  | stop
  deriving DecidableEq

namespace Token

variable {F : Type}

mutual

def spell : Value F (List (Token F)) → List (Token F)
  | .null => [null]
  | .bool value => [bool value]
  | .int value => [int value]
  | .num value => [num value]
  | .str text => [str text]
  | .hash digest => hash digest.length :: digest
  | .arr items => arr :: spellItems items
  | .obj members => obj :: spellMembers members

def spellItems : List (Value F (List (Token F))) → List (Token F)
  | [] => [stop]
  | item :: rest => spell item ++ spellItems rest

def spellMembers : List (String × Value F (List (Token F))) → List (Token F)
  | [] => [stop]
  | member :: rest => name member.1 :: spell member.2 ++ spellMembers rest

end

theorem spell_ne_nil (value : Value F (List (Token F))) : ∃ head rest, spell value = head :: rest ∧ head ≠ stop := by
  cases value <;> simp [spell]

mutual

theorem spell_cancel : ∀ (first second : Value F (List (Token F))) (left right : List (Token F)),
    spell first ++ left = spell second ++ right → first = second ∧ left = right
  | .null, second, left, right, same => by
      cases second <;> simp_all [spell]
  | .bool _, second, left, right, same => by
      cases second <;> simp_all [spell]
  | .int _, second, left, right, same => by
      cases second <;> simp_all [spell]
  | .num _, second, left, right, same => by
      cases second <;> simp_all [spell]
  | .str _, second, left, right, same => by
      cases second <;> simp_all [spell]
  | .hash digest, second, left, right, same => by
      cases second <;> simp only [spell, List.cons_append, List.nil_append, List.cons.injEq,
        Token.hash.injEq, reduceCtorEq, false_and] at same
      next other =>
        obtain ⟨rfl, rfl⟩ := List.append_inj same.2 same.1
        exact ⟨rfl, rfl⟩
  | .arr items, second, left, right, same => by
      cases second <;> simp only [spell, List.cons_append, List.nil_append, List.cons.injEq,
        reduceCtorEq, false_and, true_and] at same
      next others =>
        obtain ⟨rfl, rfl⟩ := spellItems_cancel items others left right same
        exact ⟨rfl, rfl⟩
  | .obj members, second, left, right, same => by
      cases second <;> simp only [spell, List.cons_append, List.nil_append, List.cons.injEq,
        reduceCtorEq, false_and, true_and] at same
      next others =>
        obtain ⟨rfl, rfl⟩ := spellMembers_cancel members others left right same
        exact ⟨rfl, rfl⟩

theorem spellItems_cancel : ∀ (first second : List (Value F (List (Token F)))) (left right : List (Token F)),
    spellItems first ++ left = spellItems second ++ right → first = second ∧ left = right
  | [], [], left, right, same => by simpa [spellItems] using same
  | [], item :: rest, left, right, same => by
      obtain ⟨head, tail, spelled, apart⟩ := spell_ne_nil item
      simp [spellItems, spelled, Ne.symm apart] at same
  | item :: rest, [], left, right, same => by
      obtain ⟨head, tail, spelled, apart⟩ := spell_ne_nil item
      simp [spellItems, spelled, apart] at same
  | item :: rest, other :: others, left, right, same => by
      simp only [spellItems, List.append_assoc] at same
      obtain ⟨rfl, later⟩ := spell_cancel item other _ _ same
      obtain ⟨rfl, rfl⟩ := spellItems_cancel rest others left right later
      exact ⟨rfl, rfl⟩

theorem spellMembers_cancel : ∀ (first second : List (String × Value F (List (Token F))))
    (left right : List (Token F)),
    spellMembers first ++ left = spellMembers second ++ right → first = second ∧ left = right
  | [], [], left, right, same => by simpa [spellMembers] using same
  | [], member :: rest, left, right, same => by simp [spellMembers] at same
  | member :: rest, [], left, right, same => by simp [spellMembers] at same
  | (key, value) :: rest, (other, another) :: others, left, right, same => by
      simp only [spellMembers, List.cons_append, List.append_assoc, List.cons.injEq,
        Token.name.injEq] at same
      obtain ⟨rfl, same⟩ := same
      obtain ⟨rfl, later⟩ := spell_cancel value another _ _ same
      obtain ⟨rfl, rfl⟩ := spellMembers_cancel rest others left right later
      exact ⟨rfl, rfl⟩

end

theorem spell_injective : Function.Injective (spell (F := F)) := by
  intro first second same
  exact (spell_cancel first second [] [] (by simpa using same)).1

end Token

/-- The spelled digests. -/
def spelled (F : Type) : Hashing F (List (Token F)) where
  digest := Token.spell
  isFull _ := true
  before _ _ := true
  short _ := "000000000000"
  text _ := ""

end AgentTree.Engine
