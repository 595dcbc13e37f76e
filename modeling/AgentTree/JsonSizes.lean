import AgentTree.AggregateChecks

/-!
How long the canonical bytes of a value are.
-/

namespace AgentTree

namespace Json

/-- The length of a string in JSON. -/
def textSize (text : String) : Nat := (quote text).length

def numberSize (value : Int) : Nat := (utf8 (toString value)).length

/-- The length of a list or an object by the lengths of what it holds. -/
def listSize (sizes : List Nat) : Nat := max 2 (1 + (sizes.map (· + 1)).sum)

theorem encodeItems_length (items : List Json) :
    (encodeItems items).length + 2 = listSize (items.map fun item => item.encode.length) := by
  have each : ∀ item rest, (encodeItems (item :: rest)).length + 1 =
      (((item :: rest).map fun item => item.encode.length).map (· + 1)).sum := by
    intro item rest
    induction rest generalizing item with
    | nil => simp [encodeItems]
    | cons next rest ih =>
        have later := ih next
        have comma : (utf8 ",").length = 1 := rfl
        simp only [encodeItems, List.length_append, comma, List.map_cons, List.sum_cons] at later ⊢
        omega
  cases items with
  | nil => rfl
  | cons item rest =>
      have whole := each item rest
      have some : 1 ≤ (((item :: rest).map fun item => item.encode.length).map (· + 1)).sum := by
        simp only [List.map_cons, List.sum_cons]
        omega
      rw [listSize, ← whole]
      omega

theorem encodeMembers_length (members : List (String × Json)) :
    (encodeMembers members).length + 2 =
      listSize (members.map fun member => textSize member.1 + 1 + member.2.encode.length) := by
  have each : ∀ (member : String × Json) rest, (encodeMembers (member :: rest)).length + 1 =
      (((member :: rest).map fun member => textSize member.1 + 1 + member.2.encode.length).map (· + 1)).sum := by
    intro member rest
    induction rest generalizing member with
    | nil =>
        have colon : (utf8 ":").length = 1 := rfl
        simp [encodeMembers, textSize, colon]
        omega
    | cons next rest ih =>
        have later := ih next
        have comma : (utf8 ",").length = 1 := rfl
        have colon : (utf8 ":").length = 1 := rfl
        simp only [encodeMembers, List.length_append, comma, colon, textSize, List.map_cons, List.sum_cons] at later ⊢
        omega
  cases members with
  | nil => rfl
  | cons member rest =>
      have whole := each member rest
      have some : 1 ≤ (((member :: rest).map fun member => textSize member.1 + 1 + member.2.encode.length).map
          (· + 1)).sum := by
        simp only [List.map_cons, List.sum_cons]
        omega
      rw [listSize, ← whole]
      omega

theorem listSize_perm {first second : List Nat} (perm : first.Perm second) : listSize first = listSize second := by
  rw [listSize, listSize, (perm.map (· + 1)).sum_eq]

theorem canonicalBytes_str_length (text : String) : (canonicalBytes (.str text)).length = textSize text := rfl

theorem canonicalBytes_int_length (value : Int) : (canonicalBytes (.int value)).length = numberSize value := rfl

theorem canonicalBytes_arr_length (items : List Json) :
    (canonicalBytes (.arr items)).length = listSize (items.map fun item => (canonicalBytes item).length) := by
  have sized := encodeItems_length (canonicalItems items)
  rw [canonicalItems_eq, List.map_map] at sized
  have whole : (canonicalBytes (.arr items)).length = (encodeItems (items.map canonical)).length + 2 := by
    have brackets : (utf8 "[").length = 1 ∧ (utf8 "]").length = 1 := ⟨rfl, rfl⟩
    simp only [canonicalBytes, canonical, encode, List.length_append, brackets, canonicalItems_eq]
    omega
  rw [whole, sized]
  rfl

/-- The order of the names does not matter. -/
theorem canonicalBytes_obj_length (members : List (String × Json)) : (canonicalBytes (.obj members)).length =
    listSize (members.map fun member => textSize member.1 + 1 + (canonicalBytes member.2).length) := by
  have order := (List.perm_insertionSort (fun a b => nameOrder a.1 ≤ nameOrder b.1) (canonicalMembers members)).map
    fun member => textSize member.1 + 1 + member.2.encode.length
  have sized := encodeMembers_length (sortedMembers members)
  have whole : (canonicalBytes (.obj members)).length = (encodeMembers (sortedMembers members)).length + 2 := by
    have braces : (utf8 "\x7b").length = 1 ∧ (utf8 "\x7d").length = 1 := ⟨rfl, rfl⟩
    simp only [canonicalBytes, canonical, encode, List.length_append, braces, sortedMembers]
    omega
  rw [whole, sized, sortedMembers, listSize_perm order, canonicalMembers_eq, List.map_map]
  rfl

/-- A text that needs no escapes. -/
theorem textSize_plain {text : String} (plain : ∀ b ∈ utf8 text, escapeByte b = [b]) :
    textSize text = (utf8 text).length + 2 := by
  have body : (utf8 text).flatMap escapeByte = utf8 text :=
    (List.flatMap_congr plain).trans (List.flatMap_singleton' _)
  have marks : (utf8 "\"").length = 1 := rfl
  rw [textSize, quote, body, List.length_append, List.length_append, marks]
  omega

end Json

end AgentTree
