import AgentTree.AsciiJson

/-!
`json.loads` reads back what `json.dumps` writes by default, the escaped characters
and the floats that are not finite included.
-/

namespace AgentTree

namespace Json

theorem hexDigits_value {n : Nat} (small : n < 0x10000) :
    ((n / 0x1000 % 16 * 16 + n / 0x100 % 16) * 16 + n / 16 % 16) * 16 + n % 16 = n := by omega

/-- An escape of four digits, whatever half of a pair stands before it. -/
theorem readBody_hexDigits (high : Option Nat) {n : Nat} (small : n < 0x10000) (rest : Bytes) :
    readBody (.plain high) (utf8 "\\u" ++ hexDigits n ++ rest) =
      (unicodeEscape high n).bind fun (bytes, pending) =>
        (readBody (.plain pending) rest).map fun (text, after) => (bytes ++ text, after) := by
  have start : utf8 "\\u" = [0x5c, 0x75] := by decide +kernel
  have digit : ∀ m, hexValue (hexDigit (m % 16)) = some (m % 16) := fun m =>
    hexValue_hexDigit _ (Nat.mod_lt _ (by decide))
  have value := hexDigits_value small
  rw [start, hexDigits]
  simp only [List.cons_append, List.nil_append, readBody, ↓reduceIte, digit, Option.bind_some, Nat.zero_mul,
    Nat.zero_add, value]

theorem utf8_singleton (c : Char) : utf8 (String.singleton c) = String.utf8EncodeChar c := by
  have text : String.singleton c = String.ofList [c] := rfl
  rw [text, utf8_chars, String.toList_ofList]
  simp

theorem char_plane {c : Char} : c.toNat < 0xd800 ∨ 0xdfff < c.toNat ∧ c.toNat < 0x110000 := c.valid

theorem unicodeEscape_basic {c : Char} (basic : c.toNat < 0x10000) :
    unicodeEscape none c.toNat = some (String.utf8EncodeChar c, none) := by
  have plane := char_plane (c := c)
  have first : ¬(0xd800 ≤ c.toNat ∧ c.toNat ≤ 0xdbff) := by omega
  have second : ¬(0xdc00 ≤ c.toNat ∧ c.toNat ≤ 0xdfff) := by omega
  simp only [unicodeEscape, Bool.and_eq_true, decide_eq_true_eq, if_neg first, if_neg second, Char.ofNat_toNat,
    utf8_singleton]

theorem unicodeEscape_high {n : Nat} (small : n < 0x400) :
    unicodeEscape none (0xd800 + n) = some ([], some (0xd800 + n)) := by
  have first : 0xd800 ≤ 0xd800 + n ∧ 0xd800 + n ≤ 0xdbff := by omega
  simp only [unicodeEscape, Bool.and_eq_true, decide_eq_true_eq, if_pos first]

theorem unicodeEscape_low {high low : Nat} (small : low < 0x400) :
    unicodeEscape (some (0xd800 + high)) (0xdc00 + low) =
      some (String.utf8EncodeChar (Char.ofNat (0x10000 + high * 0x400 + low)), none) := by
  have second : 0xdc00 ≤ 0xdc00 + low ∧ 0xdc00 + low ≤ 0xdfff := by omega
  simp only [unicodeEscape, Bool.and_eq_true, decide_eq_true_eq, if_pos second, utf8_singleton,
    Nat.add_sub_cancel_left]

theorem readBody_pair {high low : Nat} (first : high < 0x400) (second : low < 0x400) (rest : Bytes) :
    readBody (.plain none) (utf8 "\\u" ++ hexDigits (0xd800 + high) ++
      (utf8 "\\u" ++ hexDigits (0xdc00 + low)) ++ rest) =
      (readBody (.plain none) rest).map fun (text, after) =>
        (String.utf8EncodeChar (Char.ofNat (0x10000 + high * 0x400 + low)) ++ text, after) := by
  rw [List.append_assoc, readBody_hexDigits none (by omega), unicodeEscape_high first]
  simp only [Option.bind_some]
  rw [readBody_hexDigits _ (by omega), unicodeEscape_low second]
  simp [Function.comp_def]

/-- A character is read back from its escape. -/
theorem readBody_escapeChar (c : Char) (rest : Bytes) :
    readBody (.plain none) (escapeChar c ++ rest) =
      (readBody (.plain none) rest).map fun (text, after) => (String.utf8EncodeChar c ++ text, after) := by
  have plane := char_plane (c := c)
  unfold escapeChar
  split
  next low =>
    rw [readBody_escapeByte, encodeChar_low low]
    rfl
  next =>
    split
    next basic =>
      rw [readBody_hexDigits none basic, unicodeEscape_basic basic]
      rfl
    next beyond =>
      have whole : 0x10000 + (c.toNat - 0x10000) / 0x400 * 0x400 + (c.toNat - 0x10000) % 0x400 = c.toNat := by
        omega
      rw [readBody_pair (by omega) (by omega), whole, Char.ofNat_toNat]

theorem readString_quoteAscii (text : String) (rest : Bytes) :
    readString (text.toList.flatMap escapeChar ++ 0x22 :: rest) = some (text, rest) := by
  have body : ∀ chars : List Char, readBody (.plain none) (chars.flatMap escapeChar ++ 0x22 :: rest) =
      some (chars.flatMap String.utf8EncodeChar, rest) := by
    intro chars
    induction chars with
    | nil => rfl
    | cons c chars ih =>
        rw [List.flatMap_cons, List.append_assoc, readBody_escapeChar, ih]
        rfl
  rw [readString, body, ← utf8_chars]
  simp [textOf_utf8]

variable {floats : Floats} {pairs : List (String × Json) → Option Json}

theorem ReadsName.quoteAscii (text : String) : ReadsName (quoteAscii text) text :=
  ⟨text.toList.flatMap escapeChar ++ utf8 "\"", rfl, fun rest => by
    rw [List.append_assoc]
    exact readString_quoteAscii text rest⟩

theorem Reads.special {text : String} (genuine : (Json.float text).Genuine floats) :
    Reads floats pairs (utf8 (floatText text)) (Json.float text) := by
  by_cases special : text = "nan" ∨ text = "inf" ∨ text = "-inf"
  · rcases special with rfl | rfl | rfl
    · exact .of_step ⟨0x4e, _, rfl, by decide, by decide⟩ fun _ rest _ _ =>
        utf8_word "NaN" rfl (Json.float "nan") rest
    · exact .of_step ⟨0x49, _, rfl, by decide, by decide⟩ fun _ rest _ _ =>
        utf8_word "Infinity" rfl (Json.float "inf") rest
    · exact .of_step ⟨0x2d, _, rfl, by decide, by decide⟩ fun _ rest _ _ =>
        utf8_word "-Infinity" rfl (Json.float "-inf") rest
  · have plain : Json.floatText text = text := by
      simp only [not_or] at special
      simp [Json.floatText, special]
    rw [plain]
    exact .float (genuine.resolve_right special)

mutual

/-- The reader gives back what the default writer has written. -/
theorem reads_encodeAscii (hook : ∀ members : List (String × Json), (members.map Prod.fst).Nodup →
    pairs members = some (Json.obj members)) :
    ∀ value : Json, value.Genuine floats → Reads floats pairs value.encodeAscii value
  | null, _ => .null
  | bool true, _ => .bool true
  | bool false, _ => .bool false
  | int value, _ => .int value
  | float _, genuine => .special genuine
  | str text, _ => .str (.quoteAscii text)
  | arr [], _ => .emptyArr
  | arr (item :: items), genuine => .arr (readsItems_encodeAscii hook (item :: items) (by simp) genuine)
  | obj [], _ => .emptyObj (hook [] (by simp))
  | obj (member :: members), genuine =>
      .obj (readsMembers_encodeAscii hook (member :: members) (by simp) genuine.2) (hook _ genuine.1)

theorem readsItems_encodeAscii (hook : ∀ members : List (String × Json), (members.map Prod.fst).Nodup →
    pairs members = some (Json.obj members)) :
    ∀ items : List Json, items ≠ [] → GenuineItems floats items →
      ReadsItems floats pairs (encodeAsciiItems items) items
  | [], nonempty, _ => absurd rfl nonempty
  | [item], _, genuine => .single (reads_encodeAscii hook item genuine.1)
  | item :: next :: items, _, genuine =>
      .cons (reads_encodeAscii hook item genuine.1)
        (readsItems_encodeAscii hook (next :: items) (by simp) genuine.2)

theorem readsMembers_encodeAscii (hook : ∀ members : List (String × Json), (members.map Prod.fst).Nodup →
    pairs members = some (Json.obj members)) :
    ∀ members : List (String × Json), members ≠ [] → GenuineMembers floats members →
      ReadsMembers floats pairs (encodeAsciiMembers members) members
  | [], nonempty, _ => absurd rfl nonempty
  | [(name, value)], _, genuine => .single (.quoteAscii name) (reads_encodeAscii hook value genuine.1)
  | (name, value) :: next :: members, _, genuine =>
      .cons (.quoteAscii name) (reads_encodeAscii hook value genuine.1)
        (readsMembers_encodeAscii hook (next :: members) (by simp) genuine.2)

end

/-- `json.loads` reads what `json.dumps` writes as the same value, its names in order. -/
theorem loads_dumps {value : Json} (genuine : value.Genuine floats) :
    loads floats (dumps value) = some value.canonical :=
  (reads_encodeAscii (fun members distinct => by rw [dictOf_distinct distinct]) value.canonical
    genuine.canonical).readText

end Json

end AgentTree
