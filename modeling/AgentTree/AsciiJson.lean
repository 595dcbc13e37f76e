import AgentTree.CanonicalJson

/-!
JSON text as `json.dumps` writes it by default: every character outside of the printable
ASCII range is escaped.  It agrees with the canonical text where there is none.
-/

namespace AgentTree

namespace Json

def hexDigits (n : Nat) : Bytes :=
  [hexDigit (n / 0x1000 % 16), hexDigit (n / 0x100 % 16), hexDigit (n / 16 % 16), hexDigit (n % 16)]

/-- A character beyond the basic plane is written as two surrogates. -/
def escapeChar (c : Char) : Bytes :=
  if c.toNat < 0x7f then escapeByte (UInt8.ofNat c.toNat)
  else if c.toNat < 0x10000 then utf8 "\\u" ++ hexDigits c.toNat
  else utf8 "\\u" ++ hexDigits (0xd800 + (c.toNat - 0x10000) / 0x400) ++
    (utf8 "\\u" ++ hexDigits (0xdc00 + (c.toNat - 0x10000) % 0x400))

def quoteAscii (text : String) : Bytes := utf8 "\"" ++ text.toList.flatMap escapeChar ++ utf8 "\""

/-- The floats that are not finite have words of their own. -/
def floatText (text : String) : String :=
  if text = "nan" then "NaN" else if text = "inf" then "Infinity" else if text = "-inf" then "-Infinity" else text

mutual

def encodeAscii : Json → Bytes
  | null => utf8 "null"
  | bool true => utf8 "true"
  | bool false => utf8 "false"
  | int value => utf8 (toString value)
  | float text => utf8 (floatText text)
  | str value => quoteAscii value
  | arr items => utf8 "[" ++ encodeAsciiItems items ++ utf8 "]"
  | obj members => utf8 "\x7b" ++ encodeAsciiMembers members ++ utf8 "\x7d"

def encodeAsciiItems : List Json → Bytes
  | [] => []
  | [item] => item.encodeAscii
  | item :: next :: rest => item.encodeAscii ++ utf8 "," ++ encodeAsciiItems (next :: rest)

def encodeAsciiMembers : List (String × Json) → Bytes
  | [] => []
  | [(name, value)] => quoteAscii name ++ utf8 ":" ++ value.encodeAscii
  | (name, value) :: next :: rest =>
      quoteAscii name ++ utf8 ":" ++ value.encodeAscii ++ utf8 "," ++ encodeAsciiMembers (next :: rest)

end

/-- `json.dumps(value, sort_keys=True, separators=(",", ":")).encode("utf-8")`. -/
def dumps (value : Json) : Bytes := value.canonical.encodeAscii

/-! Plain texts. -/

/-- A text of characters that are written as they are, or escaped by both writers. -/
def Plain (text : String) : Prop := ∀ c ∈ text.toList, c.toNat < 0x7f

instance (text : String) : Decidable (Plain text) := inferInstanceAs (Decidable (∀ c ∈ text.toList, c.toNat < 0x7f))

mutual

/-- Every text of a value is plain. -/
def PlainTexts : Json → Prop
  | str value => Plain value
  | arr items => PlainItems items
  | obj members => PlainMembers members
  | _ => True

def PlainItems : List Json → Prop
  | [] => True
  | item :: rest => item.PlainTexts ∧ PlainItems rest

def PlainMembers : List (String × Json) → Prop
  | [] => True
  | (name, value) :: rest => Plain name ∧ value.PlainTexts ∧ PlainMembers rest

end

def Below (bytes : Bytes) : Prop := ∀ b ∈ bytes, b < 0x7f

instance (bytes : Bytes) : Decidable (Below bytes) := inferInstanceAs (Decidable (∀ b ∈ bytes, b < 0x7f))

theorem below_append {first second : Bytes} : Below (first ++ second) ↔ Below first ∧ Below second :=
  List.forall_mem_append

theorem utf8_chars (text : String) : utf8 text = text.toList.flatMap String.utf8EncodeChar := by
  have bytes : ∀ chars : List Char, utf8 (String.ofList chars) = chars.flatMap String.utf8EncodeChar := by
    simp [utf8, List.utf8Encode]
  rw [← bytes, String.ofList_toList]

/-- A character that is not plain has a byte that is not. -/
theorem encodeChar_high {c : Char} (high : 0x7f ≤ c.toNat) : ∃ b ∈ String.utf8EncodeChar c, ¬b < 0x7f := by
  have small : ∀ n : Nat, 0x7f ≤ n → n < 256 → ¬UInt8.ofNat n < 0x7f := by
    intro n low bound below
    rw [UInt8.lt_iff_toNat_lt, UInt8.toNat_ofNat_of_lt' bound] at below
    exact absurd below (by simpa using low)
  have value : c.val.toNat = c.toNat := rfl
  unfold String.utf8EncodeChar
  simp only [value]
  split
  next one => exact ⟨_, by simp, small _ high (by omega)⟩
  next =>
    split
    next => exact ⟨_, List.mem_of_getLast? rfl, small _ (by omega) (by omega)⟩
    next =>
      split
      next => exact ⟨_, List.mem_of_getLast? rfl, small _ (by omega) (by omega)⟩
      next => exact ⟨_, List.mem_of_getLast? rfl, small _ (by omega) (by omega)⟩

theorem encodeChar_low {c : Char} (low : c.toNat < 0x7f) : String.utf8EncodeChar c = [UInt8.ofNat c.toNat] := by
  have value : c.val.toNat = c.toNat := rfl
  unfold String.utf8EncodeChar
  simp only [value]
  rw [if_pos (by omega)]

theorem escapeByte_high {b : UInt8} (high : ¬b < 0x7f) : escapeByte b = [b] := by
  have printable : ∀ other : UInt8, other < 0x7f → b ≠ other := fun other low same => high (same ▸ low)
  have control : ¬b < 0x20 := fun low => high (UInt8.lt_trans low (by decide))
  simp only [escapeByte, if_neg (printable 0x22 (by decide)), if_neg (printable 0x5c (by decide)),
    if_neg (printable 0x0a (by decide)), if_neg (printable 0x0d (by decide)), if_neg (printable 0x09 (by decide)),
    if_neg (printable 0x08 (by decide)), if_neg (printable 0x0c (by decide)), if_neg control]

theorem escapeByte_low : ∀ n < 0x7f, Below (escapeByte (UInt8.ofNat n)) := by decide +kernel

theorem hexDigits_below (n : Nat) : Below (hexDigits n) := by
  have digit : ∀ n < 16, hexDigit n < 0x7f := by decide
  have each : ∀ n, hexDigit (n % 16) < 0x7f := fun n => digit _ (Nat.mod_lt _ (by decide))
  simp [Below, hexDigits, each]

theorem escapeChar_below (c : Char) : Below (escapeChar c) := by
  have mark : Below (utf8 "\\u") := by decide
  unfold escapeChar
  split
  next low => exact escapeByte_low _ low
  next =>
    split
    next => exact below_append.mpr ⟨mark, hexDigits_below _⟩
    next =>
      exact below_append.mpr ⟨below_append.mpr ⟨mark, hexDigits_below _⟩, below_append.mpr ⟨mark, hexDigits_below _⟩⟩

theorem quoteAscii_below (text : String) : Below (quoteAscii text) := by
  refine below_append.mpr ⟨below_append.mpr ⟨by decide, fun b member => ?_⟩, by decide⟩
  obtain ⟨c, _, inside⟩ := List.mem_flatMap.mp member
  exact escapeChar_below c b inside

/-- The two writers agree on a text if and only if it is plain. -/
theorem quoteAscii_plain {text : String} (plain : Plain text) : quoteAscii text = quote text := by
  have each : ∀ chars : List Char, (∀ c ∈ chars, c.toNat < 0x7f) →
      chars.flatMap escapeChar = (chars.flatMap String.utf8EncodeChar).flatMap escapeByte := by
    intro chars
    induction chars with
    | nil => simp
    | cons c rest ih =>
        intro all
        have low := all c List.mem_cons_self
        rw [List.flatMap_cons, List.flatMap_cons, List.flatMap_append, encodeChar_low low,
          ih fun other member => all other (List.mem_cons_of_mem _ member), escapeChar, if_pos low]
        simp
  rw [quoteAscii, quote, utf8_chars text, each _ plain]

theorem plain_of_utf8 {text : String} (below : Below (utf8 text)) : Plain text := by
  intro c member
  by_contra high
  obtain ⟨b, inside, notBelow⟩ := encodeChar_high (Nat.not_lt.mp high)
  rw [utf8_chars] at below
  exact notBelow (below b (List.mem_flatMap.mpr ⟨c, member, inside⟩))

theorem plain_append {first second : String} : Plain (first ++ second) ↔ Plain first ∧ Plain second := by
  simp [Plain, or_imp, forall_and]

theorem plain_of_quote {text : String} (below : Below (quote text)) : Plain text := by
  refine plain_of_utf8 fun b member => ?_
  by_contra high
  refine high ((below_append.mp (below_append.mp below).1).2 b (List.mem_flatMap.mpr ⟨b, member, ?_⟩))
  rw [escapeByte_high high]
  exact List.mem_singleton_self b

theorem number_below {parts : NumberParts} (valid : parts.Valid) : Below parts.text := by
  have digit : ∀ {digits : Bytes}, (∀ b ∈ digits, isDigit b = true) → Below digits := by
    intro digits all b member
    have known := all b member
    simp only [isDigit, Bool.and_eq_true, decide_eq_true_eq] at known
    exact UInt8.lt_of_le_of_lt known.2 (by decide)
  refine below_append.mpr ⟨?_, below_append.mpr ⟨?_, below_append.mpr ⟨?_, ?_⟩⟩⟩
  · rcases valid.sign with none | minus
    · rw [none]; decide
    · rw [minus]; decide
  · rcases valid.whole with zero | ⟨_, _, _, _, all⟩
    · rw [zero]; decide
    · exact digit all
  · rcases valid.fraction with none | ⟨digits, _, point, all⟩
    · rw [none]; decide
    · rw [point]
      exact List.forall_mem_cons.mpr ⟨by decide, digit all⟩
  · rcases valid.exponent with none | ⟨mark, sign, digits, marked, signed, _, spelled, all⟩
    · rw [none]; decide
    · rw [spelled]
      refine List.forall_mem_cons.mpr ⟨?_, below_append.mpr ⟨?_, digit all⟩⟩
      · rcases marked with rfl | rfl <;> decide
      · rcases signed with rfl | rfl | rfl <;> decide

theorem int_below (value : Int) : Below (utf8 (toString value)) := by
  obtain ⟨parts, valid, _, _, text, _⟩ := int_parts value
  exact text ▸ number_below valid

variable {floats : Floats}

theorem floatText_valid {text : String} (valid : (float text).valid = true) : floatText text = text := by
  simp only [Json.valid, Bool.and_eq_true, decide_eq_true_eq] at valid
  simp [floatText, valid]

theorem float_below {text : String} (genuine : (float text).Genuine floats) : Below (utf8 (floatText text)) := by
  rcases genuine with finite | rfl | rfl | rfl
  · unfold floatText
    split
    next => decide
    next =>
      split
      next => decide
      next =>
        split
        next => decide
        next =>
          obtain ⟨parts, valid, _, spelled⟩ := floats.number text finite
          exact spelled ▸ number_below valid
  all_goals decide

mutual

/-- The default writer never leaves the printable range. -/
theorem encodeAscii_below : ∀ value : Json, value.Genuine floats → Below value.encodeAscii
  | null, _ => by decide
  | bool true, _ => by decide
  | bool false, _ => by decide
  | int value, _ => int_below value
  | float _, genuine => float_below genuine
  | str value, _ => quoteAscii_below value
  | arr items, genuine => below_append.mpr ⟨below_append.mpr ⟨by decide, encodeAsciiItems_below items genuine⟩, by decide⟩
  | obj members, genuine =>
      below_append.mpr ⟨below_append.mpr ⟨by decide, encodeAsciiMembers_below members genuine.2⟩, by decide⟩

theorem encodeAsciiItems_below : ∀ items : List Json, GenuineItems floats items → Below (encodeAsciiItems items)
  | [], _ => by simp [encodeAsciiItems, Below]
  | [item], genuine => encodeAscii_below item genuine.1
  | item :: next :: rest, genuine => by
      have later := encodeAsciiItems_below (next :: rest) genuine.2
      exact below_append.mpr ⟨below_append.mpr ⟨encodeAscii_below item genuine.1, by decide⟩, later⟩

theorem encodeAsciiMembers_below : ∀ members : List (String × Json), GenuineMembers floats members →
    Below (encodeAsciiMembers members)
  | [], _ => by simp [encodeAsciiMembers, Below]
  | [(name, value)], genuine =>
      below_append.mpr ⟨below_append.mpr ⟨quoteAscii_below name, by decide⟩, encodeAscii_below value genuine.1⟩
  | (name, value) :: next :: rest, genuine => by
      have later := encodeAsciiMembers_below (next :: rest) genuine.2
      have first := below_append.mpr ⟨below_append.mpr ⟨quoteAscii_below name, (by decide : Below (utf8 ":"))⟩,
        encodeAscii_below value genuine.1⟩
      exact below_append.mpr ⟨below_append.mpr ⟨first, by decide⟩, later⟩

end

mutual

/-- A canonical text in the printable range has plain texts only. -/
theorem plain_of_encode : ∀ value : Json, Below value.encode → value.PlainTexts
  | null, _ | bool _, _ | int _, _ | float _, _ => trivial
  | str _, below => plain_of_quote below
  | arr items, below => plain_of_items items (below_append.mp (below_append.mp below).1).2
  | obj members, below => plain_of_members members (below_append.mp (below_append.mp below).1).2

theorem plain_of_items : ∀ items : List Json, Below (encodeItems items) → PlainItems items
  | [], _ => trivial
  | [item], below => ⟨plain_of_encode item below, trivial⟩
  | item :: next :: rest, below =>
      ⟨plain_of_encode item (below_append.mp (below_append.mp below).1).1,
        plain_of_items (next :: rest) (below_append.mp below).2⟩

theorem plain_of_members : ∀ members : List (String × Json), Below (encodeMembers members) → PlainMembers members
  | [], _ => trivial
  | [(_, value)], below =>
      ⟨plain_of_quote (below_append.mp (below_append.mp below).1).1, plain_of_encode value (below_append.mp below).2, trivial⟩
  | (_, value) :: next :: rest, below => by
      have first := (below_append.mp (below_append.mp below).1).1
      exact ⟨plain_of_quote (below_append.mp (below_append.mp first).1).1, plain_of_encode value (below_append.mp first).2,
        plain_of_members (next :: rest) (below_append.mp below).2⟩

end

mutual

/-- The two writers agree on a value whose texts are plain. -/
theorem encodeAscii_plain : ∀ value : Json, value.PlainTexts → value.valid = true → value.encodeAscii = value.encode
  | null, _, _ | bool true, _, _ | bool false, _, _ | int _, _, _ => rfl
  | float _, _, valid => congrArg utf8 (floatText_valid valid)
  | str _, plain, _ => quoteAscii_plain plain
  | arr items, plain, valid => by rw [encodeAscii, encode, encodeAsciiItems_plain items plain valid]
  | obj members, plain, valid => by rw [encodeAscii, encode, encodeAsciiMembers_plain members plain valid]

theorem encodeAsciiItems_plain : ∀ items : List Json, PlainItems items → validItems items = true →
    encodeAsciiItems items = encodeItems items
  | [], _, _ => rfl
  | [item], plain, valid => by
      simp only [validItems, Bool.and_eq_true] at valid
      exact encodeAscii_plain item plain.1 valid.1
  | item :: next :: rest, plain, valid => by
      rw [validItems, Bool.and_eq_true] at valid
      rw [encodeAsciiItems, encodeItems, encodeAscii_plain item plain.1 valid.1,
        encodeAsciiItems_plain (next :: rest) plain.2 valid.2]

theorem encodeAsciiMembers_plain : ∀ members : List (String × Json), PlainMembers members →
    validMembers members = true → encodeAsciiMembers members = encodeMembers members
  | [], _, _ => rfl
  | [(name, value)], plain, valid => by
      simp only [validMembers, Bool.and_eq_true] at valid
      rw [encodeAsciiMembers, encodeMembers, quoteAscii_plain plain.1, encodeAscii_plain value plain.2.1 valid.1]
  | (name, value) :: next :: rest, plain, valid => by
      rw [validMembers, Bool.and_eq_true] at valid
      rw [encodeAsciiMembers, encodeMembers, quoteAscii_plain plain.1, encodeAscii_plain value plain.2.1 valid.1,
        encodeAsciiMembers_plain (next :: rest) plain.2.2 valid.2]

end

theorem plainMembers_iff {members : List (String × Json)} :
    PlainMembers members ↔ ∀ member ∈ members, Plain member.1 ∧ member.2.PlainTexts := by
  induction members with
  | nil => simp [PlainMembers]
  | cons member rest ih =>
      obtain ⟨name, value⟩ := member
      simp [PlainMembers, ih, and_assoc]

mutual

theorem plainTexts_canonical : ∀ value : Json, value.canonical.PlainTexts ↔ value.PlainTexts
  | null | bool _ | int _ | float _ | str _ => Iff.rfl
  | arr items => plainItems_canonical items
  | obj members => by
      have each := plainMembers_canonical members
      rw [canonical, PlainTexts, PlainTexts, plainMembers_iff, plainMembers_iff]
      constructor
      · rintro all ⟨name, value⟩ present
        obtain ⟨plain, texts⟩ := all _ (mem_sortedMembers.mpr ⟨value, present, rfl⟩)
        exact ⟨plain, (each _ present).mp texts⟩
      · rintro all ⟨name, value⟩ present
        obtain ⟨before, member, rfl⟩ := mem_sortedMembers.mp present
        exact ⟨(all _ member).1, (each _ member).mpr (all _ member).2⟩

theorem plainItems_canonical : ∀ items : List Json, PlainItems (canonicalItems items) ↔ PlainItems items
  | [] => Iff.rfl
  | item :: rest => and_congr (plainTexts_canonical item) (plainItems_canonical rest)

theorem plainMembers_canonical : ∀ members : List (String × Json),
    ∀ member ∈ members, member.2.canonical.PlainTexts ↔ member.2.PlainTexts
  | [] => by simp
  | (_, value) :: rest => by
      intro member present
      rcases List.mem_cons.mp present with rfl | present
      · exact plainTexts_canonical value
      · exact plainMembers_canonical rest member present

end

/-- The default text of a value is its canonical text if and only if every text in it is plain. -/
theorem dumps_canonicalBytes {value : Json} (accepted : value.Accepted floats) :
    dumps value = canonicalBytes value ↔ value.PlainTexts := by
  constructor
  · intro same
    have below := encodeAscii_below value.canonical accepted.canonical.1
    have texts := plain_of_encode value.canonical (by
      show Below (canonicalBytes value)
      rw [← same]
      exact below)
    exact (plainTexts_canonical value).mp texts
  · intro plain
    exact encodeAscii_plain value.canonical ((plainTexts_canonical value).mpr plain) accepted.canonical.2

example : dumps (.str "\u00e9\u007f😀\n") = utf8 "\"\\u00e9\\u007f\\ud83d\\ude00\\n\"" := by decide +kernel

end Json

end AgentTree
