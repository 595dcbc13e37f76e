import AgentTree.Json

/-!
JSON text as `json.loads` reads it, and the round trip with the canonical encoding.
What `float` makes of a number and how `repr` writes it is a parameter.
-/

namespace AgentTree

namespace Json

def isSpace (b : UInt8) : Bool := b = 0x20 || b = 0x0a || b = 0x0d || b = 0x09

def skipSpace (bytes : Bytes) : Bytes := bytes.dropWhile isSpace

def isDigit (b : UInt8) : Bool := 0x30 ≤ b && b ≤ 0x39

def digitRun (bytes : Bytes) : Bytes × Bytes := (bytes.takeWhile isDigit, bytes.dropWhile isDigit)

/-! Numbers. -/

structure NumberParts where
  sign : Bytes
  whole : Bytes
  fraction : Bytes
  exponent : Bytes

def NumberParts.text (parts : NumberParts) : Bytes :=
  parts.sign ++ (parts.whole ++ (parts.fraction ++ parts.exponent))

def readSign (bytes : Bytes) : Bytes × Bytes :=
  match bytes with
  | [] => ([], [])
  | b :: rest => if b = 0x2d then ([b], rest) else ([], bytes)

/-- A leading zero stands alone. -/
def readWhole (bytes : Bytes) : Bytes × Bytes :=
  match bytes with
  | [] => ([], [])
  | b :: rest => if b = 0x30 then ([b], rest) else digitRun bytes

def readFraction (bytes : Bytes) : Bytes × Bytes :=
  match bytes with
  | [] => ([], [])
  | b :: rest =>
      if b = 0x2e && (digitRun rest).1 ≠ [] then (b :: (digitRun rest).1, (digitRun rest).2)
      else ([], bytes)

def readExponentSign (bytes : Bytes) : Bytes × Bytes :=
  match bytes with
  | [] => ([], [])
  | b :: rest => if b = 0x2b || b = 0x2d then ([b], rest) else ([], bytes)

def readExponent (bytes : Bytes) : Bytes × Bytes :=
  match bytes with
  | [] => ([], [])
  | b :: rest =>
      let (sign, after) := readExponentSign rest
      if (b = 0x65 || b = 0x45) && (digitRun after).1 ≠ [] then
        (b :: (sign ++ (digitRun after).1), (digitRun after).2)
      else ([], bytes)

def readNumber (bytes : Bytes) : Option (NumberParts × Bytes) :=
  let (sign, afterSign) := readSign bytes
  let (whole, afterWhole) := readWhole afterSign
  let (fraction, afterFraction) := readFraction afterWhole
  let (exponent, rest) := readExponent afterFraction
  if whole = [] then none else some (⟨sign, whole, fraction, exponent⟩, rest)

/-- The parts of a number as RFC 8259 allows them. -/
structure NumberParts.Valid (parts : NumberParts) : Prop where
  sign : parts.sign = [] ∨ parts.sign = [0x2d]
  whole : parts.whole = [0x30] ∨
    ∃ b rest, parts.whole = b :: rest ∧ b ≠ 0x30 ∧ ∀ digit ∈ parts.whole, isDigit digit = true
  fraction : parts.fraction = [] ∨
    ∃ digits, digits ≠ [] ∧ parts.fraction = 0x2e :: digits ∧ ∀ digit ∈ digits, isDigit digit = true
  exponent : parts.exponent = [] ∨
    ∃ mark sign digits, (mark = 0x65 ∨ mark = 0x45) ∧ (sign = [] ∨ sign = [0x2b] ∨ sign = [0x2d]) ∧
      digits ≠ [] ∧ parts.exponent = mark :: (sign ++ digits) ∧ ∀ digit ∈ digits, isDigit digit = true

/-- The bytes that may follow a value in JSON text without spaces. -/
def Ends (rest : Bytes) : Prop := ∀ b, rest.head? = some b → b = 0x2c ∨ b = 0x5d ∨ b = 0x7d

theorem Ends.not_digit {b : UInt8} {rest : Bytes} (ends : Ends (b :: rest)) : isDigit b = false := by
  rcases ends b rfl with rfl | rfl | rfl <;> decide

theorem digitRun_digits {digits rest : Bytes} (all : ∀ b ∈ digits, isDigit b = true)
    (stops : ∀ b, rest.head? = some b → isDigit b = false) :
    digitRun (digits ++ rest) = (digits, rest) := by
  have taken : rest.takeWhile isDigit = [] := by
    cases rest with
    | nil => rfl
    | cons b rest => simp [stops b rfl]
  have dropped : rest.dropWhile isDigit = rest := by
    cases rest with
    | nil => rfl
    | cons b rest => simp [stops b rfl]
  unfold digitRun
  rw [List.takeWhile_append_of_pos all, List.dropWhile_append_of_pos all, taken, dropped,
    List.append_nil]

theorem readSign_minus (rest : Bytes) : readSign (0x2d :: rest) = ([0x2d], rest) := rfl

theorem readSign_none {b : UInt8} {rest : Bytes} (other : b ≠ 0x2d) :
    readSign (b :: rest) = ([], b :: rest) := by simp [readSign, other]

theorem readWhole_digits {b : UInt8} {digits rest : Bytes} (other : b ≠ 0x30)
    (all : ∀ digit ∈ b :: digits, isDigit digit = true)
    (stops : ∀ c, rest.head? = some c → isDigit c = false) :
    readWhole (b :: digits ++ rest) = (b :: digits, rest) := by
  simp only [readWhole, List.cons_append, other, ↓reduceIte]
  exact digitRun_digits all stops

theorem readFraction_digits {digits rest : Bytes} (some_digit : digits ≠ [])
    (all : ∀ digit ∈ digits, isDigit digit = true)
    (stops : ∀ c, rest.head? = some c → isDigit c = false) :
    readFraction (0x2e :: digits ++ rest) = (0x2e :: digits, rest) := by
  have span := digitRun_digits all stops
  simp [readFraction, span, some_digit]

theorem readFraction_none {rest : Bytes} (none : ∀ b, rest.head? = some b → b ≠ 0x2e) :
    readFraction rest = ([], rest) := by
  cases rest with
  | nil => rfl
  | cons b rest => simp [readFraction, none b rfl]

theorem readExponent_none {rest : Bytes}
    (none : ∀ b, rest.head? = some b → b ≠ 0x65 ∧ b ≠ 0x45) : readExponent rest = ([], rest) := by
  cases rest with
  | nil => rfl
  | cons b rest =>
      obtain ⟨small, capital⟩ := none b rfl
      simp [readExponent, small, capital]

theorem readExponentSign_digits {sign digits : Bytes} (rest : Bytes)
    (signed : sign = [] ∨ sign = [0x2b] ∨ sign = [0x2d]) (some_digit : digits ≠ [])
    (all : ∀ digit ∈ digits, isDigit digit = true) :
    readExponentSign (sign ++ digits ++ rest) = (sign, digits ++ rest) := by
  rcases signed with rfl | rfl | rfl
  · cases digits with
    | nil => exact absurd rfl some_digit
    | cons b digits =>
        have digit : isDigit b = true := all b (by simp)
        have plus : b ≠ 0x2b := by
          rintro rfl
          exact absurd digit (by decide)
        have minus : b ≠ 0x2d := by
          rintro rfl
          exact absurd digit (by decide)
        simp [readExponentSign, plus, minus]
  · rfl
  · rfl

theorem readExponent_digits {mark : UInt8} {sign digits rest : Bytes}
    (marked : mark = 0x65 ∨ mark = 0x45) (signed : sign = [] ∨ sign = [0x2b] ∨ sign = [0x2d])
    (some_digit : digits ≠ []) (all : ∀ digit ∈ digits, isDigit digit = true)
    (stops : ∀ c, rest.head? = some c → isDigit c = false) :
    readExponent (mark :: (sign ++ digits) ++ rest) = (mark :: (sign ++ digits), rest) := by
  have span := digitRun_digits all stops
  have split := readExponentSign_digits rest signed some_digit all
  rw [List.append_assoc] at split
  rcases marked with rfl | rfl <;> simp [readExponent, split, span, some_digit]

theorem Ends.not_number {rest : Bytes} (ends : Ends rest) :
    ∀ b, rest.head? = some b → isDigit b = false ∧ b ≠ 0x2e ∧ b ≠ 0x65 ∧ b ≠ 0x45 := by
  intro b first
  rcases ends b first with rfl | rfl | rfl <;> decide

theorem readNumber_text {parts : NumberParts} (valid : parts.Valid) {rest : Bytes} (ends : Ends rest) :
    readNumber (parts.text ++ rest) = some (parts, rest) := by
  obtain ⟨sign, whole, fraction, exponent⟩ := parts
  obtain ⟨signed, wholes, fractions, exponents⟩ := valid
  simp only at signed wholes fractions exponents
  have ended := ends.not_number
  -- What follows each part starts with a byte that the part cannot take.
  have exponentHead : ∀ b, (exponent ++ rest).head? = some b → isDigit b = false ∧ b ≠ 0x2e := by
    intro b first
    rcases exponents with rfl | ⟨mark, _, _, marked, _, _, rfl, _⟩
    · exact ⟨(ended b first).1, (ended b first).2.1⟩
    · obtain rfl := Option.some.inj first
      rcases marked with rfl | rfl <;> decide
  have fractionHead : ∀ b, (fraction ++ (exponent ++ rest)).head? = some b → isDigit b = false := by
    intro b first
    rcases fractions with rfl | ⟨_, _, rfl, _⟩
    · exact (exponentHead b first).1
    · obtain rfl := Option.some.inj first
      decide
  have readExp : readExponent (exponent ++ rest) = (exponent, rest) := by
    rcases exponents with rfl | ⟨mark, between, digits, marked, between_sign, nonempty, rfl, all⟩
    · exact readExponent_none fun b first => (ended b first).2.2
    · exact readExponent_digits marked between_sign nonempty all fun b first => (ended b first).1
  have readFrac : readFraction (fraction ++ (exponent ++ rest)) = (fraction, exponent ++ rest) := by
    rcases fractions with rfl | ⟨digits, nonempty, rfl, all⟩
    · exact readFraction_none fun b first => (exponentHead b first).2
    · exact readFraction_digits nonempty all fun b first => (exponentHead b first).1
  have wholeHead : ∃ b tail, whole = b :: tail ∧ b ≠ 0x2d := by
    rcases wholes with rfl | ⟨b, tail, rfl, _, all⟩
    · exact ⟨_, _, rfl, by decide⟩
    · refine ⟨b, tail, rfl, ?_⟩
      rintro rfl
      exact absurd (all 0x2d (by simp)) (by decide)
  have readWh : readWhole (whole ++ (fraction ++ (exponent ++ rest))) =
      (whole, fraction ++ (exponent ++ rest)) := by
    rcases wholes with rfl | ⟨b, tail, rfl, other, all⟩
    · rfl
    · exact readWhole_digits other all fractionHead
  obtain ⟨b, tail, cons, other⟩ := wholeHead
  have readSg : readSign (sign ++ (whole ++ (fraction ++ (exponent ++ rest)))) =
      (sign, whole ++ (fraction ++ (exponent ++ rest))) := by
    rcases signed with rfl | rfl
    · rw [cons]
      exact readSign_none other
    · rfl
  have nonempty : whole ≠ [] := by simp [cons]
  simp only [NumberParts.text, List.append_assoc, readNumber, readSg, readWh, readFrac, readExp,
    if_neg nonempty]

/-! Integers. -/

def decimal (digits : Bytes) : Nat := digits.foldl (fun value b => 10 * value + (b.toNat - 48)) 0

theorem utf8_ofList {chars : List Char} (ascii : ∀ c ∈ chars, c.toNat < 128) :
    utf8 (String.ofList chars) = chars.map fun c => UInt8.ofNat c.toNat := by
  have bytes : utf8 (String.ofList chars) = chars.flatMap String.utf8EncodeChar := by
    simp [utf8, List.utf8Encode]
  rw [bytes]
  induction chars with
  | nil => rfl
  | cons c rest ih =>
      have small : c.utf8Size = 1 := by
        have := ascii c (by simp)
        simp only [Char.utf8Size, UInt32.le_iff_toNat_le]
        exact if_pos (Nat.le_of_lt_succ this)
      have later := ih (fun c member => ascii c (by simp [member])) (by simp [utf8, List.utf8Encode])
      simp only [List.flatMap_cons, List.map_cons, later, String.utf8EncodeChar_eq_singleton small]
      rfl

theorem digit_bounds {c : Char} (digit : c.isDigit = true) : 48 ≤ c.toNat ∧ c.toNat ≤ 57 := by
  simp only [Char.isDigit, Bool.and_eq_true, decide_eq_true_eq, ge_iff_le, UInt32.le_iff_toNat_le] at digit
  exact digit

theorem utf8_natural (n : Nat) :
    utf8 (toString n) = (Nat.toDigits 10 n).map fun c => UInt8.ofNat c.toNat := by
  have digits : ∀ c ∈ Nat.toDigits 10 n, c.isDigit = true := fun c member =>
    Nat.isDigit_of_mem_toDigits (by decide) (by decide) member
  rw [Nat.toString_eq_ofList_toDigits]
  exact utf8_ofList fun c member => by have := digit_bounds (digits c member); omega

theorem natural_digits (n : Nat) : ∀ b ∈ utf8 (toString n), isDigit b = true := by
  intro b member
  rw [utf8_natural, List.mem_map] at member
  obtain ⟨c, present, rfl⟩ := member
  have digit : c.isDigit = true := Nat.isDigit_of_mem_toDigits (by decide) (by decide) present
  have := digit_bounds digit
  simp only [isDigit, Bool.and_eq_true, decide_eq_true_eq, UInt8.le_iff_toNat_le, UInt8.toNat_ofNat]
  constructor
  · simp; omega
  · simp; omega

theorem toDigits_head {n : Nat} (positive : 0 < n) : (Nat.toDigits 10 n).head? ≠ some '0' := by
  induction n using Nat.strong_induction_on with
  | _ n ih =>
    by_cases small : n < 10
    · rw [Nat.toDigits_of_lt_base small]
      simp
      omega
    · rw [Nat.toDigits_of_base_le (by decide) (by omega)]
      have first := ih (n / 10) (by omega) (by omega)
      cases digits : Nat.toDigits 10 (n / 10) with
      | nil => exact absurd digits Nat.toDigits_ne_nil
      | cons c rest => simpa [digits] using first

theorem natural_whole (n : Nat) : utf8 (toString n) = [0x30] ∨
    ∃ b rest, utf8 (toString n) = b :: rest ∧ b ≠ 0x30 ∧
      ∀ digit ∈ utf8 (toString n), isDigit digit = true := by
  by_cases zero : n = 0
  · subst zero
    exact .inl (by decide)
  · right
    have head := toDigits_head (Nat.pos_of_ne_zero zero)
    have digits := natural_digits n
    rw [utf8_natural] at digits ⊢
    cases chars : Nat.toDigits 10 n with
    | nil => exact absurd chars Nat.toDigits_ne_nil
    | cons c rest =>
        refine ⟨_, _, rfl, fun same => ?_, chars ▸ digits⟩
        have digit : c.isDigit = true :=
          Nat.isDigit_of_mem_toDigits (by decide) (by decide) (chars ▸ List.mem_cons_self)
        have := digit_bounds digit
        have value := congrArg UInt8.toNat same
        rw [UInt8.toNat_ofNat_of_lt' (by unfold UInt8.size; omega)] at value
        have zero : c = '0' := Char.toNat_inj.mp value
        exact head (by simp [chars, zero])

theorem decimal_natural (n : Nat) : decimal (utf8 (toString n)) = n := by
  rw [utf8_natural]
  have digits : ∀ c ∈ Nat.toDigits 10 n, c.isDigit = true := fun c member =>
    Nat.isDigit_of_mem_toDigits (by decide) (by decide) member
  have folded : ∀ (chars : List Char) (start : Nat), (∀ c ∈ chars, c.isDigit = true) →
      (chars.map fun c => UInt8.ofNat c.toNat).foldl (fun value b => 10 * value + (b.toNat - 48)) start =
        Nat.ofDigitChars 10 chars start := by
    intro chars
    induction chars with
    | nil => simp
    | cons c rest ih =>
        intro start all
        have := digit_bounds (all c (by simp))
        rw [List.map_cons, List.foldl_cons, Nat.ofDigitChars_cons,
          UInt8.toNat_ofNat_of_lt' (by unfold UInt8.size; omega)]
        exact ih _ fun c member => all c (by simp [member])
  exact (folded _ 0 digits).trans Nat.ofDigitChars_ten_toDigits

theorem utf8_append (first second : String) : utf8 (first ++ second) = utf8 first ++ utf8 second := by
  simp [utf8]

def intValue (parts : NumberParts) : Int :=
  if parts.sign = [] then decimal parts.whole else -decimal parts.whole

theorem int_parts (value : Int) : ∃ parts : NumberParts, parts.Valid ∧ parts.fraction = [] ∧
    parts.exponent = [] ∧ parts.text = utf8 (toString value) ∧ intValue parts = value := by
  cases value with
  | ofNat n =>
      refine ⟨⟨[], utf8 (toString n), [], []⟩, ⟨.inl rfl, natural_whole n, .inl rfl, .inl rfl⟩, rfl, rfl,
        ?_, ?_⟩
      · simp only [NumberParts.text, List.nil_append, List.append_nil]
        rfl
      · rw [intValue, if_pos rfl, decimal_natural]
        rfl
  | negSucc n =>
      refine ⟨⟨[0x2d], utf8 (toString (n + 1)), [], []⟩,
        ⟨.inr rfl, natural_whole (n + 1), .inl rfl, .inl rfl⟩, rfl, rfl, ?_, ?_⟩
      · have minus : toString (Int.negSucc n) = "-" ++ toString (n + 1) := rfl
        rw [minus, utf8_append]
        simp only [NumberParts.text, List.append_nil]
        rfl
      · rw [intValue, if_neg (by simp), decimal_natural]
        rfl

/-! Strings. -/

def hexValue (b : UInt8) : Option Nat :=
  if 0x30 ≤ b && b ≤ 0x39 then some (b.toNat - 48)
  else if 0x61 ≤ b && b ≤ 0x66 then some (b.toNat - 87)
  else if 0x41 ≤ b && b ≤ 0x46 then some (b.toNat - 55)
  else none

/-- Where the reader is in a string: `high` is the first half of a surrogate pair. -/
inductive TextState : Type
  | plain (high : Option Nat)
  | escape (high : Option Nat)
  | unicode (high : Option Nat) (left value : Nat)

def simpleEscape (b : UInt8) : Option UInt8 :=
  if b = 0x22 || b = 0x5c || b = 0x2f then some b
  else if b = 0x62 then some 0x08
  else if b = 0x66 then some 0x0c
  else if b = 0x6e then some 0x0a
  else if b = 0x72 then some 0x0d
  else if b = 0x74 then some 0x09
  else none

/-- A complete escape of four digits; a half of a pair that stands alone is not a character. -/
def unicodeEscape (high : Option Nat) (value : Nat) : Option (Bytes × Option Nat) :=
  let low := 0xdc00 ≤ value && value ≤ 0xdfff
  match high with
  | none =>
      if 0xd800 ≤ value && value ≤ 0xdbff then some ([], some value)
      else if low then none
      else some (utf8 (String.singleton (Char.ofNat value)), none)
  | some first =>
      if low then
        some (utf8 (String.singleton (Char.ofNat (0x10000 + (first - 0xd800) * 0x400 + (value - 0xdc00)))),
          none)
      else none

/-- The bytes of a string up to its closing quote, and what follows it. -/
def readBody : TextState → Bytes → Option (Bytes × Bytes)
  | _, [] => none
  | .plain high, b :: rest =>
      if b = 0x5c then readBody (.escape high) rest
      else if high.isSome || b < 0x20 then none
      else if b = 0x22 then some ([], rest)
      else (readBody (.plain none) rest).map fun (text, after) => (b :: text, after)
  | .escape high, b :: rest =>
      if b = 0x75 then readBody (.unicode high 3 0) rest
      else if high.isSome then none
      else (simpleEscape b).bind fun c =>
        (readBody (.plain none) rest).map fun (text, after) => (c :: text, after)
  | .unicode high left value, b :: rest =>
      (hexValue b).bind fun digit =>
        match left with
        | left + 1 => readBody (.unicode high left (value * 16 + digit)) rest
        | 0 => (unicodeEscape high (value * 16 + digit)).bind fun (bytes, pending) =>
            (readBody (.plain pending) rest).map fun (text, after) => (bytes ++ text, after)

def textOf (bytes : Bytes) : Option String := String.fromUTF8? ⟨bytes.toArray⟩

def readString (bytes : Bytes) : Option (String × Bytes) :=
  (readBody (.plain none) bytes).bind fun (text, rest) => (textOf text).map fun text => (text, rest)

theorem textOf_utf8 (text : String) : textOf (utf8 text) = some text := by
  have bytes : (⟨(utf8 text).toArray⟩ : ByteArray) = text.toByteArray := by simp [utf8]
  unfold textOf String.fromUTF8?
  rw [bytes, dif_pos text.isValidUTF8]
  rfl

theorem hexValue_hexDigit : ∀ digit < 16, hexValue (hexDigit digit) = some digit := by decide

theorem control_text : ∀ n < 32, unicodeEscape none n = some ([UInt8.ofNat n], none) := by
  decide +kernel

theorem readBody_escapeByte (b : UInt8) (rest : Bytes) :
    readBody (.plain none) (escapeByte b ++ rest) =
      (readBody (.plain none) rest).map fun (text, after) => (b :: text, after) := by
  unfold escapeByte
  split
  next quote => subst quote; rfl
  next quote =>
    split
    next slash => subst slash; rfl
    next slash =>
      split
      next same => subst same; rfl
      next =>
        split
        next same => subst same; rfl
        next =>
          split
          next same => subst same; rfl
          next =>
            split
            next same => subst same; rfl
            next =>
              split
              next same => subst same; rfl
              next =>
                split
                next control =>
                  have small : b.toNat < 32 := control
                  have value : ((0 * 16 + 0) * 16 + b.toNat / 16) * 16 + b.toNat % 16 = b.toNat := by omega
                  have zero : hexValue 0x30 = some 0 := rfl
                  have start : utf8 "\\u00" = [0x5c, 0x75, 0x30, 0x30] := by decide +kernel
                  have high := hexValue_hexDigit (b.toNat / 16) (by omega)
                  have low := hexValue_hexDigit (b.toNat % 16) (by omega)
                  have escaped := control_text b.toNat small
                  rw [UInt8.ofNat_toNat] at escaped
                  rw [start]
                  simp only [List.cons_append, List.nil_append, readBody, zero, high, low, Option.bind_some,
                    value, escaped, ↓reduceIte]
                next control =>
                  simp [readBody, slash, control, quote]

theorem readString_quote (text : String) (rest : Bytes) :
    readString ((utf8 text).flatMap escapeByte ++ 0x22 :: rest) = some (text, rest) := by
  have body : ∀ bytes : Bytes, readBody (.plain none) (bytes.flatMap escapeByte ++ 0x22 :: rest) =
      some (bytes, rest) := by
    intro bytes
    induction bytes with
    | nil => rfl
    | cons b bytes ih =>
        rw [List.flatMap_cons, List.append_assoc, readBody_escapeByte, ih]
        rfl
  simp [readString, body, textOf_utf8]

end Json

/-- Python's floats: which texts are the `repr` of one, and the `repr` of what a number is read as.
The laws are those of `repr`: it has a point or an exponent and reads back. -/
structure Floats where
  finite : String → Prop
  read : Bytes → String
  number : ∀ text, finite text → ∃ parts : Json.NumberParts, parts.Valid ∧
    (parts.fraction ≠ [] ∨ parts.exponent ≠ []) ∧ parts.text = utf8 text
  back : ∀ text, finite text → read (utf8 text) = text

namespace Json

/-- A number is an integer unless it has a point or an exponent. -/
def numberValue (floats : Floats) (parts : NumberParts) : Json :=
  if parts.fraction = [] ∧ parts.exponent = [] then int (intValue parts)
  else float (floats.read parts.text)

def readWord (text : String) (value : Json) (bytes : Bytes) : Option (Json × Bytes) :=
  if (utf8 text).isPrefixOf bytes then some (value, bytes.drop (utf8 text).length) else none

/-- The words of `json.loads`, by their first letter, and the numbers. -/
def readScalar (floats : Floats) (bytes : Bytes) : Option (Json × Bytes) :=
  match bytes with
  | [] => none
  | b :: rest =>
      if b = 0x6e then readWord "null" null bytes
      else if b = 0x74 then readWord "true" (bool true) bytes
      else if b = 0x66 then readWord "false" (bool false) bytes
      else if b = 0x4e then readWord "NaN" (float "nan") bytes
      else if b = 0x49 then readWord "Infinity" (float "inf") bytes
      else if b = 0x2d && rest.head? = some 0x49 then readWord "-Infinity" (float "-inf") bytes
      else (readNumber bytes).map fun (parts, after) => (numberValue floats parts, after)

variable (floats : Floats) (pairs : List (String × Json) → Option Json)

mutual

/-- One value, and what follows it.  The fuel bounds the nesting. -/
def readValue : (fuel : Nat) → Bytes → Option (Json × Bytes)
  | 0, _ => none
  | fuel + 1, bytes =>
      match bytes with
      | [] => none
      | b :: rest =>
          if b = 0x22 then (readString rest).map fun (text, after) => (str text, after)
          else if b = 0x5b then
            if (skipSpace rest).head? = some 0x5d then some (arr [], (skipSpace rest).tail)
            else (readItems fuel (skipSpace rest)).map fun (items, after) => (arr items, after)
          else if b = 0x7b then
            if (skipSpace rest).head? = some 0x7d then
              (pairs []).map fun value => (value, (skipSpace rest).tail)
            else (readMembers fuel (skipSpace rest)).bind fun (members, after) =>
              (pairs members).map fun value => (value, after)
          else readScalar floats bytes

def readItems : (fuel : Nat) → Bytes → Option (List Json × Bytes)
  | 0, _ => none
  | fuel + 1, bytes =>
      (readValue fuel bytes).bind fun (item, rest) =>
        match skipSpace rest with
        | [] => none
        | b :: later =>
            if b = 0x5d then some ([item], later)
            else if b = 0x2c then
              (readItems fuel (skipSpace later)).map fun (items, after) => (item :: items, after)
            else none

def readMembers : (fuel : Nat) → Bytes → Option (List (String × Json) × Bytes)
  | 0, _ => none
  | fuel + 1, bytes =>
      if bytes.head? = some 0x22 then
        (readString bytes.tail).bind fun (name, rest) =>
          if (skipSpace rest).head? = some 0x3a then
            (readValue fuel (skipSpace (skipSpace rest).tail)).bind fun (value, rest) =>
              match skipSpace rest with
              | [] => none
              | b :: later =>
                  if b = 0x7d then some ([(name, value)], later)
                  else if b = 0x2c then
                    (readMembers fuel (skipSpace later)).map fun (members, after) =>
                      ((name, value) :: members, after)
                  else none
          else none
      else none

end

/-- The whole text is one value.  `pairs` is the hook for the members of an object. -/
def readText (bytes : Bytes) : Option Json :=
  (readValue floats pairs (2 * bytes.length + 2) (skipSpace bytes)).bind fun (value, rest) =>
    if skipSpace rest = [] then some value else none

def setMember (found : List (String × Json)) (member : String × Json) : List (String × Json) :=
  if found.any fun entry => entry.1 = member.1 then
    found.map fun entry => if entry.1 = member.1 then member else entry
  else found ++ [member]

/-- `dict` of a list of pairs: the last value of a name, in the place of the first. -/
def dictOf (members : List (String × Json)) : List (String × Json) := members.foldl setMember []

/-- `json.loads` without a hook. -/
def loads (bytes : Bytes) : Option Json := readText floats (fun members => some (obj (dictOf members))) bytes

/-! The values that Python holds: floats are written by their `repr`, and a dict has no name twice. -/

mutual

def Genuine : Json → Prop
  | float text => floats.finite text ∨ text = "nan" ∨ text = "inf" ∨ text = "-inf"
  | arr items => GenuineItems items
  | obj members => (members.map Prod.fst).Nodup ∧ GenuineMembers members
  | _ => True

def GenuineItems : List Json → Prop
  | [] => True
  | item :: rest => item.Genuine ∧ GenuineItems rest

def GenuineMembers : List (String × Json) → Prop
  | [] => True
  | (_, value) :: rest => value.Genuine ∧ GenuineMembers rest

end

/-- The values that `canonical_json_bytes` accepts. -/
def Accepted (value : Json) : Prop := value.Genuine floats ∧ value.valid = true

/-! Bytes from which the reader gets a value back, whatever follows them. -/

def Opens (bytes : Bytes) : Prop := ∃ b rest, bytes = b :: rest ∧ isSpace b = false ∧ b ≠ 0x5d

def ReadsName (bytes : Bytes) (name : String) : Prop :=
  ∃ inside, bytes = 0x22 :: inside ∧ ∀ rest, readString (inside ++ rest) = some (name, rest)

structure Reads (bytes : Bytes) (value : Json) : Prop where
  opens : Opens bytes
  back : ∀ fuel rest, 2 * bytes.length ≤ fuel → Ends rest →
    readValue floats pairs fuel (bytes ++ rest) = some (value, rest)

structure ReadsItems (bytes : Bytes) (items : List Json) : Prop where
  opens : Opens bytes
  back : ∀ fuel rest, 2 * bytes.length + 1 ≤ fuel →
    readItems floats pairs fuel (bytes ++ 0x5d :: rest) = some (items, rest)

structure ReadsMembers (bytes : Bytes) (members : List (String × Json)) : Prop where
  opens : ∃ rest, bytes = 0x22 :: rest
  back : ∀ fuel rest, 2 * bytes.length + 1 ≤ fuel →
    readMembers floats pairs fuel (bytes ++ 0x7d :: rest) = some (members, rest)

variable {floats} {pairs}

theorem skipSpace_cons {b : UInt8} (rest : Bytes) (visible : isSpace b = false) :
    skipSpace (b :: rest) = b :: rest := by simp [skipSpace, visible]

theorem utf8_word (text : String) {bytes : Bytes} (same : utf8 text = bytes) (value : Json) (rest : Bytes) :
    readWord text value (bytes ++ rest) = some (value, rest) := by
  simp [readWord, same]

theorem digit_plain {b : UInt8} (digit : isDigit b = true) :
    b ≠ 0x22 ∧ b ≠ 0x5b ∧ b ≠ 0x7b ∧ b ≠ 0x6e ∧ b ≠ 0x74 ∧ b ≠ 0x66 ∧ b ≠ 0x4e ∧ b ≠ 0x49 ∧ b ≠ 0x2d ∧
      b ≠ 0x5d ∧ b ≠ 0x7d ∧ isSpace b = false := by
  refine ⟨?_, ?_, ?_, ?_, ?_, ?_, ?_, ?_, ?_, ?_, ?_, ?_⟩
  all_goals first
    | (rintro rfl; exact absurd digit (by decide))
    | skip
  simp only [isDigit, Bool.and_eq_true, decide_eq_true_eq, UInt8.le_iff_toNat_le] at digit
  simp only [isSpace, Bool.or_eq_false_iff, decide_eq_false_iff_not, ← UInt8.toNat_inj]
  have lower : 48 ≤ b.toNat := digit.1
  refine ⟨⟨⟨?_, ?_⟩, ?_⟩, ?_⟩ <;> simp <;> omega

/-- A number starts with a digit, or with a minus and a digit. -/
theorem number_head {parts : NumberParts} (valid : parts.Valid) :
    ∃ b rest, isDigit b = true ∧ (parts.text = b :: rest ∨ parts.text = 0x2d :: b :: rest) := by
  have whole : ∃ b rest, isDigit b = true ∧ parts.whole = b :: rest := by
    rcases valid.whole with zero | ⟨b, rest, same, _, all⟩
    · exact ⟨0x30, [], by decide, zero⟩
    · exact ⟨b, rest, all b (by simp [same]), same⟩
  obtain ⟨b, rest, digit, same⟩ := whole
  rcases valid.sign with none | minus
  · exact ⟨b, _, digit, .inl (by simp only [NumberParts.text, none, same]; rfl)⟩
  · exact ⟨b, _, digit, .inr (by simp only [NumberParts.text, minus, same]; rfl)⟩

theorem readValue_number {parts : NumberParts} (valid : parts.Valid) (fuel : Nat) {rest : Bytes}
    (ends : Ends rest) :
    readValue floats pairs (fuel + 1) (parts.text ++ rest) = some (numberValue floats parts, rest) := by
  have number := readNumber_text valid ends
  obtain ⟨b, tail, digit, shape⟩ := number_head valid
  obtain ⟨quote, bracket, brace, n, t, f, nan, infinity, minus, _⟩ := digit_plain digit
  rcases shape with shape | shape
  · rw [shape, List.cons_append] at number ⊢
    simp only [readValue, readScalar, quote, bracket, brace, n, t, f, nan, infinity, minus, ↓reduceIte,
      decide_false, Bool.false_and, Bool.false_eq_true, number, Option.map_some]
  · rw [shape, List.cons_append, List.cons_append] at number ⊢
    have word : ¬(some b = some (0x49 : UInt8)) := by simpa using infinity
    simp [readValue, readScalar, number, infinity]

/-! One lemma for each way to write a value. -/

theorem ends_close : ∀ rest, Ends (0x5d :: rest) := by simp [Ends]

theorem ends_brace : ∀ rest, Ends (0x7d :: rest) := by simp [Ends]

theorem ends_comma : ∀ rest, Ends (0x2c :: rest) := by simp [Ends]

theorem ends_nil : Ends [] := by simp [Ends]

theorem Opens.length_pos {bytes : Bytes} (opens : Opens bytes) : 0 < bytes.length := by
  obtain ⟨b, rest, rfl, _⟩ := opens
  simp

theorem Opens.append {bytes : Bytes} (opens : Opens bytes) (rest : Bytes) : Opens (bytes ++ rest) := by
  obtain ⟨b, tail, rfl, visible, other⟩ := opens
  exact ⟨b, tail ++ rest, rfl, visible, other⟩

theorem Opens.skip {bytes : Bytes} (opens : Opens bytes) : skipSpace bytes = bytes := by
  obtain ⟨b, rest, rfl, visible, _⟩ := opens
  exact skipSpace_cons rest visible

theorem Opens.head {bytes : Bytes} (opens : Opens bytes) : bytes.head? ≠ some 0x5d := by
  obtain ⟨b, rest, rfl, _, other⟩ := opens
  simpa using other

theorem ReadsMembers.skip {bytes rest : Bytes} {members : List (String × Json)}
    (inside : ReadsMembers floats pairs bytes members) : skipSpace (bytes ++ rest) = bytes ++ rest := by
  obtain ⟨tail, rfl⟩ := inside.opens
  exact skipSpace_cons _ (by decide)

theorem ReadsMembers.head {bytes rest : Bytes} {members : List (String × Json)}
    (inside : ReadsMembers floats pairs bytes members) : (bytes ++ rest).head? ≠ some 0x7d := by
  obtain ⟨tail, rfl⟩ := inside.opens
  simp

theorem ReadsName.quote (text : String) : ReadsName (quote text) text :=
  ⟨(utf8 text).flatMap escapeByte ++ utf8 "\"", rfl, fun rest => by
    rw [List.append_assoc]
    exact readString_quote text rest⟩

/-- A value is written with one byte at least, so there is fuel for it. -/
theorem Reads.of_step {bytes : Bytes} {value : Json} (opens : Opens bytes)
    (step : ∀ fuel rest, 2 * bytes.length ≤ fuel + 1 → Ends rest →
      readValue floats pairs (fuel + 1) (bytes ++ rest) = some (value, rest)) :
    Reads floats pairs bytes value := by
  refine ⟨opens, fun fuel rest enough ends => ?_⟩
  cases fuel with
  | zero =>
      have := opens.length_pos
      omega
  | succ fuel => exact step fuel rest enough ends

theorem Reads.null : Reads floats pairs (utf8 "null") null :=
  .of_step ⟨0x6e, _, rfl, by decide, by decide⟩ fun _ rest _ _ => utf8_word "null" rfl Json.null rest

theorem Reads.bool : ∀ value : Bool, Reads floats pairs (Json.bool value).encode (bool value)
  | true => .of_step ⟨0x74, _, rfl, by decide, by decide⟩ fun _ rest _ _ =>
      utf8_word "true" rfl (Json.bool true) rest
  | false => .of_step ⟨0x66, _, rfl, by decide, by decide⟩ fun _ rest _ _ =>
      utf8_word "false" rfl (Json.bool false) rest

theorem Reads.number {parts : NumberParts} (valid : parts.Valid) :
    Reads floats pairs parts.text (numberValue floats parts) := by
  have opens : Opens parts.text := by
    obtain ⟨b, rest, digit, shape⟩ := number_head valid
    obtain ⟨_, _, _, _, _, _, _, _, _, bracket, _, visible⟩ := digit_plain digit
    rcases shape with shape | shape
    · exact ⟨b, rest, shape, visible, bracket⟩
    · exact ⟨0x2d, _, shape, by decide, by decide⟩
  exact .of_step opens fun fuel rest _ ends => readValue_number valid fuel ends

theorem Reads.int (value : Int) : Reads floats pairs (utf8 (toString value)) (int value) := by
  obtain ⟨parts, valid, fraction, exponent, text, same⟩ := int_parts value
  have number : Reads floats pairs parts.text (numberValue floats parts) := .number valid
  rwa [text, numberValue, if_pos ⟨fraction, exponent⟩, same] at number

theorem Reads.float {text : String} (finite : floats.finite text) :
    Reads floats pairs (utf8 text) (float text) := by
  obtain ⟨parts, valid, pointed, same⟩ := floats.number text finite
  have fractional : ¬(parts.fraction = [] ∧ parts.exponent = []) := by tauto
  have number : Reads floats pairs parts.text (numberValue floats parts) := .number valid
  rwa [numberValue, if_neg fractional, same, floats.back text finite] at number

theorem Reads.str {bytes : Bytes} {text : String} (named : ReadsName bytes text) :
    Reads floats pairs bytes (str text) := by
  obtain ⟨inside, rfl, read⟩ := named
  refine .of_step ⟨0x22, inside, rfl, by decide, by decide⟩ fun fuel rest _ _ => ?_
  simp [readValue, read]

theorem ReadsItems.single {bytes : Bytes} {item : Json} (only : Reads floats pairs bytes item) :
    ReadsItems floats pairs bytes [item] := by
  refine ⟨only.opens, fun fuel rest enough => ?_⟩
  cases fuel with
  | zero => omega
  | succ fuel =>
      have read := only.back fuel (0x5d :: rest) (by omega) (ends_close rest)
      simp [readItems, read, skipSpace_cons rest (show isSpace 0x5d = false by decide)]

theorem ReadsItems.cons {bytes more : Bytes} {item : Json} {items : List Json}
    (first : Reads floats pairs bytes item) (later : ReadsItems floats pairs more items) :
    ReadsItems floats pairs (bytes ++ utf8 "," ++ more) (item :: items) := by
  refine ⟨(first.opens.append _).append _, fun fuel rest enough => ?_⟩
  have comma : utf8 "," = [0x2c] := rfl
  rw [comma, List.length_append, List.length_append, List.length_singleton] at enough
  cases fuel with
  | zero => omega
  | succ fuel =>
      have one := first.back fuel (0x2c :: (more ++ 0x5d :: rest)) (by omega) (ends_comma _)
      have others := later.back fuel rest (by omega)
      have bytes_split : bytes ++ utf8 "," ++ more ++ 0x5d :: rest =
          bytes ++ 0x2c :: (more ++ 0x5d :: rest) := by simp [comma]
      have visible := (later.opens.append (0x5d :: rest)).skip
      rw [bytes_split]
      simp [readItems, one, skipSpace_cons (more ++ 0x5d :: rest) (show isSpace 0x2c = false by decide),
        visible, others]

theorem Reads.emptyArr : Reads floats pairs (utf8 "[" ++ utf8 "]") (arr []) :=
  .of_step ⟨0x5b, _, rfl, by decide, by decide⟩ fun _ _ _ _ => rfl

theorem Reads.arr {bytes : Bytes} {items : List Json} (inside : ReadsItems floats pairs bytes items) :
    Reads floats pairs (utf8 "[" ++ bytes ++ utf8 "]") (arr items) := by
  have brackets : utf8 "[" = [0x5b] ∧ utf8 "]" = [0x5d] := ⟨rfl, rfl⟩
  rw [brackets.1, brackets.2]
  refine .of_step ⟨0x5b, bytes ++ [0x5d], rfl, by decide, by decide⟩ fun fuel rest enough _ => ?_
  rw [List.length_append, List.length_append, List.length_singleton, List.length_singleton] at enough
  have read := inside.back fuel rest (by omega)
  have opened := inside.opens.append (0x5d :: rest)
  have whole : [0x5b] ++ bytes ++ [0x5d] ++ rest = 0x5b :: (bytes ++ 0x5d :: rest) := by simp
  rw [whole]
  generalize bytes ++ 0x5d :: rest = text at opened read
  simp [readValue, opened.skip, opened.head, read]

theorem ReadsMembers.single {quoted bytes : Bytes} {name : String} {value : Json}
    (named : ReadsName quoted name) (only : Reads floats pairs bytes value) :
    ReadsMembers floats pairs (quoted ++ utf8 ":" ++ bytes) [(name, value)] := by
  obtain ⟨inside, rfl, read⟩ := named
  refine ⟨⟨_, rfl⟩, fun fuel rest enough => ?_⟩
  have colon : utf8 ":" = [0x3a] := rfl
  rw [colon, List.length_append, List.length_append, List.length_singleton] at enough
  cases fuel with
  | zero => omega
  | succ fuel =>
      have one := only.back fuel (0x7d :: rest) (by omega) (ends_brace rest)
      have whole : 0x22 :: inside ++ utf8 ":" ++ bytes ++ 0x7d :: rest =
          0x22 :: (inside ++ 0x3a :: (bytes ++ 0x7d :: rest)) := by simp [colon]
      have visible := (only.opens.append (0x7d :: rest)).skip
      rw [whole]
      simp [readMembers, read, one, visible,
        skipSpace_cons (bytes ++ 0x7d :: rest) (show isSpace 0x3a = false by decide),
        skipSpace_cons rest (show isSpace 0x7d = false by decide)]

theorem ReadsMembers.cons {quoted bytes more : Bytes} {name : String} {value : Json}
    {members : List (String × Json)} (named : ReadsName quoted name) (first : Reads floats pairs bytes value)
    (later : ReadsMembers floats pairs more members) :
    ReadsMembers floats pairs (quoted ++ utf8 ":" ++ bytes ++ utf8 "," ++ more) ((name, value) :: members) := by
  obtain ⟨inside, rfl, read⟩ := named
  refine ⟨⟨_, rfl⟩, fun fuel rest enough => ?_⟩
  have marks : utf8 ":" = [0x3a] ∧ utf8 "," = [0x2c] := ⟨rfl, rfl⟩
  rw [marks.1, marks.2] at enough
  simp only [List.length_append, List.length_singleton] at enough
  cases fuel with
  | zero => omega
  | succ fuel =>
      have one := first.back fuel (0x2c :: (more ++ 0x7d :: rest)) (by omega) (ends_comma _)
      have others := later.back fuel rest (by omega)
      have whole : 0x22 :: inside ++ utf8 ":" ++ bytes ++ utf8 "," ++ more ++ 0x7d :: rest =
          0x22 :: (inside ++ 0x3a :: (bytes ++ 0x2c :: (more ++ 0x7d :: rest))) := by simp [marks]
      have visible := (first.opens.append (0x2c :: (more ++ 0x7d :: rest))).skip
      have next : skipSpace (more ++ 0x7d :: rest) = more ++ 0x7d :: rest := later.skip
      rw [whole]
      simp [readMembers, read, one, visible, next, others,
        skipSpace_cons (bytes ++ 0x2c :: (more ++ 0x7d :: rest)) (show isSpace 0x3a = false by decide),
        skipSpace_cons (more ++ 0x7d :: rest) (show isSpace 0x2c = false by decide)]

theorem Reads.emptyObj {value : Json} (whole : pairs [] = some value) :
    Reads floats pairs (utf8 "\x7b" ++ utf8 "\x7d") value := by
  have braces : utf8 "\x7b" = [0x7b] ∧ utf8 "\x7d" = [0x7d] := ⟨rfl, rfl⟩
  rw [braces.1, braces.2]
  refine .of_step ⟨0x7b, _, rfl, by decide, by decide⟩ fun fuel rest _ _ => ?_
  simp [readValue, skipSpace_cons rest (show isSpace 0x7d = false by decide), whole]

/-- Whatever follows an object. -/
theorem ReadsMembers.readValue {bytes rest : Bytes} {members : List (String × Json)} {value : Json} {fuel : Nat}
    (inside : ReadsMembers floats pairs bytes members) (whole : pairs members = some value)
    (enough : 2 * bytes.length + 3 ≤ fuel + 1) :
    readValue floats pairs (fuel + 1) (utf8 "\x7b" ++ bytes ++ utf8 "\x7d" ++ rest) = some (value, rest) := by
  have braces : utf8 "\x7b" = [0x7b] ∧ utf8 "\x7d" = [0x7d] := ⟨rfl, rfl⟩
  rw [braces.1, braces.2]
  have read := inside.back fuel rest (by omega)
  have skip : skipSpace (bytes ++ 0x7d :: rest) = bytes ++ 0x7d :: rest := inside.skip
  have head : (bytes ++ 0x7d :: rest).head? ≠ some 0x7d := inside.head
  have same : [0x7b] ++ bytes ++ [0x7d] ++ rest = 0x7b :: (bytes ++ 0x7d :: rest) := by simp
  rw [same]
  generalize bytes ++ 0x7d :: rest = text at skip head read
  simp [Json.readValue, skip, head, read, whole]

theorem Reads.obj {bytes : Bytes} {members : List (String × Json)} {value : Json}
    (inside : ReadsMembers floats pairs bytes members) (whole : pairs members = some value) :
    Reads floats pairs (utf8 "\x7b" ++ bytes ++ utf8 "\x7d") value := by
  have braces : utf8 "\x7b" = [0x7b] ∧ utf8 "\x7d" = [0x7d] := ⟨rfl, rfl⟩
  refine .of_step ⟨0x7b, bytes ++ [0x7d], by rw [braces.1, braces.2]; rfl, by decide, by decide⟩ fun fuel rest enough _ => ?_
  rw [List.length_append, List.length_append, braces.1, braces.2, List.length_singleton, List.length_singleton] at enough
  exact inside.readValue whole (by omega)

/-- The whole text is one value. -/
theorem Reads.readText {bytes : Bytes} {value : Json} (reads : Reads floats pairs bytes value) :
    readText floats pairs bytes = some value := by
  have read := reads.back (2 * bytes.length + 2) [] (by omega) ends_nil
  rw [List.append_nil] at read
  rw [Json.readText, reads.opens.skip, read]
  rfl

/-! The round trip. -/

theorem Accepted.finite {text : String} (accepted : (Json.float text).Accepted floats) : floats.finite text := by
  obtain ⟨genuine, finite⟩ := accepted
  simp only [valid, Bool.and_eq_true, decide_eq_true_eq] at finite
  exact genuine.resolve_right (by simp_all)

theorem Accepted.item {item : Json} {rest : List Json} (accepted : (Json.arr (item :: rest)).Accepted floats) :
    item.Accepted floats ∧ (Json.arr rest).Accepted floats := by
  obtain ⟨genuine, checked⟩ := accepted
  simp only [valid, validItems, Bool.and_eq_true] at checked
  exact ⟨⟨genuine.1, checked.1⟩, genuine.2, checked.2⟩

theorem Accepted.member {name : String} {value : Json} {rest : List (String × Json)}
    (accepted : (Json.obj ((name, value) :: rest)).Accepted floats) :
    value.Accepted floats ∧ (Json.obj rest).Accepted floats := by
  obtain ⟨⟨distinct, genuine⟩, checked⟩ := accepted
  simp only [valid, validMembers, Bool.and_eq_true] at checked
  exact ⟨⟨genuine.1, checked.1⟩, ⟨distinct.of_cons, genuine.2⟩, checked.2⟩

mutual

/-- The reader gives an encoded value back. -/
theorem reads_encode (hook : ∀ members : List (String × Json), (members.map Prod.fst).Nodup →
    pairs members = some (Json.obj members)) :
    ∀ value : Json, value.Accepted floats → Reads floats pairs value.encode value
  | null, _ => .null
  | bool value, _ => .bool value
  | int value, _ => .int value
  | float _, accepted => .float accepted.finite
  | str text, _ => .str (.quote text)
  | arr [], _ => .emptyArr
  | arr (item :: items), accepted => .arr (readsItems_encode hook (item :: items) (by simp) accepted)
  | obj [], _ => .emptyObj (hook [] (by simp))
  | obj (member :: members), accepted =>
      .obj (readsMembers_encode hook (member :: members) (by simp) accepted) (hook _ accepted.1.1)

theorem readsItems_encode (hook : ∀ members : List (String × Json), (members.map Prod.fst).Nodup →
    pairs members = some (Json.obj members)) :
    ∀ items : List Json, items ≠ [] → (Json.arr items).Accepted floats →
      ReadsItems floats pairs (encodeItems items) items
  | [], nonempty, _ => absurd rfl nonempty
  | [item], _, accepted => .single (reads_encode hook item accepted.item.1)
  | item :: next :: items, _, accepted =>
      .cons (reads_encode hook item accepted.item.1)
        (readsItems_encode hook (next :: items) (by simp) accepted.item.2)

theorem readsMembers_encode (hook : ∀ members : List (String × Json), (members.map Prod.fst).Nodup →
    pairs members = some (Json.obj members)) :
    ∀ members : List (String × Json), members ≠ [] → (Json.obj members).Accepted floats →
      ReadsMembers floats pairs (encodeMembers members) members
  | [], nonempty, _ => absurd rfl nonempty
  | [(name, value)], _, accepted => .single (.quote name) (reads_encode hook value accepted.member.1)
  | (name, value) :: next :: members, _, accepted =>
      .cons (.quote name) (reads_encode hook value accepted.member.1)
        (readsMembers_encode hook (next :: members) (by simp) accepted.member.2)

end

theorem readText_encode {value : Json} (hook : ∀ members : List (String × Json),
    (members.map Prod.fst).Nodup → pairs members = some (Json.obj members))
    (accepted : value.Accepted floats) : readText floats pairs value.encode = some value :=
  (reads_encode hook value accepted).readText

/-- No object is a proper part of the beginning of another. -/
theorem encode_obj_append {first second : List (String × Json)} {one two : Bytes}
    (hook : ∀ members : List (String × Json), (members.map Prod.fst).Nodup → pairs members = some (Json.obj members))
    (firstAccepted : (obj first).Accepted floats) (secondAccepted : (obj second).Accepted floats) (firstSome : first ≠ [])
    (secondSome : second ≠ []) (same : (obj first).encode ++ one = (obj second).encode ++ two) : one = two := by
  let fuel := 2 * (encodeMembers first).length + 2 * (encodeMembers second).length + 3
  have firstRead : Json.readValue floats pairs (fuel + 1) ((obj first).encode ++ one) = some (obj first, one) :=
    (readsMembers_encode hook first firstSome firstAccepted).readValue (hook _ firstAccepted.1.1) (by omega)
  have secondRead : Json.readValue floats pairs (fuel + 1) ((obj second).encode ++ two) = some (obj second, two) :=
    (readsMembers_encode hook second secondSome secondAccepted).readValue (hook _ secondAccepted.1.1) (by omega)
  rw [same, secondRead] at firstRead
  exact (Prod.mk.inj (Option.some.inj firstRead)).2.symm

end Json

end AgentTree
