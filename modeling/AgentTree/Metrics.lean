import AgentTree.Dictionary
import AgentTree.Outcome
import AgentTree.StoreSchema
import Mathlib.Data.List.DropRight
import Mathlib.Data.List.Lex
import Mathlib.Data.Prod.Lex
import Mathlib.Data.String.Basic

/-!
The counters of `metrics.py` and the text that `render` exposes.  A scraper reads every counter back
from that text, in whatever order the increments took the lock.
-/

namespace AgentTree

open Outcome Relational

/-- A counter's name and its labels, compared as the tuples are. -/
abbrev MetricKey := String ×ₗ List (String ×ₗ String)

structure Metrics where
  counters : Dict MetricKey Nat

namespace Metrics

def new : Metrics := ⟨Table.empty⟩

/-- Tenants are exposed by a digest only. -/
def safeLabels (digest : String → String) (labels : Dict String String) : Dict String String :=
  labels.mapValues fun key value => if key = "tenant" then "tenant-" ++ digest value else value

def keyOf (digest : String → String) (name : String) (labels : Dict String String) : MetricKey :=
  toLex (name, (safeLabels digest labels).sorted.rows.map toLex)

/-- A missing counter of the `defaultdict` is zero. -/
def count (metrics : Metrics) (key : MetricKey) : Nat := (metrics.counters.get? key).getD 0

def add (metrics : Metrics) (key : MetricKey) (value : Nat) : Metrics :=
  ⟨metrics.counters.set key (metrics.count key + value)⟩

/-- Every caller increments by a whole number. -/
def increment (digest : String → String) (metrics : Metrics) (name : String) (value : Int)
    (labels : Dict String String) : Except PyError Metrics := do
  ensure (0 ≤ value) (.valueError "counter increments must be nonnegative")
  return metrics.add (keyOf digest name labels) value.toNat

/-! `render`, on the characters of its text. -/

/-- `text.replace(old, new)` for one character. -/
def replaceChar (old : Char) (new : List Char) (text : List Char) : List Char :=
  text.flatMap fun c => if c = old then new else [c]

def escape (value : List Char) : List Char :=
  replaceChar '"' ['\\', '"'] (replaceChar '\n' ['\\', 'n'] (replaceChar '\\' ['\\', '\\'] value))

def roundHalfEven (value unit : Nat) : Nat :=
  let quotient := value / unit
  let twice := 2 * (value % unit)
  if unit < twice || (unit = twice && quotient % 2 = 1) then quotient + 1 else quotient

/-- `text.rstrip("0")`. -/
def stripZeros (digits : List Char) : List Char := digits.rdropWhile fun c => c = '0'

/-- How many digits a whole number has beyond the six that are shown. -/
def hidden (value : Nat) : Nat := (Nat.toDigits 10 value).length - 6

/-- `{value:g}` of a whole number: six significant digits. -/
def general (value : Nat) : List Char :=
  if value < 1000000 then Nat.toDigits 10 value
  else
    let digits := Nat.toDigits 10 (roundHalfEven value (10 ^ hidden value))
    let exponent := hidden value + (digits.length - 1)
    let fraction := stripZeros (digits.drop 1)
    digits.take 1 ++ ((if fraction = [] then [] else '.' :: fraction) ++ 'e' :: '+' ::
      ((if exponent < 10 then ['0'] else []) ++ Nat.toDigits 10 exponent))

def labelText (label : String ×ₗ String) : List Char :=
  (ofLex label).1.toList ++ ['=', '"'] ++ escape (ofLex label).2.toList ++ ['"']

def labelsText (labels : List (String ×ₗ String)) : List Char :=
  if labels = [] then [] else '\x7b' :: ([','].intercalate (labels.map labelText) ++ ['\x7d'])

def metricPrefix : List Char := "agent_tree_rl_".toList

def seriesLine (entry : MetricKey × Nat) : List Char :=
  metricPrefix ++ (ofLex entry.1).1.toList ++ labelsText (ofLex entry.1).2 ++ ' ' :: general entry.2

/-- `{seconds:.3f}` of an uptime in milliseconds. -/
def uptimeText (milliseconds : Nat) : List Char :=
  Nat.toDigits 10 (milliseconds / 1000) ++ '.' ::
    [milliseconds / 100, milliseconds / 10, milliseconds].map fun n => Nat.digitChar (n % 10)

def lines (metrics : Metrics) (uptime : Nat) : List (List Char) :=
  "# TYPE agent_tree_rl_uptime_seconds gauge".toList ::
    ("agent_tree_rl_uptime_seconds ".toList ++ uptimeText uptime) ::
    metrics.counters.sorted.rows.map seriesLine

def render (metrics : Metrics) (uptime : Nat) : String :=
  String.ofList (['\n'].intercalate (metrics.lines uptime) ++ ['\n'])

/-! A scraper reads the lines of the counters. -/

def isNameChar (c : Char) : Bool := c.isAlphanum || c = '_'

/-- The value of a label, up to its closing quote. -/
def readLabelValue : List Char → Option (List Char × List Char)
  | [] => none
  | c :: rest =>
      if c = '"' then some ([], rest)
      else if c = '\\' then
        match rest with
        | [] => none
        | d :: more => (readLabelValue more).map fun read => ((if d = 'n' then '\n' else d) :: read.1, read.2)
      else (readLabelValue rest).map fun read => (c :: read.1, read.2)

def readLabel (text : List Char) : Option ((String ×ₗ String) × List Char) :=
  if (text.dropWhile isNameChar).take 2 = ['=', '"'] then
    (readLabelValue ((text.dropWhile isNameChar).drop 2)).map fun read =>
      (toLex (String.ofList (text.takeWhile isNameChar), String.ofList read.1), read.2)
  else none

/-- Labels up to the closing brace. -/
def readLabels : (fuel : Nat) → List Char → Option (List (String ×ₗ String) × List Char)
  | 0, _ => none
  | fuel + 1, text => (readLabel text).bind fun read =>
      match read.2 with
      | [] => none
      | c :: rest =>
          if c = '\x7d' then some ([read.1], rest)
          else if c = ',' then (readLabels fuel rest).map fun more => (read.1 :: more.1, more.2)
          else none

/-- A whole number, written out or with an exponent. -/
def readNumber (text : List Char) : Option Nat :=
  let whole := text.takeWhile Char.isDigit
  let rest := text.dropWhile Char.isDigit
  if whole = [] then none
  else if rest = [] then some (Nat.ofDigitChars 10 whole 0)
  else
    let fraction := if rest.head? = some '.' then rest.tail.takeWhile Char.isDigit else []
    let power := if rest.head? = some '.' then rest.tail.dropWhile Char.isDigit else rest
    let exponent := Nat.ofDigitChars 10 (power.drop 2) 0
    if power.take 2 = ['e', '+'] && (power.drop 2).all Char.isDigit && fraction.length ≤ exponent then
      some (Nat.ofDigitChars 10 (whole ++ fraction) 0 * 10 ^ (exponent - fraction.length))
    else none

def readSeries (line : List Char) : Option (MetricKey × Nat) :=
  if metricPrefix.isPrefixOf line then
    let text := line.drop metricPrefix.length
    let name := text.takeWhile isNameChar
    let rest := text.dropWhile isNameChar
    (if rest.head? = some '\x7b' then readLabels rest.length rest.tail else some ([], rest)).bind fun read =>
      if read.2.head? = some ' ' then
        (readNumber read.2.tail).map fun value => (toLex (String.ofList name, read.1), value)
      else none
  else none

/-- The counters in the text of `render`, after the uptime. -/
def scrape (text : String) : Option (List (MetricKey × Nat)) :=
  (((text.toList.splitOn '\n').drop 2).dropLast).mapM readSeries

/-! The three replacements of `_escape` are one pass over the characters. -/

def escapeChar (c : Char) : List Char :=
  if c = '\\' then ['\\', '\\'] else if c = '\n' then ['\\', 'n'] else if c = '"' then ['\\', '"'] else [c]

theorem replaceChar_append (old : Char) (new first second : List Char) :
    replaceChar old new (first ++ second) = replaceChar old new first ++ replaceChar old new second :=
  List.flatMap_append

theorem escape_eq (value : List Char) : escape value = value.flatMap escapeChar := by
  induction value with
  | nil => rfl
  | cons c rest ih =>
      have one : escape (c :: rest) = escape [c] ++ escape rest := by
        rw [← List.singleton_append, escape, replaceChar_append, replaceChar_append, replaceChar_append]
        rfl
      rw [one, ih, List.flatMap_cons]
      congr 1
      by_cases slash : c = '\\'
      · subst slash
        rfl
      by_cases line : c = '\n'
      · subst line
        rfl
      by_cases mark : c = '"'
      · subst mark
        rfl
      simp [escape, replaceChar, escapeChar, slash, line, mark]

theorem readLabelValue_escape (value rest : List Char) :
    readLabelValue (escape value ++ '"' :: rest) = some (value, rest) := by
  rw [escape_eq]
  induction value with
  | nil =>
      unfold readLabelValue
      simp
  | cons c more ih =>
      rw [List.flatMap_cons, List.append_assoc]
      by_cases slash : c = '\\'
      · subst slash
        simp [escapeChar, readLabelValue, ih]
      by_cases line : c = '\n'
      · subst line
        simp [escapeChar, readLabelValue, ih]
      by_cases mark : c = '"'
      · subst mark
        simp [escapeChar, readLabelValue, ih]
      have plain : escapeChar c = [c] := by simp [escapeChar, slash, line, mark]
      rw [plain, List.singleton_append]
      unfold readLabelValue
      simp [slash, mark, ih]

/-- A text that a scraper reads as a name. -/
def Identifier (name : String) : Prop := ∀ c ∈ name.toList, isNameChar c = true

theorem readName_append {name : String} (named : Identifier name) {c : Char} (ends : isNameChar c = false)
    (rest : List Char) : (name.toList ++ c :: rest).takeWhile isNameChar = name.toList ∧
      (name.toList ++ c :: rest).dropWhile isNameChar = c :: rest := by
  rw [List.takeWhile_append_of_pos named, List.dropWhile_append_of_pos named]
  simp [ends]

theorem readLabel_text {label : String ×ₗ String} (named : Identifier (ofLex label).1) (rest : List Char) :
    readLabel (labelText label ++ rest) = some (label, rest) := by
  have text : labelText label ++ rest = (ofLex label).1.toList ++
      '=' :: ('"' :: (escape (ofLex label).2.toList ++ '"' :: rest)) := by
    simp [labelText]
  obtain ⟨taken, dropped⟩ := readName_append named (c := '=') (by decide)
    ('"' :: (escape (ofLex label).2.toList ++ '"' :: rest))
  rw [text, readLabel, taken, dropped]
  simp [readLabelValue_escape]

theorem readLabels_text {labels : List (String ×ₗ String)} (named : ∀ label ∈ labels, Identifier (ofLex label).1)
    (some_label : labels ≠ []) {fuel : Nat} (enough : labels.length ≤ fuel) (rest : List Char) :
    readLabels fuel ([','].intercalate (labels.map labelText) ++ '\x7d' :: rest) = some (labels, rest) := by
  induction labels generalizing fuel with
  | nil => exact absurd rfl some_label
  | cons label more ih =>
      obtain ⟨fuel, rfl⟩ : ∃ less, fuel = less + 1 := ⟨fuel - 1, by simp only [List.length_cons] at enough; omega⟩
      have first := named label (by simp)
      cases more with
      | nil =>
          have text : [','].intercalate ([label].map labelText) ++ '\x7d' :: rest =
              labelText label ++ '\x7d' :: rest := by simp [List.intercalate]
          rw [text, readLabels, readLabel_text first]
          simp
      | cons second others =>
          have text : [','].intercalate ((label :: second :: others).map labelText) ++ '\x7d' :: rest =
              labelText label ++ ',' :: ([','].intercalate ((second :: others).map labelText) ++ '\x7d' :: rest) := by
            simp [List.intercalate]
          have fewer : (second :: others).length ≤ fuel := by simpa using enough
          have later := ih (fun other member => named other (by simp [member])) (by simp) fewer
          rw [text, readLabels, readLabel_text first, Option.bind_some]
          simp only [later, Option.map_some]
          rfl

theorem intercalate_cons (separator : Char) (first second : List Char) (others : List (List Char)) :
    [separator].intercalate (first :: second :: others) =
      first ++ separator :: [separator].intercalate (second :: others) := by
  simp [List.intercalate]

theorem length_le_intercalate (texts : List (List Char)) : texts.length ≤ ([','].intercalate texts).length + 1 := by
  induction texts with
  | nil => simp
  | cons first rest ih =>
      cases rest with
      | nil => simp
      | cons second others =>
          rw [intercalate_cons]
          simp only [List.length_cons, List.length_append] at ih ⊢
          omega

/-- A key that a scraper reads back. -/
def Named (key : MetricKey) : Prop :=
  Identifier (ofLex key).1 ∧ ∀ label ∈ (ofLex key).2, Identifier (ofLex label).1

theorem digits_toDigits (value : Nat) : ∀ c ∈ Nat.toDigits 10 value, c.isDigit = true := fun _ member =>
  Nat.isDigit_of_mem_toDigits (by decide) (by decide) member

/-- The number that six significant digits stand for. -/
def shown (value : Nat) : Nat :=
  if value < 1000000 then value else roundHalfEven value (10 ^ hidden value) * 10 ^ hidden value

theorem stripZeros_append (digits : List Char) :
    ∃ count, digits = stripZeros digits ++ List.replicate count '0' := by
  have zeros : digits.rtakeWhile (fun c => c = '0') =
      List.replicate (digits.rtakeWhile fun c => c = '0').length '0' :=
    List.eq_replicate_of_mem fun c member => by simpa using List.mem_rtakeWhile_imp member
  refine ⟨(digits.rtakeWhile fun c => c = '0').length, ?_⟩
  rw [← zeros]
  exact List.rdropWhile_append_rtakeWhile.symm

theorem readNumber_digits (value : Nat) : readNumber (Nat.toDigits 10 value) = some value := by
  have taken : (Nat.toDigits 10 value).takeWhile Char.isDigit = Nat.toDigits 10 value :=
    List.takeWhile_eq_self_iff.mpr (digits_toDigits value)
  have dropped : (Nat.toDigits 10 value).dropWhile Char.isDigit = [] :=
    List.dropWhile_eq_nil_iff.mpr (digits_toDigits value)
  rw [readNumber, taken, dropped]
  simp

theorem readNumber_exponent {d : Char} {fraction : List Char} (digit : d.isDigit = true)
    (digits : ∀ c ∈ fraction, c.isDigit = true) {exponent : Nat} (fits : fraction.length ≤ exponent) :
    readNumber (d :: ((if fraction = [] then [] else '.' :: fraction) ++ 'e' :: '+' ::
      ((if exponent < 10 then ['0'] else []) ++ Nat.toDigits 10 exponent))) =
      some (Nat.ofDigitChars 10 (d :: fraction) 0 * 10 ^ (exponent - fraction.length)) := by
  have power : ∀ c ∈ (if exponent < 10 then ['0'] else []) ++ Nat.toDigits 10 exponent, c.isDigit = true := by
    intro c member
    rcases List.mem_append.mp member with pad | there
    · split at pad
      · rw [List.mem_singleton.mp pad]
        decide
      · simp at pad
    · exact digits_toDigits exponent c there
  have read : Nat.ofDigitChars 10 ((if exponent < 10 then ['0'] else []) ++ Nat.toDigits 10 exponent) 0 = exponent := by
    split <;> simp [Nat.ofDigitChars_cons]
  generalize (if exponent < 10 then ['0'] else []) ++ Nat.toDigits 10 exponent = tail at power read
  by_cases none : fraction = []
  · subst none
    simpa [readNumber, digit, read] using power
  · have taken : (fraction ++ 'e' :: '+' :: tail).takeWhile Char.isDigit = fraction := by
      rw [List.takeWhile_append_of_pos digits]
      simp
    have dropped : (fraction ++ 'e' :: '+' :: tail).dropWhile Char.isDigit = 'e' :: '+' :: tail := by
      rw [List.dropWhile_append_of_pos digits]
      simp
    simpa [readNumber, digit, none, taken, dropped, read, fits] using power

/-- A scraper reads the number that is shown. -/
theorem readNumber_general (value : Nat) : readNumber (general value) = some (shown value) := by
  by_cases small : value < 1000000
  · rw [general, if_pos small, shown, if_pos small, readNumber_digits]
  · rw [general, if_neg small, shown, if_neg small]
    have digits := digits_toDigits (roundHalfEven value (10 ^ hidden value))
    have back : Nat.ofDigitChars 10 (Nat.toDigits 10 (roundHalfEven value (10 ^ hidden value))) 0 =
        roundHalfEven value (10 ^ hidden value) := Nat.ofDigitChars_ten_toDigits
    generalize roundHalfEven value (10 ^ hidden value) = rounded at digits back ⊢
    obtain ⟨d, rest, shape⟩ := List.exists_cons_of_ne_nil (Nat.toDigits_ne_nil (n := rounded) (b := 10))
    obtain ⟨count, zeros⟩ := stripZeros_append rest
    have long : rest.length = (stripZeros rest).length + count := by
      conv_lhs => rw [zeros]
      simp
    have stripped : ∀ c ∈ stripZeros rest, c.isDigit = true := fun c member =>
      digits c (by rw [shape, zeros]; simp [member])
    have joined : d :: rest = (d :: stripZeros rest) ++ List.replicate count '0' := by
      rw [List.cons_append, ← zeros]
    have number : rounded = Nat.ofDigitChars 10 (d :: stripZeros rest) 0 * 10 ^ count :=
      calc rounded = Nat.ofDigitChars 10 (Nat.toDigits 10 rounded) 0 := back.symm
        _ = Nat.ofDigitChars 10 ((d :: stripZeros rest) ++ List.replicate count '0') 0 := by rw [shape, joined]
        _ = Nat.ofDigitChars 10 (d :: stripZeros rest) 0 * 10 ^ count := by
          rw [Nat.ofDigitChars_append, Nat.ofDigitChars_replicate_zero, Nat.mul_comm]
    have fits : (stripZeros rest).length ≤ hidden value + rest.length := by omega
    have read := readNumber_exponent (digits d (by simp [shape])) stripped fits
    simp only [shape, List.drop_succ_cons, List.drop_zero, List.take_succ_cons, List.take_zero, List.singleton_append,
      List.length_cons, Nat.add_sub_cancel]
    rw [read, number, Nat.mul_assoc, ← Nat.pow_add]
    congr 3
    omega

theorem readSeries_line {entry : MetricKey × Nat} (named : Named entry.1) :
    readSeries (seriesLine entry) = some (entry.1, shown entry.2) := by
  obtain ⟨key, value⟩ := entry
  obtain ⟨identifier, labelled⟩ := named
  have line : seriesLine (key, value) = metricPrefix ++
      ((ofLex key).1.toList ++ (labelsText (ofLex key).2 ++ ' ' :: general value)) := by
    simp [seriesLine]
  have whole : metricPrefix.isPrefixOf (seriesLine (key, value)) = true := by
    rw [line, List.isPrefixOf_iff_prefix]
    exact List.prefix_append _ _
  rw [readSeries, if_pos whole, line, List.drop_left]
  by_cases unlabelled : (ofLex key).2 = []
  · have text : labelsText (ofLex key).2 ++ ' ' :: general value = ' ' :: general value := by
      simp [labelsText, unlabelled]
    obtain ⟨taken, dropped⟩ := readName_append identifier (c := ' ') (by decide) (general value)
    have rebuilt : toLex ((ofLex key).1, []) = key := by rw [← unlabelled]; rfl
    simp [text, taken, dropped, rebuilt, readNumber_general]
  · have text : labelsText (ofLex key).2 ++ ' ' :: general value =
        '\x7b' :: ([','].intercalate ((ofLex key).2.map labelText) ++ '\x7d' :: ' ' :: general value) := by
      simp [labelsText, unlabelled]
    obtain ⟨taken, dropped⟩ := readName_append identifier (c := '\x7b') (by decide)
      ([','].intercalate ((ofLex key).2.map labelText) ++ '\x7d' :: ' ' :: general value)
    have long := length_le_intercalate ((ofLex key).2.map labelText)
    rw [List.length_map] at long
    have read : ∀ fuel, ([','].intercalate ((ofLex key).2.map labelText)).length + 1 ≤ fuel →
        readLabels fuel ([','].intercalate ((ofLex key).2.map labelText) ++ '\x7d' :: ' ' :: general value) =
          some ((ofLex key).2, ' ' :: general value) := fun fuel enough =>
      readLabels_text labelled unlabelled (long.trans enough) _
    rw [text]
    simp only [taken, dropped, List.head?_cons, if_true, List.tail_cons]
    rw [read _ (by simp only [List.length_cons, List.length_append]; omega)]
    simp [readNumber_general]

/-! No line has a line break in it. -/

theorem Identifier.unbroken {name : String} (named : Identifier name) : '\n' ∉ name.toList := by
  intro broken
  exact absurd (named _ broken) (by decide)

theorem toDigits_unbroken (value : Nat) : '\n' ∉ Nat.toDigits 10 value := by
  intro broken
  exact absurd (digits_toDigits value _ broken) (by decide)

theorem escape_unbroken (value : List Char) : '\n' ∉ escape value := by
  rw [escape_eq, List.mem_flatMap]
  rintro ⟨c, _, broken⟩
  unfold escapeChar at broken
  split at broken
  · simp at broken
  · split at broken
    · simp at broken
    · split at broken
      · simp at broken
      · next line _ => exact line (List.mem_singleton.mp broken).symm

theorem labelText_unbroken {label : String ×ₗ String} (named : Identifier (ofLex label).1) :
    '\n' ∉ labelText label := by
  simp [labelText, named.unbroken, escape_unbroken]

theorem intercalate_unbroken {texts : List (List Char)} (unbroken : ∀ text ∈ texts, '\n' ∉ text) :
    '\n' ∉ [','].intercalate texts := by
  induction texts with
  | nil => simp
  | cons first rest ih =>
      have later := ih fun text member => unbroken text (by simp [member])
      cases rest with
      | nil => simpa using unbroken first (by simp)
      | cons second others =>
          rw [intercalate_cons]
          simp [unbroken first (by simp), later]

theorem labelsText_unbroken {labels : List (String ×ₗ String)}
    (named : ∀ label ∈ labels, Identifier (ofLex label).1) : '\n' ∉ labelsText labels := by
  have joined : '\n' ∉ [','].intercalate (labels.map labelText) := by
    refine intercalate_unbroken fun text member => ?_
    obtain ⟨label, there, rfl⟩ := List.mem_map.mp member
    exact labelText_unbroken (named label there)
  unfold labelsText
  split
  · simp
  · simp [joined]

theorem stripZeros_unbroken {digits : List Char} (unbroken : '\n' ∉ digits) : '\n' ∉ stripZeros digits :=
  fun broken => unbroken ((List.rdropWhile_prefix _ _).subset broken)

theorem general_unbroken (value : Nat) : '\n' ∉ general value := by
  unfold general
  split
  · exact toDigits_unbroken value
  · have digits := toDigits_unbroken (roundHalfEven value (10 ^ hidden value))
    have first : '\n' ∉ (Nat.toDigits 10 (roundHalfEven value (10 ^ hidden value))).take 1 := fun broken =>
      digits (List.mem_of_mem_take broken)
    have fraction : '\n' ∉ stripZeros ((Nat.toDigits 10 (roundHalfEven value (10 ^ hidden value))).drop 1) :=
      stripZeros_unbroken fun broken => digits (List.mem_of_mem_drop broken)
    simp only [List.mem_append, List.mem_cons, not_or]
    refine ⟨first, ?_, by decide, by decide, ?_, toDigits_unbroken _⟩
    · split
      · simp
      · simpa using fraction
    · split <;> simp

theorem seriesLine_unbroken {entry : MetricKey × Nat} (named : Named entry.1) : '\n' ∉ seriesLine entry := by
  have start : '\n' ∉ metricPrefix := by decide
  simp [seriesLine, start, named.1.unbroken, labelsText_unbroken named.2, general_unbroken]

theorem uptimeText_unbroken (milliseconds : Nat) : '\n' ∉ uptimeText milliseconds := by
  have digit : ∀ n, '\n' ≠ Nat.digitChar (n % 10) := by
    intro n same
    have small : n % 10 < 10 := Nat.mod_lt n (by decide)
    have plain : (Nat.digitChar (n % 10)).isDigit = true := by simp [Nat.isDigit_digitChar, small]
    rw [← same] at plain
    exact absurd plain (by decide)
  simp [uptimeText, toDigits_unbroken, digit]

theorem intercalate_snoc (first : List Char) (rest : List (List Char)) :
    ['\n'].intercalate (first :: rest) ++ ['\n'] = ['\n'].intercalate (first :: rest ++ [[]]) := by
  induction rest generalizing first with
  | nil => simp [List.intercalate]
  | cons second others ih =>
      rw [intercalate_cons, List.cons_append, List.cons_append, intercalate_cons, List.append_assoc, List.cons_append,
        ih]
      rfl

theorem readSeries_lines {entries : List (MetricKey × Nat)} (named : ∀ entry ∈ entries, Named entry.1) :
    (entries.map seriesLine).mapM readSeries = some (entries.map fun entry => (entry.1, shown entry.2)) := by
  induction entries with
  | nil => rfl
  | cons entry rest ih =>
      simp [readSeries_line (named entry (by simp)), ih fun other member => named other (by simp [member])]

/-- Whatever was counted under names a scraper knows is read back, up to six digits. -/
theorem scrape_render {metrics : Metrics} (named : ∀ entry ∈ metrics.counters.rows, Named entry.1) (uptime : Nat) :
    scrape (metrics.render uptime) =
      some (metrics.counters.sorted.rows.map fun entry => (entry.1, shown entry.2)) := by
  have unbroken : ∀ line ∈ metrics.lines uptime ++ [[]], '\n' ∉ line := by
    intro line member
    simp only [lines, List.cons_append, List.mem_cons, List.mem_append, List.mem_map, List.not_mem_nil,
      or_false] at member
    rcases member with rfl | rfl | ⟨entry, there, rfl⟩ | rfl
    · decide
    · have start : '\n' ∉ "agent_tree_rl_uptime_seconds ".toList := by decide
      rw [List.mem_append, not_or]
      exact ⟨start, uptimeText_unbroken uptime⟩
    · exact seriesLine_unbroken (named entry (Dict.mem_sorted.mp there))
    · simp
  have split : (metrics.render uptime).toList.splitOn '\n' = metrics.lines uptime ++ [[]] := by
    rw [render, String.toList_ofList, lines, intercalate_snoc]
    exact List.splitOn_intercalate '\n' unbroken (by simp)
  rw [scrape, split]
  have body : ((metrics.lines uptime ++ [[]]).drop 2).dropLast = metrics.counters.sorted.rows.map seriesLine := by
    simp [lines]
  rw [body]
  exact readSeries_lines fun entry there => named entry (Dict.mem_sorted.mp there)

/-! Increments from any number of threads, in the order in which they take the lock. -/

/-- One call of `increment`. -/
structure Increment where
  name : String
  labels : Dict String String
  value : Nat

variable (digest : String → String)

def Increment.key (call : Increment) : MetricKey := keyOf digest call.name call.labels

def record (metrics : Metrics) (calls : List Increment) : Except PyError Metrics :=
  calls.foldlM (fun metrics call => increment digest metrics call.name call.value call.labels) metrics

/-- What the calls have added to one counter. -/
def total (calls : List Increment) (key : MetricKey) : Nat :=
  ((calls.filter fun call => call.key digest = key).map Increment.value).sum

variable {digest}

theorem increment_call (metrics : Metrics) (call : Increment) :
    increment digest metrics call.name call.value call.labels =
      .ok (metrics.add (call.key digest) call.value) := by
  simp [increment, ensure, Increment.key, bind, Except.bind, pure, Except.pure]

theorem total_cons (call : Increment) (rest : List Increment) (key : MetricKey) :
    total digest (call :: rest) key = (if call.key digest = key then call.value else 0) + total digest rest key := by
  by_cases same : call.key digest = key <;> simp [total, same]

theorem count_add (metrics : Metrics) (key other : MetricKey) (value : Nat) :
    (metrics.add key value).count other = metrics.count other + if key = other then value else 0 := by
  simp only [count, add, Dict.get?_set]
  by_cases same : other = key
  · subst same
    simp
  · simp [same, Ne.symm same]

theorem held_add (metrics : Metrics) (key other : MetricKey) (value : Nat) :
    other ∈ (metrics.add key value).counters.keys ↔ key = other ∨ other ∈ metrics.counters.keys := by
  simp only [← Dict.contains_iff, Dict.contains, add, Dict.get?_set]
  by_cases same : other = key
  · simp [same]
  · simp [same, Ne.symm same]

/-- The counters after any calls: each holds what was there and what the calls have added. -/
theorem record_ok (digest : String → String) (metrics : Metrics) (calls : List Increment) :
    ∃ after, record digest metrics calls = .ok after ∧ ∀ key n, (key, n) ∈ after.counters.rows ↔
      ((∃ call ∈ calls, call.key digest = key) ∨ key ∈ metrics.counters.keys) ∧
        n = metrics.count key + total digest calls key := by
  induction calls generalizing metrics with
  | nil =>
      refine ⟨metrics, rfl, fun key n => ?_⟩
      rw [← Dict.get?_eq_some, ← Dict.contains_iff, Dict.contains, count]
      cases metrics.counters.get? key <;> simp [total, eq_comm]
  | cons call rest ih =>
      obtain ⟨after, recorded, holds⟩ := ih (metrics.add (call.key digest) call.value)
      refine ⟨after, ?_, fun key n => ?_⟩
      · rw [record, List.foldlM_cons, increment_call]
        exact recorded
      · rw [holds, held_add, count_add, total_cons]
        constructor
        · rintro ⟨present, rfl⟩
          refine ⟨?_, by omega⟩
          rcases present with ⟨other, member, same⟩ | same | there
          · exact .inl ⟨other, by simp [member], same⟩
          · exact .inl ⟨call, by simp, same⟩
          · exact .inr there
        · rintro ⟨present, rfl⟩
          refine ⟨?_, by omega⟩
          rcases present with ⟨other, member, same⟩ | there
          · rcases List.mem_cons.mp member with rfl | later
            · exact .inr (.inl same)
            · exact .inl ⟨other, later, same⟩
          · exact .inr (.inr there)

theorem total_perm {first second : List Increment} (perm : first.Perm second) (key : MetricKey) :
    total digest first key = total digest second key :=
  ((perm.filter _).map _).sum_eq

/-- Names that a scraper reads. -/
def Increment.Named (call : Increment) : Prop :=
  Identifier call.name ∧ ∀ entry ∈ call.labels.rows, Identifier entry.1

theorem named_key {call : Increment} (named : call.Named) : Metrics.Named (call.key digest) := by
  refine ⟨named.1, fun label member => ?_⟩
  obtain ⟨entry, there, rfl⟩ := List.mem_map.mp member
  obtain ⟨old, held, rfl⟩ := List.mem_map.mp (Dict.mem_sorted.mp there)
  exact named.2 old held

end Metrics

end AgentTree
