import AgentTree.ArtifactBytes
import AgentTree.Doubles
import AgentTree.SpelledHash
import Mathlib.Data.Rat.Encodable

/-!
Which models can be written down as an artifact and read back: those whose records can be
summarised in finite numbers.
-/

set_option linter.unusedSectionVars false

namespace AgentTree.Engine

open Outcome Relational

section Summaries

variable {F H : Type} [Zero F] [One F] [Add F] [Sub F] [Mul F] [Div F] [Neg F] [LT F] [LE F] [DecidableLT F]
  [DecidableLE F] [DecidableEq F] [OfScientific F] {runtime : Runtime F}

/-- What the arithmetic of floats satisfies where a record is summarised. -/
structure Runtime.Floating (runtime : Runtime F) : Prop where
  pos : ∀ a : F, runtime.isFinite a = true → ¬a ≤ 0 → 0 < a
  asymm : ∀ a : F, 0 < a → ¬a < 0
  add : ∀ a b : F, ¬a < 0 → ¬b < 0 → ¬a + b < 0
  mul : ∀ a b : F, ¬a < 0 → ¬b < 0 → ¬a * b < 0
  div : ∀ a b : F, ¬a < 0 → ¬b < 0 → ¬a / b < 0
  sqrt : ∀ a : F, ¬a < 0 → ¬runtime.sqrt a < 0
  constants : ¬(1.64 : F) < 0 ∧ ¬(1 : F) < 0 ∧ runtime.isFinite 1 = true ∧ (0 : F) * 0 * (0 + 1) = 0
  share : ∀ a b : F, runtime.isFinite a = true → runtime.isFinite b = true → 0 < a → 0 < b → a + b ≠ 0 →
    runtime.isFinite (a / (a + b)) = true
  unit : ∀ a : F, ¬a < 0 → a < 1 → runtime.isFinite a = true

/-- The sample count of a record is finite, and the denominator of its variance is not zero. -/
structure AgentRecord.Moderate (runtime : Runtime F) (record : AgentRecord F) : Prop where
  samples : runtime.isFinite record.samples = true
  spread : (record.alpha + record.beta) * (record.alpha + record.beta) * (record.alpha + record.beta + 1) ≠ 0

/-- The posterior counts that the constructor asks for. -/
structure AgentRecord.Counted (runtime : Runtime F) (record : AgentRecord F) : Prop where
  alpha : runtime.isFinite record.alpha = true
  beta : runtime.isFinite record.beta = true
  someAlpha : 0 < record.alpha
  someBeta : 0 < record.beta

namespace PolicyValueModel

variable {numerals : Numerals runtime} {hashing : Hashing F H} {model : PolicyValueModel F}
  {record : AgentRecord F}

theorem upperConfidence_finite (floating : runtime.Floating) {mean deviation : F} (first : ¬mean < 0)
    (second : ¬deviation < 0) : runtime.isFinite (pyMin 1 (mean + 1.64 * deviation)) = true := by
  unfold pyMin
  split
  next below => exact floating.unit _ (floating.add _ _ first (floating.mul _ _ floating.constants.1 second)) below
  next => exact floating.constants.2.2.1

/-- A record is summarised in finite numbers if and only if it is moderate. -/
theorem agentSummary_written (floating : runtime.Floating) (counted : record.Counted runtime) :
    (∃ summary, (agentSummary runtime record : Except PyError (Value F H)) = .ok summary ∧
      (summary.json numerals hashing).valid = true) ↔ record.Moderate runtime := by
  constructor
  · rintro ⟨summary, described, valid⟩
    simp only [agentSummary, AgentRecord.upperConfidence, AgentRecord.standardDeviation, bind_eq_ok, pure_eq_ok,
      pyDiv] at described
    obtain ⟨_, _, _, ⟨_, _, _, ⟨_, variance, _⟩, _⟩, rfl⟩ := described
    have samples := Value.valid_obj.mp valid ("samples", .num record.samples) (by simp)
    rw [Value.json, Value.valid_write] at samples
    refine ⟨samples, fun zero => ?_⟩
    rw [if_pos zero] at variance
    simp at variance
  · rintro ⟨samples, spread⟩
    have total : record.alpha + record.beta ≠ 0 := by
      intro zero
      rw [zero] at spread
      exact spread floating.constants.2.2.2
    have alpha := floating.asymm _ counted.someAlpha
    have sum := floating.add _ _ alpha (floating.asymm _ counted.someBeta)
    have mean := floating.div _ _ alpha sum
    have variance := floating.div _ _ (floating.mul _ _ alpha (floating.asymm _ counted.someBeta))
      (floating.mul _ _ (floating.mul _ _ sum sum) (floating.add _ _ sum floating.constants.2.1))
    have quotient : record.mean = .ok (record.alpha / (record.alpha + record.beta)) := if_neg total
    obtain ⟨deviation, deviates, nonneg⟩ : ∃ deviation, record.standardDeviation runtime = .ok deviation ∧ ¬deviation < 0 := by
      refine ⟨_, bind_eq_ok.mpr ⟨_, if_neg spread, bind_eq_ok.mpr ⟨(), ?_, rfl⟩⟩, floating.sqrt _ variance⟩
      exact ensure_eq_ok.mpr (by simpa using variance)
    have upper : record.upperConfidence runtime =
        .ok (pyMin 1 (record.alpha / (record.alpha + record.beta) + 1.64 * deviation)) :=
      bind_eq_ok.mpr ⟨_, quotient, bind_eq_ok.mpr ⟨_, deviates, rfl⟩⟩
    refine ⟨_, bind_eq_ok.mpr ⟨_, quotient, bind_eq_ok.mpr ⟨_, upper, rfl⟩⟩, Value.valid_obj.mpr ?_⟩
    simp only [List.forall_mem_cons]
    refine ⟨(Value.valid_write _).trans samples, (Value.valid_write _).trans ?_, (Value.valid_write _).trans ?_, rfl,
      by simp⟩
    · exact floating.share _ _ counted.alpha counted.beta counted.someAlpha counted.someBeta total
    · exact upperConfidence_finite floating mean nonneg

theorem postInit_counted (floating : runtime.Floating) (built : model.postInit runtime = .ok ()) :
    ∀ entry ∈ model.agentRecords.rows, entry.2.Counted runtime := by
  simp only [postInit, bind_eq_ok, ensure_eq_ok, forM_eq_ok, Bool.and_eq_true, Bool.not_eq_true',
    decide_eq_false_iff_not] at built
  obtain ⟨_, _, _, _, _, _, _, _, _, _, _, _, _, _, _, _, records⟩ := built
  intro entry member
  obtain ⟨⟨⟨alpha, beta⟩, someAlpha⟩, someBeta⟩ := records entry member
  exact ⟨alpha, beta, floating.pos _ alpha someAlpha, floating.pos _ beta someBeta⟩

variable (numerals hashing) in
/-- The bytes of an artifact can be made if and only if every record is moderate. -/
theorem artifactBytes_made (floating : runtime.Floating) (built : model.postInit runtime = .ok ()) (family : String) :
    (∃ encoded, model.artifactBytes numerals hashing family = .ok encoded) ↔
      ∀ entry ∈ model.agentRecords.rows, entry.2.Moderate runtime := by
  have finite := postInit_finite built
  have counted := postInit_counted floating built
  constructor
  · rintro ⟨encoded, made⟩ entry member
    obtain ⟨summary, taken, valid, _⟩ := artifactBytes_eq_ok.mp made
    obtain ⟨agents, looped, same⟩ := bind_eq_ok.mp taken
    obtain rfl := pure_eq_ok.mp same
    rw [payload_valid built] at valid
    have each := Value.valid_obj.mp (Value.valid_obj.mp valid ("agents", .obj agents) (by simp))
    obtain ⟨index, bound, there⟩ := List.getElem_of_mem (Dict.mem_sorted.mpr member)
    have pairs := List.forall₂_iff_get.mp (mapM_eq_ok.mp looped)
    have listed : index < model.sortedRecords.length := bound
    obtain ⟨summary, described, named⟩ := bind_eq_ok.mp (pairs.2 index listed (pairs.1 ▸ listed))
    have found : model.sortedRecords.get ⟨index, listed⟩ = entry := there
    rw [found] at described named
    have inside := each _ (List.get_mem agents ⟨index, pairs.1 ▸ listed⟩)
    rw [← pure_eq_ok.mp named] at inside
    exact (agentSummary_written floating (counted entry member)).mp ⟨summary, described, inside⟩
  · intro moderate
    have written : ∀ entry ∈ model.sortedRecords, ∃ summary : Value F H,
        agentSummary runtime entry.2 = .ok summary ∧ (summary.json numerals hashing).valid = true := fun entry member =>
      (agentSummary_written floating (counted entry (Dict.mem_sorted.mp member))).mpr (moderate entry (Dict.mem_sorted.mp member))
    obtain ⟨agents, looped⟩ : ∃ agents, model.sortedRecords.mapM (fun entry => do
        return ((entry.1, ← agentSummary runtime entry.2) : String × Value F H)) = .ok agents := by
      refine mapM_total fun entry member => ?_
      obtain ⟨summary, described, _⟩ := written entry member
      exact ⟨(entry.1, summary), bind_eq_ok.mpr ⟨summary, described, rfl⟩⟩
    refine ⟨_, artifactBytes_eq_ok.mpr ⟨_, bind_eq_ok.mpr ⟨agents, looped, rfl⟩, (payload_valid built family _).mpr ?_, rfl⟩⟩
    refine Value.valid_obj.mpr ?_
    simp only [List.forall_mem_cons]
    refine ⟨rfl, Value.valid_sorted finite.policyWeights, Value.valid_sorted finite.valueWeights,
      (Value.valid_write _).trans finite.valueBias, rfl, Value.valid_obj.mpr fun agent member => ?_, by simp⟩
    obtain ⟨entry, inside, acted⟩ := mapM_mem looped member
    obtain ⟨summary, described, valid⟩ := written entry inside
    obtain ⟨again, same, named⟩ := bind_eq_ok.mp acted
    obtain rfl := Except.ok.inj (same.symm.trans described)
    rw [← pure_eq_ok.mp named]
    exact valid

/-- A model is written down and read back as it was. -/
def RoundTrips (numerals : Numerals runtime) (hashing : Hashing F H) (coercions : Coercions F)
    (model : PolicyValueModel F) (family : String) : Prop :=
  ∃ encoded loaded, model.artifactBytes numerals hashing family = .ok encoded ∧
    readArtifact numerals hashing coercions encoded = .ok loaded ∧ loaded.Equal model ∧
    loaded.modelVersion hashing = model.modelVersion hashing

/-- No other model has the bytes of a model. -/
def Distinguished (numerals : Numerals runtime) (hashing : Hashing F H) (model : PolicyValueModel F) (family : String) :
    Prop :=
  ∀ (other : PolicyValueModel F) (encoded : Bytes), other.postInit runtime = .ok () → model.artifactBytes numerals hashing family = .ok encoded →
    other.artifactBytes numerals hashing family = .ok encoded → other.Equal model

/-- Artifacts round trip, and tell models apart, for the models with moderate records and for no others. -/
theorem artifact_roundTrips (runtime : Runtime F) (numerals : Numerals runtime) (hashing : Hashing F H)
    (coercions : Coercions F) (model : PolicyValueModel F) (family : String) (floating : runtime.Floating)
    (built : model.postInit runtime = .ok ()) :
    (RoundTrips numerals hashing coercions model family ∧ Distinguished numerals hashing model family) ↔
      ∀ entry ∈ model.agentRecords.rows, entry.2.Moderate runtime := by
  rw [← artifactBytes_made numerals hashing floating built family]
  constructor
  · rintro ⟨⟨encoded, _, made, _⟩, _⟩
    exact ⟨encoded, made⟩
  · rintro ⟨encoded, made⟩
    have equal := reordered_equal model
    refine ⟨⟨encoded, _, made, readArtifact_artifactBytes coercions built made, equal, equal.modelVersion⟩, ?_⟩
    intro other bytes accepted again same
    have first := readArtifact_artifactBytes coercions built again
    rw [readArtifact_artifactBytes coercions accepted same] at first
    have same := Except.ok.inj first
    exact (reordered_equal other).symm.trans (same ▸ equal)

end PolicyValueModel

end Summaries

namespace ArtifactSample

open Binary64

/-- The functions of doubles at the number that the records below ask for. -/
def runtime : Runtime Double where
  isFinite := Double.isFinite
  log _ := .nan
  exp _ := .nan
  sqrt value := if value = 0.0625 then 0.25 else .nan
  tanh _ := .nan
  gammas _ _ := 1
  text _ := ""
  fixed3 _ := ""
  repr text := text

theorem runtime_floating : runtime.Floating where
  pos _ := Double.pos_of_not_le
  asymm _ := Double.lt_asymm
  add _ _ := Double.add_not_neg
  mul _ _ := Double.mul_not_neg
  div _ _ := Double.div_not_neg
  sqrt value _ := by
    show ¬(if value = 0.0625 then (0.25 : Double) else .nan) < 0
    split <;> decide +kernel
  constants := by decide +kernel
  share _ _ := Double.isFinite_share
  unit value nonneg below := by
    cases value with
    | number _ => rfl
    | infinite negative => exact absurd below (by rw [Double.infinite_not_neg.mp nonneg]; decide)
    | nan => exact absurd below (by decide)

/-- The numbers of the model below as `repr` writes them. -/
def table : List (Double × String) :=
  [(0, "0.0"), (0.5, "0.5"), (1, "1.0"), (1.5, "1.5"), (2.5, "2.5"), (0.9099999999999999, "0.9099999999999999")]

/-- A text of its own for every other number. -/
def spell : Double → String
  | .number value => toString (Encodable.encode value) ++ ".0e1"
  | .infinite false => "inf"
  | .infinite true => "-inf"
  | .nan => "nan"

def write (value : Double) : String :=
  match table.find? fun entry => entry.1 = value with
  | some entry => entry.2
  | none => spell value

/-- A number in the table, or one that is spelled. -/
theorem write_cases (value : Double) :
    (value, write value) ∈ table ∨ write value = spell value := by
  unfold write
  split
  next entry found =>
    obtain rfl : entry.1 = value := by simpa using List.find?_some found
    exact .inl (List.mem_of_find?_eq_some found)
  next => exact .inr rfl

theorem spelled_exponent (value : ℚ) : (0x65 : UInt8) ∈ utf8 (spell (.number value)) := by
  rw [spell, Json.utf8_append]
  exact List.mem_append_right _ (by decide)

theorem write_injective {first second : Double} (finite : first.isFinite = true) (other : second.isFinite = true)
    (same : write first = write second) : first = second := by
  have plain : ∀ entry ∈ table, (0x65 : UInt8) ∉ utf8 entry.2 := by decide +kernel
  have unspelled : ∀ value : Double, value.isFinite = true → ∀ text, (value, text) ∈ table → ∀ another : Double,
      another.isFinite = true → spell another ≠ text := by
    intro value _ text member another known spelled
    cases another with
    | number number => exact plain _ member (spelled ▸ spelled_exponent number)
    | infinite negative => simp [Double.isFinite] at known
    | nan => simp [Double.isFinite] at known
  rcases write_cases first with listed | spelled <;> rcases write_cases second with present | again
  · have texts : (table.map Prod.snd).Nodup := by decide
    exact congrArg Prod.fst (List.inj_on_of_nodup_map texts listed present same)
  · exact absurd (same.trans again).symm (unspelled first finite _ listed second other)
  · exact absurd (spelled.symm.trans same) (unspelled second other _ present first finite)
  · cases first with
    | number value =>
        cases second with
        | number another =>
            have texts := congrArg utf8 (spelled.symm.trans (same.trans again))
            simp only [spell, Json.utf8_append] at texts
            have numbers := congrArg Json.decimal (List.append_cancel_right texts)
            rw [Json.decimal_natural, Json.decimal_natural] at numbers
            rw [Encodable.encode_injective numbers]
        | infinite negative => simp [Double.isFinite] at other
        | nan => simp [Double.isFinite] at other
    | infinite negative => simp [Double.isFinite] at finite
    | nan => simp [Double.isFinite] at finite

/-- What is written is a JSON number with a fraction. -/
theorem write_number {value : Double} (finite : value.isFinite = true) : ∃ parts : Json.NumberParts, parts.Valid ∧
    (parts.fraction ≠ [] ∨ parts.exponent ≠ []) ∧ parts.text = utf8 (write value) := by
  have decimal : ∀ entry ∈ table, ∃ digit digits, utf8 entry.2 = digit :: 0x2e :: digits ∧
      Json.isDigit digit = true ∧ digits ≠ [] ∧ ∀ b ∈ digits, Json.isDigit b = true := by
    simp only [table, List.forall_mem_cons]
    refine ⟨⟨0x30, [0x30], ?_⟩, ⟨0x30, [0x35], ?_⟩, ⟨0x31, [0x30], ?_⟩, ⟨0x31, [0x35], ?_⟩, ⟨0x32, [0x35], ?_⟩,
      ⟨0x30, (utf8 "9099999999999999"), ?_⟩, by simp⟩ <;> decide +kernel
  rcases write_cases value with listed | spelled
  · obtain ⟨digit, digits, text, first, some, all⟩ := decimal _ listed
    refine ⟨⟨[], [digit], 0x2e :: digits, []⟩, ⟨.inl rfl, ?_, .inr ⟨digits, some, rfl, all⟩, .inl rfl⟩, .inl (by simp), ?_⟩
    · by_cases zero : digit = 0x30
      · exact .inl (by rw [zero])
      · exact .inr ⟨digit, [], rfl, zero, by simpa using first⟩
    · rw [text]
      simp [Json.NumberParts.text]
  · cases value with
    | number value =>
        refine ⟨⟨[], utf8 (toString (Encodable.encode value)), [0x2e, 0x30], [0x65, 0x31]⟩,
          ⟨.inl rfl, Json.natural_whole _, .inr ⟨[0x30], by simp, rfl, by decide⟩,
            .inr ⟨0x65, [], [0x31], .inl rfl, .inl rfl, by simp, rfl, by decide⟩⟩, .inl (by simp), ?_⟩
        rw [spelled, spell, Json.utf8_append]
        simp only [Json.NumberParts.text, List.nil_append]
        rfl
    | infinite negative => simp [Double.isFinite] at finite
    | nan => simp [Double.isFinite] at finite

open Classical in
/-- The number that a text stands for. -/
noncomputable def read (text : String) : Double :=
  if known : ∃ value : Double, value.isFinite = true ∧ write value = text then known.choose else .nan

noncomputable def numerals : Numerals runtime where
  floats := {
    finite := fun text => ∃ value : Double, value.isFinite = true ∧ write value = text
    read := fun bytes => (Json.textOf bytes).getD ""
    number := by
      rintro _ ⟨value, finite, rfl⟩
      exact write_number finite
    back := fun text _ => by rw [Json.textOf_utf8, Option.getD_some] }
  write
  read
  finite value finite := ⟨value, finite, rfl⟩
  special value special := by
    have unlisted : ∀ entry ∈ table, entry.1.isFinite = true := by decide +kernel
    rcases write_cases value with listed | spelled
    · exact absurd (unlisted _ listed) (by simpa [runtime] using special)
    · rw [spelled]
      cases value with
      | number value => simp [runtime, Double.isFinite] at special
      | infinite negative => cases negative <;> simp [spell]
      | nan => exact .inl rfl
  back value finite := by
    have known : ∃ other : Double, other.isFinite = true ∧ write other = write value := ⟨value, finite, rfl⟩
    rw [read, dif_pos known]
    exact write_injective known.choose_spec.1 finite known.choose_spec.2

/-- A model with one record. -/
def model (alpha beta : Double) : PolicyValueModel Double where
  policyWeights := Dict.ofList [("tag", 0.5)]
  valueWeights := Table.empty
  valueBias := 0
  valueUpdates := 0
  generation := 3
  agentRecords := Dict.ofList [("agent", ⟨alpha, beta, true⟩)]
  policyLimit := 2.5
  valueLimit := 2.5
  benchMinSamples := 8
  benchUpperThreshold := 0.5

def coercions : Coercions Double where
  floatOfInt value := .ok value
  floatOfText _ := .error (.valueError "could not convert string to float")
  intOfFloat _ := .error (.valueError "cannot convert float to integer")
  intOfText _ := .error (.valueError "invalid literal for int()")

end ArtifactSample

open ArtifactSample Binary64 in
theorem PolicyValueModel.artifact_roundTrips_sample :
    RoundTrips numerals (spelled Double) coercions (model 1.5 1.5) "family" ∧
      Distinguished numerals (spelled Double) (model 1.5 1.5) "family" := by
  refine (artifact_roundTrips runtime numerals (spelled Double) coercions (model 1.5 1.5) "family" runtime_floating
    (by decide +kernel)).mpr fun entry member => ?_
  obtain rfl : entry = ("agent", ⟨1.5, 1.5, true⟩) := by
    have rows : (Dict.ofList [("agent", (⟨1.5, 1.5, true⟩ : AgentRecord Double))]).rows = [("agent", ⟨1.5, 1.5, true⟩)] :=
      Dict.rows_ofList (by simp)
    exact List.mem_singleton.mp (rows ▸ member)
  exact ⟨by decide +kernel, by decide +kernel⟩

open ArtifactSample Binary64 in
/-- The denominator of the variance underflows to zero, and the snapshot divides by it. -/
theorem PolicyValueModel.artifact_not_written : (model 1e-200 1e-200).postInit runtime = .ok () ∧
    (model 1e-200 1e-200).artifactBytes numerals (spelled Double) "family" =
      .error (.other "ZeroDivisionError" "float division by zero") ∧
    ¬RoundTrips numerals (spelled Double) coercions (model 1e-200 1e-200) "family" := by
  have raises : (model 1e-200 1e-200).snapshot runtime (spelled Double) =
      .error (.other "ZeroDivisionError" "float division by zero") := by
    have rows : (model 1e-200 1e-200).sortedRecords = [("agent", ⟨1e-200, 1e-200, true⟩)] := by
      have listed : (Dict.ofList [("agent", (⟨1e-200, 1e-200, true⟩ : AgentRecord Double))]).rows =
          [("agent", ⟨1e-200, 1e-200, true⟩)] := Dict.rows_ofList (by simp)
      simp [sortedRecords, model, listed]
    have record : (agentSummary runtime (⟨1e-200, 1e-200, true⟩ : AgentRecord Double) :
        Except PyError (Value Double (List (Token Double)))) =
          .error (.other "ZeroDivisionError" "float division by zero") := by
      have total : (1e-200 : Double) + 1e-200 ≠ 0 := by decide +kernel
      have spread : ((1e-200 : Double) + 1e-200) * (1e-200 + 1e-200) * (1e-200 + 1e-200 + 1) = 0 := by decide +kernel
      simp only [agentSummary, AgentRecord.upperConfidence, AgentRecord.standardDeviation, AgentRecord.mean, pyDiv,
        if_neg total, if_pos spread, bind, Except.bind]
    rw [snapshot, rows, List.mapM_cons]
    simp only [record]
    rfl
  have fails : (model 1e-200 1e-200).artifactBytes numerals (spelled Double) "family" =
      .error (.other "ZeroDivisionError" "float division by zero") := by
    rw [artifactBytes, toPayload, raises]
    rfl
  refine ⟨by decide +kernel, fails, ?_⟩
  rintro ⟨encoded, _, made, _⟩
  rw [fails] at made
  simp at made

end AgentTree.Engine
