import AgentTree.CanonicalJson
import AgentTree.ModelPayloads

/-!
The bytes of a policy artifact: the payload of a model as canonical JSON, and what is read
back from them.  How a float is written and read is a parameter.
-/

namespace AgentTree.Engine

open Outcome Relational

variable {F H : Type}

/-- `repr` of a float and `float` of a text, which undo one another where the float is finite. -/
structure Numerals (runtime : Runtime F) where
  floats : Floats
  write : F → String
  read : String → F
  finite : ∀ value, runtime.isFinite value = true → floats.finite (write value)
  special : ∀ value, runtime.isFinite value = false →
    write value = "nan" ∨ write value = "inf" ∨ write value = "-inf"
  back : ∀ value, runtime.isFinite value = true → read (write value) = value

variable {runtime : Runtime F}

/-! Values as JSON. -/

namespace Value

section Conversion

variable (numerals : Numerals runtime) (hashing : Hashing F H)

mutual

def json : Value F H → Json
  | .null => .null
  | .bool value => .bool value
  | .int value => .int value
  | .num value => .float (numerals.write value)
  | .str text => .str text
  | .hash digest => .str (hashing.text digest)
  | .arr items => .arr (jsonItems items)
  | .obj members => .obj (jsonMembers members)

def jsonItems : List (Value F H) → List Json
  | [] => []
  | item :: rest => item.json :: jsonItems rest

def jsonMembers : List (String × Value F H) → List (String × Json)
  | [] => []
  | (name, value) :: rest => (name, value.json) :: jsonMembers rest

end

mutual

def ofJson : Json → Value F H
  | .null => .null
  | .bool value => .bool value
  | .int value => .int value
  | .float text => .num (numerals.read text)
  | .str text => .str text
  | .arr items => .arr (ofItems items)
  | .obj members => .obj (ofMembers members)

def ofItems : List Json → List (Value F H)
  | [] => []
  | item :: rest => ofJson item :: ofItems rest

def ofMembers : List (String × Json) → List (String × Value F H)
  | [] => []
  | (name, value) :: rest => (name, ofJson value) :: ofMembers rest

end

/-- What is read from the canonical bytes of a value. -/
def reread (value : Value F H) : Value F H := ofJson numerals (value.json numerals hashing).canonical

end Conversion

variable {numerals : Numerals runtime} {hashing : Hashing F H}

theorem jsonMembers_eq (members : List (String × Value F H)) :
    jsonMembers numerals hashing members = members.map fun member => (member.1, member.2.json numerals hashing) := by
  induction members with
  | nil => rfl
  | cons member rest ih =>
      obtain ⟨name, value⟩ := member
      rw [jsonMembers, ih, List.map_cons]

theorem ofMembers_eq (members : List (String × Json)) :
    ofMembers numerals members = members.map fun member => (member.1, (ofJson numerals member.2 : Value F H)) := by
  induction members with
  | nil => rfl
  | cons member rest ih =>
      obtain ⟨name, value⟩ := member
      rw [ofMembers, ih, List.map_cons]

@[simp] theorem reread_num (value : F) :
    (Value.num value : Value F H).reread numerals hashing = .num (numerals.read (numerals.write value)) := rfl

@[simp] theorem reread_int (value : Int) : (Value.int value : Value F H).reread numerals hashing = .int value := rfl

@[simp] theorem reread_bool (value : Bool) : (Value.bool value : Value F H).reread numerals hashing = .bool value := rfl

@[simp] theorem reread_str (text : String) : (Value.str text : Value F H).reread numerals hashing = .str text := rfl

/-- Entries in the order in which canonical JSON has them. -/
def byName {α : Type} (entries : List (String × α)) : List (String × α) :=
  entries.insertionSort fun a b => Json.nameOrder a.1 ≤ Json.nameOrder b.1

theorem mem_byName {α : Type} {entries : List (String × α)} {entry : String × α} :
    entry ∈ byName entries ↔ entry ∈ entries := List.mem_insertionSort _

theorem byName_distinct {α : Type} {entries : List (String × α)} (distinct : (entries.map Prod.fst).Nodup) :
    ((byName entries).map Prod.fst).Nodup :=
  ((List.perm_insertionSort _ entries).map Prod.fst).nodup_iff.mpr distinct

/-- The members of an object are read back in their canonical order. -/
theorem reread_obj (members : List (String × Value F H)) :
    (Value.obj members).reread numerals hashing =
      .obj ((byName members).map fun member => (member.1, member.2.reread numerals hashing)) := by
  have sorted := List.map_insertionSort (r := fun a b : String × Value F H => Json.nameOrder a.1 ≤ Json.nameOrder b.1)
    (s := fun a b : String × Json => Json.nameOrder a.1 ≤ Json.nameOrder b.1)
    (fun member => (member.1, (member.2.json numerals hashing).canonical)) members fun _ _ _ _ => Iff.rfl
  have written : Json.canonicalMembers (jsonMembers numerals hashing members) =
      members.map fun member => (member.1, (member.2.json numerals hashing).canonical) := by
    rw [Json.canonicalMembers_eq, jsonMembers_eq, List.map_map]
    rfl
  simp only [reread, json, Json.canonical, ofJson, ofMembers_eq, written, ← sorted, List.map_map]
  rfl

theorem get?_obj {members : List (String × Value F H)} (distinct : (members.map Prod.fst).Nodup) {name : String}
    {value : Value F H} : (Value.obj members).get? name = some value ↔ (name, value) ∈ members := by
  simp only [get?, Option.map_eq_some_iff]
  constructor
  · rintro ⟨⟨other, _⟩, found, rfl⟩
    have named := List.find?_some found
    simp only [decide_eq_true_eq] at named
    exact named ▸ List.mem_of_find?_eq_some found
  · intro present
    cases found : members.find? fun member => member.1 = name with
    | none => exact absurd (List.find?_eq_none.mp found (name, value) present) (by simp)
    | some entry =>
        have named := List.find?_some found
        simp only [decide_eq_true_eq] at named
        have same := List.inj_on_of_nodup_map distinct (List.mem_of_find?_eq_some found) present named
        exact ⟨entry, rfl, by rw [same]⟩

theorem get?_reread {members : List (String × Value F H)} (distinct : (members.map Prod.fst).Nodup) {name : String}
    {value : Value F H} (found : (Value.obj members).get? name = some value) :
    ((Value.obj members).reread numerals hashing).get? name = some (value.reread numerals hashing) := by
  rw [reread_obj, get?_obj]
  · exact List.mem_map.mpr ⟨(name, value), mem_byName.mpr ((get?_obj distinct).mp found), rfl⟩
  · rw [List.map_map]
    exact byName_distinct distinct

/-- A finite number is not written as one of the words for the others. -/
theorem valid_write (value : F) : (Json.float (numerals.write value)).valid = runtime.isFinite value := by
  cases finite : runtime.isFinite value with
  | false => rcases numerals.special value finite with same | same | same <;> simp [Json.valid, same]
  | true =>
      obtain ⟨parts, checked, _, text⟩ := numerals.floats.number _ (numerals.finite value finite)
      obtain ⟨b, rest, digit, shape⟩ := Json.number_head checked
      have words : ∀ word, numerals.write value = word → utf8 word = b :: rest ∨ utf8 word = 0x2d :: b :: rest := by
        rintro word rfl
        rwa [← text]
      have nan : numerals.write value ≠ "nan" := fun same => by
        rcases words _ same with spelled | spelled
        · exact absurd ((List.cons.inj spelled).1 ▸ digit) (by decide)
        · exact absurd (List.cons.inj spelled).1 (by decide)
      have infinite : numerals.write value ≠ "inf" := fun same => by
        rcases words _ same with spelled | spelled
        · exact absurd ((List.cons.inj spelled).1 ▸ digit) (by decide)
        · exact absurd (List.cons.inj spelled).1 (by decide)
      have negative : numerals.write value ≠ "-inf" := fun same => by
        rcases words _ same with spelled | spelled
        · exact absurd ((List.cons.inj spelled).1 ▸ digit) (by decide)
        · exact absurd ((List.cons.inj (List.cons.inj spelled).2).1 ▸ digit) (by decide)
      simp [Json.valid, nan, infinite, negative]

theorem genuine_write (value : F) : (Json.float (numerals.write value)).Genuine numerals.floats := by
  cases finite : runtime.isFinite value with
  | false => exact .inr (numerals.special value finite)
  | true => exact .inl (numerals.finite value finite)

theorem genuine_obj {members : List (String × Value F H)} (distinct : (members.map Prod.fst).Nodup)
    (each : ∀ member ∈ members, (member.2.json numerals hashing).Genuine numerals.floats) :
    ((Value.obj members).json numerals hashing).Genuine numerals.floats := by
  simp only [json, Json.Genuine, jsonMembers_eq, Json.genuineMembers_iff, List.map_map]
  refine ⟨distinct, fun entry member => ?_⟩
  obtain ⟨inner, inside, rfl⟩ := List.mem_map.mp member
  exact each inner inside

theorem valid_obj {members : List (String × Value F H)} :
    ((Value.obj members).json numerals hashing).valid = true ↔
      ∀ member ∈ members, (member.2.json numerals hashing).valid = true := by
  simp only [json, Json.valid, jsonMembers_eq, Json.validMembers_iff, List.forall_mem_map]

theorem genuine_sorted (weights : Dict String F) :
    ((Value.sorted weights : Value F H).json numerals hashing).Genuine numerals.floats := by
  refine genuine_obj ?_ fun entry member => ?_
  · rw [List.map_map]
    exact weights.sorted.unique
  · obtain ⟨inner, _, rfl⟩ := List.mem_map.mp member
    exact genuine_write inner.2

theorem valid_sorted {weights : Dict String F} (finite : ∀ entry ∈ weights.rows, runtime.isFinite entry.2 = true) :
    ((Value.sorted weights : Value F H).json numerals hashing).valid = true := by
  refine valid_obj.mpr fun entry member => ?_
  obtain ⟨inner, inside, rfl⟩ := List.mem_map.mp member
  exact (valid_write inner.2).trans (finite inner (List.mem_insertionSort _ |>.mp inside))

end Value

/-! Models that Python finds equal. -/

namespace PolicyValueModel

/-- Equal in every field; dictionaries are what they hold. -/
structure Equal (first second : PolicyValueModel F) : Prop where
  policyWeights : ∀ tag, first.policyWeights.get? tag = second.policyWeights.get? tag
  valueWeights : ∀ tag, first.valueWeights.get? tag = second.valueWeights.get? tag
  valueBias : first.valueBias = second.valueBias
  valueUpdates : first.valueUpdates = second.valueUpdates
  generation : first.generation = second.generation
  agentRecords : ∀ actor, first.agentRecords.get? actor = second.agentRecords.get? actor
  policyLimit : first.policyLimit = second.policyLimit
  valueLimit : first.valueLimit = second.valueLimit
  benchMinSamples : first.benchMinSamples = second.benchMinSamples
  benchUpperThreshold : first.benchUpperThreshold = second.benchUpperThreshold

variable {first second third : PolicyValueModel F}

theorem Equal.symm (equal : first.Equal second) : second.Equal first :=
  ⟨fun tag => (equal.policyWeights tag).symm, fun tag => (equal.valueWeights tag).symm, equal.valueBias.symm,
    equal.valueUpdates.symm, equal.generation.symm, fun actor => (equal.agentRecords actor).symm,
    equal.policyLimit.symm, equal.valueLimit.symm, equal.benchMinSamples.symm, equal.benchUpperThreshold.symm⟩

theorem Equal.trans (equal : first.Equal second) (other : second.Equal third) : first.Equal third :=
  ⟨fun tag => (equal.policyWeights tag).trans (other.policyWeights tag),
    fun tag => (equal.valueWeights tag).trans (other.valueWeights tag), equal.valueBias.trans other.valueBias,
    equal.valueUpdates.trans other.valueUpdates, equal.generation.trans other.generation,
    fun actor => (equal.agentRecords actor).trans (other.agentRecords actor),
    equal.policyLimit.trans other.policyLimit, equal.valueLimit.trans other.valueLimit,
    equal.benchMinSamples.trans other.benchMinSamples, equal.benchUpperThreshold.trans other.benchUpperThreshold⟩

theorem Equal.modelVersion {hashing : Hashing F H} (equal : first.Equal second) :
    first.modelVersion hashing = second.modelVersion hashing := by
  have policy := congrArg Table.rows (Dict.sorted_congr equal.policyWeights)
  have value := congrArg Table.rows (Dict.sorted_congr equal.valueWeights)
  have records := congrArg Table.rows (Dict.sorted_congr equal.agentRecords)
  simp only [Dict.sorted] at policy value records
  simp only [PolicyValueModel.modelVersion, Value.sorted, policy, value, records, equal.valueBias, equal.valueUpdates,
    equal.generation, equal.policyLimit, equal.valueLimit, equal.benchMinSamples, equal.benchUpperThreshold]

theorem Equal.postInit [Zero F] [One F] [Neg F] [LT F] [LE F] [DecidableLT F] [DecidableLE F] (equal : first.Equal second)
    (built : second.postInit runtime = .ok ()) : first.postInit runtime = .ok () := by
  have rows : ∀ {ν : Type} {one other : Dict String ν}, (∀ key, one.get? key = other.get? key) →
      ∀ entry, entry ∈ one.rows ↔ entry ∈ other.rows := fun same entry => by
    rw [← Prod.mk.eta (p := entry), ← Dict.get?_eq_some, ← Dict.get?_eq_some, same]
  have policy := rows equal.policyWeights
  have value := rows equal.valueWeights
  have records := rows equal.agentRecords
  simp only [PolicyValueModel.postInit, bind_eq_ok, forM_eq_ok, policy, value, records, equal.valueBias,
    equal.valueUpdates, equal.generation, equal.policyLimit, equal.valueLimit, equal.benchMinSamples,
    equal.benchUpperThreshold] at built ⊢
  exact built

/-! Reading a payload. -/

section Reading

variable {numerals : Numerals runtime} {hashing : Hashing F H}

variable (numerals hashing) in
theorem floats_reread (coercions : Coercions F) {weights : Dict String F}
    (finite : ∀ entry ∈ weights.rows, runtime.isFinite entry.2 = true) :
    ∃ members, (Value.sorted weights : Value F H).reread numerals hashing = .obj members ∧
      coercions.floats members = .ok (Dict.ofList (Value.byName weights.sorted.rows)) := by
  have order : (weights.rows.insertionSort fun a b => a.1 ≤ b.1) = weights.sorted.rows := rfl
  have sorted := List.map_insertionSort (r := fun a b : String × F => Json.nameOrder a.1 ≤ Json.nameOrder b.1)
    (s := fun a b : String × Value F H => Json.nameOrder a.1 ≤ Json.nameOrder b.1)
    (fun entry => (entry.1, .num entry.2)) weights.sorted.rows fun _ _ _ _ => Iff.rfl
  refine ⟨(Value.byName weights.sorted.rows).map fun entry => (entry.1, .num (numerals.read (numerals.write entry.2))),
    ?_, ?_⟩
  · rw [Value.sorted, Value.reread_obj, order, Value.byName, ← sorted, List.map_map, ← Value.byName]
    simp [Function.comp_def]
  · refine bind_eq_ok.mpr ⟨(Value.byName weights.sorted.rows).map fun entry => entry,
      mapM_map_ok fun entry member => ?_, by rw [List.map_id']; rfl⟩
    rw [numerals.back entry.2 (finite entry (Dict.mem_sorted.mp (Value.mem_byName.mp member)))]
    rfl

/-- What the sorted entries of a dictionary hold. -/
theorem get?_byName {ν : Type} (dict : Dict String ν) (key : String) :
    (Dict.ofList (Value.byName dict.sorted.rows)).get? key = dict.get? key := by
  refine Dict.get?_congr (fun entry => ?_) key
  rw [Dict.rows_ofList (Value.byName_distinct dict.sorted.unique), Value.mem_byName, Dict.mem_sorted]

variable [Zero F] [One F] [Neg F] [LT F] [LE F] [DecidableLT F] [DecidableLE F] [DecidableEq F]

/-- The numbers of a model that are written down as they are. -/
structure Finite (runtime : Runtime F) (model : PolicyValueModel F) : Prop where
  policyWeights : ∀ entry ∈ model.policyWeights.rows, runtime.isFinite entry.2 = true
  valueWeights : ∀ entry ∈ model.valueWeights.rows, runtime.isFinite entry.2 = true
  valueBias : runtime.isFinite model.valueBias = true
  records : ∀ entry ∈ model.agentRecords.rows, runtime.isFinite entry.2.alpha = true ∧
    runtime.isFinite entry.2.beta = true
  policyLimit : runtime.isFinite model.policyLimit = true
  valueLimit : runtime.isFinite model.valueLimit = true
  benchUpperThreshold : runtime.isFinite model.benchUpperThreshold = true

omit [DecidableEq F] in
theorem postInit_finite {model : PolicyValueModel F} (built : model.postInit runtime = .ok ()) : model.Finite runtime := by
  simp only [postInit, bind_eq_ok, ensure_eq_ok, forM_eq_ok, within, Bool.and_eq_true] at built
  obtain ⟨_, ⟨⟨policyLimit, _⟩, valueLimit, _⟩, _, _, _, ⟨⟨threshold, _⟩, _⟩, _, _, _, _, _, ⟨bias, _⟩, _, policy, _, value,
    records⟩ := built
  exact ⟨fun entry member => (policy entry member).1, fun entry member => (value entry member).1, bias,
    fun entry member => (records entry member).1.1, policyLimit, valueLimit, threshold⟩

omit [One F] [Neg F] [LT F] [LE F] [DecidableLT F] [DecidableLE F] in
theorem readRecord_reread (coercions : Coercions F) (actor : String) {record : AgentRecord F}
    (alpha : runtime.isFinite record.alpha = true) (beta : runtime.isFinite record.beta = true) :
    readRecord coercions actor ((recordPayload record : Value F H).reread numerals hashing) = .ok record := by
  have distinct : (([("alpha", .num record.alpha), ("beta", .num record.beta), ("benched", .bool record.benched)] :
      List (String × Value F H)).map Prod.fst).Nodup := by simp
  have found : ∀ name value, (recordPayload record : Value F H).get? name = some value →
      ((recordPayload record : Value F H).reread numerals hashing).get? name =
        some (value.reread numerals hashing) := fun name value => Value.get?_reread distinct
  have first := found "alpha" (.num record.alpha) rfl
  have second := found "beta" (.num record.beta) rfl
  have third := found "benched" (.bool record.benched) rfl
  obtain ⟨members, spelled⟩ : ∃ members, (recordPayload record : Value F H).reread numerals hashing = .obj members :=
    ⟨_, Value.reread_obj _⟩
  rw [spelled] at first second third ⊢
  simp only [Value.reread_num, Value.reread_bool, numerals.back _ alpha, numerals.back _ beta] at first second third
  simp [readRecord, Value.mapping, Value.item, first, second, third, orRaise, Coercions.float, Coercions.bool, bind,
    Except.bind, pure, Except.pure]

/-- The limits of a payload. -/
def limitsPayload (model : PolicyValueModel F) : Value F H := .obj [
  ("policy_limit", .num model.policyLimit),
  ("value_limit", .num model.valueLimit),
  ("bench_min_samples", .int model.benchMinSamples),
  ("bench_upper_threshold", .num model.benchUpperThreshold)]

/-- The model that is read back from canonical bytes. -/
def reordered (model : PolicyValueModel F) : PolicyValueModel F :=
  { model with
    policyWeights := Dict.ofList (Value.byName model.policyWeights.sorted.rows)
    valueWeights := Dict.ofList (Value.byName model.valueWeights.sorted.rows)
    agentRecords := Dict.ofList (Value.byName model.agentRecords.sorted.rows) }

omit [Zero F] [One F] [Neg F] [LT F] [LE F] [DecidableLT F] [DecidableLE F] [DecidableEq F] in
theorem reordered_equal (model : PolicyValueModel F) : model.reordered.Equal model :=
  ⟨get?_byName _, get?_byName _, rfl, rfl, rfl, get?_byName _, rfl, rfl, rfl, rfl⟩

variable (numerals hashing) in
omit [One F] [Neg F] [LT F] [LE F] [DecidableLT F] [DecidableLE F] in
theorem records_reread (coercions : Coercions F) {model : PolicyValueModel F} (finite : model.Finite runtime) :
    ∃ members, (Value.obj (model.sortedRecords.map fun entry => (entry.1, recordPayload entry.2)) :
        Value F H).reread numerals hashing = .obj members ∧
      members.mapM (fun (actor, raw) => do return (actor, ← readRecord coercions actor raw)) =
        .ok (Value.byName model.agentRecords.sorted.rows) := by
  have sorted := List.map_insertionSort
    (r := fun a b : String × AgentRecord F => Json.nameOrder a.1 ≤ Json.nameOrder b.1)
    (s := fun a b : String × Value F H => Json.nameOrder a.1 ≤ Json.nameOrder b.1)
    (fun entry => (entry.1, recordPayload entry.2)) model.agentRecords.sorted.rows fun _ _ _ _ => Iff.rfl
  have order : model.sortedRecords = model.agentRecords.sorted.rows := rfl
  refine ⟨(Value.byName model.agentRecords.sorted.rows).map fun entry =>
    (entry.1, (recordPayload entry.2).reread numerals hashing), ?_, ?_⟩
  · rw [Value.reread_obj, order, Value.byName, ← sorted, List.map_map, ← Value.byName]
    rfl
  · rw [← List.map_id' (Value.byName model.agentRecords.sorted.rows), List.map_map]
    refine mapM_map_ok fun entry member => ?_
    obtain ⟨alpha, beta⟩ := finite.records entry (Dict.mem_sorted.mp (Value.mem_byName.mp member))
    simp only [Function.comp_apply, readRecord_reread coercions entry.1 alpha beta, bind, Except.bind, pure, Except.pure]

variable (numerals hashing) in
/-- A model that its constructor accepts reads back from the canonical bytes of its payload. -/
theorem fromPayload_reread (coercions : Coercions F) {model : PolicyValueModel F}
    (built : model.postInit runtime = .ok ()) (family : String) (summary : Value F H) :
    fromPayload runtime hashing coercions ((model.payload hashing family summary).reread numerals hashing) =
      .ok model.reordered := by
  have finite := postInit_finite built
  have accepted : postInit runtime model.reordered = .ok () := (reordered_equal model).postInit built
  have version : model.reordered.modelVersion hashing = model.modelVersion hashing := (reordered_equal model).modelVersion
  obtain ⟨policy, policyMembers, policyRead⟩ := floats_reread numerals hashing coercions finite.policyWeights
  obtain ⟨value, valueMembers, valueRead⟩ := floats_reread numerals hashing coercions finite.valueWeights
  obtain ⟨records, recordMembers, recordsRead⟩ := records_reread numerals hashing coercions finite
  obtain ⟨limits, limitMembers⟩ : ∃ members, (limitsPayload model : Value F H).reread numerals hashing = .obj members :=
    ⟨_, Value.reread_obj _⟩
  have limited : ∀ name found, (limitsPayload model : Value F H).get? name = some found →
      (Value.obj limits).get? name = some (found.reread numerals hashing) := fun name found there => by
    rw [← limitMembers]
    exact Value.get?_reread (by simp) there
  have top : ∀ name found, (model.payload hashing family summary).get? name = some found →
      ((model.payload hashing family summary).reread numerals hashing).get? name =
        some (found.reread numerals hashing) := fun name found there => Value.get?_reread (by simp) there
  have schema := top "schema" (.str schemaVersion) rfl
  have kind := top "kind" (.str artifactKind) rfl
  have limitsFound := top "limits" (limitsPayload model) rfl
  have recordsFound := top "agent_records" (.obj (model.sortedRecords.map fun entry => (entry.1, recordPayload entry.2))) rfl
  have policyFound := top "policy_weights" (.sorted model.policyWeights) rfl
  have valueFound := top "value_weights" (.sorted model.valueWeights) rfl
  have bias := top "value_bias" (.num model.valueBias) rfl
  have updates := top "value_updates" (.int model.valueUpdates) rfl
  have generation := top "generation" (.int model.generation) rfl
  have named := top "model_version" (.str (model.modelVersion hashing)) rfl
  have policyLimit := limited "policy_limit" (.num model.policyLimit) rfl
  have valueLimit := limited "value_limit" (.num model.valueLimit) rfl
  have minSamples := limited "bench_min_samples" (.int model.benchMinSamples) rfl
  have threshold := limited "bench_upper_threshold" (.num model.benchUpperThreshold) rfl
  rw [limitMembers] at limitsFound
  rw [recordMembers] at recordsFound
  rw [policyMembers] at policyFound
  rw [valueMembers] at valueFound
  simp only [Value.reread_num, Value.reread_str, Value.reread_int, numerals.back _ finite.valueBias,
    numerals.back _ finite.policyLimit, numerals.back _ finite.valueLimit, numerals.back _ finite.benchUpperThreshold]
    at schema kind bias updates generation named policyLimit valueLimit minSamples threshold
  simp only [fromPayload, Value.mapping, Value.item, schema, kind, limitsFound, recordsFound, policyFound, valueFound,
    bias, updates, generation, named, policyLimit, valueLimit, minSamples, threshold, orRaise, Coercions.float,
    Coercions.int, decide_true, Bool.and_self, bind_eq_ok, ensure_eq_ok, pure_eq_ok, Except.ok.injEq, exists_eq_left']
  exact ⟨(), trivial, _, recordsRead, _, policyRead, _, valueRead, (), accepted, (), decide_eq_true version.symm, rfl⟩

end Reading

/-! The bytes of an artifact. -/

section Bytes

variable [Zero F] [One F] [Add F] [Sub F] [Mul F] [Div F] [Neg F] [LT F] [LE F] [DecidableLT F] [DecidableLE F]
  [DecidableEq F] [OfScientific F]

/-- `canonical_json_bytes(model_to_payload(model, family=family))`. -/
def artifactBytes (numerals : Numerals runtime) (hashing : Hashing F H) (model : PolicyValueModel F) (family : String) :
    Except PyError Bytes := do
  let payload ← model.toPayload runtime hashing family
  return (← jsonText (payload.json numerals hashing)).encode

/-- `model_from_payload(json.loads(encoded))`. -/
def readArtifact (numerals : Numerals runtime) (hashing : Hashing F H) (coercions : Coercions F) (encoded : Bytes) :
    Except PyError (PolicyValueModel F) := do
  let payload ← orRaise (Json.loads numerals.floats encoded) (.other "JSONDecodeError" "policy artifact")
  fromPayload runtime hashing coercions (Value.ofJson numerals payload)

variable {numerals : Numerals runtime} {hashing : Hashing F H} {model other : PolicyValueModel F} {family : String}
  {encoded : Bytes}

omit [Neg F] [LE F] [DecidableLE F] in
theorem snapshot_genuine {summary : Value F H} (taken : model.snapshot runtime hashing = .ok summary) :
    (summary.json numerals hashing).Genuine numerals.floats := by
  obtain ⟨agents, looped, described⟩ := bind_eq_ok.mp taken
  have names : agents.map Prod.fst = model.sortedRecords.map Prod.fst := by
    have each := mapM_eq_ok.mp looped
    clear looped described taken
    generalize model.sortedRecords = records at each ⊢
    induction each with
    | nil => rfl
    | cons first _ ih =>
        obtain ⟨_, _, same⟩ := bind_eq_ok.mp first
        rw [List.map_cons, List.map_cons, ih, ← pure_eq_ok.mp same]
  obtain rfl := pure_eq_ok.mp described
  have summaries : ∀ agent ∈ agents, (agent.2.json numerals hashing).Genuine numerals.floats := by
    intro agent member
    obtain ⟨entry, _, summarised⟩ := mapM_mem looped member
    obtain ⟨_, described, same⟩ := bind_eq_ok.mp summarised
    obtain rfl := pure_eq_ok.mp same
    simp only [agentSummary, bind_eq_ok, pure_eq_ok] at described
    obtain ⟨_, _, _, _, rfl⟩ := described
    exact Value.genuine_obj (by simp) (by simp [Value.genuine_write, Value.json, Json.Genuine])
  refine Value.genuine_obj (by simp) ?_
  simp only [List.forall_mem_cons]
  exact ⟨trivial, Value.genuine_sorted _, Value.genuine_sorted _, Value.genuine_write _, trivial,
    Value.genuine_obj (by rw [names]; exact model.agentRecords.sorted.unique) summaries, by simp⟩

omit [Add F] [Sub F] [Mul F] [Div F] [DecidableEq F] [OfScientific F] in
/-- A payload is canonical JSON if its summary is. -/
theorem payload_valid (built : model.postInit runtime = .ok ()) (family : String) (summary : Value F H) :
    ((model.payload hashing family summary).json numerals hashing).valid = true ↔
      (summary.json numerals hashing).valid = true := by
  have finite := postInit_finite built
  have written : ∀ value, runtime.isFinite value = true → ((Value.num value : Value F H).json numerals hashing).valid = true :=
    fun value known => (Value.valid_write value).trans known
  constructor
  · intro valid
    exact Value.valid_obj.mp valid ("summary", summary) (by simp)
  · intro valid
    refine Value.valid_obj.mpr ?_
    simp only [List.forall_mem_cons]
    refine ⟨rfl, rfl, rfl, rfl, rfl, Value.valid_sorted finite.policyWeights, Value.valid_sorted finite.valueWeights,
      written _ finite.valueBias, rfl, Value.valid_obj.mpr fun entry member => ?_, Value.valid_obj.mpr ?_, valid, by simp⟩
    · obtain ⟨record, inside, rfl⟩ := List.mem_map.mp member
      obtain ⟨alpha, beta⟩ := finite.records record (List.mem_insertionSort _ |>.mp inside)
      refine Value.valid_obj.mpr ?_
      simp only [List.forall_mem_cons]
      exact ⟨written _ alpha, written _ beta, rfl, by simp⟩
    · simp only [List.forall_mem_cons]
      exact ⟨written _ finite.policyLimit, written _ finite.valueLimit, rfl, written _ finite.benchUpperThreshold, by simp⟩

omit [Neg F] [LE F] [DecidableLE F] in
theorem payload_genuine {summary : Value F H} (taken : model.snapshot runtime hashing = .ok summary) (family : String) :
    ((model.payload hashing family summary).json numerals hashing).Genuine numerals.floats := by
  refine Value.genuine_obj (by simp) ?_
  simp only [List.forall_mem_cons]
  refine ⟨trivial, trivial, trivial, trivial, trivial, Value.genuine_sorted _, Value.genuine_sorted _,
    Value.genuine_write _, trivial, Value.genuine_obj ?_ fun entry member => ?_, Value.genuine_obj (by simp) ?_,
    snapshot_genuine taken, by simp⟩
  · rw [List.map_map]
    exact model.agentRecords.sorted.unique
  · obtain ⟨record, _, rfl⟩ := List.mem_map.mp member
    exact Value.genuine_obj (by simp) (by simp [Value.json, Json.Genuine, Value.genuine_write])
  · simp [Value.json, Json.Genuine, Value.genuine_write]

omit [Neg F] [LE F] [DecidableLE F] in
theorem artifactBytes_eq_ok : model.artifactBytes numerals hashing family = .ok encoded ↔
    ∃ summary, model.snapshot runtime hashing = .ok summary ∧
      ((model.payload hashing family summary).json numerals hashing).valid = true ∧
      encoded = canonicalBytes ((model.payload hashing family summary).json numerals hashing) := by
  simp only [artifactBytes, toPayload, bind_eq_ok, pure_eq_ok, jsonText]
  constructor
  · rintro ⟨_, ⟨summary, taken, rfl⟩, text, written, rfl⟩
    split at written
    next valid => exact ⟨summary, taken, valid, congrArg Json.encode (Except.ok.inj written).symm⟩
    next => simp at written
  · rintro ⟨summary, taken, valid, rfl⟩
    exact ⟨_, ⟨summary, taken, rfl⟩, _, if_pos valid, rfl⟩

/-- What is written is read back, whatever model it is. -/
theorem readArtifact_artifactBytes (coercions : Coercions F) (built : model.postInit runtime = .ok ())
    (written : model.artifactBytes numerals hashing family = .ok encoded) :
    readArtifact numerals hashing coercions encoded = .ok model.reordered := by
  obtain ⟨summary, taken, valid, rfl⟩ := artifactBytes_eq_ok.mp written
  have loaded := Json.loads_canonicalBytes ⟨payload_genuine taken family, valid⟩
  have restored := fromPayload_reread numerals hashing coercions built family summary
  simp only [Value.reread] at restored
  exact bind_eq_ok.mpr ⟨_, orRaise_eq_ok.mpr loaded, restored⟩

end Bytes

end PolicyValueModel

end AgentTree.Engine