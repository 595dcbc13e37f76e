import AgentTree.PolicyModel

/-!
The payload of a policy artifact (`serde.py`): how a model is written down and read back.
-/

namespace AgentTree.Engine

open Outcome Relational

variable {F H : Type}

namespace Value

/-- `dict.get(name)`; `none` also for a value that is not an object. -/
def get? (value : Value F H) (name : String) : Option (Value F H) :=
  match value with
  | obj members => (members.find? fun member => member.1 = name).map Prod.snd
  | _ => none

/-- `value[name]`. -/
def item (value : Value F H) (name : String) : Except PyError (Value F H) :=
  orRaise (value.get? name) (.other "KeyError" name)

/-- `_mapping`. -/
def mapping (value : Option (Value F H)) (name : String) : Except PyError (List (String × Value F H)) :=
  match value with
  | some (obj members) => .ok members
  | _ => .error (.valueError (name ++ " must be an object"))

end Value

/-- What `float` and `int` make of a value of another type. -/
structure Coercions (F : Type) where
  floatOfInt : Int → Except PyError F
  floatOfText : String → Except PyError F
  intOfFloat : F → Except PyError Int
  intOfText : String → Except PyError Int

namespace Coercions

variable (coercions : Coercions F)

/-- `float(value)`. -/
def float (value : Value F H) : Except PyError F :=
  match value with
  | .num value => .ok value
  | .int value => coercions.floatOfInt value
  | .bool value => coercions.floatOfInt (if value then 1 else 0)
  | .str text => coercions.floatOfText text
  | _ => .error (.other "TypeError" "float() argument must be a string or a real number")

/-- `int(value)`. -/
def int (value : Value F H) : Except PyError Int :=
  match value with
  | .num value => coercions.intOfFloat value
  | .int value => .ok value
  | .bool value => .ok (if value then 1 else 0)
  | .str text => coercions.intOfText text
  | _ => .error (.other "TypeError" "int() argument must be a string, a bytes-like object or a real number")

/-- `bool(value)`. -/
def bool [Zero F] [DecidableEq F] (value : Value F H) : Bool :=
  match value with
  | .null => false
  | .bool value => value
  | .int value => value ≠ 0
  | .num value => value ≠ 0
  | .str text => text ≠ ""
  | .hash _ => true
  | .arr items => !items.isEmpty
  | .obj members => !members.isEmpty

/-- `{str(key): float(value) for ...}`. -/
def floats (members : List (String × Value F H)) : Except PyError (Dict String F) := do
  return Dict.ofList (← members.mapM fun (key, value) => do return (key, ← coercions.float value))

end Coercions

def schemaVersion : String := "agent-tree-rl/v1"

def artifactKind : String := "policy-artifact"

namespace PolicyValueModel

/-- `sorted(self.agent_records.items())`. -/
def sortedRecords (model : PolicyValueModel F) : List (String × AgentRecord F) :=
  model.agentRecords.rows.insertionSort fun a b => a.1 ≤ b.1

variable [Zero F] [One F] [Add F] [Sub F] [Mul F] [Div F] [LT F] [DecidableLT F] [DecidableEq F] [OfScientific F]
  (runtime : Runtime F) (hashing : Hashing F H)

/-- An agent of a snapshot. -/
def agentSummary (record : AgentRecord F) : Except PyError (Value F H) := do
  let mean ← record.mean
  let upper ← record.upperConfidence runtime
  return .obj [
    ("samples", .num record.samples),
    ("mean", .num mean),
    ("upper_confidence", .num upper),
    ("status", .str (if record.benched then "BENCHED" else "ACTIVE"))]

def snapshot (model : PolicyValueModel F) : Except PyError (Value F H) := do
  let agents ← model.sortedRecords.mapM fun (actor, record) => do return (actor, ← agentSummary runtime record)
  return .obj [
    ("model_version", .str (model.modelVersion hashing)),
    ("policy_weights", .sorted model.policyWeights),
    ("value_weights", .sorted model.valueWeights),
    ("value_bias", .num model.valueBias),
    ("value_updates", .int model.valueUpdates),
    ("agents", .obj agents)]

/-- `model_to_payload` once the snapshot is taken. -/
def payload (model : PolicyValueModel F) (family : String) (summary : Value F H) : Value F H := .obj [
  ("schema", .str schemaVersion),
  ("kind", .str artifactKind),
  ("family", .str family),
  ("model_version", .str (model.modelVersion hashing)),
  ("generation", .int model.generation),
  ("policy_weights", .sorted model.policyWeights),
  ("value_weights", .sorted model.valueWeights),
  ("value_bias", .num model.valueBias),
  ("value_updates", .int model.valueUpdates),
  ("agent_records", .obj (model.sortedRecords.map fun (actor, record) => (actor, .obj [
    ("alpha", .num record.alpha),
    ("beta", .num record.beta),
    ("benched", .bool record.benched)]))),
  ("limits", .obj [
    ("policy_limit", .num model.policyLimit),
    ("value_limit", .num model.valueLimit),
    ("bench_min_samples", .int model.benchMinSamples),
    ("bench_upper_threshold", .num model.benchUpperThreshold)]),
  ("summary", summary)]

def toPayload (model : PolicyValueModel F) (family : String) : Except PyError (Value F H) := do
  return model.payload hashing family (← model.snapshot runtime hashing)

variable (coercions : Coercions F)

/-- A record of a payload. -/
def readRecord (actor : String) (raw : Value F H) : Except PyError (AgentRecord F) := do
  let members ← Value.mapping (some raw) ("agent_records." ++ actor)
  let alpha ← coercions.float (← (Value.obj members).item "alpha")
  let beta ← coercions.float (← (Value.obj members).item "beta")
  let benched ← (Value.obj members).item "benched"
  return ⟨alpha, beta, Coercions.bool benched⟩

variable [Neg F] [LE F] [DecidableLE F]

/-- `model_from_payload`. -/
def fromPayload (payload : Value F H) : Except PyError (PolicyValueModel F) := do
  let named := match payload.get? "schema", payload.get? "kind" with
    | some (.str schema), some (.str kind) => schema = schemaVersion && kind = artifactKind
    | _, _ => false
  ensure named (.valueError "unsupported policy artifact schema")
  let limits ← Value.mapping (payload.get? "limits") "limits"
  let rawRecords ← Value.mapping (payload.get? "agent_records") "agent_records"
  let records ← rawRecords.mapM fun (actor, raw) => do return (actor, ← readRecord coercions actor raw)
  let policyWeights ← coercions.floats (← Value.mapping (payload.get? "policy_weights") "policy_weights")
  let valueWeights ← coercions.floats (← Value.mapping (payload.get? "value_weights") "value_weights")
  let valueBias ← coercions.float (← payload.item "value_bias")
  let valueUpdates ← coercions.int (← payload.item "value_updates")
  let generation ← coercions.int (← payload.item "generation")
  let policyLimit ← coercions.float (← (Value.obj limits).item "policy_limit")
  let valueLimit ← coercions.float (← (Value.obj limits).item "value_limit")
  let benchMinSamples ← coercions.int (← (Value.obj limits).item "bench_min_samples")
  let benchUpperThreshold ← coercions.float (← (Value.obj limits).item "bench_upper_threshold")
  let model : PolicyValueModel F := {
    policyWeights, valueWeights, valueBias, valueUpdates, generation
    agentRecords := Dict.ofList records
    policyLimit, valueLimit, benchMinSamples, benchUpperThreshold }
  model.postInit runtime
  let reproduced := match payload.get? "model_version" with
    | some (.str version) => decide (version = model.modelVersion hashing)
    | _ => false
  ensure reproduced (.valueError "policy artifact model version does not reproduce")
  return model

end PolicyValueModel

end AgentTree.Engine
