import AgentTree.Serde
import Mathlib.Data.String.Basic

/-!
The payload of a model reads back as the model, its dictionaries in the order of their keys.
-/

namespace AgentTree.Engine

open Outcome Relational

variable {F H : Type}

namespace PolicyValueModel

variable [Zero F] [One F] [Add F] [Sub F] [Mul F] [Div F] [Neg F] [LT F] [LE F] [DecidableLT F] [DecidableLE F]
  [DecidableEq F] [OfScientific F] {runtime : Runtime F} {hashing : Hashing F H}

/-- The model that is read back. -/
def inOrder (model : PolicyValueModel F) : PolicyValueModel F :=
  { model with
    policyWeights := model.policyWeights.sorted
    valueWeights := model.valueWeights.sorted
    agentRecords := model.agentRecords.sorted }

omit [Zero F] [One F] [Add F] [Sub F] [Mul F] [Div F] [Neg F] [LT F] [LE F] [DecidableLT F] [DecidableLE F]
  [DecidableEq F] [OfScientific F] in
theorem modelVersion_inOrder (model : PolicyValueModel F) :
    model.inOrder.modelVersion hashing = model.modelVersion hashing := by
  have policy := model.policyWeights.sorted_sorted
  have value := model.valueWeights.sorted_sorted
  have records := model.agentRecords.sorted_sorted
  simp only [modelVersion, inOrder, Value.sorted, policy, value, records]
  rfl

omit [Add F] [Sub F] [Mul F] [Div F] [DecidableEq F] [OfScientific F] in
theorem postInit_inOrder (model : PolicyValueModel F) :
    model.inOrder.postInit runtime = .ok () ↔ model.postInit runtime = .ok () := by
  simp only [postInit, bind_eq_ok, forM_eq_ok, inOrder, Dict.mem_sorted]
  exact Iff.rfl

omit [Zero F] [One F] [Add F] [Sub F] [Mul F] [Div F] [Neg F] [LT F] [LE F] [DecidableLT F] [DecidableLE F]
  [DecidableEq F] [OfScientific F] in
theorem floats_sorted (coercions : Coercions F) (weights : Dict String F) :
    coercions.floats ((weights.sorted.rows).map fun entry => ((entry.1, .num entry.2) : String × Value F H)) =
      .ok weights.sorted := by
  refine bind_eq_ok.mpr ⟨weights.sorted.rows.map fun entry => entry, mapM_map_ok fun entry _ => rfl, ?_⟩
  rw [List.map_id']
  exact congrArg Except.ok (Table.ext (Dict.rows_ofList weights.sorted.unique))

/-- The members of a record in a payload. -/
def recordPayload (record : AgentRecord F) : Value F H := .obj [
  ("alpha", .num record.alpha),
  ("beta", .num record.beta),
  ("benched", .bool record.benched)]

omit [One F] [Add F] [Sub F] [Mul F] [Div F] [Neg F] [LT F] [LE F] [DecidableLT F] [DecidableLE F]
  [OfScientific F] in
theorem readRecord_payload (coercions : Coercions F) (actor : String) (record : AgentRecord F) :
    readRecord coercions actor (recordPayload record : Value F H) = .ok record := by
  simp [readRecord, recordPayload, Value.mapping, Value.item, Value.get?, orRaise, Coercions.float, Coercions.bool,
    bind, Except.bind, pure, Except.pure]

omit [Add F] [Sub F] [Mul F] [Div F] [OfScientific F] in
/-- A model that its constructor accepts reads back from its payload, whatever the summary is. -/
theorem fromPayload_payload (coercions : Coercions F) {model : PolicyValueModel F}
    (built : model.postInit runtime = .ok ()) (family : String) (summary : Value F H) :
    fromPayload runtime hashing coercions (model.payload hashing family summary) = .ok model.inOrder := by
  have policy := floats_sorted (H := H) coercions model.policyWeights
  have value := floats_sorted (H := H) coercions model.valueWeights
  have table : Dict.ofList model.agentRecords.sorted.rows = model.agentRecords.sorted :=
    Table.ext (Dict.rows_ofList model.agentRecords.sorted.unique)
  have accepted : postInit runtime model.inOrder = .ok () := (postInit_inOrder model).mpr built
  have version : model.inOrder.modelVersion hashing = model.modelVersion hashing := modelVersion_inOrder model
  -- The members are looked up one by one; then the constructor and the version are checked.
  simp only [fromPayload, payload, Value.get?, Value.item, Value.mapping, Value.sorted, List.find?_cons, String.reduceEq,
    decide_true, decide_false, Option.map_some, Bool.and_self, orRaise, Coercions.float, Coercions.int, bind_eq_ok,
    ensure_eq_ok, pure_eq_ok, Except.ok.injEq, exists_eq_left']
  refine ⟨(), trivial, model.agentRecords.sorted.rows, ?_, _, policy, _, value, (), ?_, (), ?_, ?_⟩
  · refine (mapM_map_ok fun entry _ => ?_).trans (congrArg Except.ok (List.map_id' _))
    exact bind_eq_ok.mpr ⟨entry.2, readRecord_payload coercions entry.1 entry.2, rfl⟩
  · rw [table]
    exact accepted
  · rw [table]
    exact decide_eq_true version.symm
  · rw [table]
    rfl

end PolicyValueModel

end AgentTree.Engine
