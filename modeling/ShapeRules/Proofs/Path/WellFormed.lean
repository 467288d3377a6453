import ShapeRules.Proofs.Model.WellFormed
import ShapeRules.Proofs.Path.Evaluation
import ShapeRules.Proofs.Value.Equality

/-!
Evaluation keeps values well formed: what a path gives holds nodes of its start or of the traits of
the model.
-/

namespace ShapeRules

open Keyed (DistinctKeys)

namespace Value

theorem wellFormed_ofList {values : List Value} (h : ∀ value ∈ values, value.WellFormed) :
    (ofList values).WellFormed := by
  refine .projection (forall_mem_allParts (fun others hothers => ?_) h)
  cases hothers with
  | projection helements => exact helements

theorem wellFormed_ofNode {json : Json} (h : json.WellFormed) : (ofNode json).WellFormed :=
  .node h none

theorem closed_wellFormed : Closed WellFormed Json.WellFormed where
  absent := .absent
  bool := .bool
  string := .string
  ofShape id := .shape id (by simp)
  node := .node
  ofList := wellFormed_ofList
  items hjson := by
    cases hjson with
    | array hitems => exact hitems
  fields hjson := by
    cases hjson with
    | object _ hfields => exact hfields

end Value

namespace Segment

open Value

variable {model : Model}

theorem wellFormed_applyOne (hmodel : model.WellFormed) (segment : Segment) {value : Value}
    (hvalue : value.WellFormed) : (segment.applyOne model value).WellFormed := by
  refine closed_wellFormed.applyOne hmodel segment ?_
  rintro json trait rfl
  cases hvalue with
  | node hjson => exact hjson

theorem wellFormed_apply (hmodel : model.WellFormed) (segment : Segment) {value : Value}
    (hvalue : value.WellFormed) : (segment.apply model value).WellFormed := by
  induction hvalue with
  | @projection values _ ih =>
    rw [apply_projection]
    refine wellFormed_ofList fun result hresult => ?_
    obtain ⟨value, hvalue, rfl⟩ := List.mem_map.mp hresult
    exact ih value hvalue
  | absent => exact wellFormed_applyOne hmodel segment .absent
  | bool b => exact wellFormed_applyOne hmodel segment (.bool b)
  | string s => exact wellFormed_applyOne hmodel segment (.string s)
  | shape id hbound => exact wellFormed_applyOne hmodel segment (.shape id hbound)
  | node hjson trait => exact wellFormed_applyOne hmodel segment (.node hjson trait)

end Segment

theorem Path.wellFormed_evaluate {model : Model} (hmodel : model.WellFormed) (path : Path)
    {value : Value} (hvalue : value.WellFormed) : (path.evaluate model value).WellFormed := by
  obtain ⟨segments⟩ := path
  induction segments generalizing value with
  | nil => exact hvalue
  | cons segment segments ih => exact ih (Segment.wellFormed_apply hmodel segment hvalue)

end ShapeRules
