import ShapeRules.Proofs.Path.Evaluation
import ShapeRules.Proofs.Path.Grammar

/-!
Variables in paths. A path sees the variables of a root only if it begins with a call for one of
them, and then only the shapes bound to that one. The shapes that it gives carry no variables.
-/

namespace ShapeRules

/-- The shapes that a root binds to a name. A root without variables binds none. -/
def Variables.boundTo? (bound : Option Variables) (name : String) : Option (List ShapeId) :=
  bound.bind fun known => find? known name

namespace Value

/-- No shape in the value carries variables. -/
inductive Unbound : Value → Prop
  | absent : Unbound .absent
  | bool (b : Bool) : Unbound (.bool b)
  | string (s : String) : Unbound (.string s)
  | shape (id : ShapeId) : Unbound (.shape id none)
  | node (json : Json) (trait : Option ShapeId) : Unbound (.node json trait)
  | projection {values : List Value} (hvalues : ∀ value ∈ values, Unbound value) :
      Unbound (.projection values)

/-- Nothing in the place of the value: no elements if it is a projection, and absent otherwise. -/
def emptied : Value → Value
  | .projection _ => .projection []
  | _ => .absent

theorem Unbound.elements {values : List Value} (h : Unbound (.projection values)) :
    ∀ element ∈ values, element.Unbound := by
  cases h with
  | projection hvalues => exact hvalues

theorem closed_unbound : Closed Unbound fun _ => True where
  absent := .absent
  bool := .bool
  string := .string
  ofShape := .shape
  node _ := .node _
  ofList hvalues := .projection (forall_mem_allParts (fun _ => Unbound.elements) hvalues)
  items _ _ _ := trivial
  fields _ _ _ := trivial

end Value

namespace Segment

open Value Variables

variable {model : Model} {id : ShapeId} {bound bound' : Option Variables}

/-- Roots of one shape differ in calls for a variable that they bind differently, and nowhere
else. -/
theorem applyOne_shape_congr (segment : Segment)
    (h : ∀ arguments, segment = .call .var arguments →
      boundTo? bound (arguments.head?.getD "") = boundTo? bound' (arguments.head?.getD "")) :
    segment.applyOne model (.shape id bound) = segment.applyOne model (.shape id bound') := by
  cases segment with
  | call accessor arguments =>
    cases accessor with
    | var =>
      have hbound := h arguments rfl
      unfold boundTo? at hbound
      rw [applyOne, applyOne, callShape, callShape, hbound]
    | _ => rfl
  | _ => rfl

/-- Whatever a segment is applied to, it gives no variables. -/
theorem unbound_apply (model : Model) (segment : Segment) (value : Value) :
    (segment.apply model value).Unbound := by
  have hone (value : Value) : (segment.applyOne model value).Unbound :=
    closed_unbound.applyOne (fun _ _ _ _ => trivial) segment fun _ _ _ => trivial
  induction value using nested_induction with
  | absent => exact hone .absent
  | single value hvalue =>
    cases value with
    | absent => cases hvalue
    | projection values => cases hvalue
    | _ => exact hone _
  | projection values ih =>
    rw [apply_projection]
    refine closed_unbound.ofList fun result hresult => ?_
    obtain ⟨value, hvalue, rfl⟩ := List.mem_map.mp hresult
    exact ih value hvalue

end Segment

namespace Path

open Value Variables

variable {model : Model} {path : Path} {id : ShapeId} {bound bound' : Option Variables}

theorem unbound_evaluate (model : Model) (hpath : path.segments ≠ []) (start : Value) :
    (path.evaluate model start).Unbound :=
  evaluate_of_apply model (Segment.unbound_apply model) hpath start

/-- A path gives the same on two roots of one shape if these agree on the variable that it begins
with a call for, if it does. -/
theorem evaluate_shape_congr (hpath : path.WellFormed)
    (h : ∀ name others, path = ⟨.call .var [name] :: others⟩ →
      boundTo? bound name = boundTo? bound' name) :
    path.evaluate model (.shape id bound) = path.evaluate model (.shape id bound') := by
  obtain ⟨segments⟩ := path
  obtain ⟨first, others, rfl⟩ := List.exists_cons_of_ne_nil hpath.nonempty
  have hfirst : first.WellFormed := hpath.segments first List.mem_cons_self
  have happly : first.apply model (.shape id bound) = first.apply model (.shape id bound') := by
    refine first.applyOne_shape_congr ?_
    rintro arguments rfl
    obtain ⟨name, rfl⟩ := List.length_eq_one_iff.mp hfirst
    exact h name others rfl
  rw [evaluate_cons, evaluate_cons, happly]

theorem evaluate_append (front behind : List Segment) (start : Value) :
    evaluate ⟨front ++ behind⟩ model start =
      evaluate ⟨behind⟩ model (evaluate ⟨front⟩ model start) :=
  List.foldl_append

end Path

namespace Segment

open Value

variable {model : Model} {value : Value}

/-- On what carries no variables a call for one finds nothing. -/
theorem apply_var_of_unbound (h : value.Unbound) (arguments : List String) :
    (call .var arguments).apply model value = value.emptied := by
  induction h with
  | @projection values _ ih =>
    have hnone : ∀ element ∈ values, ((call .var arguments).apply model element).parts = [] := by
      intro element helement
      rw [ih element helement]
      cases element <;> rfl
    rw [apply_projection, ofList, allParts_eq_flatMap, List.flatMap_map,
      List.flatMap_eq_nil_iff.mpr hnone, emptied]
  | _ => rfl

end Segment

end ShapeRules
