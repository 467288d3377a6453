import ShapeRules.Path.Evaluation
import ShapeRules.Proofs.Json.Equality
import ShapeRules.Proofs.Model.Enumeration
import ShapeRules.Proofs.Value

/-!
What segments give. A property of values holds of whatever a segment gives if it holds of the values
that results are made of.
-/

namespace ShapeRules

theorem Shape.mem_of_resolveTrait? {shape : Shape} {name : String} {applied : Trait}
    (h : shape.resolveTrait? name = some applied) : applied ∈ shape.traits := by
  unfold resolveTrait? at h
  split at h
  · split at h
    · exact (Keyed.find?_eq_some h).1
    · cases h
  · dsimp only at h
    split at h
    · rename_i found hbuiltIn
      cases h
      split at hbuiltIn
      · exact (Keyed.find?_eq_some hbuiltIn).1
      · cases hbuiltIn
    · exact List.mem_of_find?_eq_some h

namespace Value

/-- Results have the property if the nodes that they are made of have another one. That one passes
from a container to its children. -/
structure Closed (P : Value → Prop) (Q : Json → Prop) : Prop where
  absent : P .absent
  bool (b : Bool) : P (.bool b)
  string (s : String) : P (.string s)
  ofShape (id : ShapeId) : P (.ofShape id)
  node {json : Json} (hjson : Q json) (trait : Option ShapeId) : P (.node json trait)
  ofList {values : List Value} (hvalues : ∀ value ∈ values, P value) : P (.ofList values)
  items {items : List Json} (hjson : Q (.array items)) : ∀ item ∈ items, Q item
  fields {fields : List (String × Json)} (hjson : Q (.object fields)) : ∀ field ∈ fields, Q field.2

namespace Closed

variable {P : Value → Prop} {Q : Json → Prop} {model : Model} {shape : Shape} {json : Json}

theorem ofOption {α : Type} {f : α → Value} {found : Option α} (hP : Closed P Q)
    (h : ∀ a ∈ found, P (f a)) : P (Value.ofOption (found.map f)) := by
  cases found with
  | none => exact hP.absent
  | some a => exact h a rfl

theorem ofMembers (hP : Closed P Q) (shape : Shape) : P (Value.ofMembers shape) :=
  hP.ofList (List.forall_mem_map.mpr fun member _ => hP.ofShape member.id)

theorem ofTraits (hP : Closed P Q) (hshape : ∀ applied ∈ shape.traits, Q applied.node) :
    P (Value.ofTraits shape) :=
  hP.ofList (List.forall_mem_map.mpr fun applied happlied => hP.node (hshape applied happlied) _)

theorem ofChildren (hP : Closed P Q) (hjson : Q json) : P (Value.ofChildren json) := by
  cases json with
  | array items =>
    exact hP.ofList (List.forall_mem_map.mpr fun item hitem =>
      hP.node (hP.items hjson item hitem) _)
  | object fields =>
    exact hP.ofList (List.forall_mem_map.mpr fun field hfield =>
      hP.node (hP.fields hjson field hfield) _)
  | _ => exact hP.absent

private theorem resolved (hP : Closed P Q) (hshape : ∀ applied ∈ shape.traits, Q applied.node)
    (name : String) : P (Value.ofOption ((shape.resolveTrait? name).map ofTrait)) :=
  hP.ofOption fun applied happlied =>
    hP.node (hshape applied (Shape.mem_of_resolveTrait? happlied)) _

theorem declaredKey (hP : Closed P Q) (hshape : ∀ applied ∈ shape.traits, Q applied.node)
    (name : String) : P (Segment.declaredKey shape name) := by
  unfold Segment.declaredKey
  split
  · exact hP.string _
  · exact hP.ofOption fun id _ => hP.ofShape id
  · exact hP.ofMembers shape
  · exact hP.ofTraits hshape
  · split
    · exact hP.ofShape _
    · exact hP.resolved hshape _

theorem shapeKey (hP : Closed P Q)
    (hmodel : ∀ shape ∈ model.allShapes, ∀ applied ∈ shape.traits, Q applied.node) (id : ShapeId)
    (name : String) : P (Segment.shapeKey model id name) := by
  unfold Segment.shapeKey
  split
  · exact hP.string _
  · exact hP.string _
  · exact hP.string _
  · exact hP.ofOption fun s _ => hP.string s
  · split
    · rename_i shape hshape
      exact hP.declaredKey (hmodel shape (Model.mem_allShapes_of_find? hshape)) _
    · exact hP.absent

theorem nodeKey (hP : Closed P Q) (hjson : Q json) (name : String) :
    P (Segment.nodeKey json name) := by
  unfold Segment.nodeKey
  split
  · exact hP.ofOption fun value hvalue =>
      hP.node (hP.fields hjson (name, value) (Json.mem_of_field? hvalue)) _
  · split
    · exact hP.ofOption fun item hitem =>
        hP.node (hP.items hjson item (List.mem_of_getElem? hitem)) _
    · exact hP.absent
  · exact hP.absent

theorem callShape (hP : Closed P Q)
    (hmodel : ∀ shape ∈ model.allShapes, ∀ applied ∈ shape.traits, Q applied.node) (id : ShapeId)
    (bound : Option Variables) (accessor : Accessor) (argument : String) :
    P (Segment.callShape id (model.find? id) bound accessor argument) := by
  have htraits : ∀ shape ∈ model.find? id, ∀ applied ∈ shape.traits, Q applied.node :=
    fun shape hfound => hmodel shape (Model.mem_allShapes_of_find? hfound)
  unfold Segment.callShape
  generalize model.find? id = found at htraits ⊢
  split
  · exact hP.string _
  · exact hP.string _
  · exact hP.string _
  · split
    · exact hP.ofList (List.forall_mem_map.mpr fun id _ => hP.ofShape id)
    · exact hP.absent
  · exact hP.bool _
  · cases found with
    | none => exact hP.absent
    | some shape => exact hP.resolved (htraits shape rfl) argument
  · exact hP.ofOption fun member _ => hP.ofShape member.id
  · split
    · exact hP.ofList (List.forall_mem_map.mpr fun id _ => hP.string id.text)
    · exact hP.absent
  · split
    · exact hP.ofTraits (htraits _ rfl)
    · exact hP.absent
  · split
    · exact hP.string _
    · exact hP.absent

theorem callNode (hP : Closed P Q) (hjson : Q json) (trait : Option ShapeId) (accessor : Accessor)
    (argument : String) : P (Segment.callNode json trait accessor argument) := by
  unfold Segment.callNode
  split
  · exact hP.ofOption fun id _ => hP.string id.text
  · exact hP.ofOption fun id _ => hP.string id.name
  · exact hP.ofOption fun id _ => hP.string id.nameSpace
  · exact hP.ofList (List.forall_mem_map.mpr fun field _ => hP.string field.1)
  · exact hP.ofChildren hjson
  · exact hP.string _
  · exact hP.string _
  · exact hP.string _
  · exact hP.bool _
  · exact hP.absent

/-- What a segment gives on a value other than a projection. -/
theorem applyOne (hP : Closed P Q)
    (hmodel : ∀ shape ∈ model.allShapes, ∀ applied ∈ shape.traits, Q applied.node)
    (segment : Segment) {value : Value} (hvalue : ∀ json trait, value = .node json trait → Q json) :
    P (segment.applyOne model value) := by
  unfold Segment.applyOne
  split
  · exact hP.shapeKey hmodel _ _
  · exact hP.shapeKey hmodel _ _
  · exact hP.nodeKey (hvalue _ _ rfl) _
  · exact hP.nodeKey (hvalue _ _ rfl) _
  · split
    · exact hP.ofMembers _
    · exact hP.absent
  · exact hP.ofChildren (hvalue _ _ rfl)
  · exact hP.callShape hmodel _ _ _ _
  · exact hP.callNode (hvalue _ _ rfl) _ _ _
  · exact hP.string _
  · exact hP.absent

end Closed

end Value

end ShapeRules
