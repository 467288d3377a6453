import ShapeRules.Path.Basic
import ShapeRules.Value

/-!
The evaluation of paths over a model. Whatever does not resolve is absent; on a projection every
segment is applied to each element and the results are joined.
-/

namespace ShapeRules

/-- The trait that a name refers to. A name with a number sign is an id; any other is first looked
up among the built-in traits, then among the names of the applied ones. -/
def Shape.resolveTrait? (shape : Shape) (name : String) : Option Trait :=
  if '#' ∈ name.toList then
    match ShapeId.parse? name with
    | some id => shape.findTrait? id
    | none => none
  else
    let builtIn :=
      match ShapeId.parseRelative ShapeId.prelude name with
      | .ok id => shape.findTrait? id
      | .error _ => none
    match builtIn with
    | some applied => some applied
    | none => shape.traits.find? fun applied => applied.id.name = name && !applied.id.isMember

namespace Value

def ofMembers (shape : Shape) : Value :=
  ofList (shape.members.map fun member => ofShape member.id)

def ofTraits (shape : Shape) : Value :=
  ofList (shape.traits.map ofTrait)

def ofChildren : Json → Value
  | .object fields => ofList (fields.map fun (_, child) => ofNode child)
  | .array items => ofList (items.map ofNode)
  | _ => .absent

/-- A number of things, as text. -/
def ofCount (n : Nat) : Value := .string (String.ofList (Nat.toDigits 10 n))

end Value

namespace Segment

/-- Indices are below this number: they fit a machine word. -/
def indexLimit : Nat := Nat.pow 2 64

/-- The index that a decimal numeral without sign and leading zeros denotes. -/
def index? (name : String) : Option Nat :=
  let digits := name.toList
  if digits ≠ [] ∧ digits.all Char.isDigit ∧ (digits = ['0'] ∨ digits.head? ≠ some '0') then
    let index := digits.foldl (fun n d => 10 * n + (d.toNat - '0'.toNat)) 0
    if index < indexLimit then some index else none
  else none

/-- A facet of a shape that its declaration gives; failing these, a member or a trait. -/
def declaredKey (shape : Shape) (name : String) : Value :=
  match name with
  | "type" => .string shape.kind.name
  | "target" => .ofOption (shape.target.map .ofShape)
  | "members" => .ofMembers shape
  | "traits" => .ofTraits shape
  | name =>
    match shape.findMember? name with
    | some member => .ofShape member.id
    | none => .ofOption ((shape.resolveTrait? name).map .ofTrait)

/-- What a key gives on a shape. The facets of the id need no declaration. -/
def shapeKey (model : Model) (id : ShapeId) (name : String) : Value :=
  match name with
  | "id" => .string id.text
  | "name" => .string id.name
  | "namespace" => .string id.nameSpace
  | "member" => .ofOption (id.member.map .string)
  | name =>
    match model.find? id with
    | some shape => declaredKey shape name
    | none => .absent

/-- What a key gives on a node. -/
def nodeKey (json : Json) (name : String) : Value :=
  match json with
  | .object fields => .ofOption ((Json.field? fields name).map .ofNode)
  | .array items =>
    match index? name with
    | some index => .ofOption (items[index]?.map .ofNode)
    | none => .absent
  | _ => .absent

/-- What an accessor gives on a shape that the model declares, or on an id that it does not. -/
def callShape (id : ShapeId) (shape : Option Shape) (bound : Option Variables)
    (accessor : Accessor) (argument : String) : Value :=
  match accessor with
  | .id => .string id.text
  | .name => .string id.name
  | .nameSpace => .string id.nameSpace
  | .var =>
    match bound.bind fun known => Variables.find? known argument with
    | some shapes => .ofList (shapes.map .ofShape)
    | none => .absent
  | .has => .bool (shape.bind fun shape => shape.resolveTrait? argument).isSome
  | .trait => .ofOption ((shape.bind fun shape => shape.resolveTrait? argument).map .ofTrait)
  | .member =>
    .ofOption ((shape.bind fun shape => shape.findMember? argument).map fun member =>
      .ofShape member.id)
  | .keys =>
    match shape with
    | some shape => .ofList (shape.traitIds.map fun id => .string id.text)
    | none => .absent
  | .values =>
    match shape with
    | some shape => .ofTraits shape
    | none => .absent
  | .length =>
    match shape with
    | some shape => .ofCount shape.members.length
    | none => .absent

/-- What an accessor gives on a node. -/
def callNode (json : Json) (trait : Option ShapeId) (accessor : Accessor) (argument : String) :
    Value :=
  match accessor, json with
  | .id, _ => .ofOption (trait.map fun id => .string id.text)
  | .name, _ => .ofOption (trait.map fun id => .string id.name)
  | .nameSpace, _ => .ofOption (trait.map fun id => .string id.nameSpace)
  | .keys, .object fields => .ofList (fields.map fun (name, _) => .string name)
  | .values, json => .ofChildren json
  | .length, .string s => .ofCount s.length
  | .length, .array items => .ofCount items.length
  | .length, .object fields => .ofCount fields.length
  | .has, .object fields => .bool (Json.field? fields argument).isSome
  | _, _ => .absent

/-- What a segment gives on a value other than a projection. -/
def applyOne (model : Model) (segment : Segment) (value : Value) : Value :=
  match segment, value with
  | .key name, .shape id _ | .literal name, .shape id _ => shapeKey model id name
  | .key name, .node json _ | .literal name, .node json _ => nodeKey json name
  | .wildcard, .shape id _ =>
    match model.find? id with
    | some shape => .ofMembers shape
    | none => .absent
  | .wildcard, .node json _ => .ofChildren json
  | .call accessor arguments, .shape id bound =>
    callShape id (model.find? id) bound accessor (arguments.head?.getD "")
  | .call accessor arguments, .node json trait =>
    callNode json trait accessor (arguments.head?.getD "")
  | .call .length _, .string s => .ofCount s.length
  | _, _ => .absent

mutual
/-- What a segment gives on a value. -/
def apply (model : Model) (segment : Segment) : Value → Value
  | .projection values => .ofList (applyAll model segment values)
  | value => applyOne model segment value
/-- What a segment gives on each of some values. -/
def applyAll (model : Model) (segment : Segment) : List Value → List Value
  | [] => []
  | value :: values => apply model segment value :: applyAll model segment values
end

end Segment

/-- The value of a path that starts at a value. -/
def Path.evaluate (path : Path) (model : Model) (start : Value) : Value :=
  path.segments.foldl (fun value segment => segment.apply model value) start

end ShapeRules
