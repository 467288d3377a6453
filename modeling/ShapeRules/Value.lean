import ShapeRules.Json.Text
import ShapeRules.Selector

/-!
The values that paths are evaluated on and give, their text in messages, and when two are the same.
-/

namespace ShapeRules

inductive Value where
  /-- The value of what does not resolve. -/
  | absent
  | bool (b : Bool)
  | string (s : String)
  /-- A shape by its id. Only the root of a match has variables. -/
  | shape (id : ShapeId) (bound : Option Variables)
  /-- A node of a trait, with the trait's id if it is the trait's root. -/
  | node (json : Json) (trait : Option ShapeId)
  /-- The values that a step found, none of them absent or a projection. -/
  | projection (values : List Value)

namespace Value

mutual
/-- The values that a value adds to a projection. -/
def parts : Value → List Value
  | .absent => []
  | .projection values => allParts values
  | value => [value]
/-- The values that values add to a projection. -/
def allParts : List Value → List Value
  | [] => []
  | value :: values => parts value ++ allParts values
end

/-- The projection of values, flat and without absent ones. -/
def ofList (values : List Value) : Value :=
  .projection (allParts values)

def ofShape (id : ShapeId) : Value := .shape id none

/-- The root of a match. -/
def ofMatch (found : Match) : Value := .shape found.shape (some found.bound)

/-- A node inside a trait. -/
def ofNode (json : Json) : Value := .node json none

/-- The root of a trait. -/
def ofTrait (applied : Trait) : Value := .node applied.node (some applied.id)

/-- An optional value, absent if there is none. -/
def ofOption : Option Value → Value
  | some value => value
  | none => .absent

def isAbsent : Value → Bool
  | .absent => true
  | _ => false

/-- A node in a message: strings stand without quotes. -/
def nodeMessage : Json → String
  | .string s => s
  | json => json.compact

mutual
/-- The value in a message. -/
def message : Value → String
  | .absent => ""
  | .bool b => if b then "true" else "false"
  | .string s => s
  | .shape id _ => id.text
  | .node json _ => nodeMessage json
  | .projection values => ", ".intercalate (messages values)
/-- The values in a message, each on its own. -/
def messages : List Value → List String
  | [] => []
  | value :: values => message value :: messages values
end

/-- The same names are bound to the same shapes, in whatever order. -/
def sameVariables : Option Variables → Option Variables → Bool
  | none, none => true
  | some xs, some ys =>
    xs.length = ys.length && xs.all fun (name, shapes) => Variables.find? ys name = some shapes
  | _, _ => false

mutual
/-- The values are the same. Shapes are compared by their ids and variables alone. -/
def same : Value → Value → Bool
  | .absent, .absent => true
  | .bool a, .bool b => a = b
  | .string s, .string t => s = t
  | .shape id bound, .shape id' bound' => id = id' && sameVariables bound bound'
  | .node json trait, .node json' trait' => json.same json' && trait = trait'
  | .projection xs, .projection ys => sameAll xs ys
  | _, _ => false
def sameAll : List Value → List Value → Bool
  | [], [] => true
  | x :: xs, y :: ys => same x y && sameAll xs ys
  | _, _ => false
end

end Value

end ShapeRules
