import ShapeRules.Json.Basic
import ShapeRules.Keyed
import ShapeRules.Kind
import ShapeRules.ShapeId

/-!
Shapes with their traits and members, and the steps that declare them.
-/

namespace ShapeRules

/-- Where something was declared. -/
structure SourceLocation where
  filename : String
  line : UInt32
  column : UInt32
  deriving DecidableEq, Repr

namespace SourceLocation

/-- The location of what was not read from a file. -/
def unknown : SourceLocation := ⟨"N/A", 0, 0⟩

def text (location : SourceLocation) : String :=
  let line := location.line.toNat
  let column := location.column.toNat
  location.filename ++ s!" [{line}, {column}]"

end SourceLocation

/-- A trait applied to a shape. -/
structure Trait where
  id : ShapeId
  node : Json
  location : SourceLocation

/-- A shape. Each trait id and each member name occurs once. -/
structure Shape where
  id : ShapeId
  kind : Kind
  traits : List Trait
  members : List Shape
  /-- The shape that a member stands for. -/
  target : Option ShapeId
  location : SourceLocation

namespace Shape

/-- The name under which a container knows a member. -/
def memberName (member : Shape) : String :=
  member.id.member.getD member.id.name

def findTrait? (shape : Shape) (id : ShapeId) : Option Trait :=
  Keyed.find? Trait.id id shape.traits

def findMember? (shape : Shape) (name : String) : Option Shape :=
  Keyed.find? memberName name shape.members

/-- The ids of the applied traits, in the order in which they were first applied. -/
def traitIds (shape : Shape) : List ShapeId :=
  shape.traits.map Trait.id

/-- A shape without traits and members. -/
def bare (id : ShapeId) (kind : Kind) : Shape :=
  ⟨id, kind, [], [], none, .unknown⟩

/-- Applies a trait, in the place of an earlier one with its id. -/
def putTrait (shape : Shape) (applied : Trait) : Shape :=
  { shape with traits := Keyed.put Trait.id applied shape.traits }

/-- Adds a member, in the place of an earlier one with its name. -/
def putMember (shape : Shape) (member : Shape) : Shape :=
  { shape with members := Keyed.put memberName member shape.members }

/-- A member of this shape, declared where the shape is. -/
def newMember (shape : Shape) (name : String) (target : ShapeId) :
    Except InvalidShapeId Shape := do
  let id ← shape.id.withMember name
  return { bare id .member with target := some target, location := shape.location }

/-- A step in the declaration of a shape. -/
inductive Step where
  | locate (location : SourceLocation)
  /-- A trait declared where the shape is declared so far. -/
  | applyTrait (id : ShapeId) (node : Json)
  | applyTraitAt (id : ShapeId) (node : Json) (location : SourceLocation)
  | addMember (name : String) (target : ShapeId)
  | addMemberShape (member : Shape)
  | aim (target : ShapeId)

def step (shape : Shape) : Step → Except InvalidShapeId Shape
  | .locate location => .ok { shape with location }
  | .applyTrait id node => .ok (shape.putTrait ⟨id, node, shape.location⟩)
  | .applyTraitAt id node location => .ok (shape.putTrait ⟨id, node, location⟩)
  | .addMember name target => do return shape.putMember (← shape.newMember name target)
  | .addMemberShape member => .ok (shape.putMember member)
  | .aim target => .ok { shape with target := some target }

def run (shape : Shape) (steps : List Step) : Except InvalidShapeId Shape :=
  steps.foldlM step shape

end Shape

end ShapeRules
