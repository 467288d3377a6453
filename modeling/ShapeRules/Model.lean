import ShapeRules.Shape

/-!
Models: the shapes of different ids that stand on their own, with their members inside them.
-/

namespace ShapeRules

structure Model where
  /-- The shapes that are no members, in the order of their declaration. -/
  shapes : List Shape
  distinct : (shapes.map Shape.id).Nodup

/-- A shape with an id that the model already has. -/
structure DuplicateShape where
  id : ShapeId
  deriving DecidableEq

def DuplicateShape.message (error : DuplicateShape) : String :=
  "Duplicate shape '" ++ error.id.text ++ "'"

namespace Model

def empty : Model := ⟨[], List.nodup_nil⟩

def add (model : Model) (shape : Shape) : Except DuplicateShape Model :=
  if h : shape.id ∈ model.shapes.map Shape.id then .error ⟨shape.id⟩
  else
    .ok ⟨model.shapes ++ [shape], by
      rw [List.map_append, List.nodup_append]
      refine ⟨model.distinct, by simp, ?_⟩
      rintro _ ha _ hb rfl
      simp only [List.map_cons, List.map_nil, List.mem_singleton] at hb
      exact h (hb ▸ ha)⟩

/-- The model of some shapes, unless an id repeats. -/
def ofShapes (shapes : List Shape) : Except DuplicateShape Model :=
  shapes.foldlM add empty

/-- A step in the declaration of a model. -/
inductive Step where
  | addShape (shape : Shape)
  | addShapes (shapes : List Shape)

/-- The shapes declared so far, and those of a step behind them. -/
def step (declared : List Shape) : Step → List Shape
  | .addShape shape => declared ++ [shape]
  | .addShapes shapes => declared ++ shapes

/-- The model of the shapes that some steps declare. -/
def build (steps : List Step) : Except DuplicateShape Model :=
  ofShapes (steps.foldl step [])

/-- The shape of an id. The id of a member leads through the shape that holds it. -/
def find? (model : Model) (id : ShapeId) : Option Shape :=
  match id.member with
  | none => Keyed.find? Shape.id id model.shapes
  | some member =>
    match Keyed.find? Shape.id id.withoutMember model.shapes with
    | none => none
    | some container => container.findMember? member

def contains (model : Model) (id : ShapeId) : Bool := (model.find? id).isSome

/-- Every shape, each one before its members. -/
def allShapes (model : Model) : List Shape :=
  model.shapes.flatMap fun shape => shape :: shape.members

/-- The ids of the traits applied anywhere, in the order of their first application. -/
def appliedTraits (model : Model) : List ShapeId :=
  Keyed.distinct (model.allShapes.flatMap Shape.traitIds)

end Model

end ShapeRules
