import ShapeRules.Model
import ShapeRules.Text.Space

/-!
Selectors by kind, and the matches that selectors find.
-/

namespace ShapeRules

/-- Shapes bound to names, each name once. -/
abbrev Variables : Type := List (String × List ShapeId)

def Variables.find? (bound : Variables) (name : String) : Option (List ShapeId) :=
  (Keyed.find? Prod.fst name bound).map Prod.snd

/-- A shape that a selector found, with the shapes bound on the way. -/
structure Match where
  shape : ShapeId
  bound : Variables
  deriving DecidableEq

namespace Match

/-- Binds shapes to a name, in the place of those bound to it before. -/
def bind (found : Match) (name : String) (shapes : List ShapeId) : Match :=
  { found with bound := Keyed.put Prod.fst (name, shapes) found.bound }

end Match

/-- Selects the shapes of one kind, or all of them. -/
structure KindSelector where
  kind : Option Kind
  deriving DecidableEq, Repr

/-- A text that is no selector. -/
structure InvalidSelector where
  text : String
  deriving DecidableEq, Repr

def InvalidSelector.message (error : InvalidSelector) : String :=
  "Invalid selector '" ++ error.text ++ "': expected '*' or a shape type"

namespace KindSelector

def text (selector : KindSelector) : String :=
  match selector.kind with
  | none => "*"
  | some kind => kind.name

/-- The selector that a text denotes, whatever white space surrounds it. -/
def parse (text : String) : Except InvalidSelector KindSelector :=
  let trimmed := Text.trim text
  if trimmed = "*" then .ok ⟨none⟩
  else
    match Kind.ofName? trimmed with
    | some kind => .ok ⟨some kind⟩
    | none => .error ⟨text⟩

/-- The selector admits a shape. -/
def admits (selector : KindSelector) (shape : Shape) : Bool :=
  match selector.kind with
  | none => true
  | some kind => shape.kind = kind

/-- The matches in a model, in the order of its shapes. No variables are bound. -/
def select (selector : KindSelector) (model : Model) : List Match :=
  (model.allShapes.filter selector.admits).map fun shape => ⟨shape.id, []⟩

end KindSelector

end ShapeRules
