import ShapeRules.Path.Evaluation
import ShapeRules.Template.Basic

/-!
The messages that templates make of values, and previews of them for one shape.
-/

namespace ShapeRules

def Fragment.render (model : Model) (value : Value) : Fragment → String
  | .literal text => text
  | .computed path => (path.evaluate model value).message

/-- The message that the template makes of a value. -/
def Template.render (template : Template) (model : Model) (value : Value) : String :=
  String.join (template.fragments.map (Fragment.render model value))

inductive PreviewError where
  | unparsable (error : SyntaxError)
  | unknownShape (id : ShapeId)
  deriving DecidableEq

namespace PreviewError

def message : PreviewError → String
  | unparsable error => "Template error: " ++ error.message
  | unknownShape id => "Shape not found: " ++ id.text

/-- The error and what caused it, outermost first. -/
def chain (error : PreviewError) : List String :=
  match error with
  | unparsable cause => [error.message, cause.message]
  | error => [error.message]

end PreviewError

namespace Model

/-- The message that a template makes of a shape of the model. -/
def previewTemplate (model : Model) (id : ShapeId) (text : String) :
    Except PreviewError String := do
  let template ← (Template.parse text).mapError .unparsable
  if model.contains id then .ok (template.render model (.ofShape id))
  else .error (.unknownShape id)

/-- The value of a path at a shape of the model, as a message. -/
def previewPath (model : Model) (id : ShapeId) (text : String) : Except PreviewError String := do
  let path ← (Path.parse text).mapError .unparsable
  if model.contains id then .ok (path.evaluate model (.ofShape id)).message
  else .error (.unknownShape id)

end Model

end ShapeRules
