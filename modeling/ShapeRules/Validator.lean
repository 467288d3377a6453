import ShapeRules.Event
import ShapeRules.Template.Rendering

/-!
Validators that report each match of a selector, at the shape or at a trait bound to it.
-/

namespace ShapeRules

/-- A selector as a validator uses it: its text and the matches that it streams, in the order in
which it finds them. -/
structure Selection where
  text : String
  stream : Model → List Match

namespace Selection

/-- Hands every match to a consumer as it is found. -/
def consume {σ : Type} (selection : Selection) (model : Model) (consumer : σ → Match → σ)
    (start : σ) : σ :=
  (selection.stream model).foldl consumer start

def select (selection : Selection) (model : Model) : List Match :=
  selection.consume model (fun collected found => collected ++ [found]) []

end Selection

def KindSelector.selection (selector : KindSelector) : Selection := ⟨selector.text, selector.select⟩

structure Validator where
  id : String
  severity : Severity
  selection : Selection
  /-- Only shapes with this trait are reported, at the trait's location. -/
  binding : Option ShapeId
  /-- The message of each event, or a fixed one if there is no template. -/
  template : Option Template

namespace Validator

/-- The name of this kind of validator, and the id of its events unless they are given another. -/
def name : String := "EmitEachSelector"

/-- A validator of a selection and nothing else. -/
def ofSelection (selection : Selection) : Validator := ⟨name, .danger, selection, none, none⟩

/-- Where a shape is reported, if it is. -/
def location? (validator : Validator) (shape : Shape) : Option SourceLocation :=
  match validator.binding with
  | none => some shape.location
  | some id => (shape.findTrait? id).map Trait.location

/-- The message for a match. -/
def message (validator : Validator) (model : Model) (found : Match) : String :=
  match validator.template with
  | none => "Selector capture matched selector: " ++ validator.selection.text
  | some template => template.render model (.ofMatch found)

/-- The event for a match, unless the model lacks its shape or the shape lacks the bound trait. -/
def event? (validator : Validator) (model : Model) (found : Match) : Option Event := do
  let shape ← model.find? found.shape
  let location ← validator.location? shape
  return ⟨validator.id, validator.severity, some found.shape, location,
    validator.message model found⟩

/-- Some shape of the model could be reported, so that the selector has to run. -/
def concerns (validator : Validator) (model : Model) : Bool :=
  match validator.binding with
  | none => true
  | some id => id ∈ model.appliedTraits

/-- The events for the matches, which are all collected first. -/
def validateCollected (validator : Validator) (model : Model) : List Event :=
  (validator.selection.select model).filterMap (validator.event? model)

/-- The events for the matches, each made as soon as its match is found. -/
def validateStreamed (validator : Validator) (model : Model) : List Event :=
  validator.selection.consume model
    (fun events found => events ++ (validator.event? model found).toList) []

/-- The events for a model, in the order of the matches. Messages of templates are made while the
selector runs. -/
def validate (validator : Validator) (model : Model) : List Event :=
  if validator.concerns model then
    match validator.template with
    | none => validator.validateCollected model
    | some _ => validator.validateStreamed model
  else []

end Validator

/-- The events of several validators, one validator after the other. -/
def Model.validate (model : Model) (validators : List Validator) : List Event :=
  validators.flatMap fun validator => validator.validate model

end ShapeRules
