import ShapeRules.Validator

/-!
Definitions of validators: their names, their settings and the validators made of them.
-/

namespace ShapeRules

def KindSelector.decoder : Decoder KindSelector := Decoder.parsed parse InvalidSelector.message

def Template.decoder : Decoder Template := Decoder.parsed parse SyntaxError.message

/-- A text or null. -/
def Json.ofOption : Option String → Json
  | some text => .string text
  | none => .null

structure Settings where
  selector : KindSelector
  binding : Option ShapeId
  template : Option Template

namespace Settings

def toJson (settings : Settings) : Json :=
  .object [
    ("selector", .string settings.selector.text),
    ("bindToTrait", .ofOption (settings.binding.map ShapeId.text)),
    ("messageTemplate", .ofOption (settings.template.map Template.source))]

/-- No other fields are admitted, so that a misspelt one is not overlooked. -/
def format : RecordFormat :=
  ⟨"EmitEachSelectorConfig", ["selector", "bindToTrait", "messageTemplate"], true⟩

structure Fields where
  selector : Option KindSelector
  binding : Option (Option ShapeId)
  template : Option (Option Template)

def Fields.put (room : Nat) (name : String) (value : Draft) (fields : Fields) :
    Except Misfit Fields :=
  match name with
  | "selector" => do return { fields with selector := some (← KindSelector.decoder room value) }
  | "bindToTrait" => do
    return { fields with binding := some (← Decoder.optional ShapeId.decoder room value) }
  | "messageTemplate" => do
    return { fields with template := some (← Decoder.optional Template.decoder room value) }
  | _ => .ok fields

def decoder : Decoder Settings :=
  format.decoder ⟨none, none, none⟩ Fields.put fun style fields => do
    let selector ← format.required style "selector" fields.selector
    return ⟨selector, fields.binding.getD none, fields.template.getD none⟩

def parse (text : String) : Except DecodingError Settings := Json.decodeText decoder text

def ofJson (value : Json) : Except Problem Settings := Json.decode decoder value

end Settings

/-- A validator as a configuration defines it. -/
structure Definition where
  /-- The name of the kind of validator. -/
  name : String
  id : Option String
  severity : Option Severity
  /-- The settings, which the kind of validator decodes. -/
  configuration : Json

inductive DefinitionError where
  | unknownValidator (name : String)
  | invalidSettings (name : String) (problem : Problem)
  | duplicateId (id : String)
  deriving DecidableEq

namespace DefinitionError

def message : DefinitionError → String
  | unknownValidator name =>
    "Unknown validator '" ++ name ++ "', expected one of: " ++ Validator.name
  | invalidSettings name problem =>
    "Invalid configuration for validator '" ++ name ++ "': " ++ problem.message
  | duplicateId id => "Duplicate validator id '" ++ id ++ "'"

/-- The error and what caused it, outermost first. -/
def chain (error : DefinitionError) : List String :=
  match error with
  | invalidSettings _ problem => [error.message, problem.message]
  | error => [error.message]

end DefinitionError

namespace Definition

/-- The id of the validator's events. -/
def eventId (definition : Definition) : String := definition.id.getD definition.name

def toJson (definition : Definition) : Json :=
  .object [
    ("name", .string definition.name),
    ("id", .ofOption definition.id),
    ("severity", .ofOption (definition.severity.map Severity.name)),
    ("configuration", definition.configuration)]

def format : RecordFormat :=
  ⟨"ValidatorDefinition", ["name", "id", "severity", "configuration"], false⟩

structure Fields where
  name : Option String
  id : Option (Option String)
  severity : Option (Option Severity)
  configuration : Option Json

def Fields.put (room : Nat) (field : String) (value : Draft) (fields : Fields) :
    Except Misfit Fields :=
  match field with
  | "name" => do return { fields with name := some (← Decoder.string room value) }
  | "id" => do return { fields with id := some (← Decoder.optional Decoder.string room value) }
  | "severity" => do
    return { fields with severity := some (← Decoder.optional Severity.decoder room value) }
  | "configuration" => do return { fields with configuration := some (← Decoder.json room value) }
  | _ => .ok fields

def decoder : Decoder Definition :=
  format.decoder ⟨none, none, none, none⟩ Fields.put fun style fields => do
    let name ← format.required style "name" fields.name
    return ⟨name, fields.id.getD none, fields.severity.getD none,
      fields.configuration.getD .null⟩

def parse (text : String) : Except DecodingError Definition := Json.decodeText decoder text

def toValidator (definition : Definition) : Except DefinitionError Validator :=
  if definition.name = Validator.name then
    match Settings.ofJson definition.configuration with
    | .error problem => .error (.invalidSettings definition.name problem)
    | .ok settings =>
      .ok {
        id := definition.eventId
        severity := definition.severity.getD .danger
        selection := settings.selector.selection
        binding := settings.binding
        template := settings.template }
  else .error (.unknownValidator definition.name)

end Definition

end ShapeRules
