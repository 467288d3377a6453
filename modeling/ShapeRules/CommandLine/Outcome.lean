import ShapeRules.CommandLine.Help
import ShapeRules.Configuration
import ShapeRules.Model.Document

/-!
What a run of the command line writes, and the code it ends with.
-/

namespace ShapeRules.CommandLine

/-- What is written to the two outputs, and the code. -/
structure Outcome where
  code : UInt32
  output : String
  errors : String
  deriving DecidableEq, Repr

/-- An error as what happened and what caused it, outermost first. -/
abbrev Chain : Type := List String

/-- The outcome of arguments that are not used properly. -/
def Outcome.misuse : Outcome := ⟨2, "", "error: the arguments are not understood\n"⟩

/-- The outcome of a run that wrote some text and came to a verdict. -/
def Outcome.done (passed : Bool) (text : String) : Outcome :=
  ⟨if passed then 0 else 1, text ++ "\n", ""⟩

def Outcome.failed (format : OutputFormat) (chain : Chain) : Outcome :=
  let text := ": ".intercalate chain
  match format with
  | .text => ⟨1, "", "error: " ++ text ++ "\n"⟩
  | .json => .done false (Json.object [("error", .string text)]).compact

def loadModel (read : FileReader) (path : String) : Except Chain Model :=
  (Model.load (read path) path).mapError fun error =>
    ("Failed to load model '" ++ path ++ "'") :: error.chain

/-- The id of the shape that an option names. -/
def parseShape (text : String) : Except Chain ShapeId :=
  (ShapeId.parse text).mapError fun error =>
    ["Invalid --shape '" ++ text ++ "'", error.message]

def loadValidators (decode : Configuration.YamlDecoder) (read : FileReader) (path : String) :
    Except Chain (List Validator) := do
  let configuration ←
    (Configuration.loadWith decode read path).mapError (ConfigurationError.chain path)
  configuration.validators.mapError (ConfigurationError.chain path)

/-- The findings on a model. -/
structure Report where
  shapes : Nat
  validators : Nat
  events : List Event

namespace Report

/-- No event is a failure. -/
def passed (report : Report) : Bool := !report.events.any fun event => event.severity.isFailure

def summary (report : Report) : String :=
  let events := report.events.length
  let validators := report.validators
  let shapes := report.shapes
  (if report.passed then "OK " else "FAILED ") ++
    s!"{events} event(s) from {validators} validator(s) over {shapes} shape(s)"

def text (report : Report) : String :=
  "\n".intercalate (report.events.map Event.text ++ [report.summary])

def toJson (report : Report) : Json :=
  .object [
    ("valid", .bool report.passed),
    ("validators", .number (.integer report.validators)),
    ("events", .array (report.events.map Event.toJson))]

end Report

/-- The text of a preview, whose input has a name. -/
def previewText (format : OutputFormat) (shape : ShapeId) (name input result : String) : String :=
  match format with
  | .text => result
  | .json =>
    (Json.object [
      ("shape", .string shape.text), (name, .string input), ("result", .string result)]).compact

/-- Carries out a command: whether it found no failure, and what it writes. -/
def Command.perform (decode : Configuration.YamlDecoder) (read : FileReader)
    (environment : Option String) (format : OutputFormat) :
    Command → Except Chain (Bool × String)
  | .validate model configuration => do
    let model ← loadModel read model
    let validators ←
      loadValidators decode read (configuration.getD (Configuration.pathFrom environment))
    let report : Report := ⟨model.shapes.length, validators.length, model.validate validators⟩
    return (report.passed,
      match format with
      | .text => report.text
      | .json => report.toJson.pretty)
  | .render model shape template => do
    let model ← loadModel read model
    let id ← parseShape shape
    let result ← (model.previewTemplate id template).mapError PreviewError.chain
    return (true, previewText format id "template" template result)
  | .evaluate model shape path => do
    let model ← loadModel read model
    let id ← parseShape shape
    let result ← (model.previewPath id path).mapError PreviewError.chain
    return (true, previewText format id "path" path result)

/-- The files that a request may read. -/
def Request.paths (environment : Option String) : Request → List String
  | .version | .help _ => []
  | .run (.validate model configuration) _ =>
    [model, configuration.getD (Configuration.pathFrom environment)]
  | .run (.render model _ _) _ => [model]
  | .run (.evaluate model _ _) _ => [model]

def Request.answer (decode : Configuration.YamlDecoder) (read : FileReader)
    (environment : Option String) : Request → Outcome
  | .version => ⟨0, "shape_lint 0.1.0\n", ""⟩
  | .help topic => ⟨0, topic.text, ""⟩
  | .run command format =>
    match command.perform decode read environment format with
    | .ok (passed, text) => .done passed text
    | .error chain => .failed format chain

/-- The outcome of arguments where YAML files are decoded in some way. -/
def answerWith (decode : Configuration.YamlDecoder) (read : FileReader)
    (environment : Option String) (arguments : List String) : Outcome :=
  match Request.read arguments with
  | none => .misuse
  | some request => request.answer decode read environment

def answer : FileReader → Option String → List String → Outcome := answerWith Configuration.ofYaml?

end ShapeRules.CommandLine
