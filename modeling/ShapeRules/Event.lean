import ShapeRules.Severity
import ShapeRules.Shape

/-!
Events: what validators report about a model, and the JSON form of them.
-/

namespace ShapeRules

def ShapeId.decoder : Decoder ShapeId := Decoder.parsed parse InvalidShapeId.message

namespace SourceLocation

def toJson (location : SourceLocation) : Json :=
  .object [
    ("filename", .string location.filename),
    ("line", .number (.integer location.line.toNat)),
    ("column", .number (.integer location.column.toNat))]

def format : RecordFormat := ⟨"SourceLocation", ["filename", "line", "column"], false⟩

structure Fields where
  filename : Option String
  line : Option UInt32
  column : Option UInt32

def Fields.put (room : Nat) (name : String) (value : Draft) (fields : Fields) :
    Except Misfit Fields :=
  match name with
  | "filename" => do return { fields with filename := some (← Decoder.string room value) }
  | "line" => do return { fields with line := some (← Decoder.word room value) }
  | "column" => do return { fields with column := some (← Decoder.word room value) }
  | _ => .ok fields

def decoder : Decoder SourceLocation :=
  format.decoder ⟨none, none, none⟩ Fields.put fun style fields => do
    let filename ← format.required style "filename" fields.filename
    let line ← format.required style "line" fields.line
    let column ← format.required style "column" fields.column
    return ⟨filename, line, column⟩

end SourceLocation

/-- A finding of a validator. -/
structure Event where
  id : String
  severity : Severity
  /-- The shape that the event is about, if any. -/
  shape : Option ShapeId
  location : SourceLocation
  message : String
  deriving DecidableEq

namespace Event

def text (event : Event) : String :=
  let shape :=
    match event.shape with
    | some id => id.text
    | none => "-"
  "[" ++ event.severity.name ++ "] " ++ shape ++ ": " ++ event.message ++ " | " ++ event.id ++
    " " ++ event.location.text

def toJson (event : Event) : Json :=
  let shape :=
    match event.shape with
    | some id => [("shapeId", Json.string id.text)]
    | none => []
  .object ([("id", .string event.id), ("severity", .string event.severity.name)] ++ shape ++
    [("sourceLocation", event.location.toJson), ("message", .string event.message)])

def format : RecordFormat :=
  ⟨"ValidationEvent", ["id", "severity", "shapeId", "sourceLocation", "message"], false⟩

structure Fields where
  id : Option String
  severity : Option Severity
  shape : Option (Option ShapeId)
  location : Option SourceLocation
  message : Option String

def Fields.put (room : Nat) (name : String) (value : Draft) (fields : Fields) :
    Except Misfit Fields :=
  match name with
  | "id" => do return { fields with id := some (← Decoder.string room value) }
  | "severity" => do return { fields with severity := some (← Severity.decoder room value) }
  | "shapeId" => do
    return { fields with shape := some (← Decoder.optional ShapeId.decoder room value) }
  | "sourceLocation" => do
    return { fields with location := some (← SourceLocation.decoder room value) }
  | "message" => do return { fields with message := some (← Decoder.string room value) }
  | _ => .ok fields

def decoder : Decoder Event :=
  format.decoder ⟨none, none, none, none, none⟩ Fields.put fun style fields => do
    let id ← format.required style "id" fields.id
    let severity ← format.required style "severity" fields.severity
    let shape ← format.nullable style "shapeId" fields.shape
    let location ← format.required style "sourceLocation" fields.location
    let message ← format.required style "message" fields.message
    return ⟨id, severity, shape, location, message⟩

def parse (text : String) : Except DecodingError Event := Json.decodeText decoder text

end Event

end ShapeRules
