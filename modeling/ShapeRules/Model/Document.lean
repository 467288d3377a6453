import ShapeRules.Files
import ShapeRules.Json.Decode
import ShapeRules.Model

/-!
Model documents: shapes with their members and traits under the texts of their ids, and the model
that a document declares.
-/

namespace ShapeRules

/-- The entry of a member. -/
structure MemberEntry where
  target : String
  traits : List (String × Json)

/-- The entry of a shape. Collections may give their members one by one. -/
structure ShapeEntry where
  kind : String
  members : List (String × MemberEntry)
  member : Option MemberEntry
  key : Option MemberEntry
  value : Option MemberEntry
  traits : List (String × Json)

/-- The entries of a document in order, each under a different key. -/
structure ModelDocument where
  shapes : List (String × ShapeEntry)

inductive ModelError where
  | unreadable (error : FileError)
  | undecodable (error : DecodingError)
  | invalidShapeId (error : InvalidShapeId)
  | unknownKind (name : String)
  | duplicateShape (error : DuplicateShape)
  deriving DecidableEq

namespace ModelError

def message : ModelError → String
  | unreadable error => "IO error: " ++ error.message
  | undecodable error => "JSON error: " ++ error.message
  | invalidShapeId error => error.message
  | unknownKind name => "Unknown shape type '" ++ name ++ "'"
  | duplicateShape error => error.message

/-- The error and what caused it, outermost first. -/
def chain (error : ModelError) : List String :=
  match error with
  | unreadable cause => [error.message, cause.message]
  | undecodable cause => [error.message, cause.message]
  | error => [error.message]

end ModelError

namespace MemberEntry

structure Fields where
  target : Option String
  traits : Option (List (String × Json))

def format : RecordFormat := ⟨"JsonMember", ["target", "traits"], false⟩

def Fields.put (room : Nat) (name : String) (value : Draft) (fields : Fields) :
    Except Misfit Fields :=
  match name with
  | "target" => do return { fields with target := some (← Decoder.string room value) }
  | "traits" => do return { fields with traits := some (← Decoder.entries Decoder.json room value) }
  | _ => .ok fields

def decoder : Decoder MemberEntry :=
  format.decoder ⟨none, none⟩ Fields.put fun style fields => do
    let target ← format.required style "target" fields.target
    return ⟨target, fields.traits.getD []⟩

end MemberEntry

namespace ShapeEntry

structure Fields where
  kind : Option String
  members : Option (List (String × MemberEntry))
  member : Option (Option MemberEntry)
  key : Option (Option MemberEntry)
  value : Option (Option MemberEntry)
  traits : Option (List (String × Json))

def format : RecordFormat :=
  ⟨"JsonShape", ["type", "members", "member", "key", "value", "traits"], false⟩

def Fields.put (room : Nat) (name : String) (draft : Draft) (fields : Fields) :
    Except Misfit Fields :=
  match name with
  | "type" => do return { fields with kind := some (← Decoder.string room draft) }
  | "members" => do
    return { fields with members := some (← Decoder.entries MemberEntry.decoder room draft) }
  | "member" => do
    return { fields with member := some (← Decoder.optional MemberEntry.decoder room draft) }
  | "key" => do
    return { fields with key := some (← Decoder.optional MemberEntry.decoder room draft) }
  | "value" => do
    return { fields with value := some (← Decoder.optional MemberEntry.decoder room draft) }
  | "traits" => do return { fields with traits := some (← Decoder.entries Decoder.json room draft) }
  | _ => .ok fields

def decoder : Decoder ShapeEntry :=
  format.decoder ⟨none, none, none, none, none, none⟩ Fields.put fun style fields => do
    let kind ← format.required style "type" fields.kind
    let member ← format.nullable style "member" fields.member
    let key ← format.nullable style "key" fields.key
    let value ← format.nullable style "value" fields.value
    return ⟨kind, fields.members.getD [], member, key, value, fields.traits.getD []⟩

/-- The members in the order of their declaration: those of the table, then the named ones. -/
def allMembers (entry : ShapeEntry) : List (String × MemberEntry) :=
  entry.members ++
    [("member", entry.member), ("key", entry.key), ("value", entry.value)].filterMap
      fun (name, member) => member.map fun member => (name, member)

end ShapeEntry

namespace ModelDocument

def format : RecordFormat := ⟨"JsonModel", ["shapes"], false⟩

def decoder : Decoder ModelDocument :=
  format.decoder none
    (fun room _ draft _ => do return some (← Decoder.entries ShapeEntry.decoder room draft))
    fun _ shapes => .ok ⟨shapes.getD []⟩

/-- Applies traits, declared where the shape is. A relative id names a built-in trait. -/
def applyTraits (shape : Shape) (traits : List (String × Json)) : Except ModelError Shape :=
  traits.foldlM (fun shape (name, node) => do
    let id ← (ShapeId.parseRelative ShapeId.prelude name).mapError .invalidShapeId
    return shape.putTrait ⟨id, node, shape.location⟩) shape

def memberShape (container : ShapeId) (location : SourceLocation) (name : String)
    (entry : MemberEntry) : Except ModelError Shape := do
  let id ← (container.withMember name).mapError .invalidShapeId
  let target ← (ShapeId.parse entry.target).mapError .invalidShapeId
  applyTraits { Shape.bare id .member with target := some target, location } entry.traits

def shape (location : SourceLocation) (id : ShapeId) (entry : ShapeEntry) :
    Except ModelError Shape := do
  let some kind := Kind.ofName? entry.kind | throw (.unknownKind entry.kind)
  let shape ← applyTraits { Shape.bare id kind with location } entry.traits
  entry.allMembers.foldlM (fun shape (name, member) => do
    return shape.putMember (← memberShape id location name member)) shape

def toModel (document : ModelDocument) (filename : String) : Except ModelError Model := do
  let shapes ← document.shapes.mapM fun (text, entry) => do
    let id ← (ShapeId.parse text).mapError .invalidShapeId
    shape ⟨filename, 0, 0⟩ id entry
  (Model.ofShapes shapes).mapError .duplicateShape

end ModelDocument

namespace Model

/-- The model that the text of a document declares. All of it is located at the file. -/
def parse (text filename : String) : Except ModelError Model := do
  let document ← (Json.decodeText ModelDocument.decoder text).mapError .undecodable
  document.toModel filename

/-- The model of a file, given what reading it gave. -/
def load (content : Except FileError String) (filename : String) : Except ModelError Model :=
  match content with
  | .error error => .error (.unreadable error)
  | .ok text => parse text filename

end Model

end ShapeRules
