import ShapeRules.Files
import ShapeRules.Settings
import ShapeRules.Text.Space
import ShapeRules.Yaml.Schema

/-!
Configuration files: the definitions of validators, written in JSON or YAML, and the validators that
they define together.
-/

namespace ShapeRules

structure Configuration where
  version : String
  definitions : List Definition

/-- Why a configuration file gives no validators. -/
inductive ConfigurationError where
  | unreadable (error : FileError)
  /-- The file is not written as it should be. A JSON file also tells the reason. -/
  | undecodable (error : Option DecodingError)
  | missingVersion
  /-- The definition at some place is faulty. -/
  | misdefined (index : Nat) (name : String) (error : DefinitionError)
  deriving DecidableEq

namespace ConfigurationError

/-- A definition by its place, and by its name unless that is not what is wrong. -/
def place (index : Nat) (name : String) : DefinitionError → String
  | .duplicateId _ => s!"validators[{index}]"
  | _ => s!"validators[{index}] (" ++ name ++ ")"

/-- The error in a file and what caused it, outermost first. -/
def chain (path : String) : ConfigurationError → List String
  | unreadable error => ["Failed to read " ++ path, error.message]
  | undecodable error => ("Failed to parse " ++ path) :: (error.map DecodingError.message).toList
  | missingVersion => [path ++ ": missing configuration version"]
  | misdefined index name error => (path ++ ": " ++ place index name error) :: error.chain

end ConfigurationError

def Definition.ofNode (node : Yaml.Node) : Yaml.Visit Definition := do
  let fields ← node.fields format.fields
  let name ← (← Yaml.Node.field? fields "name").text
  let id ← (Yaml.Node.field? fields "id").mapM (Yaml.Node.optional Yaml.Node.text)
  let severity ← (Yaml.Node.field? fields "severity").mapM
    (Yaml.Node.optional fun node => do Severity.ofName? (← node.caseName))
  let configuration ← (Yaml.Node.field? fields "configuration").mapM
    (Yaml.Node.toJson (Yaml.Node.deepest - 3))
  return ⟨name, id.getD none, severity.getD none, configuration.getD .null⟩

namespace Configuration

def toJson (configuration : Configuration) : Json :=
  .object [
    ("version", .string configuration.version),
    ("validators", .array (configuration.definitions.map Definition.toJson))]

def format : RecordFormat := ⟨"ValidatorsConfig", ["version", "validators"], false⟩

structure Fields where
  version : Option String
  definitions : Option (List Definition)

def Fields.put (room : Nat) (name : String) (value : Draft) (fields : Fields) :
    Except Misfit Fields :=
  match name with
  | "version" => do return { fields with version := some (← Decoder.string room value) }
  | "validators" => do
    return { fields with definitions := some (← Decoder.list Definition.decoder room value) }
  | _ => .ok fields

def decoder : Decoder Configuration :=
  format.decoder ⟨none, none⟩ Fields.put fun style fields => do
    let version ← format.required style "version" fields.version
    return ⟨version, fields.definitions.getD []⟩

def ofNode (node : Yaml.Node) : Yaml.Visit Configuration := do
  let fields ← node.fields format.fields
  let version ← (← Yaml.Node.field? fields "version").text
  let definitions ← (Yaml.Node.field? fields "validators").mapM
    (Yaml.Node.list Definition.ofNode)
  return ⟨version, definitions.getD []⟩

/-- What the text of a YAML file holds, unless the text is faulty. -/
abbrev YamlDecoder : Type := String → Option Configuration

def ofYaml? : YamlDecoder := fun text => do (← Yaml.Document.parse? text).visit ofNode

/-- A file is written in JSON if its extension says so, and in YAML otherwise. -/
def isJson (path : String) : Bool :=
  (FileReader.extension? path).any fun extension =>
    extension.toList.map Char.toLower = ['j', 's', 'o', 'n']

/-- The configuration that the text of a file holds. -/
def parse (decode : YamlDecoder) (path text : String) : Except ConfigurationError Configuration :=
  if isJson path then
    (Json.decodeText decoder text).mapError fun error => .undecodable (some error)
  else
    match decode text with
    | some configuration => .ok configuration
    | none => .error (.undecodable none)

/-- The configuration of a file, which has to tell its version. -/
def loadWith (decode : YamlDecoder) (read : FileReader) (path : String) :
    Except ConfigurationError Configuration := do
  let text ← (read path).mapError .unreadable
  let configuration ← parse decode path text
  if Text.isBlank configuration.version then .error .missingVersion else .ok configuration

def load : FileReader → String → Except ConfigurationError Configuration := loadWith ofYaml?

/-- The validators of definitions that follow `index` others with some event ids. -/
def build (index : Nat) (known : List String) :
    List Definition → Except ConfigurationError (List Validator)
  | [] => .ok []
  | definition :: definitions => do
    let id := definition.eventId
    if id ∈ known then .error (.misdefined index definition.name (.duplicateId id))
    let validator ← definition.toValidator.mapError (.misdefined index definition.name)
    return validator :: (← build (index + 1) (id :: known) definitions)

/-- The validators that a configuration defines, each with a different id. -/
def validators (configuration : Configuration) : Except ConfigurationError (List Validator) :=
  build 0 [] configuration.definitions

/-- The file that is read unless another is given. -/
def defaultPath : String := "shape-lint.yaml"

/-- The file that the environment names, or else the usual one. -/
def pathFrom (environment : Option String) : String :=
  match environment with
  | none | some "" => defaultPath
  | some path => path

end Configuration

end ShapeRules
