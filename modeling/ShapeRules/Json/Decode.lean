import ShapeRules.Json.Draft
import ShapeRules.Json.Text
import ShapeRules.Text.Quoted

/-!
Decoding: from a draft to a value of a type. The first problem in the order of the text is the one
reported.
-/

namespace ShapeRules

/-- What stands in a document where something else was wanted. -/
inductive Found where
  | null
  | bool (b : Bool)
  | number (n : Number)
  | string (s : String)
  | sequence
  | map
  deriving DecidableEq, Repr

inductive Problem where
  /-- The text is no document, or nested too deeply. -/
  | malformed
  | wrongType (found : Found) (wanted : String)
  | wrongValue (found : Found) (wanted : String)
  | wrongLength (length : Nat) (wanted : String)
  | missingField (name : String)
  | duplicateField (name : String)
  | unknownField (name : String) (known : List String)
  | unknownName (name : String) (known : List String)
  /-- A list that goes on behind the last field of a record. -/
  | surplus (length : Nat)
  /-- Something other than a string or a record of one field in the place of a name. -/
  | notAName (found : Found)
  /-- A text that its type does not admit. -/
  | rejected (message : String)
  deriving DecidableEq, Repr

namespace Found

def description : Found → String
  | null => "null"
  | bool b => "boolean \x60" ++ (if b then "true" else "false") ++ "\x60"
  | number (.integer n) => "integer \x60" ++ String.ofList (Number.integer n).text ++ "\x60"
  | number (.double x) => "floating point \x60" ++ String.ofList x.text ++ "\x60"
  | string s => "string " ++ Text.quote s
  | sequence => "sequence"
  | map => "map"

end Found

namespace Problem

private def quoted (name : String) : String := "\x60" ++ name ++ "\x60"

private def oneOf (known : List String) : String :=
  ", expected one of " ++ ", ".intercalate (known.map quoted)

def message : Problem → String
  | malformed => "malformed document"
  | wrongType found wanted => "invalid type: " ++ found.description ++ ", expected " ++ wanted
  | wrongValue found wanted => "invalid value: " ++ found.description ++ ", expected " ++ wanted
  | wrongLength length wanted => s!"invalid length {length}, expected " ++ wanted
  | missingField name => "missing field " ++ quoted name
  | duplicateField name => "duplicate field " ++ quoted name
  | unknownField name known => "unknown field " ++ quoted name ++ oneOf known
  | unknownName name known => "unknown variant " ++ quoted name ++ oneOf known
  | surplus length => s!"invalid length {length}, expected fewer elements in array"
  | notAName found => "invalid type: " ++ found.description ++ ", expected string or map"
  | rejected message => message

/-- In the text of a document these problems count as faults of the text. -/
def isMalformed : Problem → Bool
  | malformed | surplus _ | notAName _ => true
  | _ => false

end Problem

/-- A problem and the text that was not read when it was found. -/
structure Misfit where
  problem : Problem
  unread : List Char

/-- Decodes a draft, given how many levels it may nest. -/
abbrev Decoder (α : Type) : Type := Nat → Draft → Except Misfit α

namespace Draft

/-- How many levels a document may nest. -/
def deepest : Nat := 127

/-- The text ends the decoding here. -/
def malformed : Misfit := ⟨.malformed, []⟩

/-- The problem that something else was wanted here. A list or an object shows by its first
character what it is. -/
def misfit (draft : Draft) (wanted : String) : Misfit :=
  match draft with
  | .null behind => ⟨.wrongType .null wanted, behind⟩
  | .bool b behind => ⟨.wrongType (.bool b) wanted, behind⟩
  | .number (some n) behind => ⟨.wrongType (.number n) wanted, behind⟩
  | .string (some s) behind => ⟨.wrongType (.string s) wanted, behind⟩
  | .array opening _ _ => ⟨.wrongType .sequence wanted, opening⟩
  | .object opening _ _ => ⟨.wrongType .map wanted, opening⟩
  | .number none _ | .string none _ | .broken => malformed

/-- Passes over a value whatever it is. -/
def skip (draft : Draft) : Except Misfit PUnit :=
  if draft.isWhole then .ok () else .error malformed

end Draft

namespace Decoder

def string : Decoder String := fun _ draft =>
  match draft with
  | .string (some s) _ => .ok s
  | other => .error (other.misfit "a string")

/-- A text with a grammar of its own. -/
def parsed {α ε : Type} (parse : String → Except ε α) (message : ε → String) : Decoder α :=
  fun room draft => do
    let text ← Decoder.string room draft
    (parse text).mapError fun e => ⟨.rejected (message e), draft.behind⟩

/-- An unsigned integer of 32 bits. -/
def word : Decoder UInt32 := fun _ draft =>
  match draft with
  | .number (some (.integer n)) behind =>
    if 0 ≤ n ∧ n < UInt32.size then .ok (UInt32.ofNat n.toNat)
    else .error ⟨.wrongValue (.number (.integer n)) "u32", behind⟩
  | other => .error (other.misfit "u32")

/-- A value that may be null. -/
def optional {α : Type} (decoder : Decoder α) : Decoder (Option α) := fun room draft =>
  match draft with
  | .null _ => .ok none
  | draft => some <$> decoder room draft

def list {α : Type} (decoder : Decoder α) : Decoder (List α) := fun room draft =>
  match draft, room with
  | .array .., 0 => .error Draft.malformed
  | .array _ items _, room + 1 => items.mapM (decoder room)
  | other, _ => .error (other.misfit "a sequence")

/-- Entries under free keys. A repeated key keeps its first place and its last value. -/
def entries {α : Type} (decoder : Decoder α) : Decoder (List (String × α)) := fun room draft =>
  match draft, room with
  | .object .., 0 => .error Draft.malformed
  | .object _ fields _, room + 1 =>
    fields.foldlM (fun known (key, _, value) =>
      match key with
      | none => .error Draft.malformed
      | some key => do return Keyed.put Prod.fst (key, ← decoder room value) known) []
  | other, _ => .error (other.misfit "a map")

mutual
/-- Any value at all. -/
def json (room : Nat) (draft : Draft) : Except Misfit Json :=
  match draft, room with
  | .null _, _ => .ok .null
  | .bool b _, _ => .ok (.bool b)
  | .number (some n) _, _ => .ok (.number n)
  | .string (some s) _, _ => .ok (.string s)
  | .array _ items _, room + 1 => .array <$> jsonItems room items
  | .object _ fields _, room + 1 => .object <$> jsonFields room [] fields
  | _, _ => .error Draft.malformed
def jsonItems (room : Nat) : List Draft → Except Misfit (List Json)
  | [] => .ok []
  | item :: items => do
    let value ← json room item
    return value :: (← jsonItems room items)
/-- The fields of an object behind those already known. -/
def jsonFields (room : Nat) (known : List (String × Json)) :
    List (Option String × List Char × Draft) → Except Misfit (List (String × Json))
  | [] => .ok known
  | (none, _, _) :: _ => .error Draft.malformed
  | (some key, _, field) :: fields => do
    let value ← json room field
    jsonFields room (Keyed.put Prod.fst (key, value) known) fields
end

end Decoder

/-- The names of a record and its fields. A closed record admits no other fields. -/
structure RecordFormat where
  name : String
  fields : List String
  isClosed : Bool

namespace RecordFormat

private def wanted (format : RecordFormat) : String := "struct " ++ format.name

/-- Records are written with the names of their fields, or as the list of their values. -/
inductive Style where
  | named
  | positional
  deriving DecidableEq, Repr

/-- The problem with a field that is not given. -/
def absent (format : RecordFormat) (style : Style) (field : String) : Problem :=
  match style with
  | .named => .missingField field
  | .positional =>
    .wrongLength (format.fields.idxOf field)
      (format.wanted ++ s!" with {format.fields.length} elements")

/-- A field that must be given. -/
def required {α : Type} (format : RecordFormat) (style : Style) (field : String) :
    Option α → Except Problem α
  | some value => .ok value
  | none => .error (format.absent style field)

/-- A field that must be given in a list only. -/
def nullable {α : Type} (format : RecordFormat) (style : Style) (field : String) :
    Option (Option α) → Except Problem (Option α)
  | some value => .ok value
  | none =>
    match style with
    | .named => .ok none
    | .positional => .error (format.absent style field)

/-- Takes in the fields one after the other. -/
def gather {α : Type} (format : RecordFormat) (put : String → Draft → α → Except Misfit α) :
    List String → α → List (Option String × List Char × Draft) → Except Misfit α
  | _, known, [] => .ok known
  | _, _, (none, _, _) :: _ => .error Draft.malformed
  | seen, known, (some key, behind, value) :: fields =>
    if key ∈ format.fields then
      if key ∈ seen then .error ⟨.duplicateField key, Draft.leave behind⟩
      else do format.gather put (key :: seen) (← put key value known) fields
    else if format.isClosed then .error ⟨.unknownField key format.fields, Draft.leave behind⟩
    else do
      value.skip
      format.gather put seen known fields

/-- Decodes a record: `put` takes in a field, `finish` makes the value of the fields given. -/
def decoder {α β : Type} (format : RecordFormat) (empty : α)
    (put : Nat → String → Draft → α → Except Misfit α)
    (finish : Style → α → Except Problem β) : Decoder β := fun room draft =>
  match draft, room with
  | .object .., 0 | .array .., 0 => .error Draft.malformed
  | .object _ fields behind, room + 1 => do
    let known ← format.gather (put room) [] empty fields
    (finish .named known).mapError (⟨·, behind⟩)
  | .array _ items behind, room + 1 => do
    let fields := (format.fields.zip items).map fun (name, item) => (some name, [], item)
    let known ← format.gather (put room) [] empty fields
    let value ← (finish .positional known).mapError (⟨·, behind⟩)
    if format.fields.length < items.length then .error ⟨.surplus items.length, behind⟩
    else .ok value
  | other, _ => .error (other.misfit format.wanted)

end RecordFormat

/-- A problem and how far the text was read when it was found. -/
structure DecodingError where
  problem : Problem
  line : Nat
  /-- The number of bytes read of the last line. -/
  column : Nat
  deriving DecidableEq, Repr

namespace DecodingError

/-- The error in a text of which some is not read. -/
def ofMisfit (text : List Char) (misfit : Misfit) : DecodingError :=
  let read := text.take (text.length - misfit.unread.length)
  let lastLine := read.reverse.takeWhile (· != '\n')
  ⟨misfit.problem, read.count '\n' + 1, (String.ofList lastLine).utf8ByteSize⟩

def message (error : DecodingError) : String :=
  error.problem.message ++ s!" at line {error.line} column {error.column}"

end DecodingError

namespace Json

def decodeText {α : Type} (decoder : Decoder α) (text : String) : Except DecodingError α :=
  let (draft, isEnd) := Draft.read text.toList
  match decoder Draft.deepest draft with
  | .error misfit => .error (.ofMisfit text.toList misfit)
  | .ok value => if isEnd then .ok value else .error (.ofMisfit text.toList Draft.malformed)

def decode {α : Type} (decoder : Decoder α) (value : Json) : Except Problem α :=
  (decoder Draft.deepest (Draft.ofJson value)).mapError Misfit.problem

def parse (text : String) : Except DecodingError Json := decodeText Decoder.json text

end Json

end ShapeRules
