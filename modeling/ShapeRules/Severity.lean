import ShapeRules.Json.Decode

/-!
How severe a finding is.
-/

namespace ShapeRules

/-- The severities from the least to the greatest. -/
inductive Severity where
  | note
  | warning
  /-- A likely problem, which fails a run. -/
  | danger
  | error
  deriving DecidableEq, Repr

namespace Severity

def all : List Severity := [note, warning, danger, error]

def name : Severity → String
  | note => "NOTE"
  | warning => "WARNING"
  | danger => "DANGER"
  | error => "ERROR"

/-- The place of a severity in the order. -/
def rank : Severity → Nat
  | note => 0
  | warning => 1
  | danger => 2
  | error => 3

/-- A finding of this severity fails a run. -/
def isFailure (severity : Severity) : Bool :=
  danger.rank ≤ severity.rank

def ofName? (name : String) : Option Severity :=
  all.find? fun severity => severity.name = name

theorem ofName?_name (severity : Severity) : ofName? severity.name = some severity := by
  cases severity <;> decide

/-- The problem with a name that no severity has. -/
def unknownName (name : String) : Problem := .unknownName name (all.map Severity.name)

/-- Decodes a severity: its name, or a record with its name as the only field and no value. -/
def decoder : Decoder Severity := fun room draft =>
  match draft, room with
  | .string (some name) behind, _ =>
    match ofName? name with
    | some severity => .ok severity
    | none => .error ⟨unknownName name, behind⟩
  | .object _ ((some name, behind, value) :: others) _, _ + 1 =>
    match ofName? name, value with
    | none, _ => .error ⟨unknownName name, behind⟩
    | some severity, .null _ => if others.isEmpty then .ok severity else .error Draft.malformed
    | some _, other => .error (other.misfit "unit")
  | .null behind, _ => .error ⟨.notAName .null, behind⟩
  | .bool b behind, _ => .error ⟨.notAName (.bool b), behind⟩
  | .number (some n) behind, _ => .error ⟨.notAName (.number n), behind⟩
  | .array _ _ behind, _ => .error ⟨.notAName .sequence, behind⟩
  | _, _ => .error Draft.malformed

def ofJson (value : Json) : Except Problem Severity :=
  match value with
  | .object fields =>
    if fields.length = 1 then Json.decode decoder value
    else .error (.wrongValue .map "map with a single key")
  | value => Json.decode decoder value

end Severity

end ShapeRules
