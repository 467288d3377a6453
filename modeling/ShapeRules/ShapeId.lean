/-!
Shape ids: `namespace#Name` for a shape, `namespace#Name$member` for a member of one.
-/

namespace ShapeRules

/-- Text before and after the first occurrence of a character. -/
def splitFirst? (mark : Char) (text : List Char) : Option (List Char × List Char) :=
  match text.dropWhile (· ≠ mark) with
  | [] => none
  | _ :: rest => some (text.takeWhile (· ≠ mark), rest)

namespace ShapeId

/-- A letter or underscore, then letters, digits and underscores, all of them ASCII. -/
def isIdentifier (text : String) : Bool :=
  match text.toList with
  | [] => false
  | c :: rest => (c.isAlpha || c = '_') && rest.all fun c => c.isAlphanum || c = '_'

/-- The stretches of a text between dots. -/
def betweenDots : List Char → List (List Char)
  | [] => [[]]
  | c :: rest =>
    match betweenDots rest with
    | [] => [[c]]
    | first :: others => if c = '.' then [] :: first :: others else (c :: first) :: others

/-- Identifiers with dots between them. -/
def isNameSpace (text : String) : Bool :=
  (betweenDots text.toList).all fun part => isIdentifier (String.ofList part)

end ShapeId

/-- The id of a shape or a member. -/
structure ShapeId where
  nameSpace : String
  name : String
  member : Option String
  nameSpace_valid : ShapeId.isNameSpace nameSpace = true
  name_valid : ShapeId.isIdentifier name = true
  member_valid : ∀ text ∈ member, ShapeId.isIdentifier text = true
  deriving DecidableEq

/-- A text that is no shape id. -/
structure InvalidShapeId where
  text : String
  deriving DecidableEq, Repr

def InvalidShapeId.message (error : InvalidShapeId) : String :=
  "Invalid shape id '" ++ error.text ++ "'"

namespace ShapeId

def text (id : ShapeId) : String :=
  id.nameSpace ++ "#" ++ id.name ++
    match id.member with
    | none => ""
    | some member => "$" ++ member

instance : ToString ShapeId := ⟨text⟩

/-- The id of these parts, if they are well formed. -/
def ofParts? (nameSpace name : String) (member : Option String) : Option ShapeId :=
  if h : isNameSpace nameSpace = true ∧ isIdentifier name = true ∧
      ∀ text ∈ member, isIdentifier text = true then
    some ⟨nameSpace, name, member, h.1, h.2.1, h.2.2⟩
  else none

def parse? (text : String) : Option ShapeId := do
  let (nameSpace, rest) ← splitFirst? '#' text.toList
  let (name, member) :=
    match splitFirst? '$' rest with
    | none => (rest, none)
    | some (name, member) => (name, some member)
  ofParts? (String.ofList nameSpace) (String.ofList name) (member.map String.ofList)

def parse (text : String) : Except InvalidShapeId ShapeId :=
  match parse? text with
  | some id => .ok id
  | none => .error ⟨text⟩

/-- The namespace of the built-in traits. -/
def prelude : String := "smithy.api"

/-- The id that a text denotes; a text without a number sign is a name in `nameSpace`. -/
def parseRelative (nameSpace text : String) : Except InvalidShapeId ShapeId :=
  if '#' ∈ text.toList then parse text else parse (nameSpace ++ "#" ++ text)

def isMember (id : ShapeId) : Bool := id.member.isSome

/-- The id of a member of this shape. -/
def withMember (id : ShapeId) (member : String) : Except InvalidShapeId ShapeId :=
  if h : isIdentifier member = true then
    .ok { id with member := some member, member_valid := by simpa using h }
  else .error ⟨id.text ++ "$" ++ member⟩

/-- The id of the shape that holds the member, or the id itself. -/
def withoutMember (id : ShapeId) : ShapeId :=
  { id with member := none, member_valid := by simp }

/-- Ids are ordered by namespace, name and member, a shape before its members. -/
def le (a b : ShapeId) : Bool :=
  if a.nameSpace ≠ b.nameSpace then a.nameSpace < b.nameSpace
  else if a.name ≠ b.name then a.name < b.name
  else
    match a.member, b.member with
    | none, _ => true
    | some _, none => false
    | some m, some n => ¬ n < m

end ShapeId

end ShapeRules
