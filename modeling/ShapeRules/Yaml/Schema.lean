import ShapeRules.Yaml.Node

/-!
What YAML nodes mean: the values of plain scalars, and the JSON value of a node.
-/

namespace ShapeRules.Yaml

namespace Plain

def nullWords : List String := ["null", "Null", "NULL", "~"]

/-- The plain scalars that mean null. -/
def nulls : List String := "" :: nullWords

def trues : List String := ["true", "True", "TRUE"]

def falses : List String := ["false", "False", "FALSE"]

/-- The plain scalars that mean an infinity or no number at all. -/
def nonfinite : List String :=
  [".inf", ".Inf", ".INF", "+.inf", "+.Inf", "+.INF", "-.inf", "-.Inf", "-.INF", ".nan", ".NaN",
    ".NAN"]

/-- The number that digits denote in a base. -/
def natural? (base : Nat) (text : List Char) : Option Nat :=
  if text = [] then none
  else
    text.foldlM (fun n c => do
      let digit ← Draft.hexValue? c
      if digit < base then some (base * n + digit) else none) 0

/-- The number that a text without a sign denotes. A decimal has no leading zeros. -/
def magnitude? : List Char → Option Nat
  | '0' :: 'x' :: digits => natural? 16 digits
  | '0' :: 'o' :: digits => natural? 8 digits
  | '0' :: 'b' :: digits => natural? 2 digits
  | '0' :: _ :: _ => none
  | digits => natural? 10 digits

/-- Whether a minus sign begins the text, and the text behind the sign. -/
def sign : List Char → Bool × List Char
  | '-' :: rest => (true, rest)
  | '+' :: rest => (false, rest)
  | rest => (false, rest)

def integer? (text : List Char) : Option Int :=
  let (negative, unsigned) := sign text
  (magnitude? unsigned).map fun n => if negative then -n else n

/-- The finite double nearest to the decimal that a text denotes. -/
def double? (text : List Char) : Option Binary64 := do
  let (negative, unsigned) := sign text
  let (whole, rest) := unsigned.span Char.isDigit
  let (fraction, rest) :=
    match rest with
    | '.' :: rest => rest.span Char.isDigit
    | rest => ([], rest)
  let (exponent, rest) ← Numeral.readExponent rest
  if rest ≠ [] ∨ whole ++ fraction = [] then none
  else
    let x ← Binary64.ofDecimal? (Numeral.valueOf (whole ++ fraction))
      (Numeral.power exponent - fraction.length)
    return if negative then x.negate else x

/-- The value of a text that denotes a double. One that is not finite becomes null. -/
def real? (text : String) : Option Json :=
  if text ∈ nonfinite then some .null
  else (double? text.toList).map fun x => .number (.double x)

/-- Digits with a zero before them. -/
def isPadded (text : List Char) : Bool :=
  let unsigned := (sign text).2
  unsigned.head? = some '0' && 1 < unsigned.length && unsigned.all Char.isDigit

/-- The value of a scalar that is neither a word nor an integer. Padded digits are a text. -/
def realOrText (text : String) : Json :=
  if isPadded text.toList then .string text else (real? text).getD (.string text)

def bool? (text : String) : Option Json :=
  if text ∈ trues then some (.bool true)
  else if text ∈ falses then some (.bool false)
  else none

/-- The value of an integer of 64 bits. -/
def short? (n : Int) : Option Json :=
  if Number.fits 64 n then some (.number (.integer n)) else none

/-- The value of a plain scalar. An integer of more than 64 bits has none, unless it exceeds 128
bits and so becomes a double. -/
def value? (text : String) : Option Json :=
  if text ∈ nulls then some .null
  else
    match bool? text, integer? text.toList with
    | some value, _ => some value
    | none, none => some (realOrText text)
    | none, some n => if Number.fits 128 n then short? n else some (realOrText text)

/-- The value of a text that a common tag says the kind of, as far as that has a value. -/
def tagged? (tag : Tag) (text : String) : Option Json :=
  if tag = .bool then bool? text
  else if tag = .int then integer? text.toList >>= short?
  else if tag = .float then real? text
  else if tag = .null then if text ∈ nullWords then some .null else none
  else some (.string text)

end Plain

namespace Properties

/-- What a tag of the document's own names. -/
def name? (properties : Properties) : Option String := properties.tag >>= Tag.name?

/-- The value of a scalar. A tag of the document's own that names no text counts as none here. -/
def scalarValue? (properties : Properties) (text : String) (isPlain : Bool) : Option Json :=
  match properties.tag with
  | none => if isPlain then Plain.value? text else some (.string text)
  | some tag =>
    if tag.name?.isSome then none
    else if tag.isLocal && isPlain then Plain.value? text
    else Plain.tagged? tag text

end Properties

/-- What is done with the nodes of a document: those with an anchor are at hand, and so many aliases
may still be followed. -/
abbrev Visit : Type → Type := ReaderT (List (Nat × Node)) (StateT Nat Option)

def Document.visit {α : Type} (document : Document) (visit : Node → Visit α) : Option α :=
  (visit document.root document.anchored document.jumps).map Prod.fst

namespace Node

/-- How many levels a document may nest. -/
def deepest : Nat := 128

/-- The node, or the one that it stands for. Where anchors share a number, the last one counts. -/
def follow : Node → Visit Node
  | .alias number => do
    let jumps ← get
    if jumps = 0 then failure
    set (jumps - 1)
    (← readThe (List (Nat × Node))).reverse.lookup number
  | node => return node

/-- The text of a scalar, whatever it means. -/
def text (node : Node) : Visit String := do
  match ← node.follow with
  | .scalar _ text _ => return text
  | _ => failure

/-- The JSON value of a node, by what gives the values of the nodes inside it. Without that it must
not be a collection. No value has a tag of the document's own. -/
def toJsonWith (inside : Option (Node → Visit Json)) (node : Node) : Visit Json := do
  match ← node.follow, inside with
  | .scalar properties text isPlain, _ => properties.scalarValue? text isPlain
  | .sequence properties items, some inside =>
    if properties.name?.isSome then failure else .array <$> items.mapM inside
  | .mapping properties entries, some inside =>
    if properties.name?.isSome then failure
    else
      Json.ofFields <$> entries.mapM fun (key, value) => do return (← key.text, ← inside value)
  | _, _ => failure

/-- The JSON value of a node that may nest some levels. -/
def toJson : Nat → Node → Visit Json
  | 0 => toJsonWith none
  | room + 1 => toJsonWith (some (toJson room))

/-- The node may be missing: it says that nothing is there. A tag that says so must be right. -/
def missing? : Node → Option Bool
  | .scalar properties text true =>
    if properties.tag = some .null then if text ∈ Plain.nullWords then some true else none
    else some (properties.tag = none ∧ text ∈ Plain.nulls)
  | _ => some false

/-- What a visit gives, or nothing if the node says that nothing is there. -/
def optional {α : Type} (visit : Node → Visit α) (node : Node) : Visit (Option α) := do
  let node ← node.follow
  if ← node.missing? then return none else some <$> visit node

/-- What a visit gives for each item. Where nothing is written there are no items. -/
def list {α : Type} (visit : Node → Visit α) (node : Node) : Visit (List α) := do
  match ← node.follow with
  | .sequence _ items => items.mapM visit
  | .scalar _ "" true => return []
  | _ => failure

/-- The fields of a record among known names, none of which may repeat. -/
def fields (known : List String) (node : Node) : Visit (List (String × Node)) := do
  let entries ←
    match ← node.follow with
    | .mapping _ entries => pure entries
    | .scalar _ "" true => pure []
    | _ => failure
  let fields ← entries.mapM fun (key, value) => do return (← key.text, value)
  let fields := fields.filter fun (name, _) => name ∈ known
  if (fields.map Prod.fst).Nodup then return fields else failure

/-- The name of one of several cases: what a tag of the document's own names, with nothing behind
it, or a text. -/
def caseName (node : Node) : Visit String := do
  match ← node.follow with
  | .scalar properties text isPlain =>
    match properties.name? with
    | none => return text
    | some name => if isPlain ∧ text ∈ Plain.nulls then return name else failure
  | _ => failure

def field? (fields : List (String × Node)) (name : String) : Option Node :=
  (Keyed.find? Prod.fst name fields).map Prod.snd

end Node

end ShapeRules.Yaml
