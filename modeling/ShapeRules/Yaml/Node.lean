import ShapeRules.Yaml.Token

/-!
YAML nodes: the tree that the tokens of one document spell.
-/

namespace ShapeRules.Yaml

/-- What stands before a node: its anchor, by its number, and its tag. -/
structure Properties where
  anchor : Option Nat
  tag : Option Tag
  deriving DecidableEq, Repr

inductive Node where
  /-- What stands in the place of the node with an anchor. -/
  | alias (anchor : Nat)
  | scalar (properties : Properties) (text : String) (isPlain : Bool)
  | sequence (properties : Properties) (items : List Node)
  | mapping (properties : Properties) (entries : List (Node × Node))
  deriving Repr

/-- The properties at the beginning of tokens, one of each kind at most. -/
def Properties.read : List Token → Properties × List Token
  | .anchor number :: .tag tag :: rest => (⟨some number, some tag⟩, rest)
  | .tag tag :: .anchor number :: rest => (⟨some number, some tag⟩, rest)
  | .anchor number :: rest => (⟨some number, none⟩, rest)
  | .tag tag :: rest => (⟨none, some tag⟩, rest)
  | rest => (⟨none, none⟩, rest)

/-- The properties of a scalar that is written out. A mark alone is no tag of it. -/
def Properties.ofScalar (properties : Properties) : Properties :=
  { properties with tag := properties.tag.filter (· ≠ .ofText "!") }

namespace Node

/-- The node that stands where nothing is written. -/
def nothing : Node := .scalar ⟨none, none⟩ "" true

/-- The collection of the parts that were read. -/
def collect {α : Type} (make : List α → Node) :
    Option (List α × List Token) → Option (Node × List Token) :=
  Option.map fun (parts, rest) => (make parts, rest)

mutual
/-- Reads a node. In the place of a mapping's key or value, items at the mapping's own column form a
sequence. -/
def read (inMapping : Bool) : Nat → List Token → Option (Node × List Token)
  | 0, _ => none
  | _ + 1, .alias number :: rest => some (.alias number, rest)
  | fuel + 1, tokens =>
    let (properties, content) := Properties.read tokens
    match content, inMapping with
    | .scalar text isPlain :: rest, _ => some (.scalar properties.ofScalar text isPlain, rest)
    | .entry :: _, true => collect (sequence properties) (readLooseItems fuel [] content)
    | .blockSequence :: rest, _ => collect (sequence properties) (readItems fuel [] rest)
    | .blockMapping :: rest, _ => collect (mapping properties) (readEntries fuel [] rest)
    | .flowSequence :: rest, _ => collect (sequence properties) (readFlowItems fuel [] rest)
    | .flowMapping :: rest, _ => collect (mapping properties) (readFlowEntries fuel [] rest)
    | rest, _ =>
      -- Properties may stand alone.
      if properties = ⟨none, none⟩ then none else some (.scalar properties "" true, rest)
/-- Reads the items of a block sequence. -/
def readItems : Nat → List Node → List Token → Option (List Node × List Token)
  | 0, _, _ => none
  | fuel + 1, items, tokens =>
    match tokens with
    | .blockEnd :: rest => some (items.reverse, rest)
    | .entry :: rest =>
      match rest with
      | .entry :: _ | .blockEnd :: _ => readItems fuel (nothing :: items) rest
      | _ => do
        let (item, rest) ← read false fuel rest
        readItems fuel (item :: items) rest
    | _ => none
/-- Reads items that no block of their own encloses. -/
def readLooseItems : Nat → List Node → List Token → Option (List Node × List Token)
  | 0, _, _ => none
  | fuel + 1, items, tokens =>
    match tokens with
    | .entry :: rest =>
      match rest with
      | .entry :: _ | .key :: _ | .value :: _ | .blockEnd :: _ =>
        readLooseItems fuel (nothing :: items) rest
      | _ => do
        let (item, rest) ← read false fuel rest
        readLooseItems fuel (item :: items) rest
    | _ => some (items.reverse, tokens)
/-- Reads the entries of a block mapping. -/
def readEntries :
    Nat → List (Node × Node) → List Token → Option (List (Node × Node) × List Token)
  | 0, _, _ => none
  | fuel + 1, entries, tokens =>
    match tokens with
    | .blockEnd :: rest => some (entries.reverse, rest)
    | .key :: rest => do
      let (key, rest) ← readBlockPart fuel rest
      let (value, rest) ←
        match rest with
        | .value :: rest => readBlockPart fuel rest
        | _ => some (nothing, rest)
      readEntries fuel ((key, value) :: entries) rest
    | _ => none
/-- Reads a key or a value of a block mapping. -/
def readBlockPart : Nat → List Token → Option (Node × List Token)
  | 0, _ => none
  | fuel + 1, tokens =>
    match tokens with
    | .key :: _ | .value :: _ | .blockEnd :: _ => some (nothing, tokens)
    | _ => read true fuel tokens
/-- Reads the items of a flow sequence. An item with a key is a mapping of one entry. -/
def readFlowItems : Nat → List Node → List Token → Option (List Node × List Token)
  | 0, _, _ => none
  | fuel + 1, items, tokens =>
    match tokens with
    | .flowSequenceEnd :: rest => some (items.reverse, rest)
    | _ => do
      let (item, rest) ←
        match tokens with
        | .key :: rest => do
          let (entry, rest) ← readLoneEntry fuel rest
          some (.mapping ⟨none, none⟩ [entry], rest)
        | _ => read false fuel tokens
      match rest with
      | .comma :: rest => readFlowItems fuel (item :: items) rest
      | .flowSequenceEnd :: _ => readFlowItems fuel (item :: items) rest
      | _ => none
/-- Reads an entry that is an item of a flow sequence, behind the mark of its key. The token that
stands in the place of an empty key is lost. -/
def readLoneEntry : Nat → List Token → Option ((Node × Node) × List Token)
  | 0, _ => none
  | fuel + 1, tokens => do
    let (key, rest) ←
      match tokens with
      | .value :: rest | .comma :: rest | .flowSequenceEnd :: rest => some (nothing, rest)
      | _ => read false fuel tokens
    match rest with
    | .value :: rest => do
      let (value, rest) ← readFlowPart fuel rest
      some ((key, value), rest)
    | _ => some ((key, nothing), rest)
/-- Reads the entries of a flow mapping. -/
def readFlowEntries :
    Nat → List (Node × Node) → List Token → Option (List (Node × Node) × List Token)
  | 0, _, _ => none
  | fuel + 1, entries, tokens =>
    match tokens with
    | .flowMappingEnd :: rest => some (entries.reverse, rest)
    | _ => do
      let (entry, rest) ←
        match tokens with
        | .key :: rest => readFlowEntry fuel rest
        | _ => do
          let (key, rest) ← read false fuel tokens
          some ((key, nothing), rest)
      match rest with
      | .comma :: rest => readFlowEntries fuel (entry :: entries) rest
      | .flowMappingEnd :: _ => readFlowEntries fuel (entry :: entries) rest
      | _ => none
/-- Reads an entry of a flow mapping behind the mark of its key. -/
def readFlowEntry : Nat → List Token → Option ((Node × Node) × List Token)
  | 0, _ => none
  | fuel + 1, tokens => do
    let (key, rest) ← readFlowPart fuel tokens
    match rest with
    | .value :: rest => do
      let (value, rest) ← readFlowPart fuel rest
      some ((key, value), rest)
    | _ => some ((key, nothing), rest)
/-- Reads a key or a value of an entry of a flow collection. -/
def readFlowPart : Nat → List Token → Option (Node × List Token)
  | 0, _ => none
  | fuel + 1, tokens =>
    match tokens with
    | .value :: _ | .comma :: _ | .flowSequenceEnd :: _ | .flowMappingEnd :: _ =>
      some (nothing, tokens)
    | _ => read false fuel tokens
end

/-- The node of the only document of a stream of tokens. Every call consumes a token or is followed
by one that does, which bounds the number of calls. -/
def ofTokens? (tokens : List Token) : Option Node := do
  let (directives, tokens) := tokens.span fun token => token matches .directive _
  -- Behind directives the mark of a document must not be missing.
  if 1 < directives.count (.directive true) then none
  if directives ≠ [] ∧ tokens.head? ≠ some .documentStart then none
  let tokens := if tokens.head? = some .documentStart then tokens.drop 1 else tokens
  let (node, rest) ←
    match tokens with
    | [] | .documentStart :: _ | .documentEnd :: _ => some (nothing, tokens)
    | _ => read false (4 * tokens.length + 4) tokens
  if rest.all (· = .documentEnd) then some node else none

mutual
/-- The node and all nodes inside it, in the order in which they begin. -/
def withinSelf : Node → List Node
  | node@(.alias _) | node@(.scalar ..) => [node]
  | node@(.sequence _ items) => node :: withinItems items
  | node@(.mapping _ entries) => node :: withinEntries entries
def withinItems : List Node → List Node
  | [] => []
  | item :: items => item.withinSelf ++ withinItems items
def withinEntries : List (Node × Node) → List Node
  | [] => []
  | (key, value) :: entries => key.withinSelf ++ value.withinSelf ++ withinEntries entries
end

/-- The number of the node's anchor. -/
def anchor? : Node → Option Nat
  | .alias _ => none
  | .scalar properties .. | .sequence properties _ | .mapping properties _ => properties.anchor

def isCollection : Node → Bool
  | .alias _ | .scalar .. => false
  | .sequence .. | .mapping .. => true

end Node

/-- A document, with what it takes to follow its aliases. -/
structure Document where
  root : Node
  /-- The nodes with an anchor under its number, in the order in which they begin. -/
  anchored : List (Nat × Node)
  /-- How many aliases may be followed. -/
  jumps : Nat

namespace Document

/-- A hundred times as many aliases may be followed as there are events in the document: two for a
collection, one for any other node. -/
def ofNode (root : Node) : Document :=
  let nodes := root.withinSelf
  { root
    anchored := nodes.filterMap fun node => node.anchor?.map fun number => (number, node)
    jumps := 100 * (nodes.length + nodes.countP Node.isCollection) }

def parse? (text : String) : Option Document :=
  (Token.scan text >>= Node.ofTokens?).map ofNode

end Document

end ShapeRules.Yaml
