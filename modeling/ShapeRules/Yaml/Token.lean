import ShapeRules.Yaml.Property

/-!
The tokens of YAML texts. Indentation becomes tokens that open and close block collections, and a
key is marked where it begins once the colon behind it is met. Anchors are numbered, and tags are
written out.
-/

namespace ShapeRules.Yaml

inductive Token where
  | directive (isVersion : Bool)
  /-- The mark between documents. -/
  | documentStart
  | documentEnd
  | blockSequence
  | blockMapping
  | blockEnd
  | flowSequence
  | flowSequenceEnd
  | flowMapping
  | flowMappingEnd
  | entry
  | comma
  | key
  | value
  | anchor (number : Nat)
  /-- What stands in the place of another node, by the number of its anchor. -/
  | alias (number : Nat)
  | tag (tag : Tag)
  | scalar (text : String) (isPlain : Bool)
  deriving DecidableEq, Repr

namespace Token

/-- A token that may turn out to begin a key. -/
structure PossibleKey where
  /-- The number of tokens before it. -/
  place : Nat
  line : Nat
  column : Nat
  position : Nat
  /-- Nothing but a key may stand here. -/
  isRequired : Bool

structure Lexer where
  cursor : Cursor
  /-- The tokens met, the last one first. -/
  tokens : List Token
  count : Nat
  /-- The column of the innermost block collection, or zero outside of all. -/
  indent : Nat
  /-- The columns of the collections around it. -/
  outer : List Nat
  /-- The possible keys of the flow collections, innermost first, and of the block around them. -/
  keys : List (Option PossibleKey)
  keyAllowed : Bool
  /-- The names of anchors with their numbers. -/
  anchors : List (String × Nat)
  /-- The handles that directives declared, with what they stand for. -/
  handles : List (String × Tag)

namespace Lexer

def start (text : List Char) : Lexer :=
  { cursor := .start text, tokens := [], count := 0, indent := 0, outer := [], keys := [none],
    keyAllowed := true, anchors := [], handles := [] }

def inFlow (lexer : Lexer) : Bool :=
  match lexer.keys with
  | _ :: _ :: _ => true
  | _ => false

def push (lexer : Lexer) (token : Token) : Lexer :=
  { lexer with tokens := token :: lexer.tokens, count := lexer.count + 1 }

/-- Inserts tokens behind the first `place` ones. -/
def insertAt (lexer : Lexer) (place : Nat) (inserted : List Token) : Lexer :=
  let later := lexer.count - place
  { lexer with
    tokens := lexer.tokens.take later ++ inserted.reverse ++ lexer.tokens.drop later
    count := lexer.count + inserted.length }

/-- The next character means nothing here. A byte order mark may begin a line, and a tab may not
stand where a key may. -/
def atSpace (lexer : Lexer) : Bool :=
  match lexer.cursor.peek with
  | some ' ' => true
  | some '\t' => lexer.inFlow || !lexer.keyAllowed
  | some '\ufeff' => lexer.cursor.column = 1
  | _ => false

/-- Passes over white space, comments and line breaks. -/
def skipSpace (lexer : Lexer) : Option Lexer :=
  repeatStep (fun lexer => lexer.cursor.left)
    (fun lexer =>
      if lexer.atSpace then some (.inl { lexer with cursor := lexer.cursor.advance })
      else if lexer.cursor.peek = some '#' then
        some (.inl { lexer with cursor := lexer.cursor.advanceLine.2 })
      else if lexer.cursor.atBreak then
        some (.inl { lexer with
          cursor := lexer.cursor.advance, keyAllowed := lexer.keyAllowed || !lexer.inFlow })
      else some (.inr lexer))
    lexer

/-- A key ends on the line it began on, within 1024 bytes. -/
def isStale (lexer : Lexer) (key : PossibleKey) : Bool :=
  key.line < lexer.cursor.line || key.position + 1024 < lexer.cursor.position

/-- The innermost possible key, if it can still be one. -/
def currentKey (lexer : Lexer) : Option (Option PossibleKey) :=
  match lexer.keys with
  | some possible :: _ =>
    if !lexer.isStale possible then some (some possible)
    else if possible.isRequired then none else some none
  | _ => some none

/-- Forgets the innermost possible key. -/
def dropKey (lexer : Lexer) : Option Lexer :=
  match lexer.keys with
  | [] => none
  | innermost :: keys =>
    if innermost.any PossibleKey.isRequired then none
    else some { lexer with keys := none :: keys }

/-- Remembers that a key may begin here. -/
def noteKey (lexer : Lexer) : Option Lexer :=
  if !lexer.keyAllowed then some lexer
  else do
    let lexer ← lexer.dropKey
    let here := lexer.cursor
    let possible : PossibleKey :=
      { place := lexer.count, line := here.line, column := here.column,
        position := here.position,
        isRequired := !lexer.inFlow && lexer.indent = here.column }
    return { lexer with keys := some possible :: lexer.keys.drop 1 }

/-- Opens a block collection at a column unless one is open there, and says so. -/
def openBlock (lexer : Lexer) (column : Nat) : Bool × Lexer :=
  if lexer.inFlow || column ≤ lexer.indent then (false, lexer)
  else (true, { lexer with indent := column, outer := lexer.indent :: lexer.outer })

/-- Closes block collections, innermost first, as long as they stand right of a column. -/
def closeBlocks (column : Nat) (lexer : Lexer) : Lexer :=
  let rec close (lexer : Lexer) : List Nat → Lexer
    | [] => { lexer with outer := [] }
    | next :: outer =>
      if column < lexer.indent then close { lexer.push .blockEnd with indent := next } outer
      else { lexer with outer := next :: outer }
  if lexer.inFlow then lexer else close lexer lexer.outer

/-- The same state behind `n` more characters. -/
def skip (lexer : Lexer) (n : Nat) : Lexer := { lexer with cursor := lexer.cursor.skip n }

def readMarker (lexer : Lexer) (token : Token) : Option Lexer := do
  let lexer ← (closeBlocks 0 lexer).dropKey
  return { lexer.push token with keyAllowed := false }.skip 3

/-- Reads a directive. A handle is declared once. -/
def readDirective (lexer : Lexer) : Option Lexer := do
  let lexer ← (closeBlocks 0 lexer).dropKey
  let (line, cursor) ← Directive.read lexer.cursor
  let lexer := { lexer with cursor, keyAllowed := false }
  match line with
  | .version => return lexer.push (.directive true)
  | .handle name meaning =>
    if name ∈ lexer.handles.map Prod.fst then none
    else return { lexer.push (.directive false) with handles := (name, meaning) :: lexer.handles }

/-- Reads the bracket that opens a flow collection. -/
def readOpening (lexer : Lexer) (token : Token) : Option Lexer := do
  let lexer ← lexer.noteKey
  return { lexer.push token with keys := none :: lexer.keys, keyAllowed := true }.skip 1

/-- Reads the bracket that closes a flow collection. -/
def readClosing (lexer : Lexer) (token : Token) : Option Lexer := do
  let lexer ← lexer.dropKey
  let keys := if lexer.inFlow then lexer.keys.drop 1 else lexer.keys
  return { lexer.push token with keys, keyAllowed := false }.skip 1

def readComma (lexer : Lexer) : Option Lexer := do
  let lexer ← lexer.dropKey
  return { lexer.push .comma with keyAllowed := true }.skip 1

/-- Opens the block collection that an indicator at the cursor belongs to. -/
def openAtIndicator (lexer : Lexer) (token : Token) : Option Lexer :=
  if lexer.inFlow then some lexer
  else if !lexer.keyAllowed then none
  else
    let (isNew, lexer) := lexer.openBlock lexer.cursor.column
    some (if isNew then lexer.push token else lexer)

def readEntry (lexer : Lexer) : Option Lexer := do
  let lexer ← (← lexer.openAtIndicator .blockSequence).dropKey
  return { lexer.push .entry with keyAllowed := true }.skip 1

def readKey (lexer : Lexer) : Option Lexer := do
  let lexer ← (← lexer.openAtIndicator .blockMapping).dropKey
  return { lexer.push .key with keyAllowed := !lexer.inFlow }.skip 1

def readValue (lexer : Lexer) : Option Lexer := do
  match ← lexer.currentKey with
  | some possible =>
    let (isNew, lexer) := lexer.openBlock possible.column
    let lexer := lexer.insertAt possible.place (if isNew then [.blockMapping, .key] else [.key])
    let keys := none :: lexer.keys.drop 1
    return { lexer.push .value with keys, keyAllowed := false }.skip 1
  | none =>
    let lexer ← lexer.openAtIndicator .blockMapping
    return { lexer.push .value with keyAllowed := !lexer.inFlow }.skip 1

/-- Reads an anchor. Its number is how many names there were before it, so that it may have the
number of a name that was given twice. -/
def readAnchor (lexer : Lexer) : Option Lexer := do
  let lexer ← lexer.noteKey
  let (name, cursor) ← readName lexer.cursor
  let number := lexer.anchors.length
  return { lexer.push (.anchor number) with
    cursor, keyAllowed := false, anchors := Keyed.put Prod.fst (name, number) lexer.anchors }

/-- Reads an alias, whose anchor stands before it. -/
def readAlias (lexer : Lexer) : Option Lexer := do
  let lexer ← lexer.noteKey
  let (name, cursor) ← readName lexer.cursor
  return { lexer.push (.alias (← lexer.anchors.lookup name)) with cursor, keyAllowed := false }

def readTag (lexer : Lexer) : Option Lexer := do
  let lexer ← lexer.noteKey
  let (written, cursor) ← Tag.read lexer.handles lexer.inFlow lexer.cursor
  return { lexer.push (.tag written) with cursor, keyAllowed := false }

def readQuoted (lexer : Lexer) (read : Cursor → Option (List Char × Cursor)) : Option Lexer := do
  let lexer ← lexer.noteKey
  let (text, cursor) ← read lexer.cursor
  return { lexer.push (.scalar (String.ofList text) false) with cursor, keyAllowed := false }

def readBlockScalar (lexer : Lexer) (isFolded : Bool) : Option Lexer := do
  let lexer ← lexer.dropKey
  let (text, cursor) ← readBlock isFolded lexer.indent lexer.cursor
  return { lexer.push (.scalar (String.ofList text) false) with cursor, keyAllowed := true }

def readPlainScalar (lexer : Lexer) : Option Lexer := do
  let lexer ← lexer.noteKey
  let (text, brokeLine, cursor) ← readPlain lexer.inFlow lexer.indent lexer.cursor
  return { lexer.push (.scalar (String.ofList text) true) with cursor, keyAllowed := brokeLine }

/-- Characters that begin no plain scalar. -/
def indicators : List Char := "-?:,[]\x7b\x7d#&*!|>'\"%@\x60".toList

/-- A plain scalar may begin with `c` before `next`. -/
def beginsPlain (lexer : Lexer) (c : Char) (next : Option Char) : Bool :=
  !(isBlank c || indicators.contains c) || (c = '-' && !next.any isBlank) ||
    (!lexer.inFlow && (c = '?' || c = ':') && !endsWord next)

/-- Reads the next token, or gives all of them at the end of the text. -/
def step (lexer : Lexer) : Option (Lexer ⊕ List Token) := do
  let lexer ← lexer.skipSpace
  match lexer.cursor.rest with
  | [] => return .inr (← (closeBlocks 0 lexer).dropKey).tokens.reverse
  | c :: rest =>
    let lexer := closeBlocks lexer.cursor.column lexer
    let next := rest.head?
    let indicates := lexer.inFlow || endsWord next
    .inl <$>
      if lexer.cursor.column = 1 && c = '%' then lexer.readDirective
      else if atMarker lexer.cursor then
        lexer.readMarker (if c = '-' then .documentStart else .documentEnd)
      else if c = '[' then lexer.readOpening .flowSequence
      else if c = '\x7b' then lexer.readOpening .flowMapping
      else if c = ']' then lexer.readClosing .flowSequenceEnd
      else if c = '\x7d' then lexer.readClosing .flowMappingEnd
      else if c = ',' then lexer.readComma
      else if c = '-' && endsWord next then lexer.readEntry
      else if c = '?' && indicates then lexer.readKey
      else if c = ':' && indicates then lexer.readValue
      else if c = '*' then lexer.readAlias
      else if c = '&' then lexer.readAnchor
      else if c = '!' then lexer.readTag
      else if c = '|' && !lexer.inFlow then lexer.readBlockScalar false
      else if c = '>' && !lexer.inFlow then lexer.readBlockScalar true
      else if c = '\'' then lexer.readQuoted readSingle
      else if c = '"' then lexer.readQuoted readDouble
      else if lexer.beginsPlain c next then lexer.readPlainScalar
      else none

end Lexer

/-- A character that a text may hold. -/
def isAdmitted (c : Char) : Bool :=
  let n := c.toNat
  n = 0x09 || n = 0x0A || n = 0x0D || (0x20 ≤ n && n ≤ 0x7E) || n = 0x85 ||
    (0xA0 ≤ n && n ≤ 0xFFFD) || 0x10000 ≤ n

/-- Carriage returns and next lines become line feeds. -/
def normalizeBreaks : List Char → List Char
  | [] => []
  | '\r' :: '\n' :: rest => '\n' :: normalizeBreaks rest
  | c :: rest => (if c = '\r' || c = '\u0085' then '\n' else c) :: normalizeBreaks rest

def scan (text : String) : Option (List Token) :=
  if text.toList.all isAdmitted then
    repeatStep (fun lexer => lexer.cursor.left) Lexer.step
      (.start (normalizeBreaks text.toList))
  else none

end Token

end ShapeRules.Yaml
