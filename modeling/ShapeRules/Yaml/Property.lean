import ShapeRules.Yaml.Scalar

/-!
The properties that stand before YAML nodes, anchors and tags, and the directives that stand before
a document. A directive may declare a handle, which abbreviates the beginning of tags.
-/

namespace ShapeRules.Yaml

/-- A character of anchors, handles and names of directives. -/
def isNameChar (c : Char) : Bool := c.isAlphanum || c = '_' || c = '-'

/-- Reads the name of an anchor behind its indicator. -/
def readName (cursor : Cursor) : Option (String × Cursor) :=
  let (name, behind) := cursor.advance.advanceWhile isNameChar
  let ends := endsWord behind.peek || behind.peek.any "?:,]\x7d%@\x60".toList.contains
  if name ≠ [] ∧ ends then some (String.ofList name, behind) else none

/-- A tag in UTF-8. Escapes may give it any bytes, so that it need not be a text. -/
abbrev Tag : Type := List UInt8

namespace Tag

def ofText (text : String) : Tag := text.toUTF8.toList

/-- What begins the tags that are known to all documents. -/
def common : Tag := ofText "tag:yaml.org,2002:"

def null : Tag := common ++ ofText "null"

def bool : Tag := common ++ ofText "bool"

def int : Tag := common ++ ofText "int"

def float : Tag := common ++ ofText "float"

/-- The tag is one of a document's own. -/
def isLocal (tag : Tag) : Bool := (ofText "!").isPrefixOf tag

/-- What a document's own tag names, if that is a text. The mark alone names itself. -/
def name? (tag : Tag) : Option String :=
  if !tag.isLocal then none
  else if tag = ofText "!" then some "!"
  else String.fromUTF8? (tag.drop 1).toByteArray

/-- The handles that need no declaration, with what they stand for. -/
def handles : List (String × Tag) := [("!", ofText "!"), ("!!", common)]

/-- A character of tags. In angle brackets some more are admitted. -/
def isChar (inBrackets : Bool) (c : Char) : Bool :=
  isNameChar c || ";/?:@&=+$.!~*'()".toList.contains c || (inBrackets && ",[]".toList.contains c)

/-- The byte that an escape at the beginning of a text stands for, and the text behind it. -/
def octet? : List Char → Option (UInt8 × List Char)
  | '%' :: c :: d :: rest => do
    return (UInt8.ofNat (16 * (← Draft.hexValue? c) + (← Draft.hexValue? d)), rest)
  | _ => none

/-- The number of bytes of a character by the first of them. -/
def width? (lead : UInt8) : Option Nat :=
  if lead < 0x80 then some 1
  else if 0xC0 ≤ lead ∧ lead < 0xE0 then some 2
  else if 0xE0 ≤ lead ∧ lead < 0xF0 then some 3
  else if 0xF0 ≤ lead ∧ lead < 0xF8 then some 4
  else none

/-- The bytes that `n` escapes stand for, none of which begins a character. -/
def continuation? : Nat → List Char → Option (List UInt8)
  | 0, _ => some []
  | n + 1, text => do
    let (octet, rest) ← octet? text
    if 0x80 ≤ octet ∧ octet < 0xC0 then return octet :: (← continuation? n rest) else none

/-- The bytes of the character that escapes at the beginning of a text stand for. -/
def escaped? (text : List Char) : Option (List UInt8) := do
  let (lead, rest) ← octet? text
  return lead :: (← continuation? ((← width? lead) - 1) rest)

/-- Reads the characters of a tag. -/
def readChars (inBrackets : Bool) (cursor : Cursor) : Option (List UInt8 × Cursor) :=
  repeatStep (fun (_, cursor) => cursor.left)
    (fun ((bytes, cursor) : List UInt8 × Cursor) =>
      match cursor.peek with
      | none => some (.inr (bytes, cursor))
      | some c =>
        if c = '%' then do
          let octets ← escaped? cursor.rest
          some (.inl (bytes ++ octets, cursor.skip (3 * octets.length)))
        else if isChar inBrackets c then
          some (.inl (bytes ++ ofText c.toString, cursor.advance))
        else some (.inr (bytes, cursor)))
    ([], cursor)

/-- A zero byte ends a tag. -/
def ofBytes (bytes : List UInt8) : Tag := bytes.takeWhile (· ≠ 0)

/-- Reads a tag, or its beginning, that must not be missing. -/
def readWritten (inBrackets : Bool) (cursor : Cursor) : Option (Tag × Cursor) := do
  let (bytes, cursor) ← readChars inBrackets cursor
  if bytes = [] then none else return (ofBytes bytes, cursor)

/-- Reads a mark and the name behind it, up to the mark that ends a handle if there is one. -/
def readHandle (cursor : Cursor) : String × Cursor :=
  let (name, behind) := cursor.advance.advanceWhile isNameChar
  if behind.peek = some '!' then (String.ofList ('!' :: name ++ ['!']), behind.advance)
  else (String.ofList ('!' :: name), behind)

/-- A handle of more than the mark alone. -/
def isHandle (text : String) : Bool := text ≠ "!" && text.toList.getLast? = some '!'

/-- Reads a tag from its mark, where some handles are declared. -/
def read (declared : List (String × Tag)) (inFlow : Bool) (cursor : Cursor) :
    Option (Tag × Cursor) := do
  let (tag, behind) ←
    if cursor.peekNth 1 = some '<' then do
      let (tag, behind) ← readWritten true (cursor.skip 2)
      if behind.peek = some '>' then some (tag, behind.advance) else none
    else
      let (handle, behind) := readHandle cursor
      let known := declared ++ handles
      if isHandle handle then do
        let (tag, behind) ← readWritten false behind
        some ((← known.lookup handle) ++ tag, behind)
      else do
        let (bytes, behind) ← readChars false behind
        let tag := ofBytes ((ofText handle).drop 1 ++ bytes)
        if tag = [] then some (ofText "!", behind)
        else some ((← known.lookup "!") ++ tag, behind)
  if endsWord behind.peek || (inFlow && behind.peek = some ',') then some (tag, behind) else none

end Tag

/-- A line before a document. -/
inductive Directive where
  /-- The document is written in a version that can be read. -/
  | version
  /-- A handle and what it stands for. -/
  | handle (name : String) (tag : Tag)

namespace Directive

/-- The same place behind blanks. -/
def skipBlanks (cursor : Cursor) : Cursor := (cursor.advanceWhile isBlank).2

/-- Reads a part of a version, which has nine digits at most. -/
def readNumber (cursor : Cursor) : Option (Nat × Cursor) :=
  let (digits, behind) := cursor.advanceWhile Char.isDigit
  if digits = [] ∨ 9 < digits.length then none else some (Numeral.valueOf digits, behind)

/-- Reads a version. Those that can be read are 1.1 and 1.2. -/
def readVersion (cursor : Cursor) : Option (Directive × Cursor) := do
  let (major, behind) ← readNumber cursor
  if behind.peek ≠ some '.' then none
  let (minor, behind) ← readNumber behind.advance
  if major = 1 ∧ (minor = 1 ∨ minor = 2) then some (version, behind) else none

def readDeclaration (cursor : Cursor) : Option (Directive × Cursor) := do
  let (name, behind) := Tag.readHandle cursor
  if cursor.peek ≠ some '!' ∨ name.toList.getLast? ≠ some '!' ∨ !behind.peek.any isBlank then none
  let (tag, behind) ← Tag.readWritten true (skipBlanks behind)
  if endsWord behind.peek then some (handle name tag, behind) else none

/-- Reads a directive from its indicator, and the rest of its line. -/
def read (cursor : Cursor) : Option (Directive × Cursor) := do
  let (name, behind) := cursor.advance.advanceWhile isNameChar
  if !endsWord behind.peek then none
  let (directive, behind) ←
    match String.ofList name with
    | "YAML" => readVersion (skipBlanks behind)
    | "TAG" => readDeclaration (skipBlanks behind)
    | _ => none
  let behind := skipBlanks behind
  let behind := if behind.peek = some '#' then behind.advanceLine.2 else behind
  if behind.rest = [] || behind.atBreak then some (directive, behind.advance) else none

end Directive

end ShapeRules.Yaml
