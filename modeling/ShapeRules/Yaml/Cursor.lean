/-!
A cursor over a YAML text, which keeps its place in bytes, lines and columns. Carriage returns and
next lines are line feeds by then; the two Unicode separators break lines too and stay what they
are.
-/

namespace ShapeRules.Yaml

/-- A character that ends a line. -/
def isBreak (c : Char) : Bool := c = '\n' || c = '\u2028' || c = '\u2029'

structure Cursor where
  /-- The part of the text that is not consumed yet. -/
  rest : List Char
  /-- The number of characters in that part. -/
  left : Nat
  /-- The number of UTF-8 bytes consumed. -/
  position : Nat
  /-- Lines and columns are counted from one. -/
  line : Nat
  column : Nat

namespace Cursor

/-- The place before the first character. -/
def start (text : List Char) : Cursor := ⟨text, text.length, 0, 1, 1⟩

def peek (cursor : Cursor) : Option Char := cursor.rest.head?

/-- The character `n` places behind the next one. -/
def peekNth (cursor : Cursor) (n : Nat) : Option Char := cursor.rest[n]?

def atBreak (cursor : Cursor) : Bool := cursor.peek.any isBreak

/-- Consumes the next character, if there is one. -/
def advance (cursor : Cursor) : Cursor :=
  match cursor.rest with
  | [] => cursor
  | c :: rest =>
    let left := cursor.left - 1
    let position := cursor.position + c.utf8Size
    if isBreak c then ⟨rest, left, position, cursor.line + 1, 1⟩
    else ⟨rest, left, position, cursor.line, cursor.column + 1⟩

/-- Consumes `n` characters, or all if there are fewer. -/
def skip (cursor : Cursor) : Nat → Cursor
  | 0 => cursor
  | n + 1 => cursor.advance.skip n

/-- Consumes the longest run of characters that satisfy `p`, and gives that run. -/
def advanceWhile (p : Char → Bool) (cursor : Cursor) : List Char × Cursor :=
  let run := cursor.rest.takeWhile p
  (run, cursor.skip run.length)

/-- Consumes what is left of the line, and gives it. -/
def advanceLine (cursor : Cursor) : List Char × Cursor :=
  cursor.advanceWhile fun c => !isBreak c

end Cursor

end ShapeRules.Yaml
