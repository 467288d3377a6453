import ShapeRules.Text.Location

/-!
A cursor walks over a text one character at a time and keeps its place in bytes, lines and columns.
-/

namespace ShapeRules

structure Cursor where
  input : List Char
  /-- The part of the input that is not consumed yet. -/
  rest : List Char
  /-- The number of UTF-8 bytes consumed. -/
  position : Nat
  location : Location
  deriving DecidableEq, Repr

namespace Cursor

/-- The place before the first character. -/
def start (input : List Char) : Cursor := ⟨input, input, 0, .start⟩

def atEnd (cursor : Cursor) : Bool := cursor.rest.isEmpty

def peek (cursor : Cursor) : Option Char := cursor.rest.head?

/-- The character `n` places behind the next one. -/
def peekNth (cursor : Cursor) (n : Nat) : Option Char := cursor.rest[n]?

/-- Consumes the next character, if there is one. -/
def advance (cursor : Cursor) : Cursor :=
  match cursor.rest with
  | [] => cursor
  | c :: rest =>
    { cursor with
      rest, position := cursor.position + c.utf8Size, location := cursor.location.next c }

/-- Consumes `n` characters, or all if there are fewer. -/
def skip (cursor : Cursor) : Nat → Cursor
  | 0 => cursor
  | n + 1 => cursor.advance.skip n

/-- Consumes the next character if it is `expected`, and says whether it was. -/
def eat (cursor : Cursor) (expected : Char) : Bool × Cursor :=
  if cursor.peek = some expected then (true, cursor.advance) else (false, cursor)

/-- Consumes the longest run of characters that satisfy `p`, and gives that run. -/
def advanceWhile (p : Char → Bool) (cursor : Cursor) : List Char × Cursor :=
  let run := cursor.rest.takeWhile p
  (run, cursor.skip run.length)

/-- Consumes the input up to a suffix of it. -/
def advanceTo (cursor : Cursor) (suffix : List Char) : Cursor :=
  cursor.skip (cursor.rest.length - suffix.length)

/-- The text behind its first `n` bytes. -/
def dropBytes : Nat → List Char → List Char
  | 0, text => text
  | _, [] => []
  | n + 1, c :: text => dropBytes (n + 1 - c.utf8Size) text

/-- The text consumed since the cursor was at byte `mark`. -/
def sliceFrom (cursor : Cursor) (mark : Nat) : List Char :=
  let behind := dropBytes mark cursor.input
  behind.take (behind.length - cursor.rest.length)

theorem advance_rest (cursor : Cursor) : cursor.advance.rest = cursor.rest.tail := by
  unfold advance
  split
  · rename_i hrest
    rw [hrest, List.tail_nil]
  · rename_i hrest
    rw [hrest, List.tail_cons]

theorem skip_rest (n : Nat) (cursor : Cursor) : (cursor.skip n).rest = cursor.rest.drop n := by
  induction n generalizing cursor with
  | zero => rfl
  | succ n ih => rw [skip, ih, advance_rest, List.drop_tail]

end Cursor

end ShapeRules
