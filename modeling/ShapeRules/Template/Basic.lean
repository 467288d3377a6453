import ShapeRules.Path.Reading

/-!
Message templates: literal text with scoped attributes in it. A doubled sign stands for the sign
itself.
-/

namespace ShapeRules

/-- A part of a compiled template. -/
inductive Fragment where
  | literal (text : String)
  /-- The value of a path at the place of its scoped attribute. -/
  | computed (path : Path)
  deriving DecidableEq, Repr

/-- Adds text behind fragments. It joins the text that they end with. -/
def Fragment.append (text : String) : List Fragment → List Fragment
  | [] => [.literal text]
  | [.literal last] => [.literal (last ++ text)]
  | fragment :: behind => fragment :: append text behind

/-- A scanner of templates. The run of text from the mark to the cursor is pending: it is not among
the fragments yet. -/
structure Scanner where
  cursor : Cursor
  /-- The number of UTF-8 bytes before the pending run. -/
  mark : Nat
  fragments : List Fragment

namespace Scanner

/-- The scanner before the first character. -/
def start (text : List Char) : Scanner := ⟨.start text, 0, []⟩

/-- Adds the pending run to the fragments. -/
def flush (scanner : Scanner) : Scanner :=
  match scanner.cursor.sliceFrom scanner.mark with
  | [] => scanner
  | c :: run =>
    { scanner with
      mark := scanner.cursor.position
      fragments := Fragment.append (String.ofList (c :: run)) scanner.fragments }

/-- Moves to the next sign, or to the end. -/
def toSign (scanner : Scanner) : Scanner :=
  { scanner with cursor := (scanner.cursor.advanceWhile (· ≠ '@')).2 }

/-- Takes a doubled sign or a scoped attribute. The first of two signs belongs to the pending run,
and the next run begins behind the second. -/
def take (scanner : Scanner) : Except SyntaxError Scanner :=
  if scanner.cursor.peekNth 1 = some '@' then
    let flushed := { scanner with cursor := scanner.cursor.advance }.flush
    let behind := flushed.cursor.advance
    .ok { flushed with cursor := behind, mark := behind.position }
  else
    let flushed := scanner.flush
    match flushed.cursor.scopedAttribute with
    | (.error error, _) => .error error
    | (.ok path, behind) =>
      .ok ⟨behind, behind.position, flushed.fragments ++ [.computed path]⟩

@[simp] theorem flush_cursor (scanner : Scanner) : scanner.flush.cursor = scanner.cursor := by
  unfold flush
  split <;> rfl

theorem toSign_length (scanner : Scanner) :
    scanner.toSign.cursor.rest.length ≤ scanner.cursor.rest.length := by
  rw [toSign, Cursor.advanceWhile, Cursor.skip_rest, List.length_drop]
  exact Nat.sub_le _ _

theorem take_length {scanner next : Scanner} (h : scanner.take = .ok next) :
    next.cursor.rest.length + 2 ≤ scanner.cursor.rest.length := by
  unfold take at h
  split at h
  · rename_i hpeek
    have hlength := (List.getElem?_eq_some_iff.mp hpeek).1
    cases h
    simp only [flush_cursor, Cursor.advance_rest, List.length_tail]
    omega
  · simp only [flush_cursor, Cursor.scopedAttribute] at h
    split at h
    · cases h
    · rename_i path behind hread
      split at hread
      · rename_i rest hpath
        have hlength := Path.scopedAttribute_length hpath
        cases hread
        cases h
        rw [Cursor.advanceTo, Cursor.skip_rest, List.length_drop]
        omega
      · cases hread

def run (scanner : Scanner) : Except SyntaxError (List Fragment) :=
  if scanner.toSign.cursor.atEnd then .ok scanner.toSign.flush.fragments
  else
    match hnext : scanner.toSign.take with
    | .error error => .error error
    | .ok next =>
      have : next.cursor.rest.length < scanner.cursor.rest.length := by
        have htake := take_length hnext
        have hsign := toSign_length scanner
        omega
      run next
termination_by scanner.cursor.rest.length

end Scanner

/-- A compiled template and the text that it was compiled from. -/
structure Template where
  source : String
  fragments : List Fragment
  deriving Repr

namespace Template

def parse (source : String) : Except SyntaxError Template :=
  match (Scanner.start source.toList).run with
  | .ok fragments => .ok ⟨source, fragments⟩
  | .error error => .error error

/-- Templates are compared by their source. -/
instance : BEq Template := ⟨fun a b => a.source == b.source⟩

instance : Hashable Template := ⟨fun template => hash template.source⟩

instance : ToString Template := ⟨Template.source⟩

end Template

end ShapeRules
