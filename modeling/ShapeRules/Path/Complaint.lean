import ShapeRules.Path.Basic
import ShapeRules.Text.Location

/-!
What can be wrong with the text of a path or a template, and where.
-/

namespace ShapeRules

/-- The place in the grammar at which an unexpected character was found. -/
inductive Wanted where
  | segment
  | argument
  | argumentEnd
  | closingBrace
  | endOfPath
  deriving DecidableEq, Repr

inductive Complaint where
  /-- A bracket of any kind without its counterpart. -/
  | unterminated (opener : Char)
  | unterminatedString
  | emptyLiteral
  | unexpected (found : Char) (wanted : Wanted)
  | endOfInput
  | invalidEscape (escaped : Char)
  | unknownAccessor (word : String)
  | wrongArity (accessor : Accessor) (given : Nat)
  /-- A scoped attribute that does not start with its sign. -/
  | noSign
  /-- A sign that no path follows. -/
  | noPath
  /-- A complaint in the words of a caller. -/
  | other (message : String)
  deriving DecidableEq, Repr

namespace Complaint

private def unexpectedText (found : Char) (wanted : Wanted) : String :=
  let c := found.toString
  match wanted with
  | .segment => s!"unexpected character '{c}', expected a path segment"
  | .argument => s!"unexpected character '{c}', expected an argument"
  | .argumentEnd => s!"unexpected character '{c}' in arguments"
  | .closingBrace => s!"unexpected character '{c}', expected '\x7d'"
  | .endOfPath => s!"unexpected character '{c}' after path"

def message : Complaint → String
  | unterminated opener => s!"unterminated '{opener.toString}'"
  | unterminatedString => "unterminated string"
  | emptyLiteral => "empty literal '[]'"
  | unexpected found wanted => unexpectedText found wanted
  | endOfInput => "unexpected end of input, expected a path segment"
  | invalidEscape escaped => s!"invalid escape '\\" ++ escaped.toString ++ "'"
  | unknownAccessor word =>
    let known := ", ".intercalate (Accessor.all.map Accessor.word)
    s!"unknown function '{word}', expected one of: {known}"
  | wrongArity accessor given =>
    let word := accessor.word
    s!"function '{word}' expects {accessor.arity} argument(s), got {given}"
  | noSign => "expected '@' to start a scoped attribute"
  | noPath => "expected a scoped attribute path after '@'"
  | other message => message

end Complaint

/-- A complaint about the character at a location. -/
structure SyntaxError where
  location : Location
  complaint : Complaint
  deriving DecidableEq, Repr

namespace SyntaxError

def message (error : SyntaxError) : String :=
  let ⟨line, column⟩ := error.location
  s!"attribute template syntax error at line {line} column {column}: " ++ error.complaint.message

end SyntaxError

/-- A complaint about a text that is read from left to right. -/
structure Fault where
  complaint : Complaint
  /-- The text from the character complained about. -/
  site : List Char
  /-- The text that was not read when the fault was found. -/
  unread : List Char
  deriving DecidableEq, Repr

namespace Fault

/-- The fault as an error in the text that was read from its beginning. -/
def toSyntaxError (fault : Fault) (text : List Char) : SyntaxError :=
  ⟨Location.start.after (text.take (text.length - fault.site.length)), fault.complaint⟩

end Fault

end ShapeRules
