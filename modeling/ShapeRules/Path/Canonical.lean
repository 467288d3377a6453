import ShapeRules.Path.Basic
import ShapeRules.Text.Space

/-!
The canonical text of a path: in braces, with a bar between segments and quotes only where an
argument needs them.
-/

namespace ShapeRules

namespace Path

/-- A character that an argument may hold without quotes. -/
def isBareChar (c : Char) : Bool :=
  !Text.isSpace c && !"()[]\x7b\x7d,\"'@".toList.contains c

/-- A character as it stands between double quotes. -/
def quotedChar (c : Char) : List Char :=
  if c = '"' then ['\\', '"']
  else if c = '\\' then ['\\', '\\']
  else if c = '\n' then ['\\', 'n']
  else if c = '\t' then ['\\', 't']
  else [c]

/-- An argument, in double quotes unless it is a nonempty run of bare characters. -/
def argumentText (argument : List Char) : List Char :=
  if argument ≠ [] ∧ argument.all isBareChar then argument
  else '"' :: argument.flatMap quotedChar ++ ['"']

/-- Arguments with a comma and a space between them. -/
def argumentsText (arguments : List String) : List Char :=
  List.intercalate [',', ' '] (arguments.map fun argument => argumentText argument.toList)

end Path

def Segment.canonical : Segment → List Char
  | .key name => name.toList
  | .wildcard => ['*']
  | .call accessor arguments =>
    accessor.word.toList ++ '(' :: Path.argumentsText arguments ++ [')']
  | .literal text => '[' :: text.toList ++ [']']

def Path.canonical (path : Path) : List Char :=
  '@' :: '\x7b' :: List.intercalate ['|'] (path.segments.map Segment.canonical) ++ ['\x7d']

instance : ToString Path := ⟨fun path => String.ofList path.canonical⟩

end ShapeRules
