import ShapeRules.Json.Basic
import ShapeRules.Number.Shortest

/-!
The text of a JSON value, compact or over several lines.
-/

namespace ShapeRules

def Number.text : Number → List Char
  | .integer (.ofNat n) => Nat.toDigits 10 n
  | .integer (.negSucc n) => '-' :: Nat.toDigits 10 (n + 1)
  | .double x => x.text

namespace Json

/-- A digit below sixteen, in lower case. -/
def hexDigit (n : Nat) : Char :=
  if n < 10 then Char.ofNat (n + '0'.toNat) else Char.ofNat (n - 10 + 'a'.toNat)

/-- A character as it stands between quotes: only quotes, backslashes and control characters are
escaped. -/
def escaped (c : Char) : List Char :=
  match c with
  | '"' => ['\\', '"']
  | '\\' => ['\\', '\\']
  | '\n' => ['\\', 'n']
  | '\r' => ['\\', 'r']
  | '\t' => ['\\', 't']
  | '\x08' => ['\\', 'b']
  | '\x0c' => ['\\', 'f']
  | c =>
    if c.toNat < 0x20 then ['\\', 'u', '0', '0', hexDigit (c.toNat / 16), hexDigit (c.toNat % 16)]
    else [c]

/-- A string in quotes. -/
def stringText (s : String) : List Char :=
  '"' :: s.toList.flatMap escaped ++ ['"']

mutual
/-- The text of a value without any white space. -/
def compactText : Json → List Char
  | .null => "null".toList
  | .bool true => "true".toList
  | .bool false => "false".toList
  | .number n => n.text
  | .string s => stringText s
  | .array [] => ['[', ']']
  | .array (x :: xs) => '[' :: compactText x ++ compactItems xs
  | .object [] => ['\x7b', '\x7d']
  | .object ((key, x) :: fields) =>
    '\x7b' :: stringText key ++ ':' :: compactText x ++ compactFields fields
/-- The items behind the first and the closing bracket. -/
def compactItems : List Json → List Char
  | [] => [']']
  | x :: xs => ',' :: compactText x ++ compactItems xs
/-- The fields behind the first and the closing brace. -/
def compactFields : List (String × Json) → List Char
  | [] => ['\x7d']
  | (key, x) :: fields => ',' :: stringText key ++ ':' :: compactText x ++ compactFields fields
end

/-- A line break and an indentation of two spaces a level. -/
private def newLine (depth : Nat) : List Char :=
  '\n' :: List.replicate (2 * depth) ' '

mutual
/-- The text of a value with every item and field on a line of its own. -/
def prettyText (depth : Nat) : Json → List Char
  | .array [] => ['[', ']']
  | .array (x :: xs) =>
    '[' :: newLine (depth + 1) ++ prettyText (depth + 1) x ++ prettyItems depth xs
  | .object [] => ['\x7b', '\x7d']
  | .object ((key, x) :: fields) =>
    '\x7b' :: newLine (depth + 1) ++ stringText key ++ ':' :: ' ' :: prettyText (depth + 1) x ++
      prettyFields depth fields
  | value => value.compactText
/-- The items behind the first and the closing bracket. -/
def prettyItems (depth : Nat) : List Json → List Char
  | [] => newLine depth ++ [']']
  | x :: xs => ',' :: newLine (depth + 1) ++ prettyText (depth + 1) x ++ prettyItems depth xs
/-- The fields behind the first and the closing brace. -/
def prettyFields (depth : Nat) : List (String × Json) → List Char
  | [] => newLine depth ++ ['\x7d']
  | (key, x) :: fields =>
    ',' :: newLine (depth + 1) ++ stringText key ++ ':' :: ' ' :: prettyText (depth + 1) x ++
      prettyFields depth fields
end

def compact (value : Json) : String := String.ofList value.compactText

def pretty (value : Json) : String := String.ofList (value.prettyText 0)

end Json

end ShapeRules
