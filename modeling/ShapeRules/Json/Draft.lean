import ShapeRules.Json.Numeral

/-!
Drafts: what a JSON text holds up to its first fault. A draft keeps every field of an object in the
order of the text, so that whoever walks it meets the first problem of the text first, and it knows
where in the text its parts begin and end.
-/

namespace ShapeRules

inductive Draft where
  | null (behind : List Char)
  | bool (b : Bool) (behind : List Char)
  /-- A number, or nothing if it is out of range. -/
  | number (value : Option Number) (behind : List Char)
  /-- A string, or nothing if its escapes name half a character. -/
  | string (value : Option String) (behind : List Char)
  | array (opening : List Char) (items : List Draft) (behind : List Char)
  /-- Fields in the order of the text, each with the text behind its key. A key that cannot be read
  is missing. -/
  | object (opening : List Char) (fields : List (Option String × List Char × Draft))
    (behind : List Char)
  /-- The text breaks off or is malformed here, and nothing follows. -/
  | broken

namespace Draft

mutual
/-- The text of the draft has no fault. -/
def isWhole : Draft → Bool
  | .broken => false
  | .array _ items _ => areWhole items
  | .object _ fields _ => fieldsAreWhole fields
  | _ => true
def areWhole : List Draft → Bool
  | [] => true
  | item :: items => isWhole item && areWhole items
def fieldsAreWhole : List (Option String × List Char × Draft) → Bool
  | [] => true
  | (_, _, value) :: fields => isWhole value && fieldsAreWhole fields
end

mutual
/-- The draft of a value that stands in no text. -/
def ofJson : Json → Draft
  | .null => .null []
  | .bool b => .bool b []
  | .number n => .number (some n) []
  | .string s => .string (some s) []
  | .array items => .array [] (ofItems items) []
  | .object fields => .object [] (ofFields fields) []
def ofItems : List Json → List Draft
  | [] => []
  | x :: xs => ofJson x :: ofItems xs
def ofFields : List (String × Json) → List (Option String × List Char × Draft)
  | [] => []
  | (key, x) :: fields => (some key, [], ofJson x) :: ofFields fields
end

/-- The text behind a value. -/
def behind : Draft → List Char
  | .null behind | .bool _ behind | .number _ behind | .string _ behind | .array _ _ behind
  | .object _ _ behind => behind
  | .broken => []

/-- White space between the tokens of a text. -/
def isBlank (c : Char) : Bool :=
  c = ' ' || c = '\t' || c = '\n' || c = '\r'

/-- A character of a string, or half of one as an escape names it. -/
inductive Unit where
  | plain (c : Char)
  | half (n : Nat)
  deriving DecidableEq, Repr

def hexValue? (c : Char) : Option Nat :=
  if c.isDigit then some (c.toNat - '0'.toNat)
  else if 'a' ≤ c ∧ c ≤ 'f' then some (c.toNat - 'a'.toNat + 10)
  else if 'A' ≤ c ∧ c ≤ 'F' then some (c.toNat - 'A'.toNat + 10)
  else none

def hexValues? (a b c d : Char) : Option Nat := do
  return (((← hexValue? a) * 16 + (← hexValue? b)) * 16 + (← hexValue? c)) * 16 + (← hexValue? d)

/-- The character that an escape of one letter stands for. -/
def unescape? : Char → Option Char
  | '"' => some '"'
  | '\\' => some '\\'
  | '/' => some '/'
  | 'b' => some '\x08'
  | 'f' => some '\x0c'
  | 'n' => some '\n'
  | 'r' => some '\r'
  | 't' => some '\t'
  | _ => none

/-- The unit that a code of sixteen bits stands for. -/
def Unit.ofCode (n : Nat) : Unit :=
  if 0xD800 ≤ n ∧ n ≤ 0xDFFF then .half n else .plain (Char.ofNat n)

/-- Reads a string behind its opening quote. -/
def readUnits : List Char → Option (List Unit × List Char)
  | [] => none
  | '"' :: rest => some ([], rest)
  | '\\' :: 'u' :: a :: b :: c :: d :: rest => do
    let n ← hexValues? a b c d
    let (units, rest) ← readUnits rest
    return (.ofCode n :: units, rest)
  | '\\' :: c :: rest => do
    let c ← unescape? c
    let (units, rest) ← readUnits rest
    return (.plain c :: units, rest)
  | c :: rest =>
    if c = '\\' ∨ c.toNat < 0x20 then none
    else do
      let (units, rest) ← readUnits rest
      return (.plain c :: units, rest)

/-- Joins halves to characters. A half without its other half is no text. -/
def joinUnits : List Unit → Option (List Char)
  | [] => some []
  | .plain c :: units => (joinUnits units).map (c :: ·)
  | .half high :: .half low :: units =>
    if high < 0xDC00 ∧ 0xDC00 ≤ low then
      (joinUnits units).map (Char.ofNat (0x10000 + (high - 0xD800) * 0x400 + (low - 0xDC00)) :: ·)
    else none
  | .half _ :: _ => none

theorem readUnits_length {text rest : List Char} {units : List Unit}
    (h : readUnits text = some (units, rest)) : rest.length < text.length := by
  fun_induction readUnits text generalizing units rest with
  | case1 => simp at h
  | case2 => grind
  | case3 _ _ _ _ _ ih =>
    simp only [Option.bind_eq_bind, Option.bind_eq_some_iff, Prod.exists] at h
    obtain ⟨_, _, _, _, read, h⟩ := h
    have := ih read
    simp only [Option.pure_def, Option.some.injEq, Prod.mk.injEq] at h
    simp only [List.length_cons, ← h.2]
    omega
  | case4 _ _ _ ih =>
    simp only [Option.bind_eq_bind, Option.bind_eq_some_iff, Prod.exists] at h
    obtain ⟨_, _, _, _, read, h⟩ := h
    have := ih read
    grind
  | case5 => simp at h
  | case6 _ _ _ _ _ _ ih =>
    simp only [Option.bind_eq_bind, Option.bind_eq_some_iff, Prod.exists] at h
    obtain ⟨_, _, read, h⟩ := h
    have := ih read
    grind

/-- A text that is not longer than another. -/
abbrev Rest (text : List Char) : Type := { rest : List Char // rest.length ≤ text.length }

/-- Reads a string behind its opening quote, as one value. -/
def readString (text : List Char) : Option (Option String × Rest text) :=
  match h : readUnits text with
  | none => none
  | some (units, rest) =>
    some ((joinUnits units).map String.ofList, ⟨rest, Nat.le_of_lt (readUnits_length h)⟩)

/-- The first character that is not blank, and the text behind it. -/
def nextVisible :
    (text : List Char) → Option (Char × { rest : List Char // rest.length < text.length })
  | [] => none
  | c :: text =>
    if isBlank c then
      (nextVisible text).map fun (d, rest) => (d, ⟨rest.1, Nat.lt_succ_of_lt rest.2⟩)
    else some (c, ⟨text, Nat.lt_succ_self _⟩)

/-- What is left of the text when an object is left behind one of its keys: blanks are passed over,
and so is a brace that closes the object there. -/
def leave (text : List Char) : List Char :=
  match nextVisible text with
  | none => []
  | some (c, rest) => if c = '\x7d' then rest.1 else c :: rest.1

/-- A word that the text must begin with. -/
def readWord (word : List Char) (draft : List Char → Draft) (text : List Char) :
    Draft × Rest text :=
  if word.isPrefixOf text then
    (draft (text.drop word.length), ⟨text.drop word.length, by simp⟩)
  else (.broken, ⟨[], Nat.zero_le _⟩)

/-- A number whose first character is already taken from the text. -/
def readNumber (first : Char) (text : List Char) : Draft × Rest text :=
  match h : Numeral.read (first :: text) with
  | none => (.broken, ⟨[], Nat.zero_le _⟩)
  | some (numeral, rest) =>
    (.number numeral.value? rest, ⟨rest, Nat.le_of_lt_succ (Numeral.read_length h)⟩)

mutual
/-- Reads a value whose first character is already taken from the text. -/
def readValue (first : Char) (text : List Char) : Draft × Rest text :=
  if first = 'n' then readWord ['u', 'l', 'l'] .null text
  else if first = 't' then readWord ['r', 'u', 'e'] (.bool true) text
  else if first = 'f' then readWord ['a', 'l', 's', 'e'] (.bool false) text
  else if first = '-' ∨ first.isDigit then readNumber first text
  else if first = '"' then
    match readString text with
    | none => (.broken, ⟨[], Nat.zero_le _⟩)
    | some (value, rest) => (.string value rest.1, rest)
  else if first = '[' then
    match nextVisible text with
    | none => (.array ('[' :: text) [.broken] [], ⟨[], Nat.zero_le _⟩)
    | some (c, rest) =>
      have := rest.2
      if c = ']' then (.array ('[' :: text) [] rest.1, ⟨rest.1, Nat.le_of_lt rest.2⟩)
      else
        let (items, behind) := readItems c rest.1
        (.array ('[' :: text) items behind.1,
          ⟨behind.1, Nat.le_trans behind.2 (Nat.le_of_lt rest.2)⟩)
  else if first = '\x7b' then
    match nextVisible text with
    | none => (.object ('\x7b' :: text) [(none, [], .broken)] [], ⟨[], Nat.zero_le _⟩)
    | some (c, rest) =>
      have := rest.2
      if c = '\x7d' then (.object ('\x7b' :: text) [] rest.1, ⟨rest.1, Nat.le_of_lt rest.2⟩)
      else
        let (fields, behind) := readFields c rest.1
        (.object ('\x7b' :: text) fields behind.1,
          ⟨behind.1, Nat.le_trans behind.2 (Nat.le_of_lt rest.2)⟩)
  else (.broken, ⟨[], Nat.zero_le _⟩)
termination_by (text.length, 0)
/-- Reads the items of an array from the first character of one, and the closing bracket. -/
def readItems (first : Char) (text : List Char) : List Draft × Rest text :=
  let (item, behind) := readValue first text
  match nextVisible behind.1 with
  | none => ([item, .broken], ⟨[], Nat.zero_le _⟩)
  | some (c, rest) =>
    have shorter := Nat.lt_of_lt_of_le rest.2 behind.2
    if c = ']' then ([item], ⟨rest.1, Nat.le_of_lt shorter⟩)
    else if c = ',' then
      match nextVisible rest.1 with
      | none => ([item, .broken], ⟨[], Nat.zero_le _⟩)
      | some (d, rest') =>
        have := Nat.lt_trans rest'.2 shorter
        let (items, behind) := readItems d rest'.1
        (item :: items, ⟨behind.1, Nat.le_trans behind.2 (Nat.le_of_lt this)⟩)
    else ([item, .broken], ⟨[], Nat.zero_le _⟩)
termination_by (text.length, 1)
/-- Reads the fields of an object from the first character of a key, and the closing brace. -/
def readFields (first : Char) (text : List Char) :
    List (Option String × List Char × Draft) × Rest text :=
  if first = '"' then
    match readString text with
    | none => ([(none, [], .broken)], ⟨[], Nat.zero_le _⟩)
    | some (key, behind) =>
      let afterKey := behind.1
      match nextVisible behind.1 with
      | none => ([(key, afterKey, .broken)], ⟨[], Nat.zero_le _⟩)
      | some (colon, rest) =>
        have shorter := Nat.lt_of_lt_of_le rest.2 behind.2
        match nextVisible rest.1 with
        | none => ([(key, afterKey, .broken)], ⟨[], Nat.zero_le _⟩)
        | some (c, rest') =>
          have shorter := Nat.lt_trans rest'.2 shorter
          if colon = ':' then
            let (value, behind) := readValue c rest'.1
            let field := (key, afterKey, value)
            match nextVisible behind.1 with
            | none => ([field, (none, [], .broken)], ⟨[], Nat.zero_le _⟩)
            | some (c, rest) =>
              have shorter := Nat.lt_trans (Nat.lt_of_lt_of_le rest.2 behind.2) shorter
              if c = '\x7d' then ([field], ⟨rest.1, Nat.le_of_lt shorter⟩)
              else if c = ',' then
                match nextVisible rest.1 with
                | none => ([field, (none, [], .broken)], ⟨[], Nat.zero_le _⟩)
                | some (d, rest') =>
                  have := Nat.lt_trans rest'.2 shorter
                  let (fields, behind) := readFields d rest'.1
                  (field :: fields, ⟨behind.1, Nat.le_trans behind.2 (Nat.le_of_lt this)⟩)
              else ([field, (none, [], .broken)], ⟨[], Nat.zero_le _⟩)
          else ([(key, afterKey, .broken)], ⟨[], Nat.zero_le _⟩)
  else ([(none, [], .broken)], ⟨[], Nat.zero_le _⟩)
termination_by (text.length, 0)
end

/-- The draft of a text, and whether nothing but white space follows its value. -/
def read (text : List Char) : Draft × Bool :=
  match nextVisible text with
  | none => (.broken, true)
  | some (first, rest) =>
    let (draft, behind) := readValue first rest.1
    (draft, behind.1.all isBlank)

end Draft

end ShapeRules
