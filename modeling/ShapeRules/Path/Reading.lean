import ShapeRules.Path.Canonical
import ShapeRules.Path.Complaint
import ShapeRules.Text.Cursor

/-!
Reading paths. Every reader takes the text that is left and gives what it read with the text behind
it, or a fault. Each reading consumes at least one character, which is why the readers end.
-/

namespace ShapeRules

/-- What was read and the text behind it, or a fault. -/
abbrev Reading (α : Type) : Type := Except Fault (α × List Char)

namespace Path

/-- The text begins with a segment. -/
def startsSegment : List Char → Bool
  | [] => false
  | c :: _ => isWordChar c || c = '*' || c = '['

/-- The character that an escape stands for. -/
def unescape? : Char → Option Char
  | '\\' => some '\\'
  | '"' => some '"'
  | '\'' => some '\''
  | 'n' => some '\n'
  | 't' => some '\t'
  | _ => none

/-- Reads a string up to its closing quote; `opening` is the text from its opening quote. -/
def quoted (quote : Char) (opening : List Char) : List Char → Reading (List Char)
  | [] => .error ⟨.unterminatedString, opening, []⟩
  | c :: rest =>
    if c = quote then .ok ([], rest)
    else if c = '\\' then
      match rest with
      | [] => .error ⟨.unterminatedString, opening, []⟩
      | escaped :: rest' =>
        match unescape? escaped with
        | none => .error ⟨.invalidEscape escaped, c :: rest, rest'⟩
        | some d =>
          match quoted quote opening rest' with
          | .ok (value, rest) => .ok (d :: value, rest)
          | .error fault => .error fault
    else
      match quoted quote opening rest with
      | .ok (value, rest) => .ok (c :: value, rest)
      | .error fault => .error fault

/-- Reads one argument; `opening` is the text from the parenthesis that opened the arguments. -/
def argument (opening : List Char) : List Char → Reading (List Char)
  | [] => .error ⟨.unterminated '(', opening, []⟩
  | c :: rest =>
    if c = '"' ∨ c = '\'' then quoted c (c :: rest) rest
    else if isBareChar c then
      .ok ((c :: rest).takeWhile isBareChar, (c :: rest).dropWhile isBareChar)
    else .error ⟨.unexpected c .argument, c :: rest, c :: rest⟩

/-- The text behind the white space at its beginning. -/
def skipSpace (text : List Char) : List Char :=
  text.dropWhile Text.isSpace

theorem quoted_length {quote : Char} {opening text value rest : List Char}
    (h : quoted quote opening text = .ok (value, rest)) : rest.length < text.length := by
  fun_induction quoted quote opening text generalizing value rest <;> grind

theorem argument_length {opening text value rest : List Char}
    (h : argument opening text = .ok (value, rest)) : rest.length < text.length := by
  fun_cases argument opening text with
  | case1 => simp [argument] at h
  | case2 c tail quote =>
    have := quoted_length (by simpa [argument, quote] using h)
    simp only [List.length_cons]
    omega
  | case3 c tail noQuote bare =>
    have := (List.dropWhile_sublist (l := tail) isBareChar).length_le
    simp only [argument, noQuote, bare, List.dropWhile_cons] at h
    grind
  | case4 c tail noQuote notBare => simp [argument, noQuote, notBare] at h

theorem skipSpace_length (text : List Char) : (skipSpace text).length ≤ text.length :=
  (List.dropWhile_sublist _).length_le

private theorem length_of_skipSpace {c : Char} {text rest : List Char}
    (h : skipSpace text = c :: rest) : rest.length < text.length := by
  have := skipSpace_length text
  simp only [h, List.length_cons] at this
  omega

/-- Reads at least one argument and the parenthesis behind the last. -/
def moreArguments (opening text : List Char) : Reading (List String) :=
  match hread : argument opening (skipSpace text) with
  | .error fault => .error fault
  | .ok (value, behind) =>
    match hnext : skipSpace behind with
    | [] => .error ⟨.unterminated '(', opening, []⟩
    | ',' :: rest =>
      have : rest.length < text.length :=
        Nat.lt_trans (length_of_skipSpace hnext)
          (Nat.lt_of_lt_of_le (argument_length hread) (skipSpace_length text))
      match moreArguments opening rest with
      | .ok (values, rest) => .ok (String.ofList value :: values, rest)
      | .error fault => .error fault
    | ')' :: rest => .ok ([String.ofList value], rest)
    | c :: rest => .error ⟨.unexpected c .argumentEnd, c :: rest, c :: rest⟩
termination_by text.length

/-- Reads the arguments of a call behind its opening parenthesis. -/
def arguments (opening text : List Char) : Reading (List String) :=
  match skipSpace text with
  | ')' :: rest => .ok ([], rest)
  | text => moreArguments opening text

/-- Reads a literal; the text begins with its opening bracket. -/
def literal (text : List Char) : Reading Segment :=
  let name := text.tail.takeWhile (· ≠ ']')
  match text.tail.dropWhile (· ≠ ']') with
  | [] => .error ⟨.unterminated '[', text, []⟩
  | _ :: rest =>
    if name = [] then .error ⟨.emptyLiteral, text, rest⟩
    else .ok (.literal (String.ofList name), rest)

/-- Reads the arguments of a call. `start` is the text from the accessor's word, `opening` the text
from its parenthesis. -/
def call (start : List Char) (word : String) (opening : List Char) : Reading Segment :=
  match Accessor.ofWord? word with
  | none => .error ⟨.unknownAccessor word, start, opening⟩
  | some accessor =>
    match arguments opening opening.tail with
    | .error fault => .error fault
    | .ok (values, rest) =>
      if values.length = accessor.arity then .ok (.call accessor values, rest)
      else .error ⟨.wrongArity accessor values.length, start, rest⟩

def segment : List Char → Reading Segment
  | [] => .error ⟨.endOfInput, [], []⟩
  | '*' :: rest => .ok (.wildcard, rest)
  | '[' :: rest => literal ('[' :: rest)
  | c :: rest =>
    if isWordChar c then
      let word := String.ofList ((c :: rest).takeWhile isWordChar)
      match (c :: rest).dropWhile isWordChar with
      | '(' :: behind => call (c :: rest) word ('(' :: behind)
      | behind => .ok (.key word, behind)
    else .error ⟨.unexpected c .segment, c :: rest, c :: rest⟩

/-- The text from the segment that continues a path. Outside braces a dot continues a path only
where a segment follows it. -/
def continuation? (braced : Bool) : List Char → Option (List Char)
  | '[' :: rest => some ('[' :: rest)
  | '|' :: rest => some rest
  | '.' :: rest => if braced || startsSegment rest then some rest else none
  | _ => none

theorem continuation?_length {braced : Bool} {text next : List Char}
    (h : continuation? braced text = some next) : next.length ≤ text.length := by
  fun_cases continuation? braced text <;> grind [continuation?]

theorem literal_length {text rest : List Char} {segment : Segment}
    (h : literal text = .ok (segment, rest)) : rest.length < text.length := by
  have := (List.dropWhile_sublist (l := text.tail) (· ≠ ']')).length_le
  grind [literal]

theorem moreArguments_length {opening text rest : List Char} {values : List String}
    (h : moreArguments opening text = .ok (values, rest)) : rest.length < text.length := by
  fun_induction moreArguments opening text generalizing values rest with
  | case1 => simp at h
  | case2 => simp at h
  | case3 _ _ _ _ _ _ shorter _ _ hmore ih =>
    simp only [Except.ok.injEq, Prod.mk.injEq] at h
    have := ih (h.2 ▸ hmore)
    omega
  | case4 => simp at h
  | case5 text value behind hread close hnext =>
    have := length_of_skipSpace hnext
    have := argument_length hread
    have := skipSpace_length text
    simp only [Except.ok.injEq, Prod.mk.injEq] at h
    grind
  | case6 => simp at h

theorem arguments_length {opening text rest : List Char} {values : List String}
    (h : arguments opening text = .ok (values, rest)) : rest.length < text.length := by
  have := skipSpace_length text
  unfold arguments at h
  split at h
  · rename_i close hclose
    have := length_of_skipSpace hclose
    grind
  · have := moreArguments_length h
    omega

theorem call_length {start opening rest : List Char} {word : String} {segment : Segment}
    (h : call start word opening = .ok (segment, rest)) : rest.length < opening.tail.length := by
  unfold call at h
  split at h
  · simp at h
  · split at h
    · simp at h
    · rename_i values behind hread
      have := arguments_length hread
      grind

theorem segment_length {text rest : List Char} {segment : Segment}
    (h : Path.segment text = .ok (segment, rest)) : rest.length < text.length := by
  unfold Path.segment at h
  split at h
  · simp at h
  · grind
  · exact literal_length h
  · rename_i c tail _ _
    have := (List.dropWhile_sublist (l := tail) isWordChar).length_le
    split at h
    · rename_i word
      simp only [List.dropWhile_cons, word, if_true] at h
      split at h
      · rename_i behind hbehind
        have := call_length h
        grind
      · grind
    · simp at h

/-- Reads the segments behind the first. -/
def moreSegments (braced : Bool) (text : List Char) : Reading (List Segment) :=
  match hnext : continuation? braced text with
  | none => .ok ([], text)
  | some next =>
    match hread : segment next with
    | .error fault => .error fault
    | .ok (first, behind) =>
      have : behind.length < text.length :=
        Nat.lt_of_lt_of_le (segment_length hread) (continuation?_length hnext)
      match moreSegments braced behind with
      | .ok (others, rest) => .ok (first :: others, rest)
      | .error fault => .error fault
termination_by text.length

/-- Reads a path without its sign and braces. -/
def body (braced : Bool) (text : List Char) : Reading Path :=
  match segment text with
  | .error fault => .error fault
  | .ok (first, behind) =>
    match moreSegments braced behind with
    | .error fault => .error fault
    | .ok (others, rest) => .ok (⟨first :: others⟩, rest)

/-- Reads a scoped attribute: its sign and a path, which may stand in braces. -/
def scopedAttribute : List Char → Reading Path
  | '@' :: '\x7b' :: inner =>
    let opening := '\x7b' :: inner
    if '\x7d' ∈ inner then
      match body true inner with
      | .error fault => .error fault
      | .ok (path, '\x7d' :: rest) => .ok (path, rest)
      | .ok (_, []) => .error ⟨.unterminated '\x7b', opening, []⟩
      | .ok (_, c :: rest) => .error ⟨.unexpected c .closingBrace, c :: rest, c :: rest⟩
    else .error ⟨.unterminated '\x7b', opening, inner⟩
  | '@' :: rest =>
    if startsSegment rest then body false rest else .error ⟨.noPath, rest, rest⟩
  | text => .error ⟨.noSign, text, text⟩

theorem moreSegments_length {braced : Bool} {text rest : List Char} {segments : List Segment}
    (h : moreSegments braced text = .ok (segments, rest)) : rest.length ≤ text.length := by
  fun_induction moreSegments braced text generalizing segments rest with
  | case1 => grind
  | case2 => simp at h
  | case3 _ _ _ _ _ _ shorter _ _ hmore ih =>
    simp only [Except.ok.injEq, Prod.mk.injEq] at h
    have := ih (h.2 ▸ hmore)
    omega
  | case4 => simp at h

theorem body_length {braced : Bool} {text rest : List Char} {path : Path}
    (h : body braced text = .ok (path, rest)) : rest.length < text.length := by
  unfold body at h
  split at h
  · simp at h
  · rename_i hfirst
    have := segment_length hfirst
    split at h
    · simp at h
    · rename_i hmore
      have := moreSegments_length hmore
      grind

theorem scopedAttribute_length {text rest : List Char} {path : Path}
    (h : scopedAttribute text = .ok (path, rest)) : rest.length + 2 ≤ text.length := by
  unfold scopedAttribute at h
  split at h
  · simp only at h
    split at h
    · split at h
      · simp at h
      · rename_i hbody
        have := body_length hbody
        grind
      · simp at h
      · simp at h
    · simp at h
  · split at h
    · have := body_length h
      grind
    · simp at h
  · simp at h

/-- Reads a text that is a path from end to end, with or without its sign. -/
def whole (text : List Char) : Except Fault Path :=
  match if text.head? = some '@' then scopedAttribute text else body false text with
  | .error fault => .error fault
  | .ok (path, []) => .ok path
  | .ok (_, c :: rest) => .error ⟨.unexpected c .endOfPath, c :: rest, c :: rest⟩

def parse (text : String) : Except SyntaxError Path :=
  (whole text.toList).mapError (·.toSyntaxError text.toList)

end Path

/-- Reads a scoped attribute at the cursor, which stays where reading stopped. -/
def Cursor.scopedAttribute (cursor : Cursor) : Except SyntaxError Path × Cursor :=
  match Path.scopedAttribute cursor.rest with
  | .ok (path, rest) => (.ok path, cursor.advanceTo rest)
  | .error fault =>
    (.error ⟨(cursor.advanceTo fault.site).location, fault.complaint⟩,
      cursor.advanceTo fault.unread)

end ShapeRules
