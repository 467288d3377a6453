import ShapeRules.Json.Draft
import ShapeRules.Progress
import ShapeRules.Yaml.Cursor

/-!
The scalars of YAML texts: plain, quoted and block scalars with their folding of lines. Only line
feeds are folded; other line breaks stay in the text.
-/

namespace ShapeRules.Yaml

/-- A space or a tab. -/
def isBlank (c : Char) : Bool := c = ' ' || c = '\t'

/-- A blank, a line break, or the end of the text. -/
def endsWord : Option Char → Bool
  | none => true
  | some c => isBlank c || isBreak c

/-- A line that separates documents begins here. -/
def atMarker (cursor : Cursor) : Bool :=
  cursor.column = 1 &&
    (['-', '-', '-'].isPrefixOf cursor.rest || ['.', '.', '.'].isPrefixOf cursor.rest) &&
    endsWord (cursor.peekNth 3)

/-- The blanks and line breaks between two words of a scalar. -/
structure Gap where
  blanks : List Char
  breaks : List Char

/-- A line feed becomes a space, or is left out before other line breaks. -/
def Gap.fold (gap : Gap) : List Char :=
  match gap.breaks with
  | [] => gap.blanks
  | ['\n'] => [' ']
  | '\n' :: others => others
  | breaks => breaks

/-- Consumes blanks and line breaks. On later lines a tab must not stand left of `indent`. -/
def readGap (indent : Nat) (cursor : Cursor) : Option (Gap × Cursor) :=
  repeatStep (fun (_, cursor) => cursor.left)
    (fun (gap, cursor) =>
      match cursor.peek with
      | none => some (.inr (gap, cursor))
      | some c =>
        if isBreak c then
          some (.inl ({ gap with breaks := gap.breaks ++ [c] }, cursor.advance))
        else if !isBlank c then some (.inr (gap, cursor))
        else if gap.breaks = [] then
          some (.inl ({ gap with blanks := gap.blanks ++ [c] }, cursor.advance))
        else if c = '\t' ∧ cursor.column ≤ indent then none
        else some (.inl (gap, cursor.advance)))
    (⟨[], []⟩, cursor)

/-- An indicator of a flow collection. -/
def isFlowIndicator (c : Char) : Bool := c ∈ [',', '[', ']', '\x7b', '\x7d']

/-- The characters of a plain scalar up to the next blank or indicator. A colon inside a flow
collection must not touch an indicator. -/
def plainWord (inFlow : Bool) : List Char → Option (List Char)
  | [] => some []
  | c :: rest =>
    if endsWord (some c) then some []
    else if inFlow && c = ':' && rest.head?.any fun d => isFlowIndicator d || d = '?' then none
    else if c = ':' && endsWord rest.head? then some []
    else if inFlow && isFlowIndicator c then some []
    else (plainWord inFlow rest).map (c :: ·)

/-- Reads a plain scalar; `indent` is the column of the collection around it. Says also whether the
scalar was left on a later line than its last word. -/
def readPlain (inFlow : Bool) (indent : Nat) (cursor : Cursor) :
    Option (List Char × Bool × Cursor) :=
  repeatStep (fun (_, _, cursor) => cursor.left)
    (fun (text, gap, cursor) =>
      let finished := some (.inr (text.reverse, gap.breaks ≠ [], cursor))
      if atMarker cursor || cursor.peek = some '#' then finished
      else
        match plainWord inFlow cursor.rest with
        | none => none
        | some [] => finished
        | some word => do
          let text := word.reverse ++ gap.fold.reverse ++ text
          let cursor := cursor.skip word.length
          let (gap, behind) ← readGap indent cursor
          if gap.blanks = [] ∧ gap.breaks = [] ∨ !inFlow ∧ behind.column ≤ indent then
            some (.inr (text.reverse, gap.breaks ≠ [], behind))
          else some (.inl (text, gap, behind)))
    ([], ⟨[], []⟩, cursor)

/-- Reads a scalar in single quotes from its opening quote. A doubled quote stands for one. -/
def readSingle (cursor : Cursor) : Option (List Char × Cursor) :=
  repeatStep (fun (_, cursor) => cursor.left)
    (fun (text, cursor) =>
      if atMarker cursor then none
      else
        match cursor.rest with
        | [] => none
        | '\'' :: '\'' :: _ => some (.inl ('\'' :: text, cursor.skip 2))
        | '\'' :: _ => some (.inr (text.reverse, cursor.advance))
        | c :: _ =>
          if endsWord (some c) then do
            let (gap, behind) ← readGap 0 cursor
            some (.inl (gap.fold.reverse ++ text, behind))
          else some (.inl (c :: text, cursor.advance)))
    ([], cursor.advance)

/-- The character that an escape of one letter stands for. -/
def unescape? : Char → Option Char
  | '0' => some '\x00'
  | 'a' => some '\x07'
  | 'b' => some '\x08'
  | 't' => some '\t'
  | '\t' => some '\t'
  | 'n' => some '\n'
  | 'v' => some '\x0b'
  | 'f' => some '\x0c'
  | 'r' => some '\r'
  | 'e' => some '\x1b'
  | ' ' => some ' '
  | '"' => some '"'
  | '/' => some '/'
  | '\\' => some '\\'
  | 'N' => some '\u0085'
  | '_' => some '\u00a0'
  | 'L' => some '\u2028'
  | 'P' => some '\u2029'
  | _ => none

/-- The number of hexadecimal digits behind the letter of a numeric escape. -/
def escapeWidth? : Char → Option Nat
  | 'x' => some 2
  | 'u' => some 4
  | 'U' => some 8
  | _ => none

/-- The character with the code that hexadecimal digits name. -/
def codePoint? (digits : List Char) : Option Char := do
  let n ← digits.foldlM (fun n d => do return 16 * n + (← Draft.hexValue? d)) 0
  if n.isValidChar then some (Char.ofNat n) else none

/-- Reads a scalar in double quotes from its opening quote. -/
def readDouble (cursor : Cursor) : Option (List Char × Cursor) :=
  repeatStep (fun (_, cursor) => cursor.left)
    (fun (text, cursor) =>
      if atMarker cursor then none
      else
        match cursor.rest with
        | [] | ['\\'] => none
        | '"' :: _ => some (.inr (text.reverse, cursor.advance))
        | '\\' :: c :: rest =>
          if isBreak c then do
            let (gap, behind) ← readGap 0 cursor.advance
            some (.inl ((gap.breaks.drop 1).reverse ++ text, behind))
          else
            match escapeWidth? c with
            | some width => do
              let digits := rest.take width
              let d ← if digits.length = width then codePoint? digits else none
              some (.inl (d :: text, cursor.skip (width + 2)))
            | none => do some (.inl ((← unescape? c) :: text, cursor.skip 2))
        | c :: _ =>
          if endsWord (some c) then do
            let (gap, behind) ← readGap 0 cursor
            some (.inl (gap.fold.reverse ++ text, behind))
          else some (.inl (c :: text, cursor.advance)))
    ([], cursor.advance)

/-- What becomes of the line breaks at the end of a block scalar. -/
inductive Chomping where
  | strip
  | clip
  | keep
  deriving DecidableEq, Repr

/-- The header of a block scalar: its chomping and its indentation, as far as they are given. -/
structure BlockHeader where
  chomping : Option Chomping
  indentation : Option Nat

/-- Reads the header behind the indicator, and the rest of its line. -/
def readHeader (cursor : Cursor) : Option (BlockHeader × Cursor) :=
  let (signs, cursor) := cursor.advanceWhile fun c => c = '+' || c = '-' || c.isDigit
  let header? : Option BlockHeader :=
    match signs with
    | [] => some ⟨none, none⟩
    | [c] =>
      if c = '+' then some ⟨some .keep, none⟩
      else if c = '-' then some ⟨some .strip, none⟩
      else if c = '0' then none
      else some ⟨none, some (c.toNat - '0'.toNat)⟩
    | [c, d] =>
      let (sign, digit) := if c.isDigit then (d, c) else (c, d)
      if !digit.isDigit || digit = '0' || sign.isDigit then none
      else some ⟨some (if sign = '+' then .keep else .strip), some (digit.toNat - '0'.toNat)⟩
    | _ => none
  let (_, cursor) := cursor.advanceWhile isBlank
  let cursor := if cursor.peek = some '#' then cursor.advanceLine.2 else cursor
  if cursor.rest = [] || cursor.atBreak then header?.map fun header => (header, cursor.advance)
  else none

/-- Consumes empty lines and the indentation of the next line, at most `limit` spaces of it. Gives
the line breaks and the deepest indentation met. A tab in the indentation is a fault. -/
def readIndentation (limit : Option Nat) (cursor : Cursor) :
    Option ((List Char × Nat) × Cursor) :=
  repeatStep (fun (_, _, cursor) => cursor.left)
    (fun (breaks, deepest, cursor) =>
      let spaces := (cursor.rest.takeWhile (· = ' ')).length
      let inside := cursor.skip (match limit with | none => spaces | some n => min n spaces)
      let depth := inside.column - 1
      let deepest := max deepest depth
      if inside.peek = some '\t' && limit.all fun n => depth < n then none
      else if inside.atBreak then
        some (.inl (breaks ++ inside.rest.take 1, deepest, inside.advance))
      else some (.inr ((breaks, deepest), inside)))
    ([], 0, cursor)

/-- The text read of a block scalar, and the line breaks behind it that are not yet part of it. -/
structure BlockText where
  /-- The last character comes first. -/
  text : List Char
  /-- The break that ends the last line, unless the document ends there. -/
  lastBreak : List Char
  /-- The breaks of the empty lines behind it. -/
  emptyLines : List Char
  /-- The last line began with a blank. -/
  wasBlank : Bool

/-- The text of a block scalar whose last line is read. -/
def BlockText.finish (block : BlockText) (chomping : Chomping) : List Char :=
  block.text.reverse ++
    match chomping with
    | .strip => []
    | .clip => block.lastBreak
    | .keep => block.lastBreak ++ block.emptyLines

/-- Appends a line, the last character first. In a folded scalar the line feed between two lines
that begin with no blank becomes a space, or nothing if empty lines follow it. -/
def BlockText.append (block : BlockText) (isFolded : Bool) (line : List Char) : List Char :=
  let joint :=
    if isFolded ∧ block.lastBreak = ['\n'] ∧ !block.wasBlank ∧ !line.head?.any isBlank then
      if block.emptyLines = [] then [' '] else []
    else block.lastBreak
  (joint ++ block.emptyLines ++ line).reverse ++ block.text

/-- Reads one line of a block scalar whose lines stand `depth` spaces deep, or ends it. -/
def readLine (isFolded : Bool) (chomping : Chomping) (depth : Nat) :
    BlockText × Cursor → Option ((BlockText × Cursor) ⊕ (List Char × Cursor))
  | (block, cursor) =>
    if cursor.column = depth + 1 ∧ cursor.rest ≠ [] then do
      let (line, cursor) := cursor.advanceLine
      let lastBreak := cursor.rest.take 1
      let ((breaks, _), cursor) ← readIndentation (some depth) cursor.advance
      some (.inl (⟨block.append isFolded line, lastBreak, breaks, line.head?.any isBlank⟩, cursor))
    else some (.inr (block.finish chomping, cursor))

/-- Reads a block scalar from its indicator; `indent` is the column of the collection around it. -/
def readBlock (isFolded : Bool) (indent : Nat) (cursor : Cursor) : Option (List Char × Cursor) := do
  let (header, cursor) ← readHeader cursor.advance
  let given := header.indentation.map fun n => indent - 1 + n
  let ((breaks, deepest), cursor) ← readIndentation given cursor
  let depth := given.getD (max deepest (max indent 1))
  repeatStep (fun (_, cursor) => cursor.left)
    (readLine isFolded (header.chomping.getD .clip) depth) (⟨[], [], breaks, false⟩, cursor)

end ShapeRules.Yaml
