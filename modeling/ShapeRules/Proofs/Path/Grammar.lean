import ShapeRules.Path.Basic
import ShapeRules.Proofs.Text.Ascii
import ShapeRules.Text.Space

/-!
The grammar of paths, rule by rule as it is documented: which texts spell which arguments, segments
and paths. It says nothing about the order in which a reader looks at the characters.
-/

namespace ShapeRules

namespace Path

/-- An ASCII letter or digit, or an underscore. -/
def IsWord (c : Char) : Prop :=
  ('A' ≤ c ∧ c ≤ 'Z') ∨ ('a' ≤ c ∧ c ≤ 'z') ∨ ('0' ≤ c ∧ c ≤ '9') ∨ c = '_'

/-- A character that an argument may hold without quotes. -/
def IsRaw (c : Char) : Prop :=
  Text.isSpace c = false ∧
    c ∉ ['(', ')', ',', '[', ']', '\x7b', '\x7d', '"', '\'', '@']

/-- A nonempty run of letters, digits and underscores. -/
def Word (text : List Char) : Prop := text ≠ [] ∧ ∀ c ∈ text, IsWord c

/-- Nothing but white space. -/
def Blank (text : List Char) : Prop := ∀ c ∈ text, Text.isSpace c = true

/-- The character behind a backslash and the one that both stand for. -/
inductive Escape : Char → Char → Prop
  | backslash : Escape '\\' '\\'
  | doubleQuote : Escape '"' '"'
  | singleQuote : Escape '\'' '\''
  | newline : Escape 'n' '\n'
  | tab : Escape 't' '\t'

/-- What stands between two quotes, and the string that it spells. -/
inductive SpellsQuoted (quote : Char) : List Char → List Char → Prop
  | nil : SpellsQuoted quote [] []
  | plain {c : Char} {text value : List Char} (hquote : c ≠ quote) (hslash : c ≠ '\\')
      (htext : SpellsQuoted quote text value) : SpellsQuoted quote (c :: text) (c :: value)
  | escape {c d : Char} {text value : List Char} (hescape : Escape c d)
      (htext : SpellsQuoted quote text value) : SpellsQuoted quote ('\\' :: c :: text) (d :: value)

/-- An argument is a string in quotes of either kind, or a nonempty run of raw characters. -/
inductive SpellsArgument : List Char → List Char → Prop
  | quoted {quote : Char} {text value : List Char} (hquote : quote = '"' ∨ quote = '\'')
      (htext : SpellsQuoted quote text value) : SpellsArgument (quote :: text ++ [quote]) value
  | raw {text : List Char} (hne : text ≠ []) (hraw : ∀ c ∈ text, IsRaw c) :
      SpellsArgument text text

/-- One argument or more, with commas between them and white space around each. -/
inductive SpellsSome : List Char → List String → Prop
  | one {front text back value : List Char} (hfront : Blank front)
      (htext : SpellsArgument text value) (hback : Blank back) :
      SpellsSome (front ++ text ++ back) [String.ofList value]
  | more {front text back value others : List Char} {values : List String} (hfront : Blank front)
      (htext : SpellsArgument text value) (hback : Blank back)
      (hothers : SpellsSome others values) :
      SpellsSome (front ++ text ++ back ++ ',' :: others) (String.ofList value :: values)

/-- The arguments between two parentheses. -/
inductive SpellsArguments : List Char → List String → Prop
  | none {text : List Char} (hblank : Blank text) : SpellsArguments text []
  | some {text : List Char} {values : List String} (hsome : SpellsSome text values) :
      SpellsArguments text values

/-- A literal is a nonempty text in square brackets, without the closing one. -/
inductive SpellsLiteral : List Char → Segment → Prop
  | literal {text : List Char} (hne : text ≠ []) (hclose : ']' ∉ text) :
      SpellsLiteral ('[' :: text ++ [']']) (.literal (String.ofList text))

/-- A call names one of the accessors and passes as many arguments as that takes. -/
inductive SpellsSegment : List Char → Segment → Prop
  | wildcard : SpellsSegment ['*'] .wildcard
  | key {text : List Char} (hword : Word text) : SpellsSegment text (.key (String.ofList text))
  | call {accessor : Accessor} {text : List Char} {values : List String}
      (hvalues : SpellsArguments text values) (harity : values.length = accessor.arity) :
      SpellsSegment (accessor.word.toList ++ '(' :: text ++ [')']) (.call accessor values)
  | literal {text : List Char} {segment : Segment} (hliteral : SpellsLiteral text segment) :
      SpellsSegment text segment

/-- The segments behind the first: each follows a separator, and a literal may do without one. -/
inductive SpellsOthers : List Char → List Segment → Prop
  | nil : SpellsOthers [] []
  | separated {separator : Char} {text others : List Char} {segment : Segment}
      {segments : List Segment} (hseparator : separator = '.' ∨ separator = '|')
      (hsegment : SpellsSegment text segment) (hothers : SpellsOthers others segments) :
      SpellsOthers (separator :: text ++ others) (segment :: segments)
  | literal {text others : List Char} {segment : Segment} {segments : List Segment}
      (hliteral : SpellsLiteral text segment) (hothers : SpellsOthers others segments) :
      SpellsOthers (text ++ others) (segment :: segments)

/-- A path without its sign and braces. -/
inductive SpellsBody : List Char → Path → Prop
  | body {text others : List Char} {segment : Segment} {segments : List Segment}
      (hsegment : SpellsSegment text segment) (hothers : SpellsOthers others segments) :
      SpellsBody (text ++ others) ⟨segment :: segments⟩

/-- A scoped attribute: a sign and a path, which may stand in braces. -/
inductive SpellsAttribute : List Char → Path → Prop
  | signed {text : List Char} {path : Path} (hbody : SpellsBody text path) :
      SpellsAttribute ('@' :: text) path
  | braced {text : List Char} {path : Path} (hbody : SpellsBody text path) :
      SpellsAttribute ('@' :: '\x7b' :: text ++ ['\x7d']) path

/-- The text denotes the path, as a scoped attribute or without its sign. -/
inductive Derives : List Char → Path → Prop
  | bare {text : List Char} {path : Path} (hbody : SpellsBody text path) : Derives text path
  | expression {text : List Char} {path : Path} (hattribute : SpellsAttribute text path) :
      Derives text path

end Path

/-- A segment that some text spells. -/
def Segment.WellFormed : Segment → Prop
  | .key name => Path.Word name.toList
  | .wildcard => True
  | .call accessor arguments => arguments.length = accessor.arity
  | .literal text => text ≠ "" ∧ ']' ∉ text.toList

/-- A path with at least one segment, all of them well formed. -/
structure Path.WellFormed (path : Path) : Prop where
  nonempty : path.segments ≠ []
  segments : ∀ segment ∈ path.segments, segment.WellFormed

namespace Path

theorem isWordChar_iff (c : Char) : isWordChar c = true ↔ IsWord c := by
  rw [isWordChar, Bool.or_eq_true, Text.isAlphanum_iff, Text.isAlpha_iff, Text.isDigit_iff,
    decide_eq_true_eq, IsWord, or_assoc, or_assoc]

instance (text : List Char) : Decidable (Word text) :=
  decidable_of_iff (text ≠ [] ∧ text.all isWordChar = true) (by
    simp only [Word, List.all_eq_true, isWordChar_iff])

instance : DecidablePred Segment.WellFormed
  | .key name => inferInstanceAs (Decidable (Word name.toList))
  | .wildcard => .isTrue trivial
  | .call accessor arguments => inferInstanceAs (Decidable (arguments.length = accessor.arity))
  | .literal text => inferInstanceAs (Decidable (text ≠ "" ∧ ']' ∉ text.toList))

instance (path : Path) : Decidable path.WellFormed :=
  decidable_of_iff (path.segments ≠ [] ∧ ∀ segment ∈ path.segments, segment.WellFormed)
    ⟨fun h => ⟨h.1, h.2⟩, fun h => ⟨h.nonempty, h.segments⟩⟩

theorem SpellsBody.of_word {text : List Char} (h : Word text) :
    SpellsBody text ⟨[.key (String.ofList text)]⟩ := by
  have hbody := SpellsBody.body (.key h) .nil
  rwa [List.append_nil] at hbody

theorem SpellsLiteral.wellFormed {text : List Char} {segment : Segment}
    (h : SpellsLiteral text segment) : segment.WellFormed := by
  obtain ⟨hne, hclose⟩ := h
  exact ⟨by simpa using hne, by simpa using hclose⟩

theorem SpellsSegment.wellFormed {text : List Char} {segment : Segment}
    (h : SpellsSegment text segment) : segment.WellFormed := by
  cases h with
  | wildcard => trivial
  | key hword => simpa [Segment.WellFormed] using hword
  | call _ harity => exact harity
  | literal hliteral => exact hliteral.wellFormed

theorem SpellsOthers.wellFormed {text : List Char} {segments : List Segment}
    (h : SpellsOthers text segments) : ∀ segment ∈ segments, segment.WellFormed := by
  induction h with
  | nil => simp
  | separated _ hsegment _ ih => exact List.forall_mem_cons.mpr ⟨hsegment.wellFormed, ih⟩
  | literal hliteral _ ih => exact List.forall_mem_cons.mpr ⟨hliteral.wellFormed, ih⟩

theorem SpellsBody.wellFormed {text : List Char} {path : Path} (h : SpellsBody text path) :
    path.WellFormed := by
  obtain ⟨hsegment, hothers⟩ := h
  exact ⟨by simp, List.forall_mem_cons.mpr ⟨hsegment.wellFormed, hothers.wellFormed⟩⟩

theorem SpellsAttribute.wellFormed {text : List Char} {path : Path}
    (h : SpellsAttribute text path) : path.WellFormed := by
  obtain hbody | hbody := h <;> exact hbody.wellFormed

theorem Derives.wellFormed {text : List Char} {path : Path} (h : Derives text path) :
    path.WellFormed := by
  obtain hbody | hattribute := h
  · exact hbody.wellFormed
  · exact hattribute.wellFormed

/-! ### The length of a spelling -/

theorem SpellsSegment.ne_nil {text : List Char} {segment : Segment}
    (h : SpellsSegment text segment) : text ≠ [] := by
  cases h with
  | wildcard => simp
  | key hword => exact hword.1
  | call => simp
  | literal hliteral =>
    obtain ⟨_, _⟩ := hliteral
    simp

theorem SpellsOthers.length_le {text : List Char} {segments : List Segment}
    (h : SpellsOthers text segments) : segments.length ≤ text.length := by
  induction h with
  | nil => exact Nat.le_refl _
  | separated =>
    simp only [List.length_cons, List.cons_append, List.length_append]
    omega
  | literal hliteral _ ih =>
    have hpos := List.length_pos_iff.mpr (SpellsSegment.literal hliteral).ne_nil
    simp only [List.length_cons, List.length_append]
    omega

/-- A path has no more segments than the text that spells it has characters. -/
theorem SpellsBody.length_le {text : List Char} {path : Path} (h : SpellsBody text path) :
    path.segments.length ≤ text.length := by
  obtain ⟨hsegment, hothers⟩ := h
  have hpos := List.length_pos_iff.mpr hsegment.ne_nil
  have hlength := hothers.length_le
  simp only [List.length_cons, List.length_append]
  omega

theorem SpellsAttribute.length_lt {text : List Char} {path : Path}
    (h : SpellsAttribute text path) : path.segments.length < text.length := by
  cases h with
  | signed hbody => exact Nat.lt_succ_of_le hbody.length_le
  | braced hbody =>
    have hlength := hbody.length_le
    simp only [List.cons_append, List.length_cons, List.length_append]
    omega

theorem Derives.length_le {text : List Char} {path : Path} (h : Derives text path) :
    path.segments.length ≤ text.length := by
  cases h with
  | bare hbody => exact hbody.length_le
  | expression hattribute => exact Nat.le_of_lt hattribute.length_lt

end Path

end ShapeRules
