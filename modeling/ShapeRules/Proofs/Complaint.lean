import ShapeRules.Proofs.Path.Faults
import ShapeRules.Proofs.Template.Normal
import ShapeRules.Proofs.Text.Location

/-!
What complaints say of the place that they are made at. A complaint that names a character, a
bracket or an accessor stands right before it, and one about something missing where that is missed.
-/

namespace ShapeRules

/-- The words of a complaint fit the text before a place and the text from it. -/
inductive Indicates : String → List Char → List Char → Prop
  | bracket {opener : Char} (hopener : opener ∈ ['[', '(', '\x7b']) (before behind : List Char) :
      Indicates ("unterminated '" ++ opener.toString ++ "'") before (opener :: behind)
  | string {quote : Char} (hquote : quote = '"' ∨ quote = '\'') (before behind : List Char) :
      Indicates "unterminated string" before (quote :: behind)
  | emptyLiteral (before behind : List Char) :
      Indicates "empty literal '[]'" before ('[' :: ']' :: behind)
  | unexpected (c : Char) (others : String) (before behind : List Char) :
      Indicates ("unexpected character '" ++ c.toString ++ "'" ++ others) before (c :: behind)
  | endOfInput (before : List Char) :
      Indicates "unexpected end of input, expected a path segment" before []
  | escape (c : Char) (before behind : List Char) :
      Indicates ("invalid escape '\\" ++ c.toString ++ "'") before ('\\' :: c :: behind)
  | unknown {word : List Char} (hword : Path.Word word) (others : String)
      (before behind : List Char) :
      Indicates ("unknown function '" ++ String.ofList word ++ "'" ++ others) before
        (word ++ '(' :: behind)
  | arity (accessor : Accessor) (others : String) (before behind : List Char) :
      Indicates ("function '" ++ accessor.word ++ "' expects " ++ others) before
        (accessor.word.toList ++ '(' :: behind)
  | noPath (before : List Char) {behind : List Char}
      (hbehind : ∀ c ∈ behind.head?, c ≠ '\x7b' ∧ ¬ Path.IsWord c ∧ c ≠ '*' ∧ c ≠ '[') :
      Indicates "expected a scoped attribute path after '@'" (before ++ ['@']) behind

namespace Indicates

/-- What stands further to the front does not matter. -/
theorem append {words : String} {before behind : List Char} (h : Indicates words before behind)
    (front : List Char) : Indicates words (front ++ before) behind := by
  cases h with
  | bracket hopener _ behind => exact .bracket hopener _ behind
  | string hquote _ behind => exact .string hquote _ behind
  | emptyLiteral _ behind => exact .emptyLiteral _ behind
  | unexpected c others _ behind => exact .unexpected c others _ behind
  | endOfInput => exact .endOfInput _
  | escape c _ behind => exact .escape c _ behind
  | unknown hword others _ behind => exact .unknown hword others _ behind
  | arity accessor others _ behind => exact .arity accessor others _ behind
  | noPath before hbehind =>
    rw [← List.append_assoc]
    exact .noPath _ hbehind

theorem of_unexpected (c : Char) (wanted : Wanted) (before behind : List Char) :
    Indicates (Complaint.unexpected c wanted).message before (c :: behind) := by
  obtain ⟨others, hmessage⟩ : ∃ others, (Complaint.unexpected c wanted).message =
      "unexpected character '" ++ c.toString ++ ("'" ++ others) := by
    cases wanted with
    | segment => exact ⟨", expected a path segment", rfl⟩
    | argument => exact ⟨", expected an argument", rfl⟩
    | argumentEnd => exact ⟨" in arguments", rfl⟩
    | closingBrace => exact ⟨", expected '\x7d'", rfl⟩
    | endOfPath => exact ⟨" after path", rfl⟩
  rw [hmessage, ← String.append_assoc]
  exact .unexpected c others before behind

theorem of_unknown {word : String} (hword : Path.Word word.toList) (before behind : List Char) :
    Indicates (Complaint.unknownAccessor word).message before
      (word.toList ++ '(' :: behind) := by
  have hmessage : (Complaint.unknownAccessor word).message =
      "unknown function '" ++ String.ofList word.toList ++ ("'" ++ ", expected one of: ") ++
        ", ".intercalate (Accessor.all.map Accessor.word) := by
    rw [String.ofList_toList]
    rfl
  rw [hmessage, ← String.append_assoc, String.append_assoc]
  exact .unknown hword _ before behind

theorem of_arity (accessor : Accessor) (given : Nat) (before behind : List Char) :
    Indicates (Complaint.wrongArity accessor given).message before
      (accessor.word.toList ++ '(' :: behind) := by
  have hmessage : (Complaint.wrongArity accessor given).message =
      "function '" ++ accessor.word ++ "' expects " ++ toString accessor.arity ++
        " argument(s), got " ++ toString given := rfl
  rw [hmessage, String.append_assoc, String.append_assoc]
  exact .arity accessor _ before behind

end Indicates

namespace Path

open Text

variable {fault : Fault} {text tail : List Char}

theorem quoted_indicates {quote : Char} (hquote : quote = '"' ∨ quote = '\'')
    {opening : List Char} (hopening : opening = quote :: tail)
    (h : quoted quote opening text = .error fault) (before : List Char) :
    Indicates fault.complaint.message before fault.site := by
  fun_induction quoted quote opening text with
  | case1 =>
    cases h
    rw [hopening]
    exact .string hquote before tail
  | case2 => cases h
  | case3 =>
    cases h
    rw [hopening]
    exact .string hquote before tail
  | case4 escaped behind =>
    cases h
    exact .escape escaped before behind
  | case5 => cases h
  | case6 c behind d hescape fault' hread _ ih =>
    cases h
    exact ih hread
  | case7 => cases h
  | case8 c rest _ _ fault' hread ih =>
    cases h
    exact ih hread

theorem argument_indicates (h : argument ('(' :: tail) text = .error fault)
    (before : List Char) : Indicates fault.complaint.message before fault.site := by
  unfold argument at h
  split at h
  · cases h
    exact .bracket (by decide) before tail
  · rename_i c rest
    split_ifs at h with hquote hbare
    · exact quoted_indicates hquote rfl h before
    · cases h
      exact .of_unexpected c .argument before rest

theorem moreArguments_indicates (h : moreArguments ('(' :: tail) text = .error fault)
    (before : List Char) : Indicates fault.complaint.message before fault.site := by
  generalize hopening : '(' :: tail = opening at h
  fun_induction moreArguments opening text with
  | case1 text fault' hread =>
    cases h
    rw [← hopening] at hread
    exact argument_indicates hread before
  | case2 =>
    cases h
    rw [← hopening]
    exact .bracket (by decide) before tail
  | case3 => cases h
  | case4 text value behind hread others hnext _ fault' hmore ih =>
    cases h
    exact ih hmore
  | case5 => cases h
  | case6 text value behind hread c others =>
    cases h
    exact .of_unexpected c .argumentEnd before others

theorem arguments_indicates (h : arguments ('(' :: tail) text = .error fault)
    (before : List Char) : Indicates fault.complaint.message before fault.site := by
  unfold arguments at h
  split at h
  · cases h
  · exact moreArguments_indicates h before

theorem literal_indicates (h : literal ('[' :: text) = .error fault) (before : List Char) :
    Indicates fault.complaint.message before fault.site := by
  unfold literal at h
  dsimp only [List.tail_cons] at h
  split at h
  · cases h
    exact .bracket (by decide) before text
  · rename_i c rest hdrop
    split_ifs at h with hname
    cases h
    -- The closing bracket stands right behind the opening one.
    have hsplit := List.takeWhile_append_dropWhile (p := (· ≠ ']')) (l := text)
    have hstops := stops_dropWhile (p := (· ≠ ']')) text
    rw [hdrop] at hstops
    rw [hname, hdrop, List.nil_append] at hsplit
    obtain rfl : c = ']' := by simpa using hstops
    rw [← hsplit]
    exact .emptyLiteral before rest

theorem call_indicates {word : String} (hword : Word word.toList)
    (h : call (word.toList ++ '(' :: tail) word ('(' :: tail) = .error fault)
    (before : List Char) : Indicates fault.complaint.message before fault.site := by
  unfold call at h
  split at h
  · cases h
    exact .of_unknown hword before tail
  · rename_i accessor haccessor
    split at h
    · rename_i hread
      cases h
      exact arguments_indicates hread before
    · split_ifs at h
      cases h
      have hnamed : accessor.word = word := by simpa using List.find?_some haccessor
      rw [← hnamed]
      exact .of_arity accessor _ before tail

theorem segment_indicates (h : Path.segment text = .error fault) (before : List Char) :
    Indicates fault.complaint.message before fault.site := by
  unfold Path.segment at h
  split at h
  · cases h
    exact .endOfInput before
  · cases h
  · exact literal_indicates h before
  · rename_i c rest _ _
    split_ifs at h with hc
    · dsimp only at h
      split at h
      · rename_i behind hbehind
        have hsplit := List.takeWhile_append_dropWhile (p := isWordChar) (l := c :: rest)
        have hword : Word ((c :: rest).takeWhile isWordChar) := by
          refine ⟨by simp [hc], fun d hd => (isWordChar_iff d).mp (List.mem_takeWhile_imp hd)⟩
        rw [← String.toList_ofList (l := (c :: rest).takeWhile isWordChar)] at hsplit hword
        rw [hbehind] at hsplit
        nth_rewrite 1 [← hsplit] at h
        exact call_indicates hword h before
      · cases h
    · cases h
      exact .of_unexpected c .segment before rest

theorem moreSegments_indicates {braced : Bool} (h : moreSegments braced text = .error fault)
    (before : List Char) : Indicates fault.complaint.message before fault.site := by
  fun_induction moreSegments braced text with
  | case1 => cases h
  | case2 text next hnext fault' hread =>
    cases h
    exact segment_indicates hread before
  | case3 => cases h
  | case4 text next hnext first behind hread _ fault' hmore ih =>
    cases h
    exact ih hmore

theorem body_indicates {braced : Bool} (h : body braced text = .error fault)
    (before : List Char) : Indicates fault.complaint.message before fault.site := by
  unfold body at h
  split at h
  · rename_i hfirst
    cases h
    exact segment_indicates hfirst before
  · split at h
    · rename_i hmore
      cases h
      exact moreSegments_indicates hmore before
    · cases h

end Path

/-- The fault is in the text, and its complaint fits the place. -/
def Fault.Fits (fault : Fault) (text : List Char) : Prop :=
  ∃ before, text = before ++ fault.site ∧ Indicates fault.complaint.message before fault.site

namespace Fault

variable {fault : Fault} {text : List Char}

theorem fits_of_site (hsite : fault.site <:+ text)
    (h : ∀ before, Indicates fault.complaint.message before fault.site) : fault.Fits text := by
  obtain ⟨before, hbefore⟩ := hsite
  exact ⟨before, hbefore.symm, h before⟩

theorem Fits.append (h : fault.Fits text) (front : List Char) : fault.Fits (front ++ text) := by
  obtain ⟨before, rfl, hindicates⟩ := h
  exact ⟨front ++ before, (List.append_assoc _ _ _).symm, hindicates.append front⟩

end Fault

namespace Path

variable {fault : Fault} {text rest : List Char}

theorem not_starts {c : Char} (h : startsSegment (c :: rest) = false) :
    ¬ IsWord c ∧ c ≠ '*' ∧ c ≠ '[' := by
  rw [← isWordChar_iff]
  simpa [startsSegment, and_assoc] using h

theorem scopedAttribute_fits (h : scopedAttribute ('@' :: rest) = .error fault) :
    fault.Fits ('@' :: rest) := by
  have hsite := scopedAttribute_site h
  unfold scopedAttribute at h
  split at h
  · rename_i inner heq
    refine Fault.fits_of_site hsite fun before => ?_
    dsimp only at h
    split_ifs at h
    · split at h
      · rename_i hbody
        cases h
        exact body_indicates hbody before
      · cases h
      · cases h
        exact .bracket (by decide) before inner
      · rename_i c behind _ _
        cases h
        exact .of_unexpected c .closingBrace before behind
    · cases h
      exact .bracket (by decide) before inner
  · rename_i rest' hbrace heq
    cases heq
    split_ifs at h with hstart
    · exact Fault.fits_of_site hsite (body_indicates h)
    · -- Only here does the complaint speak of what stands before the place: the sign.
      cases h
      refine ⟨['@'], rfl, .noPath [] ?_⟩
      intro c hc
      obtain ⟨behind, rfl⟩ := List.head?_eq_some_iff.mp hc
      refine ⟨?_, not_starts (by simpa using hstart)⟩
      rintro rfl
      exact hbrace behind rfl
  · rename_i hsign
    exact absurd rfl (hsign rest)

theorem whole_fits (h : whole text = .error fault) : fault.Fits text := by
  unfold whole at h
  split at h
  · rename_i hread
    cases h
    split_ifs at hread with hsign
    · obtain ⟨rest, rfl⟩ := List.head?_eq_some_iff.mp hsign
      exact scopedAttribute_fits hread
    · exact Fault.fits_of_site (body_site hread) (body_indicates hread)
  · cases h
  · rename_i path c rest hread
    cases h
    have hsuffix : c :: rest <:+ text := by
      split_ifs at hread with hsign
      · obtain ⟨written, hwritten, -⟩ := scopedAttribute_sound hread
        exact ⟨written, hwritten.symm⟩
      · obtain ⟨written, hwritten, -⟩ := body_sound hread
        exact ⟨written, hwritten.symm⟩
    exact Fault.fits_of_site hsuffix fun before => .of_unexpected c .endOfPath before rest

end Path

theorem Piece.read_fits {text : List Char} {fault : Fault} (h : read text = .error fault) :
    fault.Fits text := by
  fun_induction read text with
  | case1 => cases h
  | case2 rest ih => exact (ih (Fallible.map_eq_error.mp h)).append ['@', '@']
  | case3 rest hsign fault' hread =>
    cases h
    exact Path.scopedAttribute_fits hread
  | case4 rest hsign path behind hread _ ih =>
    obtain ⟨written, hwritten, -⟩ := Path.scopedAttribute_sound hread
    rw [hwritten]
    exact (ih (Fallible.map_eq_error.mp h)).append written
  | case5 c rest _ hsign ih => exact (ih (Fallible.map_eq_error.mp h)).append [c]

namespace SyntaxError

/-- The error gives the line and column of a place in the text that its words fit. -/
def Located (error : SyntaxError) (text : String) : Prop :=
  ∃ before behind words, text.toList = before ++ behind ∧ Indicates words before behind ∧
    error.location.line = 1 + before.count '\n' ∧
    error.location.column = 1 + (before.rtakeWhile (· ≠ '\n')).length ∧
    error.message = "attribute template syntax error at line " ++ toString error.location.line ++
      " column " ++ toString error.location.column ++ ": " ++ words

theorem located_of_fits {fault : Fault} {text : String} (h : fault.Fits text.toList) :
    (fault.toSyntaxError text.toList).Located text := by
  obtain ⟨before, htext, hindicates⟩ := h
  have hlocation : (fault.toSyntaxError text.toList).location = Location.start.shift before := by
    rw [Fault.toSyntaxError, htext, List.length_append, Nat.add_sub_cancel, List.take_left,
      Location.start_after]
  refine ⟨before, fault.site, _, htext, hindicates, ?_, ?_, rfl⟩
  · rw [hlocation]
    rfl
  · rw [hlocation]
    rfl

/-- A syntax error in a path or a template stands at what it complains about. -/
theorem located_of_parse (text : String) {error : SyntaxError}
    (h : Path.parse text = .error error ∨ Template.parse text = .error error) :
    error.Located text := by
  rcases h with hpath | htemplate
  · rw [Path.parse] at hpath
    cases hwhole : Path.whole text.toList with
    | ok path =>
      rw [hwhole] at hpath
      cases hpath
    | error fault =>
      rw [hwhole] at hpath
      cases hpath
      exact located_of_fits (Path.whole_fits hwhole)
  · rw [Template.parse_eq] at htemplate
    split at htemplate
    · cases htemplate
    · rename_i fault hfault
      cases htemplate
      exact located_of_fits (Piece.read_fits hfault)

/-- A line break before the sign and one within quotes, then an escape that stands for nothing. -/
theorem located_of_parse_escape :
    let text := "x\n@\x7btrait('a\nb\\q')\x7d"
    let error : SyntaxError := ⟨⟨3, 2⟩, .invalidEscape 'q'⟩
    Template.parse text = .error error ∧ error.Located text := by
  intro text error
  have hattribute : Path.scopedAttribute ('@' :: "\x7btrait('a\nb\\q')\x7d".toList) =
      .error ⟨.invalidEscape 'q', "\\q')\x7d".toList, "')\x7d".toList⟩ := by decide +kernel
  have hread : Piece.read text.toList =
      .error ⟨.invalidEscape 'q', "\\q')\x7d".toList, "')\x7d".toList⟩ := by
    have htext : text.toList = 'x' :: '\n' :: '@' :: "\x7btrait('a\nb\\q')\x7d".toList := by decide
    rw [htext, Piece.read_plain (by decide), Piece.read_plain (by decide),
      Piece.read_fault (by decide) hattribute]
    rfl
  have hparse : Template.parse text = .error error := by
    rw [Template.parse_eq, hread]
    exact congrArg Except.error (by decide)
  exact ⟨hparse, located_of_parse text (.inr hparse)⟩

end SyntaxError

end ShapeRules
