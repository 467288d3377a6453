import ShapeRules.Proofs.Path.Rounds
import ShapeRules.Proofs.Template.Represents

/-!
The loop that reads templates, pass by pass. Each pass that goes on consumes at least two characters,
and wherever a pass stands, the text before the mark is in the fragments already.
-/

namespace ShapeRules

open Fragment (push)
open Loop (Progresses Rounds progresses)
open Reading (Stage resume)

variable {fragments : List Fragment} {text : List Char}

/-- A scoped attribute that is read is a sign and at least one character behind it. -/
theorem Cursor.scopedAttribute_consumes {cursor behind : Cursor} {path : Path}
    (h : cursor.scopedAttribute = (.ok path, behind)) :
    ∃ written, written ≠ [] ∧ cursor.rest = '@' :: written ++ behind.rest ∧
      behind = cursor.advanceTo behind.rest ∧ (Span.expression written path).Valid := by
  unfold Cursor.scopedAttribute at h
  split at h
  · rename_i rest hread
    cases h
    obtain ⟨written, hsplit, hspells⟩ := Path.scopedAttribute_sound hread
    have hlength := Path.scopedAttribute_length hread
    rw [hsplit, List.length_append] at hlength
    obtain ⟨inner, rfl⟩ : ∃ inner, written = '@' :: inner := by
      cases hspells <;> exact ⟨_, rfl⟩
    rw [advanceTo_rest hsplit]
    refine ⟨inner, ?_, hsplit, rfl, Path.parse_sign_iff.mpr hspells⟩
    rintro rfl
    rw [List.length_singleton] at hlength
    omega
  · cases h

namespace Scanner

/-! ### The passes of the loop -/

/-- A pass: over the text up to a sign and what the sign begins, or up to the end. -/
def round (scanner : Scanner) : Scanner ⊕ Except SyntaxError (List Fragment) :=
  if scanner.toSign.cursor.atEnd then .inr (.ok scanner.toSign.flush.fragments)
  else
    match scanner.toSign.take with
    | .error error => .inr (.error error)
    | .ok next => .inl next

theorem round_progresses :
    Progresses round Scanner.run (fun scanner => scanner.cursor.rest.length) 2 := by
  refine progresses (fun scanner => ?_) Nat.two_pos (fun scanner => ?_)
  · rw [run.eq_def, round]
    split
    · rfl
    · split <;> simp_all
  · fun_cases round scanner with
    | case3 hend next htake =>
      rintro next ⟨⟩
      exact Nat.le_trans (take_length htake) (toSign_length scanner)
    | _ => rintro next ⟨⟩

/-- The scanner behind the next character. -/
def advance (scanner : Scanner) : Scanner := { scanner with cursor := scanner.cursor.advance }

/-- The scanner with its mark at the cursor. -/
def marked (scanner : Scanner) : Scanner := { scanner with mark := scanner.cursor.position }

/-- The scanner between two steps of the pass that begins at `head`. -/
inductive Point (head : Scanner) : Scanner → Prop
  | start : Point head head
  /-- At the next sign, or at the end. -/
  | sign : Point head head.toSign
  | first (hdoubled : head.toSign.cursor.peekNth 1 = some '@') : Point head head.toSign.advance
  | flushedFirst (hdoubled : head.toSign.cursor.peekNth 1 = some '@') :
      Point head head.toSign.advance.flush
  | second (hdoubled : head.toSign.cursor.peekNth 1 = some '@') :
      Point head head.toSign.advance.flush.advance
  /-- Before a scoped attribute, and at the end. -/
  | flushed (hsingle : head.toSign.cursor.peekNth 1 ≠ some '@') : Point head head.toSign.flush
  | read {path : Path} {behind : Cursor} (hsingle : head.toSign.cursor.peekNth 1 ≠ some '@')
      (hread : head.toSign.cursor.scopedAttribute = (.ok path, behind)) :
      Point head { head.toSign.flush with cursor := behind }
  | added {path : Path} {behind : Cursor} (hsingle : head.toSign.cursor.peekNth 1 ≠ some '@')
      (hread : head.toSign.cursor.scopedAttribute = (.ok path, behind)) :
      Point head ⟨behind, head.toSign.flush.mark, head.toSign.flush.fragments ++ [.computed path]⟩
  | behindAdded {path : Path} {behind : Cursor} (hsingle : head.toSign.cursor.peekNth 1 ≠ some '@')
      (hread : head.toSign.cursor.scopedAttribute = (.ok path, behind)) :
      Point head (marked ⟨behind, head.toSign.flush.mark,
        head.toSign.flush.fragments ++ [.computed path]⟩)
  | behindSecond (hdoubled : head.toSign.cursor.peekNth 1 = some '@') :
      Point head head.toSign.advance.flush.advance.marked

/-! ### What holds wherever a pass stands -/

/-- Behind the text before its mark the scanner holds `pending` back, and its fragments are all of
`done`, which goes as far as the mark at least. -/
structure Tracks (scanner : Scanner) (text before pending done : List Char) : Prop
    extends Pending scanner before pending where
  input : scanner.cursor.input = text
  covers : before <+: done
  within : done <+: text
  represents : Represents scanner.fragments done

/-- The mark and the cursor stand between characters of the text, in this order. The slice from the
mark is the text between them, and all text before the mark is in the fragments. -/
structure Sound (scanner : Scanner) (text before pending : List Char) : Prop where
  split : text = before ++ pending ++ scanner.cursor.rest
  mark : scanner.mark = byteLength before
  position : scanner.cursor.position = byteLength (before ++ pending)
  ordered : scanner.mark ≤ scanner.cursor.position
  slice : scanner.cursor.sliceFrom scanner.mark = pending
  represented : ∃ done, before <+: done ∧ done <+: text ∧ Represents scanner.fragments done

variable {scanner head point next : Scanner} {before pending done consumed rest : List Char}

theorem Tracks.sound (h : scanner.Tracks text before pending done) :
    scanner.Sound text before pending where
  split := by rw [← h.input, h.behind.input]
  mark := h.mark
  position := h.behind.position
  ordered := by
    rw [h.mark, h.behind.position, byteLength_append]
    exact Nat.le_add_right _ _
  slice := by rw [h.mark, h.behind.sliceFrom]
  represented := ⟨done, h.covers, h.within, h.represents⟩

theorem Tracks.advance {c : Char} (h : scanner.Tracks text before pending done)
    (hrest : scanner.cursor.rest = c :: rest) :
    scanner.advance.Tracks text before (pending ++ [c]) done := by
  refine ⟨⟨?_, h.mark⟩, (Cursor.advance_input _).trans h.input, h.covers, h.within, h.represents⟩
  rw [← List.append_assoc]
  exact h.behind.advance hrest

/-- A flush moves what is pending in front of the mark. -/
theorem Tracks.flush {all : List Char} (h : scanner.Tracks text before pending done)
    (hcovers : before ++ pending <+: all) (hwithin : all <+: text)
    (hrepresents : Represents ((pending.map .plain).foldl push scanner.fragments) all) :
    scanner.flush.Tracks text (before ++ pending) [] all := by
  refine ⟨⟨?_, ?_⟩, ?_, hcovers, hwithin, ?_⟩
  · rw [flush_cursor, List.append_nil]
    exact h.behind
  · rw [Scanner.flush, h.mark, h.behind.sliceFrom]
    cases pending with
    | nil => rw [h.mark, List.append_nil]
    | cons c pending => exact h.behind.position
  · rw [flush_cursor, h.input]
  · rw [h.toPending.flush_fragments]
    exact hrepresents

/-- Where all that was consumed is in the fragments, the mark may move to the cursor. -/
theorem Tracks.marked (h : scanner.Tracks text before pending done)
    (hdone : before ++ pending = done) : scanner.marked.Tracks text done [] done := by
  subst hdone
  exact ⟨pending_of_marked h.behind _, h.input, List.prefix_rfl, h.within, h.represents⟩

/-- At a sign that begins an expression the cursor goes behind it. -/
theorem Tracks.read {path : Path} {behind : Cursor} (h : scanner.Tracks text before pending done)
    (hread : scanner.cursor.scopedAttribute = (.ok path, behind)) :
    ∃ written, (Span.expression written path).Valid ∧
      Tracks ⟨behind, scanner.mark, scanner.fragments⟩ text before
        (pending ++ '@' :: written) done := by
  obtain ⟨written, -, hsplit, hbehind, hvalid⟩ := Cursor.scopedAttribute_consumes hread
  refine ⟨written, hvalid, ⟨?_, h.mark⟩, ?_, h.covers, h.within, h.represents⟩
  · rw [hbehind, ← List.append_assoc]
    exact h.behind.advanceTo hsplit
  · rw [hbehind]
    exact (Cursor.skip_input _ _).trans h.input

theorem toSign_rest_doubled (hdoubled : scanner.toSign.cursor.peekNth 1 = some '@') :
    ∃ rest, scanner.toSign.cursor.rest = '@' :: '@' :: rest := by
  obtain ⟨rest, hrest⟩ : ∃ rest, scanner.toSign.cursor.rest = '@' :: rest := by
    refine toSign_rest_cons fun hend => ?_
    rw [Cursor.peekNth, List.isEmpty_iff.mp hend] at hdoubled
    cases hdoubled
  rw [Cursor.peekNth, hrest, List.getElem?_cons_succ, ← List.head?_eq_getElem?] at hdoubled
  obtain ⟨behind, rfl⟩ := List.head?_eq_some_iff.mp hdoubled
  exact ⟨behind, hrest⟩

/-- Between two passes nothing is pending, and all that was consumed is in the fragments. -/
abbrev Ready (scanner : Scanner) (text consumed : List Char) : Prop :=
  scanner.Tracks text consumed [] consumed

theorem ready_start (text : List Char) : (start text).Ready text [] :=
  ⟨pending_of_marked (Cursor.start_behind text) [], rfl, List.nil_prefix, List.nil_prefix,
    represents_nil⟩

/-- At the sign the text before it is pending, and ready to become a run. -/
theorem Ready.toSign (h : head.Ready text consumed) :
    ∃ run, head.toSign.Tracks text consumed run consumed ∧
      Represents ((run.map .plain).foldl push head.toSign.fragments) (consumed ++ run) := by
  have hrun : (Span.run (head.cursor.rest.takeWhile (· ≠ '@'))).Valid := by
    intro hsign
    simpa using List.mem_takeWhile_imp hsign
  exact ⟨_, ⟨h.toPending.toSign, (Cursor.skip_input _ _).trans h.input, h.covers, h.within,
    h.represents⟩, h.represents.snoc hrun⟩

theorem Ready.flushed (h : head.Ready text consumed) :
    ∃ consumed, head.toSign.flush.Ready text consumed := by
  obtain ⟨run, hsign, hrepresents⟩ := h.toSign
  refine ⟨consumed ++ run, hsign.flush List.prefix_rfl ?_ hrepresents⟩
  rw [← hsign.input, hsign.behind.input]
  exact List.prefix_append _ _

/-- A doubled sign is in the fragments from when its first sign is flushed. -/
theorem Ready.doubled (h : head.Ready text consumed)
    (hdoubled : head.toSign.cursor.peekNth 1 = some '@') :
    ∃ run, head.toSign.advance.Tracks text consumed (run ++ ['@']) consumed ∧
      head.toSign.advance.flush.Tracks text (consumed ++ (run ++ ['@'])) []
        (consumed ++ run ++ ['@', '@']) ∧
      head.toSign.advance.flush.advance.Tracks text (consumed ++ (run ++ ['@'])) ['@']
        (consumed ++ run ++ ['@', '@']) := by
  obtain ⟨run, hsign, hrepresents⟩ := h.toSign
  obtain ⟨rest, hrest⟩ := toSign_rest_doubled hdoubled
  have htext : text = consumed ++ run ++ ['@', '@'] ++ rest := by
    rw [← hsign.input, hsign.behind.input, hrest]
    simp
  have hfirst := hsign.advance hrest
  have hrest' : head.toSign.advance.flush.cursor.rest = '@' :: rest := by
    rw [flush_cursor, Scanner.advance, Cursor.advance_rest, hrest, List.tail_cons]
  have hflushed : head.toSign.advance.flush.Tracks text (consumed ++ (run ++ ['@'])) []
      (consumed ++ run ++ ['@', '@']) := by
    refine hfirst.flush ⟨['@'], by simp⟩ ⟨rest, htext.symm⟩ ?_
    have hdoubledValid : Span.doubled.Valid := trivial
    rw [List.map_append, List.foldl_append]
    exact hrepresents.snoc hdoubledValid
  exact ⟨run, hfirst, hflushed, hflushed.advance hrest'⟩

/-- A scoped attribute is in the fragments once its path is added. -/
theorem Ready.single {path : Path} {behind : Cursor} (h : head.Ready text consumed)
    (hread : head.toSign.cursor.scopedAttribute = (.ok path, behind)) :
    ∃ front written,
      Tracks { head.toSign.flush with cursor := behind } text front ('@' :: written) front ∧
      Tracks ⟨behind, head.toSign.flush.mark, head.toSign.flush.fragments ++ [.computed path]⟩
        text front ('@' :: written) (front ++ '@' :: written) := by
  obtain ⟨front, hflushed⟩ := h.flushed
  rw [← flush_cursor] at hread
  obtain ⟨written, hvalid, hbehind⟩ := hflushed.read hread
  refine ⟨front, written, hbehind, ⟨hbehind.behind, hbehind.mark⟩, hbehind.input,
    List.prefix_append _ _, ?_, hflushed.represents.snoc hvalid⟩
  have hsplit := hbehind.behind.input
  rw [hbehind.input] at hsplit
  exact ⟨behind.rest, hsplit.symm⟩

theorem Ready.behindSecond (h : head.Ready text consumed)
    (hdoubled : head.toSign.cursor.peekNth 1 = some '@') :
    ∃ consumed, head.toSign.advance.flush.advance.marked.Ready text consumed := by
  obtain ⟨run, -, -, hsecond⟩ := h.doubled hdoubled
  exact ⟨_, hsecond.marked (by simp)⟩

theorem Ready.behindAdded {path : Path} {behind : Cursor} (h : head.Ready text consumed)
    (hread : head.toSign.cursor.scopedAttribute = (.ok path, behind)) :
    ∃ consumed, Ready (marked ⟨behind, head.toSign.flush.mark,
      head.toSign.flush.fragments ++ [.computed path]⟩) text consumed := by
  obtain ⟨front, written, -, hadded⟩ := h.single hread
  exact ⟨_, hadded.marked rfl⟩

/-- A pass that goes on has taken a doubled sign or a scoped attribute, and its mark is at the
cursor. -/
theorem round_eq_inl (h : head.round = .inl next) :
    (head.toSign.cursor.peekNth 1 = some '@' ∧
      next = head.toSign.advance.flush.advance.marked) ∨
    (head.toSign.cursor.peekNth 1 ≠ some '@' ∧
      ∃ path behind, head.toSign.cursor.scopedAttribute = (.ok path, behind) ∧
        next = marked ⟨behind, head.toSign.flush.mark,
          head.toSign.flush.fragments ++ [.computed path]⟩) := by
  have htake : head.toSign.take = .ok next := by
    unfold Scanner.round at h
    split at h
    · cases h
    · split at h
      · cases h
      · rename_i htake
        cases h
        exact htake
  unfold take at htake
  split at htake
  · rename_i hdoubled
    cases htake
    exact .inl ⟨hdoubled, rfl⟩
  · rename_i hsingle
    dsimp only at htake
    split at htake
    · cases htake
    · rename_i path behind hread
      cases htake
      rw [flush_cursor] at hread
      exact .inr ⟨hsingle, path, behind, hread, rfl⟩

theorem point_of_round (h : head.round = .inl next) : head.Point next := by
  obtain ⟨hdoubled, rfl⟩ | ⟨hsingle, path, behind, hread, rfl⟩ := round_eq_inl h
  · exact .behindSecond hdoubled
  · exact .behindAdded hsingle hread

theorem Ready.round (h : head.Ready text consumed) (hround : head.round = .inl next) :
    ∃ consumed, next.Ready text consumed := by
  obtain ⟨hdoubled, rfl⟩ | ⟨-, path, behind, hread, rfl⟩ := round_eq_inl hround
  · exact h.behindSecond hdoubled
  · exact h.behindAdded hread

/-- After any number of passes the scanner is ready for the next. -/
theorem Ready.rounds {n : Nat} (h : head.Ready text consumed)
    (hrounds : Rounds Scanner.round n head next) : ∃ consumed, next.Ready text consumed :=
  hrounds.preserves (P := fun scanner => ∃ consumed, scanner.Ready text consumed)
    (fun _ _ ⟨_, hready⟩ hround => hready.round hround) ⟨consumed, h⟩

/-- A pass that comes to the end leaves all of the text in the fragments. -/
theorem Ready.represents_end (h : head.Ready text consumed)
    (hround : head.round = .inr (.ok fragments)) : Represents fragments text := by
  unfold Scanner.round at hround
  split at hround
  · rename_i hend
    obtain ⟨front, hflushed⟩ := h.flushed
    have hrest : head.toSign.flush.cursor.rest = [] := by
      rw [flush_cursor]
      exact List.isEmpty_iff.mp hend
    have htext : text = front := by
      rw [← hflushed.input, hflushed.behind.input, hrest, List.append_nil, List.append_nil]
    cases hround
    exact htext ▸ hflushed.represents
  · split at hround <;> cases hround

/-- Wherever a pass stands, the scanner tracks the text. -/
theorem Ready.tracks (h : head.Ready text consumed) (hpoint : head.Point point) :
    ∃ before pending done, point.Tracks text before pending done := by
  -- One case for each point: the steps before it decide what is pending there.
  cases hpoint with
  | start => exact ⟨_, _, _, h⟩
  | sign =>
    obtain ⟨run, hsign, -⟩ := h.toSign
    exact ⟨_, _, _, hsign⟩
  | first hdoubled =>
    obtain ⟨run, hfirst, -, -⟩ := h.doubled hdoubled
    exact ⟨_, _, _, hfirst⟩
  | flushedFirst hdoubled =>
    obtain ⟨run, -, hflushed, -⟩ := h.doubled hdoubled
    exact ⟨_, _, _, hflushed⟩
  | second hdoubled =>
    obtain ⟨run, -, -, hsecond⟩ := h.doubled hdoubled
    exact ⟨_, _, _, hsecond⟩
  | behindSecond hdoubled =>
    obtain ⟨front, hmarked⟩ := h.behindSecond hdoubled
    exact ⟨_, _, _, hmarked⟩
  | flushed =>
    obtain ⟨front, hflushed⟩ := h.flushed
    exact ⟨_, _, _, hflushed⟩
  | read _ hread =>
    obtain ⟨front, written, hbehind, -⟩ := h.single hread
    exact ⟨_, _, _, hbehind⟩
  | added _ hread =>
    obtain ⟨front, written, -, hadded⟩ := h.single hread
    exact ⟨_, _, _, hadded⟩
  | behindAdded _ hread =>
    obtain ⟨front, hmarked⟩ := h.behindAdded hread
    exact ⟨_, _, _, hmarked⟩

end Scanner

namespace Template

/-- How the loop compiles a source. -/
structure Compiled (source : String) : Prop where
  /-- The loop stops, and each pass before the last took two characters at least. -/
  stops : ∃ n last result, Rounds Scanner.round n (.start source.toList) last ∧
    last.round = .inr result ∧ parse source = result.map (Template.mk source) ∧
    2 * n ≤ source.length
  next : ∀ {n head next}, Rounds Scanner.round n (.start source.toList) head →
    head.round = .inl next → head.Point next
  sound : ∀ {n head point}, Rounds Scanner.round n (.start source.toList) head →
    head.Point point → ∃ before pending, point.Sound source.toList before pending
  represents : ∀ {template}, parse source = .ok template →
    Represents template.fragments source.toList
  count_le : ∀ {template}, parse source = .ok template →
    Fragment.count template.fragments ≤ source.length

theorem parse_eq_run (source : String) :
    parse source = (Scanner.start source.toList).run.map (Template.mk source) := by
  rw [parse]
  cases (Scanner.start source.toList).run <;> rfl

theorem compiled (source : String) : Compiled source := by
  have hready := Scanner.ready_start source.toList
  obtain ⟨n, last, result, hrounds, hlast, hrun, hleft⟩ :=
    Scanner.round_progresses.stops (.start source.toList)
  have hparse : parse source = result.map (Template.mk source) := by rw [parse_eq_run, hrun]
  have hrepresents {template : Template} (htemplate : parse source = .ok template) :
      Represents template.fragments source.toList := by
    obtain ⟨consumed, hready⟩ := hready.rounds hrounds
    rw [hparse] at htemplate
    obtain ⟨fragments, rfl, rfl⟩ := Fallible.map_eq_ok.mp htemplate
    exact hready.represents_end hlast
  refine ⟨⟨n, last, result, hrounds, hlast, hparse, ?_⟩, fun _ => Scanner.point_of_round, ?_,
    hrepresents, ?_⟩
  · rw [← String.length_toList]
    exact Nat.le_trans (Nat.le_add_left _ _) hleft
  · intro n head point hrounds hpoint
    obtain ⟨consumed, hready⟩ := hready.rounds hrounds
    obtain ⟨before, pending, done, htracks⟩ := hready.tracks hpoint
    exact ⟨before, pending, htracks.sound⟩
  · intro template htemplate
    rw [← String.length_toList]
    exact (hrepresents htemplate).count_le

/-- Each loop of the readers stops, after rounds that all consume something, and each source is
compiled, to no more fragments and segments than it has characters. -/
theorem parse_progresses :
    Progresses Scanner.round Scanner.run (fun scanner => scanner.cursor.rest.length) 2 ∧
    (∀ cursor path behind, Cursor.scopedAttribute cursor = (.ok path, behind) →
      ∃ written, written ≠ [] ∧ cursor.rest = '@' :: written ++ behind.rest) ∧
    (∀ braced, Progresses (Path.segmentsRound braced) (resume (Path.moreSegments braced))
      Stage.left 1) ∧
    (∀ opening, Progresses (Path.argumentsRound opening) (resume (Path.moreArguments opening))
      Stage.left 1) ∧
    (∀ quote opening, Progresses (Path.quotedRound quote opening)
      (resume (Path.quoted quote opening)) Stage.left 1) ∧
    (∀ source path, Path.parse source = .ok path → path.segments.length ≤ source.length) ∧
    ∀ source, Compiled source := by
  refine ⟨Scanner.round_progresses, ?_, Path.segments_progress, Path.arguments_progress,
    Path.quoted_progresses, ?_, compiled⟩
  · intro cursor path behind hread
    obtain ⟨written, hne, hsplit, -⟩ := Cursor.scopedAttribute_consumes hread
    exact ⟨written, hne, hsplit⟩
  · intro source path hpath
    rw [← String.length_toList]
    exact (Path.parse_ok_iff.mp hpath).length_le

/-- The second of two signs is pending where the first is flushed already, with both in the
fragments. -/
theorem parse_progresses_doubled :
    let source := "é@@@id"
    let template : Template := ⟨source, [.literal "é@", .computed ⟨[.key "id"]⟩]⟩
    let second := (Scanner.start source.toList).toSign.advance.flush.advance
    parse source = .ok template ∧ Fragment.count template.fragments ≤ source.length ∧
      second.mark = 3 ∧ second.cursor.position = 4 ∧ second.fragments = [.literal "é@"] ∧
      ∃ before pending, second.Sound source.toList before pending := by
  intro source template second
  have hid : Path.SpellsBody ['i', 'd'] ⟨[.key "id"]⟩ := .of_word (by decide)
  have hpath : Path.scopedAttribute ['@', 'i', 'd'] = .ok (⟨[.key "id"]⟩, []) :=
    Path.scopedAttribute_signed hid Path.Ends.nil rfl
  have hread : Piece.read source.toList =
      .ok [.plain 'é', .plain '@', .computed ⟨[.key "id"]⟩] := by
    have hexpression := Piece.read_computed (by decide) hpath
    simp [source, Piece.read_plain, Piece.read_doubled, Piece.read_nil, hexpression, Except.map]
  have hparse : parse source = .ok template := parse_ok_iff.mpr ⟨_, hread, by rfl⟩
  obtain ⟨-, -, -, -, -, -, hcompiled⟩ := parse_progresses
  have hdoubled : (Scanner.start source.toList).toSign.cursor.peekNth 1 = some '@' := by decide
  exact ⟨hparse, (hcompiled source).count_le hparse, by decide, by decide, by decide,
    (hcompiled source).sound (.none _) (.second hdoubled)⟩

end Template

end ShapeRules
