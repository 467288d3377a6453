import ShapeRules.Proofs.Path.Evaluation
import ShapeRules.Proofs.Path.Extent
import ShapeRules.Proofs.Template.Encoding

/-!
Templates cut into spans: runs of text, doubled signs and scoped attributes. There is one way to cut
a text, and a template that is read is cut where its fragments meet.
-/

namespace ShapeRules

/-- A stretch of a template. -/
inductive Span where
  /-- Text without a sign. -/
  | run (text : List Char)
  | doubled
  /-- A sign, the text behind it, and the path that both denote. -/
  | expression (behind : List Char) (path : Path)
  deriving DecidableEq

namespace Span

/-- The characters of the span. -/
def text : Span → List Char
  | run text => text
  | doubled => ['@', '@']
  | expression behind _ => '@' :: behind

/-- The text that the span stands for, without the value of a path. -/
def plain : Span → List Char
  | run text => text
  | doubled => ['@']
  | expression _ _ => []

/-- The pieces of a template that the span holds. -/
def pieces : Span → List Piece
  | run text => text.map .plain
  | doubled => [.plain '@']
  | expression _ path => [.computed path]

/-- Adds a character that is not a sign before spans. It joins a run that they begin with. -/
def cons (c : Char) : List Span → List Span
  | run text :: spans => run (c :: text) :: spans
  | spans => run [c] :: spans

end Span

/-- The fragment of a text, unless the text is empty. -/
def Fragment.ofText (text : List Char) : List Fragment :=
  if text = [] then [] else [.literal (String.ofList text)]

/-- The fragments that spans amount to: the path of each expression, and between two of them the
text that the other spans stand for. `front` is the text since the last expression. -/
def Span.fragments (front : List Char) : List Span → List Fragment
  | [] => Fragment.ofText front
  | .run text :: spans => fragments (front ++ text) spans
  | .doubled :: spans => fragments (front ++ ['@']) spans
  | .expression _ path :: spans => Fragment.ofText front ++ .computed path :: fragments [] spans

/-- No stretch of text that goes on from `front` into `rest` denotes a path. -/
def Longest (front rest : List Char) : Prop :=
  ∀ more path, more ≠ [] → more <+: rest → Path.parse (String.ofList (front ++ more)) ≠ .ok path

theorem Longest.eq_nil {front rest more : List Char} {path : Path} (h : Longest front rest)
    (hmore : more <+: rest) (hpath : Path.parse (String.ofList (front ++ more)) = .ok path) :
    more = [] := by
  by_contra hne
  exact h more path hne hmore hpath

/-- The spans that a text is cut into. A run goes up to the next sign, and an expression as far
as any path does. -/
inductive Cut : List Char → List Span → Prop
  | nil : Cut [] []
  | run {text rest : List Char} {spans : List Span} (hne : text ≠ []) (hplain : '@' ∉ text)
      (hrest : Text.Stops (· ≠ '@') rest) (hspans : Cut rest spans) :
      Cut (text ++ rest) (.run text :: spans)
  | doubled {rest : List Char} {spans : List Span} (hspans : Cut rest spans) :
      Cut ('@' :: '@' :: rest) (.doubled :: spans)
  | expression {behind rest : List Char} {path : Path} {spans : List Span}
      (hsingle : (behind ++ rest).head? ≠ some '@')
      (hpath : Path.parse (String.ofList ('@' :: behind)) = .ok path)
      (hlongest : Longest ('@' :: behind) rest) (hspans : Cut rest spans) :
      Cut ('@' :: behind ++ rest) (.expression behind path :: spans)

namespace Cut

variable {text rest : List Char} {spans : List Span}

/-- The spans make up the text. -/
theorem flatMap_text (h : Cut text spans) : spans.flatMap Span.text = text := by
  induction h with
  | nil => rfl
  | run _ _ _ _ ih => rw [List.flatMap_cons, ih, Span.text]
  | doubled _ ih => rw [List.flatMap_cons, ih, Span.text, List.cons_append, List.singleton_append]
  | expression _ _ _ _ ih => rw [List.flatMap_cons, ih, Span.text]

theorem singleton_run (hne : text ≠ []) (hplain : '@' ∉ text) : Cut text [.run text] := by
  have hcut := run hne hplain Text.stops_nil nil
  rwa [List.append_nil] at hcut

theorem cons {c : Char} (hc : c ≠ '@') (h : Cut text spans) :
    Cut (c :: text) (Span.cons c spans) := by
  have single (hstops : Text.Stops (· ≠ '@') text) : Cut ([c] ++ text) (.run [c] :: spans) :=
    run (by simp) (by simpa using hc.symm) hstops h
  cases h with
  | nil => exact single (by simp)
  | @run text _ _ _ hplain hrest hspans =>
    have hrun : '@' ∉ c :: text := by simp [hc.symm, hplain]
    exact run (by simp) hrun hrest hspans
  | doubled => exact single (by simp)
  | expression => exact single (by simp)

/-- What is read at a sign is cut off as an expression. -/
theorem expression_of_read {path : Path} {behind : List Char}
    (hspans : Cut rest spans) (hsingle : (behind ++ rest).head? ≠ some '@')
    (hread : Path.scopedAttribute ('@' :: behind ++ rest) = .ok (path, rest)) :
    Cut ('@' :: behind ++ rest) (.expression behind path :: spans) := by
  refine .expression hsingle ?_ ?_ hspans
  · obtain ⟨written, hwritten, hspells⟩ := Path.scopedAttribute_sound hread
    rw [← List.append_cancel_right hwritten] at hspells
    exact Path.parse_sign_iff.mpr hspells
  · intro more other hne hmore hother
    exact Path.scopedAttribute_longest hread hne hmore other (Path.parse_sign_iff.mp hother)

private theorem run_ne_sign {tail : List Char} (hne : text ≠ []) (hplain : '@' ∉ text) :
    text ++ rest ≠ '@' :: tail := by
  obtain ⟨c, text, rfl⟩ := List.exists_cons_of_ne_nil hne
  rw [List.cons_append]
  intro heq
  cases heq
  exact hplain List.mem_cons_self

private theorem expression_ne_doubled {behind tail : List Char}
    (hsingle : (behind ++ rest).head? ≠ some '@') :
    '@' :: behind ++ rest ≠ '@' :: '@' :: tail := by
  rw [List.cons_append]
  intro heq
  rw [(List.cons.inj heq).2] at hsingle
  exact hsingle rfl

private theorem run_eq {text' rest' : List Char} (hplain : '@' ∉ text) (hplain' : '@' ∉ text')
    (hrest : Text.Stops (· ≠ '@') rest) (hrest' : Text.Stops (· ≠ '@') rest')
    (heq : text ++ rest = text' ++ rest') : text = text' ∧ rest = rest' := by
  have htake {text rest : List Char} (hplain : '@' ∉ text) (hrest : Text.Stops (· ≠ '@') rest) :
      (text ++ rest).takeWhile (· ≠ '@') = text := by
    refine Text.takeWhile_run ?_ hrest
    intro c hc
    simpa using fun hsign : c = '@' => hplain (hsign ▸ hc)
  have htext : text = text' := by rw [← htake hplain hrest, heq, htake hplain' hrest']
  subst htext
  exact ⟨rfl, List.append_cancel_left heq⟩

/-- Of two expressions at the same sign, neither goes on behind the other. -/
private theorem expression_eq {behind behind' rest' : List Char} {path path' : Path}
    (hpath : Path.parse (String.ofList ('@' :: behind)) = .ok path)
    (hpath' : Path.parse (String.ofList ('@' :: behind')) = .ok path')
    (hlongest : Longest ('@' :: behind) rest) (hlongest' : Longest ('@' :: behind') rest')
    (heq : behind ++ rest = behind' ++ rest') :
    behind = behind' ∧ path = path' ∧ rest = rest' := by
  rcases List.append_eq_append_iff.mp heq with ⟨more, rfl, rfl⟩ | ⟨more, rfl, rfl⟩
  · obtain rfl := hlongest.eq_nil (List.prefix_append _ _) hpath'
    rw [List.append_nil, hpath] at hpath'
    exact ⟨(List.append_nil behind).symm, Except.ok.inj hpath', rfl⟩
  · obtain rfl := hlongest'.eq_nil (List.prefix_append _ _) hpath
    rw [List.append_nil, hpath'] at hpath
    exact ⟨List.append_nil behind', (Except.ok.inj hpath).symm, rfl⟩

private theorem agree {text' : List Char} {others : List Span} (h : Cut text spans)
    (hothers : Cut text' others) (heq : text = text') : spans = others := by
  -- Both cuts can be taken apart because the texts are only said to be equal.
  induction h generalizing others text' with
  | nil =>
    cases hothers with
    | nil => rfl
    | run hne => exact absurd (List.append_eq_nil_iff.mp heq.symm).1 hne
    | doubled => cases heq
    | expression => cases heq
  | run hne hplain hrest hspans ih =>
    cases hothers with
    | nil => exact absurd (List.append_eq_nil_iff.mp heq).1 hne
    | run hne' hplain' hrest' hspans' =>
      obtain ⟨rfl, hbehind⟩ := run_eq hplain hplain' hrest hrest' heq
      rw [ih hspans' hbehind]
    | doubled => exact absurd heq (run_ne_sign hne hplain)
    | expression => exact absurd heq (run_ne_sign hne hplain)
  | doubled hspans ih =>
    cases hothers with
    | nil => cases heq
    | run hne hplain => exact absurd heq.symm (run_ne_sign hne hplain)
    | doubled hspans' =>
      cases heq
      rw [ih hspans' rfl]
    | expression hsingle => exact absurd heq.symm (expression_ne_doubled hsingle)
  | expression hsingle hpath hlongest hspans ih =>
    cases hothers with
    | nil => cases heq
    | run hne hplain => exact absurd heq.symm (run_ne_sign hne hplain)
    | doubled => exact absurd heq (expression_ne_doubled hsingle)
    | expression _ hpath' hlongest' hspans' =>
      obtain ⟨rfl, rfl, hbehind⟩ :=
        expression_eq hpath hpath' hlongest hlongest' (List.cons.inj heq).2
      rw [ih hspans' hbehind]

/-- A text is cut in one way at most. -/
theorem unique {others : List Span} (h : Cut text spans) (hothers : Cut text others) :
    spans = others :=
  h.agree hothers rfl

end Cut

theorem Span.pieces_cons (c : Char) (spans : List Span) :
    (Span.cons c spans).flatMap Span.pieces = .plain c :: spans.flatMap Span.pieces := by
  unfold Span.cons
  split <;> rfl

/-- A text that is read can be cut, and its spans hold the pieces that are read. -/
theorem cut_of_read {text : List Char} {pieces : List Piece} (h : Piece.read text = .ok pieces) :
    ∃ spans, Cut text spans ∧ spans.flatMap Span.pieces = pieces := by
  fun_induction Piece.read text generalizing pieces with
  | case1 =>
    cases h
    exact ⟨[], .nil, rfl⟩
  | case2 rest ih =>
    obtain ⟨others, hothers, rfl⟩ := Fallible.map_eq_ok.mp h
    obtain ⟨spans, hspans, rfl⟩ := ih hothers
    exact ⟨.doubled :: spans, .doubled hspans, rfl⟩
  | case3 => cases h
  | case4 rest hsign path behind hread _ ih =>
    obtain ⟨others, hothers, rfl⟩ := Fallible.map_eq_ok.mp h
    obtain ⟨spans, hspans, rfl⟩ := ih hothers
    obtain ⟨written, -, rfl⟩ := Path.scopedAttribute_split hread
    refine ⟨_, hspans.expression_of_read ?_ hread, rfl⟩
    intro hhead
    exact (List.head?_eq_some_iff.mp hhead).elim hsign
  | case5 c rest _ hsign ih =>
    obtain ⟨others, hothers, rfl⟩ := Fallible.map_eq_ok.mp h
    obtain ⟨spans, hspans, rfl⟩ := ih hothers
    exact ⟨Span.cons c spans, hspans.cons hsign, Span.pieces_cons c spans⟩

namespace Fragment

theorem ofText_nil : ofText [] = [] := rfl

theorem ofText_of_ne_nil {text : List Char} (h : text ≠ []) :
    ofText text = [.literal (String.ofList text)] :=
  if_neg h

private theorem push_text {front : List Fragment}
    (hfront : ∀ fragment ∈ front.getLast?, fragment.isLiteral = false) (text run : List Char) :
    (run.map .plain).foldl push (front ++ ofText text) = front ++ ofText (text ++ run) := by
  by_cases hrun : run = []
  · rw [hrun, List.append_nil]
    rfl
  · rw [push_run hrun]
    by_cases htext : text = []
    · rw [htext, ofText_nil, List.append_nil, append_of_apart hfront, List.nil_append,
        ofText_of_ne_nil hrun]
    · have hboth : text ++ run ≠ [] := by simp [htext]
      rw [ofText_of_ne_nil htext, append_snoc_literal, ofText_of_ne_nil hboth,
        String.ofList_append]

/-- The pieces of spans add up to the fragments that the spans amount to. -/
theorem push_spans {front : List Fragment}
    (hfront : ∀ fragment ∈ front.getLast?, fragment.isLiteral = false) (text : List Char)
    (spans : List Span) :
    (spans.flatMap Span.pieces).foldl push (front ++ ofText text) =
      front ++ Span.fragments text spans := by
  -- What carries the induction is that text behind `front` is never joined with it.
  induction spans generalizing front text with
  | nil => rfl
  | cons span spans ih =>
    rw [List.flatMap_cons, List.foldl_append]
    cases span with
    | run run => rw [Span.pieces, push_text hfront, ih hfront, Span.fragments]
    | doubled =>
      have hsign := push_text hfront text ['@']
      rw [List.map_singleton] at hsign
      rw [Span.pieces, hsign, ih hfront, Span.fragments]
    | expression behind path =>
      have hcomputed : ∀ fragment ∈ (front ++ ofText text ++ [computed path]).getLast?,
          fragment.isLiteral = false := by
        rw [List.getLast?_concat]
        rintro fragment ⟨⟩
        rfl
      have hspans := ih hcomputed []
      rw [ofText_nil, List.append_nil] at hspans
      rw [Span.pieces, List.foldl_cons, List.foldl_nil, push, hspans, Span.fragments]
      simp

theorem ofPieces_spans (spans : List Span) :
    ofPieces (spans.flatMap Span.pieces) = Span.fragments [] spans :=
  @push_spans [] (by simp) [] spans

private theorem render_ofText (model : Model) (value : Value) (text : List Char) :
    String.join ((ofText text).map (render model value)) = String.ofList text := by
  by_cases htext : text = []
  · rw [htext]
    rfl
  · rw [ofText_of_ne_nil htext, List.map_singleton, String.join_cons, render, String.join_nil,
      String.append_empty]

/-- For an absent value, expressions render to nothing. -/
theorem render_absent (model : Model) (text : List Char) (spans : List Span) :
    String.join ((Span.fragments text spans).map (render model .absent)) =
      String.ofList (text ++ spans.flatMap Span.plain) := by
  induction spans generalizing text with
  | nil => rw [Span.fragments, render_ofText, List.flatMap_nil, List.append_nil]
  | cons span spans ih =>
    rw [List.flatMap_cons]
    cases span with
    | run run => rw [Span.fragments, ih, Span.plain, List.append_assoc]
    | doubled => rw [Span.fragments, ih, Span.plain, List.append_assoc]
    | expression behind path =>
      have hcomputed : render model .absent (.computed path) = "" := by
        rw [render, Path.evaluate_absent]
        rfl
      rw [Span.fragments, List.map_append, String.join_append, render_ofText, List.map_cons,
        String.join_cons, hcomputed, String.empty_append, ih, ← String.ofList_append]
      rfl

end Fragment

namespace Template

/-- A template that is read can be cut. -/
theorem parse_cuts (source : String) (template : Template) (h : parse source = .ok template) :
    ∃ spans, Cut source.toList spans ∧ spans.flatMap Span.text = source.toList ∧
      template.fragments = Span.fragments [] spans ∧
      ∀ model, template.render model .absent = String.ofList (spans.flatMap Span.plain) := by
  obtain ⟨pieces, hread, rfl⟩ := parse_ok_iff.mp h
  obtain ⟨spans, hspans, rfl⟩ := cut_of_read hread
  have hfragments := Fragment.ofPieces_spans spans
  refine ⟨spans, hspans, hspans.flatMap_text, hfragments, ?_⟩
  intro model
  rw [render, hfragments, Fragment.render_absent, List.nil_append]

/-- A doubled sign within text, and an expression that the dot behind it is no part of. -/
theorem parse_cuts_dot :
    let source := "a@@b@id."
    let template : Template :=
      ⟨source, [.literal "a@b", .computed ⟨[.key "id"]⟩, .literal "."]⟩
    parse source = .ok template ∧
      ∃ spans, Cut source.toList spans ∧ spans.flatMap Span.text = source.toList ∧
        template.fragments = Span.fragments [] spans ∧
        ∀ model, template.render model .absent = String.ofList (spans.flatMap Span.plain) := by
  intro source template
  have hid : Path.SpellsBody ['i', 'd'] ⟨[.key "id"]⟩ := .of_word (by decide)
  have hpath : Path.scopedAttribute ['@', 'i', 'd', '.'] = .ok (⟨[.key "id"]⟩, ['.']) :=
    Path.scopedAttribute_signed hid (Path.ends_cons.mpr (by decide)) rfl
  have hread : Piece.read source.toList =
      .ok [.plain 'a', .plain '@', .plain 'b', .computed ⟨[.key "id"]⟩, .plain '.'] := by
    have hexpression := Piece.read_computed (by decide) hpath
    simp [source, Piece.read_plain, Piece.read_doubled, Piece.read_nil, hexpression, Except.map]
  have hparse : parse source = .ok template := parse_ok_iff.mpr ⟨_, hread, by rfl⟩
  exact ⟨hparse, parse_cuts source template hparse⟩

end Template

end ShapeRules
