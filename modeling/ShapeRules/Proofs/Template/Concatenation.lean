import ShapeRules.Proofs.Template.Spans
import ShapeRules.Proofs.Text.Location

/-!
Templates one behind the other. What is read of the first does not depend on the second, except
where the first ends in an expression that could go on, and what is read of the second does not
depend on the first.
-/

namespace ShapeRules

/-- The text ends in an expression without braces, or in one with a single dot behind it. -/
def OpenEnded (text : List Char) : Prop :=
  ∃ front behind path tail, Cut text (front ++ .expression behind path :: tail) ∧
    behind.head? ≠ some '\x7b' ∧ (tail = [] ∨ tail = [.run ['.']])

namespace OpenEnded

variable {rest text : List Char}

theorem plain {c : Char} (hc : c ≠ '@') (h : OpenEnded rest) : OpenEnded (c :: rest) := by
  obtain ⟨front, behind, path, tail, hcut, hends⟩ := h
  obtain ⟨before, hbefore⟩ : ∃ before, Span.cons c (front ++ .expression behind path :: tail) =
      before ++ .expression behind path :: tail := by
    cases front with
    | nil => exact ⟨[.run [c]], rfl⟩
    | cons span front =>
      cases span with
      | run run => exact ⟨.run (c :: run) :: front, rfl⟩
      | doubled => exact ⟨.run [c] :: .doubled :: front, rfl⟩
      | expression => exact ⟨.run [c] :: .expression _ _ :: front, rfl⟩
  exact ⟨before, behind, path, tail, hbefore ▸ hcut.cons hc, hends⟩

theorem behind {span : Span} (hspan : ∀ {spans}, Cut rest spans → Cut text (span :: spans))
    (h : OpenEnded rest) : OpenEnded text := by
  obtain ⟨front, behind, path, tail, hcut, hends⟩ := h
  exact ⟨span :: front, behind, path, tail, hspan hcut, hends⟩

/-- A text is closed where all its expressions have braces. -/
theorem not_of_braced {spans : List Span} (h : Cut text spans)
    (hbraced : ∀ behind path, .expression behind path ∈ spans → behind.head? = some '\x7b') :
    ¬ OpenEnded text := by
  rintro ⟨front, behind, path, tail, hcut, hbrace, -⟩
  rw [h.unique hcut] at hbraced
  exact hbrace (hbraced behind path (by simp))

/-- In a text that is closed, an expression has braces, or what stands behind it settles it. -/
theorem settled {behind : List Char} {path : Path} (h : ¬ OpenEnded text)
    (hspan : ∀ {spans}, Cut rest spans → Cut text (.expression behind path :: spans)) :
    (behind ++ rest).head? = some '\x7b' ∨ Path.Settled rest := by
  by_cases hbrace : behind.head? = some '\x7b'
  · refine .inl ?_
    rw [List.head?_append, hbrace]
    rfl
  · refine .inr ⟨?_, ?_⟩
    · rintro rfl
      exact h ⟨[], behind, path, [], hspan .nil, hbrace, .inl rfl⟩
    · rintro rfl
      have hdot : Cut ['.'] [.run ['.']] := .singleton_run (by decide) (by decide)
      exact h ⟨[], behind, path, _, hspan hdot, hbrace, .inr rfl⟩

end OpenEnded

namespace Piece

private theorem map_map_append (piece : Piece) (pieces : List Piece)
    (result : Except Fault (List Piece)) :
    (result.map (pieces ++ ·)).map (piece :: ·) = result.map (piece :: pieces ++ ·) := by
  cases result <;> rfl

theorem read_append {text : List Char} {pieces : List Piece} (h : read text = .ok pieces)
    (hclosed : ¬ OpenEnded text) (more : List Char) :
    read (text ++ more) = (read more).map (pieces ++ ·) := by
  fun_induction read text generalizing pieces with
  | case1 =>
    cases h
    rw [List.nil_append]
    cases read more <;> rfl
  | case2 rest ih =>
    obtain ⟨others, hothers, rfl⟩ := Fallible.map_eq_ok.mp h
    have hrest := ih hothers fun hopen => hclosed (hopen.behind .doubled)
    rw [List.cons_append, List.cons_append, read_doubled, hrest, map_map_append]
  | case3 => cases h
  | case4 rest hsign path behind hread _ ih =>
    obtain ⟨others, hothers, rfl⟩ := Fallible.map_eq_ok.mp h
    -- The rest is closed, and the expression is settled, because the whole text is closed.
    obtain ⟨written, hne, rfl⟩ := Path.scopedAttribute_split hread
    have hsingle : (written ++ behind).head? ≠ some '@' :=
      fun hhead => (List.head?_eq_some_iff.mp hhead).elim hsign
    have hspan {spans : List Span} (hspans : Cut behind spans) :=
      hspans.expression_of_read hsingle hread
    have hrest := ih hothers fun hopen => hclosed (hopen.behind hspan)
    have hlonger := Path.scopedAttribute_append hread (OpenEnded.settled hclosed hspan) more
    have hsingle' : (written ++ behind ++ more).head? ≠ some '@' := by
      rwa [List.head?_append_of_ne_nil _ (List.append_ne_nil_of_left_ne_nil hne behind)]
    rw [List.cons_append, read_computed hsingle' hlonger, hrest, map_map_append]
  | case5 c rest _ hsign ih =>
    obtain ⟨others, hothers, rfl⟩ := Fallible.map_eq_ok.mp h
    have hrest := ih hothers fun hopen => hclosed (hopen.plain hsign)
    rw [List.cons_append, read_plain hsign, hrest, map_map_append]

/-- A template is complained about where it stands. -/
theorem read_site {text : List Char} {fault : Fault} (h : read text = .error fault) :
    fault.site <:+ text := by
  fun_induction read text with
  | case1 => cases h
  | case2 rest ih =>
    have hrest : rest <:+ '@' :: '@' :: rest := ⟨['@', '@'], rfl⟩
    exact (ih (Fallible.map_eq_error.mp h)).trans hrest
  | case3 rest hsign fault' hread =>
    cases h
    exact Path.scopedAttribute_site hread
  | case4 rest hsign path behind hread _ ih =>
    obtain ⟨written, hwritten, -⟩ := Path.scopedAttribute_sound hread
    have hbehind : behind <:+ '@' :: rest := ⟨written, hwritten.symm⟩
    exact (ih (Fallible.map_eq_error.mp h)).trans hbehind
  | case5 c rest _ hsign ih =>
    exact (ih (Fallible.map_eq_error.mp h)).trans (List.suffix_cons c rest)

end Piece

/-- A complaint about a text, in a longer text. -/
theorem Fault.toSyntaxError_append {fault : Fault} {text : List Char} (h : fault.site <:+ text)
    (front : List Char) :
    fault.toSyntaxError (front ++ text) =
      ⟨(fault.toSyntaxError text).location.shift front, fault.complaint⟩ := by
  obtain ⟨read, hread⟩ := h
  have hsite (read : List Char) :
      fault.toSyntaxError (read ++ fault.site) = ⟨Location.start.after read, fault.complaint⟩ := by
    rw [Fault.toSyntaxError, List.length_append, Nat.add_sub_cancel, List.take_left]
  rw [← hread, ← List.append_assoc, hsite, hsite, Location.start_after_append]

namespace Fragment

/-- A fragment before others. Text before text becomes one text. -/
def before : Fragment → List Fragment → List Fragment
  | .literal last, .literal text :: others => .literal (last ++ text) :: others
  | fragment, others => fragment :: others

/-- Fragments before others. Text that ends the first and text that begins the second are one. -/
def join : List Fragment → List Fragment → List Fragment
  | [], second => second
  | [last], second => last.before second
  | fragment :: next :: first, second => fragment :: join (next :: first) second

theorem before_computed (path : Path) (others : List Fragment) :
    before (.computed path) others = .computed path :: others := by
  cases others <;> rfl

theorem before_ne_nil (fragment : Fragment) (others : List Fragment) :
    fragment.before others ≠ [] := by
  unfold before
  split <;> simp

theorem join_ne_nil {first : List Fragment} (h : first ≠ []) (second : List Fragment) :
    join first second ≠ [] := by
  fun_cases join first second with
  | case1 => exact absurd rfl h
  | case2 last => exact before_ne_nil last second
  | case3 => simp

theorem append_computed (text : String) (path : Path) (fragments : List Fragment) :
    append text (.computed path :: fragments) = .computed path :: append text fragments := by
  cases fragments <;> rfl

theorem append_cons (text : String) (fragment : Fragment) {fragments : List Fragment}
    (h : fragments ≠ []) :
    append text (fragment :: fragments) = fragment :: append text fragments := by
  obtain ⟨next, others, rfl⟩ := List.exists_cons_of_ne_nil h
  cases fragment <;> rfl

theorem append_before (text : String) (fragment : Fragment) (others : List Fragment) :
    append text (fragment.before others) = fragment.before (append text others) := by
  cases fragment with
  | computed path => rw [before_computed, before_computed, append_computed]
  | literal last =>
    rcases others with _ | ⟨next, others⟩
    · rfl
    · cases next with
      | computed path =>
        rw [before, append_cons text _ (by simp), append_computed, before]
        all_goals simp
      | literal front =>
        cases others with
        | nil => rw [before, append, append, before, String.append_assoc]
        | cons next others =>
          rw [before, append_cons text (.literal (last ++ front)) (by simp),
            append_cons text (.literal front) (by simp), before]

theorem append_join (text : String) (first second : List Fragment) :
    append text (join first second) = join first (append text second) := by
  fun_induction join first second with
  | case1 => rfl
  | case2 last second => exact append_before text last second
  | case3 fragment next first second ih =>
    rw [append_cons text _ (join_ne_nil (by simp) _), ih, join]

theorem before_concat (fragment : Fragment) (others : List Fragment) (path : Path) :
    fragment.before others ++ [.computed path] = fragment.before (others ++ [.computed path]) := by
  cases fragment with
  | computed other => rw [before_computed, before_computed, List.cons_append]
  | literal last =>
    rcases others with _ | ⟨next, others⟩
    · rfl
    · cases next <;> rfl

theorem join_concat (first second : List Fragment) (path : Path) :
    join first second ++ [.computed path] = join first (second ++ [.computed path]) := by
  fun_induction join first second with
  | case1 => rfl
  | case2 last second => exact before_concat last second path
  | case3 fragment next first second ih => rw [List.cons_append, ih, join]

theorem join_nil (first : List Fragment) : join first [] = first := by
  induction first with
  | nil => rfl
  | cons fragment first ih =>
    cases first with
    | nil => cases fragment <;> rfl
    | cons next first => rw [join, ih]

theorem push_join (first second : List Fragment) (piece : Piece) :
    push (join first second) piece = join first (push second piece) := by
  cases piece with
  | plain c => exact append_join _ first second
  | computed path => exact join_concat first second path

theorem ofPieces_append (first second : List Piece) :
    ofPieces (first ++ second) = join (ofPieces first) (ofPieces second) := by
  induction second using List.reverseRecOn with
  | nil =>
    rw [List.append_nil]
    exact (join_nil (ofPieces first)).symm
  | append_singleton second piece ih =>
    have hconcat (pieces : List Piece) :
        ofPieces (pieces ++ [piece]) = push (ofPieces pieces) piece := by
      rw [ofPieces, List.foldl_concat, ← ofPieces]
    rw [← List.append_assoc, hconcat, ih, hconcat, push_join]

theorem render_before (model : Model) (value : Value) (fragment : Fragment)
    (others : List Fragment) :
    String.join ((fragment.before others).map (render model value)) =
      fragment.render model value ++ String.join (others.map (render model value)) := by
  unfold before
  split
  · simp [render, String.append_assoc]
  · simp

theorem render_join (model : Model) (value : Value) (first second : List Fragment) :
    String.join ((join first second).map (render model value)) =
      String.join (first.map (render model value)) ++
        String.join (second.map (render model value)) := by
  fun_induction join first second with
  | case1 => simp
  | case2 last second => exact render_before model value last second
  | case3 fragment next first second ih => simp [ih, String.append_assoc]

end Fragment

namespace Template

/-- Behind a template that is closed, another is compiled as by itself: its fragments are added, and
a complaint about it moves with it. -/
theorem parse_append (a b : String) {first : Template} (hfirst : parse a = .ok first)
    (hclosed : ¬ OpenEnded a.toList) :
    (∀ second, parse b = .ok second → ∃ whole, parse (a ++ b) = .ok whole ∧
      whole.fragments = Fragment.join first.fragments second.fragments ∧
      ∀ model value,
        whole.render model value = first.render model value ++ second.render model value) ∧
    ∀ error, parse b = .error error →
      parse (a ++ b) = .error ⟨error.location.shift a.toList, error.complaint⟩ := by
  obtain ⟨pieces, hpieces, rfl⟩ := parse_ok_iff.mp hfirst
  have hread := Piece.read_append hpieces hclosed b.toList
  rw [← String.toList_append] at hread
  constructor
  · intro second hsecond
    obtain ⟨others, hothers, rfl⟩ := parse_ok_iff.mp hsecond
    rw [hothers] at hread
    refine ⟨_, parse_ok_iff.mpr ⟨_, hread, rfl⟩, Fragment.ofPieces_append pieces others, ?_⟩
    intro model value
    rw [render, Fragment.ofPieces_append]
    exact Fragment.render_join model value _ _
  · intro error herror
    rw [parse_eq] at herror
    split at herror
    · cases herror
    · rename_i fault hfault
      cases herror
      rw [hfault] at hread
      rw [parse_eq, hread, String.toList_append]
      exact congrArg Except.error (Fault.toSyntaxError_append (Piece.read_site hfault) a.toList)

/-- A first line of text, an expression in braces with a dot behind it, then text or a bare sign. -/
theorem parse_append_lines :
    let a := "x\n@\x7bid\x7d."
    let first : Template := ⟨a, [.literal "x\n", .computed ⟨[.key "id"]⟩, .literal "."]⟩
    (parse a = .ok first ∧ ¬ OpenEnded a.toList) ∧
      (∃ whole, parse (a ++ "n") = .ok whole ∧
        whole.fragments = [.literal "x\n", .computed ⟨[.key "id"]⟩, .literal ".n"]) ∧
      parse (a ++ "n @") = .error ⟨⟨2, 10⟩, .noPath⟩ := by
  intro a first
  have hfirst : parse a = .ok first := by
    have hencode : encode first.fragments = a := by decide
    rw [← hencode]
    exact parse_encode ⟨by decide, by decide⟩
  have hclosed : ¬ OpenEnded a.toList := by
    have hid : Path.SpellsBody ['i', 'd'] ⟨[.key "id"]⟩ := .of_word (by decide)
    have hread : Path.scopedAttribute ('@' :: ['\x7b', 'i', 'd', '\x7d'] ++ ['.']) =
        .ok (⟨[.key "id"]⟩, ['.']) := Path.scopedAttribute_braced hid ['.']
    have hdot : Cut ['.'] [.run ['.']] := .singleton_run (by decide) (by decide)
    have hcut : Cut (['x', '\n'] ++ ('@' :: ['\x7b', 'i', 'd', '\x7d'] ++ ['.'])) _ :=
      .run (by decide) (by decide) (by simp) (hdot.expression_of_read (by decide) hread)
    have htext : a.toList = ['x', '\n'] ++ ('@' :: ['\x7b', 'i', 'd', '\x7d'] ++ ['.']) := by
      decide
    rw [htext]
    exact OpenEnded.not_of_braced hcut (by simp)
  have hn : Piece.read "n".toList = .ok [.plain 'n'] := by
    simp [Piece.read_plain, Piece.read_nil, Except.map]
  have hsign : Piece.read "n @".toList = .error ⟨.noPath, [], []⟩ := by
    have hfault : Piece.read ['@'] = .error ⟨.noPath, [], []⟩ := Piece.read_fault (by decide) rfl
    simp [Piece.read_plain, hfault, Except.map]
  have hsecond := parse_ok_iff.mpr ⟨_, hn, rfl⟩
  have herror : parse "n @" = .error ⟨⟨1, 4⟩, .noPath⟩ := by
    rw [parse_eq, hsign]
    rfl
  refine ⟨⟨hfirst, hclosed⟩, ?_, ?_⟩
  · obtain ⟨whole, hwhole, hfragments, -⟩ := (parse_append a "n" hfirst hclosed).1 _ hsecond
    exact ⟨whole, hwhole, hfragments⟩
  · have hmoved : Location.shift a.toList ⟨1, 4⟩ = ⟨2, 10⟩ := by decide
    rw [(parse_append a "n @" hfirst hclosed).2 _ herror, hmoved]

end Template

end ShapeRules
