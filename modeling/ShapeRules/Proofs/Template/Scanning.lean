import ShapeRules.Proofs.Path.Faults
import ShapeRules.Proofs.Template.Pieces
import ShapeRules.Proofs.Text.Cursor

/-!
The scanner of templates. Between two passes nothing is pending, and each pass adds to the fragments
what the pieces that it goes over add, so that a template is what its pieces add up to.
-/

namespace ShapeRules

namespace Scanner

open Fragment (push)

/-- What the pieces of the rest of `input` make of the fragments of the text before. -/
def outcome (input : List Char) (fragments : List Fragment) :
    Except Fault (List Piece) → Except SyntaxError (List Fragment)
  | .ok pieces => .ok (pieces.foldl push fragments)
  | .error fault => .error (fault.toSyntaxError input)

private theorem outcome_map (input : List Char) (fragments : List Fragment) (piece : Piece)
    (result : Except Fault (List Piece)) :
    outcome input fragments (result.map (piece :: ·)) =
      outcome input (push fragments piece) result := by
  cases result <;> rfl

private theorem outcome_run {run : List Char} (hrun : ∀ c ∈ run, c ≠ '@') (input rest : List Char)
    (fragments : List Fragment) :
    outcome input fragments (Piece.read (run ++ rest)) =
      outcome input ((run.map .plain).foldl push fragments) (Piece.read rest) := by
  induction run generalizing fragments with
  | nil => rfl
  | cons c run ih =>
    obtain ⟨hc, hothers⟩ := List.forall_mem_cons.mp hrun
    rw [List.cons_append, Piece.read_plain hc, outcome_map, ih hothers, List.map_cons,
      List.foldl_cons]

/-- The text behind `consumed` up to the cursor is pending. -/
structure Pending (scanner : Scanner) (consumed run : List Char) : Prop where
  behind : scanner.cursor.Behind (consumed ++ run)
  mark : scanner.mark = byteLength consumed

variable {scanner : Scanner} {consumed run rest : List Char}

theorem Pending.flush_fragments (h : scanner.Pending consumed run) :
    scanner.flush.fragments = (run.map .plain).foldl push scanner.fragments := by
  rw [flush, h.mark, h.behind.sliceFrom]
  cases run with
  | nil => rfl
  | cons c run => rw [Fragment.push_run (by simp)]

/-- Nothing is pending at a cursor that was just marked. -/
theorem pending_of_marked {cursor : Cursor} (h : cursor.Behind consumed)
    (fragments : List Fragment) : Pending ⟨cursor, cursor.position, fragments⟩ consumed [] := by
  refine ⟨?_, h.position⟩
  rw [List.append_nil]
  exact h

theorem Pending.toSign (h : scanner.Pending consumed []) :
    scanner.toSign.Pending consumed (scanner.cursor.rest.takeWhile (· ≠ '@')) := by
  have hbehind := h.behind
  rw [List.append_nil] at hbehind
  exact ⟨hbehind.skip List.takeWhile_append_dropWhile.symm, h.mark⟩

theorem toSign_rest (scanner : Scanner) :
    scanner.toSign.cursor.rest = scanner.cursor.rest.dropWhile (· ≠ '@') := by
  have hsplit := List.takeWhile_append_dropWhile (p := (· ≠ '@')) (l := scanner.cursor.rest)
  rw [Scanner.toSign, Cursor.advanceWhile, Cursor.skip_rest]
  nth_rewrite 2 [← hsplit]
  rw [List.drop_left]

/-- The scanner after a doubled sign: the first sign ends the run before it. -/
theorem Pending.take_doubled (h : scanner.Pending consumed run)
    (hrest : scanner.cursor.rest = '@' :: '@' :: rest) :
    ∃ next, scanner.take = .ok next ∧ next.Pending (consumed ++ run ++ ['@', '@']) [] ∧
      next.cursor.rest = rest ∧ next.cursor.input = scanner.cursor.input ∧
      next.fragments = push ((run.map .plain).foldl push scanner.fragments) (.plain '@') := by
  have hpeek : scanner.cursor.peekNth 1 = some '@' := by
    rw [Cursor.peekNth, hrest]
    rfl
  have hfirst : scanner.cursor.advance.rest = '@' :: rest := by
    rw [Cursor.advance_rest, hrest, List.tail_cons]
  have hflush :
      Pending { scanner with cursor := scanner.cursor.advance } consumed (run ++ ['@']) := by
    refine ⟨?_, h.mark⟩
    rw [← List.append_assoc]
    exact h.behind.advance hrest
  have hsecond : scanner.cursor.advance.advance.Behind (consumed ++ run ++ ['@', '@']) := by
    simpa using hflush.behind.advance hfirst
  rw [take, if_pos hpeek]
  refine ⟨_, rfl, ?_, ?_, ?_, ?_⟩
  · refine pending_of_marked ?_ _
    rw [flush_cursor]
    exact hsecond
  · simp [Cursor.advance_rest, hrest]
  · simp [Cursor.advance_input]
  · rw [hflush.flush_fragments, List.map_append, List.foldl_append]
    rfl

private theorem peekNth_ne_sign {cursor : Cursor} (hsign : rest.head? ≠ some '@')
    (hrest : cursor.rest = '@' :: rest) : cursor.peekNth 1 ≠ some '@' := by
  rw [Cursor.peekNth, hrest]
  intro hsecond
  apply hsign
  rw [List.head?_eq_getElem?]
  exact hsecond

/-- The scanner after a scoped attribute: the run before it ends at its sign. -/
theorem Pending.take_computed {behind : List Char} {path : Path} (h : scanner.Pending consumed run)
    (hsign : rest.head? ≠ some '@') (hrest : scanner.cursor.rest = '@' :: rest)
    (hpath : Path.scopedAttribute ('@' :: rest) = .ok (path, behind)) :
    ∃ next read, scanner.take = .ok next ∧ next.Pending (consumed ++ run ++ read) [] ∧
      next.cursor.rest = behind ∧ next.cursor.input = scanner.cursor.input ∧
      next.fragments = push ((run.map .plain).foldl push scanner.fragments) (.computed path) := by
  obtain ⟨read, hread, -⟩ := Path.scopedAttribute_sound hpath
  rw [← hrest] at hread
  have hattribute : scanner.flush.cursor.scopedAttribute =
      (.ok path, scanner.cursor.advanceTo behind) := by
    simp only [flush_cursor, Cursor.scopedAttribute, hrest, hpath]
  refine ⟨⟨scanner.cursor.advanceTo behind, (scanner.cursor.advanceTo behind).position,
    scanner.flush.fragments ++ [.computed path]⟩, read, ?_,
    pending_of_marked (h.behind.advanceTo hread) _, Cursor.advanceTo_rest hread,
    Cursor.skip_input _ _, ?_⟩
  · rw [take, if_neg (peekNth_ne_sign hsign hrest)]
    simp only [hattribute]
  · rw [h.flush_fragments]
    rfl

theorem Pending.take_fault {fault : Fault} (h : scanner.Pending consumed run)
    (hsign : rest.head? ≠ some '@') (hrest : scanner.cursor.rest = '@' :: rest)
    (hfault : Path.scopedAttribute ('@' :: rest) = .error fault) :
    scanner.take = .error (fault.toSyntaxError scanner.cursor.input) := by
  obtain ⟨read, hread⟩ := Path.scopedAttribute_site hfault
  rw [← hrest] at hread
  have hsite := h.behind.advanceTo hread.symm
  have hinput : scanner.cursor.input = consumed ++ run ++ read ++ fault.site := by
    rw [h.behind.input, ← hread, List.append_assoc, List.append_assoc, List.append_assoc]
  have hattribute : scanner.flush.cursor.scopedAttribute =
      (.error (fault.toSyntaxError scanner.cursor.input),
        scanner.cursor.advanceTo fault.unread) := by
    rw [Fault.toSyntaxError, hinput, List.length_append, Nat.add_sub_cancel, List.take_left,
      ← hsite.location]
    simp only [flush_cursor, Cursor.scopedAttribute, hrest, hfault]
  rw [take, if_neg (peekNth_ne_sign hsign hrest)]
  simp only [hattribute]

/-- One pass at a sign: either the scanner stands behind what it took, with the outcome unchanged,
or it fails with that outcome. -/
theorem Pending.take_outcome (h : scanner.Pending consumed run)
    (hrest : scanner.cursor.rest = '@' :: rest) {result : Except SyntaxError (List Fragment)}
    (hresult : outcome scanner.cursor.input ((run.map .plain).foldl push scanner.fragments)
      (Piece.read scanner.cursor.rest) = result) :
    (∃ next read, scanner.take = .ok next ∧ next.Pending (consumed ++ run ++ read) [] ∧
      outcome next.cursor.input next.fragments (Piece.read next.cursor.rest) = result) ∨
    ∃ error, scanner.take = .error error ∧ result = .error error := by
  rw [hrest] at hresult
  by_cases hsign : rest.head? = some '@'
  · obtain ⟨behind, rfl⟩ := List.head?_eq_some_iff.mp hsign
    obtain ⟨next, htake, hpending, hnext, hinput, hfragments⟩ := h.take_doubled hrest
    refine .inl ⟨next, ['@', '@'], htake, hpending, ?_⟩
    rw [hnext, hinput, hfragments, ← outcome_map, ← Piece.read_doubled]
    exact hresult
  · cases hpath : Path.scopedAttribute ('@' :: rest) with
    | ok found =>
      obtain ⟨path, behind⟩ := found
      obtain ⟨next, read, htake, hpending, hnext, hinput, hfragments⟩ :=
        h.take_computed hsign hrest hpath
      refine .inl ⟨next, read, htake, hpending, ?_⟩
      rw [hnext, hinput, hfragments, ← outcome_map, ← Piece.read_computed hsign hpath]
      exact hresult
    | error fault =>
      refine .inr ⟨_, h.take_fault hsign hrest hpath, ?_⟩
      rw [← hresult, Piece.read_fault hsign hpath]
      rfl

private theorem outcome_toSign (scanner : Scanner) :
    outcome scanner.toSign.cursor.input
      (((scanner.cursor.rest.takeWhile (· ≠ '@')).map .plain).foldl push scanner.toSign.fragments)
      (Piece.read scanner.toSign.cursor.rest) =
    outcome scanner.cursor.input scanner.fragments (Piece.read scanner.cursor.rest) := by
  have hrun : ∀ c ∈ scanner.cursor.rest.takeWhile (· ≠ '@'), c ≠ '@' := by
    intro c hc
    simpa using List.mem_takeWhile_imp hc
  have hinput : scanner.toSign.cursor.input = scanner.cursor.input := Cursor.skip_input _ _
  have hfragments : scanner.toSign.fragments = scanner.fragments := rfl
  rw [hinput, hfragments, toSign_rest, ← outcome_run hrun, List.takeWhile_append_dropWhile]

theorem toSign_rest_cons (hend : ¬ scanner.toSign.cursor.atEnd = true) :
    ∃ rest, scanner.toSign.cursor.rest = '@' :: rest := by
  cases hrest : scanner.toSign.cursor.rest with
  | nil =>
    rw [Cursor.atEnd, hrest] at hend
    exact absurd rfl hend
  | cons c rest =>
    have hstop := List.head?_dropWhile_not (· ≠ '@') scanner.cursor.rest
    rw [← toSign_rest, hrest] at hstop
    have hc : c = '@' := by simpa using hstop
    rw [hc]
    exact ⟨rest, rfl⟩

/-- Scanning makes of a text what its pieces make of it. -/
theorem run_eq_outcome (h : scanner.Pending consumed []) :
    scanner.run =
      outcome scanner.cursor.input scanner.fragments (Piece.read scanner.cursor.rest) := by
  fun_induction Scanner.run scanner generalizing consumed with
  | case1 scanner hend =>
    have hrest : scanner.toSign.cursor.rest = [] := List.isEmpty_iff.mp hend
    rw [← outcome_toSign, hrest, Piece.read_nil, h.toSign.flush_fragments]
    rfl
  | case2 scanner hend error htake =>
    obtain ⟨rest, hrest⟩ := toSign_rest_cons hend
    obtain ⟨_, _, hnext, -⟩ | ⟨_, herror, houtcome⟩ :=
      h.toSign.take_outcome hrest (outcome_toSign scanner)
    · rw [htake] at hnext
      cases hnext
    · rw [htake] at herror
      cases herror
      exact houtcome.symm
  | case3 scanner hend next htake _ ih =>
    obtain ⟨rest, hrest⟩ := toSign_rest_cons hend
    obtain ⟨_, _, hnext, hpending, houtcome⟩ | ⟨_, herror, -⟩ :=
      h.toSign.take_outcome hrest (outcome_toSign scanner)
    · rw [htake] at hnext
      cases hnext
      rw [ih hpending, houtcome]
    · rw [htake] at herror
      cases herror

end Scanner

namespace Template

/-- A template is what its pieces add up to. -/
theorem parse_eq (source : String) :
    parse source =
      match Piece.read source.toList with
      | .ok pieces => .ok ⟨source, Fragment.ofPieces pieces⟩
      | .error fault => .error (fault.toSyntaxError source.toList) := by
  have hrun := Scanner.run_eq_outcome
    (Scanner.pending_of_marked (Cursor.start_behind source.toList) [])
  change (Scanner.start source.toList).run =
    Scanner.outcome source.toList [] (Piece.read source.toList) at hrun
  cases hread : Piece.read source.toList with
  | ok pieces =>
    rw [hread] at hrun
    simp only [parse, hrun, Scanner.outcome]
    rfl
  | error fault =>
    rw [hread] at hrun
    simp only [parse, hrun, Scanner.outcome]

theorem parse_ok_iff {source : String} {template : Template} :
    parse source = .ok template ↔
      ∃ pieces, Piece.read source.toList = .ok pieces ∧
        template = ⟨source, Fragment.ofPieces pieces⟩ := by
  rw [parse_eq]
  cases Piece.read source.toList <;> simp [eq_comm]

end Template

end ShapeRules
