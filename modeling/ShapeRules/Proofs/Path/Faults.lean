import ShapeRules.Proofs.Path.Reading

/-!
The places of faults. A reader complains about a place in the text that it was given, or in the
text around it that it was told to begin from.
-/

namespace ShapeRules

namespace Path

theorem quoted_site {quote : Char} {opening text : List Char} {fault : Fault}
    (h : quoted quote opening text = .error fault) (htext : text <:+ opening) :
    fault.site <:+ opening := by
  fun_induction quoted quote opening text with
  | case1 =>
    cases h
    exact List.suffix_rfl
  | case2 => cases h
  | case3 =>
    cases h
    exact List.suffix_rfl
  | case4 =>
    cases h
    exact htext
  | case5 => cases h
  | case6 c tail d hescape fault' hread hquote ih =>
    cases h
    have htail : tail <:+ '\\' :: c :: tail := ⟨['\\', c], rfl⟩
    exact ih hread (htail.trans htext)
  | case7 => cases h
  | case8 c rest hquote hslash fault' hread ih =>
    cases h
    exact ih hread ((List.suffix_cons c rest).trans htext)

theorem argument_site {opening text : List Char} {fault : Fault}
    (h : argument opening text = .error fault) (htext : text <:+ opening) :
    fault.site <:+ opening := by
  unfold argument at h
  split at h
  · cases h
    exact List.suffix_rfl
  · rename_i c rest
    split_ifs at h
    · exact (quoted_site h (List.suffix_cons c rest)).trans htext
    · cases h
      exact htext

theorem skipSpace_suffix (text : List Char) : skipSpace text <:+ text :=
  List.dropWhile_suffix _

private theorem skipSpace_behind {opening text value behind : List Char}
    (hread : argument opening (skipSpace text) = .ok (value, behind)) :
    skipSpace behind <:+ text := by
  obtain ⟨written, hwritten, -⟩ := argument_sound hread
  have hbehind : behind <:+ skipSpace text := ⟨written, hwritten.symm⟩
  exact (skipSpace_suffix behind).trans (hbehind.trans (skipSpace_suffix text))

theorem moreArguments_site {opening text : List Char} {fault : Fault}
    (h : moreArguments opening text = .error fault) (htext : text <:+ opening) :
    fault.site <:+ opening := by
  fun_induction moreArguments opening text with
  | case1 text fault' hread =>
    cases h
    exact argument_site hread ((skipSpace_suffix text).trans htext)
  | case2 =>
    cases h
    exact List.suffix_rfl
  | case3 => cases h
  | case4 text value behind hread others hnext _ fault' hmore ih =>
    cases h
    have hcomma := skipSpace_behind hread
    rw [hnext] at hcomma
    exact ih hmore (((List.suffix_cons ',' others).trans hcomma).trans htext)
  | case5 => cases h
  | case6 text value behind hread c others _ _ hnext =>
    cases h
    have hother := skipSpace_behind hread
    rw [hnext] at hother
    exact hother.trans htext

theorem arguments_site {opening text : List Char} {fault : Fault}
    (h : arguments opening text = .error fault) (htext : text <:+ opening) :
    fault.site <:+ opening := by
  unfold arguments at h
  split at h
  · cases h
  · exact moreArguments_site h ((skipSpace_suffix text).trans htext)

theorem literal_site {text : List Char} {fault : Fault} (h : literal text = .error fault) :
    fault.site <:+ text := by
  unfold literal at h
  dsimp only at h
  split at h
  · cases h
    exact List.suffix_rfl
  · split_ifs at h
    cases h
    exact List.suffix_rfl

theorem call_site {start opening : List Char} {word : String} {fault : Fault}
    (h : call start word opening = .error fault) (hopening : opening <:+ start) :
    fault.site <:+ start := by
  unfold call at h
  split at h
  · cases h
    exact List.suffix_rfl
  · split at h
    · rename_i hread
      cases h
      exact (arguments_site hread (List.tail_suffix opening)).trans hopening
    · split_ifs at h
      cases h
      exact List.suffix_rfl

theorem segment_site {text : List Char} {fault : Fault} (h : Path.segment text = .error fault) :
    fault.site <:+ text := by
  unfold Path.segment at h
  split at h
  · cases h
    exact List.suffix_rfl
  · cases h
  · exact literal_site h
  · rename_i c rest _ _
    split_ifs at h
    · dsimp only at h
      split at h
      · rename_i behind hbehind
        refine call_site h ?_
        rw [← hbehind]
        exact List.dropWhile_suffix _
      · cases h
    · cases h
      exact List.suffix_rfl

theorem continuation?_suffix {braced : Bool} {text next : List Char}
    (h : continuation? braced text = some next) : next <:+ text := by
  unfold continuation? at h
  split at h
  · cases h
    exact List.suffix_rfl
  · cases h
    exact List.suffix_cons _ _
  · split_ifs at h
    cases h
    exact List.suffix_cons _ _
  · cases h

theorem moreSegments_site {braced : Bool} {text : List Char} {fault : Fault}
    (h : moreSegments braced text = .error fault) : fault.site <:+ text := by
  fun_induction moreSegments braced text with
  | case1 => cases h
  | case2 text next hnext fault' hread =>
    cases h
    exact (segment_site hread).trans (continuation?_suffix hnext)
  | case3 => cases h
  | case4 text next hnext first behind hread _ fault' hmore ih =>
    cases h
    obtain ⟨written, hwritten, -⟩ := segment_sound hread
    have hbehind : behind <:+ next := ⟨written, hwritten.symm⟩
    exact (ih hmore).trans (hbehind.trans (continuation?_suffix hnext))

theorem body_site {braced : Bool} {text : List Char} {fault : Fault}
    (h : body braced text = .error fault) : fault.site <:+ text := by
  unfold body at h
  split at h
  · rename_i hfirst
    cases h
    exact segment_site hfirst
  · rename_i first behind hfirst
    split at h
    · rename_i hmore
      cases h
      obtain ⟨written, hwritten, -⟩ := segment_sound hfirst
      have hbehind : behind <:+ text := ⟨written, hwritten.symm⟩
      exact (moreSegments_site hmore).trans hbehind
    · cases h

/-- A scoped attribute is complained about where it stands. -/
theorem scopedAttribute_site {text : List Char} {fault : Fault}
    (h : scopedAttribute text = .error fault) : fault.site <:+ text := by
  unfold scopedAttribute at h
  split at h
  · rename_i inner
    have hinner : inner <:+ '@' :: '\x7b' :: inner := ⟨['@', '\x7b'], rfl⟩
    dsimp only at h
    split_ifs at h
    · split at h
      · rename_i hbody
        cases h
        exact (body_site hbody).trans hinner
      · cases h
      · cases h
        exact List.suffix_cons _ _
      · rename_i c rest _ hbody
        cases h
        obtain ⟨written, hwritten, -⟩ := body_sound hbody
        have hrest : c :: rest <:+ inner := ⟨written, hwritten.symm⟩
        exact hrest.trans hinner
    · cases h
      exact List.suffix_cons _ _
  · rename_i rest _
    split_ifs at h
    · exact (body_site h).trans (List.suffix_cons _ _)
    · cases h
      exact List.suffix_cons _ _
  · cases h
    exact List.suffix_rfl

end Path

end ShapeRules
