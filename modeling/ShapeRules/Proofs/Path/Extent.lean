import ShapeRules.Proofs.Path.Reading

/-!
How far a path reaches. Reading goes at least as far as any path does that the text begins with, and
what was read stays the same when text is added behind it, except where a path without braces could
go on in that text.
-/

namespace ShapeRules

namespace Path

/-! ### No path reaches farther than reading goes -/

private theorem word_reaches {word rest behind : List Char} {read : Segment} (h : Word word)
    (hread : Path.segment (word ++ rest) = .ok (read, behind)) : behind.length ≤ rest.length := by
  have hall : ∀ c ∈ word, isWordChar c = true := fun c hc => (isWordChar_iff c).mpr (h.2 c hc)
  have hdrop : (rest.dropWhile isWordChar).length ≤ rest.length :=
    (List.dropWhile_sublist isWordChar).length_le
  rw [segment_word h, List.dropWhile_append_of_pos hall] at hread
  split at hread
  · rename_i opening hopening
    have hcall := call_length hread
    rw [hopening, List.length_cons] at hdrop
    rw [List.tail_cons] at hcall
    omega
  · cases hread
    exact hdrop

theorem segment_reaches {written rest behind : List Char} {segment read : Segment}
    (h : SpellsSegment written segment)
    (hread : Path.segment (written ++ rest) = .ok (read, behind)) :
    behind.length ≤ rest.length := by
  have hexact (hkey : ∀ name, segment ≠ .key name) : behind.length ≤ rest.length := by
    rw [segment_complete h fun name hname => absurd hname (hkey name)] at hread
    cases hread
    exact Nat.le_refl _
  cases h with
  | key hword => exact word_reaches hword hread
  | wildcard => exact hexact (by simp)
  | call => exact hexact (by simp)
  | literal hliteral =>
    cases hliteral
    exact hexact (by simp)

theorem moreSegments_ok {braced : Bool} {text next rest : List Char} {segments : List Segment}
    (h : moreSegments braced text = .ok (segments, rest))
    (hnext : continuation? braced text = some next) :
    ∃ first behind others, segment next = .ok (first, behind) ∧
      moreSegments braced behind = .ok (others, rest) := by
  rw [moreSegments.eq_def] at h
  split at h
  · rename_i hnone
    rw [hnext] at hnone
    cases hnone
  · rename_i hsome
    rw [hnext] at hsome
    cases hsome
    split at h
    · cases h
    · rename_i first behind hread
      split at h
      · rename_i others rest' hmore
        cases h
        exact ⟨first, behind, others, hread, hmore⟩
      · cases h

variable {braced : Bool} {written others rest behind : List Char}

/-- Of a segment with others behind it, either the reader ends the segment where it ends, or there
are no others and reading can only go farther. -/
private theorem others_reach {segment first : Segment} {segments more : List Segment}
    {between : List Char} (hsegment : SpellsSegment written segment)
    (hothers : SpellsOthers others segments)
    (hread : Path.segment (written ++ (others ++ rest)) = .ok (first, between))
    (hmore : moreSegments braced between = .ok (more, behind))
    (hreach : ∀ {more}, moreSegments braced (others ++ rest) = .ok (more, behind) →
      behind.length ≤ rest.length) :
    behind.length ≤ rest.length := by
  by_cases hne : others = []
  · have hsegment := segment_reaches hsegment hread
    have hmore := moreSegments_length hmore
    rw [hne, List.nil_append] at hsegment
    omega
  · rw [segment_complete hsegment ((hothers.ends_of_ne_nil hne rest).before segment)] at hread
    cases hread
    exact hreach hmore

theorem moreSegments_reaches {segments more : List Segment} (h : SpellsOthers written segments)
    (hread : moreSegments braced (written ++ rest) = .ok (more, behind)) :
    behind.length ≤ rest.length := by
  -- By induction on the spelling: the reader may leave it in the last segment only.
  induction h generalizing more with
  | nil => exact moreSegments_length hread
  | separated hseparator hsegment hothers ih =>
    rw [List.append_assoc, List.cons_append] at hread
    obtain ⟨_, _, _, hfirst, hmore⟩ := moreSegments_ok hread
      (continuation?_separator braced hseparator (hsegment.starts _))
    exact others_reach hsegment hothers hfirst hmore ih
  | @literal text _ _ _ hliteral hothers ih =>
    have hnext (next : List Char) : continuation? braced (text ++ next) = some (text ++ next) := by
      obtain ⟨_, _⟩ := hliteral
      rfl
    rw [List.append_assoc] at hread
    obtain ⟨_, _, _, hfirst, hmore⟩ := moreSegments_ok hread (hnext _)
    exact others_reach (.literal hliteral) hothers hfirst hmore ih

theorem body_reaches {path read : Path} (h : SpellsBody written path)
    (hread : body braced (written ++ rest) = .ok (read, behind)) :
    behind.length ≤ rest.length := by
  obtain ⟨hsegment, hothers⟩ := h
  rw [List.append_assoc] at hread
  unfold body at hread
  split at hread
  · cases hread
  · rename_i hfirst
    split at hread
    · cases hread
    · rename_i hmore
      cases hread
      exact others_reach hsegment hothers hfirst hmore (moreSegments_reaches hothers)

theorem scopedAttribute_eq_body {text : List Char} (h : startsSegment text = true) :
    scopedAttribute ('@' :: text) = body false text := by
  rw [scopedAttribute, if_pos h]
  rintro inner rfl
  exact Bool.false_ne_true h

theorem scopedAttribute_reaches {path read : Path} (h : SpellsAttribute written path)
    (hread : scopedAttribute (written ++ rest) = .ok (read, behind)) :
    behind.length ≤ rest.length := by
  cases h with
  | signed hbody =>
    rw [List.cons_append, scopedAttribute_eq_body (hbody.starts rest)] at hread
    exact body_reaches hbody hread
  | braced hbody =>
    rw [List.append_assoc, List.singleton_append, scopedAttribute_braced hbody rest] at hread
    cases hread
    exact Nat.le_refl _

/-- What is read at a sign is the longest stretch from there that is a scoped attribute. -/
theorem scopedAttribute_longest {path : Path} {more : List Char}
    (h : scopedAttribute (written ++ rest) = .ok (path, rest)) (hne : more ≠ [])
    (hmore : more <+: rest) (other : Path) : ¬ SpellsAttribute (written ++ more) other := by
  intro hother
  obtain ⟨behind, rfl⟩ := hmore
  rw [← List.append_assoc] at h
  have hreach := scopedAttribute_reaches hother h
  have hlength := List.length_pos_iff.mpr hne
  rw [List.length_append] at hreach
  omega

/-! ### What is read does not depend on the text behind it -/

/-- A path without braces cannot go on at the text, whatever is added behind it. -/
structure Settled (text : List Char) : Prop where
  nonempty : text ≠ []
  dot : text ≠ ['.']

theorem ends_append {text : List Char} (h : Ends text) (hne : text ≠ []) (more : List Char) :
    Ends (text ++ more) := by
  obtain ⟨c, text, rfl⟩ := List.exists_cons_of_ne_nil hne
  exact ends_cons.mpr (ends_cons.mp h)

theorem segment_append {text : List Char} {segment : Segment}
    (h : Path.segment text = .ok (segment, rest)) (hne : rest ≠ []) (more : List Char) :
    Path.segment (text ++ more) = .ok (segment, rest ++ more) := by
  obtain ⟨written, rfl, hspells⟩ := segment_sound h
  rw [List.append_assoc]
  refine segment_complete hspells ?_
  intro name hname
  exact ends_append (segment_ends h name hname) hne more

theorem startsSegment_append {text : List Char} (h : startsSegment text = true)
    (more : List Char) : startsSegment (text ++ more) = true := by
  cases text with
  | nil => cases h
  | cons c text => exact h

theorem continuation?_append {text next : List Char} (h : continuation? braced text = some next)
    (more : List Char) : continuation? braced (text ++ more) = some (next ++ more) := by
  unfold continuation? at h
  split at h
  · cases h
    rfl
  · cases h
    rfl
  · rename_i tail
    split_ifs at h with hdot
    cases h
    rw [List.cons_append, continuation?, if_pos]
    rw [Bool.or_eq_true] at hdot ⊢
    exact hdot.imp_right fun hstarts => startsSegment_append hstarts more
  · cases h

/-- Where a path without braces does not go on, it does not go on with more text behind that. -/
theorem Settled.continuation?_append {text : List Char} (h : Settled text)
    (hnone : continuation? false text = none) (more : List Char) :
    continuation? false (text ++ more) = none := by
  obtain ⟨c, tail, rfl⟩ := List.exists_cons_of_ne_nil h.nonempty
  by_cases hdot : c = '.'
  · subst hdot
    obtain ⟨d, tail, rfl⟩ := List.exists_cons_of_ne_nil fun hnil => h.dot (hnil ▸ rfl)
    rw [List.cons_append, List.cons_append]
    simpa [continuation?, startsSegment] using hnone
  · rw [List.cons_append]
    unfold continuation? at hnone ⊢
    split <;> simp_all

/-- Segments that end before a settled text are read the same when text is added behind it. -/
theorem moreSegments_append {text : List Char} {segments : List Segment}
    (h : moreSegments false text = .ok (segments, rest)) (hrest : Settled rest)
    (more : List Char) : moreSegments false (text ++ more) = .ok (segments, rest ++ more) := by
  fun_induction moreSegments false text generalizing segments rest with
  | case1 text hnone =>
    cases h
    exact moreSegments_nil (hrest.continuation?_append hnone more)
  | case2 => cases h
  | case3 text next hnext first behind hread _ segments' rest' hmore ih =>
    cases h
    obtain ⟨others, rfl, -⟩ := moreSegments_sound hmore
    have hne : others ++ rest' ≠ [] := List.append_ne_nil_of_right_ne_nil others hrest.nonempty
    exact moreSegments_cons (continuation?_append hnext more) (segment_append hread hne more)
      (ih hmore hrest)
  | case4 => cases h

theorem body_append {text : List Char} {path : Path} (h : body false text = .ok (path, rest))
    (hrest : Settled rest) (more : List Char) :
    body false (text ++ more) = .ok (path, rest ++ more) := by
  unfold body at h
  split at h
  · cases h
  · rename_i first behind hfirst
    split at h
    · cases h
    · rename_i others _ hmore
      cases h
      obtain ⟨written, rfl, -⟩ := moreSegments_sound hmore
      have hne : written ++ rest ≠ [] := List.append_ne_nil_of_right_ne_nil written hrest.nonempty
      simp only [body, segment_append hfirst hne more, moreSegments_append hmore hrest more]

/-- A scoped attribute in braces, and one that cannot go on at the text behind it, is read the same
when text is added. -/
theorem scopedAttribute_append {text : List Char} {path : Path}
    (h : scopedAttribute ('@' :: text) = .ok (path, rest))
    (hclosed : text.head? = some '\x7b' ∨ Settled rest) (more : List Char) :
    scopedAttribute ('@' :: (text ++ more)) = .ok (path, rest ++ more) := by
  obtain ⟨written, hwritten, hspells⟩ := scopedAttribute_sound h
  cases hspells with
  | @signed written _ hbody =>
    obtain rfl : text = written ++ rest := (List.cons.inj hwritten).2
    have hstarts := hbody.starts rest
    rcases hclosed with hbrace | hrest
    · obtain ⟨inner, hinner⟩ := List.head?_eq_some_iff.mp hbrace
      rw [hinner] at hstarts
      exact absurd hstarts Bool.false_ne_true
    · rw [scopedAttribute_eq_body hstarts] at h
      rw [scopedAttribute_eq_body (startsSegment_append hstarts more)]
      exact body_append h hrest more
  | @braced inner _ hbody =>
    obtain rfl : text = '\x7b' :: inner ++ ['\x7d'] ++ rest := (List.cons.inj hwritten).2
    simpa using scopedAttribute_braced hbody (rest ++ more)

/-- Behind the sign of a scoped attribute stands the text that was read with it. -/
theorem scopedAttribute_split {text : List Char} {path : Path}
    (h : scopedAttribute ('@' :: text) = .ok (path, rest)) :
    ∃ written, written ≠ [] ∧ text = written ++ rest := by
  obtain ⟨written, hwritten, hspells⟩ := scopedAttribute_sound h
  have hlength := scopedAttribute_length h
  obtain ⟨behind, rfl⟩ : ∃ behind, written = '@' :: behind := by
    cases hspells <;> exact ⟨_, rfl⟩
  obtain rfl : text = behind ++ rest := (List.cons.inj hwritten).2
  refine ⟨behind, ?_, rfl⟩
  rintro rfl
  rw [List.nil_append, List.length_cons] at hlength
  omega

/-- Of the texts with a sign, those that denote a path are the scoped attributes. -/
theorem parse_sign_iff {text : List Char} {path : Path} :
    parse (String.ofList ('@' :: text)) = .ok path ↔ SpellsAttribute ('@' :: text) path := by
  rw [parse_ok_iff, String.toList_ofList]
  constructor
  · intro h
    cases h with
    | bare hbody => exact absurd rfl hbody.head_ne_sign
    | expression hattribute => exact hattribute
  · exact .expression

end Path

end ShapeRules
