import ShapeRules.Proofs.Path.Segments

/-!
The readers of paths against the grammar. A text denotes at most one path, and it is read as a path
exactly when the grammar derives it.
-/

namespace ShapeRules

namespace Path

theorem moreSegments_sound {braced : Bool} {text rest : List Char} {segments : List Segment}
    (h : moreSegments braced text = .ok (segments, rest)) :
    ∃ written, text = written ++ rest ∧ SpellsOthers written segments := by
  fun_induction moreSegments braced text generalizing segments rest with
  | case1 =>
    cases h
    exact ⟨[], rfl, .nil⟩
  | case2 => cases h
  | case3 text next hnext first behind hread _ segments' rest' hmore ih =>
    cases h
    obtain ⟨others, rfl, hothers⟩ := ih hmore
    have separated {separator : Char} {next : List Char}
        (hseparator : separator = '.' ∨ separator = '|')
        (hread : segment next = .ok (first, others ++ rest')) :
        ∃ written, separator :: next = written ++ rest' ∧
          SpellsOthers written (first :: segments') := by
      obtain ⟨written, rfl, hwritten⟩ := segment_sound hread
      exact ⟨separator :: written ++ others, by simp, .separated hseparator hwritten hothers⟩
    fun_cases continuation? braced text with
    | case1 tail =>
      cases hnext
      obtain ⟨written, hwritten, hliteral⟩ := literal_sound hread
      exact ⟨written ++ others, by rw [hwritten, List.append_assoc], .literal hliteral hothers⟩
    | case2 tail =>
      cases hnext
      exact separated (.inr rfl) hread
    | case3 tail hdot =>
      simp only [continuation?, if_pos hdot, Option.some.injEq] at hnext
      exact separated (.inl rfl) (hnext ▸ hread)
    | case4 tail hdot => simp [continuation?, hdot] at hnext
    | case5 => simp_all [continuation?]
  | case4 => cases h

theorem continuation?_separator (braced : Bool) {separator : Char} {next : List Char}
    (hseparator : separator = '.' ∨ separator = '|') (hnext : startsSegment next = true) :
    continuation? braced (separator :: next) = some next := by
  rcases hseparator with rfl | rfl
  · simp [continuation?, hnext]
  · rfl

/-- A separator and a literal end the segment before them. -/
theorem SpellsOthers.ends_of_ne_nil {written : List Char} {segments : List Segment}
    (h : SpellsOthers written segments) (hne : written ≠ []) (rest : List Char) :
    Ends (written ++ rest) := by
  cases h with
  | nil => exact absurd rfl hne
  | separated hseparator _ _ =>
    rcases hseparator with rfl | rfl <;> exact ends_cons.mpr (by decide)
  | literal hliteral _ =>
    obtain ⟨_, _⟩ := hliteral
    exact ends_cons.mpr (by decide)

/-- What follows a segment of a path ends it: other segments, or what ends the path. -/
theorem SpellsOthers.ends {written : List Char} {segments : List Segment}
    (h : SpellsOthers written segments) {rest : List Char} (hrest : Ends rest) :
    Ends (written ++ rest) := by
  by_cases hne : written = []
  · rw [hne]
    exact hrest
  · exact h.ends_of_ne_nil hne rest

theorem moreSegments_nil {braced : Bool} {text : List Char}
    (hnone : continuation? braced text = none) : moreSegments braced text = .ok ([], text) := by
  rw [moreSegments.eq_def]
  split <;> simp_all

theorem moreSegments_cons {braced : Bool} {text next behind rest : List Char}
    {first : Segment} {others : List Segment} (hnext : continuation? braced text = some next)
    (hread : segment next = .ok (first, behind))
    (hmore : moreSegments braced behind = .ok (others, rest)) :
    moreSegments braced text = .ok (first :: others, rest) := by
  rw [moreSegments.eq_def]
  split
  · simp_all
  · rename_i hnext'
    rw [hnext] at hnext'
    cases hnext'
    split <;> simp_all

theorem moreSegments_complete {braced : Bool} {written rest : List Char} {segments : List Segment}
    (h : SpellsOthers written segments) (hends : Ends rest)
    (hrest : continuation? braced rest = none) :
    moreSegments braced (written ++ rest) = .ok (segments, rest) := by
  induction h with
  | nil => exact moreSegments_nil hrest
  | separated hseparator hsegment hothers ih =>
    rw [List.append_assoc, List.cons_append]
    exact moreSegments_cons (continuation?_separator braced hseparator (hsegment.starts _))
      (segment_complete hsegment ((hothers.ends hends).before _)) ih
  | literal hliteral hothers ih =>
    rw [List.append_assoc]
    have hread := segment_complete (.literal hliteral) ((hothers.ends hends).before _)
    refine moreSegments_cons ?_ hread ih
    obtain ⟨_, _⟩ := hliteral
    rfl

theorem body_sound {braced : Bool} {text rest : List Char} {path : Path}
    (h : body braced text = .ok (path, rest)) :
    ∃ written, text = written ++ rest ∧ SpellsBody written path := by
  unfold body at h
  split at h
  · cases h
  · rename_i first behind hfirst
    split at h
    · cases h
    · rename_i others rest' hmore
      cases h
      obtain ⟨written, rfl, hwritten⟩ := segment_sound hfirst
      obtain ⟨written', rfl, hwritten'⟩ := moreSegments_sound hmore
      exact ⟨written ++ written', by rw [List.append_assoc], .body hwritten hwritten'⟩

theorem body_complete {braced : Bool} {written rest : List Char} {path : Path}
    (h : SpellsBody written path) (hends : Ends rest) (hrest : continuation? braced rest = none) :
    body braced (written ++ rest) = .ok (path, rest) := by
  obtain ⟨hsegment, hothers⟩ := h
  simp only [body, List.append_assoc, segment_complete hsegment ((hothers.ends hends).before _),
    moreSegments_complete hothers hends hrest]

theorem scopedAttribute_sound {text rest : List Char} {path : Path}
    (h : scopedAttribute text = .ok (path, rest)) :
    ∃ written, text = written ++ rest ∧ SpellsAttribute written path := by
  unfold scopedAttribute at h
  split at h
  · rename_i inner
    dsimp only at h
    split at h
    · split at h
      · cases h
      · rename_i path' rest' hbody
        cases h
        obtain ⟨written, rfl, hwritten⟩ := body_sound hbody
        exact ⟨'@' :: '\x7b' :: written ++ ['\x7d'], by simp, .braced hwritten⟩
      · cases h
      · cases h
    · cases h
  · split at h
    · obtain ⟨written, rfl, hwritten⟩ := body_sound h
      exact ⟨'@' :: written, rfl, .signed hwritten⟩
    · cases h
  · cases h

/-- The closing brace ends a path in braces, whatever stands behind it. -/
theorem scopedAttribute_braced {text : List Char} {path : Path} (h : SpellsBody text path)
    (rest : List Char) :
    scopedAttribute ('@' :: '\x7b' :: text ++ '\x7d' :: rest) = .ok (path, rest) := by
  have hbody : body true (text ++ '\x7d' :: rest) = .ok (path, '\x7d' :: rest) :=
    body_complete h (ends_cons.mpr (by decide)) rfl
  have hclose : '\x7d' ∈ text ++ '\x7d' :: rest := by simp
  simp only [List.cons_append, scopedAttribute, if_pos hclose, hbody]

theorem scopedAttribute_signed {text rest : List Char} {path : Path} (h : SpellsBody text path)
    (hends : Ends rest) (hrest : continuation? false rest = none) :
    scopedAttribute ('@' :: text ++ rest) = .ok (path, rest) := by
  have hstarts := h.starts rest
  rw [List.cons_append, scopedAttribute, if_pos hstarts]
  · exact body_complete h hends hrest
  · rintro inner heq
    rw [heq] at hstarts
    exact Bool.false_ne_true hstarts

theorem whole_sound {text : List Char} {path : Path} (h : whole text = .ok path) :
    Derives text path := by
  unfold whole at h
  split at h
  · cases h
  · rename_i path' hread
    cases h
    split at hread
    · obtain ⟨written, hwritten, hspells⟩ := scopedAttribute_sound hread
      rw [hwritten, List.append_nil]
      exact .expression hspells
    · obtain ⟨written, hwritten, hspells⟩ := body_sound hread
      rw [hwritten, List.append_nil]
      exact .bare hspells
  · cases h

theorem SpellsAttribute.head_eq_sign {text : List Char} {path : Path}
    (h : SpellsAttribute text path) : text.head? = some '@' := by
  cases h <;> rfl

/-- A scoped attribute is read to its end. -/
theorem SpellsAttribute.read {text : List Char} {path : Path} (h : SpellsAttribute text path) :
    scopedAttribute text = .ok (path, []) := by
  cases h with
  | @signed text _ hbody =>
    have hread : scopedAttribute ('@' :: text ++ []) = .ok (path, []) :=
      scopedAttribute_signed hbody .nil rfl
    rwa [List.append_nil] at hread
  | braced hbody => exact scopedAttribute_braced hbody []

theorem whole_complete {text : List Char} {path : Path} (h : Derives text path) :
    whole text = .ok path := by
  cases h with
  | bare hbody =>
    have hread : body false (text ++ []) = .ok (path, []) := body_complete hbody .nil rfl
    rw [List.append_nil] at hread
    simp only [whole, if_neg hbody.head_ne_sign, hread]
  | expression hattribute =>
    simp only [whole, if_pos hattribute.head_eq_sign, hattribute.read]

theorem whole_iff {text : List Char} {path : Path} : whole text = .ok path ↔ Derives text path :=
  ⟨whole_sound, whole_complete⟩

theorem parse_ok_iff {text : String} {path : Path} :
    parse text = .ok path ↔ Derives text.toList path := by
  rw [← whole_iff, parse]
  cases whole text.toList <;> simp [Except.mapError]

/-- A text denotes at most one path. Parsing gives a path exactly when the text denotes it, and so
fails exactly on the texts that denote none. -/
theorem parse_iff_derives (text : String) :
    (∀ path other, Derives text.toList path → Derives text.toList other → path = other) ∧
    (∀ path, parse text = .ok path ↔ Derives text.toList path) ∧
    ((∃ error, parse text = .error error) ↔ ∀ path, ¬ Derives text.toList path) := by
  refine ⟨?_, fun path => parse_ok_iff, ?_⟩
  · intro path other hpath hother
    have hread := whole_complete hpath
    rw [whole_complete hother] at hread
    exact (Except.ok.inj hread).symm
  · constructor
    · rintro ⟨error, herror⟩ path hpath
      rw [parse_ok_iff.mpr hpath] at herror
      cases herror
    · intro hnone
      cases hparse : parse text with
      | error error => exact ⟨error, rfl⟩
      | ok path => exact absurd (parse_ok_iff.mp hparse) (hnone path)

end Path

theorem Cursor.scopedAttribute_ok_iff (cursor : Cursor) {path : Path} :
    cursor.scopedAttribute.1 = .ok path ↔
      ∃ rest, Path.scopedAttribute cursor.rest = .ok (path, rest) := by
  unfold Cursor.scopedAttribute
  split
  · rename_i read rest hread
    simp [hread]
  · rename_i hread
    simp [hread]

end ShapeRules
