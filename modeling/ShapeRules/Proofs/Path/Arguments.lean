import ShapeRules.Path.Reading
import ShapeRules.Proofs.Path.Grammar
import ShapeRules.Proofs.Text.Run

/-!
The readers of arguments against the grammar. What a reader consumes spells what it gives, and what
the grammar spells is read back.
-/

namespace ShapeRules

namespace Path

open Text

theorem unescape?_iff {c d : Char} : unescape? c = some d ↔ Escape c d := by
  constructor
  · intro h
    unfold unescape? at h
    split at h <;> cases h <;> constructor
  · rintro (_ | _) <;> rfl

theorem isBareChar_iff (c : Char) : isBareChar c = true ↔ IsRaw c := by
  simp only [isBareChar, IsRaw, Bool.and_eq_true, Bool.not_eq_true', List.contains_eq_mem,
    decide_eq_false_iff_not]
  refine and_congr_right fun _ => ?_
  simp only [List.mem_cons]
  grind

theorem quoted_sound {quote : Char} {opening text value rest : List Char}
    (h : quoted quote opening text = .ok (value, rest)) :
    ∃ written, text = written ++ quote :: rest ∧ SpellsQuoted quote written value := by
  fun_induction quoted quote opening text generalizing value rest with
  | case1 => cases h
  | case2 tail =>
    cases h
    exact ⟨[], rfl, .nil⟩
  | case3 => cases h
  | case4 => cases h
  | case5 c tail d hescape value' rest' hread hne ih =>
    cases h
    obtain ⟨written, rfl, hwritten⟩ := ih hread
    exact ⟨'\\' :: c :: written, rfl, .escape (unescape?_iff.mp hescape) hwritten⟩
  | case6 => cases h
  | case7 c tail hquote hslash value' rest' hread ih =>
    cases h
    obtain ⟨written, rfl, hwritten⟩ := ih hread
    exact ⟨c :: written, rfl, .plain hquote hslash hwritten⟩
  | case8 => cases h

theorem quoted_complete {quote : Char} (hquote : quote ≠ '\\') (opening rest : List Char)
    {written value : List Char} (h : SpellsQuoted quote written value) :
    quoted quote opening (written ++ quote :: rest) = .ok (value, rest) := by
  induction h with
  | nil =>
    rw [List.nil_append, quoted.eq_def]
    simp only [if_true]
  | plain hne hslash _ ih =>
    rw [List.cons_append, quoted.eq_def]
    simp only [if_neg hne, if_neg hslash, ih]
  | escape hescape _ ih =>
    rw [List.cons_append, List.cons_append, quoted.eq_def]
    simp only [if_neg hquote.symm, if_true, unescape?_iff.mpr hescape, ih]

theorem argument_sound {opening text value rest : List Char}
    (h : argument opening text = .ok (value, rest)) :
    ∃ written, text = written ++ rest ∧ SpellsArgument written value := by
  fun_cases argument opening text with
  | case1 => simp [argument] at h
  | case2 c tail hquote =>
    obtain ⟨written, rfl, hwritten⟩ := quoted_sound (by simpa [argument, hquote] using h)
    exact ⟨c :: written ++ [c], by simp, .quoted hquote hwritten⟩
  | case3 c tail hquote hbare =>
    have hsplit := List.takeWhile_append_dropWhile (p := isBareChar) (l := c :: tail)
    simp only [argument, if_neg hquote, if_pos hbare, Except.ok.injEq, Prod.mk.injEq] at h
    obtain ⟨rfl, rfl⟩ := h
    refine ⟨_, hsplit.symm, .raw (by simp [hbare]) ?_⟩
    intro d hd
    exact (isBareChar_iff d).mp (List.mem_takeWhile_imp hd)
  | case4 c tail hquote hbare => simp [argument, hquote, hbare] at h

theorem SpellsArgument.head {written value : List Char} (h : SpellsArgument written value) :
    ∃ c tail, written = c :: tail ∧ isSpace c = false ∧ c ≠ ')' := by
  cases h with
  | quoted hquote _ =>
    refine ⟨_, _, rfl, ?_⟩
    rcases hquote with rfl | rfl <;> decide
  | raw hne hraw =>
    obtain ⟨c, tail, rfl⟩ := List.exists_cons_of_ne_nil hne
    obtain ⟨hspace, hmem⟩ := hraw c List.mem_cons_self
    refine ⟨c, tail, rfl, hspace, ?_⟩
    rintro rfl
    exact hmem (by decide)

theorem argument_complete (opening : List Char) {written value rest : List Char}
    (h : SpellsArgument written value) (hrest : Stops isBareChar rest) :
    argument opening (written ++ rest) = .ok (value, rest) := by
  cases h with
  | @quoted quote text _ hquote htext =>
    have hslash : quote ≠ '\\' := by rcases hquote with rfl | rfl <;> decide
    simpa [argument, hquote] using
      quoted_complete hslash (quote :: (text ++ quote :: rest)) rest htext
  | raw hne hraw =>
    have hbare : ∀ c ∈ written, isBareChar c = true := by
      intro c hc
      exact (isBareChar_iff c).mpr (hraw c hc)
    have htake := takeWhile_run hbare hrest
    have hdrop := dropWhile_run hbare hrest
    obtain ⟨c, tail, rfl⟩ := List.exists_cons_of_ne_nil hne
    have hc := hbare c List.mem_cons_self
    have hquote : ¬ (c = '"' ∨ c = '\'') := by rintro (rfl | rfl) <;> exact absurd hc (by decide)
    simp only [List.cons_append] at htake hdrop
    simp only [List.cons_append, argument, if_neg hquote, if_pos hc, htake, hdrop]

/-! ### White space, lists of arguments -/

theorem skipSpace_sound (text : List Char) :
    ∃ front, text = front ++ skipSpace text ∧ Blank front :=
  ⟨text.takeWhile isSpace, List.takeWhile_append_dropWhile.symm,
    fun _ hc => List.mem_takeWhile_imp hc⟩

theorem skipSpace_complete {front rest : List Char} (hfront : Blank front)
    (hrest : Stops isSpace rest) : skipSpace (front ++ rest) = rest :=
  dropWhile_run hfront hrest

theorem moreArguments_sound {opening text rest : List Char} {values : List String}
    (h : moreArguments opening text = .ok (values, rest)) :
    ∃ written, text = written ++ ')' :: rest ∧ SpellsSome written values := by
  fun_induction moreArguments opening text generalizing values rest with
  | case1 => cases h
  | case2 => cases h
  | case3 text value behind hread others hnext _ values' rest' hmore ih =>
    cases h
    obtain ⟨written, rfl, hwritten⟩ := ih hmore
    obtain ⟨front, hfront, hblank⟩ := skipSpace_sound text
    obtain ⟨argument, hargument, hspells⟩ := argument_sound hread
    obtain ⟨back, hback, hblank'⟩ := skipSpace_sound behind
    refine ⟨_, ?_, .more hblank hspells hblank' hwritten⟩
    rw [hfront, hargument, hback, hnext]
    simp
  | case4 => cases h
  | case5 text value behind hread others hnext =>
    cases h
    obtain ⟨front, hfront, hblank⟩ := skipSpace_sound text
    obtain ⟨argument, hargument, hspells⟩ := argument_sound hread
    obtain ⟨back, hback, hblank'⟩ := skipSpace_sound behind
    refine ⟨_, ?_, .one hblank hspells hblank'⟩
    rw [hfront, hargument, hback, hnext]
    simp
  | case6 => cases h

private theorem moreArguments_last {opening text value behind rest : List Char}
    (hread : argument opening (skipSpace text) = .ok (value, behind))
    (hnext : skipSpace behind = ')' :: rest) :
    moreArguments opening text = .ok ([String.ofList value], rest) := by
  rw [moreArguments.eq_def]
  split
  · rename_i hfault
    rw [hread] at hfault
    cases hfault
  · rename_i hread'
    rw [hread] at hread'
    cases hread'
    split <;> simp_all

private theorem moreArguments_comma {opening text value behind others rest : List Char}
    {values : List String} (hread : argument opening (skipSpace text) = .ok (value, behind))
    (hnext : skipSpace behind = ',' :: others)
    (hmore : moreArguments opening others = .ok (values, rest)) :
    moreArguments opening text = .ok (String.ofList value :: values, rest) := by
  rw [moreArguments.eq_def]
  split
  · rename_i hfault
    rw [hread] at hfault
    cases hfault
  · rename_i hread'
    rw [hread] at hread'
    cases hread'
    split <;> simp_all

/-- White space is no part of an argument, so the reader finds the same one behind it. -/
private theorem argument_between (opening : List Char) {front text back value rest : List Char}
    (hfront : Blank front) (htext : SpellsArgument text value) (hback : Blank back)
    (hbare : Stops isBareChar rest) (hspace : Stops isSpace rest) :
    argument opening (skipSpace (front ++ text ++ back ++ rest)) = .ok (value, back ++ rest) ∧
      skipSpace (back ++ rest) = rest := by
  obtain ⟨c, tail, hcons, hc, _⟩ := htext.head
  have hstops : Stops isSpace (text ++ (back ++ rest)) := by simpa [hcons] using hc
  have hbehind : Stops isBareChar back := by
    intro c hc
    simp [isBareChar, hback c (List.mem_of_mem_head? hc)]
  rw [List.append_assoc, List.append_assoc, skipSpace_complete hfront hstops]
  exact ⟨argument_complete opening htext (stops_append hbehind hbare),
    skipSpace_complete hback hspace⟩

theorem moreArguments_complete (opening rest : List Char) {written : List Char}
    {values : List String} (h : SpellsSome written values) :
    moreArguments opening (written ++ ')' :: rest) = .ok (values, rest) := by
  have hbare {c : Char} (hc : c = ',' ∨ c = ')') (tail : List Char) :
      Stops isBareChar (c :: tail) ∧ Stops isSpace (c :: tail) := by
    rw [stops_cons, stops_cons]
    rcases hc with rfl | rfl <;> decide
  induction h with
  | one hfront htext hback =>
    obtain ⟨hstops, hspace⟩ := hbare (.inr rfl) rest
    obtain ⟨hread, hnext⟩ := argument_between opening hfront htext hback hstops hspace
    exact moreArguments_last hread hnext
  | @more _ _ _ _ others _ hfront htext hback _ ih =>
    obtain ⟨hstops, hspace⟩ := hbare (.inl rfl) (others ++ ')' :: rest)
    obtain ⟨hread, hnext⟩ := argument_between opening hfront htext hback hstops hspace
    rw [List.append_assoc]
    exact moreArguments_comma hread hnext ih

theorem SpellsSome.blank_append {front written : List Char} {values : List String}
    (hfront : Blank front) (h : SpellsSome written values) :
    SpellsSome (front ++ written) values := by
  have hblank {inner : List Char} (hinner : Blank inner) : Blank (front ++ inner) := by
    intro c hc
    exact (List.mem_append.mp hc).elim (hfront c) (hinner c)
  cases h with
  | one hinner htext hback =>
    simpa only [List.append_assoc] using SpellsSome.one (hblank hinner) htext hback
  | more hinner htext hback hothers =>
    simpa only [List.append_assoc] using SpellsSome.more (hblank hinner) htext hback hothers

/-- Without the white space before it a list of arguments is still one, and does not begin with the
closing parenthesis. -/
private theorem SpellsSome.skipSpace_eq {written : List Char} {values : List String}
    (h : SpellsSome written values) (rest : List Char) :
    ∃ c tail, skipSpace (written ++ rest) = c :: tail ++ rest ∧ c ≠ ')' ∧
      SpellsSome (c :: tail) values := by
  have hskip {front text value : List Char} (hfront : Blank front)
      (htext : SpellsArgument text value) (back : List Char) :
      ∃ c tail, skipSpace (front ++ text ++ back) = c :: tail ++ back ∧ c ≠ ')' ∧
        text = c :: tail := by
    obtain ⟨c, tail, rfl, hspace, hclose⟩ := htext.head
    rw [List.append_assoc, skipSpace_complete hfront (by simpa using hspace)]
    exact ⟨c, tail, rfl, hclose, rfl⟩
  have hnone : Blank [] := by simp [Blank]
  cases h with
  | @one _ text back _ hfront htext hback =>
    obtain ⟨c, tail, hread, hclose, rfl⟩ := hskip hfront htext (back ++ rest)
    exact ⟨c, tail ++ back, by simpa using hread, hclose, .one hnone htext hback⟩
  | @more _ text back _ others _ hfront htext hback hothers =>
    obtain ⟨c, tail, hread, hclose, rfl⟩ := hskip hfront htext (back ++ ',' :: others ++ rest)
    exact ⟨c, tail ++ back ++ ',' :: others, by simpa using hread, hclose,
      .more hnone htext hback hothers⟩

theorem arguments_sound {opening text rest : List Char} {values : List String}
    (h : arguments opening text = .ok (values, rest)) :
    ∃ written, text = written ++ ')' :: rest ∧ SpellsArguments written values := by
  obtain ⟨front, hfront, hblank⟩ := skipSpace_sound text
  unfold arguments at h
  split at h
  · rename_i hclose
    cases h
    exact ⟨front, by rw [hfront, hclose], .none hblank⟩
  · obtain ⟨written, hwritten, hspells⟩ := moreArguments_sound h
    exact ⟨front ++ written, by rw [hfront, hwritten, List.append_assoc],
      .some (hspells.blank_append hblank)⟩

theorem arguments_complete (opening rest : List Char) {written : List Char} {values : List String}
    (h : SpellsArguments written values) :
    arguments opening (written ++ ')' :: rest) = .ok (values, rest) := by
  unfold arguments
  cases h with
  | none hblank =>
    rw [skipSpace_complete hblank (by simp; decide)]
    rfl
  | some hsome =>
    obtain ⟨c, tail, hskip, hclose, htail⟩ := hsome.skipSpace_eq (')' :: rest)
    rw [hskip]
    split
    · rename_i heq
      exact absurd (List.cons.inj heq).1 hclose
    · exact moreArguments_complete opening rest htail

end Path

end ShapeRules
