import ShapeRules.Proofs.Path.Arguments

/-!
The readers of segments against the grammar. A segment is read back whatever stands behind it that
cannot be a part of it.
-/

namespace ShapeRules

namespace Path

open Text

theorem literal_sound {text rest : List Char} {segment : Segment}
    (h : literal ('[' :: text) = .ok (segment, rest)) :
    ∃ written, '[' :: text = written ++ rest ∧ SpellsLiteral written segment := by
  have hsplit := List.takeWhile_append_dropWhile (p := (· ≠ ']')) (l := text)
  have hstops := stops_dropWhile (p := (· ≠ ']')) text
  unfold literal at h
  split at h
  · cases h
  · rename_i c tail hdrop
    change text.dropWhile (· ≠ ']') = c :: tail at hdrop
    rw [hdrop] at hsplit hstops
    obtain rfl : c = ']' := by simpa using hstops
    dsimp only at h
    split at h
    · cases h
    · rename_i hne
      cases h
      refine ⟨_, ?_, .literal hne ?_⟩
      · simpa using hsplit.symm
      · intro hmem
        simpa using List.mem_takeWhile_imp hmem

theorem literal_complete {written : List Char} {segment : Segment}
    (h : SpellsLiteral written segment) (rest : List Char) :
    literal (written ++ rest) = .ok (segment, rest) := by
  obtain ⟨hne, hclose⟩ := h
  rename_i text
  have hall : ∀ c ∈ text, decide (c ≠ ']') = true := by
    intro c hc
    simpa using fun heq : c = ']' => hclose (heq ▸ hc)
  have hstops : Stops (· ≠ ']') (']' :: rest) := by simp
  have htake := takeWhile_run hall hstops
  have hdrop := dropWhile_run hall hstops
  simp only [literal, List.cons_append, List.tail_cons, List.append_assoc, List.nil_append, htake,
    hdrop, if_neg hne]

theorem call_sound {start opening rest : List Char} {word : String} {segment : Segment}
    (h : call start word ('(' :: opening) = .ok (segment, rest)) :
    ∃ written, word.toList ++ '(' :: opening = written ++ rest ∧ SpellsSegment written segment := by
  unfold call at h
  split at h
  · cases h
  · rename_i accessor hword
    split at h
    · cases h
    · rename_i values behind hread
      split at h
      · rename_i harity
        cases h
        obtain ⟨written, hwritten, hspells⟩ := arguments_sound hread
        obtain rfl : accessor.word = word := by simpa using List.find?_some hword
        refine ⟨_, ?_, .call hspells harity⟩
        simp [← hwritten]
      · cases h

theorem call_ok {start opening rest : List Char} {word : String} {segment : Segment}
    (h : call start word opening = .ok (segment, rest)) :
    ∃ accessor values, segment = .call accessor values := by
  unfold call at h
  split at h
  · cases h
  · split at h
    · cases h
    · split at h
      · cases h
        exact ⟨_, _, rfl⟩
      · cases h

theorem call_complete (start rest : List Char) {accessor : Accessor} {written : List Char}
    {values : List String} (hvalues : SpellsArguments written values)
    (harity : values.length = accessor.arity) :
    call start accessor.word ('(' :: written ++ ')' :: rest) =
      .ok (.call accessor values, rest) := by
  simp only [call, Accessor.ofWord?_word, List.cons_append, List.tail_cons,
    arguments_complete _ rest hvalues, if_pos harity]

/-- A text behind which every segment ends: it goes on with neither a word nor an argument list. -/
def Ends (text : List Char) : Prop := Stops (fun c => isWordChar c || c = '(') text

theorem Ends.nil : Ends [] := stops_nil

theorem ends_cons {c : Char} {text : List Char} :
    Ends (c :: text) ↔ isWordChar c = false ∧ c ≠ '(' := by
  simp [Ends]

/-- The segment ends before the text. A key does so where it does not go on, any other wherever it
stands. -/
def EndsBefore (segment : Segment) (text : List Char) : Prop :=
  ∀ name, segment = .key name → Ends text

theorem Ends.before {text : List Char} (h : Ends text) (segment : Segment) :
    EndsBefore segment text :=
  fun _ _ => h

theorem accessor_word (accessor : Accessor) : Word accessor.word.toList := by
  have hall : accessor.word.toList ≠ [] ∧ accessor.word.toList.all isWordChar = true := by
    cases accessor <;> decide
  exact ⟨hall.1, fun c hc => (isWordChar_iff c).mp (List.all_eq_true.mp hall.2 c hc)⟩

theorem segment_sound {text rest : List Char} {segment : Segment}
    (h : Path.segment text = .ok (segment, rest)) :
    ∃ written, text = written ++ rest ∧ SpellsSegment written segment := by
  unfold Path.segment at h
  split at h
  · cases h
  · cases h
    exact ⟨['*'], rfl, .wildcard⟩
  · obtain ⟨written, hwritten, hspells⟩ := literal_sound h
    exact ⟨written, hwritten, .literal hspells⟩
  · rename_i c tail _ _
    have hsplit := List.takeWhile_append_dropWhile (p := isWordChar) (l := c :: tail)
    split at h
    · rename_i hword
      simp only at h
      split at h
      · rename_i behind hbehind
        obtain ⟨written, hwritten, hspells⟩ := call_sound h
        refine ⟨written, ?_, hspells⟩
        rw [← hwritten, ← hbehind, String.toList_ofList, hsplit]
      · cases h
        refine ⟨_, hsplit.symm, .key ⟨by simp [hword], ?_⟩⟩
        intro d hd
        exact (isWordChar_iff d).mp (List.mem_takeWhile_imp hd)
    · cases h

/-- What a word is read as depends on the character behind it alone. -/
theorem segment_word {word : List Char} (hword : Word word) (rest : List Char) :
    Path.segment (word ++ rest) =
      match (word ++ rest).dropWhile isWordChar with
      | '(' :: behind =>
        call (word ++ rest) (String.ofList ((word ++ rest).takeWhile isWordChar)) ('(' :: behind)
      | behind => .ok (.key (String.ofList ((word ++ rest).takeWhile isWordChar)), behind) := by
  obtain ⟨hne, hall⟩ := hword
  obtain ⟨c, tail, rfl⟩ := List.exists_cons_of_ne_nil hne
  have hc := (isWordChar_iff c).mpr (hall c List.mem_cons_self)
  have hstar : c ≠ '*' := by
    rintro rfl
    exact absurd hc (by decide)
  have hopen : c ≠ '[' := by
    rintro rfl
    exact absurd hc (by decide)
  rw [List.cons_append, Path.segment]
  · exact if_pos hc
  · exact hstar
  · exact hopen

theorem segment_complete {written rest : List Char} {segment : Segment}
    (h : SpellsSegment written segment) (hrest : EndsBefore segment rest) :
    Path.segment (written ++ rest) = .ok (segment, rest) := by
  cases h with
  | wildcard => rfl
  | key hword =>
    have hrest := hrest _ rfl
    have hall : ∀ c ∈ written, isWordChar c = true := by
      intro c hc
      exact (isWordChar_iff c).mpr (hword.2 c hc)
    have hstops : Stops isWordChar rest := fun c hc => by
      have := hrest c hc
      simp_all
    rw [segment_word hword, takeWhile_run hall hstops, dropWhile_run hall hstops]
    split
    · simp [Ends] at hrest
    · rfl
  | @call accessor text values hvalues harity =>
    have hword := accessor_word accessor
    have hall : ∀ c ∈ accessor.word.toList, isWordChar c = true :=
      fun c hc => (isWordChar_iff c).mpr (hword.2 c hc)
    have hstops : Stops isWordChar ('(' :: text ++ ')' :: rest) := by simp; decide
    have hcall :=
      call_complete (accessor.word.toList ++ ('(' :: text ++ ')' :: rest)) rest hvalues harity
    have happend : accessor.word.toList ++ '(' :: text ++ [')'] ++ rest =
      accessor.word.toList ++ ('(' :: text ++ ')' :: rest) := by simp
    rw [happend, segment_word hword, takeWhile_run hall hstops, dropWhile_run hall hstops,
      String.ofList_toList]
    exact hcall
  | literal hliteral =>
    have hread := literal_complete hliteral rest
    cases hliteral with
    | literal hne hclose => simpa [Path.segment] using hread

theorem segment_ends {text rest : List Char} {segment : Segment}
    (h : Path.segment text = .ok (segment, rest)) : EndsBefore segment rest := by
  rintro name rfl
  unfold Path.segment at h
  split at h
  · cases h
  · cases h
  · obtain ⟨_, -, hliteral⟩ := literal_sound h
    cases hliteral
  · rename_i c tail _ _
    split_ifs at h
    dsimp only at h
    split at h
    · obtain ⟨_, _, hcall⟩ := call_ok h
      cases hcall
    · rename_i hopen
      cases h
      intro d hd
      have hword := stops_dropWhile (p := isWordChar) (c :: tail) d hd
      obtain ⟨behind, hbehind⟩ := List.head?_eq_some_iff.mp hd
      have hd : d ≠ '(' := by
        rintro rfl
        exact hopen behind hbehind
      simp [hword, hd]

theorem SpellsSegment.starts {written : List Char} {segment : Segment}
    (h : SpellsSegment written segment) (rest : List Char) :
    startsSegment (written ++ rest) = true := by
  have hstart {word : List Char} (hword : Word word) (rest : List Char) :
      startsSegment (word ++ rest) = true := by
    obtain ⟨hne, hall⟩ := hword
    obtain ⟨c, tail, rfl⟩ := List.exists_cons_of_ne_nil hne
    have hc := (isWordChar_iff c).mpr (hall c List.mem_cons_self)
    simp [startsSegment, hc]
  cases h with
  | wildcard => rfl
  | key hword => exact hstart hword rest
  | @call accessor text _ _ _ =>
    simpa using hstart (accessor_word accessor) ('(' :: text ++ ')' :: rest)
  | literal hliteral =>
    obtain ⟨_, _⟩ := hliteral
    rfl

theorem SpellsBody.starts {written : List Char} {path : Path} (h : SpellsBody written path)
    (rest : List Char) : startsSegment (written ++ rest) = true := by
  obtain ⟨hsegment, _⟩ := h
  rw [List.append_assoc]
  exact hsegment.starts _

/-- A path without its sign does not begin with one. -/
theorem SpellsBody.head_ne_sign {written : List Char} {path : Path}
    (h : SpellsBody written path) : written.head? ≠ some '@' := by
  have hstarts := h.starts []
  intro hhead
  obtain ⟨tail, rfl⟩ := List.head?_eq_some_iff.mp hhead
  exact Bool.false_ne_true hstarts

end Path

end ShapeRules
