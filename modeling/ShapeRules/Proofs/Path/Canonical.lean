import ShapeRules.Proofs.Path.Reading
import ShapeRules.Proofs.Text.Cursor

/-!
The canonical text of a path is derived by the grammar, so reading it gives the path back in any
context.
-/

namespace ShapeRules

namespace Path

private theorem spellsQuoted_quotedChar (c : Char) {text value : List Char}
    (htext : SpellsQuoted '"' text value) :
    SpellsQuoted '"' (quotedChar c ++ text) (c :: value) := by
  unfold quotedChar
  split_ifs with hquote hslash hline htab
  · subst hquote
    exact .escape .doubleQuote htext
  · subst hslash
    exact .escape .backslash htext
  · subst hline
    exact .escape .newline htext
  · subst htab
    exact .escape .tab htext
  · exact .plain hquote hslash htext

theorem spellsQuoted_flatMap (value : List Char) :
    SpellsQuoted '"' (value.flatMap quotedChar) value := by
  induction value with
  | nil => exact .nil
  | cons c value ih =>
    rw [List.flatMap_cons]
    exact spellsQuoted_quotedChar c ih

theorem spells_argumentText (value : List Char) : SpellsArgument (argumentText value) value := by
  unfold argumentText
  split
  · rename_i hraw
    refine .raw hraw.1 ?_
    intro c hc
    exact (isBareChar_iff c).mp (List.all_eq_true.mp hraw.2 c hc)
  · exact .quoted (.inl rfl) (spellsQuoted_flatMap value)

theorem spellsSome_argumentsText (value : String) (values : List String) :
    SpellsSome (argumentsText (value :: values)) (value :: values) := by
  have hnone : Blank [] := by simp [Blank]
  induction values generalizing value with
  | nil =>
    have hone := SpellsSome.one hnone (spells_argumentText value.toList) hnone
    simpa [argumentsText] using hone
  | cons next values ih =>
    have hspace : Blank [' '] := by simp [Blank]; decide
    have hmore := SpellsSome.more hnone (spells_argumentText value.toList) hnone
      ((ih next).blank_append hspace)
    simpa [argumentsText] using hmore

theorem spells_argumentsText (values : List String) :
    SpellsArguments (argumentsText values) values := by
  cases values with
  | nil => exact .none (by simp [Blank, argumentsText])
  | cons value values => exact .some (spellsSome_argumentsText value values)

theorem spells_segmentCanonical {segment : Segment} (h : segment.WellFormed) :
    SpellsSegment segment.canonical segment := by
  cases segment with
  | key name => simpa [Segment.canonical] using SpellsSegment.key h
  | wildcard => exact .wildcard
  | call accessor values => exact .call (spells_argumentsText values) h
  | literal text =>
    have hne : text.toList ≠ [] := by simpa using h.1
    simpa [Segment.canonical] using SpellsSegment.literal (.literal hne h.2)

/-- The segments behind the first, each behind a bar. -/
private theorem spellsOthers_flatMap {segments : List Segment}
    (h : ∀ segment ∈ segments, segment.WellFormed) :
    SpellsOthers (segments.flatMap fun segment => '|' :: segment.canonical) segments := by
  induction segments with
  | nil => exact .nil
  | cons segment segments ih =>
    obtain ⟨hsegment, hsegments⟩ := List.forall_mem_cons.mp h
    exact .separated (.inr rfl) (spells_segmentCanonical hsegment) (ih hsegments)

private theorem intercalate_bar (first : Segment) (others : List Segment) :
    List.intercalate ['|'] ((first :: others).map Segment.canonical) =
      first.canonical ++ others.flatMap fun segment => '|' :: segment.canonical := by
  induction others generalizing first with
  | nil => simp
  | cons next others ih => simpa using ih next

/-- The canonical text of a well-formed path is a path in braces. -/
theorem spells_canonical {path : Path} (h : path.WellFormed) :
    ∃ text, path.canonical = '@' :: '\x7b' :: text ++ ['\x7d'] ∧ SpellsBody text path := by
  obtain ⟨segments⟩ := path
  obtain ⟨hne, hsegments⟩ := h
  obtain ⟨first, others, rfl⟩ := List.exists_cons_of_ne_nil hne
  obtain ⟨hfirst, hothers⟩ := List.forall_mem_cons.mp hsegments
  refine ⟨_, ?_, .body (spells_segmentCanonical hfirst) (spellsOthers_flatMap hothers)⟩
  rw [canonical, intercalate_bar]

theorem scopedAttribute_canonical {path : Path} (h : path.WellFormed) (rest : List Char) :
    scopedAttribute (path.canonical ++ rest) = .ok (path, rest) := by
  obtain ⟨text, hcanonical, hspells⟩ := spells_canonical h
  rw [hcanonical, List.append_assoc]
  exact scopedAttribute_braced hspells rest

/-- Every path that is read is well formed. The canonical text of a well-formed path is read back at
any cursor, which stays right behind it whatever follows, and it denotes the path on its own. -/
theorem canonical_reads_back :
    (∀ (text : String) (path : Path), Path.parse text = .ok path → path.WellFormed) ∧
    (∀ (cursor : Cursor) (path : Path), cursor.scopedAttribute.1 = .ok path → path.WellFormed) ∧
    ∀ path : Path, path.WellFormed →
      (∀ (cursor : Cursor) (suffix : List Char), cursor.rest = path.canonical ++ suffix →
        ∃ behind, cursor.scopedAttribute = (.ok path, behind) ∧ behind.rest = suffix) ∧
      Path.parse (toString path) = .ok path := by
  refine ⟨?_, ?_, ?_⟩
  · intro text path h
    exact (parse_ok_iff.mp h).wellFormed
  · intro cursor path h
    obtain ⟨rest, hread⟩ := cursor.scopedAttribute_ok_iff.mp h
    obtain ⟨_, _, hspells⟩ := scopedAttribute_sound hread
    exact hspells.wellFormed
  · intro path hpath
    refine ⟨?_, ?_⟩
    · intro cursor suffix hrest
      refine ⟨cursor.advanceTo suffix, ?_, Cursor.advanceTo_rest hrest⟩
      rw [Cursor.scopedAttribute, hrest, scopedAttribute_canonical hpath]
    · obtain ⟨text, hcanonical, hspells⟩ := spells_canonical hpath
      rw [parse_ok_iff]
      change Derives (String.ofList path.canonical).toList path
      rw [String.toList_ofList, hcanonical]
      exact .expression (.braced hspells)

/-- Quotes, bars and braces in arguments and literals do not end them. -/
theorem canonical_reads_back_delimiters :
    let path : Path := ⟨[.call .has ["\x7d\" |'\n"], .literal "\x7d|[@", .call .keys [], .key "k_1"]⟩
    path.WellFormed ∧
      (∃ behind, (Cursor.start (path.canonical ++ ['\x7d', '@'])).scopedAttribute = (.ok path, behind) ∧
        behind.rest = ['\x7d', '@']) ∧
      Path.parse (toString path) = .ok path := by
  intro path
  have hpath : path.WellFormed := by decide
  obtain ⟨hcursor, hparse⟩ := canonical_reads_back.2.2 path hpath
  exact ⟨hpath, hcursor _ _ rfl, hparse⟩

end Path

end ShapeRules
