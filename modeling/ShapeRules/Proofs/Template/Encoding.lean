import ShapeRules.Proofs.Path.Canonical
import ShapeRules.Proofs.Template.Normal
import ShapeRules.Template.Rendering

/-!
Encoding of fragments as the text of a template. Compiling inverts encoding on normal lists of
fragments, and every compiled list is normal.
-/

namespace ShapeRules

/-- The text with every sign doubled. -/
def doubleSigns (text : List Char) : List Char :=
  text.flatMap fun c => if c = '@' then ['@', '@'] else [c]

/-- The text of a fragment in a template. -/
def Fragment.encode : Fragment → List Char
  | .literal text => doubleSigns text.toList
  | .computed path => path.canonical

/-- The text of a template with these fragments. -/
def Template.encode (fragments : List Fragment) : String :=
  String.ofList (fragments.flatMap Fragment.encode)

namespace Piece

theorem read_doubleSigns (text : List Char) {rest : List Char} {pieces : List Piece}
    (h : read rest = .ok pieces) :
    read (doubleSigns text ++ rest) = .ok (text.map .plain ++ pieces) := by
  induction text with
  | nil => exact h
  | cons c text ih =>
    by_cases hc : c = '@'
    · subst hc
      have hdouble : doubleSigns ('@' :: text) = '@' :: '@' :: doubleSigns text := rfl
      rw [hdouble, List.cons_append, List.cons_append, read_doubled, ih]
      rfl
    · have hsingle : doubleSigns (c :: text) = c :: doubleSigns text := by
        simp [doubleSigns, hc]
      rw [hsingle, List.cons_append, read_plain hc, ih]
      rfl

theorem read_canonical {path : Path} (hpath : path.WellFormed) {rest : List Char}
    {pieces : List Piece} (h : read rest = .ok pieces) :
    read (path.canonical ++ rest) = .ok (.computed path :: pieces) := by
  have hread := Path.scopedAttribute_canonical hpath rest
  obtain ⟨text, hcanonical, _⟩ := Path.spells_canonical hpath
  rw [hcanonical] at hread ⊢
  rw [List.cons_append, List.cons_append, List.cons_append] at hread ⊢
  rw [read_computed (by simp) hread, h]
  rfl

theorem read_encode {fragments : List Fragment}
    (h : ∀ fragment ∈ fragments, fragment.WellFormed) :
    read (fragments.flatMap Fragment.encode) = .ok (fragments.flatMap Fragment.pieces) := by
  induction fragments with
  | nil => exact read_nil
  | cons fragment fragments ih =>
    obtain ⟨hfragment, hfragments⟩ := List.forall_mem_cons.mp h
    have hread := ih hfragments
    rw [List.flatMap_cons, List.flatMap_cons]
    cases fragment with
    | literal text => exact read_doubleSigns text.toList hread
    | computed path => exact read_canonical hfragment hread

end Piece

namespace Template

theorem parse_encode {fragments : List Fragment} (h : Fragment.Normal fragments) :
    parse (encode fragments) = .ok ⟨encode fragments, fragments⟩ := by
  refine parse_ok_iff.mpr ⟨fragments.flatMap Fragment.pieces, ?_, ?_⟩
  · rw [encode, String.toList_ofList]
    exact Piece.read_encode h.wellFormed
  · rw [Fragment.ofPieces_pieces h]

/-- The normal fragments that make a text: one, unless the text is empty. -/
private theorem normal_text (text : String) :
    ∃ fragments, Fragment.Normal fragments ∧
      encode fragments = String.ofList (doubleSigns text.toList) ∧
      ∀ model value, String.join (fragments.map (Fragment.render model value)) = text := by
  by_cases htext : text = ""
  · refine ⟨[], .nil, ?_, ?_⟩
    · simp [htext, encode, doubleSigns]
    · simp [htext]
  · refine ⟨[.literal text], ⟨?_, .singleton _⟩, ?_, ?_⟩
    · simpa [Fragment.WellFormed] using htext
    · simp [encode, Fragment.encode]
    · simp [Fragment.render]

/-- Every compiled template has normal fragments, and encoding is undone by compiling on all normal
lists of fragments. So a text with its signs doubled renders to itself for every value, and a
template renders as the one that its fragments encode. -/
theorem encode_inverts_parse :
    (∀ source template, parse source = .ok template → Fragment.Normal template.fragments) ∧
    (∀ fragments, Fragment.Normal fragments →
      parse (encode fragments) = .ok ⟨encode fragments, fragments⟩) ∧
    (∀ text : String, ∃ template,
      parse (String.ofList (doubleSigns text.toList)) = .ok template ∧
        ∀ model value, template.render model value = text) ∧
    (∀ source template, parse source = .ok template →
      ∃ again, parse (encode template.fragments) = .ok again ∧
        ∀ model value, again.render model value = template.render model value) := by
  refine ⟨fun _ _ => normal_of_parse, fun _ => parse_encode, ?_, ?_⟩
  · intro text
    obtain ⟨fragments, hnormal, hencode, hrender⟩ := normal_text text
    rw [← hencode]
    exact ⟨_, parse_encode hnormal, hrender⟩
  · intro source template h
    exact ⟨_, parse_encode (normal_of_parse h), fun _ _ => rfl⟩

/-- Signs at the end of a text, an attribute right behind it, and text right behind that. -/
theorem encode_inverts_parse_adjacent :
    let fragments : List Fragment := [.literal "a@@", .computed ⟨[.key "id"]⟩, .literal ".@"]
    encode fragments = "a@@@@@\x7bid\x7d.@@" ∧
      parse (encode fragments) = .ok ⟨encode fragments, fragments⟩ := by
  intro fragments
  refine ⟨by decide, encode_inverts_parse.2.1 fragments ⟨?_, ?_⟩⟩
  · decide
  · decide

end Template

end ShapeRules
