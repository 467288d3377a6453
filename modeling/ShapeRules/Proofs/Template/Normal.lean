import Mathlib.Data.List.Chain
import ShapeRules.Proofs.Fallible
import ShapeRules.Proofs.Template.Scanning

/-!
The fragments of compiled templates. Pieces add up to fragments in a normal form, and lists in that
form are what their pieces add up to.
-/

namespace ShapeRules

namespace Fragment

/-- Some text, or a path that can be read. -/
def WellFormed : Fragment → Prop
  | .literal text => text ≠ ""
  | .computed path => path.WellFormed

/-- The fragment is text. -/
def isLiteral : Fragment → Bool
  | .literal _ => true
  | .computed _ => false

/-- Well-formed fragments, no two of them adjacent texts. -/
structure Normal (fragments : List Fragment) : Prop where
  wellFormed : ∀ fragment ∈ fragments, fragment.WellFormed
  apart : fragments.IsChain fun first second => ¬ (first.isLiteral ∧ second.isLiteral)

/-- The pieces of a fragment: a text is one piece for each of its characters. -/
def pieces : Fragment → List Piece
  | .literal text => text.toList.map .plain
  | .computed path => [.computed path]

instance : DecidablePred WellFormed
  | .literal text => inferInstanceAs (Decidable (text ≠ ""))
  | .computed path => inferInstanceAs (Decidable path.WellFormed)

theorem Normal.nil : Normal [] := ⟨by simp, .nil⟩

theorem normal_snoc {fragments : List Fragment} {last : Fragment} :
    Normal (fragments ++ [last]) ↔ Normal fragments ∧ last.WellFormed ∧
      ∀ fragment ∈ fragments.getLast?, ¬ (fragment.isLiteral ∧ last.isLiteral) := by
  constructor
  · rintro ⟨hwellFormed, hapart⟩
    obtain ⟨hfront, hlast⟩ := List.forall_mem_append.mp hwellFormed
    obtain ⟨hchain, -, hends⟩ := List.isChain_append.mp hapart
    refine ⟨⟨hfront, hchain⟩, hlast last (List.mem_singleton_self last), ?_⟩
    intro fragment hfragment
    exact hends fragment hfragment last rfl
  · rintro ⟨⟨hfront, hchain⟩, hlast, hends⟩
    refine ⟨List.forall_mem_append.mpr ⟨hfront, ?_⟩,
      List.isChain_append.mpr ⟨hchain, .singleton _, ?_⟩⟩
    · intro fragment hfragment
      rw [List.mem_singleton.mp hfragment]
      exact hlast
    · intro fragment hfragment other hother
      cases hother
      exact hends fragment hfragment

theorem Normal.computed {fragments : List Fragment} {path : Path} (h : Normal fragments)
    (hpath : path.WellFormed) : Normal (fragments ++ [.computed path]) := by
  refine normal_snoc.mpr ⟨h, hpath, ?_⟩
  rintro fragment - ⟨-, hcomputed⟩
  cases hcomputed

theorem Normal.append {fragments : List Fragment} {text : String} (h : Normal fragments)
    (htext : text ≠ "") : Normal (append text fragments) := by
  rcases List.eq_nil_or_concat fragments with rfl | ⟨others, last, rfl⟩
  · have hsingle : Normal ([] ++ [.literal text]) := normal_snoc.mpr ⟨.nil, htext, by simp⟩
    exact hsingle
  · rw [List.concat_eq_append] at h ⊢
    obtain ⟨hothers, hlast, hends⟩ := normal_snoc.mp h
    cases last with
    | literal last =>
      rw [append_snoc_literal]
      refine normal_snoc.mpr ⟨hothers, ?_, hends⟩
      intro hempty
      exact htext (String.append_eq_empty_iff.mp hempty).2
    | computed path =>
      rw [append_snoc_computed, List.append_cons]
      refine normal_snoc.mpr ⟨h, htext, ?_⟩
      intro fragment hfragment hboth
      simp at hfragment
      subst hfragment
      cases hboth.1

/-- What pieces add up to is normal. -/
theorem normal_foldl_push {pieces : List Piece} {fragments : List Fragment} (h : Normal fragments)
    (hpieces : ∀ path, .computed path ∈ pieces → path.WellFormed) :
    Normal (pieces.foldl push fragments) := by
  induction pieces generalizing fragments with
  | nil => exact h
  | cons piece pieces ih =>
    have hothers : ∀ path, .computed path ∈ pieces → path.WellFormed :=
      fun path hpath => hpieces path (List.mem_cons_of_mem piece hpath)
    cases piece with
    | plain c => exact ih (h.append (by simp)) hothers
    | computed path => exact ih (h.computed (hpieces path List.mem_cons_self)) hothers

/-- A text behind fragments that do not end in text is a fragment of its own. -/
theorem append_of_apart {fragments : List Fragment} {text : String}
    (h : ∀ fragment ∈ fragments.getLast?, fragment.isLiteral = false) :
    append text fragments = fragments ++ [.literal text] := by
  rcases List.eq_nil_or_concat fragments with rfl | ⟨others, last, rfl⟩
  · rfl
  · rw [List.concat_eq_append] at h ⊢
    cases last with
    | literal last => exact absurd (h (.literal last) (by simp)) (by simp [isLiteral])
    | computed path =>
      rw [append_snoc_computed, List.append_assoc]
      rfl

theorem ofPieces_pieces {fragments : List Fragment} (h : Normal fragments) :
    ofPieces (fragments.flatMap pieces) = fragments := by
  induction fragments using List.reverseRecOn with
  | nil => rfl
  | append_singleton fragments last ih =>
    obtain ⟨hfragments, hlast, hends⟩ := normal_snoc.mp h
    rw [ofPieces, List.flatMap_append, List.foldl_append, ← ofPieces, ih hfragments]
    cases last with
    | computed path => rfl
    | literal text =>
      have htext : text ≠ "" := hlast
      have hrun : text.toList ≠ [] := by simpa using htext
      have hapart : ∀ fragment ∈ fragments.getLast?, fragment.isLiteral = false :=
        fun fragment hfragment => by simpa [isLiteral] using hends fragment hfragment
      rw [List.flatMap_singleton, pieces, push_run hrun, String.ofList_toList,
        append_of_apart hapart]

end Fragment

namespace Piece

theorem read_wellFormed {text : List Char} {pieces : List Piece} (h : read text = .ok pieces) :
    ∀ path, .computed path ∈ pieces → path.WellFormed := by
  fun_induction read text generalizing pieces with
  | case1 =>
    cases h
    simp
  | case2 rest ih =>
    obtain ⟨others, hothers, rfl⟩ := Fallible.map_eq_ok.mp h
    simpa using ih hothers
  | case3 => cases h
  | case4 rest _ path behind hpath _ ih =>
    obtain ⟨others, hothers, rfl⟩ := Fallible.map_eq_ok.mp h
    obtain ⟨_, _, hspells⟩ := Path.scopedAttribute_sound hpath
    intro other hother
    rcases List.mem_cons.mp hother with heq | hother
    · cases heq
      exact hspells.wellFormed
    · exact ih hothers other hother
  | case5 c rest _ _ ih =>
    obtain ⟨others, hothers, rfl⟩ := Fallible.map_eq_ok.mp h
    simpa using ih hothers

end Piece

theorem Template.normal_of_parse {source : String} {template : Template}
    (h : parse source = .ok template) : Fragment.Normal template.fragments := by
  obtain ⟨pieces, hread, rfl⟩ := parse_ok_iff.mp h
  exact Fragment.normal_foldl_push .nil (Piece.read_wellFormed hread)

end ShapeRules
