import ShapeRules.Proofs.Template.Spans

/-!
Texts that fragments stand for. There are no more fragments and segments of paths than such a text
has characters.
-/

namespace ShapeRules

open Fragment (push)

/-- The span is a part of a template: a run has no sign in it, and an expression denotes its path. -/
def Span.Valid : Span → Prop
  | run text => '@' ∉ text
  | doubled => True
  | expression behind path => Path.parse (String.ofList ('@' :: behind)) = .ok path

/-- The fragments are all of the text: it falls into spans, and these amount to the fragments. -/
def Represents (fragments : List Fragment) (text : List Char) : Prop :=
  ∃ spans : List Span, (∀ span ∈ spans, span.Valid) ∧ spans.flatMap Span.text = text ∧
    Span.fragments [] spans = fragments

variable {fragments : List Fragment} {text : List Char}

theorem represents_nil : Represents [] [] := ⟨[], by simp, rfl, rfl⟩

theorem Represents.snoc {span : Span} (h : Represents fragments text) (hspan : span.Valid) :
    Represents (span.pieces.foldl push fragments) (text ++ span.text) := by
  obtain ⟨spans, hspans, rfl, rfl⟩ := h
  refine ⟨spans ++ [span], ?_, by simp, ?_⟩
  · intro other hother
    obtain hother | hother := List.mem_append.mp hother
    · exact hspans other hother
    · exact List.mem_singleton.mp hother ▸ hspan
  · rw [← Fragment.ofPieces_spans, ← Fragment.ofPieces_spans, Fragment.ofPieces,
      List.flatMap_append, List.foldl_append, List.flatMap_singleton]
    rfl

/-- The number of segments of the path in the fragment. -/
def Fragment.segmentCount : Fragment → Nat
  | literal _ => 0
  | computed path => path.segments.length

/-- The fragments and the segments of their paths, counted together. -/
def Fragment.count (fragments : List Fragment) : Nat :=
  fragments.length + (fragments.map segmentCount).sum

namespace Fragment

theorem count_append (fragments others : List Fragment) :
    count (fragments ++ others) = count fragments + count others := by
  simp only [count, List.length_append, List.map_append, List.sum_append]
  omega

theorem count_ofText (text : List Char) : count (ofText text) ≤ text.length := by
  by_cases htext : text = []
  · rw [htext]
    exact Nat.le_refl _
  · rw [ofText_of_ne_nil htext]
    exact List.length_pos_iff.mpr htext

theorem count_spans {spans : List Span} (h : ∀ span ∈ spans, span.Valid) (front : List Char) :
    count (Span.fragments front spans) ≤ front.length + (spans.flatMap Span.text).length := by
  induction spans generalizing front with
  | nil => exact count_ofText front
  | cons span spans ih =>
    obtain ⟨hspan, hspans⟩ := List.forall_mem_cons.mp h
    rw [List.flatMap_cons, List.length_append, ← Nat.add_assoc]
    cases span with
    | run text =>
      rw [← List.length_append]
      exact ih hspans _
    | doubled =>
      refine Nat.le_trans (ih hspans _) ?_
      simp [Span.text]
    | expression behind path =>
      have hfront := count_ofText front
      have hpath := (Path.parse_sign_iff.mp hspan).length_lt
      have hbehind := ih hspans []
      have hcomputed : count (computed path :: Span.fragments [] spans) =
          1 + path.segments.length + count (Span.fragments [] spans) :=
        count_append [computed path] _
      rw [Span.fragments, count_append, hcomputed, Span.text]
      rw [List.length_nil] at hbehind
      omega

end Fragment

theorem Represents.count_le (h : Represents fragments text) :
    Fragment.count fragments ≤ text.length := by
  obtain ⟨spans, hspans, rfl, rfl⟩ := h
  have hcount := Fragment.count_spans hspans []
  rwa [List.length_nil, Nat.zero_add] at hcount

end ShapeRules
