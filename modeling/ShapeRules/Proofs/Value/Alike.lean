import Mathlib.Data.Multiset.Bind
import ShapeRules.Proofs.Value.Equality

/-!
Values that are alike: the same, or projections of the same values in some order.
-/

namespace ShapeRules.Value

/-- The lists hold the same values in some order. -/
def Reordered (xs ys : List Value) : Prop :=
  Multiset.Rel (fun x y : Value => x.same y = true) xs ys

/-- The values are the same, or projections of the same values in some order. -/
inductive Alike : Value → Value → Prop
  | same {a b : Value} (h : a.same b = true) : Alike a b
  | projection {xs ys : List Value} (h : Reordered xs ys) :
      Alike (.projection xs) (.projection ys)

variable {a b : Value} {xs ys sorted : List Value}

theorem rel_of_aligned {α β : Type} {R : α → β → Prop} {xs : List α} {ys : List β}
    (h : List.Forall₂ R xs ys) : Multiset.Rel R (xs : Multiset α) (ys : Multiset β) := by
  induction h with
  | nil => exact .zero
  | cons hfirst _ ih => exact .cons hfirst ih

theorem reordered_of_perm (h : List.Forall₂ (fun x y : Value => x.same y = true) xs sorted)
    (hperm : sorted.Perm ys) : Reordered xs ys := by
  rw [Reordered, ← Multiset.coe_eq_coe.mpr hperm]
  exact rel_of_aligned h

theorem Reordered.length_eq (h : Reordered xs ys) : xs.length = ys.length := by
  simpa using Multiset.card_eq_card_of_rel h

theorem coe_allParts (xs : List Value) :
    (allParts xs : Multiset Value) =
      (xs : Multiset Value).bind fun x => (x.parts : Multiset Value) := by
  rw [allParts_eq_flatMap, ← Multiset.coe_bind]

/-- What values add to a projection is the same up to order where it is for each of them. -/
theorem reordered_allParts
    (h : Multiset.Rel (fun x y : Value => Reordered x.parts y.parts) xs ys) :
    Reordered (allParts xs) (allParts ys) := by
  rw [Reordered, coe_allParts, coe_allParts]
  exact Multiset.rel_bind (fun _ _ hparts => hparts) h

theorem reordered_parts_of_same (h : a.same b = true) : Reordered a.parts b.parts :=
  reordered_of_perm ((lift_of_same h).parts.imp fun _ _ => Lift.same) .rfl

theorem Alike.parts (h : Alike a b) : Reordered a.parts b.parts := by
  cases h with
  | same h => exact reordered_parts_of_same h
  | projection h =>
    rw [Value.parts, Value.parts]
    exact reordered_allParts (h.mono fun _ _ _ _ => reordered_parts_of_same)

theorem alike_ofList (h : Multiset.Rel Alike (xs : Multiset Value) ys) :
    Alike (ofList xs) (ofList ys) :=
  .projection (reordered_allParts (h.mono fun _ _ _ _ => Alike.parts))

/-- Values that are alike are the same if what they add to projections is. -/
theorem Alike.same_of_parts (h : Alike a b) (ha : a.Flat) (hb : b.Flat)
    (hparts : List.Forall₂ (fun x y : Value => x.same y = true) a.parts b.parts) :
    a.same b = true := by
  cases h with
  | same h => exact h
  | projection h =>
    rw [ha.parts_eq, hb.parts_eq] at hparts
    exact sameAll_iff.mpr hparts

end ShapeRules.Value
