import Mathlib.Data.List.Forall2

/-!
Two lists that a relation holds between place by place.
-/

namespace ShapeRules.Aligned

variable {α β : Type} {R : α → β → Prop} {as : List α} {bs : List β} {a : α} {b : β}

theorem exists_of_mem_left (h : List.Forall₂ R as bs) (ha : a ∈ as) : ∃ b ∈ bs, R a b := by
  induction h with
  | nil => cases ha
  | cons hfirst _ ih =>
    rcases List.mem_cons.mp ha with rfl | ha
    · exact ⟨_, List.mem_cons_self, hfirst⟩
    · obtain ⟨b, hb, hrel⟩ := ih ha
      exact ⟨b, List.mem_cons_of_mem _ hb, hrel⟩

theorem exists_of_mem_right (h : List.Forall₂ R as bs) (hb : b ∈ bs) : ∃ a ∈ as, R a b :=
  exists_of_mem_left h.flip hb

theorem getElem? (h : List.Forall₂ R as bs) (i : Nat) : Option.Rel R as[i]? bs[i]? := by
  induction h generalizing i with
  | nil => exact .none
  | cons hfirst _ ih =>
    cases i with
    | zero => exact .some hfirst
    | succ i => exact ih i

theorem imp_of_mem {S : α → β → Prop} (h : List.Forall₂ R as bs)
    (himp : ∀ a ∈ as, ∀ b ∈ bs, R a b → S a b) : List.Forall₂ S as bs := by
  induction h with
  | nil => exact .nil
  | cons hfirst _ ih =>
    refine .cons (himp _ List.mem_cons_self _ List.mem_cons_self hfirst) (ih fun a ha b hb => ?_)
    exact himp a (List.mem_cons_of_mem _ ha) b (List.mem_cons_of_mem _ hb)

theorem and {S : α → β → Prop} (h : List.Forall₂ R as bs) (h' : List.Forall₂ S as bs) :
    List.Forall₂ (fun a b => R a b ∧ S a b) as bs := by
  induction h with
  | nil => exact .nil
  | cons hfirst _ ih =>
    obtain ⟨hfirst', hothers'⟩ := List.forall₂_cons.mp h'
    exact .cons ⟨hfirst, hfirst'⟩ (ih hothers')

theorem map_eq {γ : Type} {f : α → γ} {g : β → γ} (h : List.Forall₂ R as bs)
    (hmap : ∀ a b, R a b → f a = g b) : as.map f = bs.map g := by
  induction h with
  | nil => rfl
  | cons hfirst _ ih => rw [List.map_cons, List.map_cons, hmap _ _ hfirst, ih]

theorem flatMap {γ δ : Type} {S : γ → δ → Prop} {f : α → List γ} {g : β → List δ}
    (h : List.Forall₂ (fun a b => List.Forall₂ S (f a) (g b)) as bs) :
    List.Forall₂ S (as.flatMap f) (bs.flatMap g) := by
  induction h with
  | nil => exact .nil
  | cons hfirst _ ih =>
    rw [List.flatMap_cons, List.flatMap_cons]
    exact List.rel_append hfirst ih

/-- Aligned blocks of equal lengths can be told apart in what they add up to. -/
theorem of_flatMap {γ δ : Type} {S : γ → δ → Prop} {f : α → List γ} {g : β → List δ}
    (hlengths : List.Forall₂ (fun a b => (f a).length = (g b).length) as bs)
    (h : List.Forall₂ S (as.flatMap f) (bs.flatMap g)) :
    List.Forall₂ (fun a b => List.Forall₂ S (f a) (g b)) as bs := by
  induction hlengths with
  | nil => exact .nil
  | @cons a b as bs hfirst _ ih =>
    rw [List.flatMap_cons, List.flatMap_cons] at h
    have hfront := List.forall₂_take_append _ _ _ h
    have hback := List.forall₂_drop_append _ _ _ h
    rw [← hfirst, List.take_left] at hfront
    rw [← hfirst, List.drop_left] at hback
    exact .cons hfront (ih hback)

theorem forall_of_forall {ι : Type} [Nonempty ι] {S : ι → α → β → Prop}
    (h : ∀ i, List.Forall₂ (S i) as bs) : List.Forall₂ (fun a b => ∀ i, S i a b) as bs := by
  obtain ⟨i⟩ := ‹Nonempty ι›
  induction as generalizing bs with
  | nil =>
    cases h i
    exact .nil
  | cons a as ih =>
    cases h i with
    | cons =>
      exact .cons (fun i => (List.forall₂_cons.mp (h i)).1)
        (ih fun i => (List.forall₂_cons.mp (h i)).2)

/-- Where aligned elements are related just when the left one has a property, the lists are related
just when all elements on the left have it. -/
theorem forall_iff {S : α → β → Prop} {P : α → Prop} (h : List.Forall₂ R as bs)
    (hiff : ∀ a ∈ as, ∀ b, R a b → (S a b ↔ P a)) : List.Forall₂ S as bs ↔ ∀ a ∈ as, P a := by
  induction h with
  | nil => simp
  | @cons a b as bs hfirst _ ih =>
    obtain ⟨ha, has⟩ := List.forall_mem_cons.mp hiff
    rw [List.forall₂_cons, List.forall_mem_cons, ha b hfirst, ih has]

/-- A list can be aligned with some other exactly if each of its elements has a partner. -/
theorem exists_iff : (∃ bs, List.Forall₂ R as bs) ↔ ∀ a ∈ as, ∃ b, R a b := by
  constructor
  · rintro ⟨bs, h⟩ a ha
    obtain ⟨b, -, hrel⟩ := exists_of_mem_left h ha
    exact ⟨b, hrel⟩
  · intro h
    induction as with
    | nil => exact ⟨[], .nil⟩
    | cons a as ih =>
      obtain ⟨⟨b, hfirst⟩, hothers⟩ := List.forall_mem_cons.mp h
      obtain ⟨bs, hbs⟩ := ih hothers
      exact ⟨b :: bs, .cons hfirst hbs⟩

end ShapeRules.Aligned
