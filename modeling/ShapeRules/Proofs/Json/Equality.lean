import ShapeRules.Json.Basic
import ShapeRules.Proofs.Keyed

/-!
When JSON values are the same. The fields of the one object are those of the other in some order,
and values are ordered alike where that order is the same in all their objects.
-/

namespace ShapeRules

open Keyed (DistinctKeys)

theorem Number.same_refl (n : Number) : n.same n = true := by
  cases n with
  | integer n => simp [Number.same]
  | double x => simp [Number.same, Binary64.same]

namespace Json

/-- The keys of every object are different. -/
inductive WellFormed : Json → Prop
  | null : WellFormed .null
  | bool (b : Bool) : WellFormed (.bool b)
  | number (n : Number) : WellFormed (.number n)
  | string (s : String) : WellFormed (.string s)
  | array {items : List Json} (hitems : ∀ item ∈ items, WellFormed item) :
      WellFormed (.array items)
  | object {fields : List (String × Json)} (hkeys : DistinctKeys fields)
      (hfields : ∀ field ∈ fields, WellFormed field.2) : WellFormed (.object fields)

/-- The values are the same with the fields of their objects in the same order. -/
inductive Ordered : Json → Json → Prop
  | null : Ordered .null .null
  | bool (b : Bool) : Ordered (.bool b) (.bool b)
  | number {m n : Number} (h : m.same n = true) : Ordered (.number m) (.number n)
  | string (s : String) : Ordered (.string s) (.string s)
  | array {xs ys : List Json} (h : List.Forall₂ Ordered xs ys) : Ordered (.array xs) (.array ys)
  | object {xs ys : List (String × Json)} (hkeys : xs.map Prod.fst = ys.map Prod.fst)
      (hvalues : List.Forall₂ Ordered (xs.map Prod.snd) (ys.map Prod.snd)) :
      Ordered (.object xs) (.object ys)

variable {x y : Json} {xs ys : List Json} {fields others : List (String × Json)}

theorem wellFormed_object : (object fields).WellFormed ↔
    DistinctKeys fields ∧ ∀ field ∈ fields, field.2.WellFormed := by
  constructor
  · intro h
    cases h with
    | object hkeys hfields => exact ⟨hkeys, hfields⟩
  · exact fun h => .object h.1 h.2

theorem WellFormed.distinctKeys (h : (Json.object fields).WellFormed) : DistinctKeys fields :=
  (wellFormed_object.mp h).1

theorem wellFormed_empty : (object []).WellFormed :=
  .object Keyed.distinctKeys_nil (by simp)

theorem wellFormed_put {key : String} (h : (object fields).WellFormed) (hx : x.WellFormed) :
    (object (Keyed.put Prod.fst (key, x) fields)).WellFormed := by
  obtain ⟨hkeys, hfields⟩ := wellFormed_object.mp h
  refine .object (Keyed.nodup_put _ hkeys) fun field hfield => ?_
  rcases Keyed.mem_put hfield with rfl | hold
  · exact hx
  · exact hfields field hold

theorem sameItems_iff :
    sameItems xs ys = true ↔ List.Forall₂ (fun x y => same x y = true) xs ys := by
  induction xs generalizing ys with
  | nil => cases ys <;> simp [sameItems]
  | cons x xs ih => cases ys <;> simp [sameItems, ih]

theorem sameFields_iff : sameFields fields others = true ↔
    ∀ field ∈ fields, ∃ y, field? others field.1 = some y ∧ field.2.same y = true := by
  induction fields with
  | nil => simp [sameFields]
  | cons field fields ih =>
    rw [sameFields, Bool.and_eq_true, ih, List.forall_mem_cons]
    refine and_congr ?_ Iff.rfl
    cases field? others field.1 <;> simp

theorem mem_of_field? {key : String} (h : field? fields key = some x) : (key, x) ∈ fields := by
  obtain ⟨field, hfield, rfl⟩ := Option.map_eq_some_iff.mp h
  obtain ⟨hmem, rfl⟩ := Keyed.find?_eq_some hfield
  exact hmem

theorem field?_of_mem (hkeys : DistinctKeys fields) {field : String × Json}
    (h : field ∈ fields) : field? fields field.1 = some field.2 := by
  rw [field?, Keyed.find?_of_mem hkeys h]
  rfl

theorem same_array (h : same (.array xs) y = true) :
    ∃ ys, y = .array ys ∧ List.Forall₂ (fun x y => same x y = true) xs ys := by
  cases y with
  | array ys => exact ⟨ys, rfl, sameItems_iff.mp h⟩
  | _ => cases h

/-- An object that is the same has the same fields in some order. -/
theorem same_object (hkeys : DistinctKeys fields) (h : same (.object fields) y = true) :
    ∃ others, y = .object others ∧ ∃ sorted, sorted.Perm others ∧
      List.Forall₂ (fun x y => x.1 = y.1 ∧ same x.2 y.2 = true) fields sorted := by
  cases y with
  | object others =>
    rw [same, Bool.and_eq_true, decide_eq_true_iff, sameFields_iff] at h
    refine ⟨others, rfl, Keyed.exists_perm_of_covers (R := fun x y => same x y = true) hkeys h.1
      fun field hfield => ?_⟩
    obtain ⟨y, hy, hsame⟩ := h.2 field hfield
    exact ⟨(field.1, y), mem_of_field? hy, rfl, hsame⟩
  | _ => cases h

theorem WellFormed.ordered_refl (h : x.WellFormed) : x.Ordered x := by
  induction h with
  | null => exact .null
  | bool b => exact .bool b
  | number n => exact .number n.same_refl
  | string s => exact .string s
  | array _ ih => exact .array (List.forall₂_same.mpr ih)
  | object _ _ ih =>
    refine .object rfl (List.forall₂_same.mpr fun value hvalue => ?_)
    obtain ⟨field, hfield, rfl⟩ := List.mem_map.mp hvalue
    exact ih field hfield

theorem ordered_fields (hkeys : fields.map Prod.fst = others.map Prod.fst)
    (hvalues : List.Forall₂ Ordered (fields.map Prod.snd) (others.map Prod.snd)) :
    List.Forall₂ (fun x y => x.1 = y.1 ∧ x.2.Ordered y.2) fields others := by
  induction fields generalizing others with
  | nil =>
    rw [List.map_nil, eq_comm, List.map_eq_nil_iff] at hkeys
    rw [hkeys]
    exact .nil
  | cons field fields ih =>
    cases others with
    | nil => cases hkeys
    | cons other others =>
      obtain ⟨hkey, hkeys⟩ := List.cons_eq_cons.mp hkeys
      obtain ⟨hvalue, hvalues⟩ := List.forall₂_cons.mp hvalues
      exact .cons ⟨hkey, hvalue⟩ (ih hkeys hvalues)

theorem Ordered.same (h : x.Ordered y) (hx : x.WellFormed) (hy : y.WellFormed) :
    x.same y = true := by
  induction hx generalizing y with
  | null =>
    cases h
    rfl
  | bool b =>
    cases h
    simp [Json.same]
  | number n =>
    cases h with
    | number h => exact h
  | string s =>
    cases h
    simp [Json.same]
  | array _ ih =>
    cases h with
    | array h =>
      cases hy with
      | array hitems =>
        exact sameItems_iff.mpr (Aligned.imp_of_mem h fun x hx y hy hxy =>
          ih x hx hxy (hitems y hy))
  | object hkeys _ ih =>
    cases h with
    | object hsame hvalues =>
      cases hy with
      | object hothers hfields =>
        have haligned := ordered_fields hsame hvalues
        rw [Json.same, Bool.and_eq_true, decide_eq_true_iff, sameFields_iff]
        refine ⟨haligned.length_eq, fun field hfield => ?_⟩
        obtain ⟨other, hother, hkey, hordered⟩ := Aligned.exists_of_mem_left haligned hfield
        refine ⟨other.2, ?_, ih field hfield hordered (hfields other hother)⟩
        rw [hkey]
        exact field?_of_mem hothers hother

/-- Objects of the same fields agree on every key, whatever the order. -/
theorem field?_rel {R : Json → Json → Prop} {sorted : List (String × Json)}
    (hothers : DistinctKeys others) (hperm : sorted.Perm others)
    (haligned : List.Forall₂ (fun x y => x.1 = y.1 ∧ R x.2 y.2) fields sorted) (key : String) :
    Option.Rel R (field? fields key) (field? others key) := by
  have hsorted : (sorted.map Prod.fst).Nodup := (hperm.map Prod.fst).nodup_iff.mpr hothers
  have hfound := Keyed.find?_aligned haligned key
  rw [Keyed.find?_perm hsorted hperm] at hfound
  unfold field?
  generalize Keyed.find? Prod.fst key fields = first at hfound ⊢
  generalize Keyed.find? Prod.fst key others = second at hfound ⊢
  cases hfound with
  | none => exact .none
  | some h => exact .some h.2

/-- The relation is one between values that are the same, and holds between their parts. -/
structure Respected (R : Json → Json → Prop) : Prop where
  refl : ∀ x, x.WellFormed → R x x
  same : ∀ x y, x.WellFormed → y.WellFormed → R x y → x.same y = true
  items : ∀ xs ys, R (.array xs) (.array ys) → List.Forall₂ R xs ys
  fields : ∀ fields others, DistinctKeys fields → DistinctKeys others →
    R (.object fields) (.object others) →
      ∀ key, Option.Rel R (field? fields key) (field? others key)

theorem respected_ordered : Respected Ordered where
  refl := fun _ hx => hx.ordered_refl
  same := fun _ _ hx hy h => h.same hx hy
  items := by
    intro xs ys h
    cases h with
    | array h => exact h
  fields := by
    intro fields others _ hothers h key
    cases h with
    | object hkeys hvalues => exact field?_rel hothers .rfl (ordered_fields hkeys hvalues) key

theorem respected_same : Respected fun x y => x.same y = true where
  refl := fun _ hx => hx.ordered_refl.same hx hx
  same := fun _ _ _ _ h => h
  items := by
    intro xs ys h
    obtain ⟨_, heq, hitems⟩ := same_array h
    cases heq
    exact hitems
  fields := by
    intro fields others hfields hothers h key
    obtain ⟨_, heq, sorted, hperm, haligned⟩ := same_object hfields h
    cases heq
    exact field?_rel hothers hperm haligned key

end Json

end ShapeRules
