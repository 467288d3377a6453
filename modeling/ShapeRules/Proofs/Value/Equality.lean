import ShapeRules.Proofs.Json.Equality
import ShapeRules.Proofs.Value

/-!
When values are the same. A relation between nodes is carried over to values, and from values to
what they add to projections.
-/

namespace ShapeRules

open Keyed (DistinctKeys)

theorem Variables.find?_of_mem {bound : Variables} (hbound : DistinctKeys bound)
    {entry : String × List ShapeId} (h : entry ∈ bound) :
    Variables.find? bound entry.1 = some entry.2 := by
  rw [find?, Keyed.find?_of_mem hbound h]
  rfl

namespace Value

/-- Nodes are well formed, and each variable is bound once. -/
inductive WellFormed : Value → Prop
  | absent : WellFormed .absent
  | bool (b : Bool) : WellFormed (.bool b)
  | string (s : String) : WellFormed (.string s)
  | shape (id : ShapeId) {bound : Option Variables}
      (hbound : ∀ known ∈ bound, DistinctKeys known) : WellFormed (.shape id bound)
  | node {json : Json} (hjson : json.WellFormed) (trait : Option ShapeId) :
      WellFormed (.node json trait)
  | projection {values : List Value} (hvalues : ∀ value ∈ values, WellFormed value) :
      WellFormed (.projection values)

/-- The values agree up to a relation between their nodes. -/
inductive Lift (R : Json → Json → Prop) : Value → Value → Prop
  | absent : Lift R .absent .absent
  | bool (b : Bool) : Lift R (.bool b) (.bool b)
  | string (s : String) : Lift R (.string s) (.string s)
  | shape (id : ShapeId) {bound bound' : Option Variables}
      (hbound : sameVariables bound bound' = true) : Lift R (.shape id bound) (.shape id bound')
  | node {json json' : Json} (hjson : R json json') (trait : Option ShapeId) :
      Lift R (.node json trait) (.node json' trait)
  | projection {xs ys : List Value} (hvalues : List.Forall₂ (Lift R) xs ys) :
      Lift R (.projection xs) (.projection ys)

/-- The values are the same with the fields of all objects in the same order. -/
def Ordered (a b : Value) : Prop := a.Lift Json.Ordered b

variable {R S : Json → Json → Prop} {a b : Value} {xs ys : List Value}

theorem sameAll_iff :
    sameAll xs ys = true ↔ List.Forall₂ (fun x y => same x y = true) xs ys := by
  induction xs generalizing ys with
  | nil => cases ys <;> simp [sameAll]
  | cons x xs ih => cases ys <;> simp [sameAll, ih]

private theorem lift_of_same_single (ha : a.isSingle = true) (h : a.same b = true) :
    a.Lift (fun x y => x.same y = true) b := by
  cases a with
  | absent => cases ha
  | projection xs => cases ha
  | bool x =>
    cases b with
    | bool y =>
      obtain rfl : x = y := by simpa [Value.same] using h
      exact .bool x
    | _ => cases h
  | string s =>
    cases b with
    | string t =>
      obtain rfl : s = t := by simpa [Value.same] using h
      exact .string s
    | _ => cases h
  | shape id bound =>
    cases b with
    | shape id' bound' =>
      rw [Value.same, Bool.and_eq_true, decide_eq_true_iff] at h
      obtain ⟨rfl, hbound⟩ := h
      exact .shape id hbound
    | _ => cases h
  | node json trait =>
    cases b with
    | node json' trait' =>
      rw [Value.same, Bool.and_eq_true, decide_eq_true_iff] at h
      obtain ⟨hjson, rfl⟩ := h
      exact .node hjson trait
    | _ => cases h

theorem lift_of_same (h : a.same b = true) : a.Lift (fun x y => x.same y = true) b := by
  induction a using nested_induction generalizing b with
  | absent =>
    cases b with
    | absent => exact .absent
    | _ => cases h
  | single a ha => exact lift_of_same_single ha h
  | projection xs ih =>
    cases b with
    | projection ys =>
      exact .projection (Aligned.imp_of_mem (sameAll_iff.mp h) fun x hx y _ hxy => ih x hx hxy)
    | _ => cases h

theorem Lift.same (h : a.Lift (fun x y => x.same y = true) b) : a.same b = true := by
  induction a using nested_induction generalizing b with
  | absent =>
    cases h
    rfl
  | single a ha =>
    cases h with
    | absent => cases ha
    | projection => cases ha
    | bool b => simp [Value.same]
    | string s => simp [Value.same]
    | shape id hbound => simp [Value.same, hbound]
    | node hjson trait => simp [Value.same, hjson]
  | projection xs ih =>
    cases h with
    | projection h => exact sameAll_iff.mpr (Aligned.imp_of_mem h fun x hx y _ hxy => ih x hx hxy)

theorem Lift.mono (hRS : ∀ x y, x.WellFormed → y.WellFormed → R x y → S x y) (h : a.Lift R b)
    (ha : a.WellFormed) (hb : b.WellFormed) : a.Lift S b := by
  induction ha generalizing b with
  | absent =>
    cases h
    exact .absent
  | bool =>
    cases h
    exact .bool _
  | string =>
    cases h
    exact .string _
  | shape =>
    cases h with
    | shape _ hbound => exact .shape _ hbound
  | node hjson =>
    cases h with
    | node h =>
      cases hb with
      | node hjson' => exact .node (hRS _ _ hjson hjson' h) _
  | projection _ ih =>
    cases h with
    | projection h =>
      cases hb with
      | projection hvalues =>
        exact .projection (Aligned.imp_of_mem h fun x hx y hy hxy => ih x hx hxy (hvalues y hy))

/-- Values are the same if they agree up to a relation between nodes that are the same. -/
theorem Lift.same_of_respected (hR : Json.Respected R) (h : a.Lift R b) (ha : a.WellFormed)
    (hb : b.WellFormed) : a.same b = true :=
  (h.mono hR.same ha hb).same

theorem lift_refl (hR : Json.Respected R) (ha : a.WellFormed) : a.Lift R a := by
  induction ha with
  | absent => exact .absent
  | bool b => exact .bool b
  | string s => exact .string s
  | @shape id bound hbound =>
    refine .shape id ?_
    cases bound with
    | none => rfl
    | some known =>
      have hall : ∀ entry ∈ known, Variables.find? known entry.1 = some entry.2 :=
        fun entry hentry => Variables.find?_of_mem (hbound known rfl) hentry
      simpa [sameVariables] using fun name shapes hentry => hall (name, shapes) hentry
  | node hjson => exact .node (hR.refl _ hjson) _
  | projection _ ih => exact .projection (List.forall₂_same.mpr ih)

/-- The same variables are bound to the same shapes, whatever their order. -/
theorem find?_eq_of_sameVariables {bound bound' : Option Variables}
    (h : sameVariables bound bound' = true) (hbound : ∀ known ∈ bound, DistinctKeys known)
    (name : String) :
    (bound.bind fun known => Variables.find? known name) =
      bound'.bind fun known => Variables.find? known name := by
  cases bound with
  | none =>
    cases bound' with
    | none => rfl
    | some others => cases h
  | some known =>
    cases bound' with
    | none => cases h
    | some others =>
      rw [sameVariables, Bool.and_eq_true, decide_eq_true_iff, List.all_eq_true] at h
      have hcovers : ∀ entry ∈ known, ∃ other ∈ others, entry.1 = other.1 ∧ entry.2 = other.2 := by
        intro entry hentry
        have hfound := of_decide_eq_true (h.2 entry hentry)
        obtain ⟨other, hother, hshapes⟩ := Option.map_eq_some_iff.mp hfound
        obtain ⟨hmem, hkey⟩ := Keyed.find?_eq_some hother
        exact ⟨other, hmem, hkey.symm, hshapes.symm⟩
      obtain ⟨sorted, hperm, haligned⟩ :=
        Keyed.exists_perm_of_covers (hbound known rfl) h.1 hcovers
      have hentries : known = sorted := by
        rw [← List.forall₂_eq_eq_eq]
        exact haligned.imp fun _ _ h => Prod.ext h.1 h.2
      rw [← hentries] at hperm
      rw [Option.bind_some, Option.bind_some, Variables.find?, Variables.find?,
        Keyed.find?_perm (hbound known rfl) hperm]

theorem Lift.parts (h : a.Lift R b) : List.Forall₂ (Lift R) a.parts b.parts := by
  induction a using nested_induction generalizing b with
  | absent =>
    cases h
    exact .nil
  | single a ha =>
    rw [parts_single ha]
    cases h with
    | absent => cases ha
    | projection => cases ha
    | bool b => exact .cons (.bool b) .nil
    | string s => exact .cons (.string s) .nil
    | shape id hbound => exact .cons (.shape id hbound) .nil
    | node hjson trait => exact .cons (.node hjson trait) .nil
  | projection xs ih =>
    cases h with
    | projection h =>
      have hparts := Aligned.imp_of_mem h fun x hx y _ hxy => ih x hx hxy
      rw [Value.parts, Value.parts, allParts_eq_flatMap, allParts_eq_flatMap]
      exact Aligned.flatMap hparts

theorem lift_ofList (h : List.Forall₂ (Lift R) xs ys) : (ofList xs).Lift R (ofList ys) := by
  refine .projection ?_
  rw [allParts_eq_flatMap, allParts_eq_flatMap]
  exact Aligned.flatMap (h.imp fun _ _ h => h.parts)

end Value

end ShapeRules
