import Mathlib.Data.List.Induction
import Mathlib.Data.List.Nodup
import Mathlib.Data.List.Perm.Subperm
import ShapeRules.Keyed
import ShapeRules.Proofs.Aligned

/-!
Lists of different keys: each element is the one that its key finds, and no element takes the place
of another.
-/

namespace ShapeRules.Keyed

variable {κ α : Type} [DecidableEq κ] {key : α → κ} {k : κ} {x y : α} {xs : List α}

/-- The keys of the table are different. -/
def DistinctKeys (table : List (String × α)) : Prop := (table.map Prod.fst).Nodup

theorem distinctKeys_nil : DistinctKeys ([] : List (String × α)) := List.nodup_nil

theorem find?_eq_some (h : find? key k xs = some x) : x ∈ xs ∧ key x = k := by
  refine ⟨List.mem_of_find?_eq_some h, ?_⟩
  simpa using List.find?_some h

theorem exists_find?_iff : (∃ x, find? key k xs = some x) ↔ k ∈ xs.map key := by
  constructor
  · rintro ⟨x, hx⟩
    obtain ⟨hmem, rfl⟩ := find?_eq_some hx
    exact List.mem_map_of_mem hmem
  · intro hk
    obtain ⟨x, hx, hkey⟩ := List.mem_map.mp hk
    exact Option.isSome_iff_exists.mp (List.find?_isSome.mpr ⟨x, hx, by simpa using hkey⟩)

theorem find?_of_mem (hkeys : (xs.map key).Nodup) (hx : x ∈ xs) :
    find? key (key x) xs = some x := by
  cases hfound : find? key (key x) xs with
  | none =>
    have hnot := List.find?_eq_none.mp hfound x hx
    simp at hnot
  | some y =>
    obtain ⟨hy, hkey⟩ := find?_eq_some hfound
    rw [List.inj_on_of_nodup_map hkeys hy hx hkey]

theorem find?_eq_some_iff (hkeys : (xs.map key).Nodup) :
    find? key k xs = some x ↔ x ∈ xs ∧ key x = k := by
  constructor
  · exact find?_eq_some
  · rintro ⟨hx, rfl⟩
    exact find?_of_mem hkeys hx

/-- Among different keys the order makes no difference to a search. -/
theorem find?_perm {ys : List α} (hkeys : (xs.map key).Nodup) (h : xs.Perm ys) :
    find? key k xs = find? key k ys := by
  have hkeys' : (ys.map key).Nodup := (h.map key).nodup_iff.mp hkeys
  apply Option.ext
  intro x
  rw [find?_eq_some_iff hkeys, find?_eq_some_iff hkeys', h.mem_iff]

theorem mem_put (h : y ∈ put key x xs) : y = x ∨ y ∈ xs := by
  induction xs with
  | nil => exact .inl (List.mem_singleton.mp h)
  | cons z rest ih =>
    rw [put] at h
    split at h
    · rcases List.mem_cons.mp h with rfl | hrest
      · exact .inl rfl
      · exact .inr (List.mem_cons_of_mem z hrest)
    · rcases List.mem_cons.mp h with rfl | hrest
      · exact .inr List.mem_cons_self
      · rcases ih hrest with rfl | hy
        · exact .inl rfl
        · exact .inr (List.mem_cons_of_mem z hy)

theorem put_of_fresh (h : key x ∉ xs.map key) : put key x xs = xs ++ [x] := by
  induction xs with
  | nil => rfl
  | cons y rest ih =>
    rw [List.map_cons, List.mem_cons, not_or] at h
    rw [put, if_neg (Ne.symm h.1), ih h.2, List.cons_append]

theorem foldl_put_of_nodup {start : List α} (h : ((start ++ xs).map key).Nodup) :
    xs.foldl (fun known x => put key x known) start = start ++ xs := by
  induction xs generalizing start with
  | nil => rw [List.foldl_nil, List.append_nil]
  | cons x xs ih =>
    rw [← List.singleton_append, ← List.append_assoc] at h ⊢
    have hfresh : key x ∉ start.map key := by
      rw [List.map_append, List.map_append] at h
      intro hmem
      exact (List.nodup_append.mp h.of_append_left).2.2 _ hmem _ List.mem_cons_self rfl
    rw [List.singleton_append, List.foldl_cons, put_of_fresh hfresh]
    exact ih h

/-- Elements that are put in one after the other stand in the order of the first of each key. -/
theorem keys_foldl_put :
    (xs.foldl (fun known x => put key x known) []).map key = distinct (xs.map key) := by
  have hfold (start : List α) : (xs.foldl (fun known x => put key x known) start).map key =
      (xs.map key).foldl (fun seen k => if k ∈ seen then seen else seen ++ [k])
        (start.map key) := by
    induction xs generalizing start with
    | nil => rfl
    | cons x xs ih => rw [List.foldl_cons, ih, keys_put, List.map_cons, List.foldl_cons]
  exact hfold []

theorem nodup_foldl_put {start : List α} (h : (start.map key).Nodup) :
    ((xs.foldl (fun known x => put key x known) start).map key).Nodup := by
  induction xs generalizing start with
  | nil => exact h
  | cons x xs ih => exact ih (nodup_put x h)

theorem mem_foldl_put {start : List α}
    (h : y ∈ xs.foldl (fun known x => put key x known) start) : y ∈ start ∨ y ∈ xs := by
  induction xs generalizing start with
  | nil => exact .inl h
  | cons x xs ih =>
    rcases ih h with hput | hrest
    · rcases mem_put hput with rfl | hstart
      · exact .inr List.mem_cons_self
      · exact .inl hstart
    · exact .inr (List.mem_cons_of_mem x hrest)

/-- Elements that are put in one after the other are all kept only if their keys are different. -/
theorem nodup_of_length_foldl_put
    (h : (xs.foldl (fun known x => put key x known) []).length = xs.length) :
    (xs.map key).Nodup := by
  have hnodup : ((xs.foldl (fun known x => put key x known) []).map key).Nodup :=
    nodup_foldl_put List.nodup_nil
  have hsubset : (xs.foldl (fun known x => put key x known) []).map key ⊆ xs.map key := by
    refine List.map_subset key fun y hy => ?_
    exact (mem_foldl_put hy).resolve_left List.not_mem_nil
  have hlength : (xs.map key).length ≤
      ((xs.foldl (fun known x => put key x known) []).map key).length := by simp [h]
  exact ((List.subperm_of_subset hnodup hsubset).perm_of_length_le hlength).nodup_iff.mp hnodup

variable {β : Type} {R : α → β → Prop} {front : List (String × α)} {back : List (String × β)}

/-- A table that has a related entry for each entry of another table of its size, under the same
key, is that table in another order. -/
theorem exists_perm_of_covers (hfront : DistinctKeys front) (hlength : front.length = back.length)
    (hcovers : ∀ x ∈ front, ∃ y ∈ back, x.1 = y.1 ∧ R x.2 y.2) :
    ∃ sorted, sorted.Perm back ∧
      List.Forall₂ (fun x y => x.1 = y.1 ∧ R x.2 y.2) front sorted := by
  obtain ⟨sorted, hsorted⟩ := (Aligned.exists_iff
    (R := fun (x : String × α) (y : String × β) => y ∈ back ∧ x.1 = y.1 ∧ R x.2 y.2)).mpr hcovers
  have hkeys : front.map Prod.fst = sorted.map Prod.fst :=
    Aligned.map_eq hsorted fun _ _ h => h.2.1
  have hnodup : sorted.Nodup := by
    rw [DistinctKeys, hkeys] at hfront
    exact hfront.of_map _
  have hsubset : sorted ⊆ back := by
    intro y hy
    obtain ⟨x, -, hback, -⟩ := Aligned.exists_of_mem_right hsorted hy
    exact hback
  have hle : back.length ≤ sorted.length := by
    rw [← hlength]
    exact Nat.le_of_eq hsorted.length_eq
  exact ⟨sorted, (List.subperm_of_subset hnodup hsubset).perm_of_length_le hle,
    hsorted.imp fun _ _ h => h.2⟩

/-- Tables that agree entry by entry agree on every key. -/
theorem find?_aligned (h : List.Forall₂ (fun x y => x.1 = y.1 ∧ R x.2 y.2) front back)
    (k : String) : Option.Rel (fun x y => x.1 = y.1 ∧ R x.2 y.2)
      (find? Prod.fst k front) (find? Prod.fst k back) := by
  induction h with
  | nil => exact .none
  | @cons x y front back hfirst _ ih =>
    unfold find? at ih ⊢
    by_cases hk : y.1 = k
    · rw [List.find?_cons_of_pos (by simpa [hfirst.1]), List.find?_cons_of_pos (by simpa)]
      exact .some hfirst
    · rw [List.find?_cons_of_neg (by simpa [hfirst.1]), List.find?_cons_of_neg (by simpa)]
      exact ih

theorem mem_distinct {ks : List κ} : k ∈ distinct ks ↔ k ∈ ks := by
  have hfold (seen : List κ) :
      k ∈ ks.foldl (fun seen k => if k ∈ seen then seen else seen ++ [k]) seen ↔
        k ∈ seen ∨ k ∈ ks := by
    induction ks generalizing seen with
    | nil => simp
    | cons first ks ih =>
      rw [List.foldl_cons, ih]
      split
      · rename_i hseen
        constructor
        · exact Or.imp_right (List.mem_cons_of_mem first)
        · rintro (hk | hk)
          · exact .inl hk
          · rcases List.mem_cons.mp hk with rfl | hk
            · exact .inl hseen
            · exact .inr hk
      · rw [List.mem_append, List.mem_singleton, List.mem_cons, or_assoc]
  rw [distinct, hfold]
  simp

theorem distinct_concat (ks : List κ) (k : κ) :
    distinct (ks ++ [k]) = if k ∈ ks then distinct ks else distinct ks ++ [k] := by
  have hmem : k ∈ distinct ks ↔ k ∈ ks := mem_distinct
  rw [distinct, List.foldl_concat]
  simp only [← hmem]
  rfl

/-- Distinct elements stand in the order in which they are first seen. -/
theorem distinct_firstSeen (ks : List κ) :
    (distinct ks).Pairwise fun a b => ks.idxOf a < ks.idxOf b := by
  induction ks using List.reverseRecOn with
  | nil => exact .nil
  | append_singleton ks k ih =>
    have hplace {a : κ} (ha : a ∈ distinct ks) : (ks ++ [k]).idxOf a = ks.idxOf a :=
      List.idxOf_append_of_mem (mem_distinct.mp ha)
    have hold : (distinct ks).Pairwise fun a b => (ks ++ [k]).idxOf a < (ks ++ [k]).idxOf b := by
      refine ih.imp_of_mem fun ha hb hlt => ?_
      rwa [hplace ha, hplace hb]
    rw [distinct_concat]
    split
    · exact hold
    · rename_i hk
      rw [List.pairwise_append]
      refine ⟨hold, List.pairwise_singleton _ _, ?_⟩
      intro a ha b hb
      obtain rfl := List.mem_singleton.mp hb
      rw [hplace ha, List.idxOf_append_of_notMem hk]
      exact Nat.lt_of_lt_of_le (List.idxOf_lt_length_of_mem (mem_distinct.mp ha))
        (Nat.le_add_right _ _)

/-- Of the elements with one key the last one, in the place of the first. -/
def latest (key : α → κ) (xs : List α) : List α :=
  (distinct (xs.map key)).filterMap fun k => find? key k xs.reverse

theorem mem_latest (h : x ∈ latest key xs) : x ∈ xs := by
  obtain ⟨k, -, hfound⟩ := List.mem_filterMap.mp h
  exact List.mem_reverse.mp (find?_eq_some hfound).1

theorem find?_foldl_put (start : List α) :
    find? key k (xs.foldl (fun known x => put key x known) start) =
      (find? key k xs.reverse).or (find? key k start) := by
  induction xs generalizing start with
  | nil => rfl
  | cons x xs ih =>
    have hlast : find? key k (xs.reverse ++ [x]) =
        (find? key k xs.reverse).or (if key x = k then some x else none) := by
      rw [find?, List.find?_append, List.find?_singleton]
      simp [find?]
    rw [List.foldl_cons, ih, find?_put, List.reverse_cons, hlast, Option.or_assoc]
    split <;> rfl

/-- What a list of different keys finds is the list. -/
theorem filterMap_find? (hkeys : (xs.map key).Nodup) :
    (xs.map key).filterMap (fun k => find? key k xs) = xs := by
  rw [List.filterMap_map]
  refine (List.filterMap_congr fun x hx => ?_).trans List.filterMap_some
  exact find?_of_mem hkeys hx

/-- Elements that are put in one after the other keep the place of the first of their key, and the
last of each key remains. -/
theorem foldl_put_eq_latest : xs.foldl (fun known x => put key x known) [] = latest key xs := by
  have hfind (k : κ) : find? key k (xs.foldl (fun known x => put key x known) []) =
      find? key k xs.reverse := by
    rw [find?_foldl_put]
    exact Option.or_none
  have hkeys : ((xs.foldl (fun known x => put key x known) []).map key).Nodup :=
    nodup_foldl_put List.nodup_nil
  rw [latest, ← keys_foldl_put, ← funext hfind, filterMap_find? hkeys]

/-- The entries of a table in which the elements were declared one after the other: one for each key,
found under its key, in the order in which the keys were first declared, and as last declared. -/
structure Tabulates (key : α → κ) (declared entries : List α) : Prop where
  found : ∀ x ∈ entries, find? key (key x) entries = some x
  once : (entries.map key).Nodup
  complete : ∀ k, k ∈ entries.map key ↔ k ∈ declared.map key
  firstOrder : entries.Pairwise fun x y =>
    (declared.map key).idxOf (key x) < (declared.map key).idxOf (key y)
  last : ∀ x ∈ entries, ∃ before behind, declared = before ++ x :: behind ∧
    key x ∉ behind.map key

/-- Elements that are put in one after the other are tabulated. -/
theorem tabulates_foldl_put :
    Tabulates key xs (xs.foldl (fun known x => put key x known) []) := by
  have honce : ((xs.foldl (fun known x => put key x known) []).map key).Nodup :=
    nodup_foldl_put List.nodup_nil
  have hfound (x : α) (hx : x ∈ xs.foldl (fun known x => put key x known) []) :
      find? key (key x) (xs.foldl (fun known x => put key x known) []) = some x :=
    find?_of_mem honce hx
  refine ⟨hfound, honce, ?_, ?_, ?_⟩
  · intro k
    rw [keys_foldl_put, mem_distinct]
  · have hfirst := distinct_firstSeen (xs.map key)
    rw [← keys_foldl_put, List.pairwise_map] at hfirst
    exact hfirst
  · intro x hx
    have hlast := hfound x hx
    rw [find?_foldl_put, find?, find?, List.find?_nil, Option.or_none,
      List.find?_eq_some_iff_append] at hlast
    obtain ⟨-, behind, before, hsplit, hbehind⟩ := hlast
    refine ⟨before.reverse, behind.reverse, ?_, ?_⟩
    · rw [← List.reverse_reverse xs, hsplit]
      simp
    · intro hmem
      obtain ⟨later, hlater, hkey⟩ := List.mem_map.mp hmem
      simpa [hkey] using hbehind later (List.mem_reverse.mp hlater)

end ShapeRules.Keyed
