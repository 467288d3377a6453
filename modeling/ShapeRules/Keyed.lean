/-!
Lists whose elements carry a key. Putting an element replaces the one with its key, in its place.
-/

namespace ShapeRules.Keyed

variable {κ α : Type} [DecidableEq κ]

/-- Puts an element in the place of the first one with its key, or behind all others. -/
def put (key : α → κ) (x : α) : List α → List α
  | [] => [x]
  | y :: rest => if key y = key x then x :: rest else y :: put key x rest

/-- The first element with a key. -/
def find? (key : α → κ) (k : κ) (xs : List α) : Option α :=
  xs.find? fun x => key x = k

/-- The elements in order, each distinct one once. -/
def distinct (xs : List κ) : List κ :=
  xs.foldl (fun seen x => if x ∈ seen then seen else seen ++ [x]) []

theorem keys_put (key : α → κ) (x : α) (xs : List α) :
    (put key x xs).map key =
      if key x ∈ xs.map key then xs.map key else xs.map key ++ [key x] := by
  induction xs with
  | nil => simp [put]
  | cons y rest ih =>
    by_cases h : key y = key x
    · simp [put, h]
    · simp only [put, h, if_false, List.map_cons, ih]
      by_cases hmem : key x ∈ rest.map key
      · simp [hmem]
      · have : key x ∉ key y :: rest.map key := by simp [hmem, Ne.symm h]
        simp only [if_neg hmem, if_neg this, List.cons_append]

theorem nodup_put {key : α → κ} (x : α) {xs : List α} (h : (xs.map key).Nodup) :
    ((put key x xs).map key).Nodup := by
  rw [keys_put]
  split
  · exact h
  · rename_i hmem
    rw [List.nodup_append]
    refine ⟨h, by simp, ?_⟩
    intro a ha b hb hab
    simp only [List.mem_singleton] at hb
    exact hmem (hb ▸ hab ▸ ha)

theorem find?_put (key : α → κ) (x : α) (k : κ) (xs : List α) :
    find? key k (put key x xs) = if key x = k then some x else find? key k xs := by
  induction xs with
  | nil => by_cases h : key x = k <;> simp [find?, put, h]
  | cons y rest ih =>
    simp only [find?] at ih ⊢
    by_cases hy : key y = key x <;> by_cases hk : key x = k <;> grind [put]

end ShapeRules.Keyed
