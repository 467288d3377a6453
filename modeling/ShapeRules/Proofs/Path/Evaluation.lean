import Mathlib.Algebra.GroupWithZero.Nat
import ShapeRules.Proofs.Path.Results

/-!
Evaluation and projections. A path on a projection gives the joined results of the path on each
element, although evaluation flattens after every segment.
-/

namespace ShapeRules

open Value

/-- Whatever results are made of, they are flat. -/
theorem Value.closed_flat : Closed Flat fun _ => True where
  absent := flat_absent
  bool _ := flat_single rfl
  string _ := flat_single rfl
  ofShape _ := flat_single rfl
  node _ _ := flat_single rfl
  ofList _ := flat_ofList _
  items _ _ _ := trivial
  fields _ _ _ := trivial

variable (model : Model)

namespace Segment

theorem apply_projection (segment : Segment) (values : List Value) :
    segment.apply model (.projection values) = .ofList (values.map (segment.apply model)) := by
  have hall : applyAll model segment values = values.map (segment.apply model) := by
    induction values with
    | nil => rfl
    | cons value values ih => rw [applyAll, ih, List.map_cons]
  rw [apply, hall]

@[simp] theorem apply_absent (segment : Segment) : segment.apply model .absent = .absent := by
  cases segment with
  | call accessor arguments => cases accessor <;> rfl
  | _ => rfl

theorem flat_applyOne (segment : Segment) (value : Value) :
    (segment.applyOne model value).Flat :=
  closed_flat.applyOne (fun _ _ _ _ => trivial) segment fun _ _ _ => trivial

/-- A segment gives a flat value, whatever it is applied to. -/
theorem flat_apply (segment : Segment) (value : Value) : (segment.apply model value).Flat := by
  cases value with
  | projection values =>
    rw [apply_projection]
    exact flat_ofList _
  | _ => exact flat_applyOne model segment _

end Segment

namespace Path

theorem evaluate_cons (segment : Segment) (segments : List Segment) (value : Value) :
    evaluate ⟨segment :: segments⟩ model value =
      evaluate ⟨segments⟩ model (segment.apply model value) :=
  rfl

@[simp] theorem evaluate_absent (path : Path) : path.evaluate model .absent = .absent := by
  obtain ⟨segments⟩ := path
  induction segments with
  | nil => rfl
  | cons segment segments ih => rw [evaluate_cons, Segment.apply_absent, ih]

/-- What holds of all that segments give holds of all that paths of at least one segment give. -/
theorem evaluate_of_apply {P : Value → Prop}
    (hP : ∀ (segment : Segment) (value : Value), P (segment.apply model value)) {path : Path}
    (hpath : path.segments ≠ []) (start : Value) : P (path.evaluate model start) := by
  obtain ⟨segments⟩ := path
  obtain ⟨first, others, rfl⟩ := List.exists_cons_of_ne_nil hpath
  induction others generalizing first start with
  | nil => exact hP first start
  | cons next others ih =>
    rw [evaluate_cons]
    exact ih (first.apply model start) next (List.cons_ne_nil _ _)

theorem flat_evaluate (segment : Segment) (segments : List Segment) (value : Value) :
    (evaluate ⟨segment :: segments⟩ model value).Flat :=
  evaluate_of_apply model (Segment.flat_apply model) (List.cons_ne_nil _ _) value

/-- Whatever values a projection is made of, it holds neither absent values nor projections, and
neither does a projection that a path gives, wherever the path starts. -/
theorem projections_stay_flat (model : Model) :
    (∀ values, ∃ elements, ofList values = .projection elements ∧
      ∀ element ∈ elements, element ≠ .absent ∧ ∀ nested, element ≠ .projection nested) ∧
    ∀ path : Path, path.segments ≠ [] → ∀ start elements,
      path.evaluate model start = .projection elements →
        ∀ element ∈ elements, element ≠ .absent ∧ ∀ nested, element ≠ .projection nested := by
  constructor
  · intro values
    refine ⟨allParts values, rfl, fun element helement => ?_⟩
    exact isSingle_iff.mp (flat_ofList values _ rfl element helement)
  · intro path hpath start elements hvalue element helement
    have hflat : (path.evaluate model start).Flat :=
      evaluate_of_apply model (Segment.flat_apply model) hpath start
    exact isSingle_iff.mp (hflat elements hvalue element helement)

/-- The path starts at a projection that is not flat. -/
theorem projections_stay_flat_nested :
    let path : Path := ⟨[.key "a", .wildcard]⟩
    let node : Value := .ofNode (.object [("a", .array [.null, .string "x"])])
    let start : Value := .projection [.absent, .projection [.projection [node], .absent], node]
    let elements : List Value := [.null, .string "x", .null, .string "x"].map .ofNode
    path.segments ≠ [] ∧ path.evaluate .empty start = .projection elements ∧
      ∀ element ∈ elements, element ≠ .absent ∧ ∀ nested, element ≠ .projection nested := by
  intro path node start elements
  have hpath : path.segments ≠ [] := List.cons_ne_nil _ _
  have hvalue : path.evaluate .empty start = .projection elements := rfl
  exact ⟨hpath, hvalue, (projections_stay_flat .empty).2 path hpath start elements hvalue⟩

/-- What the first segment gives is flattened before the others are applied to it, which makes no
difference to them. -/
theorem evaluate_ofList (segment : Segment) (segments : List Segment) (values : List Value) :
    evaluate ⟨segment :: segments⟩ model (.projection values) =
      .ofList (values.map (evaluate ⟨segment :: segments⟩ model)) := by
  induction segments generalizing segment values with
  | nil => exact Segment.apply_projection model segment values
  | cons next segments ih =>
    have hspreads : Spreads (evaluate ⟨next :: segments⟩ model) := by
      refine ⟨?_, ?_⟩
      · rw [evaluate_absent, parts]
      · intro others
        rw [ih]
        exact (flat_ofList _).parts_eq
    rw [evaluate_cons, Segment.apply_projection, ofList, ih, ofList, hspreads.allParts_map,
      List.map_map]
    rfl

/-- On a projection a path gives the projection of what it gives on each element. These are the
results on each element, in order and with duplicates, and their number is the sum of the numbers of
results. -/
theorem evaluate_projection (model : Model) {path : Path} (hpath : path.segments ≠ [])
    (values : List Value) :
    path.evaluate model (.projection values) = .ofList (values.map (path.evaluate model)) ∧
    path.evaluate model (.projection values) =
      .projection (values.flatMap fun value => (path.evaluate model value).elements) ∧
    (path.evaluate model (.projection values)).count =
      (values.map fun value => (path.evaluate model value).count).sum := by
  obtain ⟨segments⟩ := path
  obtain ⟨segment, segments, rfl⟩ := List.exists_cons_of_ne_nil hpath
  have hlist := evaluate_ofList model segment segments values
  have helements : evaluate ⟨segment :: segments⟩ model (.projection values) = .projection
      (values.flatMap fun value => (evaluate ⟨segment :: segments⟩ model value).elements) := by
    rw [hlist, ofList, allParts_eq_flatMap, List.flatMap_map]
    congr 1
    apply List.flatMap_congr
    intro value _
    exact (flat_evaluate model segment segments value).parts_eq
  refine ⟨hlist, helements, ?_⟩
  rw [helements, count, List.length_flatMap]
  simp only [count_eq_length]

/-- The children of two objects, one of them in a projection of a projection. -/
theorem evaluate_projection_nested :
    let path : Path := ⟨[.key "a", .wildcard]⟩
    let first : Value := .ofNode (.object [("a", .array [.string "x", .string "y"])])
    let second : Value := .ofNode (.object [("a", .object [("b", .string "x")])])
    let values : List Value := [first, .absent, .projection [.projection [second], .bool true]]
    path.segments ≠ [] ∧
      path.evaluate .empty (.projection values) = .ofList (values.map (path.evaluate .empty)) ∧
      path.evaluate .empty (.projection values) =
        .projection ([.string "x", .string "y", .string "x"].map ofNode) ∧
      (path.evaluate .empty (.projection values)).count = 2 + 0 + 1 := by
  intro path first second values
  have hpath : path.segments ≠ [] := List.cons_ne_nil _ _
  obtain ⟨hlist, helements, hcount⟩ := evaluate_projection .empty hpath values
  exact ⟨hpath, hlist, helements.trans rfl, hcount.trans rfl⟩

end Path

end ShapeRules
