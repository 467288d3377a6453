import Mathlib.Data.List.Basic
import ShapeRules.Value

/-!
What values add to projections. Projections hold single values only, and a map that leaves out
absent values and goes into projections gives the same elements before flattening and after it.
-/

namespace ShapeRules.Value

/-- Neither absent nor a projection. -/
def isSingle : Value → Bool
  | .absent => false
  | .projection _ => false
  | _ => true

theorem isSingle_iff {value : Value} :
    value.isSingle = true ↔ value ≠ .absent ∧ ∀ values, value ≠ .projection values := by
  cases value <;> simp [isSingle]

/-- The value is no projection, or one of single values. -/
def Flat (value : Value) : Prop :=
  ∀ values, value = .projection values → ∀ element ∈ values, element.isSingle = true

/-- The results that a value stands for: none, those of a projection, or the value itself. -/
def elements : Value → List Value
  | .absent => []
  | .projection values => values
  | value => [value]

/-- The number of results that a value stands for. -/
def count : Value → Nat
  | .absent => 0
  | .projection values => values.length
  | _ => 1

/-- Induction over the elements of projections. -/
theorem nested_induction {motive : Value → Prop} (absent : motive .absent)
    (single : ∀ value, value.isSingle = true → motive value)
    (projection : ∀ values, (∀ value ∈ values, motive value) → motive (.projection values)) :
    ∀ value, motive value
  | .absent => absent
  | .bool b => single (.bool b) rfl
  | .string s => single (.string s) rfl
  | .shape id bound => single (.shape id bound) rfl
  | .node json trait => single (.node json trait) rfl
  | .projection values =>
    projection values fun value hvalue =>
      have : sizeOf value < sizeOf values := List.sizeOf_lt_of_mem hvalue
      nested_induction absent single projection value
termination_by value => sizeOf value

theorem parts_single {value : Value} (h : value.isSingle = true) : value.parts = [value] := by
  cases value with
  | absent => cases h
  | projection values => cases h
  | _ => rfl

theorem allParts_eq_flatMap (values : List Value) : allParts values = values.flatMap parts := by
  induction values with
  | nil => rfl
  | cons value values ih => rw [allParts, ih, List.flatMap_cons]

theorem isSingle_of_mem_parts {value element : Value} (h : element ∈ value.parts) :
    element.isSingle = true := by
  induction value using nested_induction with
  | absent => cases h
  | single value hvalue =>
    rw [parts_single hvalue] at h
    rw [List.mem_singleton.mp h]
    exact hvalue
  | projection values ih =>
    rw [parts, allParts_eq_flatMap] at h
    obtain ⟨value, hvalue, helement⟩ := List.mem_flatMap.mp h
    exact ih value hvalue helement

/-- What holds of a value and of all elements of a projection holds of what it adds to one. -/
theorem forall_mem_parts {P : Value → Prop}
    (hP : ∀ values, P (.projection values) → ∀ element ∈ values, P element) {value : Value}
    (h : P value) : ∀ element ∈ value.parts, P element := by
  induction value using nested_induction with
  | absent => exact fun _ helement => absurd helement List.not_mem_nil
  | single value hvalue =>
    rw [parts_single hvalue]
    exact List.forall_mem_singleton.mpr h
  | projection values ih =>
    intro element helement
    rw [parts, allParts_eq_flatMap] at helement
    obtain ⟨value, hvalue, hpart⟩ := List.mem_flatMap.mp helement
    exact ih value hvalue (hP values h value hvalue) element hpart

theorem forall_mem_allParts {P : Value → Prop}
    (hP : ∀ values, P (.projection values) → ∀ element ∈ values, P element) {values : List Value}
    (h : ∀ value ∈ values, P value) : ∀ element ∈ allParts values, P element := by
  intro element helement
  rw [allParts_eq_flatMap] at helement
  obtain ⟨value, hvalue, hpart⟩ := List.mem_flatMap.mp helement
  exact forall_mem_parts hP (h value hvalue) element hpart

theorem flat_single {value : Value} (h : value.isSingle = true) : value.Flat := by
  rintro values rfl
  cases h

theorem flat_absent : Flat .absent := by
  intro values h
  cases h

theorem flat_ofList (values : List Value) : (ofList values).Flat := by
  intro _ hvalues element helement
  cases hvalues
  rw [allParts_eq_flatMap] at helement
  obtain ⟨value, -, hpart⟩ := List.mem_flatMap.mp helement
  exact isSingle_of_mem_parts hpart

/-- A flat value adds to a projection what it stands for. -/
theorem Flat.parts_eq {value : Value} (h : value.Flat) : value.parts = value.elements := by
  cases value with
  | projection values =>
    have hsingle : ∀ element ∈ values, element.parts = [element] :=
      fun element helement => parts_single (h values rfl element helement)
    rw [parts, allParts_eq_flatMap, List.flatMap_congr hsingle, List.flatMap_singleton']
    rfl
  | _ => rfl

theorem ofList_of_single {values : List Value} (h : ∀ value ∈ values, value.isSingle = true) :
    ofList values = .projection values := by
  have hflat : Flat (.projection values) := by
    rintro _ ⟨⟩
    exact h
  exact congrArg Value.projection hflat.parts_eq

theorem count_eq_length (value : Value) : value.count = value.elements.length := by
  cases value <;> rfl

/-- The map leaves out absent values and maps the elements of a projection. -/
structure Spreads (f : Value → Value) : Prop where
  absent : (f .absent).parts = []
  projection : ∀ values, (f (.projection values)).parts = allParts (values.map f)

variable {f : Value → Value}

theorem Spreads.parts_map (hf : Spreads f) (value : Value) :
    (f value).parts = allParts (value.parts.map f) := by
  induction value using nested_induction with
  | absent => exact hf.absent
  | single value hvalue =>
    rw [parts_single hvalue, List.map_singleton, allParts, allParts, List.append_nil]
  | projection values ih =>
    have hmap (others : List Value) :
        allParts (others.map f) = others.flatMap fun value => (f value).parts := by
      rw [allParts_eq_flatMap, List.flatMap_map]
    rw [hf.projection, parts, hmap, hmap, allParts_eq_flatMap, List.flatMap_assoc]
    apply List.flatMap_congr
    intro value hvalue
    rw [ih value hvalue, hmap]

/-- Flattening first makes no difference to such a map. -/
theorem Spreads.allParts_map (hf : Spreads f) (values : List Value) :
    allParts ((allParts values).map f) = allParts (values.map f) := by
  induction values with
  | nil => rfl
  | cons value values ih =>
    have happend (front behind : List Value) :
        allParts (front ++ behind) = allParts front ++ allParts behind := by
      rw [allParts_eq_flatMap, allParts_eq_flatMap, allParts_eq_flatMap, List.flatMap_append]
    rw [allParts, List.map_append, happend, ih, List.map_cons, allParts, hf.parts_map]

end ShapeRules.Value
