import ShapeRules.Model
import ShapeRules.Proofs.Keyed

/-!
What is enumerated. Lookup gives enumerated shapes only, so the traits of all that it gives are
among the applied ones.
-/

namespace ShapeRules.Model

variable {model : Model} {shape : Shape} {id : ShapeId}

theorem mem_allShapes :
    shape ∈ model.allShapes ↔
      ∃ container ∈ model.shapes, shape = container ∨ shape ∈ container.members := by
  rw [allShapes, List.mem_flatMap]
  simp only [List.mem_cons]

theorem mem_allShapes_of_find? (h : model.find? id = some shape) : shape ∈ model.allShapes := by
  rw [find?] at h
  rw [mem_allShapes]
  split at h
  · exact ⟨shape, (Keyed.find?_eq_some h).1, .inl rfl⟩
  · split at h
    · cases h
    · rename_i container hcontainer
      exact ⟨container, (Keyed.find?_eq_some hcontainer).1, .inr (Keyed.find?_eq_some h).1⟩

theorem mem_appliedTraits :
    id ∈ model.appliedTraits ↔ ∃ shape ∈ model.allShapes, id ∈ shape.traitIds := by
  rw [appliedTraits, Keyed.mem_distinct, List.mem_flatMap]

theorem mem_appliedTraits_of_find? {applied : Trait} {trait : ShapeId}
    (hshape : model.find? id = some shape) (htrait : shape.findTrait? trait = some applied) :
    trait ∈ model.appliedTraits := by
  obtain ⟨hmem, rfl⟩ := Keyed.find?_eq_some htrait
  exact mem_appliedTraits.mpr
    ⟨shape, mem_allShapes_of_find? hshape, List.mem_map_of_mem hmem⟩

end ShapeRules.Model
