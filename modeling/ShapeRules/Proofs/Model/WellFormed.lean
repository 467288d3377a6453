import ShapeRules.Proofs.Model.Document
import ShapeRules.Proofs.Model.Enumeration

/-!
Well-formed models: in the nodes of their traits all objects have different keys. Every loaded model
is well formed.
-/

namespace ShapeRules

open Fallible

/-- The nodes of all traits are well formed. -/
def Model.WellFormed (model : Model) : Prop :=
  ∀ shape ∈ model.allShapes, ∀ applied ∈ shape.traits, applied.node.WellFormed

namespace ModelDocument

variable {table : List (String × Json)} {shape member : Shape} {entry : ShapeEntry}

/-- A shape has no other nodes than the table that its traits are taken from. -/
theorem wellFormed_applied {applied : List Trait} (htable : (Json.object table).WellFormed)
    (happlied : List.Forall₂ TraitOf table applied)
    (hshape : shape.traits = applied.foldl (fun known x => Keyed.put Trait.id x known) []) :
    ∀ trait ∈ shape.traits, trait.node.WellFormed := by
  intro trait htrait
  rw [hshape] at htrait
  -- A trait may have taken the place of another, but it stood in the table as well.
  have hmem := (Keyed.mem_foldl_put htrait).resolve_left List.not_mem_nil
  obtain ⟨declared, hdeclared, -, hnode⟩ := Aligned.exists_of_mem_right happlied hmem
  rw [hnode]
  exact (Json.wellFormed_object.mp htable).2 declared hdeclared

theorem wellFormed_shape {location : SourceLocation} {id : ShapeId} (hentry : entry.WellFormed)
    (h : ModelDocument.shape location id entry = .ok shape) :
    (∀ trait ∈ shape.traits, trait.node.WellFormed) ∧
      ∀ member ∈ shape.members, ∀ trait ∈ member.traits, trait.node.WellFormed := by
  rw [ModelDocument.shape] at h
  split at h
  · obtain ⟨start, hstart, h⟩ := bind_eq_ok.mp h
    obtain ⟨applied, happlied, rfl⟩ := applyTraits_applied hstart
    obtain ⟨members, hmembers, rfl⟩ := addMembers_declared h
    refine ⟨wellFormed_applied hentry.traits happlied rfl, fun member hmember => ?_⟩
    have hmem := (Keyed.mem_foldl_put hmember).resolve_left List.not_mem_nil
    obtain ⟨declared, hdeclared, hof⟩ := Aligned.exists_of_mem_right hmembers hmem
    obtain ⟨applied, happlied, htraits⟩ := hof.traits
    exact wellFormed_applied (hentry.declared _ _ (ShapeEntry.mem_allMembers.mp hdeclared))
      happlied htraits
  · cases h

end ModelDocument

theorem Model.wellFormed_of_parse {text filename : String} {model : Model}
    (h : Model.parse text filename = .ok model) : model.WellFormed := by
  obtain ⟨document, hdecode, hmodel⟩ := bind_eq_ok.mp h
  have hdocument := Json.decodeText_gives ModelDocument.decoder_gives (mapError_eq_ok.mp hdecode)
  intro shape hshape
  obtain ⟨container, hcontainer, hall⟩ := mem_allShapes.mp hshape
  obtain ⟨declared, hdeclared, id, -, hdeclares⟩ :=
    Aligned.exists_of_mem_right (ModelDocument.toModel_aligned hmodel) hcontainer
  obtain ⟨htraits, hmembers⟩ :=
    ModelDocument.wellFormed_shape (hdocument declared hdeclared) hdeclares
  rcases hall with rfl | hmember
  · exact htraits
  · exact hmembers shape hmember

end ShapeRules
