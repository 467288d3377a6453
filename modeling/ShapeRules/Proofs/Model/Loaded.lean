import ShapeRules.Model.Document
import ShapeRules.Proofs.Model.Building
import ShapeRules.Proofs.ShapeId

/-!
What loading makes of a document. A loaded shape stands for no other shape; its members do, and
their ids are its own id with names of their own. So an id leads to a shape whose members are all
found under their ids.
-/

namespace ShapeRules

open Fallible

/-- The shape is a member as the shape of an id declares it. -/
structure Shape.MemberOf (container : ShapeId) (member : Shape) : Prop where
  container_id : member.id.withoutMember = container.withoutMember
  named : ∃ name, member.id.member = some name
  targeted : member.target ≠ none
  leaf : member.members = []
  traits : member.traitIds.Nodup

/-- The shape is one that a document declares. -/
structure Shape.Loaded (shape : Shape) : Prop where
  untargeted : shape.target = none
  members : ∀ member ∈ shape.members, MemberOf shape.id member
  distinct : (shape.members.map memberName).Nodup
  traits : shape.traitIds.Nodup

theorem Shape.memberName_of_named {member : Shape} {name : String}
    (h : member.id.member = some name) : member.memberName = name := by
  rw [memberName, h, Option.getD_some]

theorem Shape.Loaded.putMember {shape member : Shape} (hshape : shape.Loaded)
    (hmember : MemberOf shape.id member) : (shape.putMember member).Loaded := by
  refine ⟨hshape.untargeted, ?_, Keyed.nodup_put member hshape.distinct, hshape.traits⟩
  intro other hother
  rcases Keyed.mem_put hother with rfl | hold
  · exact hmember
  · exact hshape.members other hold

namespace ModelDocument

theorem applyTraits_ok {shape applied : Shape} {traits : List (String × Json)}
    (h : applyTraits shape traits = .ok applied) :
    ∃ all, applied = { shape with traits := all } := by
  refine foldlM_preserves (P := fun applied => ∃ all, applied = { shape with traits := all })
    ?_ ?_ h
  · rintro _ ⟨name, node⟩ next ⟨all, rfl⟩ hstep
    rw [bind_eq_ok] at hstep
    obtain ⟨id, -, hnext⟩ := hstep
    cases hnext
    exact ⟨_, rfl⟩
  · cases shape
    exact ⟨_, rfl⟩

theorem nodup_applyTraits {shape applied : Shape} {traits : List (String × Json)}
    (h : applyTraits shape traits = .ok applied) (hshape : shape.traitIds.Nodup) :
    applied.traitIds.Nodup := by
  refine foldlM_preserves (P := fun applied : Shape => applied.traitIds.Nodup) ?_ hshape h
  rintro current ⟨name, node⟩ next hcurrent hstep
  obtain ⟨id, -, hnext⟩ := bind_eq_ok.mp hstep
  cases hnext
  exact Keyed.nodup_put _ hcurrent

theorem memberShape_ok {container : ShapeId} {location : SourceLocation} {name : String}
    {entry : MemberEntry} {member : Shape}
    (h : memberShape container location name entry = .ok member) :
    Shape.MemberOf container member := by
  rw [memberShape, bind_eq_ok] at h
  obtain ⟨id, hid, h⟩ := h
  rw [bind_eq_ok] at h
  obtain ⟨target, -, h⟩ := h
  rw [mapError_eq_ok] at hid
  obtain ⟨hcontainer, hname⟩ := ShapeId.withMember_ok hid
  have hnodup := nodup_applyTraits h List.nodup_nil
  obtain ⟨traits, rfl⟩ := applyTraits_ok h
  exact ⟨hcontainer, ⟨name, hname⟩, Option.some_ne_none target, rfl, hnodup⟩

theorem shape_ok {location : SourceLocation} {id : ShapeId} {entry : ShapeEntry}
    {declared : Shape} (h : shape location id entry = .ok declared) :
    declared.id = id ∧ declared.Loaded := by
  rw [shape] at h
  split at h
  · rename_i kind hkind
    rw [bind_eq_ok] at h
    obtain ⟨start, hstart, h⟩ := h
    have hnodup := nodup_applyTraits hstart List.nodup_nil
    obtain ⟨traits, rfl⟩ := applyTraits_ok hstart
    refine foldlM_preserves (P := fun declared => declared.id = id ∧ declared.Loaded) ?_ ?_ h
    · rintro current ⟨name, entry⟩ next ⟨rfl, hcurrent⟩ hstep
      rw [bind_eq_ok] at hstep
      obtain ⟨member, hmember, hnext⟩ := hstep
      cases hnext
      exact ⟨rfl, hcurrent.putMember (memberShape_ok hmember)⟩
    · exact ⟨rfl, rfl, by simp [Shape.bare], List.nodup_nil, hnodup⟩
  · cases h

end ModelDocument

theorem ModelDocument.toModel_ok {document : ModelDocument} {filename : String} {model : Model}
    (h : document.toModel filename = .ok model) {shape : Shape} (hshape : shape ∈ model.shapes) :
    shape.Loaded := by
  rw [toModel, bind_eq_ok] at h
  obtain ⟨shapes, hshapes, h⟩ := h
  rw [mapError_eq_ok] at h
  rw [Model.ofShapes_ok h] at hshape
  obtain ⟨⟨text, entry⟩, -, hdeclared⟩ := exists_of_mem_mapM hshapes hshape
  rw [bind_eq_ok] at hdeclared
  obtain ⟨id, -, hdeclared⟩ := hdeclared
  exact (shape_ok hdeclared).2

/-- Every shape of a loaded model is one that its document declares. -/
theorem Model.loaded_of_parse {text filename : String} {model : Model}
    (h : Model.parse text filename = .ok model) {shape : Shape} (hshape : shape ∈ model.shapes) :
    shape.Loaded := by
  rw [parse, bind_eq_ok] at h
  obtain ⟨document, -, hmodel⟩ := h
  exact document.toModel_ok hmodel hshape

/-- The id leads to the shape, and from there the ids of the members lead to the members. -/
structure Model.Finds (model : Model) (id : ShapeId) (shape : Shape) : Prop where
  id_eq : shape.id = id
  traits : shape.traitIds.Nodup
  distinct : (shape.members.map Shape.memberName).Nodup
  named : ∀ member ∈ shape.members, member.id.member = some member.memberName
  members : ∀ member ∈ shape.members, model.find? member.id = some member

theorem Model.finds_of_loaded {model : Model} (hloaded : ∀ shape ∈ model.shapes, shape.Loaded)
    {id : ShapeId} {shape : Shape} (h : model.find? id = some shape) : model.Finds id shape := by
  rw [find?] at h
  cases hid : id.member with
  | none =>
    rw [hid] at h
    dsimp only at h
    obtain ⟨hmem, rfl⟩ := Keyed.find?_eq_some h
    have hshape := hloaded shape hmem
    have hnamed : ∀ member ∈ shape.members, member.id.member = some member.memberName := by
      intro member hmember
      obtain ⟨name, hname⟩ := (hshape.members member hmember).named
      rw [Shape.memberName_of_named hname, hname]
    refine ⟨rfl, hshape.traits, hshape.distinct, hnamed, fun member hmember => ?_⟩
    rw [find?, hnamed member hmember, (hshape.members member hmember).container_id,
      ShapeId.withoutMember_of_none hid]
    dsimp only
    rw [h]
    exact Keyed.find?_of_mem hshape.distinct hmember
  | some name =>
    rw [hid] at h
    dsimp only at h
    split at h
    · cases h
    · rename_i container hcontainer
      obtain ⟨hmem, hkey⟩ := Keyed.find?_eq_some hcontainer
      obtain ⟨hmember, rfl⟩ := Keyed.find?_eq_some h
      obtain ⟨hinside, ⟨name, hname⟩, -, hleaf, htraits⟩ :=
        (hloaded container hmem).members shape hmember
      have hnone : container.id.withoutMember = container.id := by
        rw [hkey]
        exact ShapeId.withoutMember_of_none rfl
      have heq : shape.id = id := by
        refine ShapeId.eq_of_withoutMember (by rw [hinside, hnone, hkey]) ?_
        rw [hid, hname, Shape.memberName_of_named hname]
      -- A member has no members, so nothing is left to be found.
      exact ⟨heq, htraits, by simp [hleaf], by simp [hleaf], by simp [hleaf]⟩

end ShapeRules
