import ShapeRules.Proofs.Model.Translation
import ShapeRules.Selector

/-!
What marks a shape as a member: its kind, its id and its target. For loaded models the three agree
just when no shape that stands on its own is declared with the kind or the id of a member.
-/

namespace ShapeRules

open Fallible

/-- The kind, the id and the target of the shape all say that it is a member. -/
structure Shape.MarkedMember (shape : Shape) : Prop where
  kind : shape.kind = .member
  id : shape.id.isMember = true
  target : shape.target ≠ none

/-- None of them says that the shape is a member. -/
structure Shape.Unmarked (shape : Shape) : Prop where
  kind : shape.kind ≠ .member
  id : shape.id.isMember = false
  target : shape.target = none

namespace Model

/-- The members are just the shapes of their kind, the shapes with ids of members and the shapes
with targets. So selecting by kind keeps them apart from all other shapes. -/
structure MembersMarked (model : Model) : Prop where
  kind : ∀ shape ∈ model.allShapes, (shape.kind = .member ↔ shape.id.isMember = true)
  target : ∀ shape ∈ model.allShapes, (shape.id.isMember = true ↔ shape.target ≠ none)
  selected : KindSelector.select ⟨some .member⟩ model =
    (model.shapes.flatMap Shape.members).map fun member => ⟨member.id, []⟩
  others : ∀ kind ≠ .member, ∀ found ∈ KindSelector.select ⟨some kind⟩ model,
    ∀ container ∈ model.shapes, ∀ member ∈ container.members, found.shape ≠ member.id

variable {model : Model} {text filename : String} {shape container member : Shape}

theorem kind_of_member (h : Model.parse text filename = .ok model)
    (hcontainer : container ∈ model.shapes) (hmember : member ∈ container.members) :
    member.kind = .member := by
  obtain ⟨document, -, hmodel⟩ := bind_eq_ok.mp h
  obtain ⟨declared, -, hshape⟩ :=
    Aligned.exists_of_mem_right (ModelDocument.shapesAt_of_toModel hmodel) hcontainer
  obtain ⟨members, hmembers, hlatest⟩ := hshape.members
  rw [hlatest] at hmember
  obtain ⟨entry, -, hdeclared⟩ :=
    Aligned.exists_of_mem_right hmembers (Keyed.mem_latest hmember)
  exact hdeclared.kind

theorem markedMember_of_parse (h : Model.parse text filename = .ok model)
    (hcontainer : container ∈ model.shapes) (hmember : member ∈ container.members) :
    member.MarkedMember := by
  have hof := (loaded_of_parse h hcontainer).members member hmember
  obtain ⟨name, hname⟩ := hof.named
  refine ⟨kind_of_member h hcontainer hmember, ?_, hof.targeted⟩
  rw [ShapeId.isMember, hname, Option.isSome_some]

theorem unmarked_of_parse (h : Model.parse text filename = .ok model)
    (hshape : shape ∈ model.shapes) (hkind : shape.kind ≠ .member)
    (hid : shape.id.member = none) : shape.Unmarked :=
  ⟨hkind, by rw [ShapeId.isMember, hid, Option.isSome_none],
    (loaded_of_parse h hshape).untargeted⟩

/-- Shapes that are marked where they are members and nowhere else are told apart by their marks. -/
theorem membersMarked (hshapes : ∀ shape ∈ model.shapes, shape.Unmarked)
    (hmembers : ∀ container ∈ model.shapes, ∀ member ∈ container.members, member.MarkedMember) :
    model.MembersMarked := by
  have hmarks : ∀ shape ∈ model.allShapes, (shape.kind = .member ↔ shape.id.isMember = true) ∧
      (shape.id.isMember = true ↔ shape.target ≠ none) := by
    intro shape hshape
    obtain ⟨container, hcontainer, rfl | hmember⟩ := mem_allShapes.mp hshape
    · obtain ⟨hkind, hid, htarget⟩ := hshapes shape hcontainer
      simp [hkind, hid, htarget]
    · obtain ⟨hkind, hid, htarget⟩ := hmembers container hcontainer shape hmember
      simp [hkind, hid, htarget]
  refine ⟨fun shape hshape => (hmarks shape hshape).1, fun shape hshape => (hmarks shape hshape).2,
    ?_, ?_⟩
  · rw [KindSelector.select, allShapes, List.filter_flatMap]
    refine congrArg _ (List.flatMap_congr fun shape hshape => ?_)
    have hself : ¬ KindSelector.admits ⟨some .member⟩ shape = true := by
      simpa [KindSelector.admits] using (hshapes shape hshape).kind
    rw [List.filter_cons_of_neg hself, List.filter_eq_self]
    intro member hmember
    simpa [KindSelector.admits] using (hmembers shape hshape member hmember).kind
  · intro kind hkind found hfound container hcontainer member hmember hid
    obtain ⟨shape, hshape, rfl⟩ := List.mem_map.mp hfound
    obtain ⟨hshape, hadmits⟩ := List.mem_filter.mp hshape
    -- a shape with the id of a member has the kind of members, so no other selector admits it
    have hsame : shape.id = member.id := hid
    have hmarked : shape.kind = .member := by
      rw [(hmarks shape hshape).1, hsame]
      exact (hmembers container hcontainer member hmember).id
    rw [KindSelector.admits, hmarked] at hadmits
    exact hkind (of_decide_eq_true hadmits).symm

/-- In a loaded model the members are told by their kind, by their ids and by their targets just
when no shape outside of others has the kind or the id of a member. -/
theorem members_marked_iff (hload : Model.parse text filename = .ok model) :
    model.MembersMarked ↔
      ∀ shape ∈ model.shapes, shape.kind ≠ .member ∧ shape.id.member = none := by
  constructor
  · intro hmarked shape hshape
    have hall : shape ∈ model.allShapes := mem_allShapes.mpr ⟨shape, hshape, .inl rfl⟩
    have hid : ¬ shape.id.isMember = true := by
      rw [hmarked.target shape hall, (loaded_of_parse hload hshape).untargeted]
      simp
    refine ⟨mt (hmarked.kind shape hall).mp hid, ?_⟩
    simpa [ShapeId.isMember] using hid
  · intro hplain
    refine membersMarked (fun shape hshape => ?_) fun container hcontainer member hmember =>
      markedMember_of_parse hload hcontainer hmember
    exact unmarked_of_parse hload hshape (hplain shape hshape).1 (hplain shape hshape).2

/-- A structure with a member. -/
def pairText : String :=
  "\x7b\"shapes\": \x7b\"a#P\": \x7b\"type\": \"structure\",
    \"members\": \x7b\"left\": \x7b\"target\": \"a#S\"\x7d\x7d\x7d\x7d\x7d"

theorem members_marked_iff_pair : ∃ model,
    Model.parse pairText "model.json" = .ok model ∧
    model.allShapes.map (fun shape => (shape.id.text, shape.kind)) =
      [("a#P", .record), ("a#P$left", .member)] ∧
    model.MembersMarked := by
  obtain ⟨model, hload, hmodel⟩ :=
    exists_of_toOption_any (x := Model.parse pairText "model.json")
      (p := fun model =>
        model.allShapes.map (fun shape => (shape.id.text, shape.kind)) =
          [("a#P", .record), ("a#P$left", .member)] ∧
        ∀ shape ∈ model.shapes, shape.kind ≠ .member ∧ shape.id.member = none)
      (by cbv)
  obtain ⟨hshapes, hplain⟩ := of_decide_eq_true hmodel
  exact ⟨model, hload, hshapes, (members_marked_iff hload).mpr hplain⟩

/-- A shape of the kind of members, and a string under the id of a member. -/
def strayText : String :=
  "\x7b\"shapes\": \x7b\"a#S\": \x7b\"type\": \"member\"\x7d,
    \"a#T$m\": \x7b\"type\": \"string\"\x7d\x7d\x7d"

/-- Neither of the two shapes has a target, but the one is selected as a member and the other has
the id of one. -/
theorem members_unmarked_of_stray : ∃ model,
    Model.parse strayText "model.json" = .ok model ∧
    (∃ shape ∈ model.allShapes, shape.kind = .member ∧ shape.id.isMember = false ∧
      shape.target = none) ∧
    (∃ shape ∈ model.allShapes, shape.kind = .string ∧ shape.id.isMember = true ∧
      shape.target = none) ∧
    (KindSelector.select ⟨some .member⟩ model).map (fun found => found.shape.text) = ["a#S"] ∧
    ¬ model.MembersMarked := by
  obtain ⟨model, hload, hmodel⟩ :=
    exists_of_toOption_any (x := Model.parse strayText "model.json")
      (p := fun model =>
        (∃ shape ∈ model.allShapes, shape.kind = .member ∧ shape.id.isMember = false ∧
          shape.target = none) ∧
        (∃ shape ∈ model.allShapes, shape.kind = .string ∧ shape.id.isMember = true ∧
          shape.target = none) ∧
        (KindSelector.select ⟨some .member⟩ model).map (fun found => found.shape.text) = ["a#S"])
      (by cbv)
  obtain ⟨hkind, hid, hselected⟩ := of_decide_eq_true hmodel
  refine ⟨model, hload, hkind, hid, hselected, fun hmarked => ?_⟩
  obtain ⟨shape, hshape, hmember, hplain, -⟩ := hkind
  rw [(hmarked.kind shape hshape).mp hmember] at hplain
  cases hplain

end Model

end ShapeRules
