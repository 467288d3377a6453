import Mathlib
import ShapeRules.Proofs.Model.Demands
import ShapeRules.Proofs.Model.Document

/-!
Loading as a translation. A document is loaded just when all its demands are met, and then every
declaration becomes a trait, a member or a shape in its place. Otherwise the first demand that is
not met is reported.
-/

namespace ShapeRules

open Fallible

namespace ModelDocument

/-- The trait is the one that a table declares under a key, at the location. -/
structure TraitAt (location : SourceLocation) (declared : String × Json) (applied : Trait) :
    Prop where
  id : applied.id.text = ShapeId.absolute ShapeId.prelude declared.1
  node : applied.node = declared.2
  location_eq : applied.location = location

/-- The traits are the ones that a table declares in its order. Where it declares two of one id, the
later one stands in the place of the earlier. -/
def TraitsAt (location : SourceLocation) (table : List (String × Json)) (traits : List Trait) :
    Prop :=
  ∃ declared, List.Forall₂ (TraitAt location) table declared ∧
    traits = Keyed.latest Trait.id declared

/-- The shape is the member that is declared under a name for the container. Its id is that of the
container with the name behind it, and without a member's name that the container may have. -/
structure MemberAt (location : SourceLocation) (container : ShapeId)
    (declared : String × MemberEntry) (member : Shape) : Prop where
  id : member.id.text = container.withoutMember.text ++ "$" ++ declared.1
  name : member.memberName = declared.1
  kind : member.kind = .member
  target : ∃ target, member.target = some target ∧ target.text = declared.2.target
  traits : TraitsAt location declared.2.traits member.traits
  members : member.members = []
  location_eq : member.location = location

/-- The shape is the one that is declared under a key. Of its members the later of two of one name
stands in the place of the earlier. -/
structure ShapeAt (location : SourceLocation) (declared : String × ShapeEntry) (shape : Shape) :
    Prop where
  id : shape.id.text = declared.1
  kind : shape.kind.name = declared.2.kind
  target : shape.target = none
  traits : TraitsAt location declared.2.traits shape.traits
  members : ∃ members,
    List.Forall₂ (MemberAt location shape.id) declared.2.declarations members ∧
      shape.members = Keyed.latest Shape.memberName members
  location_eq : shape.location = location

theorem traitsAt_of_applyTraits {shape next : Shape} {table : List (String × Json)}
    (h : applyTraits shape table = .ok next) (hnone : shape.traits = []) :
    ∃ traits, TraitsAt shape.location table traits ∧ next = { shape with traits } := by
  obtain ⟨applied, happlied, rfl⟩ := applyTraits_located h
  refine ⟨_, ⟨applied, happlied.imp ?_, Keyed.foldl_put_eq_latest⟩, by rw [hnone]⟩
  rintro declared trait ⟨⟨hid, hnode⟩, hlocation⟩
  exact ⟨ShapeId.parseRelative_eq_ok_iff.mp hid, hnode, hlocation⟩

theorem memberAt_of_memberShape {location : SourceLocation} {container : ShapeId}
    {declared : String × MemberEntry} {member : Shape}
    (h : memberShape container location declared.1 declared.2 = .ok member) :
    MemberAt location container declared member := by
  obtain ⟨id, hid, h⟩ := bind_eq_ok.mp h
  obtain ⟨target, htarget, h⟩ := bind_eq_ok.mp h
  obtain ⟨traits, htraits, rfl⟩ := traitsAt_of_applyTraits h rfl
  have hmember := mapError_eq_ok.mp hid
  exact {
    id := ShapeId.text_of_withMember hmember
    name := Shape.memberName_of_named (ShapeId.withMember_ok hmember).2
    kind := rfl
    target := ⟨target, rfl, ShapeId.text_of_parse (mapError_eq_ok.mp htarget)⟩
    traits := htraits
    members := rfl
    location_eq := rfl }

theorem shapeAt_of_shape {location : SourceLocation} {id : ShapeId}
    {declared : String × ShapeEntry} {shape : Shape} (hid : ShapeId.parse declared.1 = .ok id)
    (h : ModelDocument.shape location id declared.2 = .ok shape) :
    ShapeAt location declared shape := by
  rw [ModelDocument.shape] at h
  split at h
  · rename_i kind hkind
    obtain ⟨start, hstart, h⟩ := bind_eq_ok.mp h
    obtain ⟨traits, htraits, rfl⟩ := traitsAt_of_applyTraits hstart rfl
    obtain ⟨members, hmembers, rfl⟩ := addMembers_built h
    rw [ShapeEntry.allMembers_eq] at hmembers
    exact {
      id := ShapeId.text_of_parse hid
      kind := Kind.name_of_ofName? hkind
      target := rfl
      traits := htraits
      members := ⟨members, hmembers.imp fun _ _ => memberAt_of_memberShape,
        Keyed.foldl_put_eq_latest⟩
      location_eq := rfl }
  · cases h

theorem shapesAt_of_toModel {document : ModelDocument} {filename : String} {model : Model}
    (h : document.toModel filename = .ok model) :
    List.Forall₂ (ShapeAt ⟨filename, 0, 0⟩) document.shapes model.shapes := by
  refine (toModel_aligned h).imp ?_
  rintro declared shape ⟨id, hid, hshape⟩
  exact shapeAt_of_shape hid hshape

end ModelDocument

namespace Model

open ModelDocument

/-- A decoded document is loaded exactly if its demands are met: each key of a shape and each target
is an absolute id, each kind is known, each name of a member is an identifier and each key of a
trait stands for an id. The first demand that is not met is reported. The shapes of the model are
those of the document in their order, with all of their declarations, located at the file. -/
theorem documents_translated {text : String} {document : ModelDocument}
    (hdecode : Json.decodeText ModelDocument.decoder text = .ok document) (filename : String) :
    ((∃ model, Model.parse text filename = .ok model) ↔
      ∀ demand ∈ document.demands, demand.Met) ∧
    (∀ error, Model.parse text filename = .error error ↔
      Demand.FirstUnmet document.demands error) ∧
    ∀ model, Model.parse text filename = .ok model →
      List.Forall₂ (ShapeAt ⟨filename, 0, 0⟩) document.shapes model.shapes := by
  have hparse : Model.parse text filename = document.toModel filename := by
    rw [Model.parse, hdecode]
    rfl
  have hkeys := (Json.decodeText_gives decoder_gives_wellFormed hdecode).keys
  have hgovern := govern_toModel hkeys filename
  rw [hparse]
  exact ⟨hgovern.ok_iff, fun error => hgovern.error_iff, fun model => shapesAt_of_toModel⟩

/-- A string with a trait whose key stands for no id, before a shape under no id. -/
def faultyText : String :=
  "\x7b\"shapes\": \x7b\"a#S\": \x7b\"type\": \"string\",
    \"traits\": \x7b\"since\": \"1\", \"#x\": null\x7d\x7d,
    \"b\": \x7b\"type\": \"gadget\"\x7d\x7d\x7d"

/-- What the faulty text declares. -/
def faulty : ModelDocument :=
  ⟨[("a#S", ⟨"string", [], none, none, none, [("since", .string "1"), ("#x", .null)]⟩),
    ("b", ⟨"gadget", [], none, none, none, []⟩)]⟩

/-- Of three demands that are not met the first is reported. -/
theorem documents_translated_faulty :
    Json.decodeText ModelDocument.decoder faultyText = .ok faulty ∧
    Model.parse faultyText "model.json" = .error (.invalidShapeId ⟨"#x"⟩) := by
  have hdecode : Json.decodeText ModelDocument.decoder faultyText = .ok faulty := by cbv
  refine ⟨hdecode, ((documents_translated hdecode "model.json").2.1 _).mpr ?_⟩
  have hdemands : faulty.demands =
      [.shapeId "a#S", .kind "string", .traitId "since", .traitId "#x", .shapeId "b",
        .kind "gadget"] := rfl
  rw [hdemands]
  have hid : ShapeId.Spells "a#S" :=
    ShapeId.exists_text_iff.mp ⟨⟨"a", "S", none, by decide, by decide, by simp⟩, rfl⟩
  have hsince : ShapeId.Spells "smithy.api#since" :=
    ShapeId.exists_text_iff.mp ⟨⟨"smithy.api", "since", none, by decide, by decide, by simp⟩, rfl⟩
  have hparse : ShapeId.parse "#x" = .error ⟨"#x"⟩ := by with_unfolding_all rfl
  have hunmet : ¬ ShapeId.Spells "#x" := (ShapeId.parse_eq_error_iff.mp hparse).1
  exact .later hid (.later ⟨.string, rfl⟩ (.later hsince (.here hunmet)))

end Model

end ShapeRules
