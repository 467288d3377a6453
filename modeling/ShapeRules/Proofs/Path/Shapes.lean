import Mathlib
import ShapeRules.Proofs.Model.Loaded
import ShapeRules.Proofs.Path.Evaluation
import ShapeRules.Proofs.Path.Nodes
import ShapeRules.Proofs.Path.TraitNames

/-!
Enumeration and lookup on shapes. Each id that a shape enumerates of its traits finds the trait in
its place, and each member that it enumerates leads through the model to the member itself.
-/

namespace ShapeRules

namespace Path

variable {model : Model} {id : ShapeId} {shape : Shape}

theorem evaluate_call (h : model.find? id = some shape) (accessor : Accessor)
    (arguments : List String) (bound : Option Variables) :
    evaluate ⟨[.call accessor arguments]⟩ model (.shape id bound) =
      Segment.callShape id (some shape) bound accessor (arguments.head?.getD "") := by
  rw [← h]
  rfl

theorem evaluate_trait (h : model.find? id = some shape) (name : String)
    (bound : Option Variables) : evaluate ⟨[.call .trait [name]]⟩ model (.shape id bound) =
      .ofOption ((shape.resolveTrait? name).map .ofTrait) :=
  evaluate_call h .trait [name] bound

theorem evaluate_has (h : model.find? id = some shape) (name : String)
    (bound : Option Variables) : evaluate ⟨[.call .has [name]]⟩ model (.shape id bound) =
      .bool (shape.resolveTrait? name).isSome :=
  evaluate_call h .has [name] bound

end Path

namespace Value

/-- What paths enumerate of the traits of a shape, and what they find by the texts of the ids. -/
structure ListsTraits (model : Model) (root : Value) (texts : List String) (traits : List Value) :
    Prop where
  keys : Path.evaluate ⟨[.call .keys []]⟩ model root = .projection (texts.map .string)
  values : Path.evaluate ⟨[.call .values []]⟩ model root = .projection traits
  length_eq : texts.length = traits.length
  facet : Path.evaluate ⟨[.key "traits"]⟩ model root = .projection traits
  ids : Path.evaluate ⟨[.key "traits", .call .id []]⟩ model root =
    .projection (texts.map .string)
  found : ∀ (i : Nat) (text : String), texts[i]? = some text → ∃ trait, traits[i]? = some trait ∧
    Path.evaluate ⟨[.call .trait [text]]⟩ model root = trait
  has : ∀ text ∈ texts, Path.evaluate ⟨[.call .has [text]]⟩ model root = .bool true

/-- What paths enumerate of the members of a shape, and where the ids of the members lead. -/
structure ListsMembers (model : Model) (root : Value) (members : List Shape)
    (children : List Value) : Prop where
  facet : Path.evaluate ⟨[.key "members"]⟩ model root = .projection children
  wildcard : Path.evaluate ⟨[.wildcard]⟩ model root = .projection children
  length : Path.evaluate ⟨[.call .length []]⟩ model root = .string (toString children.length)
  length_eq : members.length = children.length
  found : ∀ (i : Nat) (member : Shape), members[i]? = some member →
    children[i]? = some (.ofShape member.id) ∧ model.find? member.id = some member
  name : ∀ member ∈ members, Path.evaluate ⟨[.key "member"]⟩ model (.ofShape member.id) =
    .string member.memberName
  member : ∀ member ∈ members,
    Path.evaluate ⟨[.call .member [member.memberName]]⟩ model root = .ofShape member.id

variable {model : Model} {id : ShapeId} {shape : Shape} (bound : Option Variables)

theorem listsTraits (h : model.find? id = some shape) (hids : shape.traitIds.Nodup) :
    ListsTraits model (.shape id bound) (shape.traitIds.map ShapeId.text)
      (shape.traits.map .ofTrait) := by
  have htraits : ofTraits shape = .projection (shape.traits.map .ofTrait) :=
    ofList_of_single (List.forall_mem_map.mpr fun _ _ => rfl)
  have htexts : ofList (shape.traitIds.map fun id => .string id.text) =
      .projection ((shape.traitIds.map ShapeId.text).map .string) := by
    rw [List.map_map]
    exact ofList_of_single (List.forall_mem_map.mpr fun _ _ => rfl)
  have hfacet : Segment.shapeKey model id "traits" = .projection (shape.traits.map .ofTrait) := by
    rw [← htraits]
    simp [Segment.shapeKey, h, Segment.declaredKey]
  have hresolve : ∀ applied ∈ shape.traits, shape.resolveTrait? applied.id.text = some applied :=
    fun applied happlied => Shape.resolveTrait?_text hids happlied
  refine ⟨?_, ?_, ?_, ?_, ?_, ?_, ?_⟩
  · rw [Path.evaluate_call h]
    exact htexts
  · rw [Path.evaluate_call h]
    exact htraits
  · simp [Shape.traitIds]
  · exact hfacet
  · change Segment.apply model (.call .id []) (Segment.shapeKey model id "traits") = _
    rw [hfacet, Segment.apply_projection, ← htexts, Shape.traitIds, List.map_map, List.map_map]
    rfl
  · intro i text htext
    rw [List.getElem?_map] at htext
    obtain ⟨_, hid, rfl⟩ := Option.map_eq_some_iff.mp htext
    rw [Shape.traitIds, List.getElem?_map] at hid
    obtain ⟨applied, hget, rfl⟩ := Option.map_eq_some_iff.mp hid
    refine ⟨.ofTrait applied, by rw [List.getElem?_map, hget]; rfl, ?_⟩
    rw [Path.evaluate_trait h, hresolve applied (List.mem_of_getElem? hget)]
    rfl
  · intro text htext
    obtain ⟨_, hid, rfl⟩ := List.mem_map.mp htext
    obtain ⟨applied, happlied, rfl⟩ := List.mem_map.mp hid
    rw [Path.evaluate_has h, hresolve applied happlied]
    rfl

theorem listsMembers (h : model.find? id = some shape) (hfinds : model.Finds id shape) :
    ListsMembers model (.shape id bound) shape.members
      (shape.members.map fun member => .ofShape member.id) := by
  have hmembers : ofMembers shape =
      .projection (shape.members.map fun member => .ofShape member.id) :=
    ofList_of_single (List.forall_mem_map.mpr fun _ _ => rfl)
  refine ⟨?_, ?_, ?_, by simp, ?_, ?_, ?_⟩
  · rw [← hmembers]
    change Segment.shapeKey model id "members" = _
    simp [Segment.shapeKey, h, Segment.declaredKey]
  · rw [← hmembers]
    change Segment.applyOne model .wildcard (.shape id bound) = _
    simp only [Segment.applyOne, h]
  · rw [Path.evaluate_call h, List.length_map]
    exact ofCount_eq shape.members.length
  · intro i member hmember
    rw [List.getElem?_map, hmember]
    exact ⟨rfl, hfinds.members member (List.mem_of_getElem? hmember)⟩
  · intro member hmember
    change Value.ofOption (member.id.member.map .string) = _
    rw [hfinds.named member hmember]
    rfl
  · intro member hmember
    have hfound : shape.findMember? member.memberName = some member :=
      Keyed.find?_of_mem hfinds.distinct hmember
    rw [Path.evaluate_call h]
    change Value.ofOption ((shape.findMember? member.memberName).map _) = _
    rw [hfound]
    rfl

end Value

namespace Path

open Fallible
open Value

/-- What paths enumerate of a shape of a loaded model is what they find: its traits under their ids
and its members under their names. -/
theorem shape_lookups_agree {text filename : String} {model : Model}
    (hload : Model.parse text filename = .ok model) {id : ShapeId} {shape : Shape}
    (h : model.find? id = some shape) (bound : Option Variables) :
    ListsTraits model (.shape id bound) (shape.traitIds.map ShapeId.text)
      (shape.traits.map .ofTrait) ∧
    ListsMembers model (.shape id bound) shape.members
      (shape.members.map fun member => .ofShape member.id) := by
  have hfinds := Model.finds_of_loaded (fun _ => Model.loaded_of_parse hload) h
  exact ⟨listsTraits bound h hfinds.traits, listsMembers bound h hfinds⟩

/-- A structure with traits of one name in two namespaces, one of them under two keys, and a member
with a trait whose id is that of a member. -/
def noteText : String :=
  "\x7b\"shapes\": \x7b\"a#Note\": \x7b\"type\": \"structure\",
    \"traits\": \x7b\"a#since\": \"1\", \"since\": \"2\", \"b#mark\": \"3\", \"c#mark\": \"4\",
      \"smithy.api#since\": \"5\"\x7d,
    \"members\": \x7b\"body\": \x7b\"target\": \"a#Body\",
      \"traits\": \x7b\"since$x\": null\x7d\x7d\x7d\x7d\x7d\x7d"

/-- What the text of the note declares of its member. -/
def bodyEntry : MemberEntry := ⟨"a#Body", [("since$x", .null)]⟩

/-- What the text of the note declares. -/
def noteEntry : ShapeEntry :=
  ⟨"structure", [("body", bodyEntry)], none, none, none,
    [("a#since", .string "1"), ("since", .string "2"), ("b#mark", .string "3"),
      ("c#mark", .string "4"), ("smithy.api#since", .string "5")]⟩

def noteId : ShapeId := ⟨"a", "Note", none, by decide, by decide, ShapeId.isIdentifier_of_mem_none⟩

def bodyId : ShapeId := ⟨"a", "Note", some "body", by decide, by decide, by decide⟩

def sinceId : ShapeId := .builtIn "since" (by decide)

def markId : ShapeId := ⟨"b", "mark", none, by decide, by decide, ShapeId.isIdentifier_of_mem_none⟩

/-- The member of the note as it is loaded. -/
def bodyShape : Shape :=
  let location : SourceLocation := ⟨"model.json", 0, 0⟩
  { id := bodyId, kind := .member, members := [], location
    target := some { noteId with name := "Body", name_valid := by decide }
    traits := [⟨{ sinceId with member := some "x", member_valid := by decide }, .null, location⟩] }

/-- The note as it is loaded. -/
def noteShape : Shape :=
  let location : SourceLocation := ⟨"model.json", 0, 0⟩
  { id := noteId, kind := .record, members := [bodyShape], target := none, location
    traits := [⟨{ noteId with name := "since", name_valid := by decide }, .string "1", location⟩,
      ⟨sinceId, .string "5", location⟩, ⟨markId, .string "3", location⟩,
      ⟨{ markId with nameSpace := "c", nameSpace_valid := by decide }, .string "4", location⟩] }

def noteModel : Model := ⟨[noteShape], List.nodup_singleton _⟩

theorem decode_noteText : Json.decodeText ModelDocument.decoder noteText =
    .ok ⟨[("a#Note", noteEntry)]⟩ := by cbv

theorem parse_noteText : Model.parse noteText "model.json" = .ok noteModel := by
  have hmodel : ModelDocument.toModel ⟨[("a#Note", noteEntry)]⟩ "model.json" =
      .ok noteModel := by with_unfolding_all rfl
  exact bind_eq_ok.mpr ⟨_, mapError_eq_ok.mpr decode_noteText, hmodel⟩

theorem shape_lookups_agree_note :
    Model.parse noteText "model.json" = .ok noteModel ∧ noteModel.find? noteId = some noteShape ∧
    evaluate ⟨[.call .keys []]⟩ noteModel (.ofShape noteId) =
      .projection [.string "a#since", .string "smithy.api#since", .string "b#mark",
        .string "c#mark"] ∧
    evaluate ⟨[.call .trait ["smithy.api#since"]]⟩ noteModel (.ofShape noteId) =
      .node (.string "5") (some sinceId) ∧
    evaluate ⟨[.wildcard]⟩ noteModel (.ofShape noteId) = .projection [.ofShape bodyId] ∧
    evaluate ⟨[.call .length []]⟩ noteModel (.ofShape noteId) = .string "1" := by
  have hshape : noteModel.find? noteId = some noteShape := rfl
  obtain ⟨htraits, hmembers⟩ := shape_lookups_agree parse_noteText hshape none
  obtain ⟨trait, htrait, hfound⟩ := htraits.found 1 "smithy.api#since" rfl
  cases htrait
  exact ⟨parse_noteText, hshape, htraits.keys, hfound, hmembers.wildcard, hmembers.length⟩

end Path

end ShapeRules
