import Mathlib
import ShapeRules.Proofs.Model.Loaded
import ShapeRules.Proofs.Validator

/-!
Enumeration and lookup. The shapes of a loaded model are the ones that their ids find, with the
exception of shapes that are declared under the id of a member: lookup goes through a container
for these and never arrives at them.
-/

namespace ShapeRules

/-- The event of a validator at a shape that a selector by kind found. -/
def Validator.report (validator : Validator) (model : Model) (shape : Shape) : Event :=
  ⟨validator.id, validator.severity, some shape.id, shape.location,
    validator.message model ⟨shape.id, []⟩⟩

namespace Model

/-- Lookup gives what enumeration goes through, and so no match of a selector by kind gets lost. -/
structure Consistent (model : Model) : Prop where
  distinct : (model.allShapes.map Shape.id).Nodup
  found : ∀ shape ∈ model.allShapes, model.find? shape.id = some shape
  selected : ∀ selector : KindSelector, ∀ found ∈ selector.select model,
    model.contains found.shape = true
  reported : ∀ (validator : Validator) (selector : KindSelector),
    validator.selection = selector.selection → validator.binding = none →
      validator.validate model =
        (model.allShapes.filter selector.admits).map (validator.report model)

/-- All shapes are declared as documents declare them, and under ids that are no members'. -/
structure Standalone (model : Model) : Prop where
  loaded : ∀ shape ∈ model.shapes, shape.Loaded
  named : ∀ shape ∈ model.shapes, shape.id.member = none

variable {model : Model} {shape member : Shape}

private theorem find?_container (hmodel : model.Standalone) (hshape : shape ∈ model.shapes) :
    model.find? shape.id = some shape := by
  rw [find?, hmodel.named shape hshape]
  exact Keyed.find?_of_mem model.distinct hshape

private theorem find?_of_mem_allShapes (hmodel : model.Standalone)
    (hshape : shape ∈ model.allShapes) : model.find? shape.id = some shape := by
  obtain ⟨container, hcontainer, rfl | hmember⟩ := mem_allShapes.mp hshape
  · exact find?_container hmodel hcontainer
  · exact (finds_of_loaded hmodel.loaded (find?_container hmodel hcontainer)).members shape hmember

/-- Without its member, every id in the block of a shape is the one of the shape. -/
private theorem withoutMember_of_mem_block (hmodel : model.Standalone)
    (hshape : shape ∈ model.shapes) {id : ShapeId}
    (hid : id ∈ (shape :: shape.members).map Shape.id) : id.withoutMember = shape.id := by
  have hself := ShapeId.withoutMember_of_none (hmodel.named shape hshape)
  rw [List.map_cons, List.mem_cons, List.mem_map] at hid
  rcases hid with rfl | ⟨member, hmember, rfl⟩
  · exact hself
  · rw [((hmodel.loaded shape hshape).members member hmember).container_id, hself]

private theorem nodup_block (hmodel : model.Standalone) (hshape : shape ∈ model.shapes) :
    ((shape :: shape.members).map Shape.id).Nodup := by
  have hloaded := hmodel.loaded shape hshape
  rw [List.map_cons, List.nodup_cons]
  constructor
  · intro hmem
    obtain ⟨member, hmember, hid⟩ := List.mem_map.mp hmem
    obtain ⟨name, hname⟩ := (hloaded.members member hmember).named
    rw [hid, hmodel.named shape hshape] at hname
    cases hname
  · -- members of one id would have one name
    have hnames : ((shape.members.map Shape.id).map fun id => id.member.getD id.name).Nodup := by
      rw [List.map_map]
      exact hloaded.distinct
    exact hnames.of_map _

private theorem nodup_allShapes (hmodel : model.Standalone) :
    (model.allShapes.map Shape.id).Nodup := by
  rw [allShapes, List.map_flatMap, List.nodup_flatMap]
  constructor
  · intro shape hshape
    exact nodup_block hmodel hshape
  · have hids : model.shapes.Pairwise fun a b => a.id ≠ b.id := List.pairwise_map.mp model.distinct
    refine hids.imp_of_mem ?_
    intro a b ha hb hne id hida hidb
    apply hne
    rw [← withoutMember_of_mem_block hmodel ha hida, withoutMember_of_mem_block hmodel hb hidb]

private theorem event?_eq_report {validator : Validator}
    (hfound : model.find? shape.id = some shape) (hbinding : validator.binding = none) :
    validator.event? model ⟨shape.id, []⟩ = some (validator.report model shape) := by
  rw [Validator.event?, hfound, Option.bind_eq_bind, Option.bind_some, Validator.location?,
    hbinding]
  rfl

theorem Standalone.consistent (hmodel : model.Standalone) : model.Consistent where
  distinct := nodup_allShapes hmodel
  found := fun shape hshape => find?_of_mem_allShapes hmodel hshape
  selected := by
    intro selector found hfound
    obtain ⟨shape, hshape, rfl⟩ := List.mem_map.mp hfound
    have hall := List.mem_of_mem_filter hshape
    rw [contains, find?_of_mem_allShapes hmodel hall, Option.isSome_some]
  reported := by
    intro validator selector hselection hbinding
    have hstream : validator.selection.stream model = selector.select model := by
      rw [hselection]
      rfl
    rw [Validator.validate_eq_filterMap, hstream, KindSelector.select, List.filterMap_map,
      ← List.filterMap_eq_map]
    apply List.filterMap_congr
    intro shape hshape
    have hall := List.mem_of_mem_filter hshape
    exact event?_eq_report (find?_of_mem_allShapes hmodel hall) hbinding

/-- Lookup never arrives at a shape under the id of a member. -/
private theorem find?_ne_of_member (hloaded : ∀ shape ∈ model.shapes, shape.Loaded)
    (hshape : shape ∈ model.shapes) {name : String} (hname : shape.id.member = some name) :
    model.find? shape.id ≠ some shape := by
  intro hfound
  rw [find?, hname] at hfound
  dsimp only at hfound
  split at hfound
  · cases hfound
  · rename_i container hcontainer
    have hmem := (Keyed.find?_eq_some hcontainer).1
    have hmember := (Keyed.find?_eq_some hfound).1
    have htarget := ((hloaded container hmem).members shape hmember).targeted
    exact htarget (hloaded shape hshape).untargeted

/-- Enumeration and lookup of a loaded model agree just when no shape is declared under the id of
a member. -/
theorem consistent_iff_no_member_ids {text filename : String}
    (hload : Model.parse text filename = .ok model) :
    model.Consistent ↔ ∀ shape ∈ model.shapes, shape.id.member = none := by
  have hloaded : ∀ shape ∈ model.shapes, shape.Loaded :=
    fun _ hshape => loaded_of_parse hload hshape
  constructor
  · intro hconsistent shape hshape
    cases hname : shape.id.member with
    | none => rfl
    | some name =>
      have hall : shape ∈ model.allShapes := mem_allShapes.mpr ⟨shape, hshape, .inl rfl⟩
      exact absurd (hconsistent.found shape hall) (find?_ne_of_member hloaded hshape hname)
  · intro hnamed
    exact Standalone.consistent ⟨hloaded, hnamed⟩

/-- A list of strings and the string. -/
def listDocument : String :=
  "\x7b\"shapes\": \x7b\"a#L\": \x7b\"type\": \"list\", \"member\": \x7b\"target\": \"a#S\"\x7d\x7d,
    \"a#S\": \x7b\"type\": \"string\"\x7d\x7d\x7d"

theorem consistent_iff_no_member_ids_list : ∃ model,
    Model.parse listDocument "model.json" = .ok model ∧
    model.allShapes.map (fun shape => shape.id.text) = ["a#L", "a#L$member", "a#S"] ∧
    model.Consistent := by
  obtain ⟨model, hload, hmodel⟩ :=
    Fallible.exists_of_toOption_any (x := Model.parse listDocument "model.json")
      (p := fun model =>
        model.allShapes.map (fun shape => shape.id.text) = ["a#L", "a#L$member", "a#S"] ∧
        ∀ shape ∈ model.shapes, shape.id.member = none)
      (by cbv)
  obtain ⟨htexts, hnone⟩ := of_decide_eq_true hmodel
  exact ⟨model, hload, htexts, (consistent_iff_no_member_ids hload).mpr hnone⟩

/-- A string under the id of a member. -/
def memberDocument : String := "\x7b\"shapes\": \x7b\"a#S$m\": \x7b\"type\": \"string\"\x7d\x7d\x7d"

/-- The shape is enumerated but not found, so that a validator does not report it. -/
theorem inconsistent_of_member_id : ∃ model,
    Model.parse memberDocument "model.json" = .ok model ∧
    (∃ shape ∈ model.allShapes, shape.id.text = "a#S$m" ∧ model.find? shape.id = none) ∧
    (Validator.ofSelection (KindSelector.selection ⟨none⟩)).validate model = [] ∧
    ¬ model.Consistent := by
  obtain ⟨model, hload, hmodel⟩ :=
    Fallible.exists_of_toOption_any (x := Model.parse memberDocument "model.json")
      (p := fun model =>
        (∃ shape ∈ model.allShapes, shape.id.text = "a#S$m" ∧ model.contains shape.id = false) ∧
        (Validator.ofSelection (KindSelector.selection ⟨none⟩)).validate model = [])
      (by cbv)
  obtain ⟨⟨shape, hshape, htext, hnone⟩, hevents⟩ := of_decide_eq_true hmodel
  have hmissing := Option.not_isSome_iff_eq_none.mp (Bool.eq_false_iff.mp hnone)
  refine ⟨model, hload, ⟨shape, hshape, htext, hmissing⟩, hevents, ?_⟩
  intro hconsistent
  have hfound := hconsistent.found shape hshape
  rw [hmissing] at hfound
  cases hfound

end Model

end ShapeRules
