import ShapeRules.Proofs.Path.Extent
import ShapeRules.Proofs.Template.Variables
import ShapeRules.Proofs.Validator

/-!
Previews. A path has the same preview as the template that holds it alone, and the preview of a
template for a shape is what a validator with this template reports of the shape.
-/

namespace ShapeRules

namespace Path

/-- The text of a path as a scoped attribute: a text without a sign stands in braces behind one. -/
def attributeText (text : String) : String :=
  if text.toList.head? = some '@' then text else "@\x7b" ++ text ++ "\x7d"

variable {text : String} {path : Path}

theorem spells_attributeText (h : parse text = .ok path) :
    SpellsAttribute (attributeText text).toList path := by
  cases parse_ok_iff.mp h with
  | bare hbody =>
    rw [attributeText, if_neg hbody.head_ne_sign, String.toList_append, String.toList_append]
    exact .braced hbody
  | expression hattribute => rwa [attributeText, if_pos hattribute.head_eq_sign]

/-- A scoped attribute by itself is a template of one fragment. -/
theorem parse_attribute {path : Path} (h : SpellsAttribute text.toList path) :
    Template.parse text = .ok ⟨text, [.computed path]⟩ := by
  obtain ⟨behind, hbehind⟩ := List.head?_eq_some_iff.mp h.head_eq_sign
  have hread : scopedAttribute ('@' :: behind) = .ok (path, []) := hbehind ▸ h.read
  have hsingle : behind.head? ≠ some '@' := by
    intro hhead
    obtain ⟨rest, rfl⟩ := List.head?_eq_some_iff.mp hhead
    cases hread
  refine Template.parse_ok_iff.mpr ⟨[.computed path], ?_, rfl⟩
  rw [hbehind, Piece.read_computed hsingle hread, Piece.read_nil]
  rfl

end Path

namespace Model

variable {text : String} {path : Path}

theorem previewPath_eq (h : Path.parse text = .ok path) (model : Model) (id : ShapeId) :
    model.previewPath id text =
      if model.contains id then .ok (path.evaluate model (.ofShape id)).message
      else .error (.unknownShape id) := by
  rw [previewPath, h]
  rfl

theorem previewTemplate_eq {template : Template} (h : Template.parse text = .ok template)
    (model : Model) (id : ShapeId) :
    model.previewTemplate id text =
      if model.contains id then .ok (template.render model (.ofShape id))
      else .error (.unknownShape id) := by
  rw [previewTemplate, h]
  rfl

end Model

/-- A text that is a path has the preview of the template that holds this path alone: the value of
the path at a shape, or a complaint that the model lacks the shape. -/
theorem Path.previewed_as_template (text : String) (path : Path) (h : Path.parse text = .ok path) :
    Template.parse (attributeText text) = .ok ⟨attributeText text, [.computed path]⟩ ∧
    ∀ (model : Model) (id : ShapeId),
      model.previewPath id text = model.previewTemplate id (attributeText text) ∧
      model.previewPath id text =
        if model.contains id then .ok (path.evaluate model (.ofShape id)).message
        else .error (.unknownShape id) := by
  have htemplate := parse_attribute (spells_attributeText h)
  have hrender (model : Model) (value : Value) :
      Template.render ⟨attributeText text, [.computed path]⟩ model value =
        (path.evaluate model value).message := by
    simp [Template.render, Fragment.render]
  refine ⟨htemplate, fun model id => ⟨?_, Model.previewPath_eq h model id⟩⟩
  rw [Model.previewPath_eq h, Model.previewTemplate_eq htemplate, hrender]

/-- Without braces the dot goes on with the path because a segment follows it. -/
theorem Path.previewed_as_template_dot :
    let path : Path := ⟨[.key "members", .key "member"]⟩
    Path.parse "members.member" = .ok path ∧
      Template.parse "@\x7bmembers.member\x7d" =
        .ok ⟨"@\x7bmembers.member\x7d", [.computed path]⟩ ∧
      ∃ (model : Model) (id : ShapeId),
        model.previewPath id "members.member" = .ok "m, n" ∧
          model.previewTemplate id "@\x7bmembers.member\x7d" = .ok "m, n" := by
  intro path
  have hfront : SpellsSegment "members".toList (.key "members") := .key (by decide)
  have hback : SpellsSegment "member".toList (.key "member") := .key (by decide)
  have hbody : SpellsBody "members.member".toList path :=
    .body hfront (.separated (.inl rfl) hback .nil)
  have hparse : Path.parse "members.member" = .ok path := parse_ok_iff.mpr (.bare hbody)
  obtain ⟨htemplate, hpreview⟩ := Path.previewed_as_template "members.member" path hparse
  have htext : attributeText "members.member" = "@\x7bmembers.member\x7d" := by decide
  rw [htext] at htemplate
  refine ⟨hparse, htemplate, ?_⟩
  let id : ShapeId := ⟨"a", "S", none, rfl, rfl, nofun⟩
  let first : ShapeId := ⟨"a", "S", some "m", rfl, rfl, by decide⟩
  let second : ShapeId := ⟨"a", "S", some "n", rfl, rfl, by decide⟩
  let shape : Shape := { Shape.bare id .record with
    members := [.bare first .member, .bare second .member] }
  let model : Model := ⟨[shape], by decide⟩
  refine ⟨model, id, ?_⟩
  obtain ⟨hagree, hvalue⟩ := hpreview model id
  have hmessage : model.previewPath id "members.member" = .ok "m, n" := by
    rw [hvalue, if_pos (by decide)]
    exact congrArg Except.ok (by decide)
  rw [htext, hmessage] at hagree
  exact ⟨hmessage, hagree.symm⟩

namespace Validator

/-- What a validator with a template reports of the matches of a selector by kind is worded as the
preview of the template for the shape, and each match that can be reported is. -/
theorem events_previewed {text : String} {template : Template}
    (htemplate : Template.parse text = .ok template) (selector : KindSelector) (id : String)
    (severity : Severity) (binding : Option ShapeId) (model : Model) :
    let validator : Validator := ⟨id, severity, selector.selection, binding, some template⟩
    (∀ event ∈ validator.validate model, ∃ shape, event.shape = some shape ∧
      model.previewTemplate shape text = .ok event.message) ∧
    ∀ found ∈ selector.select model, model.Reportable binding found.shape →
      ∃ event ∈ validator.validate model, event.shape = some found.shape := by
  intro validator
  refine ⟨fun event hevent => ?_, fun found => validator.exists_event_of_reportable⟩
  obtain ⟨found, hfound, hreport⟩ := mem_validate_iff.mp hevent
  obtain ⟨hshape, -, hmessage⟩ := hreport
  refine ⟨found.shape, rfl, ?_⟩
  have hcontains : model.contains found.shape = true := Option.isSome_iff_exists.mpr ⟨_, hshape⟩
  rw [Model.previewTemplate_eq htemplate, if_pos hcontains]
  cases hmessage with
  | fixed hnone => cases hnone
  | rendered hsome =>
    cases hsome
    -- The root of the match has a map of variables and the shape none, but no name is in the map.
    obtain ⟨shape, -, rfl⟩ := List.mem_map.mp hfound
    have hroots : template.render model (.shape shape.id none) =
        template.render model (.shape shape.id (some [])) := by
      refine Template.render_congr htemplate ?_ model shape.id
      intro name others _
      rfl
    exact congrArg Except.ok hroots

/-- The template asks the root of a match for a variable, and the shape has the bound trait. -/
theorem events_previewed_variable :
    let source := "@\x7bname\x7d: @\x7bvar(x)\x7d"
    let template : Template :=
      ⟨source, [.computed ⟨[.key "name"]⟩, .literal ": ", .computed ⟨[.call .var ["x"]]⟩]⟩
    Template.parse source = .ok template ∧
      ∃ (model : Model) (shape mark : ShapeId),
        ∃ event ∈ (Validator.mk "v" .warning (KindSelector.mk none).selection (some mark)
            (some template)).validate model,
          event.shape = some shape ∧ event.message = "S: " ∧
            model.previewTemplate shape source = .ok "S: " := by
  intro source template
  have hparse : Template.parse source = .ok template := by
    have hencode : Template.encode template.fragments = source := by decide
    rw [← hencode]
    exact Template.parse_encode ⟨by decide, by decide⟩
  refine ⟨hparse, ?_⟩
  let id : ShapeId := ⟨"a", "S", none, rfl, rfl, nofun⟩
  let mark : ShapeId := ⟨"a", "mark", none, rfl, rfl, nofun⟩
  let shape : Shape := { Shape.bare id .record with traits := [⟨mark, .null, .unknown⟩] }
  let model : Model := ⟨[shape], by decide⟩
  obtain ⟨hworded, hreported⟩ :=
    events_previewed hparse ⟨none⟩ "v" .warning (some mark) model
  obtain ⟨event, hevent, hshape⟩ := hreported ⟨id, []⟩ (by decide) ⟨shape, by rfl, by decide⟩
  obtain ⟨other, hother, hpreview⟩ := hworded event hevent
  obtain rfl : id = other := Option.some.inj (hshape.symm.trans hother)
  have hmessage : model.previewTemplate id source = .ok "S: " := by
    rw [Model.previewTemplate_eq hparse, if_pos (by decide)]
    exact congrArg Except.ok (by decide)
  rw [hmessage] at hpreview
  exact ⟨model, id, mark, event, hevent, hshape, (Except.ok.inj hpreview).symm, hmessage⟩

end Validator

end ShapeRules
