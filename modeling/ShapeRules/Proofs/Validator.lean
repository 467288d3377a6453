import ShapeRules.Proofs.Model.Enumeration
import ShapeRules.Validator

/-!
What validators report. The events are those of a walk over the matches, whether these are collected
first or not, and a validator that does not run its selector would have found nothing to report.
-/

namespace ShapeRules

theorem Selection.select_eq_stream (selection : Selection) (model : Model) :
    selection.select model = selection.stream model := by
  have hcollect (collected found : List Match) :
      found.foldl (fun collected found => collected ++ [found]) collected = collected ++ found := by
    induction found generalizing collected with
    | nil => exact (List.append_nil collected).symm
    | cons first found ih => rw [List.foldl_cons, ih, List.append_assoc, List.singleton_append]
  exact hcollect [] (selection.stream model)

/-- The model has the shape, and that has the trait if one is asked for. -/
def Model.Reportable (model : Model) (binding : Option ShapeId) (id : ShapeId) : Prop :=
  ∃ shape, model.find? id = some shape ∧ ∀ trait ∈ binding, trait ∈ shape.traitIds

namespace Validator

/-- The shape is reported at the location: its own, or that of the bound trait on it. -/
inductive Locates (validator : Validator) (shape : Shape) : SourceLocation → Prop
  | unbound (hbinding : validator.binding = none) : Locates validator shape shape.location
  | bound {id : ShapeId} {applied : Trait} (hbinding : validator.binding = some id)
      (happlied : shape.findTrait? id = some applied) : Locates validator shape applied.location

/-- The text is the message for the match. -/
inductive Words (validator : Validator) (model : Model) (found : Match) : String → Prop
  | fixed (htemplate : validator.template = none) :
      Words validator model found
        ("Selector capture matched selector: " ++ validator.selection.text)
  | rendered {template : Template} (htemplate : validator.template = some template) :
      Words validator model found (template.render model (.ofMatch found))

/-- The event reports the match. -/
inductive Reports (validator : Validator) (model : Model) (found : Match) : Event → Prop
  | event {shape : Shape} {location : SourceLocation} {message : String}
      (hshape : model.find? found.shape = some shape)
      (hlocation : validator.Locates shape location)
      (hmessage : validator.Words model found message) :
      Reports validator model found
        ⟨validator.id, validator.severity, some found.shape, location, message⟩

/-- A walk over matches: one event for each match that can be reported, and none for the others. -/
inductive Walk (validator : Validator) (model : Model) : List Match → List Event → Prop
  | nil : Walk validator model [] []
  | report {found : Match} {event : Event} {others : List Match} {events : List Event}
      (hreport : validator.Reports model found event) (hrest : Walk validator model others events) :
      Walk validator model (found :: others) (event :: events)
  | skip {found : Match} {others : List Match} {events : List Event}
      (hskip : ∀ event, ¬ validator.Reports model found event)
      (hrest : Walk validator model others events) :
      Walk validator model (found :: others) events

variable {validator : Validator} {model : Model} {found : Match} {event : Event}

theorem location?_eq_some_iff {shape : Shape} {location : SourceLocation} :
    validator.location? shape = some location ↔ validator.Locates shape location := by
  constructor
  · intro h
    rw [location?] at h
    split at h
    · rename_i hbinding
      cases h
      exact .unbound hbinding
    · rename_i id hbinding
      obtain ⟨applied, happlied, rfl⟩ := Option.map_eq_some_iff.mp h
      exact .bound hbinding happlied
  · rintro (hbinding | ⟨hbinding, happlied⟩)
    · rw [location?, hbinding]
    · rw [location?, hbinding]
      dsimp only
      rw [happlied, Option.map_some]

theorem message_eq_iff {message : String} :
    validator.message model found = message ↔ validator.Words model found message := by
  constructor
  · rintro rfl
    rw [Validator.message]
    split
    · rename_i htemplate
      exact .fixed htemplate
    · rename_i htemplate
      exact .rendered htemplate
  · rintro (htemplate | htemplate) <;> rw [Validator.message, htemplate]

theorem event?_eq_some_iff :
    validator.event? model found = some event ↔ validator.Reports model found event := by
  rw [event?, Option.bind_eq_bind, Option.bind_eq_some_iff]
  constructor
  · rintro ⟨shape, hshape, h⟩
    rw [Option.bind_eq_bind, Option.bind_eq_some_iff] at h
    obtain ⟨location, hlocation, h⟩ := h
    cases h
    exact .event hshape (location?_eq_some_iff.mp hlocation) (message_eq_iff.mp rfl)
  · rintro ⟨hshape, hlocation, hmessage⟩
    refine ⟨_, hshape, ?_⟩
    rw [location?_eq_some_iff.mpr hlocation, message_eq_iff.mpr hmessage]
    rfl

/-- A validator reports the matches of shapes that the model has, with the bound trait. -/
theorem exists_reports_iff :
    (∃ event, validator.Reports model found event) ↔
      model.Reportable validator.binding found.shape := by
  constructor
  · rintro ⟨_, ⟨hshape, hlocation, -⟩⟩
    refine ⟨_, hshape, ?_⟩
    cases hlocation with
    | unbound hbinding => simp [hbinding]
    | bound hbinding happlied =>
      rw [hbinding]
      rintro _ ⟨⟩
      exact Keyed.exists_find?_iff.mp ⟨_, happlied⟩
  · rintro ⟨shape, hshape, htrait⟩
    cases hbinding : validator.binding with
    | none => exact ⟨_, .event hshape (.unbound hbinding) (message_eq_iff.mp rfl)⟩
    | some id =>
      obtain ⟨applied, happlied⟩ := Keyed.exists_find?_iff.mpr (htrait id hbinding)
      exact ⟨_, .event hshape (.bound hbinding happlied) (message_eq_iff.mp rfl)⟩

theorem walk_iff {others : List Match} {events : List Event} :
    others.filterMap (validator.event? model) = events ↔ validator.Walk model others events := by
  constructor
  · rintro rfl
    induction others with
    | nil => exact .nil
    | cons found others ih =>
      cases hevent : validator.event? model found with
      | some event =>
        rw [List.filterMap_cons_some hevent]
        exact .report (event?_eq_some_iff.mp hevent) ih
      | none =>
        rw [List.filterMap_cons_none hevent]
        refine .skip ?_ ih
        intro event hreport
        rw [event?_eq_some_iff.mpr hreport] at hevent
        cases hevent
  · intro h
    induction h with
    | nil => rfl
    | report hreport _ ih => rw [List.filterMap_cons_some (event?_eq_some_iff.mpr hreport), ih]
    | @skip found _ _ hskip _ ih =>
      have hnone : validator.event? model found = none := by
        rw [Option.eq_none_iff_forall_ne_some]
        intro event hevent
        exact hskip event (event?_eq_some_iff.mp hevent)
      rw [List.filterMap_cons_none hnone, ih]

theorem validateCollected_eq (validator : Validator) (model : Model) :
    validator.validateCollected model =
      (validator.selection.stream model).filterMap (validator.event? model) := by
  rw [validateCollected, Selection.select_eq_stream]

theorem validateStreamed_eq (validator : Validator) (model : Model) :
    validator.validateStreamed model =
      (validator.selection.stream model).filterMap (validator.event? model) := by
  have hextend (events : List Event) (others : List Match) :
      others.foldl (fun events found => events ++ (validator.event? model found).toList) events =
        events ++ others.filterMap (validator.event? model) := by
    induction others generalizing events with
    | nil => exact (List.append_nil events).symm
    | cons found others ih =>
      rw [List.foldl_cons, ih, List.append_assoc]
      cases hevent : validator.event? model found with
      | none => rw [List.filterMap_cons_none hevent, Option.toList_none, List.nil_append]
      | some event =>
        rw [List.filterMap_cons_some hevent, Option.toList_some, List.singleton_append]
  exact hextend [] (validator.selection.stream model)

/-- A bound trait that is on a reported shape is among the applied ones. -/
theorem Reports.concerns (h : validator.Reports model found event) :
    validator.concerns model = true := by
  obtain ⟨hshape, hlocation, -⟩ := h
  rw [Validator.concerns]
  cases hlocation with
  | unbound hbinding => rw [hbinding]
  | bound hbinding happlied =>
    rw [hbinding]
    exact decide_eq_true (Model.mem_appliedTraits_of_find? hshape happlied)

theorem validate_eq_filterMap (validator : Validator) (model : Model) :
    validator.validate model =
      (validator.selection.stream model).filterMap (validator.event? model) := by
  rw [validate]
  split
  · split
    · exact validateCollected_eq validator model
    · exact validateStreamed_eq validator model
  · rename_i hconcerns
    symm
    rw [List.filterMap_eq_nil_iff]
    intro found _
    rw [Option.eq_none_iff_forall_ne_some]
    intro event hevent
    exact hconcerns (event?_eq_some_iff.mp hevent).concerns

theorem mem_validate_iff :
    event ∈ validator.validate model ↔
      ∃ found ∈ validator.selection.stream model, validator.Reports model found event := by
  simp only [validate_eq_filterMap, List.mem_filterMap, event?_eq_some_iff]

/-- A match that can be reported is. -/
theorem exists_event_of_reportable (validator : Validator)
    (hfound : found ∈ validator.selection.stream model)
    (h : model.Reportable validator.binding found.shape) :
    ∃ event ∈ validator.validate model, event.shape = some found.shape := by
  obtain ⟨event, hreport⟩ := exists_reports_iff.mpr h
  refine ⟨event, mem_validate_iff.mpr ⟨found, hfound, hreport⟩, ?_⟩
  cases hreport
  rfl

/-- The events of a validator are those of a walk over the matches of its selector. They are the
same if the matches are collected first and if they are not, and in either case if the selector
always runs. -/
theorem validate_iff_walk (validator : Validator) (model : Model) :
    (∀ events, validator.validate model = events ↔
      validator.Walk model (validator.selection.stream model) events) ∧
    validator.validate model = validator.validateCollected model ∧
    validator.validate model = validator.validateStreamed model := by
  refine ⟨?_, ?_, ?_⟩
  · intro events
    rw [validate_eq_filterMap]
    exact walk_iff
  · rw [validate_eq_filterMap, validateCollected_eq]
  · rw [validate_eq_filterMap, validateStreamed_eq]

end Validator

end ShapeRules
