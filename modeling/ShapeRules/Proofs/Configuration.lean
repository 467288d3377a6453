import Mathlib.Data.List.Nodup
import ShapeRules.Configuration
import ShapeRules.Proofs.Aligned
import ShapeRules.Proofs.Fallible
import ShapeRules.Proofs.Validator

/-!
The validators of a configuration. They stand in the order of the definitions, every event leads
back to one definition, and of several faulty definitions the first one is reported.
-/

namespace ShapeRules

open Fallible

theorem Validator.signed_of_mem {validator : Validator} {model : Model} {event : Event}
    (h : event ∈ validator.validate model) :
    event.id = validator.id ∧ event.severity = validator.severity := by
  obtain ⟨found, -, hreport⟩ := mem_validate_iff.mp h
  cases hreport
  exact ⟨rfl, rfl⟩

namespace Definition

/-- The event has the id and the severity that the definition gives to its events. -/
structure Signs (definition : Definition) (event : Event) : Prop where
  id : event.id = definition.eventId
  severity : event.severity = definition.severity.getD .danger

/-- The fault of a definition that stands behind others. -/
inductive Faulty (earlier : List Definition) (definition : Definition) : DefinitionError → Prop
  | repeated (hid : definition.eventId ∈ earlier.map eventId) :
      Faulty earlier definition (.duplicateId definition.eventId)
  | rejected {fault : DefinitionError} (hid : definition.eventId ∉ earlier.map eventId)
      (hreject : definition.toValidator = .error fault) : Faulty earlier definition fault

/-- The validator of some settings, with the id and the severity of the definition. -/
def validatorOf (definition : Definition) (settings : Settings) : Validator where
  id := definition.eventId
  severity := definition.severity.getD .danger
  selection := settings.selector.selection
  binding := settings.binding
  template := settings.template

/-- The validator is what the definition makes. -/
def Makes (definition : Definition) (validator : Validator) : Prop :=
  definition.toValidator = .ok validator

variable {definition : Definition} {validator : Validator} {earlier : List Definition}

theorem makes_iff : definition.Makes validator ↔
    definition.name = Validator.name ∧ ∃ settings,
      Settings.ofJson definition.configuration = .ok settings ∧
        definition.validatorOf settings = validator := by
  rw [Makes, toValidator]
  split_ifs with hname
  · cases Settings.ofJson definition.configuration with
    | error problem => simp
    | ok settings => simp [hname, validatorOf]
  · simp [hname]

theorem Makes.signs (h : definition.Makes validator) {model : Model} {event : Event}
    (hevent : event ∈ validator.validate model) : definition.Signs event := by
  obtain ⟨-, settings, -, rfl⟩ := makes_iff.mp h
  obtain ⟨hid, hseverity⟩ := Validator.signed_of_mem hevent
  exact ⟨hid, hseverity⟩

/-- A definition that makes a validator and has an id of its own is not faulty. -/
theorem Makes.not_faulty (h : definition.Makes validator)
    (hid : definition.eventId ∉ earlier.map eventId) (fault : DefinitionError) :
    ¬ Faulty earlier definition fault := by
  rintro (hrepeat | ⟨-, hreject⟩)
  · exact hid hrepeat
  · rw [Makes, hreject] at h
    cases h

end Definition

namespace Configuration

open Definition

variable {index : Nat} {known : List String} {definition : Definition}
  {definitions : List Definition} {validators : List Validator}

theorem build_repeated (h : definition.eventId ∈ known) :
    build index known (definition :: definitions) =
      .error (.misdefined index definition.name (.duplicateId definition.eventId)) := by
  rw [build, if_pos h]
  rfl

theorem build_fresh (h : definition.eventId ∉ known) :
    build index known (definition :: definitions) =
      match definition.toValidator with
      | .error fault => .error (.misdefined index definition.name fault)
      | .ok validator =>
        (build (index + 1) (definition.eventId :: known) definitions).map (validator :: ·) := by
  rw [build, if_neg h]
  cases definition.toValidator with
  | error fault => rfl
  | ok validator => cases build (index + 1) (definition.eventId :: known) definitions <;> rfl

theorem build_eq_ok_iff :
    build index known definitions = .ok validators ↔
      List.Forall₂ Makes definitions validators ∧ (definitions.map eventId).Nodup ∧
        ∀ definition ∈ definitions, definition.eventId ∉ known := by
  induction definitions generalizing index known validators with
  | nil =>
    constructor
    · intro h
      cases h
      exact ⟨.nil, List.nodup_nil, by simp⟩
    · rintro ⟨⟨⟩, -, -⟩
      rfl
  | cons definition definitions ih =>
    rw [List.map_cons, List.nodup_cons, List.forall_mem_cons]
    by_cases hid : definition.eventId ∈ known
    · rw [build_repeated hid]
      constructor
      · intro h
        cases h
      · rintro ⟨-, -, hfresh, -⟩
        exact absurd hid hfresh
    · rw [build_fresh hid]
      constructor
      · intro h
        split at h
        · cases h
        · rename_i validator hmake
          obtain ⟨others, hothers, rfl⟩ := map_eq_ok.mp h
          obtain ⟨hmakes, hnodup, hfresh⟩ := ih.mp hothers
          refine ⟨.cons hmake hmakes, ⟨?_, hnodup⟩, hid, ?_⟩
          · intro hmem
            obtain ⟨other, hother, heq⟩ := List.mem_map.mp hmem
            exact hfresh other hother (heq ▸ List.mem_cons_self)
          · intro other hother hmem
            exact hfresh other hother (List.mem_cons_of_mem _ hmem)
      · rintro ⟨hmakes, ⟨hfirst, hnodup⟩, -, hfresh⟩
        cases hmakes with
        | @cons _ validator _ others hmake hmakes =>
          have hothers : build (index + 1) (definition.eventId :: known) definitions =
              .ok others := by
            refine ih.mpr ⟨hmakes, hnodup, ?_⟩
            intro other hother hmem
            rcases List.mem_cons.mp hmem with heq | hmem
            · exact hfirst (heq ▸ List.mem_map_of_mem hother)
            · exact hfresh other hother hmem
          rw [hmake]
          exact map_eq_ok.mpr ⟨others, hothers, rfl⟩

/-- A fault in definitions that stand behind others, such that none before it is faulty. -/
structure FirstFault (earlier definitions : List Definition) (place : Nat)
    (definition : Definition) (fault : DefinitionError) : Prop where
  found : definitions[place]? = some definition
  faulty : Faulty (earlier ++ definitions.take place) definition fault
  first : ∀ before < place, ∀ other, definitions[before]? = some other →
    ∀ fault, ¬ Faulty (earlier ++ definitions.take before) other fault

variable {earlier : List Definition} {fault : DefinitionError}

theorem FirstFault.head (h : Faulty earlier definition fault) :
    FirstFault earlier (definition :: definitions) 0 definition fault where
  found := rfl
  faulty := by rwa [List.take_zero, List.append_nil]
  first := by
    intro before hbefore
    exact absurd hbefore (Nat.not_lt_zero before)

theorem FirstFault.behind {other : Definition} {place : Nat}
    (hother : ∀ fault, ¬ Faulty earlier other fault)
    (h : FirstFault (earlier ++ [other]) definitions place definition fault) :
    FirstFault earlier (other :: definitions) (place + 1) definition fault := by
  have htake (n : Nat) : earlier ++ (other :: definitions).take (n + 1) =
      earlier ++ [other] ++ definitions.take n := by simp
  refine ⟨h.found, ?_, ?_⟩
  · rw [htake]
    exact h.faulty
  · intro before hbefore found hfound
    cases before with
    | zero =>
      cases hfound
      rwa [List.take_zero, List.append_nil]
    | succ before =>
      rw [htake]
      exact h.first before (Nat.lt_of_succ_lt_succ hbefore) found hfound

theorem build_eq_error {error : ConfigurationError}
    (hknown : ∀ id, id ∈ known ↔ id ∈ earlier.map eventId)
    (h : build index known definitions = .error error) :
    ∃ place definition fault, error = .misdefined (index + place) definition.name fault ∧
      FirstFault earlier definitions place definition fault := by
  induction definitions generalizing index known earlier with
  | nil => cases h
  | cons definition definitions ih =>
    by_cases hid : definition.eventId ∈ known
    · rw [build_repeated hid] at h
      cases h
      exact ⟨0, definition, _, rfl, .head (.repeated ((hknown _).mp hid))⟩
    · have hfresh : definition.eventId ∉ earlier.map eventId := mt (hknown _).mpr hid
      rw [build_fresh hid] at h
      split at h
      · rename_i fault hreject
        cases h
        exact ⟨0, definition, fault, rfl, .head (.rejected hfresh hreject)⟩
      · rename_i validator hmake
        have hothers := map_eq_error.mp h
        have hextended : ∀ id, id ∈ definition.eventId :: known ↔
            id ∈ (earlier ++ [definition]).map eventId := by
          intro id
          simp [hknown, or_comm]
        obtain ⟨place, found, fault, rfl, hfault⟩ := ih hextended hothers
        refine ⟨place + 1, found, fault, ?_, hfault.behind ?_⟩
        · rw [Nat.add_right_comm, Nat.add_assoc]
        · exact Makes.not_faulty hmake hfresh

/-- The events for a model: those of each definition in its turn, which signs all of them. -/
theorem validate_blocks (hmakes : List.Forall₂ Makes definitions validators) (model : Model) :
    ∃ blocks, model.validate validators = blocks.flatten ∧
      List.Forall₂ (fun definition block => ∃ validator, definition.Makes validator ∧
        block = validator.validate model ∧ ∀ event ∈ block, definition.Signs event)
        definitions blocks := by
  refine ⟨validators.map fun validator => validator.validate model, ?_, ?_⟩
  · rw [Model.validate, List.flatMap_def]
  · rw [List.forall₂_map_right_iff]
    refine hmakes.imp ?_
    intro definition validator hmake
    exact ⟨validator, hmake, rfl, fun event hevent => hmake.signs hevent⟩

theorem exists_signs (hmakes : List.Forall₂ Makes definitions validators) {model : Model}
    {event : Event} (hevent : event ∈ model.validate validators) :
    ∃ definition ∈ definitions, definition.Signs event := by
  obtain ⟨validator, hvalidator, hevent⟩ := List.mem_flatMap.mp hevent
  obtain ⟨definition, hdefinition, hmake⟩ := Aligned.exists_of_mem_right hmakes hvalidator
  exact ⟨definition, hdefinition, hmake.signs hevent⟩

/-- A configuration gives validators exactly if every definition makes one and no event id repeats.
The validators then stand in the order of the definitions, and so do the events for a model; each
event is signed by the one definition that has its id. Otherwise the first faulty definition is
reported, and a repeated id comes before any other fault of it. -/
theorem validators_attributable (configuration : Configuration) :
    ((∃ validators, configuration.validators = .ok validators) ↔
      (∀ definition ∈ configuration.definitions, ∃ validator, definition.Makes validator) ∧
      (configuration.definitions.map eventId).Nodup) ∧
    (∀ validators, configuration.validators = .ok validators →
      List.Forall₂ Makes configuration.definitions validators ∧
      ∀ model : Model,
        (∃ blocks, model.validate validators = blocks.flatten ∧
          List.Forall₂ (fun definition block => ∃ validator, definition.Makes validator ∧
            block = validator.validate model ∧ ∀ event ∈ block, definition.Signs event)
            configuration.definitions blocks) ∧
        ∀ event ∈ model.validate validators,
          ∃ definition ∈ configuration.definitions, definition.Signs event ∧
            ∀ other ∈ configuration.definitions, other.eventId = event.id → other = definition) ∧
    ∀ error, configuration.validators = .error error →
      ∃ index definition fault, error = .misdefined index definition.name fault ∧
        FirstFault [] configuration.definitions index definition fault := by
  refine ⟨?_, ?_, ?_⟩
  · constructor
    · rintro ⟨validators, hvalidators⟩
      obtain ⟨hmakes, hnodup, -⟩ := build_eq_ok_iff.mp hvalidators
      exact ⟨Aligned.exists_iff.mp ⟨validators, hmakes⟩, hnodup⟩
    · rintro ⟨hmakes, hnodup⟩
      obtain ⟨validators, hvalidators⟩ := Aligned.exists_iff.mpr hmakes
      exact ⟨validators, build_eq_ok_iff.mpr ⟨hvalidators, hnodup, by simp⟩⟩
  · intro validators hvalidators
    obtain ⟨hmakes, hnodup, -⟩ := build_eq_ok_iff.mp hvalidators
    refine ⟨hmakes, fun model => ⟨validate_blocks hmakes model, ?_⟩⟩
    intro event hevent
    obtain ⟨definition, hdefinition, hsigns⟩ := exists_signs hmakes hevent
    refine ⟨definition, hdefinition, hsigns, ?_⟩
    intro other hother hid
    exact List.inj_on_of_nodup_map hnodup hother hdefinition (hid.trans hsigns.id)
  · intro error herror
    have hnone : ∀ id, id ∈ ([] : List String) ↔ id ∈ ([] : List Definition).map eventId := by simp
    obtain ⟨place, definition, fault, rfl, hfault⟩ := build_eq_error hnone herror
    exact ⟨place, definition, fault, by rw [Nat.zero_add], hfault⟩

end Configuration

end ShapeRules
