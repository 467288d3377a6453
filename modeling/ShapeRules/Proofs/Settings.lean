import ShapeRules.Proofs.Configuration
import ShapeRules.Proofs.Event
import ShapeRules.Proofs.ShapeId.Spelling
import ShapeRules.Proofs.Template.Encoding

/-!
The settings of validators in JSON. They are decoded just when every field is known and well formed,
and what is decoded is decoded again from the JSON that is written for it.
-/

namespace ShapeRules

open Fallible
open Keyed (DistinctKeys)
open RecordFormat (Gathers)

/-- A field that is missing or null, or a text that passes. -/
inductive Json.Optional (P : String → Prop) : Option Json → Prop
  | missing : Optional P none
  | null : Optional P (some .null)
  | text {s : String} (hs : P s) : Optional P (some (.string s))

/-- A field that is missing or null and gives nothing, or a text that gives something. -/
inductive Json.Supplies {α : Type} (R : String → α → Prop) : Option Json → Option α → Prop
  | missing : Supplies R none none
  | null : Supplies R (some .null) none
  | text {s : String} {x : α} (hx : R s x) : Supplies R (some (.string s)) (some x)

theorem Json.Optional.exists_nullable {α : Type} {P : String → Prop} {R : String → α → Prop}
    {value : Json} (h : Json.Optional P (some value)) (hP : ∀ s, P s → ∃ x, R s x) :
    ∃ x, Json.Nullable (Json.Spelled R) value x := by
  cases h with
  | null => exact ⟨none, .null⟩
  | text hs =>
    obtain ⟨x, hx⟩ := hP _ hs
    exact ⟨some x, .given (.text hx)⟩

theorem Json.Supplies.optional {α : Type} {P : String → Prop} {R : String → α → Prop}
    {place : Option Json} {given : Option α} (h : Json.Supplies R place given)
    (hR : ∀ s x, R s x → P s) : Json.Optional P place := by
  cases h with
  | missing => exact .missing
  | null => exact .null
  | text hx => exact .text (hR _ _ hx)

namespace KindSelector

variable {text : String} {selector : KindSelector}

theorem parse_eq_ok_iff : parse text = .ok selector ↔ selector.text = Text.trim text := by
  obtain ⟨kind⟩ := selector
  have hstar (kind : Kind) : kind.name ≠ "*" := by cases kind <;> decide
  unfold parse
  dsimp only
  constructor
  · intro h
    split_ifs at h with htrim
    · cases h
      exact htrim.symm
    · split at h
      · rename_i found hfound
        cases h
        exact Kind.name_of_ofName? hfound
      · cases h
  · intro h
    cases kind with
    | none => exact if_pos h.symm
    | some kind =>
      have htrim : Text.trim text = kind.name := h.symm
      rw [htrim, if_neg (hstar kind), Kind.ofName?_name]

theorem trim_text (selector : KindSelector) : Text.trim selector.text = selector.text := by
  obtain ⟨_ | kind⟩ := selector
  · decide
  · cases kind <;> decide

theorem exists_text_iff : (∃ selector : KindSelector, selector.text = text) ↔
    text = "*" ∨ ∃ kind : Kind, text = kind.name := by
  constructor
  · rintro ⟨⟨_ | kind⟩, rfl⟩
    · exact .inl rfl
    · exact .inr ⟨kind, rfl⟩
  · rintro (rfl | ⟨kind, rfl⟩)
    · exact ⟨⟨none⟩, rfl⟩
    · exact ⟨⟨some kind⟩, rfl⟩

theorem decoder_denotes :
    decoder.Denotes (Json.Spelled fun text selector => selector.text = Text.trim text) :=
  Decoder.parsed_denotes fun _ _ => parse_eq_ok_iff

end KindSelector

theorem Template.optional_decoder_denotes : (Decoder.optional decoder).Denotes
    (Json.Nullable (Json.Spelled fun text template => Template.parse text = .ok template)) :=
  (Decoder.parsed_denotes fun _ _ => Iff.rfl).optional nofun

theorem Template.source_of_parse {text : String} {template : Template}
    (h : parse text = .ok template) : template.source = text := by
  unfold parse at h
  split at h
  · cases h
    rfl
  · cases h

namespace Settings

/-- How a field changes what is known of the settings. -/
inductive Puts (key : String) (value : Json) : (Fields → Fields) → Prop
  | selector {selector : KindSelector} (hkey : key = "selector")
      (h : Json.Spelled (fun text selector => selector.text = Text.trim text) value selector) :
      Puts key value fun fields => { fields with selector := some selector }
  | binding {binding : Option ShapeId} (hkey : key = "bindToTrait")
      (h : Json.Nullable (Json.Spelled fun text id => id.text = text) value binding) :
      Puts key value fun fields => { fields with binding := some binding }
  | template {template : Option Template} (hkey : key = "messageTemplate")
      (h : Json.Nullable (Json.Spelled fun text template => Template.parse text = .ok template)
        value template) :
      Puts key value fun fields => { fields with template := some template }

theorem put_stores (room : Nat) : format.Stores (Fields.put room) Puts := by
  intro key hkey draft value known next hdraft
  have hselector := fun x => KindSelector.decoder_denotes room draft value x hdraft
  have hbinding := fun x => ShapeId.optional_decoder_denotes room draft value x hdraft
  have htemplate := fun x => Template.optional_decoder_denotes room draft value x hdraft
  constructor
  · intro h
    unfold Fields.put at h
    split at h
    · obtain ⟨x, hx, h⟩ := bind_eq_ok.mp h
      cases h
      exact ⟨_, .selector rfl ((hselector x).mp hx), rfl⟩
    · obtain ⟨x, hx, h⟩ := bind_eq_ok.mp h
      cases h
      exact ⟨_, .binding rfl ((hbinding x).mp hx), rfl⟩
    · obtain ⟨x, hx, h⟩ := bind_eq_ok.mp h
      cases h
      exact ⟨_, .template rfl ((htemplate x).mp hx), rfl⟩
    · simp_all [format]
  · rintro ⟨_, ⟨rfl, h⟩ | ⟨rfl, h⟩ | ⟨rfl, h⟩, rfl⟩
    · exact bind_eq_ok.mpr ⟨_, (hselector _).mpr h, rfl⟩
    · exact bind_eq_ok.mpr ⟨_, (hbinding _).mpr h, rfl⟩
    · exact bind_eq_ok.mpr ⟨_, (htemplate _).mpr h, rfl⟩

/-- A place that holds nothing unless a field fills it holds what the field supplies. -/
theorem supplies_of_place {α : Type} {R : String → α → Prop} {place : Option Json}
    {held : Option (Option α)}
    (h : (∀ value, place = some value → ∃ x, held = some x ∧
      Json.Nullable (Json.Spelled R) value x) ∧ (place = none → held = none)) :
    Json.Supplies R place (held.getD none) := by
  cases place with
  | none =>
    rw [h.2 rfl]
    exact .missing
  | some value =>
    obtain ⟨x, rfl, hx⟩ := h.1 value rfl
    cases hx with
    | null => exact .null
    | given hx =>
      obtain ⟨hx⟩ := hx
      exact .text hx

/-- Every field is known and well formed. -/
structure Admissible (fields : List (String × Json)) : Prop where
  known : ∀ key ∈ fields.map Prod.fst, key ∈ ["selector", "bindToTrait", "messageTemplate"]
  selector : ∃ text, Json.field? fields "selector" = some (.string text) ∧
    (Text.trim text = "*" ∨ ∃ kind : Kind, Text.trim text = kind.name)
  binding : Json.Optional ShapeId.Spells (Json.field? fields "bindToTrait")
  template : Json.Optional (fun text => ∃ template, Template.parse text = .ok template)
    (Json.field? fields "messageTemplate")

/-- The settings are those that the fields give. -/
structure GivenBy (fields : List (String × Json)) (settings : Settings) : Prop where
  selector : ∃ text, Json.field? fields "selector" = some (.string text) ∧
    settings.selector.text = Text.trim text
  binding : Json.Supplies (fun text id => id.text = text) (Json.field? fields "bindToTrait")
    settings.binding
  template : Json.Supplies (fun text template => Template.parse text = .ok template)
    (Json.field? fields "messageTemplate") settings.template

variable {fields : List (String × Json)} {settings : Settings}

section Places

open RecordFormat (gather_place)

variable {room : Nat} {drafts : List (Option String × List Char × Draft)} {final : Fields}

theorem selector_place (hheld : Draft.HoldFields drafts fields) (hkeys : DistinctKeys fields)
    (h : format.gather (Fields.put room) [] ⟨none, none, none⟩ drafts = .ok final) :
    (∀ value, Json.field? fields "selector" = some value → ∃ selector,
      final.selector = some selector ∧
        Json.Spelled (fun text selector => selector.text = Text.trim text) value selector) ∧
      (Json.field? fields "selector" = none → final.selector = none) := by
  refine gather_place "selector" Fields.selector (put_stores room) ?_ (by simp [format]) hheld
    hkeys h
  rintro key value _ (⟨rfl, h⟩ | ⟨rfl, -⟩ | ⟨rfl, -⟩)
  · exact .inl ⟨rfl, _, h, fun _ => rfl⟩
  · exact .inr ⟨by decide, fun _ => rfl⟩
  · exact .inr ⟨by decide, fun _ => rfl⟩

theorem binding_place (hheld : Draft.HoldFields drafts fields) (hkeys : DistinctKeys fields)
    (h : format.gather (Fields.put room) [] ⟨none, none, none⟩ drafts = .ok final) :
    Json.Supplies (fun text id => id.text = text) (Json.field? fields "bindToTrait")
      (final.binding.getD none) := by
  refine supplies_of_place (gather_place "bindToTrait" Fields.binding (put_stores room) ?_
    (by simp [format]) hheld hkeys h)
  rintro key value _ (⟨rfl, -⟩ | ⟨rfl, h⟩ | ⟨rfl, -⟩)
  · exact .inr ⟨by decide, fun _ => rfl⟩
  · exact .inl ⟨rfl, _, h, fun _ => rfl⟩
  · exact .inr ⟨by decide, fun _ => rfl⟩

theorem template_place (hheld : Draft.HoldFields drafts fields) (hkeys : DistinctKeys fields)
    (h : format.gather (Fields.put room) [] ⟨none, none, none⟩ drafts = .ok final) :
    Json.Supplies (fun text template => Template.parse text = .ok template)
      (Json.field? fields "messageTemplate") (final.template.getD none) := by
  refine supplies_of_place (gather_place "messageTemplate" Fields.template (put_stores room) ?_
    (by simp [format]) hheld hkeys h)
  rintro key value _ (⟨rfl, -⟩ | ⟨rfl, -⟩ | ⟨rfl, h⟩)
  · exact .inr ⟨by decide, fun _ => rfl⟩
  · exact .inr ⟨by decide, fun _ => rfl⟩
  · exact .inl ⟨rfl, _, h, fun _ => rfl⟩

end Places

theorem Admissible.puts (h : Admissible fields) (hkeys : DistinctKeys fields)
    {field : String × Json} (hfield : field ∈ fields) :
    field.1 ∈ format.fields ∧ ∃ store, Puts field.1 field.2 store := by
  obtain ⟨key, value⟩ := field
  have hknown := h.known key (List.mem_map_of_mem hfield)
  have hplace : Json.field? fields key = some value := Json.field?_of_mem hkeys hfield
  refine ⟨hknown, ?_⟩
  simp only [List.mem_cons, List.not_mem_nil, or_false] at hknown
  rcases hknown with rfl | rfl | rfl
  · obtain ⟨text, htext, hselector⟩ := h.selector
    obtain ⟨selector, hselector⟩ := KindSelector.exists_text_iff.mpr hselector
    rw [hplace, Option.some.injEq] at htext
    subst htext
    exact ⟨_, .selector rfl (.text hselector)⟩
  · have hbinding := h.binding
    rw [hplace] at hbinding
    obtain ⟨binding, hbinding⟩ := hbinding.exists_nullable fun _ => ShapeId.exists_text_iff.mpr
    exact ⟨_, .binding rfl hbinding⟩
  · have htemplate := h.template
    rw [hplace] at htemplate
    obtain ⟨template, htemplate⟩ := htemplate.exists_nullable fun _ => id
    exact ⟨_, .template rfl htemplate⟩

theorem GivenBy.admissible (h : GivenBy fields settings)
    (hknown : ∀ field ∈ fields, field.1 ∈ format.fields) : Admissible fields where
  known := List.forall_mem_map.mpr hknown
  selector := by
    obtain ⟨text, hplace, htext⟩ := h.selector
    exact ⟨text, hplace, KindSelector.exists_text_iff.mp ⟨_, htext⟩⟩
  binding := h.binding.optional fun _ id hid => ShapeId.exists_text_iff.mp ⟨id, hid⟩
  template := h.template.optional fun _ template htemplate => ⟨template, htemplate⟩

theorem given_of_gather {room : Nat} {drafts : List (Option String × List Char × Draft)}
    {final : Fields} {selector : KindSelector} (hheld : Draft.HoldFields drafts fields)
    (hkeys : DistinctKeys fields)
    (h : format.gather (Fields.put room) [] ⟨none, none, none⟩ drafts = .ok final)
    (hselector : final.selector = some selector) :
    GivenBy fields ⟨selector, final.binding.getD none, final.template.getD none⟩ := by
  obtain ⟨hgiven, hmissing⟩ := selector_place hheld hkeys h
  refine ⟨?_, binding_place hheld hkeys h, template_place hheld hkeys h⟩
  cases hplace : Json.field? fields "selector" with
  | none =>
    rw [hmissing hplace] at hselector
    cases hselector
  | some value =>
    obtain ⟨found, hfound, htext⟩ := hgiven value hplace
    rw [hselector, Option.some.injEq] at hfound
    subst hfound
    obtain ⟨htext⟩ := htext
    exact ⟨_, rfl, htext⟩

/-- An object with different keys is decoded just when it is admissible, and what is decoded is what
its fields give. -/
theorem ofJson_object (hkeys : DistinctKeys fields) :
    ((∃ settings, ofJson (.object fields) = .ok settings) ↔ Admissible fields) ∧
      ∀ settings, ofJson (.object fields) = .ok settings → GivenBy fields settings := by
  obtain ⟨drafts, hheld, hdecoder⟩ := RecordFormat.exists_fields_of_decoder _ _ _ 126
    (Draft.holds_ofJson (.object fields))
  have hgathers : (∃ final, format.gather (Fields.put 126) [] ⟨none, none, none⟩ drafts =
      .ok final) ↔ _ :=
    RecordFormat.exists_gather_iff (put_stores 126) rfl hheld hkeys (by simp)
  have hgiven (settings : Settings) (h : ofJson (.object fields) = .ok settings) :
      GivenBy fields settings ∧ ∀ field ∈ fields, field.1 ∈ format.fields := by
    obtain ⟨final, hgather, hfinish⟩ := (hdecoder settings).mp (Json.decode_eq_ok.mp h)
    obtain ⟨selector, hselector, hfinish⟩ := bind_eq_ok.mp hfinish
    cases hfinish
    refine ⟨given_of_gather hheld hkeys hgather (RecordFormat.required_eq_ok.mp hselector), ?_⟩
    exact fun field hfield => (hgathers.mp ⟨final, hgather⟩ field hfield).1
  refine ⟨⟨?_, fun h => ?_⟩, fun settings h => (hgiven settings h).1⟩
  · rintro ⟨settings, h⟩
    obtain ⟨hsettings, hknown⟩ := hgiven settings h
    exact hsettings.admissible hknown
  · obtain ⟨final, hgather⟩ := hgathers.mpr fun field hfield => h.puts hkeys hfield
    obtain ⟨text, hplace, -⟩ := h.selector
    obtain ⟨selector, hselector, -⟩ := (selector_place hheld hkeys hgather).1 _ hplace
    refine ⟨⟨selector, final.binding.getD none, final.template.getD none⟩, ?_⟩
    refine Json.decode_eq_ok.mpr ((hdecoder _).mpr ⟨final, hgather, ?_⟩)
    rw [RecordFormat.required_eq_ok.mpr hselector]
    rfl

end Settings

namespace Definition

/-- A definition of another kind is refused by its name. Of the known kind and with an object as its
settings it makes a validator just when every field of the object is known and well formed, and that
validator is the one with the selector, the trait and the template that the fields give. -/
theorem toValidator_checked (definition : Definition) :
    (definition.name ≠ Validator.name →
      definition.toValidator = .error (.unknownValidator definition.name)) ∧
    (definition.name = Validator.name → ∀ fields, definition.configuration = .object fields →
      DistinctKeys fields →
      ((∃ validator, definition.toValidator = .ok validator) ↔ Settings.Admissible fields) ∧
      ∀ validator, definition.toValidator = .ok validator →
        ∃ settings, Settings.GivenBy fields settings ∧
          validator =
            { Validator.ofSelection settings.selector.selection with
              id := definition.id.getD definition.name
              severity := definition.severity.getD .danger
              binding := settings.binding
              template := settings.template }) := by
  refine ⟨fun hname => if_neg hname, fun hname fields hconfiguration hkeys => ?_⟩
  obtain ⟨haccepted, hgiven⟩ := Settings.ofJson_object hkeys
  have hmakes (validator : Validator) : definition.toValidator = .ok validator ↔ ∃ settings,
      Settings.ofJson (.object fields) = .ok settings ∧
        definition.validatorOf settings = validator := by
    rw [← hconfiguration]
    exact makes_iff.trans (and_iff_right hname)
  constructor
  · rw [← haccepted]
    constructor
    · rintro ⟨validator, h⟩
      obtain ⟨settings, hsettings, -⟩ := (hmakes validator).mp h
      exact ⟨settings, hsettings⟩
    · rintro ⟨settings, hsettings⟩
      exact ⟨_, (hmakes _).mpr ⟨settings, hsettings, rfl⟩⟩
  · intro validator h
    obtain ⟨settings, hsettings, rfl⟩ := (hmakes validator).mp h
    exact ⟨settings, hgiven settings hsettings, rfl⟩

/-- White space around the name of a kind is no fault, but a misspelt key is. -/
theorem toValidator_checked_spelling :
    let settings : List (String × Json) := [("selector", .string " structure\n"),
      ("bindToTrait", .null), ("messageTemplate", .string "Shape @\x7bid\x7d")]
    let known : Definition := ⟨"EmitEachSelector", some "Records", none, .object settings⟩
    let misspelt : Definition :=
      ⟨"EmitEachSelector", none, none, .object (("bindtotrait", .null) :: settings)⟩
    let unknown : Definition := ⟨"EmitSelector", none, none, .object settings⟩
    (∃ validator, known.toValidator = .ok validator) ∧
      (¬ ∃ validator, misspelt.toValidator = .ok validator) ∧
      unknown.toValidator = .error (.unknownValidator "EmitSelector") := by
  intro settings known misspelt unknown
  have htemplate : ∃ template, Template.parse "Shape @\x7bid\x7d" = .ok template := by
    have hencode : Template.encode [.literal "Shape ", .computed ⟨[.key "id"]⟩] =
        "Shape @\x7bid\x7d" := by decide
    rw [← hencode]
    exact ⟨_, Template.parse_encode ⟨by decide, by decide⟩⟩
  refine ⟨?_, ?_, (toValidator_checked unknown).1 (by decide)⟩
  · refine ((toValidator_checked known).2 rfl _ rfl (by simp [DistinctKeys, settings])).1.mpr ?_
    exact {
      known := by decide
      selector := ⟨_, rfl, .inr ⟨.record, by decide⟩⟩
      binding := .null
      template := .text htemplate }
  · rw [((toValidator_checked misspelt).2 rfl _ rfl (by simp [DistinctKeys, settings])).1]
    intro h
    exact absurd (h.known "bindtotrait" List.mem_cons_self) (by decide)

end Definition

/-! ### Settings that are written again -/

namespace Template

/-- The template is the one that its own source is read as. -/
def Sourced (template : Template) : Prop := parse template.source = .ok template

theorem decoder_gives : decoder.Gives Sourced := by
  intro room draft template h
  obtain ⟨text, -, h⟩ := bind_eq_ok.mp h
  have hparse := mapError_eq_ok.mp h
  rw [Sourced, source_of_parse hparse, hparse]

end Template

theorem Json.nullable_ofOption {α : Type} {R : String → α → Prop} {text : α → String}
    {given : Option α} (h : ∀ x ∈ given, R (text x) x) :
    Json.Nullable (Json.Spelled R) (.ofOption (given.map text)) given := by
  cases given with
  | none => exact .null
  | some x => exact .given (.text (h x rfl))

namespace Settings

variable {settings : Settings}

theorem decoder_gives : decoder.Gives fun settings =>
    ∀ template ∈ settings.template, template.Sourced := by
  refine RecordFormat.decoder_gives
    (Q := fun fields : Fields => ∀ template ∈ fields.template.getD none, template.Sourced)
    (by simp) ?_ ?_
  · intro room name draft known next hknown h
    unfold Fields.put at h
    split at h
    · obtain ⟨x, -, h⟩ := bind_eq_ok.mp h
      cases h
      exact hknown
    · obtain ⟨x, -, h⟩ := bind_eq_ok.mp h
      cases h
      exact hknown
    · obtain ⟨template, htemplate, h⟩ := bind_eq_ok.mp h
      cases h
      exact Template.decoder_gives.optional room draft template htemplate
    · cases h
      exact hknown
  · intro style known settings hknown h
    obtain ⟨selector, -, h⟩ := bind_eq_ok.mp h
    cases h
    exact hknown

theorem exact_toJson (settings : Settings) : settings.toJson.Exact := by
  have hnullable (given : Option String) : (Json.ofOption given).Exact := by
    cases given with
    | none => exact .null
    | some text => exact .string text
  refine .object ?_
  simp only [List.forall_mem_cons]
  exact ⟨.string _, hnullable _, hnullable _, List.forall_mem_nil _⟩

theorem decoder_toJson (h : ∀ template ∈ settings.template, template.Sourced) {room : Nat}
    {draft : Draft} (hdraft : draft.Holds settings.toJson) :
    decoder (room + 1) draft = .ok settings := by
  have hgathers : Gathers (Fields.put room) ⟨none, none, none⟩
      [("selector", .string settings.selector.text),
        ("bindToTrait", .ofOption (settings.binding.map ShapeId.text)),
        ("messageTemplate", .ofOption (settings.template.map Template.source))]
      ⟨some settings.selector, some settings.binding, some settings.template⟩ := by
    have hselector := KindSelector.decoder_denotes.reads (.text settings.selector.trim_text.symm)
    have hbinding := ShapeId.optional_decoder_denotes.reads (x := settings.binding)
      (Json.nullable_ofOption fun _ _ => rfl)
    have htemplate := Template.optional_decoder_denotes.reads (Json.nullable_ofOption h)
    refine .field (fun _ => rfl) (hselector room) ?_
    refine .field (fun _ => rfl) (hbinding room) ?_
    exact .field (fun _ => rfl) (htemplate room) .nil
  exact hgathers.decoder hdraft (by simp [DistinctKeys]) (by simp [format]) rfl

/-- Settings that were decoded are decoded again from what is written for them, as a value and as a
text. A definition with the settings written again makes the same validator. -/
theorem written_again (settings : Settings)
    (h : (∃ value, ofJson value = .ok settings) ∨ ∃ text, parse text = .ok settings) :
    ofJson settings.toJson = .ok settings ∧ parse settings.toJson.compact = .ok settings ∧
      ∀ definition : Definition, definition.name = Validator.name →
        ofJson definition.configuration = .ok settings → ∃ validator,
          definition.toValidator = .ok validator ∧
            { definition with configuration := settings.toJson }.toValidator = .ok validator := by
  have hsourced : ∀ template ∈ settings.template, template.Sourced := by
    rcases h with ⟨value, h⟩ | ⟨text, h⟩
    · exact decoder_gives _ _ settings (Json.decode_eq_ok.mp h)
    · exact Json.decodeText_gives decoder_gives h
  have hvalue : ofJson settings.toJson = .ok settings :=
    Json.decode_eq_ok.mpr (decoder_toJson hsourced (Draft.holds_ofJson _))
  have htext : parse settings.toJson.compact = .ok settings :=
    Json.decodeText_compact settings.exact_toJson fun _ => decoder_toJson hsourced
  refine ⟨hvalue, htext, ?_⟩
  intro definition hname hdecoded
  refine ⟨definition.validatorOf settings, ?_, ?_⟩
  · exact Definition.makes_iff.mpr ⟨hname, settings, hdecoded, rfl⟩
  · exact Definition.makes_iff.mpr ⟨hname, settings, hvalue, rfl⟩

/-- The name of a kind with white space around it is written again without it, and a field that is
missing as null. -/
theorem written_again_padded :
    let template : Template := ⟨"Shape @\x7bid\x7d", [.literal "Shape ", .computed ⟨[.key "id"]⟩]⟩
    let value : Json := .object [("messageTemplate", .string template.source),
      ("selector", .string " structure\n")]
    let settings : Settings := ⟨⟨some .record⟩, none, some template⟩
    ofJson value = .ok settings ∧ settings.toJson = .object [("selector", .string "structure"),
        ("bindToTrait", .null), ("messageTemplate", .string template.source)] ∧
      ofJson settings.toJson = .ok settings := by
  intro template value settings
  have htemplate : Template.parse template.source = .ok template := by
    have hencode : Template.encode template.fragments = template.source := by decide
    rw [← hencode]
    exact Template.parse_encode ⟨by decide, by decide⟩
  have hgathers : Gathers (Fields.put 126) ⟨none, none, none⟩
      [("messageTemplate", .string template.source), ("selector", .string " structure\n")]
      ⟨some ⟨some .record⟩, none, some (some template)⟩ := by
    have hselector : KindSelector.text ⟨some .record⟩ = Text.trim " structure\n" := by decide
    refine .field (fun _ => rfl) (Template.optional_decoder_denotes.reads (x := some template)
      (.given (.text htemplate)) 126) ?_
    exact .field (fun _ => rfl) (KindSelector.decoder_denotes.reads (.text hselector) 126) .nil
  have hvalue : ofJson value = .ok settings := Json.decode_eq_ok.mpr
    (hgathers.decoder (Draft.holds_ofJson _) (by simp [DistinctKeys]) (by simp [format]) rfl)
  exact ⟨hvalue, rfl, (written_again settings (.inl ⟨value, hvalue⟩)).1⟩

end Settings

end ShapeRules
