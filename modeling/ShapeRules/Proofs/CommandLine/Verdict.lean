import Mathlib
import ShapeRules.CommandLine.Outcome
import ShapeRules.Proofs.Configuration
import ShapeRules.Proofs.Text.Run

/-!
The verdict of a validation. A run fails exactly if a definition of a failing severity finds a shape
to report, and both formats of the output tell so, as the code does.
-/

namespace ShapeRules

open Fallible

theorem Severity.isFailure_iff {severity : Severity} :
    severity.isFailure = true ↔ severity = .danger ∨ severity = .error := by
  cases severity <;> decide

theorem KindSelector.mem_select_iff {selector : KindSelector} {model : Model} {found : Match} :
    found ∈ selector.select model ↔
      ∃ shape ∈ model.allShapes, (∀ kind ∈ selector.kind, shape.kind = kind) ∧
        found = ⟨shape.id, []⟩ := by
  have hadmits (shape : Shape) :
      selector.admits shape = true ↔ ∀ kind ∈ selector.kind, shape.kind = kind := by
    rw [admits]
    split <;> simp [*]
  simp only [select, List.mem_map, List.mem_filter, hadmits, and_assoc, eq_comm]

namespace Definition

/-- The definition's events fail a run. Their severity is danger unless another is given. -/
def Failing (definition : Definition) : Prop :=
  definition.severity ∈ [none, some .danger, some .error]

instance (definition : Definition) : Decidable definition.Failing :=
  inferInstanceAs (Decidable (definition.severity ∈ [none, some .danger, some .error]))

/-- The definition selects a shape of the model that can be reported. -/
def Finds (definition : Definition) (model : Model) : Prop :=
  ∃ settings, Settings.ofJson definition.configuration = .ok settings ∧
    ∃ shape ∈ model.allShapes, (∀ kind ∈ settings.selector.kind, shape.kind = kind) ∧
      model.Reportable settings.binding shape.id

variable {definition : Definition} {validator : Validator} {model : Model}

theorem failing_iff :
    definition.Failing ↔ (definition.severity.getD .danger).isFailure = true := by
  rw [Failing, Severity.isFailure_iff]
  cases definition.severity <;> simp

theorem Makes.finds_iff (h : definition.Makes validator) :
    definition.Finds model ↔ ∃ event, event ∈ validator.validate model := by
  obtain ⟨-, settings, hsettings, rfl⟩ := makes_iff.mp h
  constructor
  · rintro ⟨other, hother, shape, hshape, hkind, hreportable⟩
    obtain rfl : settings = other := Except.ok.inj (hsettings.symm.trans hother)
    have hfound : ⟨shape.id, []⟩ ∈ settings.selector.select model :=
      KindSelector.mem_select_iff.mpr ⟨shape, hshape, hkind, rfl⟩
    obtain ⟨event, hevent, -⟩ :=
      (definition.validatorOf settings).exists_event_of_reportable hfound hreportable
    exact ⟨event, hevent⟩
  · rintro ⟨event, hevent⟩
    obtain ⟨found, hfound, hreport⟩ := Validator.mem_validate_iff.mp hevent
    obtain ⟨shape, hshape, hkind, rfl⟩ := KindSelector.mem_select_iff.mp hfound
    exact ⟨settings, hsettings, shape, hshape, hkind,
      Validator.exists_reports_iff.mp ⟨event, hreport⟩⟩

end Definition

/-- There is an event that fails a run exactly if a failing definition finds something. -/
theorem Configuration.exists_failure_iff {configuration : Configuration}
    {validators : List Validator} (h : configuration.validators = .ok validators) (model : Model) :
    (∃ event ∈ model.validate validators, event.severity.isFailure = true) ↔
      ∃ definition ∈ configuration.definitions, definition.Failing ∧ definition.Finds model := by
  obtain ⟨hmakes, -, -⟩ := build_eq_ok_iff.mp h
  constructor
  · rintro ⟨event, hevent, hfailure⟩
    obtain ⟨validator, hvalidator, hevent⟩ := List.mem_flatMap.mp hevent
    obtain ⟨definition, hdefinition, hmake⟩ := Aligned.exists_of_mem_right hmakes hvalidator
    rw [(hmake.signs hevent).severity] at hfailure
    exact ⟨definition, hdefinition, Definition.failing_iff.mpr hfailure,
      hmake.finds_iff.mpr ⟨event, hevent⟩⟩
  · rintro ⟨definition, hdefinition, hfailing, hfinds⟩
    obtain ⟨validator, hvalidator, hmake⟩ := Aligned.exists_of_mem_left hmakes hdefinition
    obtain ⟨event, hevent⟩ := hmake.finds_iff.mp hfinds
    refine ⟨event, List.mem_flatMap.mpr ⟨validator, hvalidator, hevent⟩, ?_⟩
    rw [(hmake.signs hevent).severity]
    exact Definition.failing_iff.mp hfailing

namespace CommandLine

/-- The last line of a text. -/
def lastLine (text : String) : List Char := text.toList.rtakeWhile (· ≠ '\n')

theorem lastLine_of_not_mem {line : String} (h : '\n' ∉ line.toList) :
    lastLine line = line.toList := by
  refine List.rtakeWhile_eq_self_iff.mpr fun c hc => ?_
  exact decide_eq_true fun hbreak => h (hbreak ▸ hc)

theorem lastLine_append (front : String) {line : String} (h : '\n' ∉ line.toList) :
    lastLine (front ++ "\n" ++ line) = line.toList := by
  have hrun : ∀ c ∈ line.toList.reverse, decide (c ≠ '\n') = true := by
    intro c hc
    exact decide_eq_true fun hbreak => h (hbreak ▸ List.mem_reverse.mp hc)
  have hstops : Text.Stops (· ≠ '\n') ('\n' :: front.toList.reverse) := by simp
  rw [lastLine, String.toList_append, String.toList_append, List.rtakeWhile, List.reverse_append,
    List.reverse_append]
  rw [show "\n".toList.reverse ++ front.toList.reverse = '\n' :: front.toList.reverse from rfl,
    Text.takeWhile_run hrun hstops, List.reverse_reverse]

/-- The output tells whether the run passed: a text by its last line, which begins with OK just if
the run did, and an object by its only field of the name "valid". -/
def OutputFormat.Shows (format : OutputFormat) (passed : Bool) (output : String) : Prop :=
  match format with
  | .text => ∃ text, output = text ++ "\n" ∧ ("OK".toList <+: lastLine text ↔ passed = true)
  | .json => ∃ others, output = (Json.object (("valid", .bool passed) :: others)).pretty ++ "\n" ∧
      "valid" ∉ others.map Prod.fst

theorem pretty_valid_inj {passed passed' : Bool} {others others' : List (String × Json)}
    (h : (Json.object (("valid", .bool passed) :: others)).pretty =
      (Json.object (("valid", .bool passed') :: others')).pretty) : passed = passed' := by
  have htexts := String.ofList_injective h
  rw [Json.prettyText, Json.prettyText] at htexts
  -- The texts agree up to the value of the first field, and that begins with its own letter.
  simp only [List.append_assoc, List.cons_append, List.cons.injEq, List.append_cancel_left_eq,
    true_and] at htexts
  cases passed <;> cases passed' <;> simp_all [Json.prettyText, Json.compactText]

/-- No output shows both verdicts. -/
theorem OutputFormat.Shows.unique {format : OutputFormat} {passed passed' : Bool} {output : String}
    (h : format.Shows passed output) (h' : format.Shows passed' output) : passed = passed' := by
  cases format with
  | text =>
    obtain ⟨text, rfl, hline⟩ := h
    obtain ⟨text', htext, hline'⟩ := h'
    obtain rfl : text = text' := (String.append_left_inj _).mp htext
    exact Bool.eq_iff_iff.mpr (hline.symm.trans hline')
  | json =>
    obtain ⟨others, rfl, -⟩ := h
    obtain ⟨others', hobject, -⟩ := h'
    exact pretty_valid_inj ((String.append_left_inj _).mp hobject)

namespace Report

variable (report : Report)

theorem passed_iff :
    report.passed = true ↔ ¬ ∃ event ∈ report.events, event.severity.isFailure = true := by
  rw [passed, Bool.not_eq_true', ← Bool.not_eq_true, List.any_eq_true]

theorem newLine_not_mem_digits (n : Nat) : '\n' ∉ (toString n).toList := by
  have hdigits : (toString n).toList = Nat.toDigits 10 n := String.toList_ofList
  rw [hdigits]
  intro h
  exact absurd (Nat.isDigit_of_mem_toDigits (by decide) (by decide) h) (by decide)

theorem newLine_not_mem_summary : '\n' ∉ report.summary.toList := by
  rw [summary]
  cases report.passed <;> simp [-Nat.toString_eq_repr, newLine_not_mem_digits] <;> decide

theorem summary_starts_iff : "OK".toList <+: report.summary.toList ↔ report.passed = true := by
  rw [summary]
  cases report.passed <;> simp

theorem lastLine_text : lastLine report.text = report.summary.toList := by
  rw [text]
  by_cases hevents : report.events.map Event.text = []
  · rw [hevents, List.nil_append, String.intercalate_singleton]
    exact lastLine_of_not_mem report.newLine_not_mem_summary
  · rw [String.intercalate_append_of_ne_nil hevents (List.cons_ne_nil _ _),
      String.intercalate_singleton]
    exact lastLine_append _ report.newLine_not_mem_summary

theorem text_shows : OutputFormat.text.Shows report.passed (report.text ++ "\n") :=
  ⟨report.text, rfl, report.lastLine_text ▸ report.summary_starts_iff⟩

theorem json_shows : OutputFormat.json.Shows report.passed (report.toJson.pretty ++ "\n") :=
  ⟨[("validators", .number (.integer report.validators)),
    ("events", .array (report.events.map Event.toJson))], rfl, by simp⟩

end Report

variable {decode : Configuration.YamlDecoder} {read : FileReader}
  {environment configurationPath : Option String} {modelPath : String}
  {arguments : List String} {format : OutputFormat} {model : Model} {configuration : Configuration}
  {validators : List Validator}

/-- A validation whose files load ends with its report, whatever the format. -/
theorem answer_validate
    (hrequest : Request.read arguments =
      some (.run (.validate modelPath configurationPath) format))
    (hmodel : Model.load (read modelPath) modelPath = .ok model)
    (hconfiguration : Configuration.loadWith decode read
      (configurationPath.getD (Configuration.pathFrom environment)) = .ok configuration)
    (hvalidators : configuration.validators = .ok validators) :
    let report : Report := ⟨model.shapes.length, validators.length, model.validate validators⟩
    let outcome := answerWith decode read environment arguments
    outcome.code = (if report.passed then 0 else 1) ∧
      format.Shows report.passed outcome.output := by
  intro report
  have hloaded : loadModel read modelPath = .ok model := mapError_eq_ok.mpr hmodel
  have hmade : loadValidators decode read
      (configurationPath.getD (Configuration.pathFrom environment)) = .ok validators :=
    bind_eq_ok.mpr
      ⟨configuration, mapError_eq_ok.mpr hconfiguration, mapError_eq_ok.mpr hvalidators⟩
  rw [answerWith, hrequest]
  dsimp only
  rw [Request.answer, Command.perform, hloaded, hmade]
  refine ⟨rfl, ?_⟩
  cases format with
  | text => exact report.text_shows
  | json => exact report.json_shows

/-- However YAML texts are decoded, a validation whose files load ends with the code 0 exactly if no
definition of severity danger or error, where none means danger, selects a shape that the model has
with the trait that the definition binds. The format does not matter for the code, and the output
tells the same. -/
theorem validate_verdict
    (hrequest : Request.read arguments =
      some (.run (.validate modelPath configurationPath) format))
    (hmodel : Model.load (read modelPath) modelPath = .ok model)
    (hconfiguration : Configuration.loadWith decode read
      (configurationPath.getD (Configuration.pathFrom environment)) = .ok configuration)
    (hvalidators : configuration.validators = .ok validators) :
    let outcome := answerWith decode read environment arguments
    (outcome.code = 0 ↔
      ¬ ∃ definition ∈ configuration.definitions,
        definition.Failing ∧ definition.Finds model) ∧
    (∀ others format',
      Request.read others = some (.run (.validate modelPath configurationPath) format') →
        (answerWith decode read environment others).code = outcome.code) ∧
    ∀ passed, format.Shows passed outcome.output ↔ (passed = true ↔ outcome.code = 0) := by
  intro outcome
  let report : Report := ⟨model.shapes.length, validators.length, model.validate validators⟩
  have houtcome : outcome.code = (if report.passed then 0 else 1) ∧
      format.Shows report.passed outcome.output :=
    answer_validate hrequest hmodel hconfiguration hvalidators
  obtain ⟨hcode, hshows⟩ := houtcome
  have hpassed : outcome.code = 0 ↔ report.passed = true := by
    rw [hcode]
    split <;> simp [*]
  refine ⟨?_, ?_, ?_⟩
  · rw [hpassed, Report.passed_iff]
    exact not_congr (Configuration.exists_failure_iff hvalidators model)
  · intro others format' hothers
    rw [hcode, (answer_validate hothers hmodel hconfiguration hvalidators).1]
  · intro passed
    constructor
    · intro h
      rw [h.unique hshows, hpassed]
    · intro h
      rwa [Bool.eq_iff_iff.mpr (h.trans hpassed)]

/-- A validator of the shapes that have some trait. No severity is given. -/
def boundText : String :=
  "\x7b\"version\": \"1\", \"validators\": [\x7b\"name\": \"EmitEachSelector\",
    \"configuration\": \x7b\"selector\": \"*\", \"bindToTrait\": \"a#mark\"\x7d\x7d]\x7d"

/-- The definition in the text. -/
def boundDefinition : Definition :=
  ⟨"EmitEachSelector", none, none,
    .object [("selector", .string "*"), ("bindToTrait", .string "a#mark")]⟩

/-- Two models of one shape, which has the trait in the second one only. -/
def boundFiles : FileReader :=
  .ofContents [("c.json", .ok boundText),
    ("m.json", .ok "\x7b\"shapes\": \x7b\"a#S\": \x7b\"type\": \"string\"\x7d\x7d\x7d"),
    ("n.json", .ok "\x7b\"shapes\": \x7b\"a#S\": \x7b\"type\": \"string\",
      \"traits\": \x7b\"a#mark\": true\x7d\x7d\x7d\x7d")]

theorem load_bound : Configuration.load boundFiles "c.json" = .ok ⟨"1", [boundDefinition]⟩ := by
  have hjson : Configuration.isJson "c.json" = true := by
    -- The loop that splits a path at its slashes does not reduce, so it is unfolded by hand.
    rw [Configuration.isJson, FileReader.extension?, FileReader.parts, String.splitOn,
      if_neg (by decide)]
    iterate 6 rw [String.splitOnAux, if_neg (by decide), if_neg (by decide)]
    rw [String.splitOnAux, if_pos (by decide)]
    decide
  have hdecode : Json.decodeText Configuration.decoder boundText =
      .ok ⟨"1", [boundDefinition]⟩ := by cbv
  have hparse : Configuration.parse Configuration.ofYaml? "c.json" boundText =
      .ok ⟨"1", [boundDefinition]⟩ := by
    rw [Configuration.parse, if_pos hjson]
    exact mapError_eq_ok.mpr hdecode
  exact bind_eq_ok.mpr ⟨boundText, rfl, bind_eq_ok.mpr ⟨_, hparse, rfl⟩⟩

/-- The run passes on the model without the trait and fails on the other one. -/
theorem validate_verdict_bound : ∃ (model model' : Model) (validators : List Validator),
    Model.load (boundFiles "m.json") "m.json" = .ok model ∧
    Model.load (boundFiles "n.json") "n.json" = .ok model' ∧
    Configuration.load boundFiles "c.json" = .ok ⟨"1", [boundDefinition]⟩ ∧
    Configuration.validators ⟨"1", [boundDefinition]⟩ = .ok validators ∧
    (answer boundFiles none ["validate", "-m", "m.json", "-c", "c.json"]).code = 0 ∧
    (answer boundFiles none ["-ojson", "validate", "-m", "n.json", "-c", "c.json"]).code ≠ 0 := by
  let mark : ShapeId := ⟨"a", "mark", none, rfl, rfl, nofun⟩
  obtain ⟨settings, hsettings, hbound⟩ :=
    exists_of_toOption_any (x := Settings.ofJson boundDefinition.configuration)
      (p := fun settings => settings.selector.kind = none ∧ settings.binding = some mark) (by cbv)
  obtain ⟨hkind, hbinding⟩ := of_decide_eq_true hbound
  obtain ⟨model, hmodel, hplain⟩ :=
    exists_of_toOption_any (x := Model.load (boundFiles "m.json") "m.json")
      (p := fun model => ∀ shape ∈ model.allShapes, shape.traitIds = []) (by cbv)
  obtain ⟨model', hmodel', hmarked⟩ :=
    exists_of_toOption_any (x := Model.load (boundFiles "n.json") "n.json")
      (p := fun model => ∃ shape ∈ model.allShapes, (model.find? shape.id).any
        fun found => found.traitIds = [mark]) (by cbv)
  have hvalidators : Configuration.validators ⟨"1", [boundDefinition]⟩ =
      .ok [boundDefinition.validatorOf settings] :=
    Configuration.build_eq_ok_iff.mpr
      ⟨.cons (Definition.makes_iff.mpr ⟨rfl, settings, hsettings, rfl⟩) .nil, by simp, by simp⟩
  have hfirst : Request.read ["validate", "-m", "m.json", "-c", "c.json"] =
      some (.run (.validate "m.json" (some "c.json")) .text) := by decide
  have hsecond : Request.read ["-ojson", "validate", "-m", "n.json", "-c", "c.json"] =
      some (.run (.validate "n.json" (some "c.json")) .json) := by decide
  refine ⟨model, model', _, hmodel, hmodel', load_bound, hvalidators, ?_, ?_⟩
  · refine (validate_verdict hfirst hmodel load_bound hvalidators).1.mpr ?_
    rintro ⟨definition, hdefinition, -, other, hother, shape, -, -, found, hfound, htrait⟩
    obtain rfl := List.mem_singleton.mp hdefinition
    obtain rfl : settings = other := Except.ok.inj (hsettings.symm.trans hother)
    have hmem := of_decide_eq_true hplain found (Model.mem_allShapes_of_find? hfound)
    have hmark := htrait mark hbinding
    rw [hmem] at hmark
    cases hmark
  · refine mt (validate_verdict hsecond hmodel' load_bound hvalidators).1.mp (not_not.mpr ?_)
    obtain ⟨shape, hshape, hany⟩ := of_decide_eq_true hmarked
    obtain ⟨found, hfound, htraits⟩ := (Option.any_eq_true _ _).mp hany
    refine ⟨boundDefinition, List.mem_singleton_self _, by decide, settings, hsettings, shape,
      hshape, by simp [hkind], found, hfound, ?_⟩
    rw [hbinding, of_decide_eq_true htraits]
    simp

end CommandLine

end ShapeRules
