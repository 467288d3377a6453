import ShapeRules.Event
import ShapeRules.Proofs.Json.Records
import ShapeRules.Proofs.ShapeId

/-!
Events in JSON. An event is read back from the text that is written for it, and the text names a
shape just when the event has one.
-/

namespace ShapeRules

open Fallible
open Keyed (DistinctKeys)
open RecordFormat (Gathers)

theorem Severity.decoder_name {room : Nat} {draft : Draft} {severity : Severity}
    (h : draft.Holds (.string severity.name)) : decoder room draft = .ok severity := by
  cases h
  rw [decoder, ofName?_name]

theorem ShapeId.optional_decoder_denotes :
    (Decoder.optional decoder).Denotes
      (Json.Nullable (Json.Spelled fun text id => id.text = text)) :=
  (Decoder.parsed_denotes fun _ _ => parse_eq_ok_iff).optional nofun

namespace SourceLocation

variable (location : SourceLocation)

theorem legible_toJson (room : Nat) : location.toJson.Legible (room + 1) := by
  refine .object (by simp [DistinctKeys]) ?_
  simp only [List.forall_mem_cons]
  exact ⟨.string _, .word _, .word _, List.forall_mem_nil _⟩

theorem decoder_toJson {room : Nat} {draft : Draft} (h : draft.Holds location.toJson) :
    decoder (room + 1) draft = .ok location := by
  have hgathers : Gathers (Fields.put room) ⟨none, none, none⟩
      [("filename", .string location.filename),
        ("line", .number (.integer location.line.toNat)),
        ("column", .number (.integer location.column.toNat))]
      ⟨some location.filename, some location.line, some location.column⟩ := by
    refine .field (fun _ => rfl) (Decoder.string_denotes.reads rfl room) ?_
    refine .field (fun _ => rfl) (Decoder.word_denotes.reads rfl room) ?_
    exact .field (fun _ => rfl) (Decoder.word_denotes.reads rfl room) .nil
  exact hgathers.decoder h (by simp [DistinctKeys]) (by simp [format]) rfl

end SourceLocation

namespace Event

variable (event : Event)

theorem legible_toJson : event.toJson.Legible Draft.deepest := by
  rw [toJson]
  refine .object ?_ ?_
  · cases event.shape <;> simp [DistinctKeys]
  · have hlocation := event.location.legible_toJson 125
    simp only [List.forall_mem_append, List.forall_mem_cons]
    refine ⟨⟨⟨.string _, .string _, List.forall_mem_nil _⟩, ?_⟩, hlocation, .string _,
      List.forall_mem_nil _⟩
    cases event.shape with
    | none => exact List.forall_mem_nil _
    | some id => exact List.forall_mem_singleton.mpr (.string id.text)

section

variable (id : String) (severity : Severity) (location : SourceLocation) (message : String)
  (room : Nat)

private theorem gathers_front {behind : List (String × Json)} {final : Fields}
    (h : Gathers (Fields.put room) ⟨some id, some severity, none, none, none⟩ behind final) :
    Gathers (Fields.put room) ⟨none, none, none, none, none⟩
      (("id", .string id) :: ("severity", .string severity.name) :: behind) final := by
  refine .field (fun _ => rfl) (Decoder.string_denotes.reads rfl _) ?_
  exact .field (fun _ => rfl) (fun draft hdraft => Severity.decoder_name hdraft) h

private theorem gathers_behind (shape : Option (Option ShapeId)) :
    Gathers (Fields.put (room + 1)) ⟨some id, some severity, shape, none, none⟩
      [("sourceLocation", location.toJson), ("message", .string message)]
      ⟨some id, some severity, shape, some location, some message⟩ := by
  refine .field (fun _ => rfl) (fun draft hdraft => location.decoder_toJson hdraft) ?_
  exact .field (fun _ => rfl) (Decoder.string_denotes.reads rfl _) .nil

end

/-- An event is decoded from its JSON form, with the shape that it has or without one. -/
theorem decoder_toJson {room : Nat} {draft : Draft} (h : draft.Holds event.toJson) :
    decoder (room + 2) draft = .ok event := by
  obtain ⟨id, severity, shape, location, message⟩ := event
  cases shape with
  | none =>
    have hbehind := gathers_behind id severity location message room none
    have hgathers := gathers_front id severity _ hbehind
    exact hgathers.decoder h (by simp [DistinctKeys]) (by simp [format]) rfl
  | some shape =>
    have hshape := ShapeId.optional_decoder_denotes.reads (x := some shape) (.given (.text rfl))
    have hbehind : Gathers (Fields.put (room + 1)) ⟨some id, some severity, none, none, none⟩
        (("shapeId", .string shape.text) :: _) _ :=
      .field (fun _ => rfl) (hshape _) (gathers_behind id severity location message room _)
    have hgathers := gathers_front id severity _ hbehind
    exact hgathers.decoder h (by simp [DistinctKeys]) (by simp [format]) rfl

/-- An event is read back from its text, in which the key of the shape stands just when the event
has one. -/
theorem parse_written : parse event.toJson.compact = .ok event ∧
    ∃ fields, Json.parse event.toJson.compact = .ok (.object fields) ∧
      ("shapeId" ∈ fields.map Prod.fst ↔ ∃ id, event.shape = some id) := by
  have hlegible := event.legible_toJson
  refine ⟨Json.decodeText_compact hlegible.numbers fun _ h => event.decoder_toJson h, ?_⟩
  refine ⟨_, Json.parse_compact hlegible, ?_⟩
  cases event.shape <;> simp

end Event

end ShapeRules
