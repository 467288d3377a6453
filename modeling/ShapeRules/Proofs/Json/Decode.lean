import ShapeRules.Json.Decode
import ShapeRules.Proofs.Fallible
import ShapeRules.Proofs.Json.Equality

/-!
What decoders promise of the values that they give. A table comes with different keys, a JSON value
with different keys in all its objects, and a record with what holds from its first field to its
last.
-/

namespace ShapeRules

open Fallible
open Keyed (DistinctKeys distinctKeys_nil)

/-- Every value that the decoder gives has the property. -/
def Decoder.Gives {α : Type} (decoder : Decoder α) (P : α → Prop) : Prop :=
  ∀ room draft value, decoder room draft = .ok value → P value

namespace Decoder

variable {α β : Type} {decoder : Decoder α} {P : α → Prop}

theorem Gives.optional (h : decoder.Gives P) :
    decoder.optional.Gives fun value => ∀ x ∈ value, P x := by
  intro room draft value hvalue
  unfold Decoder.optional at hvalue
  split at hvalue
  · cases hvalue
    simp
  · obtain ⟨x, hx, rfl⟩ := map_eq_ok.mp hvalue
    simpa using h room draft x hx

/-- The entries of a table have different keys. -/
theorem Gives.entries (h : decoder.Gives P) :
    decoder.entries.Gives fun known =>
      DistinctKeys known ∧ ∀ entry ∈ known, P entry.2 := by
  intro room draft known hknown
  unfold Decoder.entries at hknown
  split at hknown
  · cases hknown
  · rename_i opening fields behind room
    refine foldlM_preserves (P := fun known : List (String × α) =>
      DistinctKeys known ∧ ∀ entry ∈ known, P entry.2) ?_ ⟨distinctKeys_nil, by simp⟩ hknown
    rintro known ⟨key, behind, value⟩ next ⟨hkeys, hentries⟩ hstep
    cases key with
    | none => cases hstep
    | some key =>
      obtain ⟨x, hx, hnext⟩ := bind_eq_ok.mp hstep
      cases hnext
      refine ⟨Keyed.nodup_put _ hkeys, fun entry hentry => ?_⟩
      rcases Keyed.mem_put hentry with rfl | hold
      · exact h room value x hx
      · exact hentries entry hold
  · cases hknown

mutual
private theorem wellFormed_json (room : Nat) (draft : Draft) {value : Json}
    (h : json room draft = .ok value) : value.WellFormed := by
  unfold json at h
  split at h
  · cases h
    exact .null
  · cases h
    exact .bool _
  · cases h
    exact .number _
  · cases h
    exact .string _
  · obtain ⟨values, hvalues, rfl⟩ := map_eq_ok.mp h
    exact .array (wellFormed_jsonItems _ _ hvalues)
  · obtain ⟨fields, hfields, rfl⟩ := map_eq_ok.mp h
    exact wellFormed_jsonFields _ _ Json.wellFormed_empty hfields
  · cases h

private theorem wellFormed_jsonItems (room : Nat) (items : List Draft) {values : List Json}
    (h : jsonItems room items = .ok values) : ∀ value ∈ values, value.WellFormed := by
  cases items with
  | nil =>
    cases h
    simp
  | cons item items =>
    obtain ⟨first, hfirst, h⟩ := bind_eq_ok.mp h
    obtain ⟨others, hothers, h⟩ := bind_eq_ok.mp h
    cases h
    exact List.forall_mem_cons.mpr
      ⟨wellFormed_json room item hfirst, wellFormed_jsonItems room items hothers⟩

private theorem wellFormed_jsonFields (room : Nat)
    (fields : List (Option String × List Char × Draft)) {known all : List (String × Json)}
    (hknown : (Json.object known).WellFormed) (h : jsonFields room known fields = .ok all) :
    (Json.object all).WellFormed := by
  match fields with
  | [] =>
    cases h
    exact hknown
  | (none, _, _) :: _ => cases h
  | (some key, _, field) :: fields =>
    obtain ⟨value, hvalue, h⟩ := bind_eq_ok.mp h
    exact wellFormed_jsonFields room fields
      (Json.wellFormed_put hknown (wellFormed_json room field hvalue)) h
end

theorem json_gives : Gives json Json.WellFormed :=
  fun room draft _ h => wellFormed_json room draft h

theorem table_gives : (entries json).Gives fun table => (Json.object table).WellFormed :=
  fun room draft table h => Json.wellFormed_object.mpr (json_gives.entries room draft table h)

end Decoder

namespace RecordFormat

variable {α β : Type} {format : RecordFormat} {Q : α → Prop} {P : β → Prop}

/-- What taking in a field preserves holds behind the last one. -/
theorem gather_preserves {put : String → Draft → α → Except Misfit α}
    (hput : ∀ name draft known next, Q known → put name draft known = .ok next → Q next)
    {seen : List String} {known value : α} {fields : List (Option String × List Char × Draft)}
    (hknown : Q known) (h : format.gather put seen known fields = .ok value) : Q value := by
  fun_induction format.gather put seen known fields with
  | case1 =>
    cases h
    exact hknown
  | case2 => cases h
  | case3 => cases h
  | case4 seen known key behind field fields _ _ ih =>
    obtain ⟨next, hnext, hrest⟩ := bind_eq_ok.mp h
    exact ih next (hput key field known next hknown hnext) hrest
  | case5 => cases h
  | case6 seen known key behind field fields _ _ ih =>
    obtain ⟨-, -, hrest⟩ := bind_eq_ok.mp h
    exact ih hknown hrest

theorem decoder_gives {empty : α} {put : Nat → String → Draft → α → Except Misfit α}
    {finish : Style → α → Except Problem β} (hempty : Q empty)
    (hput : ∀ room name draft known next, Q known → put room name draft known = .ok next → Q next)
    (hfinish : ∀ style known value, Q known → finish style known = .ok value → P value) :
    (format.decoder empty put finish).Gives P := by
  intro room draft value h
  unfold RecordFormat.decoder at h
  split at h
  · cases h
  · cases h
  · obtain ⟨known, hknown, h⟩ := bind_eq_ok.mp h
    exact hfinish _ known value (gather_preserves (hput _) hempty hknown) (mapError_eq_ok.mp h)
  · obtain ⟨known, hknown, h⟩ := bind_eq_ok.mp h
    obtain ⟨finished, hfinished, h⟩ := bind_eq_ok.mp h
    split_ifs at h
    cases h
    exact hfinish _ known value (gather_preserves (hput _) hempty hknown)
      (mapError_eq_ok.mp hfinished)
  · cases h

end RecordFormat

/-- What is decoded from a text has what the decoder promises. -/
theorem Json.decodeText_gives {α : Type} {decoder : Decoder α} {P : α → Prop}
    (hdecoder : decoder.Gives P) {text : String} {value : α}
    (h : Json.decodeText decoder text = .ok value) : P value := by
  unfold Json.decodeText at h
  dsimp only at h
  split at h
  · cases h
  · rename_i found hfound
    split_ifs at h
    cases h
    exact hdecoder _ _ value hfound

theorem Json.wellFormed_of_parse {text : String} {value : Json}
    (h : Json.parse text = .ok value) : value.WellFormed :=
  decodeText_gives Decoder.json_gives h

end ShapeRules
