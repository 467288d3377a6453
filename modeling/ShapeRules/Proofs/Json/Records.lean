import ShapeRules.Proofs.Json.Decode
import ShapeRules.Proofs.Json.Reading

/-!
What decoders make of the drafts of a value. They agree on all of them, whether a draft stands in a
text or not, so that a text is decoded as the value that it was written for.
-/

namespace ShapeRules

open Fallible
open Keyed (DistinctKeys)

/-- The value nests so many levels at most. -/
inductive Json.Within : Nat → Json → Prop
  | null {room : Nat} : Within room .null
  | bool {room : Nat} (b : Bool) : Within room (.bool b)
  | number {room : Nat} (n : Number) : Within room (.number n)
  | string {room : Nat} (s : String) : Within room (.string s)
  | array {room : Nat} {items : List Json} (hitems : ∀ item ∈ items, Within room item) :
      Within (room + 1) (.array items)
  | object {room : Nat} {fields : List (String × Json)}
      (hfields : ∀ field ∈ fields, Within room field.2) : Within (room + 1) (.object fields)

/-- The value is null and nothing is given, or something is given by it. -/
inductive Json.Nullable {α : Type} (R : Json → α → Prop) : Json → Option α → Prop
  | null : Nullable R .null none
  | given {value : Json} {x : α} (hx : R value x) : Nullable R value (some x)

/-- The value is a text, and the relation holds between the text and what is given. -/
inductive Json.Spelled {α : Type} (R : String → α → Prop) : Json → α → Prop
  | text {s : String} {x : α} (hx : R s x) : Spelled R (.string s) x

namespace Draft

mutual
theorem holds_ofJson (value : Json) : (ofJson value).Holds value := by
  cases value with
  | null => exact .null []
  | bool b => exact .bool b []
  | number n => exact .number n []
  | string s => exact .string s []
  | array items => exact .array (holds_ofItems items)
  | object fields => exact holds_object (holdFields_ofFields fields)

theorem holds_ofItems (items : List Json) : List.Forall₂ Holds (ofItems items) items := by
  cases items with
  | nil => exact .nil
  | cons item items => exact .cons (holds_ofJson item) (holds_ofItems items)

theorem holdFields_ofFields (fields : List (String × Json)) :
    HoldFields (ofFields fields) fields := by
  match fields with
  | [] => exact .nil
  | (key, value) :: fields =>
    exact .cons ⟨rfl, holds_ofJson value⟩ (holdFields_ofFields fields)
end

end Draft

namespace Decoder

open Draft (HoldFields)

variable {α ε : Type} {decoder : Decoder α} {R : Json → α → Prop} {room : Nat} {draft : Draft}
  {value : Json}

/-- The decoder gives of the drafts of a value just what the relation allows. -/
def Denotes (decoder : Decoder α) (R : Json → α → Prop) : Prop :=
  ∀ room draft value x, draft.Holds value → (decoder room draft = .ok x ↔ R value x)

theorem Denotes.reads {x : α} (h : decoder.Denotes R) (hx : R value x) (room : Nat) (draft : Draft)
    (hdraft : draft.Holds value) : decoder room draft = .ok x :=
  (h room draft value x hdraft).mpr hx

theorem string_denotes : string.Denotes fun value s => value = .string s := by
  intro room draft value s h
  cases h <;> simp [string]

theorem word_denotes : word.Denotes fun value n => value = .number (.integer n.toNat) := by
  intro room draft value n h
  cases h with
  | number found behind =>
    cases found with
    | integer i =>
      have hword : (0 ≤ i ∧ i < UInt32.size) ∧ UInt32.ofNat i.toNat = n ↔ i = n.toNat := by
        constructor
        · rintro ⟨⟨hlow, hhigh⟩, rfl⟩
          rw [UInt32.toNat_ofNat_of_lt' (by omega)]
          omega
        · rintro rfl
          have hsize := n.toNat_lt_size
          exact ⟨by omega, by simp⟩
      change word room _ = .ok n ↔ Json.number (.integer i) = .number (.integer n.toNat)
      rw [Json.number.injEq, Number.integer.injEq, ← hword, word]
      split_ifs with hrange
      · rw [and_iff_right hrange, Except.ok.injEq]
      · simp only [hrange, false_and]
    | double x => simp [word]
  | _ => simp [word]

theorem parsed_denotes {parse : String → Except ε α} {message : ε → String}
    {Reads : String → α → Prop} (hparse : ∀ s x, parse s = .ok x ↔ Reads s x) :
    (parsed parse message).Denotes (Json.Spelled Reads) := by
  intro room draft value x h
  rw [parsed, bind_eq_ok]
  constructor
  · rintro ⟨s, hs, hx⟩
    rw [(string_denotes room draft value s h).mp hs]
    exact .text ((hparse s x).mp (mapError_eq_ok.mp hx))
  · rintro ⟨hx⟩
    exact ⟨_, (string_denotes room draft _ _ h).mpr rfl, mapError_eq_ok.mpr ((hparse _ x).mpr hx)⟩

theorem Denotes.optional (h : decoder.Denotes R) (hnull : ∀ x, ¬ R .null x) :
    decoder.optional.Denotes (Json.Nullable R) := by
  intro room draft value given hdraft
  have hgiven : some <$> decoder room draft = .ok given ↔ ∃ x, R value x ∧ some x = given := by
    rw [← funext fun x => propext (h room draft value x hdraft)]
    exact map_eq_ok
  have hnullable (hvalue : value ≠ .null) :
      Json.Nullable R value given ↔ ∃ x, R value x ∧ some x = given := by
    constructor
    · rintro (_ | ⟨hx⟩)
      · exact absurd rfl hvalue
      · exact ⟨_, hx, rfl⟩
    · rintro ⟨x, hx, rfl⟩
      exact .given hx
  cases hdraft with
  | null =>
    constructor
    · intro hnone
      cases hnone
      exact .null
    · rintro (_ | ⟨hx⟩)
      · rfl
      · exact absurd hx (hnull _)
  | _ => exact hgiven.trans (hnullable (by simp)).symm

/-! ### Values as they are -/

theorem jsonItems_of_holds {items : List Json} {drafts : List Draft}
    (h : List.Forall₂ Draft.Holds drafts items)
    (hitems : ∀ item ∈ items, ∀ draft, draft.Holds item → json room draft = .ok item) :
    jsonItems room drafts = .ok items := by
  induction h with
  | nil => rfl
  | cons hfirst _ ih =>
    obtain ⟨hitem, hothers⟩ := List.forall_mem_cons.mp hitems
    rw [jsonItems, hitem _ hfirst, ih hothers]
    rfl

theorem jsonFields_of_holds {fields known : List (String × Json)}
    {drafts : List (Option String × List Char × Draft)} (h : HoldFields drafts fields)
    (hkeys : DistinctKeys (known ++ fields))
    (hfields : ∀ field ∈ fields, ∀ draft, draft.Holds field.2 → json room draft = .ok field.2) :
    jsonFields room known drafts = .ok (known ++ fields) := by
  induction h generalizing known with
  | nil => rw [List.append_nil, jsonFields]
  | @cons drafted field drafts fields hfirst _ ih =>
    obtain ⟨key, behind, draft⟩ := drafted
    obtain ⟨rfl, hdraft⟩ := hfirst
    obtain ⟨hfield, hothers⟩ := List.forall_mem_cons.mp hfields
    have hfresh : field.1 ∉ known.map Prod.fst := by
      rw [DistinctKeys, List.map_append, List.nodup_append] at hkeys
      exact fun hmem => hkeys.2.2 _ hmem _ List.mem_cons_self rfl
    have happend : known ++ field :: fields = known ++ [field] ++ fields := by simp
    rw [happend] at hkeys ⊢
    rw [jsonFields, hfield _ hdraft]
    change jsonFields room (Keyed.put Prod.fst field known) drafts = _
    rw [Keyed.put_of_fresh hfresh]
    exact ih hkeys hothers

/-- A value that does not nest too deeply is decoded as it is. -/
theorem json_of_holds (hdepth : value.Within room) (hvalue : value.WellFormed)
    (h : draft.Holds value) : json room draft = .ok value := by
  induction hdepth generalizing draft with
  | null | bool | number | string =>
    cases h
    simp [json]
  | array _ ih =>
    cases h with
    | array h =>
      cases hvalue with
      | array hitems =>
        rw [json, jsonItems_of_holds h fun item hitem draft => ih item hitem (hitems item hitem)]
        rfl
  | object _ ih =>
    obtain ⟨opening, drafts, behind, rfl, hheld⟩ := Draft.exists_of_holds_object h
    obtain ⟨hdistinct, hfields⟩ := Json.wellFormed_object.mp hvalue
    have hread : jsonFields _ [] drafts = .ok _ :=
      jsonFields_of_holds hheld hdistinct fun field hfield draft =>
        ih field hfield (hfields field hfield)
    rw [json, hread]
    rfl

end Decoder

namespace RecordFormat

open Draft (HoldFields)

variable {α β : Type} {format : RecordFormat} {fields : List (String × Json)}
  {drafts : List (Option String × List Char × Draft)} {seen : List String} {known final : α}

/-- Taking in the fields one after the other ends with the record, whatever drafts they are given
by. -/
inductive Gathers (put : String → Draft → α → Except Misfit α) :
    α → List (String × Json) → α → Prop
  | nil {known : α} : Gathers put known [] known
  | cons {known next final : α} {key : String} {value : Json} {fields : List (String × Json)}
      (hput : ∀ draft, draft.Holds value → put key draft known = .ok next)
      (hrest : Gathers put next fields final) : Gathers put known ((key, value) :: fields) final

variable {put : String → Draft → α → Except Misfit α}

/-- A field that one decoder reads, to be stored in the record. -/
theorem Gathers.field {key : String} {value : Json} {read : Draft → Except Misfit β} {store : β → α}
    {x : β} (hput : ∀ draft, put key draft known = read draft >>= fun x => pure (store x))
    (hread : ∀ draft, draft.Holds value → read draft = .ok x)
    (hrest : Gathers put (store x) fields final) :
    Gathers put known ((key, value) :: fields) final := by
  refine .cons (fun draft h => ?_) hrest
  rw [hput, hread draft h]
  rfl

theorem gather_field {key : String} {behind : List Char} {draft : Draft}
    (hkey : key ∈ format.fields) (hfresh : key ∉ seen) :
    format.gather put seen known ((some key, behind, draft) :: drafts) =
      put key draft known >>= fun next => format.gather put (key :: seen) next drafts := by
  rw [gather, if_pos hkey, if_neg hfresh]

private theorem fresh_cons {field : String × Json} (hkeys : DistinctKeys (field :: fields))
    (hfresh : ∀ key ∈ seen, key ∉ (field :: fields).map Prod.fst) :
    ∀ key ∈ field.1 :: seen, key ∉ fields.map Prod.fst := by
  refine List.forall_mem_cons.mpr ⟨(List.nodup_cons.mp hkeys).1, fun key hseen hmem => ?_⟩
  exact hfresh key hseen (List.mem_cons_of_mem _ hmem)

theorem Gathers.gather (h : Gathers put known fields final) (hheld : HoldFields drafts fields)
    (hkeys : DistinctKeys fields) (hnames : ∀ field ∈ fields, field.1 ∈ format.fields)
    (hfresh : ∀ key ∈ seen, key ∉ fields.map Prod.fst) :
    format.gather put seen known drafts = .ok final := by
  induction hheld generalizing seen known with
  | nil =>
    cases h
    rw [RecordFormat.gather]
  | @cons drafted field drafts fields hfirst _ ih =>
    obtain ⟨_, behind, draft⟩ := drafted
    obtain ⟨rfl, hdraft⟩ := hfirst
    obtain ⟨hname, hothers⟩ := List.forall_mem_cons.mp hnames
    cases h with
    | cons hput hrest =>
      rw [gather_field hname fun hseen => hfresh _ hseen List.mem_cons_self, hput draft hdraft]
      exact ih hrest (List.nodup_cons.mp hkeys).2 hothers (fresh_cons hkeys hfresh)

/-- Taking in a field of the record changes it in the way that the relation gives for the key and
the value of the field. -/
def Stores (format : RecordFormat) (put : String → Draft → α → Except Misfit α)
    (Puts : String → Json → (α → α) → Prop) : Prop :=
  ∀ key ∈ format.fields, ∀ draft value known next, draft.Holds value →
    (put key draft known = .ok next ↔ ∃ store, Puts key value store ∧ store known = next)

variable {Puts : String → Json → (α → α) → Prop}

/-- The fields of a closed record are all taken in just when each is one of the record and has a
value that is stored. -/
theorem exists_gather_iff (hput : format.Stores put Puts) (hclosed : format.isClosed = true)
    (hheld : HoldFields drafts fields) (hkeys : DistinctKeys fields)
    (hfresh : ∀ key ∈ seen, key ∉ fields.map Prod.fst) :
    (∃ final, format.gather put seen known drafts = .ok final) ↔
      ∀ field ∈ fields, field.1 ∈ format.fields ∧ ∃ store, Puts field.1 field.2 store := by
  induction hheld generalizing seen known with
  | nil => simp [gather]
  | @cons drafted field drafts fields hfirst _ ih =>
    obtain ⟨_, behind, draft⟩ := drafted
    obtain ⟨rfl, hdraft⟩ := hfirst
    have hrest := fresh_cons hkeys hfresh
    have hkeys := (List.nodup_cons.mp hkeys).2
    rw [List.forall_mem_cons]
    by_cases hname : field.1 ∈ format.fields
    · rw [gather_field hname fun hseen => hfresh _ hseen List.mem_cons_self]
      have hstored := hput field.1 hname draft field.2 known
      constructor
      · rintro ⟨final, h⟩
        obtain ⟨next, hnext, h⟩ := bind_eq_ok.mp h
        obtain ⟨store, hstore, -⟩ := (hstored next hdraft).mp hnext
        exact ⟨⟨hname, store, hstore⟩, (ih hkeys hrest).mp ⟨final, h⟩⟩
      · rintro ⟨⟨-, store, hstore⟩, hothers⟩
        obtain ⟨final, h⟩ : ∃ final, format.gather put _ (store known) drafts = .ok final :=
          (ih hkeys hrest).mpr hothers
        exact ⟨final, bind_eq_ok.mpr ⟨_, (hstored _ hdraft).mpr ⟨store, hstore, rfl⟩, h⟩⟩
    · rw [gather, if_neg hname, hclosed, if_pos rfl]
      simp [hname]

theorem field?_cons (key name : String) (value : Json) (fields : List (String × Json)) :
    Json.field? ((key, value) :: fields) name =
      if key = name then some value else Json.field? fields name := by
  by_cases hkey : key = name <;> simp [Json.field?, Keyed.find?, hkey]

theorem field?_eq_none_iff {name : String} :
    Json.field? fields name = none ↔ name ∉ fields.map Prod.fst := by
  have hfound : (∃ field, Keyed.find? Prod.fst name fields = some field) ↔ _ :=
    Keyed.exists_find?_iff
  rw [Json.field?, Option.map_eq_none_iff, ← hfound]
  cases Keyed.find? Prod.fst name fields <;> simp

/-- A field that is taken in is stored, or it is not one of the record and passed over. -/
theorem gather_cons_ok {key : String} {value : Json} {behind : List Char} {draft : Draft}
    (hput : format.Stores put Puts) (hdraft : draft.Holds value)
    (h : format.gather put seen known ((some key, behind, draft) :: drafts) = .ok final) :
    (∃ store, Puts key value store ∧
      format.gather put (key :: seen) (store known) drafts = .ok final) ∨
      key ∉ format.fields ∧ format.gather put seen known drafts = .ok final := by
  rw [gather] at h
  split_ifs at h with hname hseen
  · obtain ⟨next, hnext, h⟩ := bind_eq_ok.mp h
    obtain ⟨store, hstore, rfl⟩ := (hput key hname draft value known next hdraft).mp hnext
    exact .inl ⟨store, hstore, h⟩
  · obtain ⟨-, -, h⟩ := bind_eq_ok.mp h
    exact .inr ⟨hname, h⟩

/-- A place of the record that one field fills, and that no other field touches, holds what that
field stores, or what it held before. -/
theorem gather_place (name : String) (get : α → Option β) {R : Json → β → Prop}
    (hput : format.Stores put Puts)
    (hplace : ∀ key value store, Puts key value store →
      key = name ∧ (∃ x, R value x ∧ ∀ known, get (store known) = some x) ∨
        key ≠ name ∧ ∀ known, get (store known) = get known)
    (hname : name ∈ format.fields) (hheld : HoldFields drafts fields) (hkeys : DistinctKeys fields)
    (h : format.gather put seen known drafts = .ok final) :
    (∀ value, Json.field? fields name = some value → ∃ x, get final = some x ∧ R value x) ∧
      (Json.field? fields name = none → get final = get known) := by
  induction hheld generalizing seen known with
  | nil =>
    rw [gather, Except.ok.injEq] at h
    subst h
    exact ⟨nofun, fun _ => rfl⟩
  | @cons drafted field drafts fields hfirst _ ih =>
    obtain ⟨_, behind, draft⟩ := drafted
    obtain ⟨key, value⟩ := field
    obtain ⟨rfl, hdraft⟩ := hfirst
    obtain ⟨hkey, hkeys⟩ := List.nodup_cons.mp hkeys
    rw [field?_cons]
    rcases gather_cons_ok hput hdraft h with ⟨store, hstore, hrest⟩ | ⟨hunknown, hrest⟩
    · obtain ⟨hgiven, hmissing⟩ := ih hkeys hrest
      rcases hplace key value store hstore with ⟨rfl, x, hx, hheld⟩ | ⟨hne, hkept⟩
      · -- no later field has the key, so what is stored stays
        have habsent : Json.field? fields key = none := field?_eq_none_iff.mpr hkey
        rw [if_pos rfl]
        refine ⟨fun found hfound => ?_, nofun⟩
        cases hfound
        exact ⟨x, (hmissing habsent).trans (hheld known), hx⟩
      · rw [if_neg hne]
        exact ⟨hgiven, fun hnone => (hmissing hnone).trans (hkept known)⟩
    · have hne : key ≠ name := fun heq => hunknown (heq ▸ hname)
      rw [if_neg hne]
      exact ih hkeys hrest

theorem required_eq_ok {style : Style} {name : String} {given : Option α} {x : α} :
    format.required style name given = .ok x ↔ given = some x := by
  cases given <;> simp [required]

/-- An object is decoded as a record by taking in its fields. -/
theorem exists_fields_of_decoder (empty : α) (put : Nat → String → Draft → α → Except Misfit α)
    (finish : Style → α → Except Problem β) (room : Nat) {draft : Draft}
    (h : draft.Holds (.object fields)) :
    ∃ drafts, HoldFields drafts fields ∧
      ∀ x, format.decoder empty put finish (room + 1) draft = .ok x ↔
        ∃ known, format.gather (put room) [] empty drafts = .ok known ∧
          finish .named known = .ok x := by
  obtain ⟨opening, drafts, behind, rfl, hheld⟩ := Draft.exists_of_holds_object h
  refine ⟨drafts, hheld, fun x => ?_⟩
  rw [decoder, bind_eq_ok]
  simp only [mapError_eq_ok]

theorem Gathers.decoder {empty : α} {put : Nat → String → Draft → α → Except Misfit α}
    {finish : Style → α → Except Problem β} {room : Nat} {draft : Draft} {x : β}
    (h : Gathers (put room) empty fields final) (hdraft : draft.Holds (.object fields))
    (hkeys : DistinctKeys fields) (hnames : ∀ field ∈ fields, field.1 ∈ format.fields)
    (hfinish : finish .named final = .ok x) :
    format.decoder empty put finish (room + 1) draft = .ok x := by
  obtain ⟨drafts, hheld, hiff⟩ := exists_fields_of_decoder empty put finish room hdraft
  exact (hiff x).mpr ⟨final, h.gather hheld hkeys hnames (by simp), hfinish⟩

end RecordFormat

namespace Json

variable {α : Type} {decoder : Decoder α} {value : Json} {x : α}

/-- The text of a value is decoded as the decoder decodes the drafts of the value. -/
theorem decodeText_compact (h : value.Exact)
    (hdecoder : ∀ draft, draft.Holds value → decoder Draft.deepest draft = .ok x) :
    decodeText decoder value.compact = .ok x := by
  obtain ⟨draft, hread, hdraft⟩ := Draft.read_compactText h
  rw [decodeText, compact, String.toList_ofList, hread]
  simp [hdecoder draft hdraft]

/-- The value can be read back from its text. -/
structure Legible (room : Nat) (value : Json) : Prop where
  numbers : value.Exact
  depth : value.Within room
  keys : value.WellFormed

namespace Legible

variable {room : Nat} {fields : List (String × Json)}

theorem null : Legible room .null := ⟨.null, .null, .null⟩

theorem string (s : String) : Legible room (.string s) := ⟨.string s, .string s, .string s⟩

theorem word (n : UInt32) : Legible room (.number (.integer n.toNat)) := by
  have hlow : -((Nat.pow 2 63 : Nat) : Int) ≤ n.toNat := by
    exact Int.le_trans (by decide) (Int.natCast_nonneg _)
  have hhigh : (n.toNat : Int) < (Nat.pow 2 64 : Nat) := by
    exact Int.ofNat_lt.mpr (Nat.lt_trans n.toNat_lt (by decide))
  have hfits : Number.fits 64 n.toNat = true := by
    rw [Number.fits, Bool.and_eq_true, decide_eq_true_eq, decide_eq_true_eq]
    exact ⟨hlow, hhigh⟩
  exact ⟨.integer hfits, .number _, .number _⟩

theorem object (hkeys : DistinctKeys fields) (hfields : ∀ field ∈ fields, Legible room field.2) :
    Legible (room + 1) (.object fields) where
  numbers := .object fun field hfield => (hfields field hfield).numbers
  depth := .object fun field hfield => (hfields field hfield).depth
  keys := .object hkeys fun field hfield => (hfields field hfield).keys

end Legible

theorem parse_compact (h : value.Legible Draft.deepest) : parse value.compact = .ok value :=
  decodeText_compact h.numbers fun _ hdraft => Decoder.json_of_holds h.depth h.keys hdraft

theorem decode_eq_ok : decode decoder value = .ok x ↔
    decoder Draft.deepest (Draft.ofJson value) = .ok x :=
  mapError_eq_ok

end Json

end ShapeRules
