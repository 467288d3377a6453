import ShapeRules.Proofs.Aligned
import ShapeRules.Proofs.Json.Decode
import ShapeRules.Proofs.Model.Loaded

/-!
What documents declare. Their tables have different keys and well-formed nodes, and the traits and
members of a shape are those that its entry declares, put in one after the other.
-/

namespace ShapeRules

open Fallible
open Keyed (DistinctKeys distinctKeys_nil)

/-- The entry declares a member of a name, in its table or by itself. -/
inductive ShapeEntry.Declares (entry : ShapeEntry) : String → MemberEntry → Prop
  | table {name : String} {member : MemberEntry} (h : (name, member) ∈ entry.members) :
      entry.Declares name member
  | member {member : MemberEntry} (h : entry.member = some member) : entry.Declares "member" member
  | key {member : MemberEntry} (h : entry.key = some member) : entry.Declares "key" member
  | value {member : MemberEntry} (h : entry.value = some member) : entry.Declares "value" member

theorem ShapeEntry.mem_allMembers {entry : ShapeEntry} {name : String} {member : MemberEntry} :
    (name, member) ∈ entry.allMembers ↔ entry.Declares name member := by
  constructor
  · intro h
    rcases List.mem_append.mp h with htable | hgiven
    · exact .table htable
    · simp only [List.mem_filterMap, List.mem_cons, List.not_mem_nil, or_false] at hgiven
      obtain ⟨-, rfl | rfl | rfl, hgiven⟩ := hgiven
      all_goals
        obtain ⟨given, hentry, heq⟩ := Option.map_eq_some_iff.mp hgiven
        cases heq
      · exact .member hentry
      · exact .key hentry
      · exact .value hentry
  · intro h
    cases h with
    | table h => exact List.mem_append_left _ h
    | member h | key h | value h => exact List.mem_append_right _ (by simp [h])

/-- The traits of the member are a well-formed table. -/
def MemberEntry.WellFormed (member : MemberEntry) : Prop := (Json.object member.traits).WellFormed

/-- The tables of the entry are well formed. -/
structure ShapeEntry.WellFormed (entry : ShapeEntry) : Prop where
  traits : (Json.object entry.traits).WellFormed
  members : DistinctKeys entry.members
  declared : ∀ name member, entry.Declares name member → member.WellFormed

/-- The tables among the fields are well formed. -/
structure ShapeEntry.Fields.WellFormed (fields : ShapeEntry.Fields) : Prop where
  traits : ∀ table ∈ fields.traits, (Json.object table).WellFormed
  members : ∀ table ∈ fields.members,
    DistinctKeys table ∧ ∀ declared ∈ table, declared.2.WellFormed
  member : ∀ given ∈ fields.member, ∀ member ∈ given, member.WellFormed
  key : ∀ given ∈ fields.key, ∀ member ∈ given, member.WellFormed
  value : ∀ given ∈ fields.value, ∀ member ∈ given, member.WellFormed

private theorem forall_of_mem_some {α : Type} {P : α → Prop} {value : α} (h : P value) :
    ∀ given ∈ some value, P given := by
  rintro _ ⟨⟩
  exact h

private theorem getD_of_forall {α : Type} {P : α → Prop} {given : Option α} {default : α}
    (hgiven : ∀ value ∈ given, P value) (hdefault : P default) : P (given.getD default) := by
  cases given with
  | none => exact hdefault
  | some value => exact hgiven value rfl

theorem MemberEntry.decoder_gives : MemberEntry.decoder.Gives MemberEntry.WellFormed := by
  refine RecordFormat.decoder_gives
    (Q := fun fields => ∀ table ∈ fields.traits, (Json.object table).WellFormed) (by simp) ?_ ?_
  · intro room name draft known next hknown h
    unfold MemberEntry.Fields.put at h
    split at h
    · obtain ⟨target, -, h⟩ := bind_eq_ok.mp h
      cases h
      exact hknown
    · obtain ⟨table, hread, h⟩ := bind_eq_ok.mp h
      cases h
      exact forall_of_mem_some (Decoder.table_gives room draft table hread)
    · cases h
      exact hknown
  · intro style known member hknown h
    obtain ⟨target, -, h⟩ := bind_eq_ok.mp h
    cases h
    exact getD_of_forall hknown Json.wellFormed_empty

/-- What a field holds that may be missing was given. -/
private theorem nullable_given {α : Type} {format : RecordFormat} {style : RecordFormat.Style}
    {field : String} {given : Option (Option α)} {read : Option α} {value : α}
    (h : format.nullable style field given = .ok read) (hread : read = some value) :
    given = some (some value) := by
  unfold RecordFormat.nullable at h
  split at h
  · cases h
    rw [hread]
  · split at h
    · cases h
      cases hread
    · cases h

theorem ShapeEntry.decoder_gives : ShapeEntry.decoder.Gives ShapeEntry.WellFormed := by
  have hmembers := MemberEntry.decoder_gives.entries
  have hgiven := MemberEntry.decoder_gives.optional
  refine RecordFormat.decoder_gives (Q := ShapeEntry.Fields.WellFormed)
    (by constructor <;> simp) ?_ ?_
  · intro room name draft known next hknown h
    unfold ShapeEntry.Fields.put at h
    split at h
    case h_7 =>
      cases h
      exact hknown
    all_goals
      obtain ⟨read, hread, h⟩ := bind_eq_ok.mp h
      cases h
    · exact { hknown with }
    · exact { hknown with members := forall_of_mem_some (hmembers room draft read hread) }
    · exact { hknown with member := forall_of_mem_some (hgiven room draft read hread) }
    · exact { hknown with key := forall_of_mem_some (hgiven room draft read hread) }
    · exact { hknown with value := forall_of_mem_some (hgiven room draft read hread) }
    · exact { hknown with traits := forall_of_mem_some (Decoder.table_gives room draft read hread) }
  · intro style known entry hknown h
    obtain ⟨kind, -, h⟩ := bind_eq_ok.mp h
    obtain ⟨member, hmember, h⟩ := bind_eq_ok.mp h
    obtain ⟨key, hkey, h⟩ := bind_eq_ok.mp h
    obtain ⟨value, hvalue, h⟩ := bind_eq_ok.mp h
    cases h
    have htraits : (Json.object (known.traits.getD [])).WellFormed :=
      getD_of_forall hknown.traits Json.wellFormed_empty
    have hmembers : DistinctKeys (known.members.getD []) ∧
        ∀ declared ∈ known.members.getD [], declared.2.WellFormed :=
      getD_of_forall (P := fun table : List (String × MemberEntry) => DistinctKeys table ∧
        ∀ declared ∈ table, declared.2.WellFormed) hknown.members ⟨distinctKeys_nil, by simp⟩
    refine ⟨htraits, hmembers.1, fun name declared hdeclared => ?_⟩
    cases hdeclared with
    | table h => exact hmembers.2 _ h
    | member h => exact hknown.member _ (nullable_given hmember h) _ rfl
    | key h => exact hknown.key _ (nullable_given hkey h) _ rfl
    | value h => exact hknown.value _ (nullable_given hvalue h) _ rfl

namespace ModelDocument

/-- The shapes of the document have different keys, and their entries are well formed. -/
structure WellFormed (document : ModelDocument) : Prop where
  keys : DistinctKeys document.shapes
  entries : ∀ declared ∈ document.shapes, declared.2.WellFormed

theorem decoder_gives_wellFormed : decoder.Gives WellFormed := by
  have hshapes := ShapeEntry.decoder_gives.entries
  refine RecordFormat.decoder_gives
    (Q := fun known => ∀ table ∈ known, WellFormed ⟨table⟩) (by simp) ?_ ?_
  · intro room name draft known next _ h
    obtain ⟨table, hread, h⟩ := bind_eq_ok.mp h
    cases h
    obtain ⟨hkeys, hentries⟩ := hshapes room draft table hread
    exact forall_of_mem_some ⟨hkeys, hentries⟩
  · intro style known document hknown h
    cases h
    exact getD_of_forall (P := fun table => WellFormed ⟨table⟩) hknown ⟨distinctKeys_nil, by simp⟩

theorem decoder_gives :
    decoder.Gives fun document => ∀ declared ∈ document.shapes, declared.2.WellFormed :=
  fun room draft document h => (decoder_gives_wellFormed room draft document h).entries

/-- The trait is the one that an entry of a table declares. -/
def TraitOf (declared : String × Json) (applied : Trait) : Prop :=
  ShapeId.parseRelative ShapeId.prelude declared.1 = .ok applied.id ∧ applied.node = declared.2

/-- The traits are put in one after the other, each of them declared where the shape is. -/
theorem applyTraits_located {shape next : Shape} {table : List (String × Json)}
    (h : applyTraits shape table = .ok next) :
    ∃ applied, List.Forall₂ (fun declared trait => TraitOf declared trait ∧
        trait.location = shape.location) table applied ∧
      next = { shape with
        traits := applied.foldl (fun known x => Keyed.put Trait.id x known) shape.traits } := by
  induction table generalizing shape with
  | nil =>
    cases shape
    cases h
    exact ⟨[], .nil, rfl⟩
  | cons declared table ih =>
    obtain ⟨name, node⟩ := declared
    rw [applyTraits, List.foldlM_cons, bind_eq_ok] at h
    obtain ⟨current, hcurrent, hrest⟩ := h
    obtain ⟨id, hid, hput⟩ := bind_eq_ok.mp hcurrent
    cases hput
    obtain ⟨applied, happlied, rfl⟩ := ih hrest
    exact ⟨⟨id, node, shape.location⟩ :: applied,
      .cons ⟨⟨mapError_eq_ok.mp hid, rfl⟩, rfl⟩ happlied, rfl⟩

theorem applyTraits_applied {shape next : Shape} {table : List (String × Json)}
    (h : applyTraits shape table = .ok next) :
    ∃ applied, List.Forall₂ TraitOf table applied ∧
      next = { shape with
        traits := applied.foldl (fun known x => Keyed.put Trait.id x known) shape.traits } := by
  obtain ⟨applied, happlied, hnext⟩ := applyTraits_located h
  exact ⟨applied, happlied.imp fun _ _ hlocated => hlocated.1, hnext⟩

/-- The member is the one that an entry declares under a name. -/
structure MemberOf (declared : String × MemberEntry) (member : Shape) : Prop where
  name : member.memberName = declared.1
  target : ∃ target, ShapeId.parse declared.2.target = .ok target ∧ member.target = some target
  traits : ∃ applied, List.Forall₂ TraitOf declared.2.traits applied ∧
    member.traits = applied.foldl (fun known x => Keyed.put Trait.id x known) []

theorem memberShape_declared {container : ShapeId} {location : SourceLocation} {name : String}
    {declared : MemberEntry} {member : Shape}
    (h : memberShape container location name declared = .ok member) :
    MemberOf (name, declared) member := by
  obtain ⟨id, hid, h⟩ := bind_eq_ok.mp h
  obtain ⟨target, htarget, h⟩ := bind_eq_ok.mp h
  obtain ⟨applied, happlied, rfl⟩ := applyTraits_applied h
  have hname := (ShapeId.withMember_ok (mapError_eq_ok.mp hid)).2
  exact ⟨Shape.memberName_of_named hname, ⟨target, mapError_eq_ok.mp htarget, rfl⟩,
    ⟨applied, happlied, rfl⟩⟩

theorem memberShape_id {container : ShapeId} {location : SourceLocation} {name : String}
    {declared : MemberEntry} {member : Shape}
    (h : memberShape container location name declared = .ok member) :
    container.withMember name = .ok member.id := by
  obtain ⟨id, hid, h⟩ := bind_eq_ok.mp h
  obtain ⟨target, -, h⟩ := bind_eq_ok.mp h
  obtain ⟨all, rfl⟩ := applyTraits_ok h
  exact mapError_eq_ok.mp hid

theorem addMembers_built {location : SourceLocation} {id : ShapeId} {shape next : Shape}
    {all : List (String × MemberEntry)}
    (h : all.foldlM (fun shape (name, member) => do
      return Shape.putMember shape (← memberShape id location name member)) shape = .ok next) :
    ∃ members,
      List.Forall₂ (fun declared member => memberShape id location declared.1 declared.2 =
        .ok member) all members ∧
      next = { shape with
        members := members.foldl (fun known x => Keyed.put Shape.memberName x known)
          shape.members } := by
  induction all generalizing shape with
  | nil =>
    cases shape
    cases h
    exact ⟨[], .nil, rfl⟩
  | cons declared all ih =>
    rw [List.foldlM_cons, bind_eq_ok] at h
    obtain ⟨current, hcurrent, hrest⟩ := h
    obtain ⟨member, hmember, hput⟩ := bind_eq_ok.mp hcurrent
    cases hput
    obtain ⟨members, hmembers, rfl⟩ := ih hrest
    exact ⟨member :: members, .cons hmember hmembers, rfl⟩

theorem addMembers_declared {location : SourceLocation} {id : ShapeId} {shape next : Shape}
    {all : List (String × MemberEntry)}
    (h : all.foldlM (fun shape (name, member) => do
      return Shape.putMember shape (← memberShape id location name member)) shape = .ok next) :
    ∃ members, List.Forall₂ MemberOf all members ∧ next = { shape with
      members := members.foldl (fun known x => Keyed.put Shape.memberName x known)
        shape.members } := by
  obtain ⟨members, hmembers, hnext⟩ := addMembers_built h
  exact ⟨members, hmembers.imp fun _ _ => memberShape_declared, hnext⟩

/-- Where a shape can be built, so can all members that its entry declares. -/
theorem shape_built {location : SourceLocation} {id : ShapeId} {entry : ShapeEntry}
    {shape : Shape} (h : ModelDocument.shape location id entry = .ok shape) :
    (∃ applied, List.Forall₂ TraitOf entry.traits applied ∧
      shape.traits = applied.foldl (fun known x => Keyed.put Trait.id x known) []) ∧
    ∀ name declared, entry.Declares name declared →
      ∃ member, memberShape id location name declared = .ok member := by
  rw [ModelDocument.shape] at h
  split at h
  · obtain ⟨start, hstart, h⟩ := bind_eq_ok.mp h
    obtain ⟨applied, happlied, rfl⟩ := applyTraits_applied hstart
    obtain ⟨members, hmembers, rfl⟩ := addMembers_built h
    refine ⟨⟨applied, happlied, rfl⟩, fun name declared hdeclared => ?_⟩
    obtain ⟨member, -, hmember⟩ :=
      Aligned.exists_of_mem_left hmembers (ShapeEntry.mem_allMembers.mpr hdeclared)
    exact ⟨member, hmember⟩
  · cases h

theorem toModel_aligned {document : ModelDocument} {filename : String} {model : Model}
    (h : document.toModel filename = .ok model) :
    List.Forall₂ (fun declared shape => ∃ id, ShapeId.parse declared.1 = .ok id ∧
      ModelDocument.shape ⟨filename, 0, 0⟩ id declared.2 = .ok shape)
      document.shapes model.shapes := by
  obtain ⟨shapes, hshapes, h⟩ := bind_eq_ok.mp h
  rw [Model.ofShapes_ok (mapError_eq_ok.mp h)]
  refine (forall₂_of_mapM hshapes).imp ?_
  rintro ⟨text, entry⟩ shape hdeclared
  obtain ⟨id, hid, hshape⟩ := bind_eq_ok.mp hdeclared
  exact ⟨id, mapError_eq_ok.mp hid, hshape⟩

end ModelDocument

end ShapeRules
