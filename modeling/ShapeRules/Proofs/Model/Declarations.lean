import Mathlib
import ShapeRules.Proofs.Model.Document
import ShapeRules.Proofs.ShapeId

/-!
What becomes of the declarations of a document. Where two of them fall together the later one takes
the place of the earlier. So a loaded model keeps all that its document declares just when no two
declarations of one shape fall together.
-/

namespace ShapeRules

open Fallible
open Keyed (DistinctKeys)

/-- The traits of the shape are those of a table, each under the id that its key stands for. -/
structure Shape.KeepsTraits (shape : Shape) (table : List (String × Json)) : Prop where
  count : shape.traits.length = table.length
  found : ∀ name node, (name, node) ∈ table → ∃ id applied,
    ShapeId.parseRelative ShapeId.prelude name = .ok id ∧
      shape.findTrait? id = some applied ∧ applied.node = node

/-- The members of the shape are those of an entry, with their targets and traits. -/
structure Shape.KeepsMembers (shape : Shape) (entry : ShapeEntry) : Prop where
  count : shape.members.length = entry.members.length + entry.member.toList.length +
    entry.key.toList.length + entry.value.toList.length
  found : ∀ name declared, entry.Declares name declared → ∃ member target,
    shape.findMember? name = some member ∧ ShapeId.parse declared.target = .ok target ∧
      member.target = some target ∧ member.KeepsTraits declared.traits

/-- The shapes of the model are those of the document in their order, and nothing that is declared
of them is missing. -/
def ModelDocument.Kept (document : ModelDocument) (model : Model) : Prop :=
  List.Forall₂ (fun declared shape => ShapeId.parse declared.1 = .ok shape.id ∧
    shape.KeepsTraits declared.2.traits ∧ shape.KeepsMembers declared.2)
    document.shapes model.shapes

/-- Two keys of a table of traits stand for one id: a name of the prelude with its namespace and
without. -/
def NamesTwice (table : List (String × Json)) : Prop :=
  ∃ name ∈ table.map Prod.fst, '#' ∉ name.toList ∧
    ShapeId.prelude ++ "#" ++ name ∈ table.map Prod.fst

/-- Two declarations of the entry fall together. -/
inductive ShapeEntry.Collides (entry : ShapeEntry) : Prop
  | traits (h : NamesTwice entry.traits)
  | memberTraits {name : String} {member : MemberEntry} (hmember : entry.Declares name member)
      (h : NamesTwice member.traits)
  | member (h : "member" ∈ entry.members.map Prod.fst) (hgiven : entry.member ≠ none)
  | key (h : "key" ∈ entry.members.map Prod.fst) (hgiven : entry.key ≠ none)
  | value (h : "value" ∈ entry.members.map Prod.fst) (hgiven : entry.value ≠ none)

/-- Two declarations of one shape of the document fall together. -/
def ModelDocument.Collides (document : ModelDocument) : Prop :=
  ∃ declared ∈ document.shapes, declared.2.Collides

namespace ModelDocument

variable {table : List (String × Json)} {applied : List Trait}

private theorem nodup_ids (h : List.Forall₂ TraitOf table applied) :
    (applied.map Trait.id).Nodup ↔
      ((table.map Prod.fst).map (ShapeId.absolute ShapeId.prelude)).Nodup := by
  induction h with
  | nil => simp
  | @cons declared trait table applied hfirst hothers ih =>
    have hsame {other : String × Json} {next : Trait} (hnext : TraitOf other next) :
        next.id = trait.id ↔ ShapeId.absolute ShapeId.prelude other.1 =
          ShapeId.absolute ShapeId.prelude declared.1 := by
      refine ShapeId.parse_inj ?_ ?_
      · rw [← ShapeId.parseRelative_eq, hnext.1]
      · rw [← ShapeId.parseRelative_eq, hfirst.1]
    have hmem : trait.id ∈ applied.map Trait.id ↔
        ShapeId.absolute ShapeId.prelude declared.1 ∈
          (table.map Prod.fst).map (ShapeId.absolute ShapeId.prelude) := by
      rw [List.map_map, List.mem_map, List.mem_map]
      constructor
      · rintro ⟨next, hmem, hid⟩
        obtain ⟨other, hother, hnext⟩ := Aligned.exists_of_mem_right hothers hmem
        exact ⟨other, hother, (hsame hnext).mp hid⟩
      · rintro ⟨other, hother, habsolute⟩
        obtain ⟨next, hmem, hnext⟩ := Aligned.exists_of_mem_left hothers hother
        exact ⟨next, hmem, (hsame hnext).mpr habsolute⟩
    simp only [List.map_cons, List.nodup_cons, hmem, ih]

private theorem nodup_absolute (hkeys : DistinctKeys table) :
    ((table.map Prod.fst).map (ShapeId.absolute ShapeId.prelude)).Nodup ↔ ¬ NamesTwice table := by
  constructor
  · rintro hnodup ⟨name, hname, hmark, hlong⟩
    have heq := List.inj_on_of_nodup_map hnodup hname hlong
      (ShapeId.absolute_eq_iff.mpr (.inr (.inl ⟨hmark, rfl⟩)))
    rw [heq] at hmark
    exact hmark (by simp)
  · intro honce
    refine hkeys.map_on fun s hs t ht heq => ?_
    rcases ShapeId.absolute_eq_iff.mp heq with hst | ⟨hmark, rfl⟩ | ⟨hmark, rfl⟩
    · exact hst
    · exact absurd ⟨s, hs, hmark, ht⟩ honce
    · exact absurd ⟨t, ht, hmark, hs⟩ honce

/-- The traits that are applied are all kept just when no two keys stand for one id. -/
theorem keepsTraits_iff {shape : Shape} (hkeys : DistinctKeys table)
    (happlied : List.Forall₂ TraitOf table applied)
    (hshape : shape.traits = applied.foldl (fun known x => Keyed.put Trait.id x known) []) :
    shape.KeepsTraits table ↔ ¬ NamesTwice table := by
  rw [← nodup_absolute hkeys, ← nodup_ids happlied]
  constructor
  · intro hkept
    refine Keyed.nodup_of_length_foldl_put ?_
    rw [← hshape, hkept.count, happlied.length_eq]
  · intro hids
    rw [Keyed.foldl_put_of_nodup (by simpa using hids), List.nil_append] at hshape
    refine ⟨by rw [hshape, happlied.length_eq], fun name node hmem => ?_⟩
    obtain ⟨trait, htrait, hid, hnode⟩ := Aligned.exists_of_mem_left happlied hmem
    refine ⟨trait.id, trait, hid, ?_, hnode⟩
    rw [Shape.findTrait?, hshape]
    exact Keyed.find?_of_mem hids htrait

end ModelDocument

namespace ShapeEntry

variable {entry : ShapeEntry} {name : String} {member : MemberEntry}

theorem length_allMembers (entry : ShapeEntry) :
    entry.allMembers.length = entry.members.length + entry.member.toList.length +
      entry.key.toList.length + entry.value.toList.length := by
  obtain ⟨_, members, member, key, value, _⟩ := entry
  cases member <;> cases key <;> cases value <;> simp [allMembers]

/-- What declares members by itself collides with the table only. -/
theorem distinctKeys_allMembers (hkeys : DistinctKeys entry.members) :
    DistinctKeys entry.allMembers ↔
      ¬ ("member" ∈ entry.members.map Prod.fst ∧ entry.member ≠ none) ∧
      ¬ ("key" ∈ entry.members.map Prod.fst ∧ entry.key ≠ none) ∧
      ¬ ("value" ∈ entry.members.map Prod.fst ∧ entry.value ≠ none) := by
  obtain ⟨_, members, member, key, value, _⟩ := entry
  unfold DistinctKeys at hkeys ⊢
  rw [allMembers, List.map_append, List.nodup_append']
  generalize members.map Prod.fst = names at hkeys ⊢
  cases member <;> cases key <;> cases value <;> simp [hkeys]

end ShapeEntry

namespace ModelDocument

private theorem distinctKeys_iff {all : List (String × MemberEntry)} {members : List Shape}
    (h : List.Forall₂ MemberOf all members) :
    DistinctKeys all ↔ (members.map Shape.memberName).Nodup := by
  rw [DistinctKeys, Aligned.map_eq h fun _ _ hof => hof.name.symm]

variable {entry : ShapeEntry} {shape : Shape} {members : List Shape}

/-- The members that are declared are all kept just when no two of them have one name, and no two
keys of their traits stand for one id. -/
theorem keepsMembers_iff (hentry : entry.WellFormed)
    (hmembers : List.Forall₂ MemberOf entry.allMembers members)
    (hshape : shape.members =
      members.foldl (fun known x => Keyed.put Shape.memberName x known) []) :
    shape.KeepsMembers entry ↔ DistinctKeys entry.allMembers ∧
      ∀ name member, entry.Declares name member → ¬ NamesTwice member.traits := by
  have hfind (hnames : DistinctKeys entry.allMembers) {name : String}
      {declared : MemberEntry} (hdeclared : entry.Declares name declared) :
      ∃ member, shape.findMember? name = some member ∧ MemberOf (name, declared) member := by
    rw [distinctKeys_iff hmembers] at hnames
    rw [Keyed.foldl_put_of_nodup (by simpa using hnames), List.nil_append] at hshape
    obtain ⟨member, hmember, hof⟩ :=
      Aligned.exists_of_mem_left hmembers (ShapeEntry.mem_allMembers.mpr hdeclared)
    obtain rfl : member.memberName = name := hof.name
    refine ⟨member, ?_, hof⟩
    rw [Shape.findMember?, hshape]
    exact Keyed.find?_of_mem hnames hmember
  constructor
  · intro hkept
    have hnames : DistinctKeys entry.allMembers := by
      rw [distinctKeys_iff hmembers]
      refine Keyed.nodup_of_length_foldl_put ?_
      rw [← hshape, hkept.count, ← ShapeEntry.length_allMembers, hmembers.length_eq]
    refine ⟨hnames, fun name declared hdeclared => ?_⟩
    obtain ⟨member, hfound, hof⟩ := hfind hnames hdeclared
    obtain ⟨applied, happlied, htraits⟩ := hof.traits
    obtain ⟨other, target, hother, -, -, htable⟩ := hkept.found name declared hdeclared
    rw [hfound] at hother
    cases hother
    have hkeys := (hentry.declared name declared hdeclared).distinctKeys
    exact (keepsTraits_iff hkeys happlied htraits).mp htable
  · rintro ⟨hnames, honce⟩
    constructor
    · have hnodup := (distinctKeys_iff hmembers).mp hnames
      rw [hshape, Keyed.foldl_put_of_nodup (by simpa using hnodup), List.nil_append,
        ← hmembers.length_eq, ShapeEntry.length_allMembers]
    · intro name declared hdeclared
      obtain ⟨member, hfound, hof⟩ := hfind hnames hdeclared
      obtain ⟨target, hparse, htarget⟩ := hof.target
      obtain ⟨applied, happlied, htraits⟩ := hof.traits
      have hkeys := (hentry.declared name declared hdeclared).distinctKeys
      exact ⟨member, target, hfound, hparse, htarget,
        (keepsTraits_iff hkeys happlied htraits).mpr (honce name declared hdeclared)⟩

private theorem not_collides_iff (hentry : entry.WellFormed) :
    ¬ entry.Collides ↔ ¬ NamesTwice entry.traits ∧ DistinctKeys entry.allMembers ∧
      ∀ name member, entry.Declares name member → ¬ NamesTwice member.traits := by
  rw [ShapeEntry.distinctKeys_allMembers hentry.members]
  constructor
  · intro hnot
    refine ⟨fun h => hnot (.traits h), ⟨?_, ?_, ?_⟩, fun _ _ hdeclared h =>
      hnot (.memberTraits hdeclared h)⟩
    · exact fun h => hnot (.member h.1 h.2)
    · exact fun h => hnot (.key h.1 h.2)
    · exact fun h => hnot (.value h.1 h.2)
  · rintro ⟨htraits, ⟨hmember, hkey, hvalue⟩, hmembers⟩ hcollides
    cases hcollides with
    | traits h => exact htraits h
    | memberTraits hdeclared h => exact hmembers _ _ hdeclared h
    | member h hgiven => exact hmember ⟨h, hgiven⟩
    | key h hgiven => exact hkey ⟨h, hgiven⟩
    | value h hgiven => exact hvalue ⟨h, hgiven⟩

theorem shape_keeps_iff {location : SourceLocation} {id : ShapeId} (hentry : entry.WellFormed)
    (h : ModelDocument.shape location id entry = .ok shape) :
    shape.KeepsTraits entry.traits ∧ shape.KeepsMembers entry ↔ ¬ entry.Collides := by
  rw [ModelDocument.shape] at h
  split at h
  · obtain ⟨start, hstart, h⟩ := bind_eq_ok.mp h
    obtain ⟨applied, happlied, rfl⟩ := applyTraits_applied hstart
    obtain ⟨members, hmembers, rfl⟩ := addMembers_declared h
    rw [not_collides_iff hentry, keepsTraits_iff hentry.traits.distinctKeys happlied rfl,
      keepsMembers_iff hentry hmembers rfl]
  · cases h

theorem kept_iff {document : ModelDocument} {filename : String} {model : Model}
    (hdocument : ∀ declared ∈ document.shapes, declared.2.WellFormed)
    (h : document.toModel filename = .ok model) : document.Kept model ↔ ¬ document.Collides := by
  have hcollides : ¬ document.Collides ↔ ∀ declared ∈ document.shapes, ¬ declared.2.Collides := by
    simp [ModelDocument.Collides]
  rw [hcollides]
  refine Aligned.forall_iff (toModel_aligned h) ?_
  rintro declared hdeclared shape ⟨id, hid, hshape⟩
  rw [← shape_keeps_iff (hdocument declared hdeclared) hshape, (shape_ok hshape).1, hid]
  simp

end ModelDocument

namespace Model

/-- A text that is accepted is the text of a document, and the model that is loaded keeps what the
document declares just when no two declarations fall together. -/
theorem declarations_kept_iff {text filename : String} {model : Model}
    (hload : Model.parse text filename = .ok model) :
    ∃ document, Json.decodeText ModelDocument.decoder text = .ok document ∧
      (document.Kept model ↔ ¬ document.Collides) := by
  obtain ⟨document, hdecode, hmodel⟩ := bind_eq_ok.mp hload
  rw [mapError_eq_ok] at hdecode
  have hdocument := Json.decodeText_gives ModelDocument.decoder_gives hdecode
  exact ⟨document, hdecode, ModelDocument.kept_iff hdocument hmodel⟩

/-- A list with a member in its table and one by itself, which has traits of one name in two
namespaces. -/
def siblingsText : String :=
  "\x7b\"shapes\": \x7b\"a#L\": \x7b\"type\": \"list\",
    \"members\": \x7b\"item\": \x7b\"target\": \"a#S\"\x7d\x7d,
    \"member\": \x7b\"target\": \"a#S\",
      \"traits\": \x7b\"since\": \"1\", \"a#since\": \"2\"\x7d\x7d\x7d\x7d\x7d"

/-- What the text of siblings declares. -/
def siblings : ModelDocument :=
  ⟨[("a#L", ⟨"list", [("item", ⟨"a#S", []⟩)],
    some ⟨"a#S", [("since", .string "1"), ("a#since", .string "2")]⟩, none, none, []⟩)]⟩

theorem declarations_kept_iff_siblings : ∃ model,
    Model.parse siblingsText "model.json" = .ok model ∧
    Json.decodeText ModelDocument.decoder siblingsText = .ok siblings ∧
    ¬ siblings.Collides ∧ siblings.Kept model := by
  have hsiblings : Json.decodeText ModelDocument.decoder siblingsText = .ok siblings := by cbv
  obtain ⟨model, hmodel, -⟩ :=
    exists_of_toOption_any (x := siblings.toModel "model.json") (p := fun _ => true)
      (by decide +kernel)
  have hload : Model.parse siblingsText "model.json" = .ok model :=
    bind_eq_ok.mpr ⟨siblings, mapError_eq_ok.mpr hsiblings, hmodel⟩
  obtain ⟨document, hdecode, hkept⟩ := declarations_kept_iff hload
  rw [hsiblings] at hdecode
  cases hdecode
  have honce : ¬ siblings.Collides := by
    rintro ⟨declared, hdeclared, hcollides⟩
    obtain rfl := List.mem_singleton.mp hdeclared
    cases hcollides with
    | traits h => simp [NamesTwice] at h
    | memberTraits hmember h =>
      cases hmember with
      | table hmember =>
        cases List.mem_singleton.mp hmember
        simp [NamesTwice] at h
      | member hmember =>
        cases hmember
        simp [NamesTwice, ShapeId.prelude] at h
      | key hmember => cases hmember
      | value hmember => cases hmember
    | member h => simp at h
    | key h => simp at h
    | value h => simp at h
  exact ⟨model, hload, hsiblings, honce, hkept.mpr honce⟩

/-- A list with two members of one name, and a string with one trait under two names. -/
def rivalsText : String :=
  "\x7b\"shapes\": \x7b\"a#L\": \x7b\"type\": \"list\",
    \"members\": \x7b\"member\": \x7b\"target\": \"a#S\"\x7d\x7d,
    \"member\": \x7b\"target\": \"a#T\"\x7d\x7d,
    \"a#S\": \x7b\"type\": \"string\",
      \"traits\": \x7b\"since\": \"1\", \"smithy.api#since\": \"2\"\x7d\x7d\x7d\x7d"

/-- What the text of rivals declares. -/
def rivals : ModelDocument :=
  ⟨[("a#L", ⟨"list", [("member", ⟨"a#S", []⟩)], some ⟨"a#T", []⟩, none, none, []⟩),
    ("a#S", ⟨"string", [], none, none, none,
      [("since", .string "1"), ("smithy.api#since", .string "2")]⟩)]⟩

/-- Of two declarations that fall together one is lost without a complaint. -/
theorem declarations_lost_of_rivals : ∃ model,
    Model.parse rivalsText "model.json" = .ok model ∧
    Json.decodeText ModelDocument.decoder rivalsText = .ok rivals ∧
    model.shapes.map (fun shape => (shape.id.text, shape.traits.length, shape.members.length)) =
      [("a#L", 0, 1), ("a#S", 1, 0)] ∧
    ¬ rivals.Kept model := by
  have hrivals : Json.decodeText ModelDocument.decoder rivalsText = .ok rivals := by cbv
  obtain ⟨model, hmodel, hcounts⟩ :=
    exists_of_toOption_any (x := rivals.toModel "model.json")
      (p := fun model => model.shapes.map
        (fun shape => (shape.id.text, shape.traits.length, shape.members.length)) =
          [("a#L", 0, 1), ("a#S", 1, 0)])
      (by decide +kernel)
  have hload : Model.parse rivalsText "model.json" = .ok model :=
    bind_eq_ok.mpr ⟨rivals, mapError_eq_ok.mpr hrivals, hmodel⟩
  have hdocument := Json.decodeText_gives ModelDocument.decoder_gives hrivals
  refine ⟨model, hload, hrivals, of_decide_eq_true hcounts, fun hkept => ?_⟩
  refine (ModelDocument.kept_iff hdocument hmodel).mp hkept
    ⟨_, List.mem_cons_self, .member ?_ (Option.some_ne_none _)⟩
  exact List.mem_cons_self

end Model

end ShapeRules
