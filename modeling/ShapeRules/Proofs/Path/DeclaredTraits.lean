import ShapeRules.Proofs.Model.Document
import ShapeRules.Proofs.Path.Shapes

/-!
The traits that a document declares, as paths find them. By each key of a table of traits a path
finds the trait that the key stands for, with the node of the last such key.
-/

namespace ShapeRules

open Fallible

namespace Model

/-- The text is read as a path that gives the value at the shape of the id. -/
def Gives (model : Model) (id : ShapeId) (text : String) (value : Value) : Prop :=
  ∃ path, Path.parse text = .ok path ∧ ∀ bound, path.evaluate model (.shape id bound) = value

variable {model : Model} {id : ShapeId} {shape : Shape}

theorem gives_iff {text : String} {path : Path} (hpath : Path.parse text = .ok path)
    {value : Value} : model.Gives id text value ↔
      ∀ bound, path.evaluate model (.shape id bound) = value := by
  constructor
  · rintro ⟨other, hother, hgives⟩
    rw [hpath] at hother
    cases hother
    exact hgives
  · exact fun hgives => ⟨path, hpath, hgives⟩

theorem gives_trait_iff (h : model.find? id = some shape) {key : String}
    (hkey : Path.SpellsArgument key.toList key.toList) (value : Value) :
    model.Gives id ("@trait(" ++ key ++ ")") value ↔
      .ofOption ((shape.resolveTrait? key).map .ofTrait) = value := by
  have hpath : Path.parse ("@trait(" ++ key ++ ")") = .ok ⟨[.call .trait [key]]⟩ :=
    Path.parse_call .trait rfl hkey
  simp only [gives_iff hpath, Path.evaluate_trait h, forall_const]

theorem gives_has_iff (h : model.find? id = some shape) {key : String}
    (hkey : Path.SpellsArgument key.toList key.toList) (value : Value) :
    model.Gives id ("@has(" ++ key ++ ")") value ↔
      .bool (shape.resolveTrait? key).isSome = value := by
  have hpath : Path.parse ("@has(" ++ key ++ ")") = .ok ⟨[.call .has [key]]⟩ :=
    Path.parse_call .has rfl hkey
  simp only [gives_iff hpath, Path.evaluate_has h, forall_const]

end Model

namespace ModelDocument

/-- The last key of the table that stands for the id gives the node. -/
inductive LastOf (id : ShapeId) (node : Json) : List (String × Json) → Prop
  | here {key : String} {rest : List (String × Json)}
      (hkey : ShapeId.parseRelative ShapeId.prelude key = .ok id)
      (hlast : ∀ other ∈ rest, ShapeId.parseRelative ShapeId.prelude other.1 ≠ .ok id) :
      LastOf id node ((key, node) :: rest)
  | there {first : String × Json} {rest : List (String × Json)} (hrest : LastOf id node rest) :
      LastOf id node (first :: rest)

variable {table : List (String × Json)} {applied : List Trait}

theorem LastOf.exists_key {id : ShapeId} {node : Json} (h : LastOf id node table) :
    ∃ declared ∈ table, ShapeId.parseRelative ShapeId.prelude declared.1 = .ok id := by
  induction h with
  | here hkey _ => exact ⟨_, List.mem_cons_self, hkey⟩
  | there _ ih =>
    obtain ⟨declared, hdeclared, hkey⟩ := ih
    exact ⟨declared, List.mem_cons_of_mem _ hdeclared, hkey⟩

theorem LastOf.unique {id : ShapeId} {node other : Json} (h : LastOf id node table)
    (hother : LastOf id other table) : node = other := by
  induction h with
  | here _ hlast =>
    cases hother with
    | here => rfl
    | there hrest =>
      obtain ⟨declared, hdeclared, hkey⟩ := hrest.exists_key
      exact absurd hkey (hlast declared hdeclared)
  | there hrest ih =>
    cases hother with
    | here _ hlast =>
      obtain ⟨declared, hdeclared, hkey⟩ := hrest.exists_key
      exact absurd hkey (hlast declared hdeclared)
    | there hrest' => exact ih hrest'

/-- Of the traits that a table declares the last one of an id remains. -/
private theorem lastOf_of_find? (h : List.Forall₂ TraitOf table applied) {start : List Trait}
    {id : ShapeId} {found : Trait}
    (hfound : Keyed.find? Trait.id id
      (applied.foldl (fun known x => Keyed.put Trait.id x known) start) = some found) :
    LastOf id found.node table ∨ (Keyed.find? Trait.id id start = some found ∧
      ∀ other ∈ table, ShapeId.parseRelative ShapeId.prelude other.1 ≠ .ok id) := by
  induction h generalizing start with
  | nil => exact .inr ⟨hfound, by simp⟩
  | @cons declared next table applied hfirst _ ih =>
    obtain ⟨key, node⟩ := declared
    obtain ⟨hkey, hnode⟩ := hfirst
    rcases ih hfound with hrest | ⟨hput, hnone⟩
    · exact .inl (.there hrest)
    · rw [Keyed.find?_put] at hput
      split at hput
      · rename_i hid
        cases hput
        rw [hnode]
        exact .inl (.here (hid ▸ hkey) hnone)
      · rename_i hid
        refine .inr ⟨hput, List.forall_mem_cons.mpr ⟨fun hother => hid ?_, hnone⟩⟩
        rw [hkey] at hother
        cases hother
        rfl

end ModelDocument

/-- The shape has the traits of the table, in the order of the first keys of their ids and with the
nodes of the last. -/
structure Shape.HasTraits (shape : Shape) (table : List (String × Json)) : Prop where
  order : ∃ ids, List.Forall₂ (fun declared id =>
    ShapeId.parseRelative ShapeId.prelude declared.1 = .ok id) table ids ∧
      shape.traitIds = Keyed.distinct ids
  distinct : shape.traitIds.Nodup
  nodes : ∀ applied ∈ shape.traits, ModelDocument.LastOf applied.id applied.node table

theorem ModelDocument.hasTraits {shape : Shape} {table : List (String × Json)}
    {applied : List Trait} (happlied : List.Forall₂ TraitOf table applied)
    (hshape : shape.traits = applied.foldl (fun known x => Keyed.put Trait.id x known) []) :
    shape.HasTraits table := by
  have hids : shape.traitIds.Nodup := by
    rw [Shape.traitIds, hshape]
    exact Keyed.nodup_foldl_put List.nodup_nil
  refine ⟨⟨applied.map Trait.id, ?_, ?_⟩, hids, fun found hfound => ?_⟩
  · exact List.forall₂_map_right_iff.mpr (happlied.imp fun _ _ h => h.1)
  · rw [Shape.traitIds, hshape, Keyed.keys_foldl_put]
  · have hfind := Keyed.find?_of_mem hids hfound
    rw [hshape] at hfind
    refine (lastOf_of_find? happlied hfind).resolve_right ?_
    rintro ⟨hnone, -⟩
    cases hnone

/-- What a path finds under a bare name: the built-in trait of the name, or else the first trait of
the name, or else nothing. -/
structure Model.FindsNamed (model : Model) (shape : Shape) (name : String) : Prop where
  absent_iff : model.Gives shape.id ("@trait(" ++ name ++ ")") .absent ↔
    ∀ applied ∈ shape.traits, ¬ applied.Named name
  builtIn : ∀ applied ∈ shape.traits, applied.Named name →
    applied.id.nameSpace = ShapeId.prelude →
      model.Gives shape.id ("@trait(" ++ name ++ ")") (.ofTrait applied)
  first : (∀ applied ∈ shape.traits, applied.Named name →
      applied.id.nameSpace ≠ ShapeId.prelude) →
    ∀ before applied behind, shape.traits = before ++ applied :: behind → applied.Named name →
      (∀ other ∈ before, ¬ other.Named name) →
        model.Gives shape.id ("@trait(" ++ name ++ ")") (.ofTrait applied)

/-- What paths find of the traits that a table declares for a shape. -/
structure Model.FindsTraits (model : Model) (shape : Shape) (table : List (String × Json)) :
    Prop where
  has : shape.HasTraits table
  declared : ∀ key node, (key, node) ∈ table → ∃ id last,
    ShapeId.parseRelative ShapeId.prelude key = .ok id ∧ ModelDocument.LastOf id last table ∧
      model.Gives shape.id ("@trait(" ++ key ++ ")") (.node last (some id)) ∧
      model.Gives shape.id ("@has(" ++ key ++ ")") (.bool true)
  named : ∀ name, ShapeId.isIdentifier name = true → model.FindsNamed shape name

namespace Model

variable {model : Model} {shape : Shape}

theorem findsNamed (h : model.find? shape.id = some shape) (hids : shape.traitIds.Nodup)
    {name : String} (hname : ShapeId.isIdentifier name = true) : model.FindsNamed shape name := by
  have hgives := gives_trait_iff h (Path.spells_identifier hname)
  constructor
  · rw [hgives, ← Shape.resolveTrait?_eq_none_iff hname hids]
    cases shape.resolveTrait? name <;> simp [Value.ofOption, Value.ofTrait]
  · intro applied happlied hnamed hspace
    rw [hgives, Shape.resolveTrait?_builtIn hname hids happlied hnamed hspace]
    rfl
  · intro hno before applied behind htraits hnamed hbefore
    rw [hgives, Shape.resolveTrait?_first hname htraits hnamed hbefore hno]
    rfl

theorem findsTraits (h : model.find? shape.id = some shape) {table : List (String × Json)}
    (hhas : shape.HasTraits table) : model.FindsTraits shape table := by
  refine ⟨hhas, fun key node hmem => ?_, fun name hname => findsNamed h hhas.distinct hname⟩
  obtain ⟨ids, hids, horder⟩ := hhas.order
  obtain ⟨id, hid, hkey⟩ := Aligned.exists_of_mem_left hids hmem
  have happlied : id ∈ shape.traitIds := by
    rw [horder]
    exact Keyed.mem_distinct.mpr hid
  obtain ⟨found, hfound⟩ := Keyed.exists_find?_iff.mpr happlied
  have hresolve := Shape.resolveTrait?_of_key hkey hfound
  obtain ⟨hmem, rfl⟩ := Keyed.find?_eq_some hfound
  refine ⟨found.id, found.node, hkey, hhas.nodes found hmem, ?_, ?_⟩
  · rw [gives_trait_iff h (Path.spells_key hkey), hresolve]
    rfl
  · rw [gives_has_iff h (Path.spells_key hkey), hresolve]
    rfl

end Model

namespace Path

/-- The traits that an accepted document declares for a shape or a member are found by every name
that they are declared with, wherever the model has the shape or member that is built. -/
theorem declared_traits_found {text filename : String} {model : Model}
    (hload : Model.parse text filename = .ok model) :
    ∃ document, Json.decodeText ModelDocument.decoder text = .ok document ∧
      ∀ key entry, (key, entry) ∈ document.shapes → ∃ shape,
        ShapeId.parse key = .ok shape.id ∧
        ModelDocument.shape ⟨filename, 0, 0⟩ shape.id entry = .ok shape ∧
        (shape.id.member = none → model.find? shape.id = some shape) ∧
        (model.find? shape.id = some shape → model.FindsTraits shape entry.traits) ∧
        ∀ name declared, entry.Declares name declared → ∃ member,
          shape.id.withMember name = .ok member.id ∧
          ModelDocument.memberShape shape.id ⟨filename, 0, 0⟩ name declared = .ok member ∧
          (model.find? member.id = some member → model.FindsTraits member declared.traits) := by
  obtain ⟨document, hdecode, hmodel⟩ := bind_eq_ok.mp hload
  refine ⟨document, mapError_eq_ok.mp hdecode, fun key entry hentry => ?_⟩
  obtain ⟨shape, hshape, id, hid, hbuilt⟩ :=
    Aligned.exists_of_mem_left (ModelDocument.toModel_aligned hmodel) hentry
  obtain rfl : shape.id = id := (ModelDocument.shape_ok hbuilt).1
  obtain ⟨⟨applied, happlied, htraits⟩, hmembers⟩ := ModelDocument.shape_built hbuilt
  refine ⟨shape, hid, hbuilt, fun hnone => ?_, fun hfind => ?_, fun name declared hdeclared => ?_⟩
  · rw [Model.find?, hnone]
    exact Keyed.find?_of_mem model.distinct hshape
  · exact Model.findsTraits hfind (ModelDocument.hasTraits happlied htraits)
  · obtain ⟨member, hmember⟩ := hmembers name declared hdeclared
    obtain ⟨applied, happlied, htraits⟩ := (ModelDocument.memberShape_declared hmember).traits
    exact ⟨member, ModelDocument.memberShape_id hmember, hmember,
      fun hfind => Model.findsTraits hfind (ModelDocument.hasTraits happlied htraits)⟩

/-- Of two keys that stand for one id the last one counts. A bare name may stand for a trait of any
namespace, but not for one whose id is that of a member. -/
theorem declared_traits_found_note :
    Model.parse noteText "model.json" = .ok noteModel ∧
    noteModel.Gives noteId "@trait(since)" (.node (.string "5") (some sinceId)) ∧
    noteModel.Gives noteId "@trait(mark)" (.node (.string "3") (some markId)) ∧
    noteModel.Gives bodyId "@has(since$x)" (.bool true) ∧
    noteModel.Gives bodyId "@trait(since)" .absent := by
  obtain ⟨document, hdecode, hfound⟩ := declared_traits_found parse_noteText
  rw [decode_noteText] at hdecode
  cases hdecode
  obtain ⟨shape, hid, hbuilt, -, htraits, hmembers⟩ := hfound "a#Note" _ List.mem_cons_self
  have hnote : ModelDocument.shape ⟨"model.json", 0, 0⟩ noteId noteEntry = .ok noteShape := by
    with_unfolding_all rfl
  obtain hid : shape.id = noteId :=
    (ShapeId.parse_inj hid (ShapeId.parse_eq_ok_iff.mpr rfl)).mpr rfl
  rw [hid, hnote] at hbuilt
  cases hbuilt
  obtain ⟨member, -, hbuilt, hmember⟩ := hmembers "body" _ (.table List.mem_cons_self)
  have hbody : ModelDocument.memberShape noteShape.id ⟨"model.json", 0, 0⟩ "body" bodyEntry =
      .ok bodyShape := by with_unfolding_all rfl
  rw [hbody] at hbuilt
  cases hbuilt
  have hfinds := htraits rfl
  have hfinds' := hmember rfl
  refine ⟨parse_noteText, ?_, ?_, ?_, ?_⟩
  · obtain ⟨id, last, hid, hlast, hgives, -⟩ :=
      hfinds.declared "since" (.string "2") (by simp [noteEntry])
    obtain rfl : id = sinceId := ShapeId.text_inj.mp (ShapeId.parseRelative_eq_ok_iff.mp hid)
    have hlong : ShapeId.parseRelative ShapeId.prelude "smithy.api#since" = .ok sinceId :=
      ShapeId.parseRelative_text _ sinceId
    rw [hlast.unique (.there (.there (.there (.there (.here hlong (by simp))))))] at hgives
    exact hgives
  · refine (hfinds.named "mark" (by decide)).first ?_ [_, _] _ _ rfl ⟨rfl, rfl⟩ ?_
    · simp [noteShape, Trait.Named, sinceId, markId, ShapeId.builtIn, ShapeId.prelude]
    · simp [Trait.Named, sinceId, ShapeId.builtIn]
  · obtain ⟨id, last, -, -, -, hhas⟩ := hfinds'.declared "since$x" .null List.mem_cons_self
    exact hhas
  · refine (hfinds'.named "since" (by decide)).absent_iff.mpr ?_
    simp [bodyShape, Trait.Named]

end Path

end ShapeRules
