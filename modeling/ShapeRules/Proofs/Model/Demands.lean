import ShapeRules.Model.Document
import ShapeRules.Proofs.Model.Loaded
import ShapeRules.Proofs.ShapeId.Spelling

/-!
What documents have to satisfy. A document makes its demands one after the other, and loading it
fails for the first one that is not met.
-/

namespace ShapeRules

open Fallible

/-- What the text at one place of a document has to satisfy. -/
inductive Demand where
  /-- The text is an absolute id. -/
  | shapeId (text : String)
  /-- The text is the name of a kind. -/
  | kind (name : String)
  /-- The key of a table of traits stands for an id. -/
  | traitId (key : String)
  /-- The members of the shape under the key may have the name. -/
  | memberName (key name : String)

namespace Demand

def Met : Demand → Prop
  | shapeId text => ShapeId.Spells text
  | kind name => ∃ kind : Kind, kind.name = name
  | traitId key => ShapeId.Spells (ShapeId.absolute ShapeId.prelude key)
  | memberName _ name => ShapeId.SpellsIdentifier name

/-- What is reported of a demand that is not met. -/
def complaint : Demand → ModelError
  | shapeId text => .invalidShapeId ⟨text⟩
  | kind name => .unknownKind name
  | traitId key => .invalidShapeId ⟨ShapeId.absolute ShapeId.prelude key⟩
  | memberName key name => .invalidShapeId ⟨key ++ "$" ++ name⟩

/-- The error is what is reported of the first demand that is not met. -/
inductive FirstUnmet : List Demand → ModelError → Prop
  | here {demand : Demand} {rest : List Demand} (h : ¬ demand.Met) :
      FirstUnmet (demand :: rest) demand.complaint
  | later {demand : Demand} {rest : List Demand} {error : ModelError} (hmet : demand.Met)
      (hrest : FirstUnmet rest error) : FirstUnmet (demand :: rest) error

variable {demand : Demand} {front back : List Demand} {error other : ModelError}

theorem FirstUnmet.not_forall (h : FirstUnmet front error) : ¬ ∀ demand ∈ front, demand.Met := by
  induction h with
  | here h => exact fun hall => h (hall _ List.mem_cons_self)
  | later _ _ ih => exact fun hall => ih (List.forall_mem_cons.mp hall).2

theorem FirstUnmet.unique (h : FirstUnmet front error) (h' : FirstUnmet front other) :
    error = other := by
  induction h with
  | here h =>
    cases h' with
    | here => rfl
    | later hmet => exact absurd hmet h
  | later hmet _ ih =>
    cases h' with
    | here h => exact absurd hmet h
    | later _ hrest => exact ih hrest

theorem FirstUnmet.append_right (h : FirstUnmet front error) :
    FirstUnmet (front ++ back) error := by
  induction h with
  | here h => exact .here h
  | later hmet _ ih => exact .later hmet ih

theorem FirstUnmet.append_left (hmet : ∀ demand ∈ front, demand.Met) (h : FirstUnmet back error) :
    FirstUnmet (front ++ back) error := by
  induction front with
  | nil => exact h
  | cons demand front ih =>
    obtain ⟨hfirst, hothers⟩ := List.forall_mem_cons.mp hmet
    exact .later hfirst (ih hothers)

/-- The demands govern a computation: it has a result if all of them are met, and otherwise fails
for the first one that is not. -/
def Govern {α : Type} (demands : List Demand) (x : Except ModelError α) : Prop :=
  match x with
  | .ok _ => ∀ demand ∈ demands, demand.Met
  | .error error => FirstUnmet demands error

section Rules

variable {α β σ : Type} {x : Except ModelError α} {f : α → Except ModelError β}

theorem Govern.ok_iff (h : Govern front x) :
    (∃ a, x = .ok a) ↔ ∀ demand ∈ front, demand.Met := by
  cases x with
  | ok a => exact ⟨fun _ => h, fun _ => ⟨a, rfl⟩⟩
  | error error =>
    constructor
    · rintro ⟨a, ⟨⟩⟩
    · exact fun hmet => absurd hmet h.not_forall

theorem Govern.error_iff (h : Govern front x) : x = .error error ↔ FirstUnmet front error := by
  cases x with
  | ok a =>
    constructor
    · rintro ⟨⟩
    · exact fun hfirst => absurd h hfirst.not_forall
  | error found =>
    constructor
    · rintro ⟨⟩
      exact h
    · intro hfirst
      rw [FirstUnmet.unique h hfirst]

theorem govern_pure (a : α) : Govern [] (pure a : Except ModelError α) := by
  rintro demand ⟨⟩

theorem Govern.bind (h : Govern front x) (hf : ∀ a, x = .ok a → Govern back (f a)) :
    Govern (front ++ back) (x >>= f) := by
  cases x with
  | error error => exact h.append_right
  | ok a =>
    have hback := hf a rfl
    change Govern (front ++ back) (f a)
    cases hresult : f a with
    | ok b =>
      rw [hresult] at hback
      exact List.forall_mem_append.mpr ⟨h, hback⟩
    | error error =>
      rw [hresult] at hback
      exact FirstUnmet.append_left h hback

theorem Govern.cons (hmet : demand.Met) (h : Govern front x) : Govern (demand :: front) x := by
  cases x with
  | ok a => exact List.forall_mem_cons.mpr ⟨hmet, h⟩
  | error error => exact .later hmet h

/-- A computation whose result is made into another one is governed by the same demands. -/
theorem Govern.map (h : Govern front x) (g : α → β) :
    Govern front (x >>= fun a => pure (g a)) := by
  rw [← List.append_nil front]
  exact h.bind fun a _ => govern_pure (g a)

theorem Govern.foldlM {demands : α → List Demand} {step : σ → α → Except ModelError σ}
    (hstep : ∀ s a, Govern (demands a) (step s a)) (as : List α) (s : σ) :
    Govern (as.flatMap demands) (as.foldlM step s) := by
  induction as generalizing s with
  | nil => exact govern_pure s
  | cons a as ih =>
    rw [List.flatMap_cons, List.foldlM_cons]
    exact (hstep s a).bind fun next _ => ih next

theorem Govern.mapM {demands : α → List Demand} (hf : ∀ a, Govern (demands a) (f a))
    (as : List α) : Govern (as.flatMap demands) (as.mapM f) := by
  induction as with
  | nil => exact govern_pure []
  | cons a as ih =>
    rw [List.flatMap_cons, List.mapM_cons]
    exact (hf a).bind fun first _ => ih.map (first :: ·)

end Rules

/-- An id that is made just when a demand is met is governed by that demand alone. -/
theorem govern_id {x : Except InvalidShapeId ShapeId} (hok : ∀ id, x = .ok id → demand.Met)
    (herror : ∀ error, x = .error error →
      ¬ demand.Met ∧ demand.complaint = .invalidShapeId error) :
    Govern [demand] (x.mapError .invalidShapeId) := by
  cases x with
  | ok id => exact List.forall_mem_singleton.mpr (hok id rfl)
  | error error =>
    obtain ⟨hunmet, hcomplaint⟩ := herror error rfl
    change FirstUnmet [demand] (.invalidShapeId error)
    rw [← hcomplaint]
    exact .here hunmet

/-- Reading an id is governed by the demand for one. -/
theorem govern_parse {text : String} (hmet : demand.Met ↔ ShapeId.Spells text)
    (hcomplaint : demand.complaint = .invalidShapeId ⟨text⟩) :
    Govern [demand] ((ShapeId.parse text).mapError .invalidShapeId) := by
  refine govern_id (fun id h => hmet.mpr (ShapeId.exists_parse_iff.mp ⟨id, h⟩)) fun error h => ?_
  obtain ⟨hunmet, rfl⟩ := ShapeId.parse_eq_error_iff.mp h
  exact ⟨mt hmet.mp hunmet, hcomplaint⟩

theorem govern_withMember {id : ShapeId} (name : String) :
    Govern [.memberName id.text name] ((id.withMember name).mapError .invalidShapeId) := by
  refine govern_id (fun made h => ShapeId.exists_withMember_iff.mp ⟨made, h⟩) fun error h => ?_
  obtain ⟨hunmet, rfl⟩ := ShapeId.withMember_eq_error_iff.mp h
  exact ⟨hunmet, rfl⟩

end Demand

/-- The demands of a table of traits. -/
def traitDemands (table : List (String × Json)) : List Demand :=
  table.map fun declared => .traitId declared.1

/-- The demands of a member that is declared under a name, for the shape under a key. -/
def MemberEntry.demands (key : String) (declared : String × MemberEntry) : List Demand :=
  .memberName key declared.1 :: .shapeId declared.2.target :: traitDemands declared.2.traits

/-- The members of the table, and then the ones that are declared by themselves. -/
def ShapeEntry.declarations (entry : ShapeEntry) : List (String × MemberEntry) :=
  entry.members ++ entry.member.toList.map (Prod.mk "member") ++
    entry.key.toList.map (Prod.mk "key") ++ entry.value.toList.map (Prod.mk "value")

/-- The demands of a shape that is declared under a key. -/
def ShapeEntry.demands (declared : String × ShapeEntry) : List Demand :=
  .shapeId declared.1 :: .kind declared.2.kind ::
    (traitDemands declared.2.traits ++
      declared.2.declarations.flatMap (MemberEntry.demands declared.1))

/-- The demands of the document, shape by shape. -/
def ModelDocument.demands (document : ModelDocument) : List Demand :=
  document.shapes.flatMap ShapeEntry.demands

theorem ShapeEntry.allMembers_eq (entry : ShapeEntry) : entry.allMembers = entry.declarations := by
  obtain ⟨_, members, member, key, value, _⟩ := entry
  cases member <;> cases key <;> cases value <;> simp [allMembers, declarations]

namespace ModelDocument

open Demand

theorem govern_applyTraits (shape : Shape) (table : List (String × Json)) :
    Govern (traitDemands table) (applyTraits shape table) := by
  rw [traitDemands, List.map_eq_flatMap]
  refine Govern.foldlM ?_ table shape
  rintro shape ⟨key, node⟩
  dsimp only
  rw [ShapeId.parseRelative_eq]
  exact (govern_parse Iff.rfl rfl).map fun id => shape.putTrait ⟨id, node, shape.location⟩

theorem govern_memberShape (container : ShapeId) (location : SourceLocation)
    (declared : String × MemberEntry) :
    Govern (MemberEntry.demands container.text declared)
      (memberShape container location declared.1 declared.2) := by
  refine (govern_withMember declared.1).bind fun id _ => ?_
  refine (govern_parse Iff.rfl rfl).bind fun target _ => ?_
  exact govern_applyTraits _ _

theorem govern_shape (location : SourceLocation) (id : ShapeId) (entry : ShapeEntry) :
    Govern (.kind entry.kind :: (traitDemands entry.traits ++
      entry.declarations.flatMap (MemberEntry.demands id.text)))
      (ModelDocument.shape location id entry) := by
  rw [ModelDocument.shape, ← ShapeEntry.allMembers_eq]
  cases hkind : Kind.ofName? entry.kind with
  | none =>
    refine .here ?_
    rintro ⟨kind, hname⟩
    rw [← hname, Kind.ofName?_name] at hkind
    cases hkind
  | some kind =>
    refine Govern.cons ⟨kind, Kind.name_of_ofName? hkind⟩ ?_
    refine (govern_applyTraits _ _).bind fun start _ => Govern.foldlM ?_ _ start
    rintro shape ⟨name, member⟩
    exact (govern_memberShape id location (name, member)).map shape.putMember

/-- Shapes under different keys have different ids. -/
private theorem nodup_ids_of_keys {document : ModelDocument} {shapes : List Shape}
    (hkeys : Keyed.DistinctKeys document.shapes)
    (h : List.Forall₂ (fun declared shape => shape.id.text = declared.1) document.shapes shapes) :
    (shapes.map Shape.id).Nodup := by
  have htexts : document.shapes.map Prod.fst = (shapes.map Shape.id).map ShapeId.text := by
    rw [List.map_map]
    exact Aligned.map_eq h fun _ _ htext => htext.symm
  rw [Keyed.DistinctKeys, htexts] at hkeys
  exact hkeys.of_map

/-- Loading a document whose shapes have different keys is governed by its demands. No id repeats,
since ids are written as the keys they are read from. -/
theorem govern_toModel {document : ModelDocument} (hkeys : Keyed.DistinctKeys document.shapes)
    (filename : String) : Govern document.demands (document.toModel filename) := by
  rw [demands, ← List.append_nil (document.shapes.flatMap _), toModel]
  refine Govern.bind (Govern.mapM ?_ document.shapes) fun shapes hshapes => ?_
  · rintro ⟨key, entry⟩
    refine (govern_parse Iff.rfl rfl).bind fun id hid => ?_
    rw [← ShapeId.text_of_parse (mapError_eq_ok.mp hid)]
    exact govern_shape _ id entry
  · -- making the model of the shapes can fail for a repeated id only
    have hids : (shapes.map Shape.id).Nodup := by
      refine nodup_ids_of_keys hkeys ((forall₂_of_mapM hshapes).imp ?_)
      rintro ⟨key, entry⟩ shape hdeclared
      obtain ⟨id, hid, hshape⟩ := bind_eq_ok.mp hdeclared
      rw [(shape_ok hshape).1]
      exact ShapeId.text_of_parse (mapError_eq_ok.mp hid)
    obtain ⟨model, hmodel⟩ := Model.exists_ofShapes_iff.mpr hids
    rw [hmodel]
    exact govern_pure model

end ModelDocument

end ShapeRules
