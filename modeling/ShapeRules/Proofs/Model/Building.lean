import ShapeRules.Proofs.Fallible
import ShapeRules.Proofs.Model.Enumeration

/-!
How models are built. A model keeps every shape that is added to it, or the first shape that repeats
an id is named.
-/

namespace ShapeRules.Model

open Fallible

/-- The shapes that a step adds. -/
def Step.added : Step → List Shape
  | .addShape shape => [shape]
  | .addShapes shapes => shapes

/-- The id is that of the first shape that repeats the id of an earlier one. -/
def FirstRepeat (shapes : List Shape) (id : ShapeId) : Prop :=
  ∃ before shape behind, shapes = before ++ shape :: behind ∧ shape.id = id ∧
    (before.map Shape.id).Nodup ∧ id ∈ before.map Shape.id

/-- The model enumerates the shapes in their order, each before its members, and finds them and the
members inside them by their ids. The traits are enumerated in the order in which they are first
seen. -/
structure MadeOf (model : Model) (shapes : List Shape) : Prop where
  topLevel : model.shapes = shapes
  enumerated : model.allShapes = shapes.flatMap fun shape => shape :: shape.members
  found : ∀ shape ∈ shapes, shape.id.member = none → model.find? shape.id = some shape
  member : ∀ id name, id.member = some name → ∀ member, model.find? id = some member ↔
    ∃ container ∈ shapes, container.id = id.withoutMember ∧
      container.findMember? name = some member
  traits : ∀ id, id ∈ model.appliedTraits ↔ ∃ shape ∈ model.allShapes, id ∈ shape.traitIds
  firstSeen : model.appliedTraits.Pairwise fun a b =>
    (model.allShapes.flatMap Shape.traitIds).idxOf a <
      (model.allShapes.flatMap Shape.traitIds).idxOf b

variable {model next : Model} {shape : Shape} {shapes : List Shape}

theorem foldl_step (steps : List Step) (declared : List Shape) :
    steps.foldl step declared = declared ++ steps.flatMap Step.added := by
  induction steps generalizing declared with
  | nil => simp
  | cons first steps ih => cases first <;> simp [ih, step, Step.added]

theorem build_eq (steps : List Step) : build steps = ofShapes (steps.flatMap Step.added) := by
  rw [build, foldl_step, List.nil_append]

theorem add_repeated (h : shape.id ∈ model.shapes.map Shape.id) :
    model.add shape = .error ⟨shape.id⟩ := dif_pos h

theorem exists_add (h : shape.id ∉ model.shapes.map Shape.id) :
    ∃ next, model.add shape = .ok next ∧ next.shapes = model.shapes ++ [shape] :=
  ⟨_, dif_neg h, rfl⟩

theorem add_ok (h : model.add shape = .ok next) : next.shapes = model.shapes ++ [shape] := by
  rw [add] at h
  split at h
  · cases h
  · cases h
    rfl

private theorem foldlM_add_ok (h : shapes.foldlM add model = .ok next) :
    next.shapes = model.shapes ++ shapes := by
  induction shapes generalizing model with
  | nil =>
    cases h
    rw [List.append_nil]
  | cons shape rest ih =>
    obtain ⟨extended, hadd, hrest⟩ := bind_eq_ok.mp h
    rw [ih hrest, add_ok hadd, List.append_assoc, List.singleton_append]

/-- Adding stops at the first shape whose id the model or an earlier shape has. -/
private theorem foldlM_add_error_iff {error : DuplicateShape} :
    shapes.foldlM add model = .error error ↔
      ∃ before shape behind, shapes = before ++ shape :: behind ∧ shape.id = error.id ∧
        ((model.shapes ++ before).map Shape.id).Nodup ∧
        error.id ∈ (model.shapes ++ before).map Shape.id := by
  induction shapes generalizing model with
  | nil => simp [pure, Except.pure]
  | cons shape rest ih =>
    rw [List.foldlM_cons]
    by_cases hid : shape.id ∈ model.shapes.map Shape.id
    · rw [add_repeated hid]
      constructor
      · intro h
        cases h
        exact ⟨[], shape, rest, rfl, rfl, by simpa using model.distinct, by simpa using hid⟩
      · rintro ⟨before, other, behind, hsplit, hother, hnodup, -⟩
        cases before with
        | nil =>
          cases hsplit
          rw [hother]
          rfl
        | cons first before =>
          -- the shapes before the first repeat cannot begin with a repeat
          cases hsplit
          rw [List.map_append, List.nodup_append] at hnodup
          exact absurd rfl (hnodup.2.2 _ hid _ List.mem_cons_self)
    · obtain ⟨extended, hadd, hextended⟩ := exists_add hid
      rw [hadd]
      refine ih.trans ?_
      rw [hextended]
      constructor
      · rintro ⟨before, other, behind, rfl, hother, hrepeat⟩
        exact ⟨shape :: before, other, behind, rfl, hother, by simpa using hrepeat⟩
      · rintro ⟨before, other, behind, hsplit, hother, hrepeat⟩
        cases before with
        | nil =>
          cases hsplit
          rw [List.append_nil, ← hother] at hrepeat
          exact absurd hrepeat.2 hid
        | cons first before =>
          cases hsplit
          exact ⟨before, other, behind, rfl, hother, by simpa using hrepeat⟩

theorem ofShapes_ok (h : ofShapes shapes = .ok model) : model.shapes = shapes :=
  foldlM_add_ok h

theorem ofShapes_error_iff {error : DuplicateShape} :
    ofShapes shapes = .error error ↔ FirstRepeat shapes error.id :=
  foldlM_add_error_iff

theorem exists_ofShapes_iff :
    (∃ model, ofShapes shapes = .ok model) ↔ (shapes.map Shape.id).Nodup := by
  constructor
  · rintro ⟨model, h⟩
    rw [← ofShapes_ok h]
    exact model.distinct
  · intro hnodup
    cases h : ofShapes shapes with
    | ok model => exact ⟨model, rfl⟩
    | error error =>
      obtain ⟨before, shape, behind, rfl, hid, -, hmem⟩ := ofShapes_error_iff.mp h
      rw [List.map_append, List.nodup_append] at hnodup
      exact absurd hid.symm (hnodup.2.2 _ hmem _ List.mem_cons_self)

theorem find?_member_iff {id : ShapeId} {name : String} (h : id.member = some name)
    (member : Shape) : model.find? id = some member ↔
      ∃ container ∈ model.shapes, container.id = id.withoutMember ∧
        container.findMember? name = some member := by
  rw [find?, h]
  dsimp only
  constructor
  · intro hfound
    split at hfound
    · cases hfound
    · rename_i container hcontainer
      obtain ⟨hmem, hid⟩ := Keyed.find?_eq_some hcontainer
      exact ⟨container, hmem, hid, hfound⟩
  · rintro ⟨container, hmem, hid, hfound⟩
    rw [(Keyed.find?_eq_some_iff model.distinct).mpr ⟨hmem, hid⟩]
    exact hfound

theorem madeOf_shapes (model : Model) : model.MadeOf model.shapes where
  topLevel := rfl
  enumerated := rfl
  found := by
    intro shape hshape hnone
    rw [find?, hnone]
    exact Keyed.find?_of_mem model.distinct hshape
  member := fun _ _ hname => find?_member_iff hname
  traits := fun _ => mem_appliedTraits
  firstSeen := Keyed.distinct_firstSeen _

/-- Building succeeds just when the added shapes have different ids, and the model is then made of
all of them. Otherwise the first repeated id is reported. -/
theorem shapes_kept_or_repeated (steps : List Step) :
    ((∃ model, build steps = .ok model) ↔
      ((steps.flatMap Step.added).map Shape.id).Nodup) ∧
    (∀ model, build steps = .ok model → model.MadeOf (steps.flatMap Step.added)) ∧
    ∀ error, build steps = .error error ↔ FirstRepeat (steps.flatMap Step.added) error.id := by
  rw [build_eq]
  refine ⟨exists_ofShapes_iff, fun model h => ?_, fun error => ofShapes_error_iff⟩
  rw [← ofShapes_ok h]
  exact madeOf_shapes model

end ShapeRules.Model
