import ShapeRules.Proofs.Shape.Building
import ShapeRules.Proofs.ShapeId.Spelling

/-!
The tables of a built shape. Its traits and its members are found under their own keys, once for each
key, in the order in which the steps first declared them and as they were last declared. The only
steps that fail are those that name a member by no identifier.
-/

namespace ShapeRules.Shape

open Fallible

namespace Step

/-- The member that the step adds to a shape with the id of the container that is `here`. -/
def member? (container : ShapeId) (here : SourceLocation) : Step → Option Shape
  | .addMember name target =>
    (container.withMember name).toOption.map fun id =>
      { bare id .member with target := some target, location := here }
  | .addMemberShape member => some member
  | _ => none

/-- The step names a member by no identifier. -/
def Misnames (s : Step) : Prop :=
  ∃ name target, s = .addMember name target ∧ ¬ ShapeId.SpellsIdentifier name

end Step

/-- What the steps declare, in their order, of a shape that is `here` before them. -/
def declared {α : Type} (what? : SourceLocation → Step → Option α) (here : SourceLocation) :
    List Step → List α
  | [] => []
  | s :: steps => (what? here s).toList ++ declared what? (s.relocate here) steps

/-- The error is about the first step that names a member of the container by no identifier: it shows
the id that the member would have. -/
inductive FirstMisnamed (container : ShapeId) : List Step → InvalidShapeId → Prop
  | here {name : String} {target : ShapeId} {steps : List Step}
      (h : ¬ ShapeId.SpellsIdentifier name) :
      FirstMisnamed container (.addMember name target :: steps) ⟨container.text ++ "$" ++ name⟩
  | later {s : Step} {steps : List Step} {error : InvalidShapeId} (hs : ¬ s.Misnames)
      (hsteps : FirstMisnamed container steps error) : FirstMisnamed container (s :: steps) error

/-- The shape has the id and the kind that it was begun with, and its traits and members are those
that the steps declare. Locating and aiming it change neither. -/
structure DeclaredBy (built : Shape) (id : ShapeId) (kind : Kind) (steps : List Step) : Prop where
  id_eq : built.id = id
  kind_eq : built.kind = kind
  traits : Keyed.Tabulates Trait.id (declared Step.trait? .unknown steps) built.traits
  members : Keyed.Tabulates memberName (declared (Step.member? id) .unknown steps) built.members
  locate : ∀ location, ∃ next, built.step (.locate location) = .ok next ∧
    next.traits = built.traits ∧ next.members = built.members
  aim : ∀ target, ∃ next, built.step (.aim target) = .ok next ∧
    next.traits = built.traits ∧ next.members = built.members

variable {shape next built : Shape} {s : Step} {steps : List Step} {error : InvalidShapeId}

/-! ### One step -/

/-- A step keeps id and kind, and puts the member that it adds among the members. -/
theorem step_members (h : shape.step s = .ok next) :
    next.id = shape.id ∧ next.kind = shape.kind ∧
    next.members = (s.member? shape.id shape.location).elim shape.members
      (Keyed.put memberName · shape.members) := by
  cases s with
  | addMember name target =>
    obtain ⟨member, hmember, h⟩ := bind_eq_ok.mp h
    obtain ⟨id, hid, hmember⟩ := bind_eq_ok.mp hmember
    cases h
    cases hmember
    refine ⟨rfl, rfl, ?_⟩
    rw [Step.member?, hid]
    rfl
  | _ =>
    cases h
    exact ⟨rfl, rfl, rfl⟩

/-- A step fails just when it names a member by no identifier. -/
theorem step_error_iff : shape.step s = .error error ↔
    ∃ name target, s = .addMember name target ∧ ¬ ShapeId.SpellsIdentifier name ∧
      error = ⟨shape.id.text ++ "$" ++ name⟩ := by
  cases s with
  | addMember name target =>
    have hstep : shape.step (.addMember name target) = .error error ↔
        shape.id.withMember name = .error error := by
      rw [step, newMember]
      cases shape.id.withMember name <;> simp [bind, Except.bind, pure, Except.pure]
    rw [hstep, ShapeId.withMember_eq_error_iff]
    constructor
    · exact fun h => ⟨name, target, rfl, h⟩
    · rintro ⟨_, _, ⟨⟩, h⟩
      exact h
  | _ => simp [step]

theorem not_misnames (h : shape.step s = .ok next) : ¬ s.Misnames := by
  rintro ⟨name, target, hs, hname⟩
  rw [step_error_iff.mpr ⟨name, target, hs, hname, rfl⟩] at h
  cases h

/-! ### A run of steps -/

/-- A run fails at the first step that names a member by no identifier. -/
theorem run_error_iff : shape.run steps = .error error ↔ FirstMisnamed shape.id steps error := by
  induction steps generalizing shape with
  | nil =>
    constructor <;> rintro ⟨⟩
  | cons s steps ih =>
    rw [run, List.foldlM_cons]
    cases hstep : shape.step s with
    | error found =>
      obtain ⟨name, target, rfl, hname, rfl⟩ := step_error_iff.mp hstep
      constructor
      · rintro ⟨⟩
        exact .here hname
      · intro hfirst
        cases hfirst with
        | here => rfl
        | later hs => exact absurd ⟨name, target, rfl, hname⟩ hs
    | ok next =>
      have hs := not_misnames hstep
      refine ih.trans ?_
      rw [(step_members hstep).1]
      constructor
      · exact .later hs
      · intro hfirst
        cases hfirst with
        | here hname => exact absurd ⟨_, _, rfl, hname⟩ hs
        | later _ hsteps => exact hsteps

/-- A run succeeds just when each member is named by an identifier. -/
theorem exists_run_iff : (∃ built, shape.run steps = .ok built) ↔ ∀ s ∈ steps, ¬ s.Misnames := by
  induction steps generalizing shape with
  | nil => exact ⟨fun _ => List.forall_mem_nil _, fun _ => ⟨shape, rfl⟩⟩
  | cons s steps ih =>
    rw [List.forall_mem_cons]
    constructor
    · rintro ⟨built, h⟩
      obtain ⟨next, hstep, h⟩ := bind_eq_ok.mp h
      exact ⟨not_misnames hstep, ih.mp ⟨built, h⟩⟩
    · rintro ⟨hs, hsteps⟩
      cases hstep : shape.step s with
      | error found =>
        obtain ⟨name, target, hmember, hname, -⟩ := step_error_iff.mp hstep
        exact absurd ⟨name, target, hmember, hname⟩ hs
      | ok next =>
        obtain ⟨built, h⟩ := ih.mpr hsteps
        exact ⟨built, bind_eq_ok.mpr ⟨next, hstep, h⟩⟩

/-- What a run declares is put in, one after the other, behind what the shape had. -/
theorem run_tables (h : shape.run steps = .ok built) :
    built.id = shape.id ∧ built.kind = shape.kind ∧
    built.traits = (declared Step.trait? shape.location steps).foldl
      (fun known applied => Keyed.put Trait.id applied known) shape.traits ∧
    built.members = (declared (Step.member? shape.id) shape.location steps).foldl
      (fun known member => Keyed.put memberName member known) shape.members := by
  induction steps generalizing shape with
  | nil =>
    cases h
    exact ⟨rfl, rfl, rfl, rfl⟩
  | cons s steps ih =>
    obtain ⟨next, hstep, h⟩ := bind_eq_ok.mp h
    obtain ⟨hid, hkind, htraits, hmembers⟩ := ih h
    obtain ⟨hlocation, happlied, -⟩ := step_ok hstep
    obtain ⟨hid', hkind', hadded⟩ := step_members hstep
    refine ⟨hid.trans hid', hkind.trans hkind', ?_, ?_⟩
    · rw [htraits, happlied, hlocation, declared, List.foldl_append]
      cases Step.trait? shape.location s <;> rfl
    · rw [hmembers, hadded, hlocation, hid', declared, List.foldl_append]
      cases Step.member? shape.id shape.location s <;> rfl

/-- A run succeeds just when each member is named by an identifier, and otherwise fails for the first
that is not. A shape that is built has what was declared, each trait and each member once, in its
first place and as it was last declared. -/
theorem run_declares (id : ShapeId) (kind : Kind) (steps : List Step) :
    ((∃ built, (bare id kind).run steps = .ok built) ↔ ∀ s ∈ steps, ¬ s.Misnames) ∧
    (∀ error, (bare id kind).run steps = .error error ↔ FirstMisnamed id steps error) ∧
    ∀ built, (bare id kind).run steps = .ok built → built.DeclaredBy id kind steps := by
  refine ⟨exists_run_iff, fun error => run_error_iff, fun built h => ?_⟩
  obtain ⟨hid, hkind, htraits, hmembers⟩ := run_tables h
  refine ⟨hid, hkind, ?_, ?_, fun location => ⟨_, rfl, rfl, rfl⟩, fun target => ⟨_, rfl, rfl, rfl⟩⟩
  · rw [htraits]
    exact Keyed.tabulates_foldl_put
  · rw [hmembers]
    exact Keyed.tabulates_foldl_put

/-- A trait and a member are declared again in their places, and then a member without a name
fails. -/
theorem run_declares_again :
    let id : ShapeId := ⟨"a", "S", none, by decide, by decide, by decide⟩
    let other : ShapeId := ⟨"a", "T", none, by decide, by decide, by decide⟩
    let steps : List Step := [.applyTrait id .null, .locate ⟨"f", 4, 1⟩, .addMember "m" id,
      .applyTraitAt other .null ⟨"f", 3, 1⟩, .applyTrait id (.bool true),
      .addMemberShape (bare other .record), .addMember "m" other, .aim id]
    (∃ built, (bare id .record).run steps = .ok built ∧
      built.traits.map Trait.id = [id, other] ∧
      built.traits.map Trait.location = [⟨"f", 4, 1⟩, ⟨"f", 3, 1⟩] ∧
      built.members.map memberName = ["m", "T"] ∧
      built.members.map target = [some other, none] ∧ built.DeclaredBy id .record steps) ∧
    FirstMisnamed id (steps ++ [.addMember "" id]) ⟨"a#S$"⟩ := by
  intro id other steps
  have hrun : (bare id .record).run steps = .ok _ := rfl
  have hfails : (bare id .record).run (steps ++ [.addMember "" id]) = .error ⟨"a#S$"⟩ := rfl
  exact ⟨⟨_, hrun, rfl, rfl, rfl, rfl, (run_declares id .record steps).2.2 _ hrun⟩,
    ((run_declares id .record _).2.1 _).mp hfails⟩

end ShapeRules.Shape
