import ShapeRules.Proofs.Fallible
import ShapeRules.Proofs.Keyed
import ShapeRules.Proofs.ShapeId
import ShapeRules.Shape

/-!
How shapes are built. The last step that applies a trait or adds a member decides what the shape
has of it. A trait or a member that is declared where the shape is takes the location that the
shape has at that step, whatever location the shape is given later.
-/

namespace ShapeRules.Shape

open Fallible

namespace Step

/-- Where a shape is after the step, if it is `here` before it. -/
def relocate (here : SourceLocation) : Step → SourceLocation
  | .locate location => location
  | _ => here

/-- The trait that the step applies to a shape that is `here`. -/
def trait? (here : SourceLocation) : Step → Option Trait
  | .applyTrait id node => some ⟨id, node, here⟩
  | .applyTraitAt id node location => some ⟨id, node, location⟩
  | _ => none

/-- The id of the trait that the step applies. -/
def traitId? : Step → Option ShapeId
  | .applyTrait id _ | .applyTraitAt id _ _ => some id
  | _ => none

/-- The name of the member that the step adds. -/
def memberName? : Step → Option String
  | .addMember name _ => some name
  | .addMemberShape member => some member.memberName
  | _ => none

/-- The member that the step adds to the shape. -/
inductive Adds (shape : Shape) : Step → Shape → Prop
  | named {name : String} {target : ShapeId} {member : Shape}
      (h : shape.newMember name target = .ok member) : Adds shape (.addMember name target) member
  | whole (member : Shape) : Adds shape (.addMemberShape member) member

end Step

/-- Where a shape is after the steps, if it is `here` before them. -/
def located (here : SourceLocation) (steps : List Step) : SourceLocation :=
  steps.foldl Step.relocate here

/-- Some steps come before the step, and none behind it has its key. -/
def IsLast {κ : Type} (key? : Step → Option κ) (k : κ) (steps before : List Step) (last : Step) :
    Prop :=
  ∃ behind, steps = before ++ last :: behind ∧ key? last = some k ∧
    ∀ later ∈ behind, key? later ≠ some k

/-- The traits that were last applied, and the members that were last added, without a location of
their own are declared where the shape is. -/
structure DeclaredHere (built : Shape) (steps : List Step) : Prop where
  traits : ∀ applied ∈ built.traits, ∀ before node,
    IsLast Step.traitId? applied.id steps before (.applyTrait applied.id node) →
      applied.location = built.location
  members : ∀ member ∈ built.members, ∀ before target,
    IsLast Step.memberName? member.memberName steps before (.addMember member.memberName target) →
      member.location = built.location

/-- Where a trait was last applied, or a member last added, without a location of its own, the shape
already was where the steps leave it. -/
structure Settled (steps : List Step) : Prop where
  traits : ∀ before id node, IsLast Step.traitId? id steps before (.applyTrait id node) →
    located .unknown before = located .unknown steps
  members : ∀ before name target,
    IsLast Step.memberName? name steps before (.addMember name target) →
      located .unknown before = located .unknown steps

variable {shape next built member : Shape} {s : Step} {steps before : List Step} {id : ShapeId}
  {name : String}

/-! ### One step -/

theorem newMember_ok {target : ShapeId} (h : shape.newMember name target = .ok member) :
    member.memberName = name ∧ member.location = shape.location := by
  obtain ⟨id, hid, h⟩ := bind_eq_ok.mp h
  cases h
  refine ⟨?_, rfl⟩
  have hname : id.member = some name := (ShapeId.withMember_ok hid).2
  simp [memberName, bare, hname]

theorem Step.trait?_id (here : SourceLocation) (s : Step) :
    (s.trait? here).map Trait.id = s.traitId? := by
  cases s <;> rfl

theorem Step.Adds.memberName? (h : s.Adds shape member) :
    s.memberName? = some member.memberName := by
  cases h with
  | named h =>
    rw [(newMember_ok h).1]
    rfl
  | whole member => rfl

/-- What a step does to a shape: it moves the shape, applies the trait that it has, and adds its
member. -/
theorem step_ok (h : shape.step s = .ok next) :
    next.location = s.relocate shape.location ∧
    next.traits = (s.trait? shape.location).elim shape.traits
      (Keyed.put Trait.id · shape.traits) ∧
    (s.memberName? = none ∧ next.members = shape.members ∨
      ∃ member, s.Adds shape member ∧
        next.members = Keyed.put memberName member shape.members) := by
  cases s with
  | addMember name target =>
    obtain ⟨member, hmember, h⟩ := bind_eq_ok.mp h
    cases h
    exact ⟨rfl, rfl, .inr ⟨member, .named hmember, rfl⟩⟩
  | addMemberShape member =>
    cases h
    exact ⟨rfl, rfl, .inr ⟨member, .whole member, rfl⟩⟩
  | _ =>
    cases h
    exact ⟨rfl, rfl, .inl ⟨rfl, rfl⟩⟩

theorem step_findTrait? (h : shape.step s = .ok next) (hid : s.traitId? ≠ some id) :
    next.findTrait? id = shape.findTrait? id := by
  have htraits := (step_ok h).2.1
  rw [← s.trait?_id shape.location] at hid
  rw [findTrait?, htraits]
  cases happlied : s.trait? shape.location with
  | none => rfl
  | some applied =>
    have hne : applied.id ≠ id := by simpa [happlied] using hid
    exact (Keyed.find?_put ..).trans (if_neg hne)

theorem step_findMember? (h : shape.step s = .ok next) (hname : s.memberName? ≠ some name) :
    next.findMember? name = shape.findMember? name := by
  rw [findMember?]
  rcases (step_ok h).2.2 with ⟨-, hmembers⟩ | ⟨member, hadds, hmembers⟩
  · rw [hmembers, findMember?]
  · have hne : member.memberName ≠ name := fun heq => hname (heq ▸ hadds.memberName?)
    rw [hmembers, Keyed.find?_put, if_neg hne, findMember?]

/-! ### A run of steps -/

theorem run_location (h : shape.run steps = .ok built) :
    built.location = located shape.location steps := by
  induction steps generalizing shape with
  | nil =>
    cases h
    rfl
  | cons s steps ih =>
    obtain ⟨next, hstep, h⟩ := bind_eq_ok.mp h
    rw [ih h, (step_ok hstep).1]
    rfl

/-- What no step of a run changes is the same at the end. -/
theorem run_unchanged {α : Type} {f : Shape → α}
    (hstep : ∀ s ∈ steps, ∀ shape next, shape.step s = .ok next → f next = f shape)
    (h : shape.run steps = .ok built) : f built = f shape := by
  induction steps generalizing shape with
  | nil =>
    cases h
    rfl
  | cons s steps ih =>
    obtain ⟨hs, hsteps⟩ := List.forall_mem_cons.mp hstep
    obtain ⟨next, hnext, h⟩ := bind_eq_ok.mp h
    rw [ih hsteps h, hs shape next hnext]

theorem exists_of_run {behind : List Step} (h : shape.run (before ++ s :: behind) = .ok built) :
    ∃ middle next, shape.run before = .ok middle ∧ middle.step s = .ok next ∧
      next.run behind = .ok built := by
  rw [run, List.foldlM_append] at h
  obtain ⟨middle, hbefore, h⟩ := bind_eq_ok.mp h
  obtain ⟨next, hstep, hbehind⟩ := bind_eq_ok.mp h
  exact ⟨middle, next, hbefore, hstep, hbehind⟩

/-- A trait is as it was last applied. -/
theorem run_findTrait? (h : shape.run steps = .ok built)
    (hlast : IsLast Step.traitId? id steps before s) :
    built.findTrait? id = s.trait? (located shape.location before) := by
  obtain ⟨behind, rfl, hid, hlater⟩ := hlast
  obtain ⟨middle, next, hbefore, hstep, hbehind⟩ := exists_of_run h
  have hkept : built.findTrait? id = next.findTrait? id :=
    run_unchanged (f := fun shape => shape.findTrait? id)
      (fun later hmem _ _ hstep => step_findTrait? hstep (hlater later hmem)) hbehind
  have htraits := (step_ok hstep).2.1
  rw [hkept, findTrait?, htraits, run_location hbefore]
  rw [← s.trait?_id (located shape.location before), Option.map_eq_some_iff] at hid
  obtain ⟨applied, happlied, rfl⟩ := hid
  rw [happlied]
  exact (Keyed.find?_put ..).trans (if_pos rfl)

/-- A member is as it was last added. -/
theorem run_findMember? (h : shape.run steps = .ok built)
    (hlast : IsLast Step.memberName? name steps before s) :
    ∃ middle member, shape.run before = .ok middle ∧ s.Adds middle member ∧
      built.findMember? name = some member := by
  obtain ⟨behind, rfl, hname, hlater⟩ := hlast
  obtain ⟨middle, next, hbefore, hstep, hbehind⟩ := exists_of_run h
  have hkept : built.findMember? name = next.findMember? name :=
    run_unchanged (f := fun shape => shape.findMember? name)
      (fun later hmem _ _ hstep => step_findMember? hstep (hlater later hmem)) hbehind
  rcases (step_ok hstep).2.2 with ⟨hnone, -⟩ | ⟨member, hadds, hmembers⟩
  · rw [hnone] at hname
    cases hname
  · have hmember : member.memberName = name := by
      rw [hadds.memberName?] at hname
      exact Option.some.inj hname
    refine ⟨middle, member, hbefore, hadds, ?_⟩
    rw [hkept, findMember?, hmembers, Keyed.find?_put, if_pos hmember]

/-- Each trait id and each member name occurs once. -/
theorem run_nodup {kind : Kind} (h : (bare id kind).run steps = .ok built) :
    (built.traits.map Trait.id).Nodup ∧ (built.members.map memberName).Nodup := by
  refine foldlM_preserves
    (P := fun shape => (shape.traits.map Trait.id).Nodup ∧ (shape.members.map memberName).Nodup)
    ?_ ⟨List.nodup_nil, List.nodup_nil⟩ h
  rintro shape s next ⟨htraits, hmembers⟩ hstep
  obtain ⟨-, happlied, hadded⟩ := step_ok hstep
  constructor
  · rw [happlied]
    cases s.trait? shape.location with
    | none => exact htraits
    | some applied => exact Keyed.nodup_put applied htraits
  · rcases hadded with ⟨-, hnext⟩ | ⟨member, -, hnext⟩
    · rwa [hnext]
    · rw [hnext]
      exact Keyed.nodup_put member hmembers

/-! ### Declarations without a location of their own -/

/-- Exactly if the steps are settled, all traits and members that were last declared without a
location of their own are declared where the shape is. -/
theorem declaredHere_iff_settled {kind : Kind} (h : (bare id kind).run steps = .ok built) :
    built.DeclaredHere steps ↔ Settled steps := by
  have hlocation : built.location = located .unknown steps := run_location h
  constructor
  · intro hhere
    constructor
    · intro before id node hlast
      obtain ⟨hmem, -⟩ := Keyed.find?_eq_some (run_findTrait? h hlast)
      exact (hhere.traits _ hmem before node hlast).trans hlocation
    · intro before name target hlast
      obtain ⟨middle, member, hbefore, hadds, hfound⟩ := run_findMember? h hlast
      obtain ⟨hmem, rfl⟩ := Keyed.find?_eq_some hfound
      cases hadds with
      | named hmember =>
        have hmiddle : middle.location = located .unknown before := run_location hbefore
        rw [← hmiddle, ← (newMember_ok hmember).2, ← hlocation]
        exact hhere.members member hmem before target hlast
  · intro hsettled
    constructor
    · intro applied hmem before node hlast
      -- ids do not repeat, so the trait is the one that its id finds
      have hfound := run_findTrait? h hlast
      rw [findTrait?, Keyed.find?_of_mem (run_nodup h).1 hmem, Step.trait?,
        Option.some.injEq] at hfound
      rw [hlocation, ← hsettled.traits before applied.id node hlast, hfound]
      rfl
    · intro member hmem before target hlast
      obtain ⟨middle, found, hbefore, hadds, hfound⟩ := run_findMember? h hlast
      rw [findMember?, Keyed.find?_of_mem (run_nodup h).2 hmem, Option.some.injEq] at hfound
      subst hfound
      cases hadds with
      | named hmember =>
        have hmiddle : middle.location = located .unknown before := run_location hbefore
        rw [(newMember_ok hmember).2, hmiddle, hlocation]
        exact hsettled.members before _ target hlast

private theorem located_of_fixed {here : SourceLocation}
    (h : ∀ s ∈ steps, ∀ here, s.relocate here = here) : located here steps = here := by
  induction steps with
  | nil => rfl
  | cons s steps ih =>
    obtain ⟨hs, hsteps⟩ := List.forall_mem_cons.mp h
    rw [located, List.foldl_cons, hs]
    exact ih hsteps

/-- Steps that locate the shape first and never again are settled. -/
theorem settled_of_located_first (location : SourceLocation)
    (h : ∀ s ∈ steps, ∀ here, s.relocate here = here) : Settled (.locate location :: steps) := by
  have hbefore {κ : Type} {key? : Step → Option κ} {k : κ} {before : List Step} {last : Step}
      (hlocate : key? (.locate location) = none)
      (hlast : IsLast key? k (.locate location :: steps) before last) :
      located .unknown before = located .unknown (.locate location :: steps) := by
    obtain ⟨behind, hsplit, hkey, -⟩ := hlast
    cases before with
    | nil =>
      cases hsplit
      rw [hlocate] at hkey
      cases hkey
    | cons first before =>
      cases hsplit
      have hfront : ∀ s ∈ before, ∀ here, s.relocate here = here :=
        fun s hs => h s (List.mem_append_left _ hs)
      exact (located_of_fixed hfront).trans (located_of_fixed h).symm
  exact ⟨fun _ _ _ hlast => hbefore rfl hlast, fun _ _ _ hlast => hbefore rfl hlast⟩

/-- A shape that is located first: a trait, the same trait elsewhere, the trait again, a member. -/
theorem declaredHere_iff_settled_located :
    let id : ShapeId := ⟨"a", "S", none, by decide, by decide, by decide⟩
    let steps : List Step := [.locate ⟨"f", 4, 1⟩, .applyTrait id .null,
      .applyTraitAt id .null ⟨"f", 3, 1⟩, .applyTrait id (.bool true), .addMember "m" id]
    ∃ built, (bare id .record).run steps = .ok built ∧ Settled steps ∧
      built.DeclaredHere steps := by
  intro id steps
  have hsettled : Settled steps := by
    refine settled_of_located_first ⟨"f", 4, 1⟩ ?_
    simp only [List.forall_mem_cons]
    exact ⟨fun _ => rfl, fun _ => rfl, fun _ => rfl, fun _ => rfl, List.forall_mem_nil _⟩
  have hrun : (bare id .record).run steps = .ok _ := rfl
  exact ⟨_, hrun, hsettled, (declaredHere_iff_settled hrun).mpr hsettled⟩

/-- A trait and a member that are declared before the shape is located stay behind. -/
theorem declaredElsewhere_of_located_late :
    let id : ShapeId := ⟨"a", "S", none, by decide, by decide, by decide⟩
    let steps : List Step := [.applyTrait id .null, .addMember "m" id, .locate ⟨"f", 4, 1⟩]
    ∃ built, (bare id .record).run steps = .ok built ∧ built.location = ⟨"f", 4, 1⟩ ∧
      built.traits.map Trait.location = [.unknown] ∧ built.members.map location = [.unknown] ∧
      ¬ built.DeclaredHere steps := by
  intro id steps
  refine ⟨_, rfl, rfl, rfl, rfl, fun hhere => ?_⟩
  have hlast : IsLast Step.traitId? id steps [] (.applyTrait id .null) :=
    ⟨_, rfl, rfl, by simp [Step.traitId?]⟩
  have hlocation := hhere.traits ⟨id, .null, .unknown⟩ List.mem_cons_self [] .null hlast
  simp [SourceLocation.unknown] at hlocation

end ShapeRules.Shape
