import ShapeRules.Path.Evaluation
import ShapeRules.Proofs.Keyed
import ShapeRules.Proofs.Path.Reading
import ShapeRules.Proofs.ShapeId

/-!
The names of traits. A trait is found under every key that stands for its id, and such a key is an
argument without quotes. Under a bare name the built-in trait of that name is found, and where that
is not applied, the first trait of the name.
-/

namespace ShapeRules

namespace ShapeId

theorem isNameSpace_prelude : isNameSpace prelude = true := by decide

theorem isIdentifier_of_mem_none : ∀ text ∈ (none : Option String), isIdentifier text = true := by
  simp

/-- The id of the built-in trait of a name. -/
def builtIn (name : String) (h : isIdentifier name = true) : ShapeId :=
  ⟨prelude, name, none, isNameSpace_prelude, h, isIdentifier_of_mem_none⟩

theorem eq_builtIn_iff {name : String} (h : isIdentifier name = true) {id : ShapeId} :
    id = builtIn name h ↔ id.nameSpace = prelude ∧ id.name = name ∧ id.member = none := by
  constructor
  · rintro rfl
    exact ⟨rfl, rfl, rfl⟩
  · rintro ⟨hspace, hname, hmember⟩
    cases id
    cases hspace
    cases hname
    cases hmember
    rfl

theorem parseRelative_identifier {name : String} (h : isIdentifier name = true) :
    parseRelative prelude name = .ok (builtIn name h) := by
  rw [parseRelative_eq_ok_iff, absolute, if_neg (mark_not_mem_identifier h)]
  exact String.append_empty

end ShapeId

/-- The trait has the name and is no member. -/
def Trait.Named (name : String) (applied : Trait) : Prop :=
  applied.id.name = name ∧ applied.id.member = none

namespace Shape

variable {shape : Shape} {applied : Trait}

theorem findTrait?_eq_some_iff (hids : shape.traitIds.Nodup) {id : ShapeId} :
    shape.findTrait? id = some applied ↔ applied ∈ shape.traits ∧ applied.id = id :=
  Keyed.find?_eq_some_iff hids

/-- A trait that is applied is found under each key that stands for its id. -/
theorem resolveTrait?_of_key {key : String} {id : ShapeId}
    (hkey : ShapeId.parseRelative ShapeId.prelude key = .ok id)
    (h : shape.findTrait? id = some applied) : shape.resolveTrait? key = some applied := by
  unfold resolveTrait?
  split
  · rename_i hmark
    rw [ShapeId.parseRelative, if_pos hmark, ShapeId.parse_eq_ok_iff] at hkey
    rw [← hkey, ShapeId.parse?_text]
    exact h
  · simp only [hkey, h]

theorem resolveTrait?_text (hids : shape.traitIds.Nodup) (h : applied ∈ shape.traits) :
    shape.resolveTrait? applied.id.text = some applied :=
  resolveTrait?_of_key (ShapeId.parseRelative_text _ _) ((findTrait?_eq_some_iff hids).mpr ⟨h, rfl⟩)

private theorem named_iff {name : String} : applied.Named name ↔
    (decide (applied.id.name = name) && !applied.id.isMember) = true := by
  simp [Trait.Named, ShapeId.isMember]

section Identifier

variable {name : String} (hname : ShapeId.isIdentifier name = true)
include hname

theorem resolveTrait?_builtIn (hids : shape.traitIds.Nodup) (h : applied ∈ shape.traits)
    (hnamed : applied.Named name) (hspace : applied.id.nameSpace = ShapeId.prelude) :
    shape.resolveTrait? name = some applied :=
  resolveTrait?_of_key (ShapeId.parseRelative_identifier hname)
    ((findTrait?_eq_some_iff hids).mpr ⟨h, (ShapeId.eq_builtIn_iff hname).mpr ⟨hspace, hnamed⟩⟩)

/-- Where no built-in trait of the name is applied the search goes through all traits. -/
private theorem resolveTrait?_of_no_builtIn
    (hno : ∀ applied ∈ shape.traits, applied.Named name → applied.id.nameSpace ≠ ShapeId.prelude) :
    shape.resolveTrait? name =
      shape.traits.find? fun applied => applied.id.name = name && !applied.id.isMember := by
  have hmissing : shape.findTrait? (.builtIn name hname) = none := by
    cases hfound : shape.findTrait? (.builtIn name hname) with
    | none => rfl
    | some applied =>
      obtain ⟨happlied, hid⟩ := Keyed.find?_eq_some hfound
      obtain ⟨hspace, hnamed⟩ := (ShapeId.eq_builtIn_iff hname).mp hid
      exact absurd hspace (hno applied happlied hnamed)
  simp only [resolveTrait?, if_neg (ShapeId.mark_not_mem_identifier hname),
    ShapeId.parseRelative_identifier hname, hmissing]

theorem resolveTrait?_first {before behind : List Trait}
    (htraits : shape.traits = before ++ applied :: behind) (hnamed : applied.Named name)
    (hbefore : ∀ other ∈ before, ¬ other.Named name)
    (hno : ∀ applied ∈ shape.traits, applied.Named name → applied.id.nameSpace ≠ ShapeId.prelude) :
    shape.resolveTrait? name = some applied := by
  rw [resolveTrait?_of_no_builtIn hname hno, List.find?_eq_some_iff_append]
  refine ⟨named_iff.mp hnamed, before, behind, htraits, fun other hother => ?_⟩
  rw [Bool.not_eq_true', ← Bool.not_eq_true, ← named_iff]
  exact hbefore other hother

theorem resolveTrait?_eq_none_iff (hids : shape.traitIds.Nodup) :
    shape.resolveTrait? name = none ↔ ∀ applied ∈ shape.traits, ¬ applied.Named name := by
  constructor
  · intro hnone applied happlied hnamed
    by_cases hbuiltIn : ∃ other ∈ shape.traits, other.Named name ∧
        other.id.nameSpace = ShapeId.prelude
    · obtain ⟨other, hother, hnamed, hspace⟩ := hbuiltIn
      rw [resolveTrait?_builtIn hname hids hother hnamed hspace] at hnone
      cases hnone
    · rw [resolveTrait?_of_no_builtIn hname fun other hother hnamed hspace =>
        hbuiltIn ⟨other, hother, hnamed, hspace⟩, List.find?_eq_none] at hnone
      exact hnone applied happlied (named_iff.mp hnamed)
  · intro hnone
    rw [resolveTrait?_of_no_builtIn hname fun other hother hnamed =>
      absurd hnamed (hnone other hother), List.find?_eq_none]
    intro applied happlied
    rw [← named_iff]
    exact hnone applied happlied

end Identifier

end Shape

namespace Path

private theorem isSpace_of_isAlphanum {c : Char} (h : c.isAlphanum = true) :
    Text.isSpace c = false := by
  have hword : IsWord c := (isWordChar_iff c).mp (by rw [isWordChar, h, Bool.true_or])
  have hrange : 48 ≤ c.toNat ∧ c.toNat ≤ 122 := by
    have hbetween {low high : Char} (h : low ≤ c ∧ c ≤ high) (hlow : 48 ≤ low.toNat)
        (hhigh : high.toNat ≤ 122) : 48 ≤ c.toNat ∧ c.toNat ≤ 122 :=
      ⟨Nat.le_trans hlow h.1, Nat.le_trans h.2 hhigh⟩
    rcases hword with h | h | h | rfl
    · exact hbetween h (by decide) (by decide)
    · exact hbetween h (by decide) (by decide)
    · exact hbetween h (by decide) (by decide)
    · decide
  simp [Text.isSpace, Text.spaceRanges]
  omega

/-- The characters of ids need no quotes. -/
theorem isRaw_of_mem_text {id : ShapeId} {c : Char} (hc : c ∈ id.text.toList) : IsRaw c := by
  rcases ShapeId.mem_text hc with h | h
  · have hdelimiters : ['(', ')', ',', '[', ']', '\x7b', '\x7d', '"', '\'', '@'].all
        (fun d => !d.isAlphanum) = true := by decide
    refine ⟨isSpace_of_isAlphanum h, fun hmem => ?_⟩
    have hother := List.all_eq_true.mp hdelimiters c hmem
    rw [h] at hother
    cases hother
  · have hmarks : ['_', '.', '#', '$'].all isBareChar = true := by decide
    exact (isBareChar_iff c).mp (List.all_eq_true.mp hmarks c h)

/-- A key that stands for an id spells itself. -/
theorem spells_key {key : String} {id : ShapeId}
    (hkey : ShapeId.parseRelative ShapeId.prelude key = .ok id) :
    SpellsArgument key.toList key.toList := by
  refine .raw ?_ fun c hc => ?_
  · intro hempty
    obtain rfl : key = "" := by simpa using hempty
    have hnone : (ShapeId.parseRelative ShapeId.prelude "").toOption = none := by decide +kernel
    rw [hkey] at hnone
    cases hnone
  · have hmem : c ∈ (ShapeId.absolute ShapeId.prelude key).toList := by
      unfold ShapeId.absolute
      split <;> simp [hc]
    rw [← ShapeId.parseRelative_eq_ok_iff.mp hkey] at hmem
    exact isRaw_of_mem_text hmem

theorem spells_identifier {name : String} (h : ShapeId.isIdentifier name = true) :
    SpellsArgument name.toList name.toList :=
  spells_key (ShapeId.parseRelative_identifier h)

/-- A call with a single argument that spells itself. -/
theorem parse_call (accessor : Accessor) (harity : accessor.arity = 1) {argument : String}
    (h : SpellsArgument argument.toList argument.toList) :
    parse ("@" ++ accessor.word ++ "(" ++ argument ++ ")") =
      .ok ⟨[.call accessor [argument]]⟩ := by
  have hblank : Blank [] := by simp [Blank]
  have hsome : SpellsSome argument.toList [argument] := by
    simpa using SpellsSome.one hblank h hblank
  have hcall : SpellsSegment (accessor.word.toList ++ '(' :: argument.toList ++ [')'])
      (.call accessor [argument]) := .call (.some hsome) harity.symm
  have htext : ("@" ++ accessor.word ++ "(" ++ argument ++ ")").toList =
      '@' :: (accessor.word.toList ++ '(' :: argument.toList ++ [')'] ++ []) := by simp
  rw [parse_ok_iff, htext]
  exact .expression (.signed (.body hcall .nil))

end Path

end ShapeRules
