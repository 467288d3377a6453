import Mathlib.Data.List.Basic
import ShapeRules.Proofs.Fallible
import ShapeRules.Proofs.ShapeId
import ShapeRules.Proofs.Text.Ascii

/-!
How shape ids are spelled. The grammar of their texts is given apart from the reader, and a text is
read as an id just when it is spelled by the grammar. So every id has one spelling.
-/

namespace ShapeRules.ShapeId

open Fallible

/-- The first character of identifiers: a letter of ASCII or an underscore. -/
def Begins (c : Char) : Prop := 'a' ≤ c ∧ c ≤ 'z' ∨ 'A' ≤ c ∧ c ≤ 'Z' ∨ c = '_'

/-- The text is an identifier: such a character, then more of them and digits. -/
def SpellsIdentifier (text : String) : Prop :=
  ∃ first rest, text.toList = first :: rest ∧ Begins first ∧
    ∀ c ∈ rest, Begins c ∨ '0' ≤ c ∧ c ≤ '9'

/-- The text is a namespace: identifiers with dots between them, at least one. -/
def SpellsNameSpace (text : String) : Prop :=
  ∃ parts, parts ≠ [] ∧ (∀ part ∈ parts, SpellsIdentifier part) ∧ text = ".".intercalate parts

/-- The text is the name of a shape, or the names of a shape and of a member of it. -/
inductive SpellsLocal : String → Prop
  | shape {name : String} (hname : SpellsIdentifier name) : SpellsLocal name
  | member {name member : String} (hname : SpellsIdentifier name)
      (hmember : SpellsIdentifier member) : SpellsLocal (name ++ "$" ++ member)

/-- The text is an absolute id. -/
def Spells (text : String) : Prop :=
  ∃ nameSpace name, SpellsNameSpace nameSpace ∧ SpellsLocal name ∧
    text = nameSpace ++ "#" ++ name

theorem begins_iff {c : Char} : (c.isAlpha || c = '_') = true ↔ Begins c := by
  rw [Bool.or_eq_true, Text.isAlpha_iff, decide_eq_true_eq, Begins,
    or_comm (b := 'a' ≤ c ∧ c ≤ 'z'), or_assoc]

theorem continues_iff {c : Char} :
    (c.isAlphanum || c = '_') = true ↔ Begins c ∨ '0' ≤ c ∧ c ≤ '9' := by
  rw [← begins_iff, Bool.or_eq_true, Bool.or_eq_true, Text.isAlphanum_iff, Text.isDigit_iff,
    or_right_comm]

theorem isIdentifier_iff {text : String} : isIdentifier text = true ↔ SpellsIdentifier text := by
  unfold isIdentifier SpellsIdentifier
  cases text.toList with
  | nil => simp
  | cons first rest =>
    simp only [Bool.and_eq_true, List.all_eq_true, begins_iff, continues_iff, List.cons.injEq]
    constructor
    · rintro ⟨hfirst, hrest⟩
      exact ⟨first, rest, ⟨rfl, rfl⟩, hfirst, hrest⟩
    · rintro ⟨_, _, ⟨rfl, rfl⟩, hfirst, hrest⟩
      exact ⟨hfirst, hrest⟩

theorem isNameSpace_iff {text : String} : isNameSpace text = true ↔ SpellsNameSpace text := by
  simp only [isNameSpace, betweenDots_eq, List.all_eq_true, isIdentifier_iff, SpellsNameSpace]
  constructor
  · intro hparts
    refine ⟨(text.toList.splitOn '.').map String.ofList, ?_, ?_, ?_⟩
    · simp [List.splitOn_ne_nil]
    · simpa using hparts
    · rw [← String.toList_inj, String.toList_intercalate, List.map_map]
      simp [Function.comp_def, List.intercalate_splitOn]
  · rintro ⟨parts, hne, hparts, rfl⟩
    -- no identifier holds a dot, so the text is split into the parts it was made of
    have hdot : ∀ part ∈ parts.map String.toList, '.' ∉ part := by
      rw [List.forall_mem_map]
      intro part hpart hmem
      have hchar := mem_identifier (isIdentifier_iff.mpr (hparts part hpart)) hmem
      revert hchar
      decide
    have hsplit : (".".intercalate parts).toList.splitOn '.' = parts.map String.toList := by
      rw [String.toList_intercalate]
      exact List.splitOn_intercalate '.' hdot (by simpa using hne)
    rw [hsplit, List.forall_mem_map]
    simpa using hparts

/-- What stands behind the number sign in the text of an id. -/
theorem exists_local (id : ShapeId) :
    ∃ name, SpellsLocal name ∧ id.text = id.nameSpace ++ "#" ++ name := by
  obtain ⟨nameSpace, name, member, -, hname, hmember⟩ := id
  have hname := isIdentifier_iff.mp hname
  cases member with
  | none => exact ⟨name, .shape hname, by simp [text]⟩
  | some member =>
    have hmember := isIdentifier_iff.mp (hmember member rfl)
    exact ⟨name ++ "$" ++ member, .member hname hmember, by simp [text, String.append_assoc]⟩

theorem spells_text (id : ShapeId) : Spells id.text := by
  obtain ⟨name, hname, htext⟩ := exists_local id
  exact ⟨id.nameSpace, name, isNameSpace_iff.mp id.nameSpace_valid, hname, htext⟩

theorem exists_text_iff {text : String} : (∃ id : ShapeId, id.text = text) ↔ Spells text := by
  constructor
  · rintro ⟨id, rfl⟩
    exact spells_text id
  · rintro ⟨nameSpace, name, hspace, hname, rfl⟩
    have hspace := isNameSpace_iff.mpr hspace
    cases hname with
    | shape hname =>
      exact ⟨⟨nameSpace, name, none, hspace, isIdentifier_iff.mpr hname, by simp⟩,
        by simp [ShapeId.text]⟩
    | @member name member hname hmember =>
      exact ⟨⟨nameSpace, name, some member, hspace, isIdentifier_iff.mpr hname,
        by simpa using isIdentifier_iff.mpr hmember⟩, by simp [ShapeId.text, String.append_assoc]⟩

theorem exists_parse_iff {text : String} : (∃ id, parse text = .ok id) ↔ Spells text := by
  simp only [parse_eq_ok_iff, exists_text_iff]

/-- The text that is no id is what the error names. -/
theorem parse_eq_error_iff {text : String} {error : InvalidShapeId} :
    parse text = .error error ↔ ¬ Spells text ∧ error = ⟨text⟩ := by
  rw [← exists_parse_iff, parse]
  cases parse? text with
  | some id => simp
  | none => simp [eq_comm]

theorem mark_not_mem_local {name : String} (h : SpellsLocal name) : '#' ∉ name.toList := by
  cases h with
  | shape hname => exact mark_not_mem_identifier (isIdentifier_iff.mpr hname)
  | member hname hmember =>
    have hname := mark_not_mem_identifier (isIdentifier_iff.mpr hname)
    have hmember := mark_not_mem_identifier (isIdentifier_iff.mpr hmember)
    simp [hname, hmember]

/-- The parts of an absolute id are told apart by the number sign. -/
theorem parts_eq {nameSpace name front back : String} (hspace : SpellsNameSpace nameSpace)
    (hname : SpellsLocal name) (h : nameSpace ++ "#" ++ name = front ++ "#" ++ back) :
    nameSpace = front ∧ name = back := by
  have hmark : '#' ∉ nameSpace.toList := by
    intro hmem
    have hchar := mem_nameSpace (isNameSpace_iff.mpr hspace) hmem
    revert hchar
    decide
  have hlists : nameSpace.toList ++ '#' :: name.toList = front.toList ++ '#' :: back.toList := by
    simpa [← String.toList_inj] using h
  obtain ⟨hfront, -, hback⟩ :=
    (List.append_cons_inj_of_notMem hmark (mark_not_mem_local hname)).mp hlists
  exact ⟨String.toList_inj.mp hfront, String.toList_inj.mp hback⟩

theorem parseRelative_eq_parse {nameSpace text : String} (h : '#' ∉ text.toList) :
    parseRelative nameSpace text = parse (nameSpace ++ "#" ++ text) := by
  rw [parseRelative, if_neg h]

theorem exists_withMember_iff {id : ShapeId} {member : String} :
    (∃ made, id.withMember member = .ok made) ↔ SpellsIdentifier member := by
  rw [← isIdentifier_iff, withMember]
  split <;> simp_all

theorem withMember_eq_error_iff {id : ShapeId} {member : String} {error : InvalidShapeId} :
    id.withMember member = .error error ↔
      ¬ SpellsIdentifier member ∧ error = ⟨id.text ++ "$" ++ member⟩ := by
  rw [← isIdentifier_iff, withMember]
  by_cases hname : isIdentifier member = true
  · simp [hname]
  · simp [hname, eq_comm]

/-- A text is read as an id just when the grammar spells an id by it, and the id is written as that
text. However an id is made, it is read back from its text, so two ids are never written alike. The
names of members are the identifiers, and a shape gets back from a member the id that it has without
one. A relative id lies in the namespace that it is read for. -/
theorem spelled_once :
    (∀ text, ((∃ id, parse text = .ok id) ↔ Spells text) ∧
      ∀ id, parse text = .ok id → id.text = text) ∧
    (∀ id : ShapeId, parse id.text = .ok id ∧
      ∀ other : ShapeId, id.text = other.text → id = other) ∧
    (∀ (id : ShapeId) member,
      ((∃ made, id.withMember member = .ok made) ↔ SpellsIdentifier member) ∧
      ∀ made, id.withMember member = .ok made → made.withoutMember = id.withoutMember) ∧
    ∀ nameSpace text, '#' ∉ text.toList →
      ((∃ id, parseRelative nameSpace text = .ok id) ↔
        SpellsNameSpace nameSpace ∧ SpellsLocal text) ∧
      ∀ id, parseRelative nameSpace text = .ok id → id.nameSpace = nameSpace := by
  refine ⟨fun text => ⟨exists_parse_iff, fun id => text_of_parse⟩,
    fun id => ⟨parse_eq_ok_iff.mpr rfl, fun other => text_inj.mp⟩,
    fun id member => ⟨exists_withMember_iff, fun made h => (withMember_ok h).1⟩, ?_⟩
  intro nameSpace text hmark
  rw [parseRelative_eq_parse hmark]
  refine ⟨?_, ?_⟩
  · rw [exists_parse_iff]
    constructor
    · rintro ⟨front, back, hfront, hback, htext⟩
      obtain ⟨rfl, rfl⟩ := parts_eq hfront hback htext.symm
      exact ⟨hfront, hback⟩
    · rintro ⟨hspace, hname⟩
      exact ⟨nameSpace, text, hspace, hname, rfl⟩
  · intro id h
    obtain ⟨name, hname, htext⟩ := exists_local id
    rw [text_of_parse h] at htext
    exact (parts_eq (isNameSpace_iff.mp id.nameSpace_valid) hname htext.symm).1

end ShapeRules.ShapeId
