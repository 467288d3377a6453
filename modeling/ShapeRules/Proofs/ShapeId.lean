import Mathlib.Data.List.Basic
import Mathlib.Data.List.TakeWhile
import ShapeRules.Proofs.Text.Run
import ShapeRules.ShapeId

/-!
The texts of shape ids. An id is written as the text that it was read from, and read back from the
text that it is written as, so that two texts are read as one id only where they are one text.
-/

namespace ShapeRules

theorem splitFirst?_eq_some {mark : Char} {text before behind : List Char}
    (h : splitFirst? mark text = some (before, behind)) : text = before ++ mark :: behind := by
  have hsplit := List.takeWhile_append_dropWhile (p := (· ≠ mark)) (l := text)
  have hstop := List.head?_dropWhile_not (· ≠ mark) text
  unfold splitFirst? at h
  split at h
  · cases h
  · rename_i c rest hdrop
    rw [hdrop] at hsplit hstop
    obtain rfl : c = mark := by simpa using hstop
    cases h
    exact hsplit.symm

theorem splitFirst?_of_not_mem {mark : Char} {text : List Char} (h : mark ∉ text) :
    splitFirst? mark text = none := by
  have hdrop : text.dropWhile (· ≠ mark) = [] := by
    rw [List.dropWhile_eq_nil_iff]
    intro c hc
    simpa using fun heq : c = mark => h (heq ▸ hc)
  rw [splitFirst?, hdrop]

theorem splitFirst?_append {mark : Char} {before : List Char} (h : mark ∉ before)
    (behind : List Char) : splitFirst? mark (before ++ mark :: behind) = some (before, behind) := by
  have hrun : ∀ c ∈ before, decide (c ≠ mark) = true := by
    intro c hc
    simpa using fun heq : c = mark => h (heq ▸ hc)
  have hstops : Text.Stops (· ≠ mark) (mark :: behind) := by simp
  rw [splitFirst?, Text.takeWhile_run hrun hstops, Text.dropWhile_run hrun hstops]

namespace ShapeId

theorem mem_identifier {text : String} (h : isIdentifier text = true) {c : Char}
    (hc : c ∈ text.toList) : c.isAlphanum = true ∨ c = '_' := by
  unfold isIdentifier at h
  split at h
  · cases h
  · rename_i first rest htext
    simp only [Bool.and_eq_true, Bool.or_eq_true, decide_eq_true_eq, List.all_eq_true] at h
    rw [htext] at hc
    rcases List.mem_cons.mp hc with rfl | hrest
    · exact h.1.imp_left fun halpha => by rw [Char.isAlphanum, halpha, Bool.true_or]
    · exact h.2 c hrest

theorem betweenDots_eq (text : List Char) : betweenDots text = text.splitOn '.' := by
  induction text with
  | nil => rfl
  | cons c rest ih =>
    rw [betweenDots, ih, List.splitOn_cons_eq_if_modifyHead]
    cases hparts : rest.splitOn '.' with
    | nil => exact absurd hparts (List.splitOn_ne_nil '.' rest)
    | cons first others => simp

private theorem mem_intercalate {mark c : Char} {parts : List (List Char)}
    (hc : c ∈ [mark].intercalate parts) : c = mark ∨ ∃ part ∈ parts, c ∈ part := by
  induction parts with
  | nil => cases hc
  | cons part others ih =>
    cases others with
    | nil => exact .inr ⟨part, by simp, by simpa using hc⟩
    | cons next others =>
      rw [List.intercalate_cons_cons] at hc
      simp only [List.mem_append, List.mem_singleton, or_assoc] at hc
      rcases hc with hpart | rfl | hothers
      · exact .inr ⟨part, by simp, hpart⟩
      · exact .inl rfl
      · obtain rfl | ⟨other, hother, hmem⟩ := ih hothers
        · exact .inl rfl
        · exact .inr ⟨other, List.mem_cons_of_mem _ hother, hmem⟩

private theorem mem_betweenDots {text : List Char} {c : Char} (hc : c ∈ text) :
    c = '.' ∨ ∃ part ∈ betweenDots text, c ∈ part := by
  rw [betweenDots_eq]
  refine mem_intercalate ?_
  rwa [List.intercalate_splitOn]

theorem mem_nameSpace {text : String} (h : isNameSpace text = true) {c : Char}
    (hc : c ∈ text.toList) : c.isAlphanum = true ∨ c = '_' ∨ c = '.' := by
  rcases mem_betweenDots hc with hdot | ⟨part, hpart, hmem⟩
  · exact .inr (.inr hdot)
  · have hidentifier := List.all_eq_true.mp h part hpart
    exact (mem_identifier hidentifier (by simpa using hmem)).imp_right .inl

/-- The characters that ids are written in. -/
theorem mem_text {id : ShapeId} {c : Char} (hc : c ∈ id.text.toList) :
    c.isAlphanum = true ∨ c ∈ ['_', '.', '#', '$'] := by
  obtain ⟨nameSpace, name, member, hspace, hname, hmember⟩ := id
  have hidentifier {text : String} (h : isIdentifier text = true) (hc : c ∈ text.toList) :
      c.isAlphanum = true ∨ c ∈ ['_', '.', '#', '$'] :=
    (mem_identifier h hc).imp_right (by rintro rfl; simp)
  cases member with
  | none =>
    simp only [text, String.append_empty, String.toList_append, List.mem_append] at hc
    rcases hc with (hc | hc) | hc
    · exact (mem_nameSpace hspace hc).imp_right (by rintro (rfl | rfl) <;> simp)
    · exact .inr (by simp_all)
    · exact hidentifier hname hc
  | some member =>
    simp only [text, String.toList_append, List.mem_append] at hc
    rcases hc with ((hc | hc) | hc) | hc | hc
    · exact (mem_nameSpace hspace hc).imp_right (by rintro (rfl | rfl) <;> simp)
    · exact .inr (by simp_all)
    · exact hidentifier hname hc
    · exact .inr (by simp_all)
    · exact hidentifier (hmember member rfl) hc

theorem ofParts?_eq_some {nameSpace name : String} {member : Option String} {id : ShapeId}
    (h : ofParts? nameSpace name member = some id) :
    id.nameSpace = nameSpace ∧ id.name = name ∧ id.member = member := by
  unfold ofParts? at h
  split at h
  · cases h
    exact ⟨rfl, rfl, rfl⟩
  · cases h

theorem text_of_parse {text : String} {id : ShapeId} (h : parse text = .ok id) :
    id.text = text := by
  unfold parse at h
  split at h
  · rename_i found hfound
    cases h
    rw [parse?, Option.bind_eq_bind, Option.bind_eq_some_iff] at hfound
    obtain ⟨⟨nameSpace, rest⟩, hnumber, hfound⟩ := hfound
    dsimp only at hfound
    rw [← String.toList_inj, splitFirst?_eq_some hnumber, ShapeId.text]
    cases hdollar : splitFirst? '$' rest with
    | none =>
      rw [hdollar] at hfound
      obtain ⟨hspace, hname, hmember⟩ := ofParts?_eq_some hfound
      simp [hspace, hname, hmember]
    | some parts =>
      rw [hdollar] at hfound
      obtain ⟨hspace, hname, hmember⟩ := ofParts?_eq_some hfound
      simp [hspace, hname, hmember, splitFirst?_eq_some hdollar]
  · cases h

theorem ofParts?_parts (id : ShapeId) : ofParts? id.nameSpace id.name id.member = some id :=
  dif_pos ⟨id.nameSpace_valid, id.name_valid, id.member_valid⟩

private theorem mark_not_mem {mark : Char} (hmark : mark = '#' ∨ mark = '$') (id : ShapeId) :
    mark ∉ id.nameSpace.toList ∧ mark ∉ id.name.toList := by
  constructor
  · intro hmem
    have hchar := mem_nameSpace id.nameSpace_valid hmem
    rcases hmark with rfl | rfl <;> revert hchar <;> decide
  · intro hmem
    have hchar := mem_identifier id.name_valid hmem
    rcases hmark with rfl | rfl <;> revert hchar <;> decide

/-- An id is read back from its text. -/
theorem parse?_text (id : ShapeId) : parse? id.text = some id := by
  have hspace := (mark_not_mem (.inl rfl) id).1
  have hname := (mark_not_mem (.inr rfl) id).2
  have hparts := ofParts?_parts id
  rw [parse?, ShapeId.text]
  cases hmember : id.member with
  | none =>
    rw [hmember] at hparts
    simp [splitFirst?_append hspace, splitFirst?_of_not_mem hname, hparts]
  | some member =>
    rw [hmember] at hparts
    simp [splitFirst?_append hspace, splitFirst?_append hname, hparts]

theorem mark_mem_text (id : ShapeId) : '#' ∈ id.text.toList := by simp [text]

theorem mark_not_mem_identifier {name : String} (h : isIdentifier name = true) :
    '#' ∉ name.toList := fun hmark => absurd (mem_identifier h hmark) (by decide)

theorem text_inj {id other : ShapeId} : id.text = other.text ↔ id = other := by
  refine ⟨fun h => ?_, congrArg text⟩
  rw [← Option.some_inj, ← parse?_text, ← parse?_text, h]

theorem parse_eq_ok_iff {text : String} {id : ShapeId} : parse text = .ok id ↔ id.text = text := by
  constructor
  · exact text_of_parse
  · rintro rfl
    rw [parse, parse?_text]

theorem parse_inj {s t : String} {id other : ShapeId} (hs : parse s = .ok id)
    (ht : parse t = .ok other) : id = other ↔ s = t := by
  constructor
  · rintro rfl
    rw [← text_of_parse hs, text_of_parse ht]
  · rintro rfl
    rw [hs] at ht
    cases ht
    rfl

/-- A relative id with its namespace. -/
def absolute (nameSpace text : String) : String :=
  if '#' ∈ text.toList then text else nameSpace ++ "#" ++ text

theorem parseRelative_eq (nameSpace text : String) :
    parseRelative nameSpace text = parse (absolute nameSpace text) := by
  unfold parseRelative absolute
  split <;> rfl

theorem parseRelative_eq_ok_iff {nameSpace key : String} {id : ShapeId} :
    parseRelative nameSpace key = .ok id ↔ id.text = absolute nameSpace key := by
  rw [parseRelative_eq, parse_eq_ok_iff]

theorem parseRelative_text (nameSpace : String) (id : ShapeId) :
    parseRelative nameSpace id.text = .ok id := by
  rw [parseRelative_eq_ok_iff, absolute, if_pos id.mark_mem_text]

/-- Two relative ids are one just when the one is the other with its namespace written out. -/
theorem absolute_eq_iff {nameSpace s t : String} :
    absolute nameSpace s = absolute nameSpace t ↔
      s = t ∨ ('#' ∉ s.toList ∧ t = nameSpace ++ "#" ++ s) ∨
        ('#' ∉ t.toList ∧ s = nameSpace ++ "#" ++ t) := by
  have hmark (text : String) : '#' ∈ (nameSpace ++ "#" ++ text).toList := by simp
  have hinj (s t : String) : nameSpace ++ "#" ++ s = nameSpace ++ "#" ++ t ↔ s = t := by
    simp [← String.toList_inj]
  unfold absolute
  by_cases hs : '#' ∈ s.toList <;> by_cases ht : '#' ∈ t.toList
  · simp [hs, ht]
  · rw [if_pos hs, if_neg ht]
    constructor
    · exact fun h => .inr (.inr ⟨ht, h⟩)
    · rintro (rfl | ⟨hs', -⟩ | ⟨-, h⟩)
      · exact absurd hs ht
      · exact absurd hs hs'
      · exact h
  · rw [if_neg hs, if_pos ht]
    constructor
    · exact fun h => .inr (.inl ⟨hs, h.symm⟩)
    · rintro (rfl | ⟨-, h⟩ | ⟨ht', -⟩)
      · exact absurd ht hs
      · exact h.symm
      · exact absurd ht ht'
  · rw [if_neg hs, if_neg ht, hinj]
    constructor
    · exact .inl
    · rintro (h | ⟨-, rfl⟩ | ⟨-, rfl⟩)
      · exact h
      · exact absurd (hmark s) ht
      · exact absurd (hmark t) hs

theorem withoutMember_of_none {id : ShapeId} (h : id.member = none) :
    id.withoutMember = id := by
  cases id
  cases h
  rfl

theorem eq_of_withoutMember {id other : ShapeId}
    (h : id.withoutMember = other.withoutMember) (hmember : id.member = other.member) :
    id = other := by
  cases id
  cases other
  cases hmember
  simp_all [withoutMember]

theorem withMember_ok {container id : ShapeId} {name : String}
    (h : container.withMember name = .ok id) :
    id.withoutMember = container.withoutMember ∧ id.member = some name := by
  rw [withMember] at h
  split at h
  · cases h
    exact ⟨rfl, rfl⟩
  · cases h

theorem text_of_withMember {container id : ShapeId} {name : String}
    (h : container.withMember name = .ok id) :
    id.text = container.withoutMember.text ++ "$" ++ name := by
  rw [withMember] at h
  split at h
  · cases h
    simp [text, withoutMember, String.append_assoc]
  · cases h

end ShapeId

end ShapeRules
