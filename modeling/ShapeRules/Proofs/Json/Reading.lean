import Mathlib.Tactic.IntervalCases
import ShapeRules.Json.Decode
import ShapeRules.Proofs.Aligned
import ShapeRules.Proofs.Text.Numeral
import ShapeRules.Proofs.Text.Run

/-!
Reading compact texts. What is read of the text of a value is a draft of the value, and what stands
behind the text is left over.
-/

namespace ShapeRules

/-- Every number of the value is an integer of 64 bits, so that it is written and read exactly. -/
inductive Json.Exact : Json → Prop
  | null : Exact .null
  | bool (b : Bool) : Exact (.bool b)
  | integer {n : Int} (hfits : Number.fits 64 n = true) : Exact (.number (.integer n))
  | string (s : String) : Exact (.string s)
  | array {items : List Json} (hitems : ∀ item ∈ items, Exact item) : Exact (.array items)
  | object {fields : List (String × Json)} (hfields : ∀ field ∈ fields, Exact field.2) :
      Exact (.object fields)

namespace Draft

/-- The draft is one of the value, wherever its parts stand in a text. -/
inductive Holds : Draft → Json → Prop
  | null (behind : List Char) : Holds (.null behind) .null
  | bool (b : Bool) (behind : List Char) : Holds (.bool b behind) (.bool b)
  | number (n : Number) (behind : List Char) : Holds (.number (some n) behind) (.number n)
  | string (s : String) (behind : List Char) : Holds (.string (some s) behind) (.string s)
  | array {opening behind : List Char} {items : List Draft} {values : List Json}
      (h : List.Forall₂ Holds items values) : Holds (.array opening items behind) (.array values)
  | object {opening behind : List Char} {drafts : List (Option String × List Char × Draft)}
      {fields : List (String × Json)} (hkeys : drafts.map Prod.fst = fields.map (some ∘ Prod.fst))
      (hvalues : List.Forall₂ Holds (drafts.map fun drafted => drafted.2.2)
        (fields.map Prod.snd)) :
      Holds (.object opening drafts behind) (.object fields)

/-- The drafts are those of the fields of an object. -/
def HoldFields (drafts : List (Option String × List Char × Draft))
    (fields : List (String × Json)) : Prop :=
  List.Forall₂ (fun drafted field => drafted.1 = some field.1 ∧ drafted.2.2.Holds field.2)
    drafts fields

/-- A value that stands before the text ends there: the text goes on with a comma, a closing
bracket or a closing brace, if at all. -/
def Ends (text : List Char) : Prop := ∀ c ∈ text.head?, c ∈ [',', ']', '\x7d']

/-- The text begins with the value: a draft of the value is read of it, and the rest is left. -/
def Begins (text : List Char) (value : Json) (rest : List Char) : Prop :=
  ∃ first behind, text = first :: behind ∧ isBlank first = false ∧ first ≠ ']' ∧
    ∃ draft shorter, readValue first behind = (draft, ⟨rest, shorter⟩) ∧ draft.Holds value

variable {drafts : List (Option String × List Char × Draft)} {fields : List (String × Json)}
  {opening behind rest : List Char}

theorem holds_object (h : HoldFields drafts fields) :
    Holds (.object opening drafts behind) (.object fields) := by
  refine .object (Aligned.map_eq h fun _ _ hfield => hfield.1) ?_
  rw [List.forall₂_map_left_iff, List.forall₂_map_right_iff]
  exact h.imp fun _ _ hfield => hfield.2

theorem exists_of_holds_object {draft : Draft} (h : draft.Holds (.object fields)) :
    ∃ opening drafts behind, draft = .object opening drafts behind ∧ HoldFields drafts fields := by
  cases h with
  | object hkeys hvalues =>
    rw [← List.forall₂_eq_eq_eq, List.forall₂_map_left_iff, List.forall₂_map_right_iff] at hkeys
    rw [List.forall₂_map_left_iff, List.forall₂_map_right_iff] at hvalues
    exact ⟨_, _, _, rfl, Aligned.and hkeys hvalues⟩

/-! ### Strings -/

private theorem hexValue?_hexDigit {n : Nat} (h : n < 16) :
    hexValue? (Json.hexDigit n) = some n := by
  interval_cases n <;> rfl

theorem readUnits_control {c : Char} (hc : c.toNat < 0x20) {text : List Char} {units : List Unit}
    (h : readUnits text = some (units, rest)) :
    readUnits ('\\' :: 'u' :: '0' :: '0' :: Json.hexDigit (c.toNat / 16) ::
      Json.hexDigit (c.toNat % 16) :: text) = some (.plain c :: units, rest) := by
  have hhigh : c.toNat / 16 < 16 := by omega
  have hlow : c.toNat % 16 < 16 := by omega
  have hcode : hexValues? '0' '0' (Json.hexDigit (c.toNat / 16)) (Json.hexDigit (c.toNat % 16)) =
      some c.toNat := by
    have hdigits : c.toNat / 16 * 16 + c.toNat % 16 = c.toNat := by omega
    rw [hexValues?, hexValue?_hexDigit hhigh, hexValue?_hexDigit hlow]
    simp [hexValue?, hdigits]
  have hunit : Unit.ofCode c.toNat = .plain c := by
    rw [Unit.ofCode, if_neg (by omega), Char.ofNat_toNat]
  simp [readUnits, hcode, h, hunit]

/-- What is written for a character is read as that character. -/
theorem readUnits_escaped (c : Char) {text : List Char} {units : List Unit}
    (h : readUnits text = some (units, rest)) :
    readUnits (Json.escaped c ++ text) = some (.plain c :: units, rest) := by
  unfold Json.escaped
  split
  case h_8 hquote hslash _ _ _ _ _ =>
    split_ifs with hcontrol
    · exact readUnits_control hcontrol h
    · rw [List.singleton_append, readUnits.eq_5 c text hquote
        (fun _ _ _ _ _ heq => absurd heq hslash) fun _ _ heq => absurd heq hslash]
      rw [if_neg (not_or.mpr ⟨hslash, hcontrol⟩), h]
      rfl
  all_goals simp [readUnits, unescape?, h]

theorem readUnits_text (s rest : List Char) :
    readUnits (s.flatMap Json.escaped ++ '"' :: rest) = some (s.map .plain, rest) := by
  induction s with
  | nil => simp [readUnits]
  | cons c s ih =>
    rw [List.flatMap_cons, List.append_assoc, List.map_cons]
    exact readUnits_escaped c ih

theorem joinUnits_plain (s : List Char) : joinUnits (s.map .plain) = some s := by
  induction s with
  | nil => rfl
  | cons c s ih => rw [List.map_cons, joinUnits, ih, Option.map_some]

theorem readString_text (s : String) (rest : List Char) :
    ∃ shorter, readString (s.toList.flatMap Json.escaped ++ '"' :: rest) =
      some (some s, ⟨rest, shorter⟩) := by
  have hread := readUnits_text s.toList rest
  refine ⟨Nat.le_of_lt (readUnits_length hread), ?_⟩
  unfold readString
  split
  · rename_i hnone
    rw [hread] at hnone
    cases hnone
  · rename_i units left hsome
    rw [hread] at hsome
    cases hsome
    simp [joinUnits_plain]

end Draft

/-! ### Integers -/

namespace Numeral

open Draft (Ends)

variable {ds rest : List Char}

theorem digits_run (hne : ds ≠ []) (hdigits : ∀ c ∈ ds, c.isDigit = true)
    (hrest : Text.Stops Char.isDigit rest) : digits (ds ++ rest) = some (ds, rest) := by
  rw [digits, Text.takeWhile_run hdigits hrest, Text.dropWhile_run hdigits hrest]
  cases ds with
  | nil => exact absurd rfl hne
  | cons c ds => rfl

theorem readWhole_numeral (hds : Text.IsNumeral ds) (hrest : Text.Stops Char.isDigit rest) :
    readWhole (ds ++ rest) = some (ds, rest) := by
  rw [readWhole, digits_run hds.nonempty hds.digit hrest]
  rcases hds.noLeadingZero with rfl | hzero
  · rfl
  · split
    · rename_i heq
      cases heq
      rfl
    · rename_i heq
      cases heq
      exact absurd rfl hzero
    · rfl

/-- Digits before the end of a value are a numeral without fraction and exponent. -/
theorem read_digits (negative : Bool) (hds : Text.IsNumeral ds) (hrest : Ends rest) :
    read ((if negative then ['-'] else []) ++ ds ++ rest) =
      some (⟨negative, ds, none, none⟩, rest) := by
  have hstops : Text.Stops Char.isDigit rest := by
    intro c hc
    have hend := hrest c hc
    simp only [List.mem_cons, List.not_mem_nil, or_false] at hend
    rcases hend with rfl | rfl | rfl <;> rfl
  have hfraction : readFraction rest = some (none, rest) := by
    unfold readFraction
    split
    · exact absurd (hrest '.' rfl) (by decide)
    · rfl
  have hexponent : readExponent rest = some (none, rest) := by
    cases rest with
    | nil => rfl
    | cons c rest =>
      have hend := hrest c rfl
      simp only [List.mem_cons, List.not_mem_nil, or_false] at hend
      rcases hend with rfl | rfl | rfl <;> rfl
  have hwhole := readWhole_numeral hds hstops
  obtain ⟨c, others, rfl⟩ := List.exists_cons_of_ne_nil hds.nonempty
  have hsign : c ≠ '-' := by
    rintro rfl
    exact absurd (hds.digit '-' List.mem_cons_self) (by decide)
  rw [List.cons_append] at hwhole
  cases negative with
  | true => simp [read, hwhole, hfraction, hexponent]
  | false => simp [read, hwhole, hfraction, hexponent, hsign]

theorem valueOf_toDigits (n : Nat) : valueOf (Nat.toDigits 10 n) = n :=
  Nat.ofDigitChars_toDigits (by decide) (by decide)

/-- An integer of 64 bits is read back from its text. -/
theorem read_integer {n : Int} (hfits : Number.fits 64 n = true) (hrest : Ends rest) :
    ∃ numeral, read ((Number.integer n).text ++ rest) = some (numeral, rest) ∧
      numeral.value? = some (.integer n) := by
  have hvalue {negative : Bool} {m : Nat} (hm : (if negative then -(m : Int) else m) = n)
      (hzero : ¬ (negative ∧ m = 0)) :
      (Numeral.mk negative (Nat.toDigits 10 m) none none).value? = some (.integer n) := by
    have hinteger : (Numeral.mk negative (Nat.toDigits 10 m) none none).integer? = some n := by
      rw [integer?, valueOf_toDigits, if_neg (by simpa using hzero), ← hm]
    rw [value?, hinteger, Option.filter_some, if_pos hfits]
  cases n with
  | ofNat m =>
    exact ⟨_, read_digits false (Text.isNumeral_toDigits m) hrest, hvalue rfl (by simp)⟩
  | negSucc m =>
    exact ⟨_, read_digits true (Text.isNumeral_toDigits (m + 1)) hrest, hvalue rfl (by simp)⟩

end Numeral

/-! ### Values -/

namespace Draft

variable {value : Json} {items : List Json} {fields : List (String × Json)} {rest : List Char}

theorem nextVisible_cons {c : Char} (h : isBlank c = false) (text : List Char) :
    nextVisible (c :: text) = some (c, ⟨text, Nat.lt_succ_self _⟩) := by
  rw [nextVisible, h, if_neg Bool.false_ne_true]

@[simp] theorem nextVisible_mark {c : Char} (h : c ∈ [',', ':', '"', ']', '\x7d'])
    (text : List Char) : nextVisible (c :: text) = some (c, ⟨text, Nat.lt_succ_self _⟩) := by
  refine nextVisible_cons ?_ text
  simp only [List.mem_cons, List.not_mem_nil, or_false] at h
  rcases h with rfl | rfl | rfl | rfl | rfl <;> rfl

theorem begins_word (first : Char) (word : List Char) (draft : List Char → Draft)
    (hfirst : isBlank first = false ∧ first ≠ ']') (htext : value.compactText = first :: word)
    (hread : ∀ text, readValue first text = readWord word draft text)
    (hdraft : (draft rest).Holds value) : Begins (value.compactText ++ rest) value rest := by
  rw [htext]
  refine ⟨first, word ++ rest, rfl, hfirst.1, hfirst.2, draft rest, by simp, ?_, hdraft⟩
  rw [hread, readWord, if_pos (by simp)]
  simp

theorem begins_null (rest : List Char) : Begins (Json.compactText .null ++ rest) .null rest := by
  refine begins_word 'n' ['u', 'l', 'l'] .null (by decide) rfl (fun text => ?_) (.null rest)
  rw [readValue, if_pos rfl]

theorem begins_bool (b : Bool) (rest : List Char) :
    Begins (Json.compactText (.bool b) ++ rest) (.bool b) rest := by
  cases b with
  | false =>
    refine begins_word 'f' ['a', 'l', 's', 'e'] (.bool false) (by decide) rfl (fun text => ?_)
      (.bool false rest)
    rw [readValue, if_neg (by decide), if_neg (by decide), if_pos rfl]
  | true =>
    refine begins_word 't' ['r', 'u', 'e'] (.bool true) (by decide) rfl (fun text => ?_)
      (.bool true rest)
    rw [readValue, if_neg (by decide), if_pos rfl]

theorem begins_string (s : String) (rest : List Char) :
    Begins (Json.compactText (.string s) ++ rest) (.string s) rest := by
  obtain ⟨shorter, hread⟩ := readString_text s rest
  refine ⟨'"', s.toList.flatMap Json.escaped ++ '"' :: rest, ?_, by decide, by decide,
    .string (some s) rest, shorter, ?_, .string s rest⟩
  · simp [Json.compactText, Json.stringText]
  · rw [readValue]
    simp [hread]

theorem exists_sign_or_digit (n : Int) : ∃ first behind, (Number.integer n).text = first :: behind ∧
    (first = '-' ∨ first.isDigit = true) := by
  cases n with
  | ofNat m =>
    have hnumeral := Text.isNumeral_toDigits m
    obtain ⟨c, others, heq⟩ := List.exists_cons_of_ne_nil hnumeral.nonempty
    exact ⟨c, others, heq, .inr (hnumeral.digit c (heq ▸ List.mem_cons_self))⟩
  | negSucc m => exact ⟨'-', _, rfl, .inl rfl⟩

theorem begins_integer {n : Int} (hfits : Number.fits 64 n = true) (hrest : Ends rest) :
    Begins (Json.compactText (.number (.integer n)) ++ rest) (.number (.integer n)) rest := by
  obtain ⟨numeral, hread, hvalue⟩ := Numeral.read_integer hfits hrest
  obtain ⟨first, behind, htext, hfirst⟩ := exists_sign_or_digit n
  have hne (c : Char) (hc : c ≠ '-' ∧ ¬ c.isDigit = true) : first ≠ c := by
    rintro rfl
    exact hfirst.elim hc.1 hc.2
  rw [htext, List.cons_append] at hread
  rw [Json.compactText, htext, List.cons_append]
  refine ⟨first, behind ++ rest, rfl, ?_, hne ']' (by decide), .number (some (.integer n)) rest,
    Nat.le_of_lt_succ (Numeral.read_length hread), ?_, .number _ rest⟩
  · simp [isBlank, hne ' ' (by decide), hne '\t' (by decide), hne '\n' (by decide),
      hne '\r' (by decide)]
  · rw [readValue, if_neg (hne 'n' (by decide)), if_neg (hne 't' (by decide)),
      if_neg (hne 'f' (by decide)), if_pos hfirst, readNumber]
    split
    · rename_i hnone
      rw [hread] at hnone
      cases hnone
    · rename_i numeral left hsome
      rw [hread] at hsome
      cases hsome
      simp [hvalue]

/-- The items of an array are read one after the other, up to the closing bracket. -/
theorem readItems_text {item : Json} (rest : List Char)
    (h : ∀ value ∈ item :: items, ∀ rest, Ends rest →
      Begins (value.compactText ++ rest) value rest) :
    ∃ first behind, item.compactText ++ Json.compactItems items ++ rest = first :: behind ∧
      isBlank first = false ∧ first ≠ ']' ∧
      ∃ drafts shorter, readItems first behind = (drafts, ⟨rest, shorter⟩) ∧
        List.Forall₂ Holds drafts (item :: items) := by
  induction items generalizing item with
  | nil =>
    obtain ⟨first, behind, htext, hblank, hclose, draft, shorter, hread, hdraft⟩ :=
      h item List.mem_cons_self (']' :: rest) (by simp [Ends])
    refine ⟨first, behind, ?_, hblank, hclose, [draft], ?_, ?_, .cons hdraft .nil⟩
    · rw [← htext]
      simp [Json.compactItems]
    · exact Nat.le_of_succ_le shorter
    · rw [readItems, hread]
      simp
  | cons next items ih =>
    obtain ⟨hitem, hitems⟩ := List.forall_mem_cons.mp h
    obtain ⟨first', behind', htext', hblank', -, drafts, shorter', hread', hdrafts⟩ := ih hitems
    obtain ⟨first, behind, htext, hblank, hclose, draft, shorter, hread, hdraft⟩ :=
      hitem (',' :: first' :: behind') (by simp [Ends])
    refine ⟨first, behind, ?_, hblank, hclose, draft :: drafts, ?_, ?_, .cons hdraft hdrafts⟩
    · rw [← htext, ← htext']
      simp [Json.compactItems]
    · simp only [List.length_cons] at shorter
      omega
    · rw [readItems, hread]
      simp [nextVisible_cons hblank', hread']

/-- The fields of an object are read from the quote of the first key on, up to the closing brace. -/
theorem readFields_text (key : String) (value : Json) (rest : List Char)
    (h : ∀ field ∈ (key, value) :: fields, ∀ rest, Ends rest →
      Begins (field.2.compactText ++ rest) field.2 rest) :
    ∃ behind, Json.stringText key ++ ':' :: value.compactText ++ Json.compactFields fields ++
        rest = '"' :: behind ∧
      ∃ drafts shorter, readFields '"' behind = (drafts, ⟨rest, shorter⟩) ∧
        HoldFields drafts ((key, value) :: fields) := by
  have hcolon := nextVisible_cons (c := ':') (by decide)
  induction fields generalizing key value with
  | nil =>
    obtain ⟨first, behind, htext, hblank, -, draft, shorter, hread, hdraft⟩ :=
      h (key, value) List.mem_cons_self ('\x7d' :: rest) (by simp [Ends])
    obtain ⟨hlength, hkey⟩ := readString_text key (':' :: first :: behind)
    refine ⟨key.toList.flatMap Json.escaped ++ '"' :: ':' :: first :: behind, ?_,
      [(some key, ':' :: first :: behind, draft)], ?_, ?_, .cons ⟨rfl, hdraft⟩ .nil⟩
    · rw [← htext]
      simp [Json.stringText, Json.compactFields]
    · simp only [List.length_cons] at shorter hlength
      omega
    · rw [readFields]
      simp only [hkey, hcolon, nextVisible_cons hblank, if_true]
      rw [hread]
      simp
  | cons next fields ih =>
    obtain ⟨hvalue, hfields⟩ := List.forall_mem_cons.mp h
    obtain ⟨behind', htext', drafts, shorter', hread', hdrafts⟩ := ih next.1 next.2 hfields
    obtain ⟨first, behind, htext, hblank, -, draft, shorter, hread, hdraft⟩ :=
      hvalue (',' :: '"' :: behind') (by simp [Ends])
    obtain ⟨hlength, hkey⟩ := readString_text key (':' :: first :: behind)
    refine ⟨key.toList.flatMap Json.escaped ++ '"' :: ':' :: first :: behind, ?_,
      (some key, ':' :: first :: behind, draft) :: drafts, ?_, ?_, .cons ⟨rfl, hdraft⟩ hdrafts⟩
    · rw [← htext, ← htext']
      simp [Json.stringText, Json.compactFields]
    · simp only [List.length_cons] at shorter hlength
      omega
    · rw [readFields]
      simp only [hkey, hcolon, nextVisible_cons hblank, if_true]
      rw [hread]
      simp [hread']

theorem begins_array (rest : List Char) (h : ∀ value ∈ items, ∀ rest, Ends rest →
      Begins (value.compactText ++ rest) value rest) :
    Begins (Json.compactText (.array items) ++ rest) (.array items) rest := by
  cases items with
  | nil =>
    refine ⟨'[', ']' :: rest, rfl, by decide, by decide, .array ('[' :: ']' :: rest) [] rest,
      by simp, ?_, .array .nil⟩
    rw [readValue]
    simp
  | cons item items =>
    obtain ⟨first, behind, htext, hblank, hclose, drafts, shorter, hread, hdrafts⟩ :=
      readItems_text rest h
    refine ⟨'[', first :: behind, ?_, by decide, by decide,
      .array ('[' :: first :: behind) drafts rest, ?_, ?_, .array hdrafts⟩
    · rw [← htext]
      simp [Json.compactText]
    · exact Nat.le_succ_of_le shorter
    · rw [readValue]
      simp [nextVisible_cons hblank, hclose, hread]

theorem begins_object (rest : List Char) (h : ∀ field ∈ fields, ∀ rest, Ends rest →
      Begins (field.2.compactText ++ rest) field.2 rest) :
    Begins (Json.compactText (.object fields) ++ rest) (.object fields) rest := by
  cases fields with
  | nil =>
    refine ⟨'\x7b', '\x7d' :: rest, rfl, by decide, by decide,
      .object ('\x7b' :: '\x7d' :: rest) [] rest, by simp, ?_, .object rfl .nil⟩
    rw [readValue]
    simp
  | cons field fields =>
    obtain ⟨behind, htext, drafts, shorter, hread, hdrafts⟩ :=
      readFields_text field.1 field.2 rest h
    refine ⟨'\x7b', '"' :: behind, ?_, by decide, by decide,
      .object ('\x7b' :: '"' :: behind) drafts rest, ?_, ?_, holds_object hdrafts⟩
    · rw [← htext]
      simp [Json.compactText]
    · exact Nat.le_succ_of_le shorter
    · rw [readValue]
      simp [hread]

theorem begins_compactText (h : value.Exact) (hrest : Ends rest) :
    Begins (value.compactText ++ rest) value rest := by
  induction h generalizing rest with
  | null => exact begins_null rest
  | bool b => exact begins_bool b rest
  | integer hfits => exact begins_integer hfits hrest
  | string s => exact begins_string s rest
  | array _ ih => exact begins_array rest fun item hitem _ hends => ih item hitem hends
  | object _ ih => exact begins_object rest fun field hfield _ hends => ih field hfield hends

/-- A text is read to its end as a draft of the value that it was written for. -/
theorem read_compactText (h : value.Exact) :
    ∃ draft, read value.compactText = (draft, true) ∧ draft.Holds value := by
  have hends : Ends [] := by simp [Ends]
  obtain ⟨first, behind, htext, hblank, -, draft, shorter, hread, hdraft⟩ :=
    begins_compactText h hends
  rw [List.append_nil] at htext
  refine ⟨draft, ?_, hdraft⟩
  rw [read, htext, nextVisible_cons hblank]
  simp [hread]

end Draft

end ShapeRules
