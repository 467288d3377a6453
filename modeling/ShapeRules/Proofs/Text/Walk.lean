import Mathlib.Algebra.Group.Nat.Defs
import ShapeRules.Proofs.Text.Cursor
import ShapeRules.Proofs.Text.Location

/-!
Walks of a cursor over a text. Whatever a cursor is asked to do, it stands behind some beginning of
its input and knows the byte, the line and the column, and from any place where it has been it cuts
out the text in between. Over a short text its counters fit in 32 bits.
-/

namespace ShapeRules

namespace Text

/-- The longest beginning of the text with characters of one class only. -/
structure LongestRun (p : Char → Bool) (text run : List Char) : Prop where
  begins : run <+: text
  all : ∀ c ∈ run, p c = true
  longest : ∀ other, other <+: text → (∀ c ∈ other, p c = true) → other <+: run

theorem longestRun_takeWhile (p : Char → Bool) (text : List Char) :
    LongestRun p text (text.takeWhile p) where
  begins := List.takeWhile_prefix p
  all := fun _ hc => List.mem_takeWhile_imp hc
  longest := by
    rintro other ⟨behind, rfl⟩ hall
    rw [List.takeWhile_append_of_pos hall]
    exact List.prefix_append other _

end Text

/-- Line and column fit in 32 bits. -/
structure Location.Fits (here : Location) : Prop where
  line : here.line < 2 ^ 32
  column : here.column < 2 ^ 32

theorem Location.fits_after {text : List Char} (h : text.length < 2 ^ 32 - 1) :
    (Location.start.after text).Fits := by
  have hline : text.count '\n' ≤ text.length := List.count_le_length
  have hcolumn : (text.rtakeWhile (· ≠ '\n')).length ≤ text.length :=
    (List.rtakeWhile_suffix _ text).length_le
  rw [start_after]
  constructor
  · change 1 + text.count '\n' < 2 ^ 32
    omega
  · change 1 + (text.rtakeWhile (· ≠ '\n')).length < 2 ^ 32
    omega

namespace Cursor

/-- What a cursor can be asked to do. A look at a character consumes nothing. -/
inductive Move where
  | peek
  | peekNth (n : Nat)
  | advance
  | eat (expected : Char)
  | advanceWhile (p : Char → Bool)

/-- The cursor after a move. -/
def move (cursor : Cursor) : Move → Cursor
  | .peek | .peekNth _ => cursor
  | .advance => cursor.advance
  | .eat expected => (cursor.eat expected).2
  | .advanceWhile p => (cursor.advanceWhile p).2

/-- The cursor after moves, one after the other. -/
def walk (cursor : Cursor) (moves : List Move) : Cursor := moves.foldl move cursor

/-- The cursor stands in the text behind `consumed`, and all that it says of its place is true. Its
counters fit in 32 bits, here and at every character that it can go on to. -/
structure Truthful (cursor : Cursor) (text consumed : List Char) : Prop where
  input : cursor.input = text
  split : text = consumed ++ cursor.rest
  position : cursor.position = byteLength consumed
  rest : cursor.rest = dropBytes cursor.position text
  line : cursor.location.line = 1 + consumed.count '\n'
  column : cursor.location.column = 1 + (consumed.rtakeWhile (· ≠ '\n')).length
  fits : ∀ n, (cursor.skip n).location.Fits
  peek : cursor.peek = text[consumed.length]?
  peekNth : ∀ n, cursor.peekNth n = text[consumed.length + n]?
  atEnd : cursor.atEnd = true ↔ cursor.rest = []
  atEnd_position : cursor.atEnd = true ↔ byteLength text ≤ cursor.position
  advanceWhile : ∀ p, Text.LongestRun p cursor.rest (cursor.advanceWhile p).1 ∧
    cursor.rest = (cursor.advanceWhile p).1 ++ (cursor.advanceWhile p).2.rest

variable {cursor : Cursor} {consumed text : List Char}

/-! ### Skipping characters -/

/-- A cursor consumes what there is, and stays at the end. -/
theorem Behind.skip_take (h : cursor.Behind consumed) (n : Nat) :
    (cursor.skip n).Behind (consumed ++ cursor.rest.take n) := by
  induction n generalizing cursor consumed with
  | zero => simpa [Cursor.skip] using h
  | succ n ih =>
    cases hrest : cursor.rest with
    | nil =>
      have hstays : cursor.advance = cursor := by rw [Cursor.advance, hrest]
      rw [Cursor.skip, hstays]
      simpa [hrest] using ih h
    | cons c rest =>
      have hadvance := ih (h.advance hrest)
      rw [advance_rest, hrest, List.tail_cons, List.append_assoc] at hadvance
      exact hadvance

theorem skip_skip (cursor : Cursor) (m n : Nat) : (cursor.skip m).skip n = cursor.skip (m + n) := by
  induction m generalizing cursor with
  | zero => rw [skip, Nat.zero_add]
  | succ m ih => rw [Nat.succ_add, skip, skip, ih]

/-- Each move consumes some characters one by one. -/
theorem exists_skip_of_move (cursor : Cursor) (m : Move) : ∃ n, cursor.move m = cursor.skip n := by
  cases m with
  | peek => exact ⟨0, rfl⟩
  | peekNth n => exact ⟨0, rfl⟩
  | advance => exact ⟨1, rfl⟩
  | eat expected =>
    by_cases hpeek : cursor.peek = some expected
    · exact ⟨1, by rw [move, eat, if_pos hpeek]; rfl⟩
    · exact ⟨0, by rw [move, eat, if_neg hpeek]; rfl⟩
  | advanceWhile p => exact ⟨(cursor.rest.takeWhile p).length, rfl⟩

theorem exists_skip_of_walk (cursor : Cursor) (moves : List Move) :
    ∃ n, cursor.walk moves = cursor.skip n := by
  induction moves generalizing cursor with
  | nil => exact ⟨0, rfl⟩
  | cons first moves ih =>
    obtain ⟨m, hfirst⟩ := exists_skip_of_move cursor first
    obtain ⟨n, hmoves⟩ := ih (cursor.move first)
    refine ⟨m + n, ?_⟩
    rw [walk, List.foldl_cons, ← walk, hmoves, hfirst, skip_skip]

theorem walk_input (cursor : Cursor) (moves : List Move) :
    (cursor.walk moves).input = cursor.input := by
  obtain ⟨n, hwalk⟩ := exists_skip_of_walk cursor moves
  rw [hwalk, skip_input]

/-- A walk consumes the text behind what was consumed before. -/
theorem Behind.walk (h : cursor.Behind consumed) (moves : List Move) :
    ∃ between, (cursor.walk moves).Behind (consumed ++ between) := by
  obtain ⟨n, hwalk⟩ := exists_skip_of_walk cursor moves
  rw [hwalk]
  exact ⟨_, h.skip_take n⟩

/-! ### The place of a cursor -/

theorem byteLength_eq_zero {text : List Char} : byteLength text = 0 ↔ text = [] := by
  cases text with
  | nil => simp [byteLength]
  | cons c text =>
    have hsize := c.utf8Size_pos
    simp only [byteLength, reduceCtorEq, iff_false]
    omega

theorem Behind.peekNth (h : cursor.Behind consumed) (n : Nat) :
    cursor.peekNth n = cursor.input[consumed.length + n]? := by
  rw [h.input, List.getElem?_append_right (Nat.le_add_right _ n), Nat.add_sub_cancel_left,
    Cursor.peekNth]

theorem Behind.fits (h : cursor.Behind consumed) (hshort : cursor.input.length < 2 ^ 32 - 1) :
    cursor.location.Fits := by
  rw [h.location]
  refine Location.fits_after ?_
  rw [h.input, List.length_append] at hshort
  omega

theorem Behind.truthful (h : cursor.Behind consumed) (hshort : cursor.input.length < 2 ^ 32 - 1) :
    cursor.Truthful cursor.input consumed where
  input := rfl
  split := h.input
  position := h.position
  rest := by rw [h.position, h.input, dropBytes_byteLength]
  line := by rw [h.location, Location.start_after]; rfl
  column := by rw [h.location, Location.start_after]; rfl
  fits := by
    intro n
    have hskip := h.skip_take n
    rw [← skip_input n cursor] at hshort
    exact hskip.fits hshort
  peek := by
    rw [peek, List.head?_eq_getElem?]
    exact h.peekNth 0
  peekNth := h.peekNth
  atEnd := List.isEmpty_iff
  atEnd_position := by
    rw [atEnd, List.isEmpty_iff, ← byteLength_eq_zero, h.position, h.input, byteLength_append]
    omega
  advanceWhile := by
    intro p
    have hrun := Text.longestRun_takeWhile p cursor.rest
    refine ⟨hrun, ?_⟩
    rw [Cursor.advanceWhile, skip_rest]
    exact (List.prefix_iff_eq_append.mp hrun.begins).symm

/-- After every walk over a short text the cursor is truthful, and from the place where any walk
before left it, it cuts out what was consumed since. -/
theorem walk_truthful (text : List Char) (hshort : text.length < 2 ^ 32 - 1)
    (before since : List Move) :
    let earlier := (start text).walk before
    let cursor := earlier.walk since
    ∃ consumed between, earlier.Truthful text consumed ∧
      cursor.Truthful text (consumed ++ between) ∧
      cursor.sliceFrom earlier.position = between := by
  intro earlier cursor
  obtain ⟨consumed, hearlier⟩ := (start_behind text).walk before
  obtain ⟨between, hcursor⟩ := hearlier.walk since
  have hinput : earlier.input = text := walk_input (start text) before
  have hinput' : cursor.input = text := (walk_input earlier since).trans hinput
  refine ⟨consumed, between, ?_, ?_, ?_⟩
  · rw [← hinput] at hshort
    exact hinput ▸ hearlier.truthful hshort
  · rw [← hinput'] at hshort
    exact hinput' ▸ hcursor.truthful hshort
  · rw [hearlier.position]
    exact hcursor.sliceFrom

/-- A character of two bytes, a line break, a run up to a sign, and a character that is not there. -/
theorem walk_truthful_lines :
    let text := "é\nab@c".toList
    let before : List Move := [.advance]
    let since : List Move := [.peekNth 1, .advanceWhile (· ≠ '@'), .eat '@', .eat '!']
    let earlier := (start text).walk before
    let cursor := earlier.walk since
    text.length < 2 ^ 32 - 1 ∧ earlier.position = 2 ∧ cursor.position = 6 ∧
      cursor.location = ⟨2, 4⟩ ∧ cursor.sliceFrom 2 = "\nab@".toList ∧
      ∃ consumed between, earlier.Truthful text consumed ∧
        cursor.Truthful text (consumed ++ between) ∧
        cursor.sliceFrom earlier.position = between :=
  ⟨by decide, by decide, by decide, by decide, by decide, walk_truthful _ (by decide) _ _⟩

end Cursor

end ShapeRules
