import ShapeRules.Text.Cursor

/-!
Where a cursor stands. It moves over its input without losing its place in bytes and lines, and the
slice from an earlier place is the text in between.
-/

namespace ShapeRules

/-- The number of bytes of a text in UTF-8. -/
def byteLength : List Char → Nat
  | [] => 0
  | c :: text => c.utf8Size + byteLength text

theorem byteLength_append (s t : List Char) :
    byteLength (s ++ t) = byteLength s + byteLength t := by
  induction s with
  | nil => rw [List.nil_append, byteLength, Nat.zero_add]
  | cons c s ih => rw [List.cons_append, byteLength, byteLength, ih, Nat.add_assoc]

namespace Cursor

/-- The cursor stands behind `consumed`. -/
structure Behind (cursor : Cursor) (consumed : List Char) : Prop where
  input : cursor.input = consumed ++ cursor.rest
  position : cursor.position = byteLength consumed
  location : cursor.location = Location.start.after consumed

variable {cursor : Cursor} {consumed text suffix : List Char}

theorem advance_input (cursor : Cursor) : cursor.advance.input = cursor.input := by
  unfold advance
  split <;> rfl

theorem skip_input (n : Nat) (cursor : Cursor) : (cursor.skip n).input = cursor.input := by
  induction n generalizing cursor with
  | zero => rfl
  | succ n ih => rw [skip, ih, advance_input]

theorem start_behind (input : List Char) : (start input).Behind [] :=
  ⟨rfl, rfl, rfl⟩

theorem Behind.advance {c : Char} (h : cursor.Behind consumed) (hrest : cursor.rest = c :: suffix) :
    cursor.advance.Behind (consumed ++ [c]) := by
  have hadvance : cursor.advance = { cursor with
      rest := suffix, position := cursor.position + c.utf8Size,
      location := cursor.location.next c } := by
    rw [Cursor.advance, hrest]
  rw [hadvance]
  refine ⟨?_, ?_, ?_⟩
  · rw [h.input, hrest, List.append_assoc, List.singleton_append]
  · rw [byteLength_append, h.position]
    rfl
  · rw [h.location, Location.after_append, Location.after_cons, Location.after_nil]

theorem Behind.skip (h : cursor.Behind consumed) (hrest : cursor.rest = text ++ suffix) :
    (cursor.skip text.length).Behind (consumed ++ text) := by
  induction text generalizing cursor consumed with
  | nil =>
    rw [List.append_nil]
    exact h
  | cons c text ih =>
    have hadvance := h.advance hrest
    have htail : cursor.advance.rest = text ++ suffix := by
      rw [advance_rest, hrest, List.cons_append, List.tail_cons]
    have hskip := ih hadvance htail
    rwa [List.append_assoc] at hskip

theorem advanceTo_eq (hrest : cursor.rest = text ++ suffix) :
    cursor.advanceTo suffix = cursor.skip text.length := by
  rw [advanceTo, hrest, List.length_append, Nat.add_sub_cancel]

theorem advanceTo_rest (hrest : cursor.rest = text ++ suffix) :
    (cursor.advanceTo suffix).rest = suffix := by
  rw [advanceTo_eq hrest, skip_rest, hrest, List.drop_left]

theorem Behind.advanceTo (h : cursor.Behind consumed) (hrest : cursor.rest = text ++ suffix) :
    (cursor.advanceTo suffix).Behind (consumed ++ text) := by
  rw [advanceTo_eq hrest]
  exact h.skip hrest

theorem dropBytes_byteLength (front text : List Char) :
    dropBytes (byteLength front) (front ++ text) = text := by
  induction front with
  | nil => cases text <;> rfl
  | cons c front ih =>
    have hsize := c.utf8Size_pos
    obtain ⟨n, hn⟩ : ∃ n, c.utf8Size + byteLength front = n + 1 :=
      ⟨c.utf8Size + byteLength front - 1, by omega⟩
    have hrest : n + 1 - c.utf8Size = byteLength front := by omega
    rw [byteLength, hn, List.cons_append, dropBytes, hrest, ih]

/-- The slice from the end of a consumed text is what was consumed since. -/
theorem Behind.sliceFrom (h : cursor.Behind (consumed ++ text)) :
    cursor.sliceFrom (byteLength consumed) = text := by
  have hinput := h.input
  rw [List.append_assoc] at hinput
  rw [Cursor.sliceFrom, hinput, dropBytes_byteLength]
  simp

end Cursor

end ShapeRules
