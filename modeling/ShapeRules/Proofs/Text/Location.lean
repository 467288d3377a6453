import Mathlib.Data.List.DropRight
import ShapeRules.Text.Location

/-!
Locations in a text that stands behind another one.
-/

namespace ShapeRules

namespace Location

/-- The location moved by a text in front: down by its lines and, on the first line, to the right by
its last line. -/
def shift (front : List Char) (here : Location) : Location :=
  ⟨here.line + front.count '\n',
    if here.line = 1 then here.column + (front.rtakeWhile (· ≠ '\n')).length else here.column⟩

theorem shift_next {here : Location} (hline : 1 ≤ here.line) (front : List Char) (c : Char) :
    (here.next c).shift front = (here.shift front).next c := by
  by_cases hc : c = '\n'
  · have hbelow : here.line + 1 ≠ 1 := by omega
    simp only [next, shift, if_pos hc, if_neg hbelow, Nat.add_right_comm]
  · simp only [next, shift, if_neg hc]
    split <;> simp only [Nat.add_right_comm]

theorem start_after (text : List Char) : start.after text = start.shift text := by
  induction text using List.reverseRecOn with
  | nil => rfl
  | append_singleton text c ih =>
    rw [after_append, ih, after_cons, after_nil]
    by_cases hc : c = '\n' <;> simp [next, shift, start, hc, Nat.add_assoc]

theorem one_le_line_after (text : List Char) : 1 ≤ (start.after text).line := by
  rw [start_after]
  exact Nat.le_add_right 1 _

/-- Behind a text in front, a text ends where it ends by itself, moved by the text in front. -/
theorem start_after_append (front text : List Char) :
    start.after (front ++ text) = (start.after text).shift front := by
  induction text using List.reverseRecOn with
  | nil => rw [List.append_nil, after_nil, start_after]
  | append_singleton text c ih =>
    have hnext (text : List Char) : start.after (text ++ [c]) = (start.after text).next c := by
      rw [after_append, after_cons, after_nil]
    rw [← List.append_assoc, hnext, ih, hnext, shift_next (one_le_line_after text)]

end Location

end ShapeRules
