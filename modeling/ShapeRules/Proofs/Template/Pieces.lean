import Mathlib.Data.List.Basic
import ShapeRules.Template.Basic

/-!
Templates read piece by piece, where a piece is one character of literal text or a path, and the
fragments that pieces add up to.
-/

namespace ShapeRules

/-- The smallest part of a template. -/
inductive Piece where
  | plain (c : Char)
  | computed (path : Path)

namespace Piece

/-- Reads a template from left to right. -/
def read (text : List Char) : Except Fault (List Piece) :=
  match text with
  | [] => .ok []
  | '@' :: '@' :: rest => (read rest).map (.plain '@' :: ·)
  | '@' :: rest =>
    match hread : Path.scopedAttribute ('@' :: rest) with
    | .error fault => .error fault
    | .ok (path, behind) =>
      have : behind.length + 2 ≤ rest.length + 1 := Path.scopedAttribute_length hread
      (read behind).map (.computed path :: ·)
  | c :: rest => (read rest).map (.plain c :: ·)
termination_by text.length

theorem read_nil : read [] = .ok [] := by
  rw [read.eq_def]

theorem read_doubled (rest : List Char) :
    read ('@' :: '@' :: rest) = (read rest).map (.plain '@' :: ·) := by
  rw [read.eq_def]
  rfl

theorem read_plain {c : Char} (hc : c ≠ '@') (rest : List Char) :
    read (c :: rest) = (read rest).map (.plain c :: ·) := by
  rw [read.eq_def]
  split
  · rename_i heq
    cases heq
  · rename_i heq
    cases heq
    exact absurd rfl hc
  · rename_i heq
    cases heq
    exact absurd rfl hc
  · rename_i heq
    cases heq
    rfl

/-- A sign that is not doubled begins a scoped attribute. -/
private theorem read_sign {rest : List Char} (hsign : rest.head? ≠ some '@') :
    read ('@' :: rest) =
      match Path.scopedAttribute ('@' :: rest) with
      | .error fault => .error fault
      | .ok (path, behind) => (read behind).map (.computed path :: ·) := by
  rw [read.eq_def]
  split
  · rename_i heq
    cases heq
  · rename_i heq
    cases heq
    exact absurd rfl hsign
  · rename_i heq
    cases heq
    split <;> simp_all
  · rename_i hplain heq
    cases heq
    exact absurd rfl hplain

theorem read_computed {rest behind : List Char} {path : Path} (hsign : rest.head? ≠ some '@')
    (hpath : Path.scopedAttribute ('@' :: rest) = .ok (path, behind)) :
    read ('@' :: rest) = (read behind).map (.computed path :: ·) := by
  rw [read_sign hsign, hpath]

theorem read_fault {rest : List Char} {fault : Fault} (hsign : rest.head? ≠ some '@')
    (hfault : Path.scopedAttribute ('@' :: rest) = .error fault) :
    read ('@' :: rest) = .error fault := by
  rw [read_sign hsign, hfault]

end Piece

namespace Fragment

/-- Adds a piece behind fragments. -/
def push (fragments : List Fragment) : Piece → List Fragment
  | .plain c => append (String.ofList [c]) fragments
  | .computed path => fragments ++ [.computed path]

/-- The fragments that pieces add up to. -/
def ofPieces (pieces : List Piece) : List Fragment := pieces.foldl push []

theorem append_snoc_literal (text last : String) (fragments : List Fragment) :
    append text (fragments ++ [.literal last]) = fragments ++ [.literal (last ++ text)] := by
  induction fragments with
  | nil => rfl
  | cons fragment fragments ih =>
    rw [List.cons_append, append, ih, List.cons_append]
    simp

theorem append_snoc_computed (text : String) (path : Path) (fragments : List Fragment) :
    append text (fragments ++ [.computed path]) = fragments ++ [.computed path, .literal text] := by
  induction fragments with
  | nil => rfl
  | cons fragment fragments ih =>
    rw [List.cons_append, append, ih, List.cons_append]
    simp

/-- Texts that are added one after the other are added at once. -/
theorem append_append (front text : String) (fragments : List Fragment) :
    append text (append front fragments) = append (front ++ text) fragments := by
  rcases List.eq_nil_or_concat fragments with rfl | ⟨others, last, rfl⟩
  · rfl
  · cases last with
    | literal last =>
      rw [List.concat_eq_append, append_snoc_literal, append_snoc_literal, append_snoc_literal,
        String.append_assoc]
    | computed path =>
      have hsplit : others ++ [.computed path, .literal front] =
        others ++ [.computed path] ++ [.literal front] := by simp
      rw [List.concat_eq_append, append_snoc_computed, append_snoc_computed, hsplit,
        append_snoc_literal]
      simp

theorem push_run {run : List Char} (hrun : run ≠ []) (fragments : List Fragment) :
    (run.map .plain).foldl push fragments = append (String.ofList run) fragments := by
  induction run generalizing fragments with
  | nil => exact absurd rfl hrun
  | cons c run ih =>
    rw [List.map_cons, List.foldl_cons, push]
    cases run with
    | nil => rfl
    | cons d run =>
      rw [ih (by simp), append_append, ← String.ofList_append, List.singleton_append]

end Fragment

end ShapeRules
