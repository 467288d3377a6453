import ShapeRules.Path.Reading
import ShapeRules.Proofs.Loop

/-!
The loops that read paths, round by round. Each round that goes on consumes at least one character,
and the readers run these loops.
-/

namespace ShapeRules

open Loop (Progresses progresses)

namespace Reading

/-- What a loop has read, and the text that is left. -/
structure Stage (α : Type) where
  read : List α
  text : List Char

/-- The number of characters that are left. -/
def Stage.left {α : Type} (stage : Stage α) : Nat := stage.text.length

/-- A reader of the text that is left goes on with what the loop has read. -/
def resume {α : Type} (reader : List Char → Reading (List α)) (stage : Stage α) :
    Reading (List α) :=
  (reader stage.text).map fun (more, rest) => (stage.read ++ more, rest)

variable {α : Type} {reader : List Char → Reading (List α)} {read : List α} {text behind : List Char}

theorem resume_ok {more : List α} {rest : List Char} (h : reader text = .ok (more, rest)) :
    resume reader ⟨read, text⟩ = .ok (read ++ more, rest) := by
  rw [resume, h]
  rfl

theorem resume_error {fault : Fault} (h : reader text = .error fault) :
    resume reader ⟨read, text⟩ = .error fault := by
  rw [resume, h]
  rfl

/-- What a reader reads first may as well have been read before. -/
theorem resume_cons {a : α}
    (h : reader text = (reader behind).map fun (more, rest) => (a :: more, rest)) :
    resume reader ⟨read, text⟩ = resume reader ⟨read ++ [a], behind⟩ := by
  cases hbehind : reader behind with
  | error fault =>
    rw [hbehind] at h
    rw [resume_error h, resume_error hbehind]
  | ok found =>
    rw [hbehind] at h
    rw [resume_ok h, resume_ok hbehind, List.append_cons]

end Reading

open Reading (Stage resume)

namespace Path

/-- A round over a string: it reads a character or an escape, or stops at the closing quote. -/
def quotedRound (quote : Char) (opening : List Char) :
    Stage Char → Stage Char ⊕ Reading (List Char)
  | ⟨_, []⟩ => .inr (.error ⟨.unterminatedString, opening, []⟩)
  | ⟨read, c :: rest⟩ =>
    if c = quote then .inr (.ok (read, rest))
    else if c = '\\' then
      match rest with
      | [] => .inr (.error ⟨.unterminatedString, opening, []⟩)
      | escaped :: rest' =>
        match unescape? escaped with
        | none => .inr (.error ⟨.invalidEscape escaped, c :: rest, rest'⟩)
        | some d => .inl ⟨read ++ [d], rest'⟩
    else .inl ⟨read ++ [c], rest⟩

/-- A round over arguments: it reads an argument and the comma behind it, or stops at the
parenthesis behind the last one. -/
def argumentsRound (opening : List Char) (stage : Stage String) :
    Stage String ⊕ Reading (List String) :=
  match argument opening (skipSpace stage.text) with
  | .error fault => .inr (.error fault)
  | .ok (value, behind) =>
    match skipSpace behind with
    | [] => .inr (.error ⟨.unterminated '(', opening, []⟩)
    | ',' :: rest => .inl ⟨stage.read ++ [String.ofList value], rest⟩
    | ')' :: rest => .inr (.ok (stage.read ++ [String.ofList value], rest))
    | c :: rest => .inr (.error ⟨.unexpected c .argumentEnd, c :: rest, c :: rest⟩)

/-- A round over the segments behind the first: it reads a segment, or stops where the path does not
go on. -/
def segmentsRound (braced : Bool) (stage : Stage Segment) :
    Stage Segment ⊕ Reading (List Segment) :=
  match continuation? braced stage.text with
  | none => .inr (.ok (stage.read, stage.text))
  | some next =>
    match segment next with
    | .error fault => .inr (.error fault)
    | .ok (first, behind) => .inl ⟨stage.read ++ [first], behind⟩

/-! ### The readers run the loops -/

private theorem quoted_cons (quote : Char) (opening : List Char) (c : Char) (rest : List Char) :
    quoted quote opening (c :: rest) =
      if c = quote then .ok ([], rest)
      else if c = '\\' then
        match rest with
        | [] => .error ⟨.unterminatedString, opening, []⟩
        | escaped :: rest' =>
          match unescape? escaped with
          | none => .error ⟨.invalidEscape escaped, c :: rest, rest'⟩
          | some d => (quoted quote opening rest').map fun (value, rest) => (d :: value, rest)
      else (quoted quote opening rest).map fun (value, rest) => (c :: value, rest) := by
  rw [quoted.eq_def]
  dsimp only
  by_cases hquote : c = quote
  · rw [if_pos hquote, if_pos hquote]
  rw [if_neg hquote, if_neg hquote]
  by_cases hslash : c = '\\'
  · rw [if_pos hslash, if_pos hslash]
    cases rest with
    | nil => rfl
    | cons escaped rest =>
      cases hescape : unescape? escaped with
      | none => simp only [hescape]
      | some d =>
        simp only [hescape]
        cases quoted quote opening rest <;> rfl
  · rw [if_neg hslash, if_neg hslash]
    cases quoted quote opening rest <;> rfl

theorem quoted_progresses (quote : Char) (opening : List Char) :
    Progresses (quotedRound quote opening) (resume (quoted quote opening)) Stage.left 1 := by
  refine progresses (fun stage => ?_) Nat.one_pos (fun stage => ?_)
  · fun_cases quotedRound quote opening stage with
    | case1 => rfl
    | case2 read rest =>
      have hstop : quoted quote opening (quote :: rest) = .ok ([], rest) := by simp [quoted_cons]
      rw [Reading.resume_ok hstop, List.append_nil]
      rfl
    | case3 read hquote => exact Reading.resume_error (by simp [quoted_cons, hquote])
    | case4 read escaped rest hescape hquote =>
      exact Reading.resume_error (by simp [quoted_cons, hquote, hescape])
    | case5 read escaped rest d hescape hquote =>
      exact Reading.resume_cons (by simp [quoted_cons, hquote, hescape])
    | case6 read c rest hquote hslash =>
      exact Reading.resume_cons (by simp [quoted_cons, hquote, hslash])
  · fun_cases quotedRound quote opening stage <;> rintro next ⟨⟩ <;> simp [Stage.left]

private theorem moreArguments_eq (opening text : List Char) :
    moreArguments opening text =
      match argument opening (skipSpace text) with
      | .error fault => .error fault
      | .ok (value, behind) =>
        match skipSpace behind with
        | [] => .error ⟨.unterminated '(', opening, []⟩
        | ',' :: rest =>
          (moreArguments opening rest).map fun (values, rest) =>
            (String.ofList value :: values, rest)
        | ')' :: rest => .ok ([String.ofList value], rest)
        | c :: rest => .error ⟨.unexpected c .argumentEnd, c :: rest, c :: rest⟩ := by
  rw [moreArguments.eq_def]
  split
  · rename_i hread
    simp only [hread]
  · rename_i hread
    simp only [hread]
    split
    · simp_all
    · rename_i rest hnext
      simp only [hnext]
      cases moreArguments opening rest <;> rfl
    · simp_all
    · simp_all

theorem arguments_progress (opening : List Char) :
    Progresses (argumentsRound opening) (resume (moreArguments opening)) Stage.left 1 := by
  refine progresses (fun stage => ?_) Nat.one_pos (fun stage => ?_)
  · fun_cases argumentsRound opening stage with
    | case1 fault hread =>
      refine Reading.resume_error ?_
      rw [moreArguments_eq, hread]
    | case2 value behind hread hnext =>
      refine Reading.resume_error ?_
      rw [moreArguments_eq, hread]
      simp only [hnext]
    | case3 value behind hread rest hnext =>
      refine Reading.resume_cons ?_
      rw [moreArguments_eq, hread]
      simp only [hnext]
    | case4 value behind hread rest hnext =>
      refine Reading.resume_ok ?_
      rw [moreArguments_eq, hread]
      simp only [hnext]
    | case5 value behind hread c rest hcomma hclose hnext =>
      refine Reading.resume_error ?_
      rw [moreArguments_eq, hread]
      simp only [hnext]
  · fun_cases argumentsRound opening stage with
    | case3 value behind hread rest hnext =>
      rintro next ⟨⟩
      have hargument := argument_length hread
      have hfront := skipSpace_length stage.text
      have hback := skipSpace_length behind
      rw [hnext, List.length_cons] at hback
      simp only [Stage.left]
      omega
    | _ => rintro next ⟨⟩

private theorem moreSegments_eq (braced : Bool) (text : List Char) :
    moreSegments braced text =
      match continuation? braced text with
      | none => .ok ([], text)
      | some next =>
        match segment next with
        | .error fault => .error fault
        | .ok (first, behind) =>
          (moreSegments braced behind).map fun (others, rest) => (first :: others, rest) := by
  rw [moreSegments.eq_def]
  split
  · simp_all
  · rename_i hnext
    simp only [hnext]
    split
    · simp_all
    · rename_i behind hread
      simp only [hread]
      cases moreSegments braced behind <;> rfl

theorem segments_progress (braced : Bool) :
    Progresses (segmentsRound braced) (resume (moreSegments braced)) Stage.left 1 := by
  refine progresses (fun stage => ?_) Nat.one_pos (fun stage => ?_)
  · fun_cases segmentsRound braced stage with
    | case1 hnone =>
      have hstop : moreSegments braced stage.text = .ok ([], stage.text) := by
        rw [moreSegments_eq, hnone]
      refine (Reading.resume_ok hstop).trans ?_
      rw [List.append_nil]
      rfl
    | case2 next hnext fault hread =>
      refine Reading.resume_error ?_
      rw [moreSegments_eq, hnext]
      simp only [hread]
    | case3 next hnext first behind hread =>
      refine Reading.resume_cons ?_
      rw [moreSegments_eq, hnext]
      simp only [hread]
  · fun_cases segmentsRound braced stage with
    | case3 next hnext first behind hread =>
      rintro stage' ⟨⟩
      exact Nat.lt_of_lt_of_le (segment_length hread) (continuation?_length hnext)
    | _ => rintro next ⟨⟩

end Path

end ShapeRules
