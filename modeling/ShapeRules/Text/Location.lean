/-!
Lines and columns of characters in a text.
-/

namespace ShapeRules

/-- The line and column of a character, both counted from one. -/
structure Location where
  line : Nat
  column : Nat
  deriving DecidableEq, Repr

namespace Location

/-- The location of the first character of a text. -/
def start : Location := ⟨1, 1⟩

/-- The location behind a character that stands at `here`. -/
def next (here : Location) (c : Char) : Location :=
  if c = '\n' then ⟨here.line + 1, 1⟩ else ⟨here.line, here.column + 1⟩

/-- The location behind a stretch of text that begins at `here`. -/
def after (here : Location) (text : List Char) : Location :=
  text.foldl next here

@[simp] theorem after_nil (here : Location) : here.after [] = here := rfl

@[simp] theorem after_cons (here : Location) (c : Char) (text : List Char) :
    here.after (c :: text) = (here.next c).after text := rfl

@[simp] theorem after_append (here : Location) (s t : List Char) :
    here.after (s ++ t) = (here.after s).after t := by
  simp [after]

end Location

end ShapeRules
