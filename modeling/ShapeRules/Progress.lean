/-!
Loops that end because each round leaves less to do.
-/

namespace ShapeRules

/-- Repeats a step until it is done. A round that fails, or leaves no less than it found, ends the
loop without a result. -/
def repeatStep {σ β : Type} (left : σ → Nat) (step : σ → Option (σ ⊕ β)) (state : σ) : Option β :=
  match step state with
  | none => none
  | some (.inr result) => some result
  | some (.inl next) => if left next < left state then repeatStep left step next else none
termination_by left state

end ShapeRules
