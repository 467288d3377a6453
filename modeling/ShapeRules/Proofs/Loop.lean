/-!
Loops. A round of a loop goes on with another state or stops with a result. Where each round that
goes on leaves less to do, the loop stops, and no later than what there is to do allows.
-/

namespace ShapeRules.Loop

variable {σ ρ : Type}

/-- So many rounds, all of which go on, lead from one state to another. -/
inductive Rounds (round : σ → σ ⊕ ρ) : Nat → σ → σ → Prop
  | none (s : σ) : Rounds round 0 s s
  | more {n : Nat} {s next last : σ} (hround : round s = .inl next)
      (hrounds : Rounds round n next last) : Rounds round (n + 1) s last

/-- The function runs the loop of these rounds. Each round that goes on leaves at least `k` less to
do, so that the loop stops, and the function gives the result of the round that stops. -/
structure Progresses (round : σ → σ ⊕ ρ) (run : σ → ρ) (left : σ → Nat) (k : Nat) : Prop where
  unfolds : ∀ s, run s = (round s).elim run id
  consumes : ∀ s next, round s = .inl next → left next + k ≤ left s
  stops : ∀ s, ∃ n last result, Rounds round n s last ∧ round last = .inr result ∧
    run s = result ∧ left last + k * n ≤ left s

variable {round : σ → σ ⊕ ρ} {run : σ → ρ} {left : σ → Nat} {k n : Nat} {s last : σ}

/-- What every round preserves holds after any number of them. -/
theorem Rounds.preserves {P : σ → Prop} (h : Rounds round n s last)
    (hround : ∀ s next, P s → round s = .inl next → P next) (hs : P s) : P last := by
  induction h with
  | none => exact hs
  | more hnext _ ih => exact ih (hround _ _ hs hnext)

theorem Rounds.left_le (h : Rounds round n s last)
    (hconsumes : ∀ s next, round s = .inl next → left next + k ≤ left s) :
    left last + k * n ≤ left s := by
  induction h with
  | none => exact Nat.le_refl _
  | more hnext _ ih =>
    have hfirst := hconsumes _ _ hnext
    rw [Nat.mul_succ]
    omega

/-- A loop stops if each round that goes on leaves less to do. -/
theorem progresses (hunfolds : ∀ s, run s = (round s).elim run id) (hk : 0 < k)
    (hconsumes : ∀ s next, round s = .inl next → left next + k ≤ left s) :
    Progresses round run left k := by
  have hstops (s : σ) : ∃ n last result, Rounds round n s last ∧ round last = .inr result ∧
      run s = result := by
    induction hleft : left s using Nat.strongRecOn generalizing s with
    | ind m ih =>
      cases hround : round s with
      | inl next =>
        have hless : left next < m := by
          have hfirst := hconsumes s next hround
          omega
        obtain ⟨n, last, result, hrounds, hlast, hresult⟩ := ih _ hless next rfl
        refine ⟨n + 1, last, result, .more hround hrounds, hlast, ?_⟩
        rw [hunfolds, hround]
        exact hresult
      | inr result =>
        refine ⟨0, s, result, .none s, hround, ?_⟩
        rw [hunfolds, hround]
        rfl
  refine ⟨hunfolds, hconsumes, fun s => ?_⟩
  obtain ⟨n, last, result, hrounds, hlast, hresult⟩ := hstops s
  exact ⟨n, last, result, hrounds, hlast, hresult, hrounds.left_le hconsumes⟩

end ShapeRules.Loop
