import ProtonWire.Lib.Runs

/-!
# One part of a machine as a machine of its own

* **`exists_run_view`**: where every step of a machine looks, to one view of its state and of its
  events, like some run of another machine, every run of it does.
-/

namespace Machine

variable {σ τ α β ε δ : Type*} {step : σ → α → σ × List ε} {step' : τ → β → τ × List δ}
    {view : σ → τ}
  {report : ε → Option δ} {P : σ → Prop}

/-- **A run of the whole is a run of the part.** -/
theorem exists_run_view (hkeeps : ∀ s a, P s → P (step s a).1)
    (hstep : ∀ s a, P s → ∃ bs, run step' (view s) bs = (view (step s a).1,
      (step s a).2.filterMap report)) {s : σ}
    (h : P s) (as : List α) :
    ∃ bs, run step' (view s) bs = (view (run step s as).1, (run step s as).2.filterMap report) := by
  induction as generalizing s with
  | nil => exact ⟨[], rfl⟩
  | cons a as ih =>
    obtain ⟨bs₁, hfirst⟩ := hstep s a h
    obtain ⟨bs₂, hrest⟩ := ih (hkeeps s a h)
    refine ⟨bs₁ ++ bs₂, ?_⟩
    rw [run_append, hfirst]
    dsimp only
    rw [hrest, run_cons, List.filterMap_append]

end Machine
