import ProtonWire.Lib.Runs

/-!
# Runs that can only change so much

A view of the state with a weight that every change of the view makes smaller.

* `changes`: the steps of a run that change the view;
* **`changes_le`**: there are no more of them than the weight;
* **`exists_still`**: some run of given actions comes to where none of them changes the view.
-/

namespace Machine

variable {σ α ε β : Type*} {step : σ → α → σ × List ε} {view : σ → β} {weight : β → ℕ}
    {P : σ → Prop}
  {ok : α → Prop}

open Classical in
/-- How many steps of a run change the view. -/
noncomputable def changes (step : σ → α → σ × List ε) (view : σ → β) : σ → List α → ℕ
  | _, [] => 0
  | s, a :: as => (if view (step s a).1 = view s then 0 else 1) + changes step view (step s a).1 as

/-- **A run of admitted actions changes the view no more often** than the weight allows. -/
theorem changes_le (hkeeps : ∀ s a, ok a → P s → P (step s a).1)
    (hdescends : ∀ s a, ok a → P s → view (step s a).1 ≠ view s →
     weight (view (step s a).1) < weight (view s)) {s : σ}
    (h : P s) {as : List α} (hok : ∀ a ∈ as, ok a) : changes step view s as ≤ weight (view s) := by
  induction as generalizing s with
  | nil => exact Nat.zero_le _
  | cons a as ih =>
    have ha : ok a := hok a List.mem_cons_self
    have hrest := ih (hkeeps s a ha h) fun b hb => hok b (List.mem_cons_of_mem a hb)
    rw [changes]
    split
    · next hsame =>
      rw [hsame] at hrest
      omega
    · next hchange =>
      have := hdescends s a ha h hchange
      omega

/-- **Some run of the given actions comes to a rest.** -/
theorem exists_still (actions : List α) (hkeeps : ∀ s a, a ∈ actions → P s → P (step s a).1)
    (hdescends : ∀ s a, a ∈ actions → P s → view (step s a).1 ≠ view s →
      weight (view (step s a).1) < weight (view s)) {s : σ} (h : P s) :
    ∃ as, (∀ a ∈ as, a ∈ actions) ∧ P (run step s as).1 ∧
      ∀ a ∈ actions, view (step (run step s as).1 a).1 = view (run step s as).1 := by
  induction hweight : weight (view s) using Nat.strong_induction_on generalizing s with
  | _ n ih =>
    by_cases hstill : ∀ a ∈ actions, view (step s a).1 = view s
    · exact ⟨[], by simp, h, hstill⟩
    · push Not at hstill
      obtain ⟨a, ha, hchange⟩ := hstill
      have hless := hdescends s a ha h hchange
      obtain ⟨as, hactions, hend, hrest⟩ := ih _ (hweight ▸ hless) (hkeeps s a ha h) rfl
      refine ⟨a :: as, ?_, ?_, ?_⟩
      · simpa [ha] using hactions
      · exact hend
      · exact hrest

end Machine
