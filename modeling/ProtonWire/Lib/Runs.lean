import Mathlib

/-!
# Runs of an event-emitting machine

A machine is a total step function `σ → α → σ × List ε`: an action carries every choice of the
environment (a schedule, a clock reading, a failing write), and an action that is not enabled
changes nothing and emits nothing. So a run is a list of actions, and "for every run" is "for every
list".

* `run`, `run_append`, `run_snoc`;
* **`run_inv`**: a relation between the state and the events emitted so far that holds at the start
  and is kept by every step holds after every run;
* **`run_inv_of_steps`**: the same for the runs whose steps all meet a condition;
* `Along`: the condition, as a recursion along a given run;
* `append_eq_append_cons`: where a position in the events lies, at one step;
* **`exists_step_of_eq_append`**: every event of a run is emitted by one step, taken from a state
  the run passes through.
-/

namespace Machine

variable {σ α ε : Type*}

/-- Run a list of actions from a state, collecting the events in order. -/
def run (step : σ → α → σ × List ε) : σ → List α → σ × List ε
  | s, [] => (s, [])
  | s, a :: as => ((run step (step s a).1 as).1, (step s a).2 ++ (run step (step s a).1 as).2)

variable {step : σ → α → σ × List ε}

@[simp] theorem run_nil (s : σ) : run step s [] = (s, []) := rfl

theorem run_cons (s : σ) (a : α) (as : List α) :
    run step s (a :: as) =
      ((run step (step s a).1 as).1, (step s a).2 ++ (run step (step s a).1 as).2) := rfl

theorem run_append (s : σ) (as bs : List α) :
    run step s (as ++ bs) =
      ((run step (run step s as).1 bs).1,
       (run step s as).2 ++ (run step (run step s as).1 bs).2) := by
  induction as generalizing s with
  | nil => rfl
  | cons a as ih => rw [List.cons_append, run_cons, run_cons, ih, List.append_assoc]

theorem run_snoc (s : σ) (as : List α) (a : α) :
    run step s (as ++ [a]) =
      ((step (run step s as).1 a).1, (run step s as).2 ++ (step (run step s as).1 a).2) := by
  rw [run_append, run_cons, run_nil, List.append_nil]

/-- **Invariant rule.** `P` relates the state to the events emitted so far. -/
theorem run_inv (P : σ → List ε → Prop)
    (hstep : ∀ s h a, P s h → P (step s a).1 (h ++ (step s a).2)) (s : σ) (h : List ε)
    (h₀ : P s h) (as : List α) : P (run step s as).1 (h ++ (run step s as).2) := by
  induction as generalizing s h with
  | nil => simpa using h₀
  | cons a as ih =>
    rw [run_cons, ← List.append_assoc]
    exact ih _ _ (hstep s h a h₀)

/-- **Invariant rule**, for a property of states alone. -/
theorem run_state_inv (P : σ → Prop) (hstep : ∀ s a, P s → P (step s a).1) (s : σ) (h₀ : P s)
    (as : List α) : P (run step s as).1 :=
  run_inv (fun s _ => P s) (fun s _ a h => hstep s a h) s [] h₀ as

/-- **Invariant rule**, for the runs whose steps all meet `ok`. -/
theorem run_inv_of_steps (ok : σ → α → Prop) (P : σ → List ε → Prop)
    (hstep : ∀ s h a, ok s a → P s h → P (step s a).1 (h ++ (step s a).2)) (s : σ) (h₀ : P s [])
    (as : List α) (hok : ∀ as₁ a as₂, as = as₁ ++ a :: as₂ → ok (run step s as₁).1 a) :
    P (run step s as).1 (run step s as).2 := by
  induction as using List.reverseRecOn with
  | nil => exact h₀
  | append_singleton as a ih =>
    rw [run_snoc]
    refine hstep _ _ a (hok as a [] rfl) (ih fun as₁ b as₂ h => hok as₁ b (as₂ ++ [a]) ?_)
    rw [h, List.append_assoc, List.cons_append]

/-- Every step of a run from `s` meets `ok`. -/
def Along (step : σ → α → σ × List ε) (ok : σ → α → Prop) : σ → List α → Prop
  | _, [] => True
  | s, a :: as => ok s a ∧ Along step ok (step s a).1 as

instance Along.decidable (ok : σ → α → Prop) [∀ s a, Decidable (ok s a)] :
    (s : σ) → (as : List α) → Decidable (Along step ok s as)
  | _, [] => isTrue trivial
  | s, a :: as => @instDecidableAnd _ _ _ (Along.decidable ok (step s a).1 as)

theorem along_append {ok : σ → α → Prop} {s : σ} {as bs : List α} :
    Along step ok s (as ++ bs) ↔ Along step ok s as ∧ Along step ok (run step s as).1 bs := by
  induction as generalizing s with
  | nil => simp [Along, run]
  | cons a as ih => exact (and_congr_right fun _ => ih).trans and_assoc.symm

theorem Along.at_step {ok : σ → α → Prop} {s : σ} {as : List α} (h : Along step ok s as)
    (as₁ : List α)
    (a : α) (as₂ : List α) (heq : as = as₁ ++ a :: as₂) : ok (run step s as₁).1 a := by
  induction as₁ generalizing s as with
  | nil =>
    subst heq
    exact h.1
  | cons b as₁ ih =>
    subst heq
    exact ih h.2 rfl

theorem Along.congr {ok ok' : σ → α → Prop} (P : σ → Prop) (hstep : ∀ s a, P s → P (step s a).1)
    (hiff : ∀ s a, P s → (ok s a ↔ ok' s a)) {s : σ} (h₀ : P s) (as : List α) :
    Along step ok s as ↔ Along step ok' s as := by
  induction as generalizing s with
  | nil => exact Iff.rfl
  | cons a as ih => exact and_congr (hiff s a h₀) (ih (hstep s a h₀))

theorem append_eq_append_cons {h t pre post : List ε} {e : ε} (heq : h ++ t = pre ++ e :: post) :
    (∃ mid, h = pre ++ e :: mid ∧ post = mid ++ t) ∨ ∃ mid, t = mid ++ e :: post ∧
    pre = h ++ mid := by
  rcases List.append_eq_append_iff.mp heq with ⟨mid, hpre, ht⟩ | ⟨mid, hh, ht⟩
  · exact .inr ⟨mid, ht, hpre⟩
  · cases mid with
    | nil => exact .inr ⟨[], ht.symm, by rw [hh, List.append_nil, List.append_nil]⟩
    | cons x mid =>
      obtain ⟨rfl, hpost⟩ := List.cons.inj ht
      exact .inl ⟨mid, hh, hpost⟩

/-- **A position in the events of a run lies in one step.** -/
theorem exists_step_of_eq_append (s : σ) (as : List α) (pre post : List ε) (e : ε)
    (h : (run step s as).2 = pre ++ e :: post) :
    ∃ (as₁ : List α) (a : α) (as₂ : List α) (u v : List ε),
      as = as₁ ++ a :: as₂ ∧ (step (run step s as₁).1 a).2 = u ++ e :: v ∧
        pre = (run step s as₁).2 ++ u ∧
        post = v ++ (run step (step (run step s as₁).1 a).1 as₂).2 := by
  induction as generalizing s pre with
  | nil => simp at h
  | cons a as ih =>
    rw [run_cons] at h
    rcases append_eq_append_cons h with ⟨q, hp, hpost⟩ | ⟨p, hq, hp⟩
    · exact ⟨[], a, as, pre, q, rfl, hp, rfl, hpost⟩
    · -- the event lies in the rest of the run
      obtain ⟨as₁, b, as₂, u, v, rfl, hb, rfl, rfl⟩ := ih _ _ hq
      exact ⟨a :: as₁, b, as₂, u, v, rfl, hb, by rw [hp, run_cons, List.append_assoc], rfl⟩

end Machine
