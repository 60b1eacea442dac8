import Mathlib

/-!
# Shuffles

The Fisher–Yates shuffle, in place over any source of bounded draws. Every swap is bounds-checked,
as the slice operation it models: a swap outside the slice is an error. And the lists in which the
elements of each key stand together.

* `shuffle`; **`shuffle_ok`**: with draws below their bound it never fails and permutes its input;
* `Contiguous`: no element of another key stands between two of one key;
* **`contiguous_append`**: a block of one key before a list without it.
-/

namespace FisherYates

variable {α ε ρ : Type}

/-- Swap two places; `outside` is the error of an index outside the slice. -/
def swapAt (outside : ε) (items : Array α) (i j : ℕ) : Except ε (Array α) :=
  if h : i < items.size ∧ j < items.size then .ok (items.swap i j h.1 h.2) else .error outside

/-- The loop from index `i` down to `1`. -/
def loop (outside : ε) (below : ρ → ℕ → ℕ × ρ) : ℕ → Array α → ρ → Except ε (Array α × ρ)
  | 0, items, rng => .ok (items, rng)
  | i + 1, items, rng =>
    match swapAt outside items (i + 1) (below rng (i + 2)).1 with
    | .error error => .error error
    | .ok items => loop outside below i items (below rng (i + 2)).2

/-- The shuffle. -/
def shuffle (outside : ε) (below : ρ → ℕ → ℕ × ρ) (items : Array α) (rng : ρ) :
    Except ε (Array α × ρ) :=
  loop outside below (items.size - 1) items rng

variable {outside : ε} {below : ρ → ℕ → ℕ × ρ}

theorem swapAt_ok (outside : ε) {items : Array α} {i j : ℕ} (hi : i < items.size)
    (hj : j < items.size) :
    ∃ items', swapAt outside items i j = .ok items' ∧ items'.Perm items :=
  ⟨items.swap i j hi hj, dif_pos ⟨hi, hj⟩, Array.swap_perm hi hj⟩

theorem loop_ok (hbelow : ∀ rng n, 0 < n → (below rng n).1 < n) (i : ℕ) (items : Array α) (rng : ρ)
    (hi : i < items.size ∨ i = 0) :
    ∃ items' rng', loop outside below i items rng = .ok (items', rng') ∧ items'.Perm items := by
  induction i generalizing items rng with
  | zero => exact ⟨items, rng, rfl, .refl _⟩
  | succ i ih =>
    have hsize : i + 1 < items.size := by omega
    have hdraw : (below rng (i + 2)).1 < items.size := by
      have := hbelow rng (i + 2) (by omega)
      omega
    obtain ⟨items₁, hswap, hperm₁⟩ := swapAt_ok outside hsize hdraw
    have hsize₁ : items₁.size = items.size := hperm₁.size_eq
    obtain ⟨items', rng', hloop, hperm⟩ := ih items₁ (below rng (i + 2)).2 (by omega)
    refine ⟨items', rng', ?_, hperm.trans hperm₁⟩
    rw [loop, hswap]
    exact hloop

/-- **The shuffle never leaves the slice and permutes it.** -/
theorem shuffle_ok (hbelow : ∀ rng n, 0 < n → (below rng n).1 < n) (items : Array α) (rng : ρ) :
    ∃ items' rng', shuffle outside below items rng = .ok (items', rng') ∧ items'.Perm items :=
  loop_ok hbelow _ items rng (by omega)

end FisherYates

/-! ## Blocks -/

namespace Blocks

variable {α κ : Type*}

/-- No element of another key stands between two of one key. -/
def Contiguous (key : α → κ) (l : List α) : Prop :=
  ∀ a b c, [a, b, c].Sublist l → key a = key c → key b = key a

theorem contiguous_nil (key : α → κ) : Contiguous key [] := fun a b c h => by cases h

/-- **A block** before a list that has none of its key. -/
theorem contiguous_append {key : α → κ} {k : κ} {block rest : List α}
    (hblock : ∀ a ∈ block, key a = k)
    (hrest : ∀ a ∈ rest, key a ≠ k) (h : Contiguous key rest) : Contiguous key (block ++ rest) := by
  intro a b c hsub hac
  obtain ⟨l₁, l₂, heq, h₁, h₂⟩ := List.sublist_append_iff.mp hsub
  match l₁, heq with
  | [], heq =>
    rw [List.nil_append] at heq
    exact h a b c (heq ▸ h₂) hac
  | [x], heq =>
    -- the outer two lie in different blocks
    obtain ⟨rfl, rfl⟩ := List.cons.inj heq
    have ha := hblock a (h₁.subset (by simp))
    exact absurd (hac ▸ ha) (hrest c (h₂.subset (by simp)))
  | x :: y :: l₁, heq =>
    simp only [List.cons_append, List.cons.injEq] at heq
    rw [heq.1, heq.2.1, hblock x (h₁.subset (by simp)), hblock y (h₁.subset (by simp))]

end Blocks
