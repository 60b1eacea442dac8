import Mathlib

/-!
# A stable sort whose comparison may fail

`sortBy` is a stable sort over a comparison in `Except`: the first failing comparison aborts the
sort. Where the comparison is that of a key in a linear order it never fails (`sortBy_eq_sortKey`),
and the result is `sortKey`, the stable sort by that key.

* `sortKey_perm`, `pairwise_sortKey`;
* **`map_sortKey_eq_of_perm`**: two orders of one list sort to the same sequence of keys;
* **`sortKey_eq_of_perm`**: and to the same list when no two elements share a key;
* **`filter_sortKey`**: sorting commutes with a filter.
-/

namespace StableSort

variable {α κ ε : Type}

/-- Insert before the first element that `a` does not exceed. -/
def insertBy (cmp : α → α → Except ε Ordering) (a : α) : List α → Except ε (List α)
  | [] => pure [a]
  | b :: l => do
    match ← cmp a b with
    | .gt => return b :: (← insertBy cmp a l)
    | _ => return a :: b :: l

/-- The stable sort by `cmp`. -/
def sortBy (cmp : α → α → Except ε Ordering) : List α → Except ε (List α)
  | [] => pure []
  | a :: l => do insertBy cmp a (← sortBy cmp l)

variable [LinearOrder κ]

/-- The stable sort by a key. -/
def sortKey (key : α → κ) (l : List α) : List α := l.insertionSort fun a b => key a ≤ key b

theorem sortKey_perm (key : α → κ) (l : List α) : (sortKey key l).Perm l :=
  List.perm_insertionSort _ l

theorem mem_sortKey {key : α → κ} {l : List α} {a : α} : a ∈ sortKey key l ↔ a ∈ l :=
  (sortKey_perm key l).mem_iff

theorem pairwise_sortKey (key : α → κ) (l : List α) :
    (sortKey key l).Pairwise fun a b => key a ≤ key b := by
  have : Std.Total fun a b : α => key a ≤ key b := ⟨fun a b => le_total (key a) (key b)⟩
  have : IsTrans α fun a b => key a ≤ key b := ⟨fun _ _ _ h h' => le_trans h h'⟩
  exact List.pairwise_insertionSort _ l

theorem insertBy_eq_orderedInsert {cmp : α → α → Except ε Ordering} {key : α → κ} (a : α)
    (l : List α) (h : ∀ b ∈ l, cmp a b = .ok (compare (key a) (key b))) :
    insertBy cmp a l = .ok (l.orderedInsert (fun a b => key a ≤ key b) a) := by
  induction l with
  | nil => rfl
  | cons b l ih =>
    have hb := h b List.mem_cons_self
    have ih := ih fun b' hb' => h b' (List.mem_cons_of_mem _ hb')
    unfold insertBy
    rw [hb, List.orderedInsert_cons]
    by_cases hab : key a ≤ key b
    · rw [if_pos hab]
      have hne : compare (key a) (key b) ≠ .gt := compare_le_iff_le.mpr hab
      cases hc : compare (key a) (key b)
      · rfl
      · rfl
      · exact absurd hc hne
    · rw [if_neg hab, compare_gt_iff_gt.mpr (lt_of_not_ge hab)]
      change (do return b :: (← insertBy cmp a l)) = _
      rw [ih]
      rfl

/-- **A comparison by key sorts by that key.** -/
theorem sortBy_eq_sortKey {cmp : α → α → Except ε Ordering} {key : α → κ} (l : List α)
    (h : ∀ a ∈ l, ∀ b ∈ l, cmp a b = .ok (compare (key a) (key b))) :
    sortBy cmp l = .ok (sortKey key l) := by
  induction l with
  | nil => rfl
  | cons a l ih =>
    have ih := ih fun b hb c hc => h b (List.mem_cons_of_mem _ hb) c (List.mem_cons_of_mem _ hc)
    unfold sortBy
    rw [ih]
    refine insertBy_eq_orderedInsert a _ fun b hb => ?_
    exact h a List.mem_cons_self b (List.mem_cons_of_mem _ (mem_sortKey.mp hb))

/-- **Two orders of one list sort to the same sequence of keys.** -/
theorem map_sortKey_eq_of_perm (key : α → κ) {l₁ l₂ : List α} (h : l₁.Perm l₂) :
    (sortKey key l₁).map key = (sortKey key l₂).map key := by
  have hperm : (sortKey key l₁).Perm (sortKey key l₂) :=
    (sortKey_perm key l₁).trans (h.trans (sortKey_perm key l₂).symm)
  have hs : ∀ l : List α, ((sortKey key l).map key).Pairwise (· ≤ ·) := fun l =>
    List.pairwise_map.mpr (pairwise_sortKey key l)
  exact (hperm.map key).eq_of_pairwise' (hs l₁) (hs l₂)

/-- **Two orders of one list sort to the same list when no two elements share a key.** -/
theorem sortKey_eq_of_perm (key : α → κ) {l₁ l₂ : List α} (h : l₁.Perm l₂)
    (hinj : ∀ a ∈ l₁, ∀ b ∈ l₁, key a = key b → a = b) : sortKey key l₁ = sortKey key l₂ := by
  have hperm : (sortKey key l₁).Perm (sortKey key l₂) :=
    (sortKey_perm key l₁).trans (h.trans (sortKey_perm key l₂).symm)
  refine hperm.eq_of_pairwise (fun a b ha hb hab hba => ?_) (pairwise_sortKey key l₁)
    (pairwise_sortKey key l₂)
  have ha := mem_sortKey.mp ha
  have hb := h.mem_iff.mpr (mem_sortKey.mp hb)
  exact hinj a ha b hb (le_antisymm hab hba)

theorem filter_orderedInsert (key : α → κ) (p : α → Bool) (a : α) {l : List α}
    (hl : l.Pairwise fun a b => key a ≤ key b) :
    (l.orderedInsert (fun a b => key a ≤ key b) a).filter p =
      if p a then (l.filter p).orderedInsert (fun a b => key a ≤ key b) a else l.filter p := by
  induction l with
  | nil => by_cases ha : p a = true <;> simp [ha]
  | cons b l ih =>
    obtain ⟨hb, hl⟩ := List.pairwise_cons.mp hl
    by_cases hab : key a ≤ key b
    · rw [List.orderedInsert_cons_of_le _ l hab]
      by_cases ha : p a = true
      · -- `a` comes first, before the filter and after it
        rw [if_pos ha, List.filter_cons_of_pos ha]
        cases hrest : (b :: l).filter p with
        | nil => rfl
        | cons c rest =>
          have hc : c ∈ (b :: l).filter p := by simp [hrest]
          have hac : key a ≤ key c := by
            obtain rfl | hc := List.mem_cons.mp (List.mem_filter.mp hc).1
            · exact hab
            · exact hab.trans (hb c hc)
          rw [List.orderedInsert_cons_of_le _ rest hac]
      · rw [if_neg ha, List.filter_cons_of_neg ha]
    · rw [List.orderedInsert_of_not_le (fun a b => key a ≤ key b) l hab, List.filter_cons, ih hl]
      by_cases ha : p a = true
      · by_cases hb : p b = true
        · simp [ha, hb, List.orderedInsert_of_not_le (fun a b => key a ≤ key b) _ hab]
        · simp [ha, hb]
      · simp [ha, List.filter_cons]

/-- **Sorting commutes with a filter**: the sort is stable. -/
theorem filter_sortKey (key : α → κ) (p : α → Bool) (l : List α) :
    (sortKey key l).filter p = sortKey key (l.filter p) := by
  induction l with
  | nil => rfl
  | cons a l ih =>
    have hinsert := filter_orderedInsert key p a (pairwise_sortKey key l)
    rw [ih] at hinsert
    by_cases ha : p a = true
    · rw [if_pos ha] at hinsert
      rw [List.filter_cons_of_pos ha]
      exact hinsert
    · rw [if_neg ha] at hinsert
      rw [List.filter_cons_of_neg ha]
      exact hinsert

theorem compare_toLex {β γ : Type} [LinearOrder β] [LinearOrder γ] (b b' : β) (c c' : γ) :
    compare (toLex (b, c)) (toLex (b', c')) = (compare b b').then (compare c c') := rfl

end StableSort
