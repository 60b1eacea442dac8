import Mathlib.Data.List.Basic

/-!
# Terminated pieces

A list cut after every element that ends a piece: the pieces that are ended, and what follows the
last.

* `splitFrom`, `split`: the cut, from inside a piece and from its beginning; what it leaves as rest
  ends no piece;
* **`split_append`**: a list in two parts is cut by cutting the first, then what it left with the
  second;
* `pieces`: all the pieces, the unended one last.
-/

namespace Delimited

variable {α : Type*} (ends : α → Bool)

/-- The ended pieces and the rest, where the first piece begins with `read`. -/
def splitFrom (read : List α) : List α → List (List α) × List α
  | [] => ([], read)
  | a :: as =>
    if ends a then ((read ++ [a]) :: (splitFrom [] as).1, (splitFrom [] as).2)
    else splitFrom (read ++ [a]) as

/-- The ended pieces and the rest. -/
def split (as : List α) : List (List α) × List α := splitFrom ends [] as

/-- All the pieces. -/
def pieces (as : List α) : List (List α) :=
  (split ends as).1 ++ if (split ends as).2 = [] then [] else [(split ends as).2]

variable {ends}

theorem splitFrom_of_ends {a : α} (h : ends a = true) (read as : List α) :
    splitFrom ends read (a :: as) = ((read ++ [a]) :: (split ends as).1,
      (split ends as).2) := if_pos h

theorem splitFrom_append_of_not_ends {as : List α} (h : ∀ a ∈ as, ends a = false)
    (read bs : List α) :
    splitFrom ends read (as ++ bs) = splitFrom ends (read ++ as) bs := by
  induction as generalizing read with
  | nil => rw [List.nil_append, List.append_nil]
  | cons a as ih =>
    have hread := ih (fun b hb => h b (List.mem_cons_of_mem a hb)) (read ++ [a])
    rw [List.append_assoc, List.singleton_append] at hread
    rw [List.cons_append, splitFrom, if_neg (by simp [h a List.mem_cons_self])]
    exact hread

theorem split_of_not_ends {as : List α} (h : ∀ a ∈ as, ends a = false) :
    split ends as = ([], as) := by
  have hread := splitFrom_append_of_not_ends h [] []
  rwa [List.append_nil] at hread

theorem not_ends_of_mem_rest {read : List α} (hread : ∀ a ∈ read, ends a = false) {as : List α} :
    ∀ a ∈ (splitFrom ends read as).2, ends a = false := by
  induction as generalizing read with
  | nil => exact hread
  | cons a as ih =>
    by_cases ha : ends a = true
    · rw [splitFrom_of_ends ha]
      exact ih (by simp)
    · rw [splitFrom, if_neg ha]
      refine ih fun b hb => ?_
      rcases List.mem_append.mp hb with hb | hb
      · exact hread b hb
      · rw [List.mem_singleton.mp hb]
        simpa using ha

theorem splitFrom_append (read as bs : List α) :
    splitFrom ends read (as ++ bs) =
      ((splitFrom ends read as).1 ++ (splitFrom ends (splitFrom ends read as).2 bs).1,
        (splitFrom ends (splitFrom ends read as).2 bs).2) := by
  induction as generalizing read with
  | nil => rfl
  | cons a as ih =>
    rw [List.cons_append]
    by_cases ha : ends a = true
    · rw [splitFrom_of_ends ha, splitFrom_of_ends ha, split, ih]
      rfl
    · rw [splitFrom, splitFrom, if_neg ha, if_neg ha, ih]

/-- **Cutting in two parts.** -/
theorem split_append (as bs : List α) :
    split ends (as ++ bs) =
      ((split ends as).1 ++ (split ends ((split ends as).2 ++ bs)).1,
       (split ends ((split ends as).2 ++ bs)).2) := by
  have hrest : ∀ a ∈ (split ends as).2, ends a = false := not_ends_of_mem_rest (by simp)
  have hread : split ends ((split ends as).2 ++ bs) = splitFrom ends (split ends as).2 bs :=
    splitFrom_append_of_not_ends hrest [] bs
  rw [hread]
  exact splitFrom_append [] as bs

/-- The first piece goes up to the first element that ends one. -/
theorem split_of_findIdx? {as : List α} {pos : ℕ} (h : as.findIdx? ends = some pos) :
    split ends as = (as.take (pos + 1) :: (split ends (as.drop (pos + 1))).1,
      (split ends (as.drop (pos + 1))).2) := by
  obtain ⟨hlt, hends, hbefore⟩ := List.findIdx?_eq_some_iff_getElem.mp h
  have hinit : ∀ a ∈ as.take pos, ends a = false := by
    intro a ha
    obtain ⟨i, hi, rfl⟩ := List.mem_take_iff_getElem.mp ha
    simpa using hbefore i (by omega)
  have hcut : as = as.take pos ++ (as[pos] :: as.drop (pos + 1)) := by
    rw [List.getElem_cons_drop, List.take_append_drop]
  have htake : as.take (pos + 1) = as.take pos ++ [as[pos]] := List.take_succ_eq_append_getElem hlt
  conv_lhs => rw [hcut]
  rw [split, splitFrom_append_of_not_ends hinit, List.nil_append, splitFrom_of_ends hends, htake]

end Delimited
