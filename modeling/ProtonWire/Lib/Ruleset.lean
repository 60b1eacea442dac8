import Mathlib

/-!
# Rules over one register

A packet filter whose rules are sequences of expressions: an expression loads a field of the packet
into the register, compares or masks the register, counts, or ends the rule with a verdict. A field
that cannot be loaded and a comparison that fails end the rule without one. The first rule with a
verdict decides.

* `evalRule`, `decideAt`: a rule on a packet, and the rule of a list that decides;
* `countsRule`, `countedAt`: a rule that counts a packet, and the rules of a list that do;
* `evalRule_guard`: a load and its comparison are a guard;
* **`decideAt_permits`**: rules that permit, before a rule that drops.
-/

namespace Ruleset

/-- What a rule decides. -/
inductive Verdict where
  | accept
  | drop
  deriving DecidableEq

/-- An expression over the fields `φ`. -/
inductive Expr (φ : Type*) where
  | load (field : φ)
  | compare (bytes : List UInt8)
  | bitwise (mask xor : List UInt8)
  | counter
  | verdict (verdict : Verdict)
  deriving DecidableEq

/-- A rule. -/
abbrev Rule (φ : Type*) := List (Expr φ)

variable {φ π : Type*} (load : φ → π → Option (List UInt8)) (p : π)

/-- The verdict of a rule, from the content of the register. -/
def evalRule : List UInt8 → Rule φ → Option Verdict
  | _, [] => none
  | _, .load field :: rule =>
    match load field p with
    | some bytes => evalRule bytes rule
    | none => none
  | register, .compare bytes :: rule =>
    if register.take bytes.length = bytes then evalRule register rule else none
  | register, .bitwise mask xor :: rule =>
    evalRule (List.zipWith (· ^^^ ·) (List.zipWith (· &&& ·) register mask) xor) rule
  | register, .counter :: rule => evalRule register rule
  | _, .verdict verdict :: _ => some verdict

/-- The rule that decides, counted from `n`, and its verdict. -/
def decideAt : ℕ → List (Rule φ) → Option (ℕ × Verdict)
  | _, [] => none
  | n, rule :: rules =>
    match evalRule load p [] rule with
    | some verdict => some (n, verdict)
    | none => decideAt (n + 1) rules

/-- A rule counts a packet when it comes to a counter. -/
def countsRule : List UInt8 → Rule φ → Bool
  | _, [] => false
  | _, .load field :: rule =>
    match load field p with
    | some bytes => countsRule bytes rule
    | none => false
  | register, .compare bytes :: rule =>
    if register.take bytes.length = bytes then countsRule register rule else false
  | register, .bitwise mask xor :: rule =>
    countsRule (List.zipWith (· ^^^ ·) (List.zipWith (· &&& ·) register mask) xor) rule
  | _, .counter :: _ => true
  | _, .verdict _ :: _ => false

/-- The rules that count, counted from `n`: those up to the one that decides. -/
def countedAt : ℕ → List (Rule φ) → List ℕ
  | _, [] => []
  | n, rule :: rules =>
    let rest := if (evalRule load p [] rule).isSome then [] else countedAt (n + 1) rules
    if countsRule load p [] rule then n :: rest else rest

variable {load p}

theorem evalRule_guard {field : φ} {loaded : List UInt8} (hload : load field p = some loaded)
    (register bytes : List UInt8) (rule : Rule φ) :
    evalRule load p register (.load field :: .compare bytes :: rule) =
      if loaded.take bytes.length = bytes then evalRule load p loaded rule else none := by
  rw [evalRule, hload]
  rfl

theorem decideAt_append_of_none {rules : List (Rule φ)}
    (h : ∀ rule ∈ rules, evalRule load p [] rule = none) (n : ℕ) (rules' : List (Rule φ)) :
    decideAt load p n (rules ++ rules') = decideAt load p (n + rules.length) rules' := by
  induction rules generalizing n with
  | nil => rfl
  | cons rule rules ih =>
    rw [List.cons_append, decideAt, h rule List.mem_cons_self]
    dsimp only
    rw [ih (fun rule hmem => h rule (List.mem_cons_of_mem _ hmem)), List.length_cons]
    congr 1
    omega

theorem decideAt_accepts {rules : List (Rule φ)}
    (hdrop : ∀ rule ∈ rules, evalRule load p [] rule ≠ some .drop)
    (haccept : ∃ rule ∈ rules, evalRule load p [] rule = some .accept) (n : ℕ)
    (rules' : List (Rule φ)) :
    ∃ i, decideAt load p n (rules ++ rules') = some (i, .accept) := by
  induction rules generalizing n with
  | nil =>
    obtain ⟨rule, hmem, -⟩ := haccept
    cases hmem
  | cons rule rules ih =>
    rw [List.cons_append, decideAt]
    cases heval : evalRule load p [] rule with
    | none =>
      obtain ⟨rule', hmem, hrule'⟩ := haccept
      rcases List.mem_cons.mp hmem with rfl | hmem
      · rw [heval] at hrule'
        cases hrule'
      · exact ih (fun r hr => hdrop r (List.mem_cons_of_mem _ hr)) ⟨rule', hmem, hrule'⟩ (n + 1)
    | some verdict =>
      cases verdict with
      | accept => exact ⟨n, rfl⟩
      | drop => exact absurd heval (hdrop rule List.mem_cons_self)

/-- **Rules that permit, before a rule that drops**: a packet is accepted when one of them accepts
it, and else dropped by the last rule. -/
theorem decideAt_permits {permits : List (Rule φ)} {last : Rule φ}
    (hdrop : ∀ rule ∈ permits, evalRule load p [] rule ≠ some .drop)
    (hlast : evalRule load p [] last = some .drop) :
    ((∃ i, decideAt load p 0 (permits ++ [last]) = some (i, .accept)) ↔
        ∃ rule ∈ permits, evalRule load p [] rule = some .accept) ∧
      ((¬ ∃ rule ∈ permits, evalRule load p [] rule = some .accept) →
        decideAt load p 0 (permits ++ [last]) = some (permits.length, .drop)) := by
  have hnot : (¬ ∃ rule ∈ permits, evalRule load p [] rule = some .accept) →
      decideAt load p 0 (permits ++ [last]) = some (permits.length, .drop) := by
    intro hno
    have hnone : ∀ rule ∈ permits, evalRule load p [] rule = none := by
      intro rule hmem
      cases heval : evalRule load p [] rule with
      | none => rfl
      | some verdict =>
        cases verdict with
        | accept => exact absurd ⟨rule, hmem, heval⟩ hno
        | drop => exact absurd heval (hdrop rule hmem)
    rw [decideAt_append_of_none hnone, decideAt, hlast, Nat.zero_add]
  refine ⟨⟨fun ⟨i, hi⟩ => ?_, fun haccept => decideAt_accepts hdrop haccept 0 [last]⟩, hnot⟩
  by_contra hno
  rw [hnot hno] at hi
  cases hi

/-! ## Counters -/

theorem le_of_mem_countedAt {rules : List (Rule φ)} {n i : ℕ} (h : i ∈ countedAt load p n rules) :
    n ≤ i := by
  induction rules generalizing n with
  | nil => cases h
  | cons rule rules ih =>
    rw [countedAt] at h
    split_ifs at h
    · rw [List.mem_singleton.mp h]
    · rcases List.mem_cons.mp h with rfl | h
      · exact le_rfl
      · have := ih h
        omega
    · cases h
    · have := ih h
      omega

/-- A rule that every rule before it passes on to counts what it counts. -/
theorem mem_countedAt_of_none {rules : List (Rule φ)}
    (h : ∀ rule ∈ rules, evalRule load p [] rule = none) (n : ℕ)
    (rule : Rule φ) (rules' : List (Rule φ)) :
    n + rules.length ∈ countedAt load p n (rules ++ rule :: rules') ↔
    countsRule load p [] rule = true := by
  induction rules generalizing n with
  | nil =>
    -- the rules after it have higher numbers
    have hlater : n ∉ if (evalRule load p [] rule).isSome then []
      else countedAt load p (n + 1) rules' := by
      intro hmem
      split_ifs at hmem
      · cases hmem
      · have := le_of_mem_countedAt hmem
        omega
    rw [List.nil_append, List.length_nil, Nat.add_zero, countedAt]
    by_cases hcounts : countsRule load p [] rule = true
    · rw [if_pos hcounts]
      exact ⟨fun _ => hcounts, fun _ => List.mem_cons_self⟩
    · rw [if_neg hcounts]
      exact ⟨fun hmem => absurd hmem hlater, fun htrue => absurd htrue hcounts⟩
  | cons first rules ih =>
    have hstep := ih (fun rule hmem => h rule (List.mem_cons_of_mem _ hmem)) (n + 1)
    rw [show n + 1 + rules.length = n + (first :: rules).length by rw [List.length_cons]; omega]
      at hstep
    rw [← hstep, List.cons_append, countedAt, h first List.mem_cons_self, Option.isSome_none,
      if_neg Bool.false_ne_true]
    split_ifs
    · rw [List.mem_cons, or_iff_right (by rw [List.length_cons]; omega)]
    · rfl

theorem lt_of_mem_countedAt {rules : List (Rule φ)}
    (h : ∃ rule ∈ rules, evalRule load p [] rule ≠ none)
    {rules' : List (Rule φ)} {n i : ℕ} (hi : i ∈ countedAt load p n (rules ++ rules')) :
    i < n + rules.length := by
  induction rules generalizing n with
  | nil =>
    obtain ⟨rule, hmem, -⟩ := h
    cases hmem
  | cons first rules ih =>
    have hrest : ¬ (evalRule load p [] first).isSome = true → i ∈ countedAt load p (n + 1)
      (rules ++ rules') →
        i < n + (first :: rules).length := by
      intro hnone hi
      obtain ⟨rule, hmem, hdecides⟩ := h
      rcases List.mem_cons.mp hmem with rfl | hmem
      · exact absurd (Option.not_isSome_iff_eq_none.mp hnone) hdecides
      · have := ih ⟨rule, hmem, hdecides⟩ hi
        rw [List.length_cons]
        omega
    rw [List.cons_append, countedAt] at hi
    split_ifs at hi with hcounts hsome hsome
    · rw [List.mem_singleton.mp hi, List.length_cons]
      omega
    · rcases List.mem_cons.mp hi with rfl | hi
      · rw [List.length_cons]
        omega
      · exact hrest hsome hi
    · cases hi
    · exact hrest hsome hi

end Ruleset
