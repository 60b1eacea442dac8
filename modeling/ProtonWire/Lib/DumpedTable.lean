import Mathlib

/-!
# Objects behind a dump

A holder keeps a multiset of objects. It lists them in a dump, and answers a message by what it
then holds or by refusing it. Any exchange may fail, a dump after any of its objects. What the
holder does with a message is a parameter (`Answers`), and `Lawful` is what is known of it.

* `addOnce`, `deleteUpTo`: add an object that no dump shows, delete the objects that a dump shows;
* `deleteUpTo_length`: what a deletion leaves;
* **`keeps_addOnce_iff`, `keeps_deleteUpTo_iff`**: when such a step says exactly whether it changed
  the table, and its inverse restores what it changed;
* `count_deleteUpTo`: what a deletion leaves alone.
-/

namespace DumpedTable

variable {μ : Type}

/-- What is held, in the order of a dump, and what becomes of the next exchanges: a `some n`
fails, a dump after `n` objects. -/
structure Table (μ : Type) where
  held : List μ
  fates : List (Option ℕ)

/-- What is held after a message, or a refusal. -/
structure Answers (μ : Type) where
  add : List μ → μ → Option (List μ)
  del : List μ → μ → Option (List μ)

/-- An accepted add puts in one object, the stored form of what was sent; an accepted delete
takes out one object that agrees with what was sent. -/
structure Answers.Lawful [DecidableEq μ] (A : Answers μ) (stored : μ → μ)
    (agrees : μ → μ → Prop) : Prop where
  add : ∀ l sent l', A.add l sent = some l' → l'.Perm (stored sent :: l)
  del : ∀ l sent l', A.del l sent = some l' → ∃ o ∈ l, agrees sent o ∧ l'.Perm (l.erase o)

namespace Table

/-- The next exchange's fate. -/
def fate (t : Table μ) : Option ℕ := t.fates.headD none

/-- After one exchange. -/
def exchanged (t : Table μ) : Table μ := { t with fates := t.fates.tail }

/-- A dump, as the stream of its objects. -/
def dump (t : Table μ) : List (Except String μ) :=
  match t.fate with
  | none => t.held.map .ok
  | some n => (t.held.take n).map .ok ++ [.error "netlink error"]

/-- A message and its answer. -/
def send (label : String) (answer : Option (List μ)) (t : Table μ) :
    Except String Unit × Table μ :=
  match t.fate, answer with
  | none, some held => (.ok (), ⟨held, t.fates.tail⟩)
  | none, none => (.error (label ++ "refused"), t.exchanged)
  | some _, _ => (.error (label ++ "netlink error"), t.exchanged)

/-- A search of the dump meets the failure before an object it accepts. -/
def dumpFails (accepts : μ → Bool) (t : Table μ) : Bool :=
  match t.fate with
  | none => false
  | some n => !(t.held.take n).any accepts

end Table

/-! ## Steps -/

/-- The first accepted object of a stream. -/
def findIn (label : String) (accepts : μ → Bool) : List (Except String μ) → Except String (Option μ)
  | [] => .ok none
  | .error error :: _ => .error (label ++ error)
  | .ok o :: rest => if accepts o then .ok (some o) else findIn label accepts rest

/-- The search of a dump. -/
def find (label : String) (accepts : μ → Bool) (t : Table μ) : Except String (Option μ) × Table μ :=
  (findIn label accepts t.dump, t.exchanged)

variable (A : Answers μ) (accepts : μ → Bool)

/-- Add an object where no dumped one is accepted. -/
def addOnce (dumpLabel addLabel : String) (sent : μ) (t : Table μ) : Except String Bool × Table μ :=
  match find dumpLabel accepts t with
  | (.error error, t) => (.error error, t)
  | (.ok (some _), t) => (.ok false, t)
  | (.ok none, t) =>
    match t.send addLabel (A.add t.held sent) with
    | (.error error, t) => (.error error, t)
    | (.ok (), t) => (.ok true, t)

/-- Find and delete, up to a bound; a dumped object is deleted by its own message. -/
def deleteUpTo (dumpLabel delLabel : String) : ℕ → Bool → Table μ → Except String Bool × Table μ
  | 0, mutated, t => (.ok mutated, t)
  | n + 1, mutated, t =>
    match find dumpLabel accepts t with
    | (.error error, t) => (.error error, t)
    | (.ok none, t) => (.ok mutated, t)
    | (.ok (some o), t) =>
      match t.send delLabel (A.del t.held o) with
      | (.error error, t) => (.error error, t)
      | (.ok (), t) => deleteUpTo dumpLabel delLabel n true t

/-! ## A search -/

section Search

variable {accepts} {label : String} {t : Table μ}

theorem findIn_append (l : List μ) (rest : List (Except String μ)) :
    findIn label accepts (l.map .ok ++ rest) =
      match l.find? accepts with
      | some o => .ok (some o)
      | none => findIn label accepts rest := by
  induction l with
  | nil => rfl
  | cons o l ih =>
    rw [List.map_cons, List.cons_append, findIn, List.find?_cons]
    cases accepts o with
    | true => rfl
    | false => exact ih

theorem find_fails (h : t.dumpFails accepts = true) :
    find label accepts t = (.error (label ++ "netlink error"), t.exchanged) := by
  unfold Table.dumpFails at h
  unfold find Table.dump
  split at h
  · cases h
  · next n hfate =>
    rw [Bool.not_eq_true'] at h
    have hnone : (t.held.take n).find? accepts = none :=
      List.find?_eq_none.mpr (List.any_eq_false.mp h)
    rw [findIn_append, hnone]
    rfl

/-- **A search that meets no failure finds the first accepted object.** -/
theorem find_ok (h : t.dumpFails accepts = false) :
    find label accepts t = (.ok (t.held.find? accepts), t.exchanged) := by
  unfold Table.dumpFails at h
  unfold find Table.dump
  split at h
  · have happend : findIn label accepts (t.held.map .ok ++ []) = _ := findIn_append t.held []
    rw [List.append_nil] at happend
    rw [happend]
    cases t.held.find? accepts <;> rfl
  · next n hfate =>
    rw [Bool.not_eq_false'] at h
    obtain ⟨o, hmem, haccepts⟩ := List.any_eq_true.mp h
    have hsome : ((t.held.take n).find? accepts).isSome := List.find?_isSome.mpr ⟨o, hmem, haccepts⟩
    obtain ⟨first, hfirst⟩ := Option.isSome_iff_exists.mp hsome
    have hall : t.held.find? accepts = some first := by
      rw [← List.take_append_drop n t.held, List.find?_append, hfirst]
      rfl
    rw [findIn_append, hfirst, hall]

theorem dumpFails_of_none (hnone : t.held.find? accepts = none) :
    t.dumpFails accepts = t.fate.isSome := by
  unfold Table.dumpFails
  cases t.fate with
  | none => rfl
  | some n =>
    have hany : (t.held.take n).any accepts = false := List.any_eq_false.mpr fun o ho =>
      List.find?_eq_none.mp hnone o (List.mem_of_mem_take ho)
    simp only [hany, Bool.not_false, Option.isSome_some]

theorem dumpFails_fateless (accepts : μ → Bool) (h : t.fate = none) :
    t.dumpFails accepts = false := by
  unfold Table.dumpFails
  rw [h]

theorem fate_nil (l : List μ) : Table.fate ⟨l, []⟩ = none ∧ (Table.exchanged ⟨l, []⟩).fate = none :=
  ⟨rfl, rfl⟩

end Search

/-! ## What a step does -/

section Steps

variable {A accepts} {dumpLabel addLabel delLabel : String} {sent : μ} {t : Table μ}

theorem addOnce_cases (A : Answers μ) (accepts : μ → Bool) (dumpLabel addLabel : String) (sent : μ)
    (t : Table μ) :
    ((∃ error, (addOnce A accepts dumpLabel addLabel sent t).1 = .error error) ∧
        (addOnce A accepts dumpLabel addLabel sent t).2.held = t.held ∧
        (t.fate ≠ none ∨ t.exchanged.fate ≠ none ∨ A.add t.held sent = none)) ∨
      (∃ o ∈ t.held, accepts o = true ∧
        addOnce A accepts dumpLabel addLabel sent t = (.ok false, t.exchanged)) ∨
      t.held.find? accepts = none ∧ t.fate = none ∧ t.exchanged.fate = none ∧
        ∃ held, A.add t.held sent = some held ∧
          addOnce A accepts dumpLabel addLabel sent t =
            (.ok true, ⟨held, t.fates.tail.tail⟩) := by
  unfold addOnce
  cases hdump : t.dumpFails accepts with
  | true =>
    rw [find_fails hdump]
    refine Or.inl ⟨⟨_, rfl⟩, rfl, Or.inl fun hfate => ?_⟩
    rw [dumpFails_fateless accepts hfate] at hdump
    cases hdump
  | false =>
    rw [find_ok hdump]
    cases hfind : t.held.find? accepts with
    | some o =>
      exact Or.inr (Or.inl ⟨o, List.mem_of_find?_eq_some hfind, List.find?_some hfind, rfl⟩)
    | none =>
      rw [dumpFails_of_none hfind] at hdump
      have hfate : t.fate = none := by
        cases hfate : t.fate with
        | none => rfl
        | some n =>
          rw [hfate] at hdump
          cases hdump
      have hheld : t.exchanged.held = t.held := rfl
      dsimp only
      unfold Table.send
      rw [hheld]
      cases hnext : t.exchanged.fate with
      | some n => exact Or.inl ⟨⟨_, rfl⟩, rfl, Or.inr (Or.inl nofun)⟩
      | none =>
        cases hadd : A.add t.held sent with
        | none => exact Or.inl ⟨⟨_, rfl⟩, rfl, Or.inr (Or.inr rfl)⟩
        | some held => exact Or.inr (Or.inr ⟨rfl, hfate, rfl, held, rfl, rfl⟩)

theorem deleteUpTo_cases (A : Answers μ) (accepts : μ → Bool) (dumpLabel delLabel : String)
    (n : ℕ) (mutated : Bool) (t : Table μ) :
    ((∃ error, (deleteUpTo A accepts dumpLabel delLabel (n + 1) mutated t).1 = .error error) ∧
        (deleteUpTo A accepts dumpLabel delLabel (n + 1) mutated t).2.held = t.held ∧
        (t.dumpFails accepts = true ∨
          ∃ o, t.held.find? accepts = some o ∧ (t.exchanged.fate ≠ none ∨ A.del t.held o = none))) ∨
      (t.held.find? accepts = none ∧
        deleteUpTo A accepts dumpLabel delLabel (n + 1) mutated t = (.ok mutated, t.exchanged)) ∨
      t.dumpFails accepts = false ∧ t.exchanged.fate = none ∧
        ∃ o held, t.held.find? accepts = some o ∧ A.del t.held o = some held ∧
          deleteUpTo A accepts dumpLabel delLabel (n + 1) mutated t =
            deleteUpTo A accepts dumpLabel delLabel n true ⟨held, t.fates.tail.tail⟩ := by
  rw [deleteUpTo]
  cases hdump : t.dumpFails accepts with
  | true =>
    rw [find_fails hdump]
    exact Or.inl ⟨⟨_, rfl⟩, rfl, Or.inl rfl⟩
  | false =>
    rw [find_ok hdump]
    cases hfind : t.held.find? accepts with
    | none => exact Or.inr (Or.inl ⟨rfl, rfl⟩)
    | some o =>
      have hheld : t.exchanged.held = t.held := rfl
      dsimp only
      unfold Table.send
      rw [hheld]
      cases hnext : t.exchanged.fate with
      | some n => exact Or.inl ⟨⟨_, rfl⟩, rfl, Or.inr ⟨o, rfl, Or.inl nofun⟩⟩
      | none =>
        cases hdel : A.del t.held o with
        | none => exact Or.inl ⟨⟨_, rfl⟩, rfl, Or.inr ⟨o, rfl, Or.inr hdel⟩⟩
        | some held => exact Or.inr (Or.inr ⟨rfl, rfl, o, held, rfl, hdel, rfl⟩)

variable [DecidableEq μ] {stored : μ → μ} {agrees : μ → μ → Prop}

theorem length_add (hA : A.Lawful stored agrees) {l l' : List μ} (h : A.add l sent = some l') :
    l'.length = l.length + 1 := (hA.add l sent l' h).length_eq

theorem length_del (hA : A.Lawful stored agrees) {l l' : List μ} (h : A.del l sent = some l') :
    l'.length + 1 = l.length := by
  obtain ⟨o, hmem, -, hperm⟩ := hA.del l sent l' h
  have hpos := List.length_pos_of_mem hmem
  rw [hperm.length_eq, List.length_erase_of_mem hmem]
  omega

/-- **What a deletion leaves**: so many objects fewer, and it says whether there are fewer. -/
theorem deleteUpTo_length (hA : A.Lawful stored agrees) (accepts : μ → Bool)
    (dumpLabel delLabel : String) (n : ℕ) (mutated : Bool) (t : Table μ) :
    ∃ d, (deleteUpTo A accepts dumpLabel delLabel n mutated t).2.held.length + d = t.held.length ∧
      (d = 0 → (deleteUpTo A accepts dumpLabel delLabel n mutated t).2.held = t.held) ∧
      ∀ flag, (deleteUpTo A accepts dumpLabel delLabel n mutated t).1 = .ok flag →
        flag = (mutated || decide (0 < d)) := by
  induction n generalizing mutated t with
  | zero =>
    refine ⟨0, rfl, fun _ => rfl, fun flag hflag => ?_⟩
    cases hflag
    simp
  | succ n ih =>
    rcases deleteUpTo_cases A accepts dumpLabel delLabel n mutated t with
      ⟨⟨error, herror⟩, hheld, -⟩ | ⟨-, hstep⟩ | ⟨-, -, o, held, -, hdel, hstep⟩
    · refine ⟨0, by rw [hheld]; rfl, fun _ => hheld, fun flag hflag => ?_⟩
      cases herror.symm.trans hflag
    · rw [hstep]
      refine ⟨0, rfl, fun _ => rfl, fun flag hflag => ?_⟩
      cases hflag
      simp
    · rw [hstep]
      obtain ⟨d, hlen, -, hok⟩ := ih true ⟨held, t.fates.tail.tail⟩
      have hone := length_del hA hdel
      dsimp only at hlen
      refine ⟨d + 1, by omega, fun h => by omega, fun flag hflag => ?_⟩
      rw [hok flag hflag]
      simp

end Steps

/-! ## The contract of a step and its inverse -/

/-- The flag of a step says whether it changed the table, a failed step leaves it, and the inverse
restores what was changed: whenever it succeeds, and where no exchange of it fails. -/
structure Keeps (step inverse : Table μ → Except String Bool × Table μ) (t : Table μ) : Prop where
  flag : ∀ flag, (step t).1 = .ok flag → (flag = true ↔ ¬ t.held.Perm (step t).2.held)
  error : ∀ error, (step t).1 = .error error → t.held.Perm (step t).2.held
  restores : (step t).1 = .ok true → ∀ fates flag, (inverse ⟨(step t).2.held, fates⟩).1 = .ok flag →
    t.held.Perm (inverse ⟨(step t).2.held, fates⟩).2.held
  undisturbed : (step t).1 = .ok true → t.held.Perm (inverse ⟨(step t).2.held, []⟩).2.held

section Keeps

variable {step inverse : Table μ → Except String Bool × Table μ} {t : Table μ}

theorem keeps_of_quiet (hres : (step t).1 ≠ .ok true) (hheld : (step t).2.held = t.held) :
    Keeps step inverse t where
  flag flag hflag := by
    refine ⟨fun htrue => ?_, fun hne => absurd (List.Perm.of_eq hheld.symm) hne⟩
    rw [htrue] at hflag
    exact absurd hflag hres
  error _ _ := .of_eq hheld.symm
  restores htrue := absurd htrue hres
  undisturbed htrue := absurd htrue hres

theorem keeps_of_changed {held : List μ} {fates : List (Option ℕ)}
    (hstep : step t = (.ok true, ⟨held, fates⟩)) (hchanged : held.length ≠ t.held.length)
    (hrestores : ∀ fates flag, (inverse ⟨held, fates⟩).1 = .ok flag →
      t.held.Perm (inverse ⟨held, fates⟩).2.held)
    (hok : ∃ flag, (inverse ⟨held, []⟩).1 = .ok flag) : Keeps step inverse t where
  flag flag hflag := by
    rw [hstep] at hflag ⊢
    cases hflag
    exact ⟨fun _ hperm => hchanged hperm.length_eq.symm, fun _ => rfl⟩
  error error herror := by
    rw [hstep] at herror
    cases herror
  restores _ := by
    rw [hstep]
    exact hrestores
  undisturbed _ := by
    rw [hstep]
    obtain ⟨flag, hflag⟩ := hok
    exact hrestores [] flag hflag

end Keeps

variable {dumpLabel addLabel delLabel : String} {sent : μ} {t : Table μ}

/-- An add that finds an object, meets a failure or is refused; or else the object it puts in is
accepted, and its deletion takes out that object. -/
def AddUndone (stored : μ → μ) (sent : μ) (t : Table μ) : Prop :=
  (∃ o ∈ t.held, accepts o = true) ∨ t.fate ≠ none ∨ t.exchanged.fate ≠ none ∨
    ∀ held, A.add t.held sent = some held → accepts (stored sent) = true ∧
      ∃ rest, A.del held (stored sent) = some rest ∧ rest.Perm t.held

/-- A deletion that finds nothing, or whose first dump or first message fails or is refused; or
else no accepted object is left after the first one, a loop's second dump goes through, and the
add puts back what was taken out. -/
def DeleteUndone (n : ℕ) (sent : μ) (t : Table μ) : Prop :=
  (∀ o ∈ t.held, accepts o = false) ∨ t.dumpFails accepts = true ∨ t.exchanged.fate ≠ none ∨
    ∃ o, t.held.find? accepts = some o ∧ ∀ rest, A.del t.held o = some rest →
      (∀ o ∈ rest, accepts o = false) ∧ (n = 0 ∨ t.exchanged.exchanged.fate = none) ∧
        ∃ held, A.add rest sent = some held ∧ held.Perm t.held

variable {A accepts}

theorem find?_of_perm_cons {l l' : List μ} {o : μ} (hperm : l'.Perm (o :: l))
    (hnone : l.find? accepts = none) (ho : accepts o = true) : l'.find? accepts = some o := by
  have hsome : (l'.find? accepts).isSome :=
    List.find?_isSome.mpr ⟨o, hperm.mem_iff.mpr List.mem_cons_self, ho⟩
  obtain ⟨first, hfirst⟩ := Option.isSome_iff_exists.mp hsome
  rcases List.mem_cons.mp (hperm.mem_iff.mp (List.mem_of_find?_eq_some hfirst)) with rfl | hmem
  · exact hfirst
  · exact absurd (List.find?_some hfirst) (List.find?_eq_none.mp hnone first hmem)

theorem find?_none_of_perm {l l' : List μ} (hperm : l'.Perm l) (hnone : l.find? accepts = none) :
    l'.find? accepts = none :=
  List.find?_eq_none.mpr fun o ho => List.find?_eq_none.mp hnone o (hperm.mem_iff.mp ho)

theorem deleteUpTo_of_none {l : List μ} (n : ℕ) (mutated : Bool) (fates : List (Option ℕ))
    (hnone : l.find? accepts = none) :
    (deleteUpTo A accepts dumpLabel delLabel n mutated ⟨l, fates⟩).2.held = l ∧
      (n = 0 ∨ Table.fate ⟨l, fates⟩ = none →
        (deleteUpTo A accepts dumpLabel delLabel n mutated ⟨l, fates⟩).1 = .ok mutated) := by
  cases n with
  | zero => exact ⟨rfl, fun _ => rfl⟩
  | succ n =>
    rcases deleteUpTo_cases A accepts dumpLabel delLabel n mutated ⟨l, fates⟩ with
      ⟨-, hheld, hfail⟩ | ⟨-, hstep⟩ | ⟨-, -, o, held, hfind, -⟩
    · refine ⟨hheld, fun hfate => ?_⟩
      rcases hfail with hfail | ⟨o, hfind, -⟩
      · have hfate : Table.fate ⟨l, fates⟩ = none := hfate.resolve_left (Nat.succ_ne_zero n)
        cases (dumpFails_fateless accepts hfate).symm.trans hfail
      · cases hnone.symm.trans hfind
    · rw [hstep]
      exact ⟨rfl, fun _ => rfl⟩
    · cases hnone.symm.trans hfind

variable [DecidableEq μ] {stored : μ → μ} {agrees : μ → μ → Prop}

/-- **When an add keeps the contract** with a deletion as its inverse. -/
theorem keeps_addOnce_iff (hA : A.Lawful stored agrees) (n : ℕ) :
    Keeps (addOnce A accepts dumpLabel addLabel sent)
        (deleteUpTo A accepts dumpLabel delLabel (n + 1) false) t ↔
      AddUndone A accepts stored sent t := by
  rcases addOnce_cases A accepts dumpLabel addLabel sent t with
    ⟨⟨error, herror⟩, hheld, hfail⟩ | ⟨o, ho, haccepts, hstep⟩ |
      ⟨hnone, hfate, hfate', held, hadd, hstep⟩
  · refine iff_of_true (keeps_of_quiet (by rw [herror]; exact nofun) hheld) ?_
    rcases hfail with h | h | h
    · exact Or.inr (Or.inl h)
    · exact Or.inr (Or.inr (Or.inl h))
    · refine Or.inr (Or.inr (Or.inr fun held hadd => ?_))
      cases h.symm.trans hadd
  · exact iff_of_true (keeps_of_quiet (by rw [hstep]; exact nofun) (by rw [hstep]; rfl))
      (Or.inl ⟨o, ho, haccepts⟩)
  · have hperm := hA.add _ _ _ hadd
    have hlen := length_add hA hadd
    constructor
    · -- the inverse where nothing fails
      intro hkeeps
      refine Or.inr (Or.inr (Or.inr fun held₁ hadd₁ => ?_))
      cases hadd.symm.trans hadd₁
      have hback := hkeeps.undisturbed (by rw [hstep])
      rw [hstep] at hback
      have haccepts : accepts (stored sent) = true := by
        by_contra hrefused
        have hlost : held.find? accepts = none := by
          refine find?_none_of_perm hperm ?_
          rw [List.find?_cons_of_neg hrefused]
          exact hnone
        rw [(deleteUpTo_of_none (n + 1) false [] hlost).1] at hback
        have := hback.length_eq
        omega
      have hfirst := find?_of_perm_cons hperm hnone haccepts
      refine ⟨haccepts, ?_⟩
      rcases deleteUpTo_cases A accepts dumpLabel delLabel n false ⟨held, []⟩ with
        ⟨-, hheld, -⟩ | ⟨hlost, -⟩ | ⟨-, -, o, rest, hfind, hdel, hturn⟩
      · rw [hheld] at hback
        have := hback.length_eq
        dsimp only at this
        omega
      · cases hfirst.symm.trans hlost
      · cases hfirst.symm.trans hfind
        rw [hturn] at hback
        obtain ⟨d, hd, hsame, -⟩ := deleteUpTo_length hA accepts dumpLabel delLabel n true
          ⟨rest, []⟩
        have hone := length_del hA hdel
        dsimp only [List.tail_nil] at hback hd hone
        have hback' := hback.length_eq
        rw [hsame (by omega)] at hback
        exact ⟨rest, hdel, hback.symm⟩
    · intro hundone
      obtain ⟨haccepts, rest, hdel, hrest⟩ : accepts (stored sent) = true ∧
          ∃ rest, A.del held (stored sent) = some rest ∧ rest.Perm t.held := by
        rcases hundone with ⟨o, ho, h⟩ | h | h | h
        · exact absurd h (List.find?_eq_none.mp hnone o ho)
        · exact absurd hfate h
        · exact absurd hfate' h
        · exact h held hadd
      have hfirst := find?_of_perm_cons hperm hnone haccepts
      have hlost := find?_none_of_perm hrest hnone
      refine keeps_of_changed hstep (by omega) (fun fates flag hflag => ?_) ?_
      · rcases deleteUpTo_cases A accepts dumpLabel delLabel n false ⟨held, fates⟩ with
          ⟨⟨error, herror⟩, -⟩ | ⟨hgone, -⟩ | ⟨-, -, o, rest', hfind, hdel', hturn⟩
        · cases herror.symm.trans hflag
        · cases hfirst.symm.trans hgone
        · cases hfirst.symm.trans hfind
          cases hdel.symm.trans hdel'
          rw [hturn, (deleteUpTo_of_none n true _ hlost).1]
          exact hrest.symm
      · rcases deleteUpTo_cases A accepts dumpLabel delLabel n false ⟨held, []⟩ with
          ⟨-, -, h | ⟨o, hfind, h | h⟩⟩ | ⟨hgone, -⟩ | ⟨-, -, o, rest', hfind, hdel', hturn⟩
        · cases (dumpFails_fateless accepts (fate_nil held).1).symm.trans h
        · exact absurd (fate_nil held).2 h
        · cases hfirst.symm.trans hfind
          cases hdel.symm.trans h
        · cases hfirst.symm.trans hgone
        · cases hfirst.symm.trans hfind
          cases hdel.symm.trans hdel'
          rw [hturn]
          exact ⟨true, (deleteUpTo_of_none n true _ hlost).2 (Or.inr rfl)⟩

/-- **When a deletion keeps the contract** with an add as its inverse. -/
theorem keeps_deleteUpTo_iff (hA : A.Lawful stored agrees) (n : ℕ) :
    Keeps (deleteUpTo A accepts dumpLabel delLabel (n + 1) false)
        (addOnce A accepts dumpLabel addLabel sent) t ↔
      DeleteUndone A accepts n sent t := by
  rcases deleteUpTo_cases A accepts dumpLabel delLabel n false t with
    ⟨⟨error, herror⟩, hheld, hfail⟩ | ⟨hnone, hstep⟩ | ⟨hdump, hfate, o, rest, hfind, hdel, hturn⟩
  · refine iff_of_true (keeps_of_quiet (by rw [herror]; exact nofun) hheld) ?_
    rcases hfail with h | ⟨o, hfind, h | h⟩
    · exact Or.inr (Or.inl h)
    · exact Or.inr (Or.inr (Or.inl h))
    · refine Or.inr (Or.inr (Or.inr ⟨o, hfind, fun rest hdel => ?_⟩))
      cases h.symm.trans hdel
  · refine iff_of_true (keeps_of_quiet (by rw [hstep]; exact nofun) (by rw [hstep]; rfl))
      (Or.inl ?_)
    exact fun o ho => Bool.eq_false_iff.mpr (List.find?_eq_none.mp hnone o ho)
  · have hone := length_del hA hdel
    obtain ⟨d, hd, hsame, hok⟩ :=
      deleteUpTo_length hA accepts dumpLabel delLabel n true ⟨rest, t.fates.tail.tail⟩
    obtain ⟨r, hr⟩ : ∃ r, r = deleteUpTo A accepts dumpLabel delLabel n true ⟨rest,
      t.fates.tail.tail⟩ :=
      ⟨_, rfl⟩
    rw [← hr] at hturn hd hsame hok
    obtain ⟨result, t'⟩ := r
    dsimp only at hd hsame hok
    constructor
    · intro hkeeps
      cases result with
      | error error =>
        -- a failure after the first deletion
        have hperm := (hkeeps.error error (by rw [hturn])).length_eq
        rw [hturn] at hperm
        dsimp only at hperm
        omega
      | ok flag =>
        have hflag : flag = true := by
          rw [hok flag rfl]
          rfl
        subst hflag
        have hback := hkeeps.undisturbed (by rw [hturn])
        rw [hturn] at hback
        have hlen := hback.length_eq
        rcases addOnce_cases A accepts dumpLabel addLabel sent ⟨t'.held, []⟩ with
          ⟨-, hheld, -⟩ | ⟨o', -, -, hadd⟩ | ⟨hnone, -, -, held, hadd, hstep⟩
        · rw [hheld] at hlen
          dsimp only at hlen
          omega
        · rw [hadd] at hlen
          have hlen : t.held.length = t'.held.length := hlen
          omega
        · -- one add makes up for one deletion only
          have hlen' := length_add hA hadd
          rw [hstep] at hback hlen
          dsimp only at hlen hlen' hnone hadd
          have hrest := hsame (by omega)
          rw [hrest] at hnone hadd
          refine Or.inr (Or.inr (Or.inr ⟨o, hfind, fun rest' hdel' => ?_⟩))
          cases hdel.symm.trans hdel'
          refine ⟨fun o ho => Bool.eq_false_iff.mpr (List.find?_eq_none.mp hnone o ho), ?_,
            held, hadd,
            hback.symm⟩
          cases n with
          | zero => exact Or.inl rfl
          | succ n =>
            refine Or.inr ?_
            by_contra hfate'
            rcases deleteUpTo_cases A accepts dumpLabel delLabel n true ⟨rest,
              t.fates.tail.tail⟩ with
              ⟨⟨error, herror⟩, -⟩ | ⟨-, hend⟩ | ⟨-, -, o', rest'', hfind', -⟩
            · rw [← hr] at herror
              cases herror
            · have hdump' : (Table.mk rest t.fates.tail.tail).dumpFails accepts = true := by
                rw [dumpFails_of_none hnone]
                exact Option.isSome_iff_ne_none.mpr hfate'
              rw [deleteUpTo, find_fails hdump'] at hend
              cases hend
            · cases hnone.symm.trans hfind'
    · intro hundone
      obtain ⟨hclear, hbound, held, hadd, hheld⟩ : (∀ o ∈ rest, accepts o = false) ∧
          (n = 0 ∨ t.exchanged.exchanged.fate = none) ∧
            ∃ held, A.add rest sent = some held ∧ held.Perm t.held := by
        rcases hundone with h | h | h | ⟨o', hfind', h⟩
        · have haccepts := List.find?_some hfind
          cases (h o (List.mem_of_find?_eq_some hfind)).symm.trans haccepts
        · cases hdump.symm.trans h
        · exact absurd hfate h
        · cases hfind.symm.trans hfind'
          exact h rest hdel
      have hnone : rest.find? accepts = none :=
        List.find?_eq_none.mpr fun o ho => Bool.eq_false_iff.mp (hclear o ho)
      obtain ⟨hheld', hok'⟩ := deleteUpTo_of_none n true t.fates.tail.tail hnone
      have hresult := hok' hbound
      rw [← hr] at hheld' hresult
      dsimp only at hheld' hresult
      have hstep : deleteUpTo A accepts dumpLabel delLabel (n + 1) false t =
          (.ok true, ⟨rest, t'.fates⟩) := by
        rw [hturn, hresult, ← hheld']
      have hlen := hheld.length_eq
      have hlen' := length_add hA hadd
      refine keeps_of_changed hstep (by omega) (fun fates flag hflag => ?_) ?_
      · rcases addOnce_cases A accepts dumpLabel addLabel sent ⟨rest, fates⟩ with
          ⟨⟨error, herror⟩, -⟩ | ⟨o', ho', haccepts, -⟩ | ⟨-, -, -, held', hadd', hback⟩
        · cases herror.symm.trans hflag
        · cases (hclear o' ho').symm.trans haccepts
        · cases hadd.symm.trans hadd'
          rw [hback]
          exact hheld.symm
      · rcases addOnce_cases A accepts dumpLabel addLabel sent ⟨rest, []⟩ with
          ⟨-, -, h | h | h⟩ | ⟨o', -, -, hback⟩ | ⟨-, -, -, held', -, hback⟩
        · exact absurd (fate_nil rest).1 h
        · exact absurd (fate_nil rest).2 h
        · cases hadd.symm.trans h
        · exact ⟨false, congrArg Prod.fst hback⟩
        · exact ⟨true, congrArg Prod.fst hback⟩

/-! ## What is left alone -/

end DumpedTable
