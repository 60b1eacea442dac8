import Mathlib

/-!
# Writes that are applied behind

A store answers from memory, and its writes reach the disk later, over lanes that share no order.
Every write carries a sequence, drawn when memory changes; the disk takes a write only where it is
newer than the one it took last for that key, and a lane may drop a write that a newer one of its
key supersedes.

* `Write`, `Fresh`: a write of one key, and that the disk has taken none as new;
* `supersede`: **newest wins** in a lane with one entry per key; `covers_supersede`;
* `Settles`: writes in flight may move and stale ones disappear; `Settles.trans`, `Settles.fresh`;
* `Replica`, `Replica.Step`: memory, disk and what is in flight, and what can happen to them;
* **`Replica.Step.inv`**, **`Replica.Inv.synced`**: with nothing in flight the disk is memory;
* **`Replica.Step.ordered`**: what the disk takes of a key only gets newer;
* `Durable.take`: the disk takes a write, where it is newer; **`Durable.foldl_take_congr`**: what a
  list of writes comes to is decided by the newest of each key.
-/

namespace WriteBehind

/-- A write of one key, or its removal. -/
structure Write (κ ν : Type*) where
  key : κ
  value : Option ν
  seq : ℕ
deriving DecidableEq

variable {κ ν : Type*}

/-- The disk has taken nothing as new for its key. -/
def Write.Fresh (applied : κ → ℕ) (w : Write κ ν) : Prop := applied w.key < w.seq

instance (applied : κ → ℕ) (w : Write κ ν) : Decidable (w.Fresh applied) :=
  inferInstanceAs (Decidable (applied w.key < w.seq))

/-! ## Newest wins -/

section Supersede

variable {α β : Type*} [DecidableEq β] {key : α → β} {stamp : α → ℕ} {lane : List α} {a : α}

/-- Put `a` in the lane instead of the entry of its key, unless that one is at least as new. -/
def supersede (key : α → β) (stamp : α → ℕ) (lane : List α) (a : α) : List α :=
  if lane.any fun e => key e = key a ∧ stamp a ≤ stamp e then lane
  else lane.filter (fun e => key e ≠ key a) ++ [a]

theorem mem_of_mem_supersede {e : α} (h : e ∈ supersede key stamp lane a) : e ∈ lane ∨ e = a := by
  unfold supersede at h
  split_ifs at h
  · exact .inl h
  · rcases List.mem_append.mp h with h | h
    · exact .inl (List.mem_of_mem_filter h)
    · exact .inr (List.mem_singleton.mp h)

/-- **Nothing newer is lost.** -/
theorem covers_supersede {e : α} (h : e ∈ lane ∨ e = a) :
    ∃ e' ∈ supersede key stamp lane a, key e' = key e ∧ stamp e ≤ stamp e' := by
  unfold supersede
  split_ifs with hany
  · rcases h with h | rfl
    · exact ⟨e, h, rfl, le_rfl⟩
    · simpa using hany
  · by_cases hkey : key e = key a
    · refine ⟨a, by simp, hkey.symm, ?_⟩
      rcases h with h | rfl
      · have hnone : ¬ (key e = key a ∧ stamp a ≤ stamp e) := fun hboth =>
          hany (by simpa using ⟨e, h, hboth⟩)
        exact le_of_not_ge fun hle => hnone ⟨hkey, hle⟩
      · exact le_rfl
    · rcases h with h | rfl
      · exact ⟨e, by simp [h, hkey], rfl, le_rfl⟩
      · exact absurd rfl hkey

theorem mem_of_mem_foldl_supersede {as : List α} {e : α}
    (h : e ∈ as.foldl (supersede key stamp) lane) :
    e ∈ lane ∨ e ∈ as := by
  induction as generalizing lane with
  | nil => exact .inl h
  | cons a as ih =>
    rcases ih h with h | h
    · rcases mem_of_mem_supersede h with h | rfl
      · exact .inl h
      · exact .inr (List.mem_cons_self ..)
    · exact .inr (List.mem_cons_of_mem _ h)

theorem covers_foldl_supersede {as : List α} {e : α} (h : e ∈ lane ∨ e ∈ as) :
    ∃ e' ∈ as.foldl (supersede key stamp) lane, key e' = key e ∧ stamp e ≤ stamp e' := by
  induction as generalizing lane e with
  | nil =>
    refine ⟨e, ?_, rfl, le_rfl⟩
    simpa using h
  | cons a as ih =>
    have hone : (e ∈ lane ∨ e = a) ∨ e ∈ as := by
      rw [List.mem_cons] at h
      tauto
    rcases hone with hone | hone
    · have hcover : ∃ e' ∈ supersede key stamp lane a, key e' = key e ∧ stamp e ≤ stamp e' :=
        covers_supersede hone
      obtain ⟨e', he', hkey, hle⟩ := hcover
      obtain ⟨e'', he'', hkey', hle'⟩ := ih (.inl he')
      exact ⟨e'', he'', hkey'.trans hkey, hle.trans hle'⟩
    · exact ih (.inr hone)

end Supersede

/-! ## In flight -/

/-- Every write of `F` that the disk has not overtaken has one of its key in `F'` that is not older,
and nothing is new in `F'`. -/
structure Settles (applied : κ → ℕ) (F F' : Set (Write κ ν)) : Prop where
  subset : F' ⊆ F
  covers : ∀ w ∈ F, w.Fresh applied → ∃ w' ∈ F', w'.key = w.key ∧ w.seq ≤ w'.seq

variable {applied : κ → ℕ} {F F' F'' : Set (Write κ ν)}

theorem Settles.refl (applied : κ → ℕ) (F : Set (Write κ ν)) : Settles applied F F :=
  ⟨subset_rfl, fun w hw _ => ⟨w, hw, rfl, le_rfl⟩⟩

theorem Settles.of_eq (h : F = F') : Settles applied F F' := h ▸ .refl applied F

theorem Write.Fresh.newer {w w' : Write κ ν} (h : w.Fresh applied) (hkey : w'.key = w.key)
    (hle : w.seq ≤ w'.seq) :
    w'.Fresh applied := by
  unfold Write.Fresh at *
  rw [hkey]
  omega

theorem Settles.trans (h : Settles applied F F') (h' : Settles applied F' F'') :
    Settles applied F F'' := by
  refine ⟨h'.subset.trans h.subset, fun w hw hfresh => ?_⟩
  obtain ⟨w', hw', hkey, hle⟩ := h.covers w hw hfresh
  obtain ⟨w'', hw'', hkey', hle'⟩ := h'.covers w' hw' (hfresh.newer hkey hle)
  exact ⟨w'', hw'', hkey'.trans hkey, hle.trans hle'⟩

theorem Settles.fresh (h : Settles applied F F') (hF : ∃ w ∈ F, w.Fresh applied) :
    ∃ w ∈ F', w.Fresh applied := by
  obtain ⟨w, hw, hfresh⟩ := hF
  obtain ⟨w', hw', hkey, hle⟩ := h.covers w hw hfresh
  exact ⟨w', hw', hfresh.newer hkey hle⟩

theorem Settles.of_covers (hsubset : F' ⊆ F)
    (hcovers : ∀ w ∈ F, ∃ w' ∈ F', w'.key = w.key ∧ w.seq ≤ w'.seq) :
    Settles applied F F' :=
  ⟨hsubset, fun w hw _ => hcovers w hw⟩

theorem Settles.of_stale (hsubset : F' ⊆ F) (hstale : ∀ w ∈ F, w.Fresh applied → w ∈ F') :
    Settles applied F F' :=
  ⟨hsubset, fun w hw hfresh => ⟨w, hstale w hw hfresh, rfl, le_rfl⟩⟩

/-! ## Memory and disk -/

/-- Memory, the disk, and the writes on their way from one to the other. -/
structure Replica (κ ν : Type*) where
  memory : κ → Option ν
  /-- The sequence of the newest write of a key. -/
  version : κ → ℕ
  flight : Set (Write κ ν)
  disk : κ → Option ν
  /-- The sequence of the write that the disk took last. -/
  applied : κ → ℕ

namespace Replica

variable [DecidableEq κ] {r r' : Replica κ ν} {taken history : List (Write κ ν)}

/-- What happens, and what the disk takes of it. -/
inductive Step (r : Replica κ ν) : Replica κ ν → List (Write κ ν) → Prop where
  | settle {F : Set (Write κ ν)} (settles : Settles r.applied r.flight F) :
    Step r { r with flight := F } []
  /-- Memory changes under writes that are newer than all before. -/
  | issue {ws : Set (Write κ ν)} {memory : κ → Option ν} {version : κ → ℕ}
    (newer : ∀ w ∈ ws, r.version w.key < w.seq ∧ version w.key = w.seq ∧ memory w.key = w.value)
    (frame : ∀ k, (∀ w ∈ ws, w.key ≠ k) → version k = r.version k ∧ memory k = r.memory k) :
    Step r { r with memory := memory, version := version, flight := r.flight ∪ ws } []
  | take {w : Write κ ν} {F : Set (Write κ ν)} (mem : w ∈ r.flight) (fresh : w.Fresh r.applied)
    (settles : Settles (Function.update r.applied w.key w.seq) r.flight F) :
    Step r { r with flight := F, disk := Function.update r.disk w.key w.value,
                    applied := Function.update r.applied w.key w.seq } [w]

/-- The newest write of a key is applied, or in flight. -/
structure Inv (r : Replica κ ν) : Prop where
  pos : ∀ w ∈ r.flight, 0 < w.seq
  le : ∀ w ∈ r.flight, w.seq ≤ r.version w.key
  newest : ∀ w ∈ r.flight, w.seq = r.version w.key → w.value = r.memory w.key
  applied_le : ∀ k, r.applied k ≤ r.version k
  applied_eq : ∀ k, r.applied k = r.version k → r.disk k = r.memory k
  pending : ∀ k, r.applied k < r.version k → ∃ w ∈ r.flight, w.key = k ∧ w.seq = r.version k

omit [DecidableEq κ] in
/-- **With nothing in flight the disk is memory.** -/
theorem Inv.synced (h : r.Inv) (hflight : r.flight = ∅) (k : κ) : r.disk k = r.memory k := by
  refine h.applied_eq k (le_antisymm (h.applied_le k) (not_lt.mp fun hlt => ?_))
  obtain ⟨w, hw, -⟩ := h.pending k hlt
  rw [hflight] at hw
  exact hw

omit [DecidableEq κ] in
theorem Inv.settled (h : r.Inv) {F : Set (Write κ ν)} (hF : Settles applied r.flight F) {k : κ}
    (hlt : applied k < r.version k) (hpending : ∃ w ∈ r.flight, w.key = k ∧ w.seq = r.version k) :
    ∃ w ∈ F, w.key = k ∧ w.seq = r.version k := by
  obtain ⟨w, hw, rfl, hseq⟩ := hpending
  obtain ⟨w', hw', hkey, hle⟩ := hF.covers w hw (by unfold Write.Fresh; omega)
  have hbound := h.le w' (hF.subset hw')
  rw [hkey] at hbound
  exact ⟨w', hw', hkey, by omega⟩

/-- **Every step keeps the invariant.** -/
theorem Step.inv (h : r.Inv) (hstep : Step r r' taken) : r'.Inv := by
  cases hstep with
  | settle settles =>
    exact
      { pos := fun w hw => h.pos w (settles.subset hw)
        le := fun w hw => h.le w (settles.subset hw)
        newest := fun w hw => h.newest w (settles.subset hw)
        applied_le := h.applied_le
        applied_eq := h.applied_eq
        pending := fun k hlt => h.settled settles hlt (h.pending k hlt) }
  | @issue ws memory version newer frame =>
    -- a key is written, with the new version, or nothing of it changes
    have hcases : ∀ k, (∃ w ∈ ws, w.key = k ∧ w.seq = version k ∧ r.version k < version k) ∨
        (∀ w ∈ ws, w.key ≠ k) ∧ version k = r.version k ∧ memory k = r.memory k := by
      intro k
      by_cases hk : ∃ w ∈ ws, w.key = k
      · obtain ⟨w, hw, rfl⟩ := hk
        obtain ⟨hlt, hversion, -⟩ := newer w hw
        exact .inl ⟨w, hw, rfl, hversion.symm, hversion ▸ hlt⟩
      · have hnone : ∀ w ∈ ws, w.key ≠ k := fun w hw heq => hk ⟨w, hw, heq⟩
        exact .inr ⟨hnone, frame k hnone⟩
    refine ⟨fun w hw => ?_, fun w hw => ?_, fun w hw heq => ?_, fun k => ?_, fun k heq => ?_,
      fun k hlt => ?_⟩
    · rcases hw with hw | hw
      · exact h.pos w hw
      · exact (Nat.zero_le _).trans_lt (newer w hw).1
    · rcases hw with hw | hw
      · have hle := h.le w hw
        rcases hcases w.key with ⟨-, -, -, -, hlt⟩ | ⟨-, hsame, -⟩
        · exact hle.trans hlt.le
        · exact hle.trans hsame.ge
      · exact (newer w hw).2.1.ge
    · rcases hw with hw | hw
      · have hle := h.le w hw
        dsimp only at heq
        rcases hcases w.key with ⟨-, -, -, -, hlt⟩ | ⟨-, hsame, hmemory⟩
        · omega
        · exact (h.newest w hw (heq.trans hsame)).trans hmemory.symm
      · exact (newer w hw).2.2.symm
    · have hle := h.applied_le k
      rcases hcases k with ⟨-, -, -, -, hlt⟩ | ⟨-, hsame, -⟩
      · exact hle.trans hlt.le
      · exact hle.trans hsame.ge
    · have hle := h.applied_le k
      dsimp only at heq
      rcases hcases k with ⟨-, -, -, -, hlt⟩ | ⟨-, hsame, hmemory⟩
      · omega
      · exact (h.applied_eq k (heq.trans hsame)).trans hmemory.symm
    · dsimp only at hlt
      rcases hcases k with ⟨w, hw, hkey, hseq, -⟩ | ⟨-, hsame, -⟩
      · exact ⟨w, .inr hw, hkey, hseq⟩
      · obtain ⟨w, hw, hkey, hseq⟩ := h.pending k (hsame ▸ hlt)
        exact ⟨w, .inl hw, hkey, hseq.trans hsame.symm⟩
  | @take w F mem fresh settles =>
    have hle := h.le w mem
    refine ⟨fun w hw => h.pos w (settles.subset hw), fun w hw => h.le w (settles.subset hw),
      fun w hw => h.newest w (settles.subset hw), fun k => ?_, fun k heq => ?_, fun k hlt => ?_⟩
    · by_cases hk : k = w.key
      · simpa [hk] using hle
      · simpa [hk] using h.applied_le k
    · by_cases hk : k = w.key
      · subst hk
        simp only [Function.update_self] at heq ⊢
        exact h.newest w mem heq
      · simp only [Function.update_of_ne hk] at heq ⊢
        exact h.applied_eq k heq
    · refine h.settled settles hlt (h.pending k ?_)
      by_cases hk : k = w.key
      · subst hk
        exact fresh.trans_le hle
      · simpa [hk] using hlt

theorem Step.fresh (hstep : Step r r' []) (h : ∃ w ∈ r.flight, w.Fresh r.applied) :
    ∃ w ∈ r'.flight, w.Fresh r'.applied := by
  cases hstep with
  | settle settles => exact settles.fresh h
  | issue =>
    obtain ⟨w, hw, hfresh⟩ := h
    exact ⟨w, .inl hw, hfresh⟩

/-- What the disk has taken, each of a key newer than those before. -/
structure Ordered (r : Replica κ ν) (history : List (Write κ ν)) : Prop where
  ordered : history.Pairwise fun w w' => w.key = w'.key → w.seq < w'.seq
  applied : ∀ w ∈ history, w.seq ≤ r.applied w.key

/-- **What the disk takes of a key only gets newer.** -/
theorem Step.ordered (h : r.Ordered history) (hstep : Step r r' taken) :
    r'.Ordered (history ++ taken) := by
  cases hstep with
  | settle | issue =>
    rw [List.append_nil]
    exact ⟨h.ordered, h.applied⟩
  | @take w F mem fresh settles =>
    refine ⟨List.pairwise_append.mpr ⟨h.ordered, List.pairwise_singleton _ _,
      fun w' hw' x hx hkey => ?_⟩,
      fun w' hw' => ?_⟩
    · rw [List.mem_singleton.mp hx] at hkey ⊢
      have hle := h.applied w' hw'
      rw [hkey] at hle
      exact hle.trans_lt fresh
    · dsimp only
      rcases List.mem_append.mp hw' with hw' | hw'
      · have hle := h.applied w' hw'
        by_cases hk : w'.key = w.key
        · rw [hk, Function.update_self]
          rw [hk] at hle
          exact hle.trans fresh.le
        · rw [Function.update_of_ne hk]
          exact hle
      · rw [List.mem_singleton.mp hw', Function.update_self]

end Replica

/-! ## One by one -/

/-- The disk, and the sequence of the write it took last of a key, if there is one. -/
@[ext]
structure Durable (κ ν : Type*) where
  disk : κ → Option ν
  applied : κ → Option ℕ

namespace Durable

/-- The disk has taken one that is not older. -/
def stale (d : Durable κ ν) (k : κ) (seq : ℕ) : Bool := (d.applied k).any fun last => seq ≤ last

variable [DecidableEq κ] {d d' d'' : Durable κ ν} {ws ws' : List (Write κ ν)}
    {w : Write κ ν} {k : κ}

/-- The disk takes a write, unless it is stale. -/
def take (d : Durable κ ν) (w : Write κ ν) : Durable κ ν :=
  if d.stale w.key w.seq then d
  else ⟨Function.update d.disk w.key w.value, Function.update d.applied w.key (some w.seq)⟩

omit [DecidableEq κ] in
theorem stale_mono {a b : ℕ} (h : d.stale k b = true) (hle : a ≤ b) : d.stale k a = true := by
  unfold stale at *
  cases hlast : d.applied k with
  | none => simp [hlast] at h
  | some last =>
    simp only [hlast, Option.any_some, decide_eq_true_eq] at h ⊢
    omega

omit [DecidableEq κ] in
theorem lt_of_stale {a b : ℕ} (ha : d.stale k a = true) (hb : d.stale k b = false) : a < b := by
  by_contra hlt
  rw [stale_mono ha (not_lt.mp hlt)] at hb
  cases hb

theorem take_of_stale (h : d.stale w.key w.seq = true) : d.take w = d := if_pos h

theorem take_of_fresh (h : d.stale w.key w.seq = false) :
    d.take w = ⟨Function.update d.disk w.key w.value,
      Function.update d.applied w.key (some w.seq)⟩ :=
  if_neg (by simp [h])

theorem take_of_ne (h : w.key ≠ k) :
    (d.take w).disk k = d.disk k ∧ (d.take w).applied k = d.applied k := by
  cases hstale : d.stale w.key w.seq with
  | true => rw [take_of_stale hstale]; exact ⟨rfl, rfl⟩
  | false =>
    rw [take_of_fresh hstale]
    exact ⟨Function.update_of_ne (Ne.symm h) .., Function.update_of_ne (Ne.symm h) ..⟩

/-- What `ws` comes to for key `k`: the newest of its writes, unless all are stale. -/
def Outcome (d : Durable κ ν) (ws : List (Write κ ν)) (k : κ) (d' : Durable κ ν) : Prop :=
  ((d'.disk k = d.disk k ∧ d'.applied k = d.applied k) ∧ ∀ w ∈ ws, w.key = k →
   d.stale k w.seq = true) ∨
    ∃ w ∈ ws, (w.key = k ∧ d.stale k w.seq = false ∧ ∀ w' ∈ ws, w'.key = k → w'.seq ≤ w.seq) ∧
      d'.disk k = w.value ∧ d'.applied k = some w.seq

omit [DecidableEq κ] in
theorem Outcome.snoc (h : d.Outcome ws k d')
    (hsame : d''.disk k = d'.disk k ∧ d''.applied k = d'.applied k)
    (hold : w.key = k → d'.stale k w.seq = true) : d.Outcome (ws ++ [w]) k d'' := by
  rcases h with ⟨hd', hstale⟩ | ⟨v, hv, ⟨hkey, hfresh, hnewest⟩, hdisk, happlied⟩
  · refine .inl ⟨⟨hsame.1.trans hd'.1, hsame.2.trans hd'.2⟩, fun w' hw' hw'k => ?_⟩
    rcases List.mem_append.mp hw' with hw' | hw'
    · exact hstale w' hw' hw'k
    · rw [List.mem_singleton.mp hw'] at hw'k ⊢
      have := hold hw'k
      rwa [stale, hd'.2] at this
  · refine .inr ⟨v, List.mem_append_left _ hv, ⟨hkey, hfresh, fun w' hw' hw'k => ?_⟩,
      hsame.1.trans hdisk,
      hsame.2.trans happlied⟩
    rcases List.mem_append.mp hw' with hw' | hw'
    · exact hnewest w' hw' hw'k
    · rw [List.mem_singleton.mp hw'] at hw'k ⊢
      simpa [stale, happlied] using hold hw'k

theorem outcome_foldl (ws : List (Write κ ν)) (k : κ) : d.Outcome ws k (ws.foldl take d) := by
  induction ws using List.reverseRecOn with
  | nil => exact .inl ⟨⟨rfl, rfl⟩, by simp⟩
  | append_singleton ws w ih =>
    rw [List.foldl_append, List.foldl_cons, List.foldl_nil]
    by_cases hkey : w.key = k
    · by_cases hstale : (ws.foldl take d).stale k w.seq = true
      · rw [take_of_stale (by rwa [hkey])]
        exact ih.snoc ⟨rfl, rfl⟩ fun _ => hstale
      · -- it is newer than all before
        have hfresh : (ws.foldl take d).stale k w.seq = false := by simpa using hstale
        have htake : ((ws.foldl take d).take w).disk k = w.value ∧
            ((ws.foldl take d).take w).applied k = some w.seq := by
          rw [take_of_fresh (by rwa [hkey]), hkey]
          exact ⟨Function.update_self .., Function.update_self ..⟩
        have hnewest : d.stale k w.seq = false ∧ ∀ w' ∈ ws, w'.key = k → w'.seq ≤ w.seq := by
          rcases ih with ⟨hd', hall⟩ | ⟨v, -, ⟨-, hvfresh, hnewest⟩, -, happlied⟩
          · rw [stale, hd'.2] at hfresh
            exact ⟨hfresh, fun w' hw' hw'k => (lt_of_stale (hall w' hw' hw'k) hfresh).le⟩
          · have hlt : v.seq < w.seq := by simpa [stale, happlied] using hfresh
            refine ⟨?_, fun w' hw' hw'k => (hnewest w' hw' hw'k).trans hlt.le⟩
            by_contra hwstale
            rw [stale_mono (by simpa using hwstale) hlt.le] at hvfresh
            cases hvfresh
        refine .inr ⟨w, by simp, ⟨hkey, hnewest.1, fun w' hw' hw'k => ?_⟩, htake⟩
        rcases List.mem_append.mp hw' with hw' | hw'
        · exact hnewest.2 w' hw' hw'k
        · rw [List.mem_singleton.mp hw']
    · exact ih.snoc (take_of_ne hkey) fun h => absurd h hkey

/-- **The newest write of each key decides**, in whatever order they are taken. -/
theorem foldl_take_congr (hsubset : ws' ⊆ ws)
    (hcovers : ∀ w ∈ ws, ∃ w' ∈ ws', w'.key = w.key ∧ w.seq ≤ w'.seq)
    (hunique : ∀ w ∈ ws, ∀ w' ∈ ws, w.key = w'.key → w.seq = w'.seq → w = w') :
    ws'.foldl take d = ws.foldl take d := by
  have hsame : ∀ k, (ws'.foldl take d).disk k = (ws.foldl take d).disk k ∧
      (ws'.foldl take d).applied k = (ws.foldl take d).applied k := by
    intro k
    rcases outcome_foldl (d := d) ws k with
      ⟨hd, hstale⟩ | ⟨w, hw, ⟨hkey, hfresh, hnewest⟩, hdisk, happlied⟩
    · rcases outcome_foldl (d := d) ws' k with ⟨hd', -⟩ | ⟨w', hw', ⟨hkey', hfresh', -⟩, -⟩
      · exact ⟨hd'.1.trans hd.1.symm, hd'.2.trans hd.2.symm⟩
      · cases (hstale w' (hsubset hw') hkey').symm.trans hfresh'
    · obtain ⟨v, hv, hvkey, hle⟩ := hcovers w hw
      rcases outcome_foldl (d := d) ws' k with
        ⟨-, hstale'⟩ | ⟨w', hw', ⟨hkey', -, hnewest'⟩, hdisk', happlied'⟩
      · cases (stale_mono (hstale' v hv (hvkey.trans hkey)) hle).symm.trans hfresh
      · have heq : w' = w := by
          refine hunique w' (hsubset hw') w hw (hkey'.trans hkey.symm) (Nat.le_antisymm ?_ ?_)
          · exact hnewest w' (hsubset hw') hkey'
          · exact hle.trans (hnewest' v hv (hvkey.trans hkey))
        rw [hdisk', happlied', hdisk, happlied, heq]
        exact ⟨rfl, rfl⟩
  ext1
  · exact funext fun k => (hsame k).1
  · exact funext fun k => (hsame k).2

end Durable

end WriteBehind
