import Mathlib

/-!
# A numbered feed whose losses are announced

A sender numbers what it publishes and puts it on a line to one receiver. What it cannot put there
is lost; it owes the receiver a marker then. The receiver takes what comes in the order of its
numbers: at a marker, or past a gap, it asks for a snapshot, and goes on from the number that the
snapshot is stamped with.

* `Feed`, `Step`: the sender, the line and the receiver, and what can happen;
* `Sound`, `step_sound`: what holds of a feed, through every step;
* **`Sound.settled`**: where nothing is on its way, the receiver is up to date.
-/

namespace Resync

/-- What is on the line. -/
inductive Item where
  | event (number : ℕ)
  | marker
  deriving DecidableEq

/-- What the receiver is at: reading the line, or waiting for a snapshot, which has been taken or
not. The gap is the number behind one. -/
inductive Stage where
  | reading
  | asked (gap : Option ℕ)
  | told (gap : Option ℕ) (stamp : ℕ)

/-- The gap that made the receiver ask. -/
def Stage.gap : Stage → Option ℕ
  | reading => none
  | asked gap => gap
  | told gap _ => gap

structure Feed where
  published : ℕ
  /-- Something has been published to the receiver. -/
  heard : Bool
  line : List Item
  /-- The sender will put a marker on the line. -/
  owed : Bool
  stage : Stage
  cursor : Option ℕ

/-- The numbers on a line. -/
def numbers (line : List Item) : List ℕ := line.filterMap fun
  | .event number => some number
  | .marker => none

/-- What a snapshot does not cover. -/
def survives (cursor : ℕ) : Item → Bool
  | .event number => decide (cursor < number)
  | .marker => true

/-- What can happen to a feed. -/
inductive Step (f : Feed) : Feed → Prop where
  | stays : Step f f
  | elsewhere (silent : f.heard = false) : Step f { f with published := f.published + 1 }
  | publish : Step f
      { f with published := f.published + 1, heard := true, line := f.line ++ [.event (f.published + 1)] }
  | lose (owed : Bool) (noticed : owed = true ∨ .marker ∈ f.line) : Step f
      { f with published := f.published + 1, heard := true, owed := owed }
  | announce (before after : List Item) (line : f.line = before ++ after)
    (heard : f.heard = true) : Step f
      { f with line := before ++ .marker :: after, owed := false }
  | deliver (number : ℕ) (rest : List Item) (reading : f.stage = .reading)
    (line : f.line = .event number :: rest)
      (next : ∀ cursor, f.cursor = some cursor → number = cursor + 1) : Step f
      { f with line := rest, cursor := some number }
  | skip (number cursor : ℕ) (rest : List Item) (reading : f.stage = .reading)
      (line : f.line = .event number :: rest) (seen : f.cursor = some cursor)
      (stale : number ≤ cursor) : Step f
      { f with line := rest }
  | gap (number : ℕ) (rest : List Item) (reading : f.stage = .reading)
    (line : f.line = .event number :: rest)
      (ahead : ∀ cursor, f.cursor = some cursor → cursor < number) : Step f
      { f with line := rest, stage := .asked (some number) }
  | resync (rest : List Item) (reading : f.stage = .reading)
    (line : f.line = .marker :: rest) : Step f
      { f with line := rest, stage := .asked none }
  | evict (number : ℕ) (rest : List Item) (line : f.line = .event number :: rest)
    (more : rest ≠ []) : Step f
      { f with line := rest }
  | tell (gap : Option ℕ) (asked : f.stage = .asked gap) :
    Step f { f with stage := .told gap f.published }
  | resume (gap : Option ℕ) (stamp cursor : ℕ) (before after : List Item)
    (told : f.stage = .told gap stamp)
      (line : f.line = before ++ after)
      (hcursor : cursor = max stamp (gap.getD (f.cursor.getD 0))) : Step f
      { f with line := before.filter (survives cursor) ++ after, stage := .reading, cursor := some cursor }

/-- The last number published will come to the receiver, or a snapshot that covers it, or it has
come. -/
inductive Visible (f : Feed) : Prop where
  | owed (h : f.owed = true)
  | marker (h : .marker ∈ f.line)
  | event (h : .event f.published ∈ f.line)
  | asked (gap : Option ℕ) (h : f.stage = .asked gap)
  | told (gap : Option ℕ) (h : f.stage = .told gap f.published)
  | seen (h : f.cursor = some f.published)

/-- **What holds of a feed.** -/
structure Sound (f : Feed) : Prop where
  sorted : (numbers f.line).Pairwise (· < ·)
  bounded : ∀ number ∈ numbers f.line, number ≤ f.published
  cursor : ∀ cursor, f.cursor = some cursor → cursor ≤ f.published
  gap : ∀ gap, f.stage.gap = some gap → gap ≤ f.published ∧ ∀ cursor, f.cursor = some cursor →
    cursor < gap
  stamp : ∀ gap stamp, f.stage = .told gap stamp → stamp ≤ f.published
  silent : f.heard = false → f.line = [] ∧ f.cursor = none ∧ f.stage = .reading ∧ f.owed = false
  visible : f.heard = true → Visible f

variable {f f' : Feed} {line before after rest : List Item} {number cursor : ℕ}

@[simp] theorem numbers_nil : numbers [] = [] := rfl

@[simp] theorem numbers_event : numbers (.event number :: rest) = number :: numbers rest := rfl

@[simp] theorem numbers_marker : numbers (.marker :: rest) = numbers rest := rfl

@[simp] theorem numbers_append : numbers (before ++ after) = numbers before ++ numbers after :=
  List.filterMap_append

theorem numbers_sublist (h : List.Sublist line rest) : (numbers line).Sublist (numbers rest) :=
  h.filterMap _

theorem Sound.of_line (h : Sound f) (hline : List.Sublist line f.line) :
    (numbers line).Pairwise (· < ·) ∧ ∀ number ∈ numbers line, number ≤ f.published :=
  ⟨h.sorted.sublist (numbers_sublist hline),
   fun _ hmem => h.bounded _ ((numbers_sublist hline).subset hmem)⟩

theorem Sound.heard (h : Sound f) (hline : f.line ≠ []) : f.heard = true := by
  by_contra hheard
  exact hline (h.silent (by simpa using hheard)).1

/-- What becomes of the last number when the head of the line is taken. -/
theorem Visible.tail (h : Visible f) (hline : f.line = .event number :: rest)
    (hother : number ≠ f.published) :
    Visible { f with line := rest } := by
  cases h with
  | owed h => exact .owed h
  | marker h =>
    rw [hline] at h
    exact .marker (by simpa using h)
  | event h =>
    rw [hline] at h
    refine .event ?_
    simpa [hother.symm] using h
  | asked gap h => exact .asked gap h
  | told gap h => exact .told gap h
  | seen h => exact .seen h

theorem Sound.publish (h : Sound f) :
    Sound { f with
            published := f.published + 1
            heard := true
            line := f.line ++ [.event (f.published + 1)] } where
  sorted := by
    rw [numbers_append, List.pairwise_append]
    refine ⟨h.sorted, List.pairwise_singleton _ _, fun a ha b hb => ?_⟩
    rw [numbers_event, numbers_nil, List.mem_singleton] at hb
    have := h.bounded a ha
    omega
  bounded := by
    intro number hmem
    rw [numbers_append, List.mem_append, numbers_event, numbers_nil, List.mem_singleton] at hmem
    obtain hmem | rfl := hmem
    · exact (h.bounded number hmem).trans (Nat.le_succ _)
    · exact le_rfl
  cursor cursor hcursor := (h.cursor cursor hcursor).trans (Nat.le_succ _)
  gap gap hgap := ⟨(h.gap gap hgap).1.trans (Nat.le_succ _), (h.gap gap hgap).2⟩
  stamp gap stamp htold := (h.stamp gap stamp htold).trans (Nat.le_succ _)
  silent hheard := by cases hheard
  visible _ := .event (by simp)

theorem Sound.lose (h : Sound f) {owed : Bool} (hnoticed : owed = true ∨ .marker ∈ f.line) :
    Sound { f with published := f.published + 1, heard := true, owed := owed } where
  sorted := h.sorted
  bounded number hmem := (h.bounded number hmem).trans (Nat.le_succ _)
  cursor cursor hcursor := (h.cursor cursor hcursor).trans (Nat.le_succ _)
  gap gap hgap := ⟨(h.gap gap hgap).1.trans (Nat.le_succ _), (h.gap gap hgap).2⟩
  stamp gap stamp htold := (h.stamp gap stamp htold).trans (Nat.le_succ _)
  silent hheard := by cases hheard
  visible _ := by
    obtain howed | hmarker := hnoticed
    · exact .owed howed
    · exact .marker hmarker

theorem Sound.announce (h : Sound f) (hline : f.line = before ++ after) (hheard : f.heard = true) :
    Sound { f with line := before ++ .marker :: after, owed := false } where
  sorted := by simpa [hline] using h.sorted
  bounded := by simpa [hline] using h.bounded
  cursor := h.cursor
  gap := h.gap
  stamp := h.stamp
  silent hsilent := by
    rw [hheard] at hsilent
    cases hsilent
  visible _ := .marker (by simp)

theorem Sound.tail (h : Sound f) {item : Item} (hline : f.line = item :: rest)
    (hvisible : Visible { f with line := rest }) : Sound { f with line := rest } where
  sorted := (h.of_line (hline ▸ List.sublist_cons_self item rest)).1
  bounded := (h.of_line (hline ▸ List.sublist_cons_self item rest)).2
  cursor := h.cursor
  gap := h.gap
  stamp := h.stamp
  silent hsilent := by
    rw [h.heard (by simp [hline])] at hsilent
    cases hsilent
  visible _ := hvisible

theorem Sound.number_le (h : Sound f) (hline : f.line = .event number :: rest) :
    number ≤ f.published :=
  h.bounded number (by simp [hline])

theorem Sound.deliver (h : Sound f) (hreading : f.stage = .reading)
    (hline : f.line = .event number :: rest)
    (hnext : ∀ cursor, f.cursor = some cursor → number = cursor + 1) :
    Sound { f with line := rest, cursor := some number } where
  sorted := (h.of_line (hline ▸ List.sublist_cons_self _ rest)).1
  bounded := (h.of_line (hline ▸ List.sublist_cons_self _ rest)).2
  cursor cursor hcursor := by
    cases hcursor
    exact h.number_le hline
  gap gap hgap := by
    rw [hreading] at hgap
    cases hgap
  stamp := h.stamp
  silent hsilent := by
    rw [h.heard (by simp [hline])] at hsilent
    cases hsilent
  visible hheard := by
    by_cases hlast : number = f.published
    · exact .seen (by rw [hlast])
    · cases (h.visible hheard).tail hline hlast with
      | owed h => exact .owed h
      | marker h => exact .marker h
      | event h => exact .event h
      | asked gap h => exact .asked gap h
      | told gap h => exact .told gap h
      | seen hseen =>
        have hnumber : number = f.published + 1 := hnext _ hseen
        have := h.number_le hline
        omega

theorem Sound.skip (h : Sound f) (hline : f.line = .event number :: rest)
    (hseen : f.cursor = some cursor)
    (hstale : number ≤ cursor) : Sound { f with line := rest } := by
  refine h.tail hline ?_
  have hcursor := h.cursor cursor hseen
  by_cases hlast : number = f.published
  · exact .seen (by rw [hseen, show cursor = f.published by omega])
  · exact (h.visible (h.heard (by simp [hline]))).tail hline hlast

/-- What the receiver asks for covers everything. -/
theorem Sound.ask (h : Sound f) {item : Item} {gap : Option ℕ} (hline : f.line = item :: rest)
    (hgap : ∀ g, gap = some g → g ≤ f.published ∧ ∀ cursor, f.cursor = some cursor → cursor < g) :
    Sound { f with line := rest, stage := .asked gap } where
  sorted := (h.of_line (hline ▸ List.sublist_cons_self item rest)).1
  bounded := (h.of_line (hline ▸ List.sublist_cons_self item rest)).2
  cursor := h.cursor
  gap := hgap
  stamp _ _ htold := by cases htold
  silent hsilent := by
    rw [h.heard (by simp [hline])] at hsilent
    cases hsilent
  visible _ := .asked gap rfl

theorem Sound.evict (h : Sound f) (hline : f.line = .event number :: rest) (hmore : rest ≠ []) :
    Sound { f with line := rest } := by
  refine h.tail hline ?_
  by_cases hlast : number = f.published
  · obtain ⟨item, more, rfl⟩ := List.exists_cons_of_ne_nil hmore
    cases item with
    | marker => exact .marker (by simp)
    | event next =>
      have hsorted := h.sorted
      rw [hline, numbers_event, numbers_event, List.pairwise_cons] at hsorted
      have := hsorted.1 next List.mem_cons_self
      have := h.bounded next (by simp [hline])
      omega
  · exact (h.visible (h.heard (by simp [hline]))).tail hline hlast

theorem Sound.heard_of_stage (h : Sound f) (hstage : f.stage ≠ .reading) : f.heard = true := by
  by_contra hheard
  exact hstage (h.silent (by simpa using hheard)).2.2.1

theorem Sound.tell (h : Sound f) {gap : Option ℕ} (hasked : f.stage = .asked gap) :
    Sound { f with stage := .told gap f.published } where
  sorted := h.sorted
  bounded := h.bounded
  cursor := h.cursor
  gap g hg := h.gap g (by rw [hasked]; exact hg)
  stamp _ _ htold := by
    cases htold
    exact le_rfl
  silent hsilent := by
    rw [h.heard_of_stage (by simp [hasked])] at hsilent
    cases hsilent
  visible _ := .told gap rfl

theorem filter_survives_sublist :
    (before.filter (survives cursor) ++ after).Sublist (before ++ after) :=
  List.filter_sublist.append_right after

/-- The snapshot covers what it drops, and what it does not cover is still on its way. -/
theorem Sound.resume (h : Sound f) {gap : Option ℕ} {stamp : ℕ} (htold : f.stage = .told gap stamp)
    (hline : f.line = before ++ after) (hcursor : cursor = max stamp (gap.getD (f.cursor.getD 0))) :
    Sound { f with
    line := before.filter (survives cursor) ++ after, stage := .reading, cursor :=
      some cursor } := by
  have hrest : (before.filter (survives cursor) ++ after).Sublist f.line := by
    rw [hline]
    exact filter_survives_sublist
  have hsub := h.of_line hrest
  have hgap : ∀ g, gap = some g → g ≤ f.published ∧ ∀ cursor, f.cursor = some cursor → cursor < g :=
    fun g hg => h.gap g (by rw [htold]; exact hg)
  have hstamp : stamp ≤ f.published := h.stamp gap stamp htold
  have hle : cursor ≤ f.published := by
    refine hcursor.trans_le (max_le hstamp ?_)
    cases gap with
    | some g => exact (hgap g rfl).1
    | none =>
      cases hlast : f.cursor with
      | none => exact Nat.zero_le _
      | some last => exact h.cursor last hlast
  have hseen : f.published ≤ cursor → cursor = f.published := fun hge => le_antisymm hle hge
  refine ⟨hsub.1, hsub.2, ?_, ?_, ?_, ?_, fun _ => ?_⟩
  · rintro _ ⟨⟩
    exact hle
  · rintro _ ⟨⟩
  · rintro _ _ ⟨⟩
  · intro hsilent
    rw [h.heard_of_stage (by simp [htold])] at hsilent
    cases hsilent
  · cases h.visible (h.heard_of_stage (by simp [htold])) with
    | owed howed => exact .owed howed
    | marker hmarker =>
      rw [hline, List.mem_append] at hmarker
      refine .marker (List.mem_append.mpr ?_)
      exact hmarker.imp_left fun hmem => List.mem_filter.mpr ⟨hmem, rfl⟩
    | event hevent =>
      by_cases hcovered : f.published ≤ cursor
      · exact .seen (congrArg some (hseen hcovered))
      · rw [hline, List.mem_append] at hevent
        refine .event (List.mem_append.mpr ?_)
        exact hevent.imp_left fun hmem =>
          List.mem_filter.mpr ⟨hmem, by simpa [survives] using hcovered⟩
    | asked gap' hasked =>
      rw [htold] at hasked
      cases hasked
    | told gap' htold' =>
      rw [htold] at htold'
      cases htold'
      exact .seen (congrArg some (hseen (hcursor ▸ le_max_left _ _)))
    | seen hlast =>
      cases gap with
      | some g =>
        obtain ⟨hg, hbelow⟩ := hgap g rfl
        have := hbelow _ hlast
        omega
      | none =>
        refine .seen (congrArg some (hseen ?_))
        rw [hcursor, hlast]
        exact le_max_right _ _

/-- **A step keeps a feed sound.** -/
theorem step_sound (h : Sound f) (hstep : Step f f') : Sound f' := by
  cases hstep with
  | stays => exact h
  | elsewhere hsilent =>
    obtain ⟨hline, hcursor, hstage, howed⟩ := h.silent hsilent
    refine ⟨h.sorted, fun number hmem => (h.bounded number hmem).trans (Nat.le_succ _), ?_, ?_, ?_,
      fun _ => ?_, ?_⟩
    · exact fun cursor hcursor => (h.cursor cursor hcursor).trans (Nat.le_succ _)
    · exact fun gap hgap => ⟨(h.gap gap hgap).1.trans (Nat.le_succ _), (h.gap gap hgap).2⟩
    · exact fun gap stamp htold => (h.stamp gap stamp htold).trans (Nat.le_succ _)
    · exact ⟨hline, hcursor, hstage, howed⟩
    · intro hheard
      exact absurd hheard (by simp [hsilent])
  | publish => exact h.publish
  | lose owed hnoticed => exact h.lose hnoticed
  | announce before after hline hheard => exact h.announce hline hheard
  | deliver number rest hreading hline hnext => exact h.deliver hreading hline hnext
  | skip number cursor rest _ hline hseen hstale => exact h.skip hline hseen hstale
  | gap number rest _ hline hahead =>
    refine h.ask hline ?_
    rintro _ ⟨⟩
    exact ⟨h.number_le hline, hahead⟩
  | resync rest _ hline => exact h.ask hline (by rintro _ ⟨⟩)
  | evict number rest hline hmore => exact h.evict hline hmore
  | tell gap hasked => exact h.tell hasked
  | resume gap stamp cursor before after htold hline hcursor => exact h.resume htold hline hcursor

/-- **Where nothing is on its way, the receiver is up to date.** -/
theorem Sound.settled (h : Sound f) (hline : f.line = []) (hreading : f.stage = .reading)
    (howed : f.owed = false) :
    (f.heard = false ∧ f.cursor = none) ∨ f.cursor = some f.published := by
  cases hheard : f.heard with
  | false => exact .inl ⟨rfl, (h.silent hheard).2.1⟩
  | true =>
    cases h.visible hheard with
    | owed h => simp [howed] at h
    | marker h => simp [hline] at h
    | event h => simp [hline] at h
    | asked gap h => simp [hreading] at h
    | told gap h => simp [hreading] at h
    | seen h => exact .inr h

end Resync
