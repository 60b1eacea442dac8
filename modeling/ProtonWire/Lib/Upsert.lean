import Mathlib.Data.List.Perm.Basic
import Mathlib.Data.List.SplitBy

/-!
# Rows by key

A table as a list of rows: a change is made to the first row that fits, or to a new row behind them.
And a list read in runs of one key.

* `upsert`: the change;
* `flatMap_upsert_same`, `flatMap_upsert_first`: what a reading of the rows makes of it;
* `flatMap_swap_perm`, `flatMap_filter`: orders of reading;
* `runs`: the runs of one key;
* **`runs_flatMap`**: blocks of one key each, the keys different, are the runs.
-/

namespace Upsert

variable {α β κ ι : Type*}

/-! ## Changing a row -/

/-- Change the first row that fits, or append a new row, changed. -/
def upsert (fits : α → Bool) (change : α → α) (fresh : α) : List α → List α
  | [] => [change fresh]
  | row :: rows => if fits row then change row :: rows else row :: upsert fits change fresh rows

section
variable {fits : α → Bool} {change : α → α} {fresh : α} {rows : List α}

theorem upsert_ne_nil : upsert fits change fresh rows ≠ [] := by
  cases rows with
  | nil => simp [upsert]
  | cons row rows =>
    rw [upsert]
    split_ifs <;> simp

theorem mem_upsert {row : α} (h : row ∈ upsert fits change fresh rows) :
    row ∈ rows ∨ ∃ old, (old ∈ rows ∧ fits old = true ∨ old = fresh) ∧ row = change old := by
  induction rows with
  | nil =>
    rw [upsert, List.mem_singleton] at h
    exact .inr ⟨fresh, .inr rfl, h⟩
  | cons first rows ih =>
    rw [upsert] at h
    split_ifs at h with hfits
    · rcases List.mem_cons.mp h with rfl | h
      · exact .inr ⟨first, .inl ⟨List.mem_cons_self, hfits⟩, rfl⟩
      · exact .inl (List.mem_cons_of_mem first h)
    · rcases List.mem_cons.mp h with rfl | h
      · exact .inl List.mem_cons_self
      rcases ih h with hmem | ⟨old, ⟨hmem, hold⟩ | rfl, rfl⟩
      · exact .inl (List.mem_cons_of_mem first hmem)
      · exact .inr ⟨old, .inl ⟨List.mem_cons_of_mem first hmem, hold⟩, rfl⟩
      · exact .inr ⟨old, .inr rfl, rfl⟩

theorem flatMap_upsert_same {read : α → List β} (hsame : ∀ row, read (change row) = read row)
    (hfresh : read fresh = []) :
    (upsert fits change fresh rows).flatMap read = rows.flatMap read := by
  induction rows with
  | nil => simp [upsert, hsame, hfresh]
  | cons row rows ih =>
    rw [upsert]
    split_ifs
    · simp [hsame]
    · simp [ih]

theorem flatMap_upsert_first {read : α → List β} {items : List β}
    (hnone : ∀ row ∈ rows, read row = [])
    (hfits : ∀ row, fits row = true → read (change row) = items)
    (hfresh : read (change fresh) = items) :
    (upsert fits change fresh rows).flatMap read = items := by
  induction rows with
  | nil => simp [upsert, hfresh]
  | cons row rows ih =>
    have hrest : ∀ row ∈ rows, read row = [] := fun row h => hnone row (List.mem_cons_of_mem _ h)
    rw [upsert]
    split_ifs with h
    · simp [hfits row h, List.flatMap_eq_nil_iff.mpr hrest]
    · simp [ih hrest, hnone row List.mem_cons_self]

/-- The keys stay different when the change keeps them and the rows that fit are those of the new
key. -/
theorem nodup_map_upsert {key : α → κ} (hkey : ∀ row, key (change row) = key row)
    (hfits : ∀ row, fits row = true ↔ key row = key fresh) (h : (rows.map key).Nodup) :
    ((upsert fits change fresh rows).map key).Nodup := by
  induction rows with
  | nil => simp [upsert]
  | cons row rows ih =>
    obtain ⟨hrow, hrows⟩ := List.nodup_cons.mp h
    rw [upsert]
    split_ifs with hrowFits
    · rw [List.map_cons, hkey]
      exact h
    rw [List.map_cons, List.nodup_cons]
    refine ⟨fun hmem => ?_, ih hrows⟩
    obtain ⟨other, hother, heq⟩ := List.mem_map.mp hmem
    rcases mem_upsert hother with hother | ⟨old, hold, rfl⟩
    · exact hrow (List.mem_map.mpr ⟨other, hother, heq⟩)
    -- the changed row has the new key, which `row` has not
    have hnew : key old = key fresh := by
      rcases hold with ⟨-, hold⟩ | rfl
      · exact (hfits old).mp hold
      · rfl
    rw [hkey, hnew] at heq
    exact hrowFits ((hfits row).mpr heq.symm)

end

/-! ## Orders of reading -/

theorem flatMap_swap_perm (f : α → κ → List β) (as : List α) (bs : List κ) :
    (as.flatMap fun a => bs.flatMap (f a)).Perm (bs.flatMap fun b => as.flatMap (f · b)) := by
  induction as with
  | nil => simp
  | cons a as ih =>
    simp only [List.flatMap_cons]
    exact (ih.append_left _).trans (List.flatMap_append_perm bs (f a) _)

theorem flatMap_filter (p : α → Bool) (read : α → List β) (rows : List α) :
    (rows.filter p).flatMap read = rows.flatMap fun row => if p row = true then read row
    else [] := by
  induction rows with
  | nil => rfl
  | cons row rows ih =>
    rw [List.filter_cons, List.flatMap_cons]
    split_ifs with h
    · rw [List.flatMap_cons, ih]
    · rw [ih, List.nil_append]

/-! ## Runs of one key -/

section
variable [DecidableEq κ] {key : α → κ} {rows : List α}

/-- The runs of rows that stand together and have one key. -/
def runs (key : α → κ) (rows : List α) : List (List α) :=
  rows.splitBy fun a b => key a = key b

theorem flatten_runs : (runs key rows).flatten = rows := List.flatten_splitBy _ _

theorem runs_flatten {blocks : List (List α)} (hne : [] ∉ blocks)
    (hkey : ∀ block ∈ blocks, ∀ a ∈ block, ∀ b ∈ block, key a = key b)
    (hdiff : blocks.Pairwise fun block next => ∀ a ∈ block, ∀ b ∈ next, key a ≠ key b) :
    runs key blocks.flatten = blocks := by
  refine List.splitBy_flatten hne ?_ ?_
  · intro block hblock
    exact List.Pairwise.isChain (List.pairwise_of_forall_mem_list fun a ha b hb =>
      decide_eq_true (hkey block hblock a ha b hb))
  · refine List.Pairwise.isChain (hdiff.imp_of_mem ?_)
    intro block next hblock hnext h
    have hblockNe : block ≠ [] := fun h => hne (h ▸ hblock)
    have hnextNe : next ≠ [] := fun h => hne (h ▸ hnext)
    exact ⟨hblockNe, hnextNe, decide_eq_false
      (h _ (List.getLast_mem hblockNe) _ (List.head_mem hnextNe))⟩

theorem flatMap_runs_perm {each : α → List β} {read : List α → List β}
    (h : ∀ run : List α, (run.flatMap each).Perm (read run)) :
    (rows.flatMap each).Perm ((runs key rows).flatMap read) := by
  have hrows : rows.flatMap each = (runs key rows).flatMap fun run => run.flatMap each := by
    rw [← List.flatMap_assoc, List.flatMap_id', flatten_runs]
  rw [hrows]
  exact List.Perm.flatMap_left _ fun run _ => h run

/-- Blocks that may be empty, with different keys, are the runs up to the empty ones. -/
theorem flatMap_runs_flatMap {sources : List ι} {name : ι → κ} {block : ι → List α}
    {read : List α → List β}
    (hread : read [] = []) (hkey : ∀ source ∈ sources, ∀ a ∈ block source, key a = name source)
    (hdiff : (sources.map name).Nodup) :
    (runs key (sources.flatMap block)).flatMap read = sources.flatMap fun source =>
    read (block source) := by
  have hblocks : sources.flatMap block = ((sources.map block).filter (· ≠ [])).flatten := by
    rw [List.flatten_filter_ne_nil, List.flatMap_def]
  have hruns : runs key (sources.flatMap block) = (sources.map block).filter (· ≠ []) := by
    rw [hblocks]
    refine runs_flatten (by simp) ?_ ?_
    · intro rows hrows a ha b hb
      obtain ⟨source, hsource, rfl⟩ := List.mem_map.mp (List.mem_of_mem_filter hrows)
      rw [hkey source hsource a ha, hkey source hsource b hb]
    · refine List.Pairwise.filter _ (List.pairwise_map.mpr ?_)
      refine (List.pairwise_map.mp hdiff).imp_of_mem ?_
      intro source next hsource hnext hne a ha b hb
      rw [hkey source hsource a ha, hkey next hnext b hb]
      exact hne
  rw [hruns, ← List.flatMap_map block read]
  generalize sources.map block = blocks
  induction blocks with
  | nil => rfl
  | cons rows blocks ih =>
    rw [List.filter_cons, List.flatMap_cons]
    split_ifs with h
    · rw [List.flatMap_cons, ih]
    · have hnil : rows = [] := by simpa using h
      rw [hnil, hread, List.nil_append, ih]

end

end Upsert
