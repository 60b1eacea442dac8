import ProtonWire.Facade.Lanes

/-!
# A pass is the plain log

A pass of the worker coalesces its batch, and takes what is left in an order of its own. What it
leaves on the disk is what the operations leave when each is applied by itself, in the order of
their sequences.

* `logStep`, `plainLog`: the operations one by one, in the order of their sequences;
* `plainLog_eq`: the log comes to what `coalesce` does;
* `Succeeds`, `Passing`: a pass whose writes succeed, among steps of the callbacks;
* **`PersistenceFacade.pass_refines_log`**: the disk and the watermarks after a pass.
-/

namespace ProtonWire

open WriteBehind

namespace Facade

/-- The disk and the watermarks. -/
abbrev Store := Durable CacheKey (List UInt8)

/-- One operation of the log: a `ClearAll` removes every key, unless the disk took a newer operation
of it. -/
def logStep (d : Store) : Op → Store
  | .keyed op => d.take op
  | .clearAll seq =>
    ⟨fun key => if d.stale key seq then d.disk key else none,
      fun key => if d.stale key seq then d.applied key else some seq⟩

/-- The batch as a log, in the order of the sequences. -/
def plainLog (d : Store) (batch : List Op) : Store :=
  (batch.mergeSort fun a b => a.seq ≤ b.seq).foldl logStep d

theorem logStep_eq (d : Store) (op : Op) : logStep d op = op.expandPerKey.foldl Durable.take d := by
  cases op with
  | keyed op => rfl
  | clearAll seq =>
    have hkey : ∀ key,
        (logStep d (.clearAll seq)).disk key =
        ((Op.clearAll seq).expandPerKey.foldl Durable.take d).disk key ∧
          (logStep d (.clearAll seq)).applied key =
            ((Op.clearAll seq).expandPerKey.foldl Durable.take d).applied key := by
      intro key
      rcases Durable.outcome_foldl (d := d) (Op.clearAll seq).expandPerKey key with
        ⟨⟨hdisk, happlied⟩, hall⟩ | ⟨w, hw, ⟨hkey, hfresh, -⟩, hdisk, happlied⟩
      · have hmem : (⟨key, none, seq⟩ : KeyOp) ∈ (Op.clearAll seq).expandPerKey :=
          List.mem_map.mpr ⟨key, by cases key <;> simp [CacheKey.allKeys], rfl⟩
        rw [hdisk, happlied]
        exact ⟨if_pos (hall _ hmem rfl), if_pos (hall _ hmem rfl)⟩
      · obtain ⟨key', -, rfl⟩ := List.mem_map.mp hw
        rw [hdisk, happlied]
        exact ⟨if_neg (by simp [hfresh]), if_neg (by simp [hfresh])⟩
    ext1
    · exact funext fun key => (hkey key).1
    · exact funext fun key => (hkey key).2

theorem foldl_logStep (d : Store) (ops : List Op) :
    ops.foldl logStep d = (writes ops).foldl Durable.take d := by
  induction ops generalizing d with
  | nil => rfl
  | cons op ops ih =>
    rw [List.foldl_cons, ih, logStep_eq, writes, writes, List.flatMap_cons, List.foldl_append]

/-- Two operations of different sequences write differently. -/
theorem writes_unique {batch : List Op} (h : (batch.map Op.seq).Nodup) {w w' : KeyOp}
    (hw : w ∈ writes batch)
    (hw' : w' ∈ writes batch) (hkey : w.key = w'.key) (hseq : w.seq = w'.seq) : w = w' := by
  obtain ⟨op, hop, hmem⟩ := mem_writes.mp hw
  obtain ⟨op', hop', hmem'⟩ := mem_writes.mp hw'
  have heq : op.seq = op'.seq := by
    rw [← seq_of_mem_expandPerKey hmem, ← seq_of_mem_expandPerKey hmem', hseq]
  obtain rfl := List.inj_on_of_nodup_map h hop hop' heq
  cases op with
  | keyed op => rw [List.mem_singleton.mp hmem, List.mem_singleton.mp hmem']
  | clearAll seq =>
    obtain ⟨key, -, rfl⟩ := List.mem_map.mp hmem
    obtain ⟨key', -, rfl⟩ := List.mem_map.mp hmem'
    rw [show key = key' from hkey]

/-- **The log comes to what coalescing does.** -/
theorem plainLog_eq (d : Store) {batch : List Op} (h : (batch.map Op.seq).Nodup) :
    (coalesce batch).foldl Durable.take d = plainLog d batch := by
  have hperm : (batch.mergeSort fun a b => a.seq ≤ b.seq).Perm batch := List.mergeSort_perm ..
  have hwrites : ∀ w, w ∈ writes (batch.mergeSort fun a b => a.seq ≤ b.seq) ↔ w ∈ writes batch := by
    intro w
    simp only [mem_writes, hperm.mem_iff]
  rw [plainLog, foldl_logStep]
  refine Durable.foldl_take_congr (fun w hw => (hwrites w).mpr (coalesce_subset batch hw))
    (fun w hw => ?_)
    fun w hw w' hw' => writes_unique h ((hwrites w).mp hw) ((hwrites w').mp hw')
  exact coalesce_covers batch w ((hwrites w).mp hw)

end Facade

open Facade

namespace PersistenceFacade

/-- The disk and the watermarks. -/
def durable (s : PersistenceFacade) : Store := ⟨s.disk, s.lastApplied⟩

/-- A step of a callback, or one of the pass that does not fail. -/
def Succeeds (s : PersistenceFacade) : Action → Prop
  | .worker _ (.ok ()) => s.pc.inPass = true
  | .worker _ (.error _) => False
  | _ => True

/-- The pass comes to `d`, or has come to it. -/
def Passing (d : Store) (s : PersistenceFacade) : Prop :=
  match s.pc with
  | .pass ops .attempt _ => ops.foldl Durable.take s.durable = d
  | .pass (_ :: ops) .applied _ | .pass (_ :: ops) .recovering _ | .pass (_ :: ops) .counting _ =>
    ops.foldl Durable.take s.durable = d
  | .pass _ _ _ => False
  | _ => s.durable = d

variable {d : Store} {s : PersistenceFacade}

theorem callStep_durable (s : PersistenceFacade) (index : ℕ) :
    (s.callStep index).durable = s.durable ∧ (s.callStep index).pc = s.pc := by
  unfold callStep
  split
  · exact ⟨rfl, rfl⟩
  · split_ifs <;> exact ⟨rfl, rfl⟩
  all_goals exact ⟨rfl, rfl⟩

theorem Passing.of_eq {s' : PersistenceFacade} (h : s.Passing d)
    (heq : s'.durable = s.durable ∧ s'.pc = s.pc) :
    s'.Passing d := by
  unfold Passing at *
  rw [heq.1, heq.2]
  exact h

theorem workerStep_passing (now : ℕ) (hpass : s.pc.inPass = true) (h : s.Passing d) :
    (s.workerStep now (.ok ())).1.Passing d := by
  cases hpc : s.pc with
  | pass ops stage next =>
    rw [Passing, hpc] at h
    rw [workerStep, hpc]
    cases ops with
    | nil =>
      cases stage with
      | attempt => cases next <;> exact h
      | _ => exact h.elim
    | cons op ops =>
      cases stage with
      | attempt =>
        show Passing d (s.attempt (.ok ()) op ops next).1
        replace h : ops.foldl Durable.take (s.durable.take op) = d := h
        rw [attempt]
        by_cases hstale : (s.lastApplied op.key).any (fun last => op.seq ≤ last) = true
        · rw [if_pos hstale]
          rwa [Durable.take_of_stale (show s.durable.stale op.key op.seq = true from hstale)] at h
        · rw [if_neg hstale]
          have hfresh : s.durable.stale op.key op.seq = false := Bool.not_eq_true _ ▸ hstale
          rw [Durable.take_of_fresh hfresh] at h
          exact h
      | applied =>
        show Passing d (ite (s.retry.pending.isEmpty = true ∧ s.overflow.isEmpty = true) _ _ : _ ×
          List KeyOp).1
        split_ifs <;> exact h
      | recovering => exact h
      | counting => exact h
      | failed message => exact h.elim
      | resetting => exact h.elim
  | _ =>
    rw [hpc] at hpass
    cases hpass

theorem step_passing {a : Action} (hok : s.Succeeds a) (h : s.Passing d) :
    (s.step a).1.Passing d := by
  cases a with
  | put key bytes =>
    show Passing d (if s.dropped then s else s.put key bytes)
    unfold put
    split_ifs <;> exact h
  | remove key =>
    show Passing d (if s.dropped then s else s.remove key)
    split_ifs <;> exact h
  | clearAll =>
    show Passing d (if s.dropped then s else s.clearAll)
    split_ifs <;> exact h
  | call index => exact h.of_eq (s.callStep_durable index)
  | drop =>
    show Passing d (if s.calls.isEmpty then { s with dropped := true } else s)
    split_ifs <;> exact h
  | worker now result =>
    cases result with
    | ok result => exact workerStep_passing now hok h
    | error message => exact hok.elim

theorem run_passing {as : List Action} (hok : Machine.Along step Succeeds s as) (h : s.Passing d) :
    (Machine.run step s as).1.Passing d := by
  refine Machine.run_inv_of_steps Succeeds (fun s _ => s.Passing d)
    (fun s _ a ha hs => step_passing ha hs) s h as ?_
  intro as₁ a as₂ heq
  exact hok.at_step as₁ a as₂ heq

/-! ## The pass ends -/

/-- The worker comes to the end of its pass by itself. -/
def Ends (s : PersistenceFacade) : Prop :=
  ∃ n, Machine.Along step Succeeds s (List.replicate n (.worker 0 (.ok ()))) ∧
    (Machine.run step s (List.replicate n (.worker 0 (.ok ())))).1.pc.inPass = false

theorem Ends.step (hpass : s.pc.inPass = true) (h : Ends (s.workerStep 0 (.ok ())).1) : Ends s := by
  obtain ⟨n, halong, hend⟩ := h
  exact ⟨n + 1, ⟨hpass, halong⟩, hend⟩

theorem ends_of_pass {ops : List KeyOp} {next : Next} (hpc : s.pc = .pass ops .attempt next) :
    Ends s := by
  induction ops generalizing s with
  | nil =>
    refine Ends.step (by rw [hpc]; rfl) ⟨0, trivial, ?_⟩
    rw [workerStep, hpc]
    cases next <;> rfl
  | cons op ops ih =>
    -- what is written is counted, after the look at the lanes
    have hcounting : ∀ s : PersistenceFacade, s.pc = .pass (op :: ops) .counting next → Ends s := by
      intro s hpc
      refine Ends.step (by rw [hpc]; rfl) (ih ?_)
      rw [workerStep, hpc]
      rfl
    have hrecovering : ∀ s : PersistenceFacade, s.pc = .pass (op :: ops) .recovering next →
      Ends s := by
      intro s hpc
      refine Ends.step (by rw [hpc]; rfl) (hcounting _ ?_)
      rw [workerStep, hpc]
      rfl
    have happlied : ∀ s : PersistenceFacade, s.pc = .pass (op :: ops) .applied next → Ends s := by
      intro s hpc
      by_cases hempty : s.retry.pending.isEmpty = true ∧ s.overflow.isEmpty = true
      · refine Ends.step (by rw [hpc]; rfl) (hrecovering _ ?_)
        rw [workerStep, hpc]
        simp only [passStep, if_pos hempty]
      · refine Ends.step (by rw [hpc]; rfl) (hcounting _ ?_)
        rw [workerStep, hpc]
        simp only [passStep, if_neg hempty]
    by_cases hstale : (s.lastApplied op.key).any (fun last => op.seq ≤ last) = true
    · refine Ends.step (by rw [hpc]; rfl) (ih ?_)
      rw [workerStep, hpc]
      simp only [passStep, attempt, if_pos hstale]
    · refine Ends.step (by rw [hpc]; rfl) (happlied _ ?_)
      rw [workerStep, hpc]
      simp only [passStep, attempt, if_neg hstale]

/-! ## The refinement -/

/-- **A pass is the plain log.** While the pass writes without a failure, among any steps of the
callbacks, its batch comes to what its operations come to one by one, in the order of their
sequences; and the pass ends. -/
theorem pass_refines_log (s : PersistenceFacade) (batch : List Op) (next : Next)
    (hdistinct : (batch.map Op.seq).Nodup) (hpc : s.pc = .applyPass batch next) :
    (∀ as, Machine.Along step Succeeds s as → (Machine.run step s as).1.pc.inPass = false →
      (Machine.run step s as).1.durable = plainLog s.durable batch) ∧ Ends s := by
  refine ⟨fun as halong hend => ?_, ends_of_pass hpc⟩
  have hstart : s.Passing (plainLog s.durable batch) := by
    rw [Passing, hpc]
    exact plainLog_eq s.durable hdistinct
  have h := run_passing halong hstart
  generalize Machine.run step s as = r at *
  obtain ⟨s', events⟩ := r
  rw [Passing] at h
  dsimp only at hend h ⊢
  cases hpc' : s'.pc with
  | pass ops stage next =>
    rw [hpc'] at hend
    cases hend
  | _ =>
    rw [hpc'] at h
    exact h

/-- A put, a `ClearAll` before it and a put before that, the newest first. -/
def mixedBatch : List Op :=
  [.keyed ⟨.certificate, some [1], 3⟩, .clearAll 2, .keyed ⟨.privateKey, some [2], 1⟩]

/-- A pass with that batch, where the session is newer than the `ClearAll`. -/
def mixedPass : PersistenceFacade :=
  { start (fun _ => some [0]) with
    lastApplied := fun key => if key = .apiSession then some 2 else none
    pc := .applyPass mixedBatch .recv }

theorem pass_refines_log_mixed :
    (∀ as, Machine.Along step Succeeds mixedPass as →
     (Machine.run step mixedPass as).1.pc.inPass = false →
      (Machine.run step mixedPass as).1.durable = plainLog mixedPass.durable mixedBatch) ∧
      Ends mixedPass :=
  pass_refines_log mixedPass mixedBatch .recv (by decide) rfl

end PersistenceFacade

end ProtonWire
