import ProtonWire.Facade.Steps

/-!
# The disk follows memory

Every step of the facade is one of a store whose writes are applied behind, so the disk follows
memory.

* `PersistenceFacade.Placed`, `PersistenceFacade.Orderly`: what the stage of a pass and the shutdown
  tell;
* **`PersistenceFacade.step_replica`**: every step is one of the abstract store;
* **`PersistenceFacade.facade_converges`**: the disk takes of each key only newer operations, and
  with every lane empty it is what memory serves.
-/

namespace ProtonWire

open Facade WriteBehind

namespace Facade

/-- The operation in hand is on the disk. -/
def PassStage.durable : PassStage → Bool
  | applied | recovering | counting => true
  | _ => false

/-- The operation in hand has failed. -/
def PassStage.refused : PassStage → Bool
  | failed _ | resetting => true
  | _ => false

end Facade

namespace PersistenceFacade

variable {s s' : PersistenceFacade} {version : CacheKey → ℕ}

/-! ## Where the operations are -/

/-- The operation in hand is on the disk or not, as the stage says, and what is tried again is
not. -/
structure Placed (s : PersistenceFacade) : Prop where
  durable : ∀ op rest stage next, s.pc = .pass (op :: rest) stage next → stage.durable = true →
    ¬ op.Fresh s.applied
  refused : ∀ op rest stage next, s.pc = .pass (op :: rest) stage next → stage.refused = true →
    op.Fresh s.applied
  retries : ∀ w ∈ s.retry.ops, w.Fresh s.applied

/-- Outside the stages that tell, with no more to try again. -/
theorem Placed.goto (h : s.Placed) (happlied : s'.lastApplied = s.lastApplied)
    (hretry : s'.retry.ops ⊆ s.retry.ops)
    (hpc : ∀ op rest stage next, s'.pc = .pass (op :: rest) stage next →
      stage.durable = false ∧ stage.refused = false ∨
        ∃ stage', s.pc = .pass (op :: rest) stage' next ∧ stage.durable = stage'.durable ∧
          stage.refused = stage'.refused) : s'.Placed := by
  have heq : s'.applied = s.applied := by
    funext key
    unfold applied
    rw [happlied]
  refine ⟨fun op rest stage next hat hstage => ?_, fun op rest stage next hat hstage => ?_,
    fun w hw => ?_⟩
  · rw [heq]
    rcases hpc op rest stage next hat with ⟨hnot, -⟩ | ⟨stage', hat', hdurable, -⟩
    · rw [hnot] at hstage
      cases hstage
    · exact h.durable op rest stage' next hat' (hdurable ▸ hstage)
  · rw [heq]
    rcases hpc op rest stage next hat with ⟨-, hnot⟩ | ⟨stage', hat', -, hrefused⟩
    · rw [hnot] at hstage
      cases hstage
    · exact h.refused op rest stage' next hat' (hrefused ▸ hstage)
  · rw [heq]
    exact h.retries w (hretry hw)

theorem Placed.passStep (h : s.Placed) (hpos : ∀ w ∈ s.flight, 0 < w.seq) (now : ℕ)
    (result : Except String Unit) {op : KeyOp} {rest : List KeyOp} {next : Next} {stage : PassStage}
    (hpc : s.pc = .pass (op :: rest) stage next) :
    (s.passStep now result op rest next stage).1.Placed := by
  have hmem : op ∈ s.flight := mem_flight.mpr
    (.inr (.inr (.inr (.inr (by rw [hpc]; exact List.mem_cons_self ..)))))
  have hnext : ∀ s' : PersistenceFacade, s'.lastApplied = s.lastApplied →
    s'.retry.ops ⊆ s.retry.ops →
      s'.pc = .pass rest .attempt next → s'.Placed := by
    intro s' happlied hretry hpc'
    refine h.goto happlied hretry fun op' rest' stage' next' hat => .inl ?_
    rw [hpc'] at hat
    cases hat
    exact ⟨rfl, rfl⟩
  have hstage : ∀ (s' : PersistenceFacade) (stage' : PassStage), s'.lastApplied = s.lastApplied →
      s'.retry.ops ⊆ s.retry.ops → s'.pc = .pass (op :: rest) stage' next →
      stage'.durable = stage.durable →
      stage'.refused = stage.refused → s'.Placed := by
    intro s' stage' happlied hretry hpc' hdurable hrefused
    refine h.goto happlied hretry fun op' rest' stage'' next' hat => .inr ?_
    rw [hpc'] at hat
    cases hat
    exact ⟨stage, hpc, hdurable, hrefused⟩
  cases stage with
  | attempt =>
    rw [PersistenceFacade.passStep]
    unfold attempt
    split_ifs with hguard
    · exact hnext _ rfl (List.Subset.refl _) rfl
    · have hfresh := fresh_of_guard (hpos op hmem) hguard
      cases result with
      | error message =>
        refine ⟨fun op' rest' stage' next' hat hstage => ?_,
          fun op' rest' stage' next' hat hstage => ?_, h.retries⟩
        · cases hat
          cases hstage
        · cases hat
          exact hfresh
      | ok =>
        have happlied : ({ s.noteApplied op with pc := .pass (op :: rest) .applied next } :
          PersistenceFacade).applied =
            Function.update s.applied op.key op.seq := applied_noteApplied s op
        refine ⟨fun op' rest' stage' next' hat hstage => ?_,
          fun op' rest' stage' next' hat hstage => ?_,
          fun w hw => ?_⟩
        · cases hat
          rw [happlied]
          unfold Write.Fresh
          rw [Function.update_self]
          exact lt_irrefl _
        · cases hat
          cases hstage
        · obtain ⟨hold, hnew⟩ := RetryLane.mem_noteSuccess.mp hw
          have hwait := h.retries w hold
          rw [happlied]
          unfold Write.Fresh at hwait ⊢
          by_cases hkey : w.key = op.key
          · rw [hkey, Function.update_self]
            exact not_le.mp fun hle => hnew ⟨hkey, hle⟩
          · rw [Function.update_of_ne hkey]
            exact hwait
  | applied =>
    rw [PersistenceFacade.passStep]
    split_ifs
    · exact hstage _ .recovering rfl (List.Subset.refl _) rfl rfl rfl
    · exact hstage _ .counting rfl (List.Subset.refl _) rfl rfl rfl
  | recovering => exact hstage _ .counting rfl (List.Subset.refl _) rfl rfl rfl
  | counting => exact hnext _ rfl (List.Subset.refl _) rfl
  | failed message => exact hstage _ .resetting rfl (List.Subset.refl _) rfl rfl rfl
  | resetting =>
    refine ⟨fun op' rest' stage' next' hat hstage => ?_, fun op' rest' stage' next' hat hstage =>
      ?_, fun w hw => ?_⟩
    · cases hat
      cases hstage
    · cases hat
      cases hstage
    · rcases RetryLane.retain_subset hw with hw | rfl
      · exact h.retries w hw
      · exact h.refused w rest .resetting next hpc rfl

theorem Placed.workerStep (h : s.Placed) (hpos : ∀ w ∈ s.flight, 0 < w.seq) (now : ℕ)
    (result : Except String Unit) :
    (s.workerStep now result).1.Placed := by
  have hleave : ∀ s' : PersistenceFacade, s'.lastApplied = s.lastApplied →
    s'.retry.ops ⊆ s.retry.ops →
      (∀ op rest stage next, s'.pc = .pass (op :: rest) stage next → stage = .attempt) →
      s'.Placed := by
    intro s' happlied hretry hpc'
    refine h.goto happlied hretry fun op rest stage next hat => .inl ?_
    rw [hpc' op rest stage next hat]
    exact ⟨rfl, rfl⟩
  have happly : ∀ (batch : List Op) (next : Next) op rest stage next',
    WorkerPc.applyPass batch next =
      .pass (op :: rest) stage next' → stage = .attempt := by
    intro batch next op rest stage next' heq
    exact (WorkerPc.pass.inj heq).2.1.symm
  unfold PersistenceFacade.workerStep
  cases hpc : s.pc with
  | takeReady =>
    refine hleave _ rfl (fun w hw => (RetryLane.mem_takeReady now).mpr (.inr hw))
      fun op rest stage next hat => ?_
    cases hat
  | drainOverflow batch =>
    refine hleave _ rfl (List.Subset.refl _) fun op rest stage next hat => ?_
    dsimp only at hat
    split_ifs at hat
    exact happly _ _ op rest stage next hat
  | recv =>
    dsimp only
    split
    · refine hleave _ rfl (List.Subset.refl _) fun op rest stage next hat => ?_
      cases hat
    · refine hleave _ rfl (List.Subset.refl _) fun op rest stage next hat => ?_
      dsimp only at hat
      split_ifs at hat
  | tryRecv batch =>
    dsimp only
    split_ifs
    · split
      · refine hleave _ rfl (List.Subset.refl _) fun op rest stage next hat => ?_
        cases hat
      · exact hleave _ rfl (List.Subset.refl _) (happly batch .takeReady)
    · exact hleave _ rfl (List.Subset.refl _) (happly batch .takeReady)
  | pass ops stage next =>
    cases ops with
    | nil =>
      refine hleave _ rfl (List.Subset.refl _) fun op rest stage next' hat => ?_
      cases next <;> cases hat
    | cons op rest => exact h.passStep hpos now result hpc
  | finalDrain =>
    refine hleave _ rfl (List.nil_subset _) fun op rest stage next hat => ?_
    dsimp only at hat
    split_ifs at hat
    exact happly _ _ op rest stage next hat
  | finalRecord =>
    dsimp only
    split_ifs
    · refine hleave _ rfl (List.Subset.refl _) fun op rest stage next hat => ?_
      cases hat
    · refine hleave _ rfl (List.Subset.refl _) fun op rest stage next hat => ?_
      cases hat
  | finalReset | exiting =>
    refine hleave _ rfl (List.Subset.refl _) fun op rest stage next hat => ?_
    cases hat
  | exited => exact h

theorem callStep_frame (s : PersistenceFacade) (index : ℕ) :
    (s.callStep index).lastApplied = s.lastApplied ∧ (s.callStep index).retry = s.retry ∧
      (s.callStep index).pc = s.pc ∧ (s.callStep index).seq = s.seq ∧
      (s.callStep index).dropped = s.dropped := by
  unfold callStep
  split
  · exact ⟨rfl, rfl, rfl, rfl, rfl⟩
  · split_ifs <;> exact ⟨rfl, rfl, rfl, rfl, rfl⟩
  · exact ⟨rfl, rfl, rfl, rfl, rfl⟩
  · exact ⟨rfl, rfl, rfl, rfl, rfl⟩
  · exact ⟨rfl, rfl, rfl, rfl, rfl⟩

theorem Placed.step (h : s.Placed) (hpos : ∀ w ∈ s.flight, 0 < w.seq) (action : Action) :
    (s.step action).1.Placed := by
  have hstay : ∀ s' : PersistenceFacade, s'.lastApplied = s.lastApplied → s'.retry = s.retry →
    s'.pc = s.pc →
      s'.Placed := by
    intro s' happlied hretry hpc
    refine h.goto happlied (by rw [hretry]; exact List.Subset.refl _) fun op rest stage next hat =>
      .inr ?_
    exact ⟨stage, hpc ▸ hat, rfl, rfl⟩
  cases action with
  | put key bytes =>
    dsimp only [PersistenceFacade.step, put]
    split_ifs
    · exact h
    · exact hstay _ rfl rfl rfl
    · exact hstay _ rfl rfl rfl
  | remove key | clearAll =>
    dsimp only [PersistenceFacade.step]
    split_ifs
    · exact h
    · exact hstay _ rfl rfl rfl
  | call index =>
    obtain ⟨happlied, hretry, hpc, -⟩ := callStep_frame s index
    exact hstay _ happlied hretry hpc
  | drop =>
    dsimp only [PersistenceFacade.step]
    split_ifs
    · exact hstay _ rfl rfl rfl
    · exact h
  | worker now result => exact h.workerStep hpos now result

theorem passStep_frame (s : PersistenceFacade) (now : ℕ) (result : Except String Unit) (op : KeyOp)
    (rest : List KeyOp) (next : Next) (stage : PassStage) :
    (s.passStep now result op rest next stage).1.calls = s.calls ∧
      (s.passStep now result op rest next stage).1.seq = s.seq ∧
      (s.passStep now result op rest next stage).1.dropped = s.dropped ∧
      ∃ ops stage', (s.passStep now result op rest next stage).1.pc = .pass ops stage' next := by
  cases stage with
  | attempt =>
    rw [passStep]
    unfold attempt
    split_ifs
    · exact ⟨rfl, rfl, rfl, _, _, rfl⟩
    · cases result with
      | ok => exact ⟨rfl, rfl, rfl, _, _, rfl⟩
      | error message => exact ⟨rfl, rfl, rfl, _, _, rfl⟩
  | applied =>
    rw [passStep]
    split_ifs
    · exact ⟨rfl, rfl, rfl, _, _, rfl⟩
    · exact ⟨rfl, rfl, rfl, _, _, rfl⟩
  | recovering | counting | failed message | resetting => exact ⟨rfl, rfl, rfl, _, _, rfl⟩

theorem workerStep_frame (s : PersistenceFacade) (now : ℕ) (result : Except String Unit) :
    (s.workerStep now result).1.calls = s.calls ∧ (s.workerStep now result).1.seq = s.seq ∧
      (s.workerStep now result).1.dropped = s.dropped ∧
      ((s.workerStep now result).1.pc.closing = true → s.pc.closing = true ∨ s.dropped = true) := by
  unfold workerStep
  cases hpc : s.pc with
  | takeReady => exact ⟨rfl, rfl, rfl, fun h => by cases h⟩
  | drainOverflow batch =>
    refine ⟨rfl, rfl, rfl, fun h => ?_⟩
    dsimp only at h
    split_ifs at h <;> cases h
  | recv =>
    dsimp only
    split
    · exact ⟨rfl, rfl, rfl, fun h => by cases h⟩
    · refine ⟨rfl, rfl, rfl, fun h => ?_⟩
      cases hdropped : s.dropped with
      | true => exact .inr rfl
      | false =>
        rw [hdropped] at h
        cases h
  | tryRecv batch =>
    dsimp only
    split_ifs
    · split
      · exact ⟨rfl, rfl, rfl, fun h => by cases h⟩
      · exact ⟨rfl, rfl, rfl, fun h => by cases h⟩
    · exact ⟨rfl, rfl, rfl, fun h => by cases h⟩
  | pass ops stage next =>
    cases ops with
    | nil =>
      refine ⟨rfl, rfl, rfl, fun h => ?_⟩
      cases next with
      | finalRecord => exact .inl rfl
      | recv | takeReady => cases h
    | cons op rest =>
      obtain ⟨hcalls, hseq, hdropped, ops, stage', hpc'⟩ :=
        passStep_frame s now result op rest next stage
      refine ⟨hcalls, hseq, hdropped, fun h => ?_⟩
      dsimp only at h
      rw [hpc'] at h
      cases next with
      | finalRecord => exact .inl rfl
      | recv | takeReady => cases h
  | finalDrain | finalReset | exiting | exited => exact ⟨rfl, rfl, rfl, fun _ => .inl rfl⟩
  | finalRecord =>
    dsimp only
    split_ifs
    · exact ⟨rfl, rfl, rfl, fun _ => .inl rfl⟩
    · exact ⟨rfl, rfl, rfl, fun _ => .inl rfl⟩

theorem Orderly.step (h : s.Orderly) (action : Action) : (s.step action).1.Orderly := by
  cases action with
  | put key bytes =>
    cases hdropped : s.dropped with
    | true => simpa [PersistenceFacade.step, hdropped] using h
    | false =>
      simp only [PersistenceFacade.step, hdropped, Bool.false_eq_true, if_false]
      unfold put
      split_ifs
      · exact ⟨fun hclosing => h.closing hclosing, fun hgone => by cases hdropped.symm.trans hgone⟩
      · exact ⟨fun hclosing => h.closing hclosing, fun hgone => by cases hdropped.symm.trans hgone⟩
  | remove key | clearAll =>
    cases hdropped : s.dropped with
    | true => simpa [PersistenceFacade.step, hdropped] using h
    | false =>
      simp only [PersistenceFacade.step, hdropped, Bool.false_eq_true, if_false]
      exact ⟨fun hclosing => h.closing hclosing, fun hgone => by cases hdropped.symm.trans hgone⟩
  | call index =>
    obtain ⟨-, -, hpc, -, hdropped⟩ := callStep_frame s index
    refine ⟨fun hclosing => ?_, fun hgone => ?_⟩
    · exact hdropped.trans (h.closing (hpc ▸ hclosing))
    · have hcalls := h.dropped (hdropped.symm.trans hgone)
      simp [PersistenceFacade.step, callStep, hcalls]
  | drop =>
    cases hcalls : s.calls.isEmpty with
    | true =>
      simp only [PersistenceFacade.step, hcalls, if_true]
      exact ⟨fun _ => rfl, fun _ => List.isEmpty_iff.mp hcalls⟩
    | false => simpa [PersistenceFacade.step, hcalls] using h
  | worker now result =>
    obtain ⟨hcalls, -, hdropped, hclosing⟩ := workerStep_frame s now result
    refine ⟨fun hlate => ?_, fun hgone => ?_⟩
    · rcases hclosing hlate with hearly | hgone
      · exact hdropped.trans (h.closing hearly)
      · exact hdropped.trans hgone
    · exact hcalls.trans (h.dropped (hdropped.symm.trans hgone))

/-! ## Runs -/

/-- **Every step is one of a store whose writes are applied behind.** -/
theorem step_replica (horderly : s.Orderly) (hplaced : s.Placed) (hpos : ∀ w ∈ s.flight, 0 < w.seq)
    (hle : ∀ key, version key ≤ s.seq) (action : Action) :
    ∃ version', (∀ key, version' key ≤ (s.step action).1.seq) ∧
      Replica.Step (s.replica version) ((s.step action).1.replica version') (s.step action).2 := by
  have hstay : ∃ version', (∀ key, version' key ≤ s.seq) ∧ Replica.Step (s.replica version)
    (s.replica version') [] :=
    ⟨version, hle, settle_step rfl rfl rfl (.refl _ _)⟩
  cases action with
  | put key bytes =>
    cases hdropped : s.dropped with
    | true => simpa [step, hdropped] using hstay
    | false => simpa [step, hdropped] using put_step hle key bytes
  | remove key =>
    cases hdropped : s.dropped with
    | true => simpa [step, hdropped] using hstay
    | false => simpa [step, hdropped] using remove_step hle key
  | clearAll =>
    cases hdropped : s.dropped with
    | true => simpa [step, hdropped] using hstay
    | false => simpa [step, hdropped] using clearAll_step hle
  | call index =>
    obtain ⟨-, -, -, hseq, -⟩ := callStep_frame s index
    exact ⟨version, fun key => (hle key).trans_eq hseq.symm, callStep_step horderly index⟩
  | drop =>
    have hdrop : ∀ dropped, Replica.Step (s.replica version)
      ({ s with dropped := dropped }.replica version) [] :=
      fun _ => settle_step rfl rfl rfl (.refl _ _)
    cases hcalls : s.calls.isEmpty with
    | true => simpa [step, hcalls] using ⟨version, hle, hdrop true⟩
    | false => simpa [step, hcalls] using hstay
  | worker now result =>
    exact ⟨version, fun key => (hle key).trans_eq (workerStep_frame s now result).2.1.symm,
      workerStep_step hpos (fun op rest next hat => hplaced.durable op rest .counting next hat rfl)
        now result⟩

/-- What holds after a run, with the operations that the disk has taken. -/
structure Sound (s : PersistenceFacade) (history : List KeyOp) : Prop where
  orderly : s.Orderly
  placed : s.Placed
  replica : ∃ version, (s.replica version).Inv ∧ (s.replica version).Ordered history ∧
    ∀ key, version key ≤ s.seq

theorem sound_start (disk : CacheKey → Option (List UInt8)) : (start disk).Sound [] := by
  have hflight : (start disk).flight = ∅ := by
    ext w
    rw [mem_flight]
    simp [start, callWrites, writes, RetryLane.ops, WorkerPc.batch]
  refine ⟨⟨by simp [start, WorkerPc.closing], by simp [start]⟩, ⟨?_, ?_, ?_⟩, fun _ => 0,
    ?_, ?_, ?_⟩
  · intro op rest stage next hat
    cases hat
  · intro op rest stage next hat
    cases hat
  · intro w hw
    cases hw
  · refine ⟨?_, ?_, ?_, fun _ => le_rfl, fun _ _ => rfl, fun _ hlt => absurd hlt (lt_irrefl 0)⟩
    · intro w hw
      rw [replica, hflight] at hw
      cases hw
    · intro w hw
      rw [replica, hflight] at hw
      cases hw
    · intro w hw
      rw [replica, hflight] at hw
      cases hw
  · exact ⟨.nil, by simp⟩
  · exact fun _ => le_rfl

theorem sound_step {history : List KeyOp} (h : s.Sound history) (action : Action) :
    (s.step action).1.Sound (history ++ (s.step action).2) := by
  obtain ⟨version, hinv, hordered, hle⟩ := h.replica
  obtain ⟨version', hle', hstep⟩ := step_replica h.orderly h.placed hinv.pos hle action
  exact ⟨h.orderly.step action, h.placed.step hinv.pos action, version', hstep.inv hinv,
    hstep.ordered hordered, hle'⟩

theorem sound_run (disk : CacheKey → Option (List UInt8)) (actions : List Action) :
    (Machine.run step (start disk) actions).1.Sound (Machine.run step (start disk) actions).2 :=
  Machine.run_inv Sound (fun _ _ action h => sound_step h action) (start disk) []
  (sound_start disk) actions

/-- No callback is mid-call, and the queue, the lanes and the worker's hands are empty. -/
structure Drained (s : PersistenceFacade) : Prop where
  calls : s.calls = []
  queue : s.queue = []
  overflow : s.overflow = []
  retry : s.retry.pending = []
  batch : s.pc.batch = []

theorem Drained.flight (h : s.Drained) : s.flight = ∅ := by
  ext w
  rw [mem_flight, h.calls, h.queue, h.overflow, h.batch, RetryLane.ops, h.retry]
  simp [callWrites]

/-- **The disk follows memory.** However callbacks and the worker interleave and whichever writes
fail, the disk takes of each key only operations newer than those before, and with nothing on its
way it holds what memory serves. -/
theorem facade_converges (disk : CacheKey → Option (List UInt8)) (actions : List Action) :
    let run := Machine.run step (start disk) actions
    (run.2.Pairwise fun op op' => op.key = op'.key → op.seq < op'.seq) ∧
      (run.1.Drained → ∀ key, run.1.disk key = run.1.get key) := by
  intro run
  obtain ⟨version, hinv, hordered, -⟩ := (sound_run disk actions).replica
  exact ⟨hordered.ordered, fun hdrained key => hinv.synced hdrained.flight key⟩

end PersistenceFacade

end ProtonWire
