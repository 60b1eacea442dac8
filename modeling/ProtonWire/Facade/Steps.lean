import ProtonWire.Facade.Lanes

/-!
# The facade as a store applied behind

Every step of a callback or the worker issues a write, moves or drops what a newer write supersedes,
or takes one to the disk.

* `PersistenceFacade.flight`, `PersistenceFacade.replica`: the operations on their way, wherever
  they are;
* `issue_step`, `callStep_step`: the steps of a callback;
* `worker_settles`, `applyPass_settles`, `pop_settles`: what the worker moves, coalesces and drops;
* **`PersistenceFacade.workerStep_step`**: a step of the worker is one of the store.
-/

namespace ProtonWire

open Facade WriteBehind

namespace Facade

/-- What a callback has issued and not handed on. -/
def Call.writes : Call → List KeyOp
  | send op => op.expandPerKey
  | park op => op.expandPerKey
  | note _ => []
  | reset => []

/-- What the callbacks have issued and not handed on. -/
def callWrites (calls : List Call) : List KeyOp := calls.flatMap Call.writes

section Calls

variable {calls : List Call} {index : ℕ} {call call' : Call} {w : KeyOp}

theorem mem_callWrites_append :
    w ∈ callWrites (calls ++ [call]) ↔ w ∈ callWrites calls ∨ w ∈ call.writes := by
  simp [callWrites]

theorem mem_callWrites (h : calls[index]? = some call) :
    w ∈ callWrites calls ↔ w ∈ call.writes ∨ w ∈ callWrites (calls.eraseIdx index) := by
  obtain ⟨hlt, rfl⟩ := List.getElem?_eq_some_iff.mp h
  unfold callWrites
  rw [← ((List.getElem_cons_eraseIdx_perm hlt).flatMap_right Call.writes).mem_iff,
    List.flatMap_cons, List.mem_append]

theorem mem_callWrites_set (h : calls[index]? = some call) :
    w ∈ callWrites (calls.set index call') ↔ w ∈ call'.writes ∨
    w ∈ callWrites (calls.eraseIdx index) := by
  obtain ⟨hlt, -⟩ := List.getElem?_eq_some_iff.mp h
  unfold callWrites
  rw [((List.set_perm_cons_eraseIdx hlt call').flatMap_right Call.writes).mem_iff,
    List.flatMap_cons, List.mem_append]

end Calls

/-! ## The lanes -/

theorem parkOverflow_subset {lane : List KeyOp} {op : Op} {w : KeyOp}
    (h : w ∈ parkOverflow lane op) :
    w ∈ lane ∨ w ∈ op.expandPerKey := mem_of_mem_foldl_supersede h

theorem parkOverflow_covers {lane : List KeyOp} {op : Op} {w : KeyOp}
    (h : w ∈ lane ∨ w ∈ op.expandPerKey) :
    ∃ w' ∈ parkOverflow lane op, w'.key = w.key ∧ w.seq ≤ w'.seq := covers_foldl_supersede h

namespace RetryLane

variable {lane : RetryLane} {now : ℕ} {w op : KeyOp}

/-- What is waiting to be tried again. -/
def ops (lane : RetryLane) : List KeyOp := lane.pending.map Pending.op

@[simp] theorem mem_ops : w ∈ lane.ops ↔ ∃ p ∈ lane.pending, p.op = w := List.mem_map

theorem retain_keyed : (lane.retain now (.keyed op)).pending =
    supersede (fun p => p.op.key) (fun p => p.op.seq) lane.pending ⟨op, now + lane.backoff⟩ := rfl

theorem retain_subset (h : w ∈ (lane.retain now (.keyed op)).ops) : w ∈ lane.ops ∨ w = op := by
  obtain ⟨p, hp, rfl⟩ := mem_ops.mp h
  rw [retain_keyed] at hp
  rcases mem_of_mem_supersede hp with hp | rfl
  · exact .inl (mem_ops.mpr ⟨p, hp, rfl⟩)
  · exact .inr rfl

theorem retain_covers (now : ℕ) (h : w ∈ lane.ops ∨ w = op) :
    ∃ w' ∈ (lane.retain now (.keyed op)).ops, w'.key = w.key ∧ w.seq ≤ w'.seq := by
  have hp : ∃ p, (p ∈ lane.pending ∨ p = ⟨op, now + lane.backoff⟩) ∧ p.op = w := by
    rcases h with h | rfl
    · obtain ⟨p, hp, rfl⟩ := mem_ops.mp h
      exact ⟨p, .inl hp, rfl⟩
    · exact ⟨_, .inr rfl, rfl⟩
  obtain ⟨p, hp, rfl⟩ := hp
  have hcover : ∃ e' ∈ (lane.retain now (.keyed op)).pending, e'.op.key = p.op.key ∧
    p.op.seq ≤ e'.op.seq := by
    rw [retain_keyed]
    exact covers_supersede hp
  obtain ⟨e', he', hnewer⟩ := hcover
  exact ⟨e'.op, mem_ops.mpr ⟨e', he', rfl⟩, hnewer⟩

theorem mem_takeReady (now : ℕ) :
    w ∈ lane.ops ↔ w ∈ (lane.takeReady now).1 ∨ w ∈ (lane.takeReady now).2.ops := by
  simp only [takeReady, mem_ops, List.mem_map, List.mem_filter, decide_eq_true_eq]
  constructor
  · rintro ⟨p, hp, rfl⟩
    by_cases hready : p.deadline ≤ now
    · exact .inl ⟨p, ⟨hp, hready⟩, rfl⟩
    · exact .inr ⟨p, ⟨hp, hready⟩, rfl⟩
  · rintro (⟨p, hp, rfl⟩ | ⟨p, hp, rfl⟩)
    · exact ⟨p, hp.1, rfl⟩
    · exact ⟨p, hp.1, rfl⟩

theorem mem_noteSuccess {key : CacheKey} {seq : ℕ} :
    w ∈ (lane.noteSuccess key seq).ops ↔ w ∈ lane.ops ∧ ¬ (w.key = key ∧ w.seq ≤ seq) := by
  simp only [noteSuccess, mem_ops, List.mem_filter, decide_eq_true_eq]
  constructor
  · rintro ⟨p, hp, rfl⟩
    exact ⟨⟨p, hp.1, rfl⟩, hp.2⟩
  · rintro ⟨⟨p, hp, rfl⟩, hnot⟩
    exact ⟨p, ⟨hp, hnot⟩, rfl⟩

end RetryLane

/-- The worker is past its loop, or in the last pass. -/
def WorkerPc.closing : WorkerPc → Bool
  | finalDrain | finalRecord | finalReset | exiting | exited => true
  | pass _ _ .finalRecord => true
  | _ => false

end Facade

namespace PersistenceFacade

variable {s s' : PersistenceFacade} {version : CacheKey → ℕ}

/-- The operations on their way to the disk: in a callback, the queue, a lane or the worker's
hands. -/
def flight (s : PersistenceFacade) : Set KeyOp :=
  {w | w ∈ callWrites s.calls ∨ w ∈ writes s.queue ∨ w ∈ s.overflow ∨ w ∈ s.retry.ops ∨
   w ∈ s.pc.batch}

theorem mem_flight {w : KeyOp} : w ∈ s.flight ↔
    w ∈ callWrites s.calls ∨ w ∈ writes s.queue ∨ w ∈ s.overflow ∨ w ∈ s.retry.ops ∨
    w ∈ s.pc.batch := Iff.rfl

/-- The sequence that the disk took last. -/
def applied (s : PersistenceFacade) (key : CacheKey) : ℕ := (s.lastApplied key).getD 0

/-- The facade as a store whose writes are applied behind. -/
def replica (s : PersistenceFacade) (version : CacheKey → ℕ) : Replica CacheKey (List UInt8) where
  memory := s.memory
  version := version
  flight := s.flight
  disk := s.disk
  applied := s.applied

/-- Memory, the disk and the watermarks stay; operations move or are superseded. -/
theorem settle_step (hmemory : s'.memory = s.memory) (hdisk : s'.disk = s.disk)
    (happlied : s'.lastApplied = s.lastApplied) (h : Settles s.applied s.flight s'.flight) :
    Replica.Step (s.replica version) (s'.replica version) [] := by
  have heq : s'.replica version = { s.replica version with flight := s'.flight } := by
    unfold replica applied
    rw [hmemory, hdisk, happlied]
  rw [heq]
  exact .settle h

/-! ## Callbacks -/

theorem issue_step {memory : CacheKey → Option (List UInt8)} {op : ℕ → Op}
    (hle : ∀ key, version key ≤ s.seq)
    (hwrites : ∀ w ∈ (op (s.seq + 1)).expandPerKey, w.seq = s.seq + 1 ∧ memory w.key = w.value)
    (hframe : ∀ key, (∀ w ∈ (op (s.seq + 1)).expandPerKey, w.key ≠ key) →
     memory key = s.memory key) :
    ∃ version', (∀ key, version' key ≤ (s.issue memory op).seq) ∧
      Replica.Step (s.replica version) ((s.issue memory op).replica version') [] := by
  classical
  let ws : Set KeyOp := {w | w ∈ (op (s.seq + 1)).expandPerKey}
  let version' : CacheKey → ℕ := fun key => if ∃ w ∈ ws, w.key = key then s.seq + 1 else version key
  have hflight : (s.issue memory op).flight = s.flight ∪ ws := by
    ext w
    rw [Set.mem_union, mem_flight, mem_flight]
    simp only [issue, mem_callWrites_append, Call.writes]
    change _ ↔ _ ∨ w ∈ (op (s.seq + 1)).expandPerKey
    grind
  have heq : (s.issue memory op).replica version' =
      { s.replica version with
      memory := memory, version := version', flight := s.flight ∪ ws } := by
    rw [← hflight]
    rfl
  refine ⟨version', fun key => ?_, heq ▸ .issue (fun w hw => ⟨?_, ?_, (hwrites w hw).2⟩)
    fun key hkey => ⟨?_, ?_⟩⟩
  · dsimp only [version', issue]
    split_ifs
    · exact le_rfl
    · exact (hle key).trans (Nat.le_succ _)
  · rw [(hwrites w hw).1]
    exact Nat.lt_succ_of_le (hle w.key)
  · rw [(hwrites w hw).1]
    exact if_pos ⟨w, hw, rfl⟩
  · refine if_neg ?_
    rintro ⟨w, hw, heq⟩
    exact hkey w hw heq
  · exact hframe key hkey

theorem put_step (hle : ∀ key, version key ≤ s.seq) (key : CacheKey) (bytes : List UInt8) :
    ∃ version', (∀ k, version' k ≤ (s.put key bytes).seq) ∧
      Replica.Step (s.replica version) ((s.put key bytes).replica version') [] := by
  unfold put
  split_ifs
  · refine ⟨version, hle, settle_step rfl rfl rfl (.of_eq ?_)⟩
    ext w
    rw [mem_flight, mem_flight]
    simp [mem_callWrites_append, Call.writes]
  · refine issue_step hle (fun w hw => ?_) fun other hother => ?_
    · rw [List.mem_singleton.mp hw]
      exact ⟨rfl, Function.update_self ..⟩
    · exact Function.update_of_ne (hother _ (List.mem_singleton_self _)).symm _ _

theorem remove_step (hle : ∀ key, version key ≤ s.seq) (key : CacheKey) :
    ∃ version', (∀ k, version' k ≤ (s.remove key).seq) ∧
      Replica.Step (s.replica version) ((s.remove key).replica version') [] := by
  refine issue_step hle (fun w hw => ?_) fun other hother => ?_
  · rw [List.mem_singleton.mp hw]
    exact ⟨rfl, Function.update_self ..⟩
  · exact Function.update_of_ne (hother _ (List.mem_singleton_self _)).symm _ _

theorem clearAll_step (hle : ∀ key, version key ≤ s.seq) :
    ∃ version', (∀ key, version' key ≤ s.clearAll.seq) ∧
      Replica.Step (s.replica version) (s.clearAll.replica version') [] := by
  refine issue_step hle (fun w hw => ?_) fun other hother => ?_
  · obtain ⟨key, -, rfl⟩ := List.mem_map.mp hw
    exact ⟨rfl, rfl⟩
  · refine absurd rfl (hother ⟨other, none, s.seq + 1⟩ (List.mem_map.mpr ⟨other, ?_, rfl⟩))
    cases other <;> simp [CacheKey.allKeys]

/-- The shutdown drain begins once the facade is dropped, and no callback outlives it. -/
structure Orderly (s : PersistenceFacade) : Prop where
  closing : s.pc.closing = true → s.dropped = true
  dropped : s.dropped = true → s.calls = []

/-- A callback's next step hands its operation on. -/
theorem callStep_step (h : s.Orderly) (index : ℕ) :
    Replica.Step (s.replica version) ((s.callStep index).replica version) [] := by
  unfold callStep
  cases hcall : s.calls[index]? with
  | none => exact settle_step rfl rfl rfl (.refl _ _)
  | some call =>
    cases call with
    | send op =>
      have halive : ¬ s.pc.gone = true := by
        intro hgone
        have hclosing : s.pc.closing = true := by
          cases hpc : s.pc with
          | exited => rfl
          | _ => rw [hpc] at hgone; cases hgone
        rw [h.dropped (h.closing hclosing)] at hcall
        cases hcall
      dsimp only
      rw [if_neg halive]
      split_ifs
      · refine settle_step rfl rfl rfl (.of_eq ?_)
        ext w
        rw [mem_flight, mem_flight, mem_callWrites hcall]
        simp only [Call.writes, mem_writes_append, mem_writes_singleton]
        grind
      · refine settle_step rfl rfl rfl (.of_eq ?_)
        ext w
        rw [mem_flight, mem_flight, mem_callWrites hcall]
        simp only [mem_callWrites_set hcall, Call.writes]
    | park op =>
      refine settle_step rfl rfl rfl (.of_covers (fun w hw => ?_) fun w hw => ?_)
      · rw [mem_flight] at hw ⊢
        rw [mem_callWrites hcall]
        simp only [mem_callWrites_set hcall, Call.writes] at hw ⊢
        rcases hw with (hw | hw) | hw | hw | hw
        · cases hw
        · tauto
        · tauto
        · have hlane := parkOverflow_subset hw
          grind
        · tauto
      · rw [mem_flight, mem_callWrites hcall] at hw
        simp only [Call.writes] at hw
        have hmoves : (w ∈ s.overflow ∨ w ∈ op.expandPerKey) ∨
          w ∈ callWrites (s.calls.eraseIdx index) ∨
            w ∈ writes s.queue ∨ w ∈ s.retry.ops ∨ w ∈ s.pc.batch := by tauto
        rcases hmoves with hlane | hrest
        · obtain ⟨w', hw', hnewer⟩ := parkOverflow_covers hlane
          exact ⟨w', mem_flight.mpr (.inr (.inr (.inl hw'))), hnewer⟩
        · refine ⟨w, mem_flight.mpr ?_, rfl, le_rfl⟩
          simp only [mem_callWrites_set hcall]
          grind
    | note message =>
      refine settle_step rfl rfl rfl (.of_eq ?_)
      ext w
      rw [mem_flight, mem_flight, mem_callWrites hcall]
      simp only [mem_callWrites_set hcall, Call.writes]
    | reset =>
      refine settle_step rfl rfl rfl (.of_eq ?_)
      ext w
      rw [mem_flight, mem_flight, mem_callWrites hcall]
      simp only [Call.writes, List.not_mem_nil, false_or]

/-! ## The worker -/

theorem worker_settles {applied : CacheKey → ℕ} (hcalls : s'.calls = s.calls)
    (h : ∀ w, w ∈ writes s'.queue ∨ w ∈ s'.overflow ∨ w ∈ s'.retry.ops ∨ w ∈ s'.pc.batch ↔
      w ∈ writes s.queue ∨ w ∈ s.overflow ∨ w ∈ s.retry.ops ∨ w ∈ s.pc.batch) :
    Settles applied s.flight s'.flight := by
  refine .of_eq ?_
  ext w
  rw [mem_flight, mem_flight, hcalls, h]

theorem applyPass_settles {batch : List Op} {next : Next} {applied : CacheKey → ℕ}
    (hcalls : s'.calls = s.calls) (hpc : s'.pc = .applyPass batch next)
    (h : ∀ w, w ∈ writes s.queue ∨ w ∈ s.overflow ∨ w ∈ s.retry.ops ∨ w ∈ s.pc.batch ↔
      (w ∈ writes s'.queue ∨ w ∈ s'.overflow ∨ w ∈ s'.retry.ops) ∨ w ∈ writes batch) :
    Settles applied s.flight s'.flight := by
  have hbatch : s'.pc.batch = coalesce batch := by rw [hpc]; rfl
  refine .of_covers (fun w hw => ?_) fun w hw => ?_
  · rw [mem_flight, hbatch, hcalls] at hw
    have hsubset : w ∈ coalesce batch → w ∈ writes batch := fun hmem => coalesce_subset batch hmem
    rw [mem_flight, h]
    grind
  · rw [mem_flight, h] at hw
    have hmoves : w ∈ writes batch ∨ w ∈ callWrites s.calls ∨ w ∈ writes s'.queue ∨
      w ∈ s'.overflow ∨
        w ∈ s'.retry.ops := by tauto
    rcases hmoves with hbatched | hrest
    · obtain ⟨w', hw', hnewer⟩ := coalesce_covers batch w hbatched
      exact ⟨w', mem_flight.mpr (.inr (.inr (.inr (.inr (hbatch ▸ hw'))))), hnewer⟩
    · refine ⟨w, mem_flight.mpr ?_, rfl, le_rfl⟩
      rw [hcalls]
      grind

theorem pop_settles {op : KeyOp} {rest : List KeyOp} {applied : CacheKey → ℕ}
    (hcalls : s'.calls = s.calls)
    (hqueue : s'.queue = s.queue) (hoverflow : s'.overflow = s.overflow)
    (hretry : s'.retry = s.retry)
    (hpc : s.pc.batch = op :: rest) (hpc' : s'.pc.batch = rest) (hstale : ¬ op.Fresh applied) :
    Settles applied s.flight s'.flight := by
  refine .of_stale (fun w hw => ?_) fun w hw hfresh => ?_
  · rw [mem_flight, hcalls, hqueue, hoverflow, hretry, hpc'] at hw
    rw [mem_flight, hpc, List.mem_cons]
    grind
  · rw [mem_flight, hpc, List.mem_cons] at hw
    have hne : w ≠ op := fun heq => hstale (heq ▸ hfresh)
    rw [mem_flight, hcalls, hqueue, hoverflow, hretry, hpc']
    grind

theorem applied_noteApplied (s : PersistenceFacade) (op : KeyOp) :
    (s.noteApplied op).applied = Function.update s.applied op.key op.seq := by
  funext key
  unfold applied
  by_cases hkey : key = op.key
  · subst hkey
    simp [noteApplied]
  · simp [noteApplied, hkey]

/-- What passes the sequence guard is fresh. -/
theorem fresh_of_guard {op : KeyOp} (hpos : 0 < op.seq)
    (hguard : ¬ ((s.lastApplied op.key).any fun last => op.seq ≤ last) = true) :
    op.Fresh s.applied := by
  unfold Write.Fresh applied
  cases hlast : s.lastApplied op.key with
  | none => exact hpos
  | some last =>
    rw [hlast] at hguard
    simpa using hguard

/-- The disk takes an operation, and with it goes what waits to be tried again and is older. -/
theorem take_step {op : KeyOp} {rest : List KeyOp} {next : Next} (hbatch : s.pc.batch = op :: rest)
    (hfresh : op.Fresh s.applied) :
    Replica.Step (s.replica version)
      (({ s.noteApplied op with pc := .pass (op :: rest) .applied next } :
        PersistenceFacade).replica version) [op] := by
  set s' : PersistenceFacade := { s.noteApplied op with pc := .pass (op :: rest) .applied next }
  have hbatch' : s'.pc.batch = op :: rest := rfl
  have happlied : s'.applied = Function.update s.applied op.key op.seq := applied_noteApplied s op
  have hsettles : Settles (Function.update s.applied op.key op.seq) s.flight s'.flight := by
    refine .of_stale (fun w hw => ?_) fun w hw hnew => ?_
    · rw [mem_flight, hbatch'] at hw
      have hretry : w ∈ s'.retry.ops → w ∈ s.retry.ops := fun hmem =>
        (RetryLane.mem_noteSuccess.mp hmem).1
      rw [mem_flight, hbatch]
      have hother : s'.calls = s.calls ∧ s'.queue = s.queue ∧ s'.overflow = s.overflow :=
        ⟨rfl, rfl, rfl⟩
      rw [hother.1, hother.2.1, hother.2.2] at hw
      grind
    · have hretry : w ∈ s.retry.ops → w ∈ s'.retry.ops := fun hmem => by
        refine RetryLane.mem_noteSuccess.mpr ⟨hmem, fun hold => ?_⟩
        unfold Write.Fresh at hnew
        rw [hold.1, Function.update_self] at hnew
        omega
      rw [mem_flight, hbatch] at hw
      rw [mem_flight, hbatch']
      have hother : s'.calls = s.calls ∧ s'.queue = s.queue ∧ s'.overflow = s.overflow :=
        ⟨rfl, rfl, rfl⟩
      rw [hother.1, hother.2.1, hother.2.2]
      grind
  have heq : s'.replica version =
      { s.replica version with
        flight := s'.flight
        disk := Function.update s.disk op.key op.value
        applied := Function.update s.applied op.key op.seq } := by
    rw [← happlied]
    rfl
  have hmem : op ∈ s.flight := mem_flight.mpr
    (.inr (.inr (.inr (.inr (hbatch ▸ List.mem_cons_self ..)))))
  rw [heq]
  exact .take hmem hfresh hsettles

/-- **One operation of a pass**: it is stale and goes, it is taken by the disk, or it is
retained. -/
theorem passStep_step (hpos : ∀ w ∈ s.flight, 0 < w.seq) (now : ℕ) (result : Except String Unit)
    {op : KeyOp} {rest : List KeyOp} {next : Next} {stage : PassStage}
    (hpc : s.pc = .pass (op :: rest) stage next)
    (hcounted : stage = .counting → ¬ op.Fresh s.applied) :
    Replica.Step (s.replica version) ((s.passStep now result op rest next stage).1.replica version)
      (s.passStep now result op rest next stage).2 := by
  have hbatch : s.pc.batch = op :: rest := by rw [hpc]; rfl
  have hstay : ∀ (s' : PersistenceFacade), s'.memory = s.memory → s'.disk = s.disk →
    s'.lastApplied = s.lastApplied →
      s'.calls = s.calls → s'.queue = s.queue → s'.overflow = s.overflow → s'.retry = s.retry →
      s'.pc.batch = op :: rest → Replica.Step (s.replica version) (s'.replica version) [] := by
    intro s' hmemory hdisk happlied hcalls hqueue hoverflow hretry hpc'
    refine settle_step hmemory hdisk happlied (worker_settles hcalls fun w => ?_)
    rw [hqueue, hoverflow, hretry, hpc', hbatch]
  cases stage with
  | attempt =>
    rw [passStep]
    unfold attempt
    split_ifs with hguard
    · refine settle_step rfl rfl rfl (pop_settles rfl rfl rfl rfl hbatch rfl ?_)
      obtain ⟨last, hlast, hle⟩ := (Option.any_eq_true _ _).mp hguard
      unfold Write.Fresh applied
      rw [hlast]
      simpa using hle
    · cases result with
      | error message => exact hstay _ rfl rfl rfl rfl rfl rfl rfl rfl
      | ok =>
        have hfresh : op.Fresh s.applied := by
          unfold Write.Fresh applied
          cases hlast : s.lastApplied op.key with
          | none =>
            exact hpos op (mem_flight.mpr
              (.inr (.inr (.inr (.inr (hbatch ▸ List.mem_cons_self ..))))))
          | some last =>
            rw [hlast] at hguard
            simpa using hguard
        exact take_step hbatch hfresh
  | applied =>
    rw [passStep]
    split_ifs
    · exact hstay _ rfl rfl rfl rfl rfl rfl rfl rfl
    · exact hstay _ rfl rfl rfl rfl rfl rfl rfl rfl
  | recovering => exact hstay _ rfl rfl rfl rfl rfl rfl rfl rfl
  | counting =>
    exact settle_step rfl rfl rfl (pop_settles rfl rfl rfl rfl hbatch rfl (hcounted rfl))
  | failed message => exact hstay _ rfl rfl rfl rfl rfl rfl rfl rfl
  | resetting =>
    refine settle_step rfl rfl rfl (.of_covers (fun w hw => ?_) fun w hw => ?_)
    · rw [mem_flight] at hw ⊢
      have hlane : w ∈ (s.retry.retain now (.keyed op)).ops → w ∈ s.retry.ops ∨ w = op :=
        RetryLane.retain_subset
      have hrest : w ∈ s.pc.batch ↔ w = op ∨ w ∈ rest := by rw [hbatch, List.mem_cons]
      have hbatch' : w ∈ (WorkerPc.pass rest .attempt next).batch ↔ w ∈ rest := Iff.rfl
      rw [passStep] at hw
      dsimp only at hw
      grind
    · rw [mem_flight, hbatch, List.mem_cons] at hw
      have hmoves : (w ∈ s.retry.ops ∨ w = op) ∨ w ∈ callWrites s.calls ∨ w ∈ writes s.queue ∨
        w ∈ s.overflow ∨
          w ∈ rest := by tauto
      rcases hmoves with hlane | hrest
      · obtain ⟨w', hw', hnewer⟩ := RetryLane.retain_covers now hlane
        exact ⟨w', mem_flight.mpr (.inr (.inr (.inr (.inl hw')))), hnewer⟩
      · refine ⟨w, mem_flight.mpr ?_, rfl, le_rfl⟩
        have hbatch' : w ∈ (WorkerPc.pass rest .attempt next).batch ↔ w ∈ rest := Iff.rfl
        rw [passStep]
        dsimp only
        grind

/-- **A step of the worker.** -/
theorem workerStep_step (hpos : ∀ w ∈ s.flight, 0 < w.seq)
    (hdurable : ∀ op rest next, s.pc = .pass (op :: rest) .counting next → ¬ op.Fresh s.applied)
    (now : ℕ) (result : Except String Unit) :
    Replica.Step (s.replica version) ((s.workerStep now result).1.replica version)
      (s.workerStep now result).2 := by
  unfold workerStep
  cases hpc : s.pc with
  | takeReady =>
    refine settle_step rfl rfl rfl (worker_settles rfl fun w => ?_)
    have htake : w ∈ s.retry.ops ↔ _ := RetryLane.mem_takeReady now
    simp only [hpc, WorkerPc.batch, htake]
    have hheld : w ∈ writes ((s.retry.takeReady now).1.map .keyed) ↔
      w ∈ (s.retry.takeReady now).1 := mem_writes_keyed
    unfold writes at hheld
    rw [hheld]
    simp only [List.not_mem_nil]
    grind
  | drainOverflow batch =>
    have hheld : ∀ w, w ∈ s.pc.batch ↔ w ∈ writes batch := fun w => by rw [hpc]; rfl
    dsimp only
    split_ifs with hempty
    · -- nothing to apply
      obtain ⟨hbatch, hoverflow⟩ := List.append_eq_nil_iff.mp (List.isEmpty_iff.mp hempty)
      refine settle_step rfl rfl rfl (worker_settles rfl fun w => ?_)
      rw [hheld, hbatch, List.map_eq_nil_iff.mp hoverflow]
      simp [WorkerPc.batch]
    · refine settle_step rfl rfl rfl (applyPass_settles rfl rfl fun w => ?_)
      rw [hheld, mem_writes_append, mem_writes_keyed]
      simp only [List.not_mem_nil]
      grind
  | recv =>
    have hheld : ∀ w, w ∈ s.pc.batch ↔ False := fun w => by rw [hpc]; exact List.mem_nil_iff w
    dsimp only
    cases hqueue : s.queue with
    | cons op rest =>
      refine settle_step rfl rfl rfl (worker_settles rfl fun w => ?_)
      have htaken : w ∈ (WorkerPc.tryRecv [op]).batch ↔ w ∈ op.expandPerKey := mem_writes_singleton
      rw [hheld, hqueue, mem_writes_cons, htaken]
      grind
    | nil =>
      refine settle_step rfl rfl rfl (worker_settles rfl fun w => ?_)
      rw [hheld, hqueue]
      split_ifs
      · simp [WorkerPc.batch]
      · simp [WorkerPc.batch]
  | tryRecv batch =>
    have hheld : ∀ w, w ∈ s.pc.batch ↔ w ∈ writes batch := fun w => by rw [hpc]; rfl
    have happly : Replica.Step (s.replica version)
        (({ s with pc := .applyPass batch .takeReady } : PersistenceFacade).replica version)
        [] := by
      refine settle_step rfl rfl rfl (applyPass_settles rfl rfl fun w => ?_)
      rw [hheld]
      grind
    dsimp only
    split_ifs with hroom
    · cases hqueue : s.queue with
      | cons op rest =>
        refine settle_step rfl rfl rfl (worker_settles rfl fun w => ?_)
        have htaken : w ∈ (WorkerPc.tryRecv (batch ++ [op])).batch ↔ w ∈ writes batch ∨
          w ∈ op.expandPerKey := by
          rw [← mem_writes_singleton, ← mem_writes_append]
          rfl
        rw [hheld, hqueue, mem_writes_cons, htaken]
        grind
      | nil => simpa [hqueue] using happly
    · exact happly
  | pass ops stage next =>
    cases ops with
    | nil =>
      refine settle_step rfl rfl rfl (worker_settles rfl fun w => ?_)
      rw [hpc]
      cases next <;> rfl
    | cons op rest =>
      exact passStep_step hpos now result hpc fun heq => hdurable op rest next (heq ▸ hpc)
  | finalDrain =>
    have hheld : ∀ w, w ∈ s.pc.batch ↔ False := fun w => by rw [hpc]; exact List.mem_nil_iff w
    have hretry : ∀ w, w ∈ s.retry.takeAll.2.ops ↔ False := fun w => List.mem_nil_iff w
    dsimp only
    split_ifs with hempty
    · obtain ⟨hoverflow, hpending⟩ := List.append_eq_nil_iff.mp (List.isEmpty_iff.mp hempty)
      have hops : s.retry.ops = [] := List.map_eq_nil_iff.mp hpending
      refine settle_step rfl rfl rfl (worker_settles rfl fun w => ?_)
      rw [hheld, hretry, List.map_eq_nil_iff.mp hoverflow, hops]
      simp [WorkerPc.batch]
    · refine settle_step rfl rfl rfl (applyPass_settles rfl rfl fun w => ?_)
      have hall : w ∈ s.retry.takeAll.1 ↔ w ∈ s.retry.ops := Iff.rfl
      rw [hheld, hretry, mem_writes_append, mem_writes_keyed, mem_writes_keyed, hall]
      simp only [List.not_mem_nil]
      grind
  | finalRecord =>
    dsimp only
    split_ifs
    · exact settle_step rfl rfl rfl (worker_settles rfl fun w => by rw [hpc]; rfl)
    · exact settle_step rfl rfl rfl (worker_settles rfl fun w => by rw [hpc]; rfl)
  | finalReset | exiting =>
    exact settle_step rfl rfl rfl (worker_settles rfl fun w => by rw [hpc]; rfl)
  | exited => exact settle_step rfl rfl rfl (.refl _ _)

end PersistenceFacade

end ProtonWire
