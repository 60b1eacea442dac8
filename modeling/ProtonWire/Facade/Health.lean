import ProtonWire.Facade.Convergence

/-!
# Persistence health

When the failure that the facade reports is there, and when it goes. A callback leaves an operation
in the overflow lane first and records the failure as a further step; the worker looks at the lanes,
releases them, and clears the failure as a further step.

* `PersistenceFacade.clearsEarly`, **`PersistenceFacade.health_not_green_early`**: without a
  clearing that an overflowed operation has overtaken, no failure means that nothing waits in a
  lane;
* `PersistenceFacade.recordsLate`, **`PersistenceFacade.health_recovers`**: without a failure
  recorded or left standing when all that is under way is superseded, nothing under way means no
  failure.
-/

namespace ProtonWire

open Facade WriteBehind

namespace Facade

/-- The callback is about to record a failure. -/
def Call.notes : Call → Bool
  | note _ => true
  | _ => false

/-- A write has succeeded, and the failure may still be cleared for it. -/
def WorkerPc.succeeded : WorkerPc → Bool
  | pass (_ :: _) .applied _ | pass (_ :: _) .recovering _ => true
  | _ => false

end Facade

namespace PersistenceFacade

variable {s s' : PersistenceFacade}

/-! ## Green too early -/

/-- The failure is cleared over an operation in the overflow lane, and no callback is about to
record it again. -/
def clearsEarly (s : PersistenceFacade) : Action → Bool
  | .worker _ _ =>
    match s.pc with
    | .pass (_ :: _) .recovering _ => !s.overflow.isEmpty && !s.calls.any Call.notes
    | _ => false
  | _ => false

/-- What waits in a lane is reported, or is about to be. -/
structure Flagged (s : PersistenceFacade) : Prop where
  overflow : s.overflow ≠ [] → s.health.failure ≠ none ∨ s.calls.any Call.notes = true
  retry : s.retry.pending ≠ [] → s.health.failure ≠ none
  resetting : ∀ op rest next, s.pc = .pass (op :: rest) .resetting next → s.health.failure ≠ none
  recovering : ∀ op rest next, s.pc = .pass (op :: rest) .recovering next → s.retry.pending = []
  held : ∀ batch, s.pc = .drainOverflow batch → batch ≠ [] → s.health.failure ≠ none

theorem flagged_start (disk : CacheKey → Option (List UInt8)) : (start disk).Flagged := by
  refine ⟨fun h => absurd rfl h, fun h => absurd rfl h, fun op rest next h => ?_,
    fun op rest next h => ?_,
    fun batch h => ?_⟩
  · cases h
  · cases h
  · cases h

theorem Flagged.stay (h : s.Flagged) (hpc : s'.pc = s.pc) (hretry : s'.retry = s.retry)
    (hfailure : s.health.failure ≠ none → s'.health.failure ≠ none)
    (hoverflow : s'.overflow ≠ [] → s'.health.failure ≠ none ∨ s'.calls.any Call.notes = true) :
    s'.Flagged :=
  ⟨hoverflow, fun hpending => hfailure (h.retry (hretry ▸ hpending)),
    fun op rest next hat => hfailure (h.resetting op rest next (hpc ▸ hat)),
    fun op rest next hat => hretry ▸ h.recovering op rest next (hpc ▸ hat),
    fun batch hat hbatch => hfailure (h.held batch (hpc ▸ hat) hbatch)⟩

theorem notes_set {calls : List Call} {index : ℕ} {call : Call} (hlt : index < calls.length)
    (hnotes : call.notes = true) : (calls.set index call).any Call.notes = true :=
  List.any_eq_true.mpr ⟨call, List.mem_set hlt call, hnotes⟩

theorem notes_eraseIdx {calls : List Call} {index : ℕ} {call : Call} (h : calls[index]? = some call)
    (hnot : call.notes = false) (hnotes : calls.any Call.notes = true) :
    (calls.eraseIdx index).any Call.notes = true := by
  obtain ⟨hlt, rfl⟩ := List.getElem?_eq_some_iff.mp h
  rw [← (List.getElem_cons_eraseIdx_perm hlt).any_eq, List.any_cons, hnot] at hnotes
  exact hnotes

theorem notes_set_of_not {calls : List Call} {index : ℕ} {call call' : Call}
    (h : calls[index]? = some call)
    (hnot : call.notes = false) (hnotes : calls.any Call.notes = true) :
    (calls.set index call').any Call.notes = true := by
  obtain ⟨hlt, -⟩ := List.getElem?_eq_some_iff.mp h
  rw [(List.set_perm_cons_eraseIdx hlt call').any_eq, List.any_cons, notes_eraseIdx h hnot hnotes,
    Bool.or_true]

/-- A callback's step keeps the failure, or is about to record one. -/
theorem Flagged.call (h : s.Flagged) (index : ℕ) : (s.callStep index).Flagged := by
  unfold callStep
  cases hcall : s.calls[index]? with
  | none => exact h
  | some call =>
    obtain ⟨hlt, -⟩ := List.getElem?_eq_some_iff.mp hcall
    cases call with
    | send op =>
      dsimp only
      split_ifs
      · exact h.stay rfl rfl id fun _ => .inr (notes_set hlt rfl)
      · exact h.stay rfl rfl id fun hne => (h.overflow hne).imp_right (notes_eraseIdx hcall rfl)
      · exact h.stay rfl rfl id fun hne => (h.overflow hne).imp_right (notes_set_of_not hcall rfl)
    | park op => exact h.stay rfl rfl id fun _ => .inr (notes_set hlt rfl)
    | note message =>
      exact h.stay rfl rfl (fun _ => Option.some_ne_none _) fun _ => .inl (Option.some_ne_none _)
    | reset =>
      exact h.stay rfl rfl id fun hne => (h.overflow hne).imp_right (notes_eraseIdx hcall rfl)

theorem Flagged.passStep (h : s.Flagged) (now : ℕ) (result : Except String Unit) {op : KeyOp}
    {rest : List KeyOp}
    {next : Next} {stage : PassStage} (hpc : s.pc = .pass (op :: rest) stage next)
    (hok : s.clearsEarly (.worker now result) = false) :
    (s.passStep now result op rest next stage).1.Flagged := by
  cases stage with
  | attempt =>
    rw [PersistenceFacade.passStep]
    unfold attempt
    split_ifs
    · refine ⟨h.overflow, h.retry, fun op' rest' next' hat => ?_, fun op' rest' next' hat => ?_,
        fun batch hat => ?_⟩
      · cases hat
      · cases hat
      · cases hat
    · cases result with
      | error message =>
        refine ⟨h.overflow, h.retry, fun op' rest' next' hat => ?_, fun op' rest' next' hat => ?_,
          fun batch hat => ?_⟩
        · cases hat
        · cases hat
        · cases hat
      | ok =>
        refine ⟨h.overflow, fun hne => h.retry fun hnil => hne ?_, fun op' rest' next' hat => ?_,
          fun op' rest' next' hat => ?_, fun batch hat => ?_⟩
        · simp [noteApplied, RetryLane.noteSuccess, hnil]
        · cases hat
        · cases hat
        · cases hat
  | applied =>
    rw [PersistenceFacade.passStep]
    split_ifs with hempty
    · refine ⟨h.overflow, h.retry, fun op' rest' next' hat => ?_,
        fun op' rest' next' hat => List.isEmpty_iff.mp hempty.1, fun batch hat => ?_⟩
      · cases hat
      · cases hat
    · refine ⟨h.overflow, h.retry, fun op' rest' next' hat => ?_, fun op' rest' next' hat => ?_,
        fun batch hat => ?_⟩
      · cases hat
      · cases hat
      · cases hat
  | recovering =>
    -- nothing waits to be tried again, and the condition speaks of the overflow lane
    have hpending := h.recovering op rest next hpc
    refine ⟨fun hne => .inr ?_, fun hne => absurd hpending hne, fun op' rest' next' hat => ?_,
      fun op' rest' next' hat => ?_, fun batch hat => ?_⟩
    · have hlane : s.overflow ≠ [] := hne
      simpa [clearsEarly, hpc, hlane, PersistenceFacade.passStep] using hok
    · cases hat
    · cases hat
    · cases hat
  | counting =>
    refine ⟨h.overflow, h.retry, fun op' rest' next' hat => ?_, fun op' rest' next' hat => ?_,
      fun batch hat => ?_⟩
    · cases hat
    · cases hat
    · cases hat
  | failed message =>
    refine ⟨fun _ => .inl (Option.some_ne_none _), fun _ => Option.some_ne_none _,
      fun _ _ _ _ => Option.some_ne_none _,
      fun op' rest' next' hat => ?_, fun batch hat => ?_⟩
    · cases hat
    · cases hat
  | resetting =>
    have hfailure := h.resetting op rest next hpc
    refine ⟨fun _ => .inl hfailure, fun _ => hfailure, fun _ _ _ _ => hfailure,
      fun op' rest' next' hat => ?_,
      fun _ _ _ => hfailure⟩
    cases hat

theorem Flagged.workerStep (h : s.Flagged) (now : ℕ) (result : Except String Unit)
    (hok : s.clearsEarly (.worker now result) = false) : (s.workerStep now result).1.Flagged := by
  -- a step that drains lanes and starts nothing
  have hleave : ∀ s' : PersistenceFacade, s'.health.failure = s.health.failure →
    s'.calls = s.calls →
      (s'.overflow = s.overflow ∨ s'.overflow = []) →
      (s'.retry.pending ≠ [] → s.retry.pending ≠ []) →
      (∀ op rest stage next, s'.pc = .pass (op :: rest) stage next → stage = .attempt) →
      (∀ batch, s'.pc = .drainOverflow batch → batch ≠ [] → s.health.failure ≠ none) →
      s'.Flagged := by
    intro s' hfailure hcalls hoverflow hretry hpc hheld
    refine ⟨fun hne => ?_, fun hne => ?_, fun op rest next hat => ?_, fun op rest next hat => ?_,
      fun batch hat hne => ?_⟩
    · rw [hfailure, hcalls]
      rcases hoverflow with hsame | hnil
      · exact h.overflow (hsame ▸ hne)
      · exact absurd hnil hne
    · rw [hfailure]
      exact h.retry (hretry hne)
    · cases hpc op rest .resetting next hat
    · cases hpc op rest .recovering next hat
    · rw [hfailure]
      exact hheld batch hat hne
  have happly : ∀ (batch : List Op) (next : Next) op rest stage next',
    WorkerPc.applyPass batch next =
      .pass (op :: rest) stage next' → stage = .attempt := by
    intro batch next op rest stage next' heq
    exact (WorkerPc.pass.inj heq).2.1.symm
  unfold PersistenceFacade.workerStep
  cases hpc : s.pc with
  | takeReady =>
    refine hleave _ rfl rfl (.inl rfl) (fun hne hnil => hne ?_)
      (fun op rest stage next hat => ?_) fun batch hat hne => ?_
    · simp [RetryLane.takeReady, hnil]
    · cases hat
    · cases hat
      refine h.retry fun hnil => hne ?_
      simp [RetryLane.takeReady, hnil]
  | drainOverflow batch =>
    refine hleave _ rfl rfl (.inr rfl) id (fun op rest stage next hat => ?_) fun batch hat => ?_
    · dsimp only at hat
      split_ifs at hat
      exact happly _ _ op rest stage next hat
    · dsimp only at hat
      split_ifs at hat
      cases hat
  | recv =>
    dsimp only
    split
    · refine hleave _ rfl rfl (.inl rfl) id (fun op rest stage next hat => ?_) fun batch hat => ?_
      · cases hat
      · cases hat
    · refine hleave _ rfl rfl (.inl rfl) id (fun op rest stage next hat => ?_) fun batch hat => ?_
      · dsimp only at hat
        split_ifs at hat
      · dsimp only at hat
        split_ifs at hat
  | tryRecv batch =>
    have hpass : ({ s with pc := .applyPass batch .takeReady } : PersistenceFacade).Flagged := by
      refine hleave _ rfl rfl (.inl rfl) id (happly batch .takeReady) fun batch hat => ?_
      cases hat
    dsimp only
    split_ifs
    · split
      · refine hleave _ rfl rfl (.inl rfl) id (fun op rest stage next hat => ?_) fun batch hat => ?_
        · cases hat
        · cases hat
      · exact hpass
    · exact hpass
  | pass ops stage next =>
    cases ops with
    | nil =>
      refine hleave _ rfl rfl (.inl rfl) id (fun op rest stage next' hat => ?_) fun batch hat => ?_
      · cases next <;> cases hat
      · cases next <;> cases hat
    | cons op rest => exact h.passStep now result hpc hok
  | finalDrain =>
    refine hleave _ rfl rfl (.inr rfl) (fun hne => absurd rfl hne)
      (fun op rest stage next hat => ?_) fun batch hat => ?_
    · dsimp only at hat
      split_ifs at hat
      exact happly _ _ op rest stage next hat
    · dsimp only at hat
      split_ifs at hat
      cases hat
  | finalRecord =>
    dsimp only
    split_ifs with hempty
    · refine hleave _ rfl rfl (.inl rfl) id (fun op rest stage next hat => ?_) fun batch hat => ?_
      · cases hat
      · cases hat
    · refine ⟨fun _ => .inl (Option.some_ne_none _), fun _ => Option.some_ne_none _,
        fun _ _ _ _ => Option.some_ne_none _, fun op' rest' next' hat => ?_, fun _ _ _ =>
        Option.some_ne_none _⟩
      cases hat
  | finalReset | exiting =>
    refine hleave _ rfl rfl (.inl rfl) id (fun op rest stage next hat => ?_) fun batch hat => ?_
    · cases hat
    · cases hat
  | exited => exact h

theorem Flagged.step (h : s.Flagged) (action : Action) (hok : s.clearsEarly action = false) :
    (s.step action).1.Flagged := by
  have hissue : ∀ memory op, (s.issue memory op).Flagged := fun memory op =>
    h.stay rfl rfl id fun hne => (h.overflow hne).imp_right fun hnotes => by
    simp [issue, List.any_append, hnotes]
  cases action with
  | put key bytes =>
    dsimp only [PersistenceFacade.step, put]
    split_ifs
    · exact h
    · exact h.stay rfl rfl id fun _ => .inr (by simp [Call.notes])
    · exact hissue _ _
  | remove key | clearAll =>
    dsimp only [PersistenceFacade.step]
    split_ifs
    · exact h
    · exact hissue _ _
  | call index => exact h.call index
  | drop =>
    dsimp only [PersistenceFacade.step]
    split_ifs
    · exact h.stay rfl rfl id h.overflow
    · exact h
  | worker now result => exact h.workerStep now result hok

/-- **No green too early.** Where no step clears the failure over an overflowed operation that is
already recorded, a state with no callback mid-call and the worker outside a pass reports no failure
only with both lanes empty, and no retry in the worker's hands. -/
theorem health_not_green_early (disk : CacheKey → Option (List UInt8)) (actions : List Action)
    (h : Machine.Along step (fun s action => s.clearsEarly action = false) (start disk) actions) :
    let s := (Machine.run step (start disk) actions).1
    s.calls = [] → s.pc.inPass = false → s.healthSnapshot.lastFailure = none →
      s.overflow = [] ∧ s.retry.pending = [] ∧ ∀ batch, s.pc = .drainOverflow batch →
      batch = [] := by
  intro s hcalls hpass hnone
  have hflagged : s.Flagged :=
    Machine.run_inv_of_steps (fun s action => s.clearsEarly action = false) (fun s _ => s.Flagged)
      (fun s _ action hok hflagged => hflagged.step action hok) (start disk)
      (flagged_start disk) actions h.at_step
  refine ⟨?_, ?_, fun batch hat => ?_⟩
  · by_contra hne
    rcases hflagged.overflow hne with hsome | hnotes
    · exact hsome hnone
    · rw [hcalls] at hnotes
      cases hnotes
  · by_contra hne
    exact hflagged.retry hne hnone
  · by_contra hne
    exact hflagged.held batch hat hne hnone

/-- A burst of puts of one key. -/
def putTimes (n : ℕ) :
    List Action := (List.replicate n [Action.put .certificate [1], Action.call 0]).flatten

/-- Steps of the worker over a disk that takes everything. -/
def workTimes (n : ℕ) : List Action := List.replicate n (Action.worker 0 (.ok ()))

/-- One put more than the queue holds, recorded before the worker starts. -/
def steadyRun : List Action :=
  [putTimes 65, List.replicate 3 (Action.call 0), workTimes 76].flatten

theorem health_not_green_early_steadyRun :
    (Machine.run step (start fun _ => none) steadyRun).1.overflow = [] ∧
      (Machine.run step (start fun _ => none) steadyRun).1.retry.pending = [] ∧
      ∀ batch, (Machine.run step (start fun _ => none) steadyRun).1.pc = .drainOverflow batch →
        batch = [] :=
  health_not_green_early (fun _ => none) steadyRun (by decide +kernel)
  (List.isEmpty_iff.mp (by decide +kernel))
    (by decide +kernel) (by decide +kernel)

/-- A put is written while others fill the queue; one more overflows between the worker's look at
the lanes and its clearing. -/
def greenRun : List Action :=
  [putTimes 1, workTimes 5, putTimes 65, workTimes 1, List.replicate 3 (Action.call 0),
   workTimes 3].flatten

theorem health_green_early : ¬ ∀ (disk : CacheKey → Option (List UInt8)) (actions : List Action),
    let s := (Machine.run step (start disk) actions).1
    s.calls = [] → s.pc.inPass = false → s.healthSnapshot.lastFailure = none →
      s.overflow = [] ∧ s.retry.pending = [] := by
  intro hclaim
  have hempty := (hclaim (fun _ => none) greenRun (List.isEmpty_iff.mp (by decide +kernel))
    (by decide +kernel)
    (by decide +kernel)).1
  exact absurd (List.isEmpty_iff.mpr hempty) (by decide +kernel)

/-! ## Red for ever -/

/-- Some operation under way is newer than what the disk took last of its key. -/
def awaits (s : PersistenceFacade) : Bool :=
  (callWrites s.calls ++ writes s.queue ++ s.overflow ++ s.retry.ops ++ s.pc.batch).any fun w =>
  w.Fresh s.applied

theorem awaits_iff : s.awaits = true ↔ ∃ w ∈ s.flight, w.Fresh s.applied := by
  simp only [awaits, List.any_eq_true, List.mem_append, decide_eq_true_eq, mem_flight, or_assoc]

/-- A failure is recorded, or left standing over the overflow lane, when nothing under way is newer
than what the disk took last of its key. -/
def recordsLate (s : PersistenceFacade) : Action → Bool
  | .call index =>
    match s.calls[index]? with
    | some (.note _) => !s.awaits && !s.pc.succeeded
    | _ => false
  | .worker _ _ =>
    match s.pc with
    | .pass (_ :: _) .applied _ => !s.overflow.isEmpty && !s.awaits
    | _ => false
  | _ => false

/-- A success will clear the failure: something new is under way, or a write has just succeeded. -/
def Owed (s : PersistenceFacade) : Prop := (∃ w ∈ s.flight, w.Fresh s.applied) ∨
    s.pc.succeeded = true

theorem awaits_step {history : List KeyOp} (h : s.Sound history) (action : Action)
    (htaken : (s.step action).2 = []) (hfresh : ∃ w ∈ s.flight, w.Fresh s.applied) :
    ∃ w ∈ (s.step action).1.flight, w.Fresh (s.step action).1.applied := by
  obtain ⟨version, hinv, -, hle⟩ := h.replica
  obtain ⟨version', -, hstep⟩ := step_replica h.orderly h.placed hinv.pos hle action
  rw [htaken] at hstep
  exact hstep.fresh hfresh

/-- A step of the worker that neither writes nor follows a write keeps what is owed. -/
theorem Owed.worker {history : List KeyOp} (hsound : s.Sound history) (now : ℕ)
    (result : Except String Unit)
    (hpc : s.pc.succeeded = false) (htaken : (s.workerStep now result).2 = []) (h : s.Owed) :
    (s.workerStep now result).1.Owed := by
  rcases h with hfresh | hsucceeded
  · exact .inl (awaits_step hsound (.worker now result) htaken hfresh)
  · rw [hpc] at hsucceeded
    cases hsucceeded

theorem owed_passStep {history : List KeyOp} (hsound : s.Sound history) (now : ℕ)
    (result : Except String Unit) {op : KeyOp} {rest : List KeyOp} {next : Next} {stage : PassStage}
    (hpc : s.pc = .pass (op :: rest) stage next)
    (hok : s.recordsLate (.worker now result) = false) (h : s.health.failure ≠ none → s.Owed)
    (hfailure : (s.passStep now result op rest next stage).1.health.failure ≠ none) :
    (s.passStep now result op rest next stage).1.Owed := by
  have hstep : s.workerStep now result = s.passStep now result op rest next stage := by
    unfold workerStep
    rw [hpc]
  have hkeep : s.pc.succeeded = false → (s.passStep now result op rest next stage).2 = [] → s.Owed →
      (s.passStep now result op rest next stage).1.Owed := fun hpc htaken howed =>
    hstep ▸ howed.worker hsound now result hpc (hstep ▸ htaken)
  have hmem : ∀ stage', op ∈ ({ s with pc := .pass (op :: rest) stage' next } :
    PersistenceFacade).flight := fun _ =>
    mem_flight.mpr (.inr (.inr (.inr (.inr (List.mem_cons_self ..)))))
  cases stage with
  | attempt =>
    rw [passStep] at hfailure hkeep ⊢
    unfold attempt at hfailure hkeep ⊢
    split_ifs at hfailure hkeep ⊢
    · exact hkeep (by rw [hpc]; rfl) rfl (h hfailure)
    · cases result with
      | error message => exact hkeep (by rw [hpc]; rfl) rfl (h hfailure)
      | ok => exact .inr rfl
  | applied =>
    -- the lanes that keep the failure hold something new
    have hlook : s.retry.pending = [] ∧ s.overflow = [] ∨ ∃ w ∈ s.flight, w.Fresh s.applied := by
      by_cases hretry : s.retry.pending = []
      · by_cases hoverflow : s.overflow = []
        · exact .inl ⟨hretry, hoverflow⟩
        · refine .inr (awaits_iff.mp ?_)
          simpa [recordsLate, hpc, hoverflow] using hok
      · obtain ⟨p, hp⟩ := List.exists_mem_of_ne_nil _ hretry
        have hops : p.op ∈ s.retry.ops := RetryLane.mem_ops.mpr ⟨p, hp, rfl⟩
        exact .inr ⟨p.op, mem_flight.mpr (.inr (.inr (.inr (.inl hops)))),
          hsound.placed.retries _ hops⟩
    rw [passStep]
    split_ifs with hempty
    · exact .inr rfl
    · rcases hlook with hnil | hfresh
      · simp [hnil] at hempty
      · have hnow := awaits_step hsound (.worker now result) (by
          dsimp only [step]
          rw [hstep, passStep, if_neg hempty]) hfresh
        dsimp only [step] at hnow
        rw [hstep, passStep, if_neg hempty] at hnow
        exact .inl hnow
  | recovering => exact absurd rfl hfailure
  | counting => exact hkeep (by rw [hpc]; rfl) rfl (h hfailure)
  | failed message => exact .inl ⟨op, hmem .resetting, hsound.placed.refused op rest _ next hpc rfl⟩
  | resetting => exact hkeep (by rw [hpc]; rfl) rfl (h hfailure)

theorem owed_workerStep {history : List KeyOp} (hsound : s.Sound history) (now : ℕ)
    (result : Except String Unit)
    (hok : s.recordsLate (.worker now result) = false) (h : s.health.failure ≠ none → s.Owed)
    (hfailure : (s.workerStep now result).1.health.failure ≠ none) :
    (s.workerStep now result).1.Owed := by
  have hkeep : s.pc.succeeded = false → (s.workerStep now result).2 = [] → s.Owed →
      (s.workerStep now result).1.Owed := fun hpc htaken howed =>
      howed.worker hsound now result hpc htaken
  cases hpc : s.pc with
  | pass ops stage next =>
    cases ops with
    | nil =>
      unfold workerStep at hfailure hkeep ⊢
      rw [hpc] at hfailure hkeep ⊢
      exact hkeep rfl rfl (h hfailure)
    | cons op rest =>
      unfold workerStep at hfailure ⊢
      rw [hpc] at hfailure ⊢
      exact owed_passStep hsound now result hpc hok h hfailure
  | takeReady | drainOverflow batch | finalDrain | finalReset | exiting | exited =>
    unfold workerStep at hfailure hkeep ⊢
    rw [hpc] at hfailure hkeep ⊢
    exact hkeep rfl rfl (h hfailure)
  | recv =>
    unfold workerStep at hfailure hkeep ⊢
    rw [hpc] at hfailure hkeep ⊢
    cases hqueue : s.queue with
    | nil =>
      simp only [hqueue] at hfailure hkeep ⊢
      exact hkeep rfl trivial (h hfailure)
    | cons op rest =>
      simp only [hqueue] at hfailure hkeep ⊢
      exact hkeep rfl trivial (h hfailure)
  | tryRecv batch =>
    unfold workerStep at hfailure hkeep ⊢
    rw [hpc] at hfailure hkeep ⊢
    dsimp only at hfailure hkeep ⊢
    split_ifs at hfailure hkeep ⊢
    · cases hqueue : s.queue with
      | nil =>
        simp only [hqueue] at hfailure hkeep ⊢
        exact hkeep rfl trivial (h hfailure)
      | cons op rest =>
        simp only [hqueue] at hfailure hkeep ⊢
        exact hkeep rfl trivial (h hfailure)
    · exact hkeep rfl rfl (h hfailure)
  | finalRecord =>
    have hfresh : s.retry.pending ≠ [] → ∃ w ∈ s.flight, w.Fresh s.applied := by
      intro hne
      obtain ⟨p, hp⟩ := List.exists_mem_of_ne_nil _ hne
      have hops : p.op ∈ s.retry.ops := RetryLane.mem_ops.mpr ⟨p, hp, rfl⟩
      exact ⟨p.op, mem_flight.mpr (.inr (.inr (.inr (.inl hops)))), hsound.placed.retries _ hops⟩
    unfold workerStep at hfailure hkeep ⊢
    rw [hpc] at hfailure hkeep ⊢
    dsimp only at hfailure hkeep ⊢
    split_ifs at hfailure hkeep ⊢ with hempty
    · exact hkeep rfl rfl (h hfailure)
    · exact hkeep rfl rfl (.inl (hfresh fun hnil => hempty (List.isEmpty_iff.mpr hnil)))

theorem callStep_failure (s : PersistenceFacade) (index : ℕ) :
    (s.callStep index).health.failure = s.health.failure ∨
    ∃ message, s.calls[index]? = some (.note message) := by
  unfold callStep
  cases hcall : s.calls[index]? with
  | none => exact .inl rfl
  | some call =>
    cases call with
    | send op =>
      refine .inl ?_
      dsimp only
      split_ifs <;> rfl
    | park op | reset => exact .inl rfl
    | note message => exact .inr ⟨message, rfl⟩

/-- **A recorded failure is owed a success**, and every step keeps it so. -/
theorem owed_step {history : List KeyOp} (hsound : s.Sound history) (action : Action)
    (hok : s.recordsLate action = false) (h : s.health.failure ≠ none → s.Owed)
    (hfailure : (s.step action).1.health.failure ≠ none) : (s.step action).1.Owed := by
  -- a callback moves nothing of the worker
  have hkeep : (s.step action).1.pc = s.pc → (s.step action).2 = [] → s.Owed →
    (s.step action).1.Owed := by
    intro hpc htaken howed
    rcases howed with hfresh | hsucceeded
    · exact .inl (awaits_step hsound action htaken hfresh)
    · exact .inr (hpc ▸ hsucceeded)
  cases action with
  | put key bytes =>
    refine hkeep ?_ rfl (h ?_)
    · dsimp only [step, put]
      split_ifs <;> rfl
    · dsimp only [step, put] at hfailure
      split_ifs at hfailure <;> exact hfailure
  | remove key | clearAll =>
    refine hkeep ?_ rfl (h ?_)
    · dsimp only [step]
      split_ifs <;> rfl
    · dsimp only [step] at hfailure
      split_ifs at hfailure <;> exact hfailure
  | call index =>
    refine hkeep (callStep_frame s index).2.2.1 rfl ?_
    rcases callStep_failure s index with hsame | ⟨message, hcall⟩
    · refine h ?_
      rw [← hsame]
      exact hfailure
    · have hnow : s.awaits = true ∨ s.pc.succeeded = true := by
        simp only [recordsLate, hcall] at hok
        cases hawaits : s.awaits with
        | true => exact .inl rfl
        | false =>
          rw [hawaits] at hok
          exact .inr (by simpa using hok)
      exact hnow.imp_left awaits_iff.mp
  | drop =>
    refine hkeep ?_ rfl (h ?_)
    · dsimp only [step]
      split_ifs <;> rfl
    · dsimp only [step] at hfailure
      split_ifs at hfailure <;> exact hfailure
  | worker now result => exact owed_workerStep hsound now result hok h hfailure

/-- **Health recovers.** Where no failure is recorded or left standing with everything under way
superseded, a state with nothing under way reports no failure. -/
theorem health_recovers (disk : CacheKey → Option (List UInt8)) (actions : List Action)
    (h : Machine.Along step (fun s action => s.recordsLate action = false) (start disk) actions) :
    let s := (Machine.run step (start disk) actions).1
    s.Drained → s.healthSnapshot.lastFailure = none := by
  intro s hdrained
  have hinv : s.Sound (Machine.run step (start disk) actions).2 ∧
    (s.health.failure ≠ none → s.Owed) :=
    Machine.run_inv_of_steps (fun s action => s.recordsLate action = false)
      (fun s history => s.Sound history ∧ (s.health.failure ≠ none → s.Owed))
      (fun s history action hok hinv => ⟨sound_step hinv.1 action,
        owed_step hinv.1 action hok hinv.2⟩) (start disk)
      ⟨sound_start disk, fun hne => absurd rfl hne⟩ actions h.at_step
  by_contra hne
  rcases hinv.2 hne with ⟨w, hw, -⟩ | hsucceeded
  · rw [hdrained.flight] at hw
    exact hw
  · -- the operation that succeeded is still in hand
    have hbatch := hdrained.batch
    unfold WorkerPc.succeeded at hsucceeded
    split at hsucceeded
    · rename_i hpc
      rw [hpc] at hbatch
      cases hbatch
    · rename_i hpc
      rw [hpc] at hbatch
      cases hbatch
    · cases hsucceeded

theorem health_recovers_steadyRun :
    (Machine.run step (start fun _ => none) steadyRun).1.healthSnapshot.lastFailure = none :=
  health_recovers (fun _ => none) steadyRun (by decide +kernel)
    { calls := List.isEmpty_iff.mp (by decide +kernel)
      queue := List.isEmpty_iff.mp (by decide +kernel)
      overflow := List.isEmpty_iff.mp (by decide +kernel)
      retry := List.isEmpty_iff.mp (by decide +kernel)
      batch := List.isEmpty_iff.mp (by decide +kernel) }

/-- One put more than the queue holds, whose callback records its failure after everything is
written. -/
def redRun : List Action :=
  [putTimes 65, List.replicate 1 (Action.call 0), workTimes 74,
   List.replicate 2 (Action.call 0)].flatten

theorem health_red_for_ever : ¬ ∀ (disk : CacheKey → Option (List UInt8)) (actions : List Action),
    (∀ key bytes, .put key bytes ∈ actions → bytes.length ≤ maxPlaintextLen) →
      let s := (Machine.run step (start disk) actions).1
      s.health.alive = true → s.Drained → s.healthSnapshot.lastFailure = none := by
  intro hclaim
  have hput : ∀ key bytes, .put key bytes ∈ redRun → bytes.length ≤ maxPlaintextLen := by
    intro key bytes hmem
    have hsame : ∀ n, Action.put key bytes ∈ putTimes n → bytes = [1] := by
      intro n h
      obtain ⟨actions, hactions, hput⟩ := List.mem_flatten.mp h
      rw [List.eq_of_mem_replicate hactions] at hput
      simp at hput
      exact hput.2
    have hburst : Action.put key bytes ∈ putTimes 65 := by
      simpa [redRun, workTimes, List.mem_replicate] using hmem
    rw [hsame _ hburst]
    decide
  have hlast := hclaim (fun _ => none) redRun hput (by decide +kernel)
    { calls := List.isEmpty_iff.mp (by decide +kernel)
      queue := List.isEmpty_iff.mp (by decide +kernel)
      overflow := List.isEmpty_iff.mp (by decide +kernel)
      retry := List.isEmpty_iff.mp (by decide +kernel)
      batch := List.isEmpty_iff.mp (by decide +kernel) }
  exact absurd (Option.isNone_iff_eq_none.mpr hlast) (by decide +kernel)

end PersistenceFacade

end ProtonWire
