import ProtonWire.Scheduler.Suppression

/-!
# What the automatic door waits for

The automatic door checks the eligibility and the suppression. No document of the scheduler
suppresses beyond its eligibility, so the eligibility decides.

* `World.Ordered`; **`ordered_run`**: so it is in every reachable world;
* **`refreshAutomatic_notDue_iff`**: when the door answers `NotDue`;
* `notDue_step`: what a step that answers `NotDue` found.
-/

namespace ProtonWire

/-! ## Ordered deadlines -/

/-- A document suppresses at most until its eligibility. -/
def SchedulerDeadlines.Ordered (d : SchedulerDeadlines) : Prop :=
  ∀ s, d.suppressionUntilUnix = some s → ∃ next, d.nextEligibleUnix = some next ∧ s ≤ next

/-- The documents on disk and in memory are ordered. -/
structure World.Ordered (w : World) : Prop where
  disk : ∀ d, w.deadlines = some d → d.Ordered
  memory : ∀ p, w.process = some p → p.inner.persisted.Ordered

theorem rederive_ordered {d : SchedulerDeadlines} (h : d.Ordered) :
    (rederiveCrashPacing d).Ordered := by
  intro s hs
  rw [(rederive_fields d).2.2.1] at hs
  obtain ⟨next, hnext, hle⟩ := h s hs
  unfold rederiveCrashPacing
  split
  · exact ⟨next, hnext, hle⟩
  · next lastRequest hlast =>
    split_ifs with hfloor
    · rw [hnext, Option.all_some, decide_eq_true_eq] at hfloor
      exact ⟨_, rfl, hle.trans hfloor.le⟩
    · exact ⟨next, hnext, hle⟩

theorem settleDeadlines_ordered (door : Door) (deadline : Deadline) (now : ℕ)
    (d : SchedulerDeadlines) :
    (settleDeadlines door deadline now d).Ordered := by
  intro s hs
  refine ⟨_, rfl, ?_⟩
  change mergeSuppression _ _ = some s at hs
  rw [hs]
  exact le_max_right _ _

theorem settleSave_persisted (σ : Section) (fault : Option DeadlineStoreError) :
    (settleSave σ fault).inner.persisted = σ.inner.persisted := by
  obtain ⟨healthy, hset⟩ := settleSave_inner σ fault
  rw [hset]

theorem leadFinish_ordered (J : Serde) (config : SchedulerConfig) (env : FinishEnv) (lead : Lead)
    (fetched : Except FetchFailure FetchOutcome) (σ : Section) :
    (leadFinish J config env lead fetched σ).2.inner.persisted.Ordered := by
  obtain ⟨door, deadline, now, d, hsettled⟩ : ∃ door deadline now d,
      (leadFinish J config env lead fetched σ).2.inner.persisted =
      settleDeadlines door deadline now d :=
    ⟨_, _, _, _, settleSave_persisted _ _⟩
  rw [hsettled]
  exact settleDeadlines_ordered door deadline now d

/-- **Every step keeps the documents ordered.** -/
theorem ordered_step (J : Serde) (w : World) (a : Action) (hs : w.Sound) (ho : w.Ordered) :
    (step J w a).1.Ordered := by
  have hcase := step_case J w a
  generalize step J w a = r at hcase
  cases hcase with
  | stutter => exact ho
  | boot config deadlinesFault cacheFault off =>
    refine ⟨ho.disk, fun p on => ?_⟩
    cases on
    apply rederive_ordered
    cases hd : w.deadlines with
    | none => exact fun s hs => by cases hs
    | some d => exact ho.disk d hd
  | crash => exact ⟨ho.disk, fun p on => by cases on⟩
  | park a p caller door entry running on =>
    refine ⟨ho.disk, fun p' on' => ?_⟩
    cases on'
    exact ho.memory p on
  | join a p caller door entry seen report on =>
    refine ⟨ho.disk, fun p' on' => ?_⟩
    cases on'
    exact ho.memory p on
  | answer a p caller door entry env outcome σ on atDoor free result =>
    have ans := answered_of_result result
    refine ⟨fun d hd => ho.disk d (ans.deadlines.symm.trans hd), fun p' on' => ?_⟩
    cases on'
    change σ.inner.persisted.Ordered
    rw [ans.persisted]
    exact ho.memory p on
  | lead a p caller door entry env lead σ on atDoor free result =>
    have led := led_of_result (hs p on).versioned result
    have hmemory : σ.inner.persisted.Ordered := by
      rw [led.persisted]
      exact ho.memory p on
    refine ⟨fun d hd => ?_, fun p' on' => ?_⟩
    · change σ.deadlines = some d at hd
      rcases led.saves.disk with ⟨hsame, -⟩ | hgate | hanchor
      · exact ho.disk d (hsame.symm.trans hd)
      · cases hgate.symm.trans hd
        exact ho.memory p on
      · cases hanchor.symm.trans hd
        exact hmemory
    · cases on'
      exact hmemory
  | invoke p caller lead on =>
    refine ⟨ho.disk, fun p' on' => ?_⟩
    cases on'
    exact ho.memory p on
  | finish p caller lead fetched env report σ on completing result =>
    have fin := finished_of_eq result
    have hmemory : σ.inner.persisted.Ordered := by
      have := leadFinish_ordered J p.config env lead fetched (w.section p)
      rwa [result] at this
    refine ⟨fun d hd => ?_, fun p' on' => ?_⟩
    · change σ.deadlines = some d at hd
      rcases fin.saves (hs p on).versioned with ⟨hsaved, -⟩ | ⟨hsame, -⟩
      · cases hsaved.symm.trans hd
        exact hmemory
      · exact ho.disk d (hsame.symm.trans hd)
    · cases on'
      exact hmemory

/-- **Every document the scheduler writes is ordered**, and so is the one in memory. -/
theorem ordered_run (J : Serde) (servers : Option CachedCatalog) (actions : List Action) :
    (runFrom J none servers actions).1.Sound ∧ (runFrom J none servers actions).1.Ordered := by
  refine Machine.run_state_inv (fun w : World => w.Sound ∧ w.Ordered) (fun w a h => ?_) _ ?_ actions
  · exact ⟨sound_step J w a h.1, ordered_step J w a h.1 h.2⟩
  · exact ⟨sound_cold none servers, ⟨fun d hd => (by cases hd), fun p on => (by cases on)⟩⟩

theorem nextEligible_step {J : Serde} {w : World} {a : Action} {p p' : Process} (hs : w.Sound)
    (on : w.process = some p) (on' : (step J w a).1.process = some p')
    (h : p.inner.persisted.nextEligibleUnix ≠ none) :
    p'.inner.persisted.nextEligibleUnix ≠ none := by
  have hcase := step_case J w a
  generalize step J w a = r at hcase on'
  cases hcase with
  | stutter =>
    cases on.symm.trans on'
    exact h
  | boot config deadlinesFault cacheFault off => rw [off] at on; cases on
  | crash => cases on'
  | park a q caller door entry running onq =>
    cases onq.symm.trans on
    cases on'
    exact h
  | join a q caller door entry seen report onq =>
    cases onq.symm.trans on
    cases on'
    exact h
  | answer a q caller door entry env outcome σ onq atDoor free result =>
    cases onq.symm.trans on
    cases on'
    change σ.inner.persisted.nextEligibleUnix ≠ none
    rwa [(answered_of_result result).persisted]
  | lead a q caller door entry env lead σ onq atDoor free result =>
    cases onq.symm.trans on
    cases on'
    change σ.inner.persisted.nextEligibleUnix ≠ none
    rwa [(led_of_result (hs p on).versioned result).persisted]
  | invoke q caller lead onq =>
    cases onq.symm.trans on
    cases on'
    exact h
  | finish q caller lead fetched env report σ onq completing result =>
    cases onq.symm.trans on
    cases on'
    obtain ⟨next, hnext, -⟩ := (finished_of_eq result).nextEligible
    change σ.inner.persisted.nextEligibleUnix ≠ none
    simp [hnext]

/-! ## A door that answers `NotDue` -/

theorem pending_eq_some {deadline : Option ℕ} {now due : ℕ} :
    pending deadline now = some due ↔ deadline = some due ∧ now < due := by
  rw [pending, Option.filter_eq_some_iff, decide_eq_true_eq]

/-- **The door answers `NotDue` exactly below the eligibility**: the suppression adds nothing. -/
theorem refreshAutomatic_notDue_iff (config : SchedulerConfig) (env : DoorEnv) (entry : Option ℕ)
    {σ : Section} (ho : σ.inner.persisted.Ordered) :
    (∃ due, (refreshAutomatic config env entry σ).1 = .answer (.automatic (.notDue due))) ↔
    ∃ next, σ.inner.persisted.nextEligibleUnix = some next ∧ σ.inner.effective env.now < next := by
  unfold refreshAutomatic
  simp only [observeNow]
  cases hnext : pending σ.inner.persisted.nextEligibleUnix (σ.inner.effective env.now) with
  | some next => exact iff_of_true ⟨next, rfl⟩ ⟨next, pending_eq_some.mp hnext⟩
  | none =>
    have hopen : ∀ next, σ.inner.persisted.nextEligibleUnix = some next →
      ¬ σ.inner.effective env.now < next := by
      intro next heq hlt
      rw [pending_eq_some.mpr ⟨heq, hlt⟩] at hnext
      cases hnext
    have hfree : pending σ.inner.persisted.suppressionUntilUnix (σ.inner.effective env.now) =
      none := by
      cases hsup : pending σ.inner.persisted.suppressionUntilUnix (σ.inner.effective env.now) with
      | none => rfl
      | some until_ =>
        obtain ⟨heq, hlt⟩ := pending_eq_some.mp hsup
        obtain ⟨next, hnext, hle⟩ := ho until_ heq
        exact absurd (hlt.trans_le hle) (hopen next hnext)
    dsimp only
    rw [hfree]
    refine iff_of_false ?_ ?_
    · rintro ⟨due, hdue⟩
      cases hdue
    · rintro ⟨next, heq, hlt⟩
      exact hopen next heq hlt

theorem ceremony_manual (σ : Section) (now : ℕ) (fill : Option (Vector UInt8 32)) :
    ∃ outcome, (ceremony σ now fill).1 = .answer (.manual outcome) := by
  unfold ceremony
  split <;> exact ⟨_, rfl⟩

theorem refreshManual_answer {config : SchedulerConfig} {env : DoorEnv} {token : Option String}
    {entry : Option ℕ} {σ : Section} {outcome : CallOutcome}
    (h : (refreshManual config env token entry σ).1 = .answer outcome) :
    ∃ answer, outcome = .manual answer := by
  unfold refreshManual at h
  dsimp only at h
  split at h
  · cases h
    exact ⟨_, rfl⟩
  · split at h
    · cases h
    · have hceremony : ∀ σ now fill, (ceremony σ now fill).1 = Verdict.answer outcome →
          ∃ answer, outcome = .manual answer := by
        intro σ now fill hanswer
        obtain ⟨answer, hmanual⟩ := ceremony_manual σ now fill
        cases hmanual.symm.trans hanswer
        exact ⟨answer, rfl⟩
      split at h
      · exact hceremony _ _ _ h
      · split at h
        · exact hceremony _ _ _ h
        · split at h
          · cases h
          · exact hceremony _ _ _ h

/-- A call that was answered with `NotDue`. -/
def CallerState.isNotDue : CallerState → Bool
  | .returned _ _ (.automatic (.notDue _)) => true
  | _ => false

theorem admission_notDue {w : World} {p p' : Process} {caller c : ℕ} {door : Door}
    {entry : Option ℕ} {env : DoorEnv} (ho : p.inner.persisted.Ordered)
    (on' : (w.admission p caller door entry env).1.process = some p')
    (hbefore : (p.callers c).isNotDue = false) (hafter : (p'.callers c).isNotDue = true) :
    p'.inner.persisted = p.inner.persisted ∧
      ∃ next, p.inner.persisted.nextEligibleUnix = some next ∧ env.now.wall < next := by
  have hresult := passDoor_result p.config env door entry (w.section p)
  unfold World.admission at on'
  generalize hpass : passDoor p.config env door entry (w.section p) = r at hresult on'
  obtain ⟨verdict, σ⟩ := r
  cases verdict with
  | lead lead =>
    cases on'
    by_cases heq : c = caller
    · simp [heq, CallerState.isNotDue] at hafter
    · simp [Function.update_of_ne heq, hbefore] at hafter
  | answer outcome =>
    cases on'
    by_cases heq : c = caller
    swap
    · simp [Function.update_of_ne heq, hbefore] at hafter
    simp only [heq, Function.update_self] at hafter
    obtain ⟨due, rfl⟩ : ∃ due, outcome = .automatic (.notDue due) := by
      unfold CallerState.isNotDue at hafter
      split at hafter
      · next due houtcome =>
        cases houtcome
        exact ⟨_, rfl⟩
      · cases hafter
    refine ⟨(answered_of_result hresult).persisted, ?_⟩
    cases door with
    | automatic =>
      have hnotDue : ∃ due, (refreshAutomatic p.config env entry (w.section p)).1 =
          .answer (.automatic (.notDue due)) := ⟨due, congrArg Prod.fst hpass⟩
      obtain ⟨next, hnext, hlt⟩ := (refreshAutomatic_notDue_iff p.config env entry ho).mp hnotDue
      exact ⟨next, hnext, (le_max_left _ _).trans_lt hlt⟩
    | manual token =>
      obtain ⟨answer, hanswer⟩ := refreshManual_answer (congrArg Prod.fst hpass)
      cases hanswer

theorem loop_notDue {w : World} {p p' : Process} {caller c : ℕ} {door : Door} {entry : Option ℕ}
    {env : DoorEnv}
    (ho : p.inner.persisted.Ordered) (on' : (w.loop p caller door entry env).1.process = some p')
    (hbefore : (p.callers c).isNotDue = false) (hafter : (p'.callers c).isNotDue = true) :
    p'.inner.persisted = p.inner.persisted ∧
      ∃ next, p.inner.persisted.nextEligibleUnix = some next ∧ env.now.wall < next := by
  unfold World.loop at on'
  split at on'
  · cases on'
    by_cases heq : c = caller
    · simp [heq, CallerState.isNotDue] at hafter
    · simp [Function.update_of_ne heq, hbefore] at hafter
  · exact admission_notDue ho on' hbefore hafter

/-- The reading a section's door takes. -/
def wallOf : Action → ℕ
  | .call _ _ env => env.now.wall
  | .wake _ env => env.now.wall
  | _ => 0

/-- **What a step that answers `NotDue` found**: an eligibility beyond its reading, which it
keeps. -/
theorem notDue_step {J : Serde} {w : World} {a : Action} {p p' : Process} {c : ℕ}
    (on : w.process = some p)
    (ho : p.inner.persisted.Ordered) (on' : (step J w a).1.process = some p')
    (hbefore : (p.callers c).isNotDue = false) (hafter : (p'.callers c).isNotDue = true) :
    p'.inner.persisted = p.inner.persisted ∧
      ∃ next, p.inner.persisted.nextEligibleUnix = some next ∧ wallOf a < next := by
  -- a step that leaves the call where it was answers nothing
  have hsame : ∀ {q : Process}, q.callers c = p.callers c → some q ≠ some p' := by
    rintro q hq hp
    cases hp
    rw [hq, hbefore] at hafter
    cases hafter
  cases a with
  | boot config deadlinesFault cacheFault =>
    simp only [step, on] at on'
    exact absurd on' (hsame rfl)
  | crash =>
    simp only [step, on] at on'
    cases on'
  | call caller door env =>
    simp only [step, on] at on'
    split at on'
    · exact loop_notDue ho on' hbefore hafter
    · exact absurd (on.symm.trans on') (hsame rfl)
  | wake caller env =>
    simp only [step, on] at on'
    split at on'
    · next door entry seen hwaiting =>
      unfold World.rejoin at on'
      split_ifs at on'
      · exact absurd (on.symm.trans on') (hsame rfl)
      · split at on'
        · split_ifs at on'
          · cases on'
            by_cases heq : c = caller
            · cases door <;> simp [heq, CallerState.isNotDue, Door.joined, Door.refreshed] at hafter
            · simp [Function.update_of_ne heq, hbefore] at hafter
          · exact loop_notDue ho on' hbefore hafter
        · exact loop_notDue ho on' hbefore hafter
    · exact absurd (on.symm.trans on') (hsame rfl)
  | invoke caller =>
    simp only [step, on] at on'
    split at on'
    · split_ifs at on'
      · cases on'
        by_cases heq : c = caller
        · simp [heq, CallerState.isNotDue] at hafter
        · simp [Function.update_of_ne heq, hbefore] at hafter
      · exact absurd (on.symm.trans on') (hsame rfl)
    · exact absurd (on.symm.trans on') (hsame rfl)
  | finish caller env =>
    have hcomplete : ∀ lead fetched, (w.complete J p caller lead fetched env).1.process ≠
      some p' := by
      intro lead fetched hp
      unfold World.complete at hp
      cases hp
      by_cases heq : c = caller
      · cases hdoor : lead.admission.door <;>
          simp [heq, CallerState.isNotDue, Door.refreshed, hdoor] at hafter
      · simp [Function.update_of_ne heq, hbefore] at hafter
    simp only [step, on] at on'
    split at on'
    · exact absurd on' (hcomplete _ _)
    · split_ifs at on'
      · exact absurd (on.symm.trans on') (hsame rfl)
      · exact absurd on' (hcomplete _ _)
    · exact absurd (on.symm.trans on') (hsame rfl)

end ProtonWire
