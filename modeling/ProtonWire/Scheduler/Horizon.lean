import ProtonWire.Api.Catalog
import ProtonWire.Scheduler.Eligibility

/-!
# The catalog stays within reach

The scheduler behind the adapter of `crates/api/src/catalog.rs`: no answer of the upstream, and no
crash, puts the next fetch off further than a horizon after the greatest time the scheduler has
seen.

* `horizon`: the longest delay that a completed fetch can ask for;
* `SchedulerDeadlines.Within`: a document whose deadlines keep to it; `within_step`, `within_run`;
* **`catalog_stays_reachable`**.
-/

namespace ProtonWire

open U64

/-- **The longest a deadline can lie behind the time it is computed at.** -/
def horizon (interval jitter : ℕ) : ℕ :=
  max (max interval freshnessFloorSeconds) retryAfterCeilingSeconds + jitter

/-- The document's deadlines keep to a span from its high-water mark. -/
structure SchedulerDeadlines.Within (d : SchedulerDeadlines) (span : ℕ) : Prop where
  lastRequest : ∀ t, d.lastRequestUnix = some t → t ≤ d.wallHighWaterUnix
  nextEligible : ∀ t, d.nextEligibleUnix = some t → t ≤ d.wallHighWaterUnix + span
  suppression : ∀ t, d.suppressionUntilUnix = some t → t ≤ d.wallHighWaterUnix + span

/-- The policy of every boot keeps to an interval and a jitter, and every answer comes through the
adapter. -/
def Action.Adapted (interval jitter : ℕ) : Action → Prop
  | .boot config _ _ => config.refreshIntervalSeconds ≤ interval ∧
    config.maxPositiveJitterSeconds ≤ jitter
  | .finish _ env => ∀ answer, env.answer = some answer →
    ∃ adapter, answer = CatalogService.fetch adapter
  | _ => True

variable {interval jitter : ℕ}

/-! ## One deadline -/

theorem satAdd_le (a b : ℕ) : satAdd a b ≤ a + b := Nat.min_le_left _ _

theorem raw_le {i : DeadlineInputs} {delay : ℕ} (hlifetime : i.protonLifetimeSeconds = none)
    (horigin : i.origin ≤ i.nowUnix) (hinterval : i.configuredIntervalSeconds ≤ delay)
    (hfloor : freshnessFloorSeconds ≤ delay)
    (hretry : ∀ t, i.retryAfterSeconds = some t → t ≤ delay) :
    i.raw.1 ≤ i.nowUnix + delay := by
  have hspan : i.span.1 ≤ delay := by
    have hmax := floorSpan_fst i
    have hle : Nat.max i.configuredIntervalSeconds freshnessFloorSeconds ≤ delay :=
      Nat.max_le.mpr ⟨hinterval, hfloor⟩
    rw [DeadlineInputs.span, hlifetime]
    exact hmax.trans_le hle
  have hplain : satAdd i.origin i.span.1 ≤ i.nowUnix + delay := by
    have := satAdd_le i.origin i.span.1
    omega
  unfold DeadlineInputs.raw
  split
  · next t ht =>
    have := satAdd_le i.nowUnix t
    have := hretry t ht
    split
    · show satAdd i.nowUnix t ≤ _
      omega
    · exact hplain
  · exact hplain

theorem SchedulerDeadlines.Within.rederive {d : SchedulerDeadlines} {span : ℕ} (h : d.Within span)
    (hfloor : freshnessFloorSeconds ≤ span) : (rederiveCrashPacing d).Within span := by
  obtain ⟨hlast, hhigh, hsuppression, -⟩ := rederive_fields d
  refine ⟨by
    rw [hlast, hhigh]; exact h.lastRequest, ?_, by rw [hsuppression, hhigh]; exact h.suppression⟩
  rw [hhigh]
  unfold rederiveCrashPacing
  split
  · exact h.nextEligible
  · next lastRequest hrequest =>
    split
    · intro t ht
      have hsum : satAdd lastRequest freshnessFloorSeconds = t := Option.some_inj.mp ht
      have := satAdd_le lastRequest freshnessFloorSeconds
      have := h.lastRequest lastRequest hrequest
      omega
    · exact h.nextEligible

theorem SchedulerDeadlines.Within.anchor {d : SchedulerDeadlines} {span : ℕ} (h : d.Within span)
    (started : ℕ) :
    (anchorDeadlines d started).Within span := by
  refine ⟨?_, fun t ht => ?_, fun t ht => ?_⟩
  · rintro t ⟨⟩
    exact le_max_right _ _
  · exact (h.nextEligible t ht).trans (Nat.add_le_add_right (le_max_left _ _) span)
  · exact (h.suppression t ht).trans (Nat.add_le_add_right (le_max_left _ _) span)

theorem SchedulerDeadlines.Within.settle {d : SchedulerDeadlines} {span : ℕ} (h : d.Within span)
    (door : Door) {deadline : Deadline} {now : ℕ} (hnext : deadline.nextEligibleUnix ≤ now + span)
    (hsuppression : ∀ t, deadline.suppressionUntilUnix = some t → t ≤ now + span) :
    (settleDeadlines door deadline now d).Within span := by
  obtain ⟨hlast, hhigh, hsup, -⟩ := countRefresh_fields door d
  have hmerged : ∀ t, mergeSuppression d.suppressionUntilUnix deadline.suppressionUntilUnix =
    some t →
      t ≤ max d.wallHighWaterUnix now + span := by
    intro t ht
    unfold mergeSuppression at ht
    split at ht
    · next e he =>
      cases ht
      have hold := h.suppression e he
      cases hfresh : deadline.suppressionUntilUnix with
      | none => simp only [Option.getD_none]; omega
      | some s =>
        have := hsuppression s hfresh
        simp only [Option.getD_some]
        omega
    · have := hsuppression t ht
      omega
  have hwater : (settleDeadlines door deadline now d).wallHighWaterUnix =
    max d.wallHighWaterUnix now := by
    rw [← hhigh]
    rfl
  have hheld : (settleDeadlines door deadline now d).suppressionUntilUnix =
      mergeSuppression d.suppressionUntilUnix deadline.suppressionUntilUnix := by
    rw [← hsup]
    rfl
  refine ⟨fun t ht => ?_, fun t ht => ?_, fun t ht => ?_⟩
  · have hrequest : d.lastRequestUnix = some t := hlast.symm.trans ht
    rw [hwater]
    exact (h.lastRequest t hrequest).trans (le_max_left _ _)
  · have hmax : max deadline.nextEligibleUnix
        ((mergeSuppression (countRefresh door d).suppressionUntilUnix
          deadline.suppressionUntilUnix).getD 0) = t :=
      Option.some_inj.mp ht
    rw [hwater, ← hmax, hsup]
    refine max_le (by omega) ?_
    cases hmerge : mergeSuppression d.suppressionUntilUnix deadline.suppressionUntilUnix with
    | none => exact Nat.zero_le _
    | some s => exact hmerged s hmerge
  · rw [hwater]
    exact hmerged t (hheld.symm.trans ht)

/-! ## Runs -/

/-- The documents on disk and in memory keep to the horizon, and so does the policy. -/
structure World.Within (w : World) (interval jitter : ℕ) : Prop where
  disk : ∀ d, w.deadlines = some d → d.Within (horizon interval jitter)
  memory : ∀ p, w.process = some p → p.inner.persisted.Within (horizon interval jitter)
  policy : ∀ p, w.process = some p →
    p.config.refreshIntervalSeconds ≤ interval ∧ p.config.maxPositiveJitterSeconds ≤ jitter

theorem leadFinish_settled (J : Serde) (config : SchedulerConfig) (env : FinishEnv) (lead : Lead)
    (fetched : Except FetchFailure FetchOutcome) (σ : Section) :
    ∃ success, (leadFinish J config env lead fetched σ).2.inner.persisted =
      settleDeadlines lead.admission.door (finishDeadline config env lead fetched σ.inner)
      (finishTime env lead σ.inner)
        { σ.inner.persisted with lastSuccessUnix := success } := by
  obtain ⟨etag, cache, success, hinner, -, -⟩ :=
    applyFetched_frame J fetched (finishTime env lead σ.inner) env.cacheFault
    { σ.tracked env.now with events := σ.events ++ fetchedEvents config env lead fetched σ.inner }
  refine ⟨success, ?_⟩
  have hsettled : (leadFinish J config env lead fetched σ).2.inner.persisted =
      settleDeadlines lead.admission.door (finishDeadline config env lead fetched σ.inner)
      (finishTime env lead σ.inner)
        (applyFetched J fetched (finishTime env lead σ.inner) env.cacheFault
          { σ.tracked env.now with
            events := σ.events ++ fetchedEvents config env lead fetched σ.inner
              }).2.inner.persisted :=
    settleSave_persisted _ _
  rw [hsettled, hinner]
  rfl

theorem leadFinish_within (J : Serde) {config : SchedulerConfig} (env : FinishEnv) (lead : Lead)
    {fetched : Except FetchFailure FetchOutcome} {σ : Section}
    (h : σ.inner.persisted.Within (horizon interval jitter))
    (hinterval : config.refreshIntervalSeconds ≤ interval)
    (hjitter : config.maxPositiveJitterSeconds ≤ jitter)
    (hretry : ∀ t, retryAfter fetched = some t → t ≤ retryAfterCeilingSeconds) :
    (leadFinish J config env lead fetched σ).2.inner.persisted.Within
    (horizon interval jitter) := by
  obtain ⟨success, hsettled⟩ := leadFinish_settled J config env lead fetched σ
  rw [hsettled]
  have hraw : (finishInputs config lead.started (finishTime env lead σ.inner)
    fetched env.rolls).raw.1 ≤
      finishTime env lead σ.inner + max (max interval freshnessFloorSeconds)
        retryAfterCeilingSeconds := by
    refine raw_le rfl (le_max_right _ _) ?_ ?_ fun t ht => ?_
    · exact hinterval.trans ((le_max_left _ _).trans (le_max_left _ _))
    · exact (le_max_right _ _).trans (le_max_left _ _)
    · exact (hretry t ht).trans (le_max_right _ _)
  have hdrawn := drawJitter_le config.maxPositiveJitterSeconds env.rolls
  have hbefore : ({ σ.inner.persisted with lastSuccessUnix := success } : SchedulerDeadlines).Within
      (horizon interval jitter) := ⟨h.lastRequest, h.nextEligible, h.suppression⟩
  refine hbefore.settle _ ?_ fun t ht => ?_
  · have := satAdd_le (finishInputs config lead.started (finishTime env lead σ.inner)
      fetched env.rolls).raw.1
      (drawJitter config.maxPositiveJitterSeconds env.rolls)
    show satAdd _ (drawJitter config.maxPositiveJitterSeconds env.rolls) ≤ _
    unfold horizon
    omega
  · have hvalue : (if isRateLimited fetched then
        some (finishInputs config lead.started (finishTime env lead σ.inner)
          fetched env.rolls).raw.1 else none) =
          some t := ht
    split at hvalue
    · cases hvalue
      unfold horizon
      omega
    · cases hvalue

/-- **Every step keeps to the horizon.** -/
theorem within_step (J : Serde) (w : World) (a : Action) (hs : w.Sound)
    (hw : w.Within interval jitter)
    (ha : a.Adapted interval jitter) : (step J w a).1.Within interval jitter := by
  have hfloor : freshnessFloorSeconds ≤ horizon interval jitter := by
    unfold horizon
    omega
  have hcase := step_case J w a
  generalize step J w a = r at hcase
  cases hcase with
  | stutter => exact hw
  | boot config deadlinesFault cacheFault off =>
    refine ⟨hw.disk, fun p on => ?_, fun p on => ?_⟩
    · cases on
      refine SchedulerDeadlines.Within.rederive ?_ hfloor
      cases hd : w.deadlines with
      | none => exact ⟨by rintro t ⟨⟩, by rintro t ⟨⟩, by rintro t ⟨⟩⟩
      | some d => exact hw.disk d hd
    · cases on
      exact ha
  | crash => exact ⟨hw.disk, fun p on => (by cases on), fun p on => (by cases on)⟩
  | park a p caller door entry running on =>
    refine ⟨hw.disk, fun p' on' => ?_, fun p' on' => ?_⟩ <;> cases on'
    · exact hw.memory p on
    · exact hw.policy p on
  | join a p caller door entry seen report on =>
    refine ⟨hw.disk, fun p' on' => ?_, fun p' on' => ?_⟩ <;> cases on'
    · exact hw.memory p on
    · exact hw.policy p on
  | answer a p caller door entry env outcome σ on atDoor free result =>
    have ans := answered_of_result result
    refine ⟨fun d hd => hw.disk d (ans.deadlines.symm.trans hd), fun p' on' => ?_,
      fun p' on' => ?_⟩ <;> cases on'
    · change σ.inner.persisted.Within _
      rw [ans.persisted]
      exact hw.memory p on
    · exact hw.policy p on
  | lead a p caller door entry env lead σ on atDoor free result =>
    have led := led_of_result (hs p on).versioned result
    have hmemory : σ.inner.persisted.Within (horizon interval jitter) := by
      rw [led.persisted]
      exact (hw.memory p on).anchor lead.started
    refine ⟨fun d hd => ?_, fun p' on' => ?_, fun p' on' => ?_⟩
    · change σ.deadlines = some d at hd
      rcases led.saves.disk with ⟨hsame, -⟩ | hgate | hanchor
      · exact hw.disk d (hsame.symm.trans hd)
      · cases hgate.symm.trans hd
        exact hw.memory p on
      · cases hanchor.symm.trans hd
        exact hmemory
    · cases on'
      exact hmemory
    · cases on'
      exact hw.policy p on
  | invoke p caller lead on =>
    refine ⟨hw.disk, fun p' on' => ?_, fun p' on' => ?_⟩ <;> cases on'
    · exact hw.memory p on
    · exact hw.policy p on
  | finish p caller lead fetched env report σ on completing result =>
    have fin := finished_of_eq result
    have hretry : ∀ t, retryAfter fetched = some t → t ≤ retryAfterCeilingSeconds := by
      intro t ht
      obtain ⟨-, rfl⟩ | ⟨-, -, rfl⟩ := completing
      · cases hanswer : env.answer with
        | none => simp [catchUnwind, hanswer, retryAfter] at ht
        | some answer =>
          obtain ⟨adapter, rfl⟩ := ha answer hanswer
          rw [catchUnwind, hanswer, Option.getD_some] at ht
          exact retryAfter_fetch_le ht
      · simp [refusedFetch, retryAfter] at ht
    have hmemory : σ.inner.persisted.Within (horizon interval jitter) := by
      have hwithin : (w.section p).inner.persisted.Within (horizon interval jitter) :=
        hw.memory p on
      have := leadFinish_within J env lead hwithin (hw.policy p on).1 (hw.policy p on).2 hretry
      rwa [result] at this
    refine ⟨fun d hd => ?_, fun p' on' => ?_, fun p' on' => ?_⟩
    · change σ.deadlines = some d at hd
      rcases fin.saves (hs p on).versioned with ⟨hsaved, -⟩ | ⟨hsame, -⟩
      · cases hsaved.symm.trans hd
        exact hmemory
      · exact hw.disk d (hsame.symm.trans hd)
    · cases on'
      exact hmemory
    · cases on'
      exact hw.policy p on

theorem within_run (J : Serde) (servers : Option CachedCatalog) {actions : List Action}
    (hactions : ∀ a ∈ actions, a.Adapted interval jitter) :
    (runFrom J none servers actions).1.Sound ∧
    (runFrom J none servers actions).1.Within interval jitter := by
  have hcold : (World.cold none servers).Sound ∧ (World.cold none servers).Within interval jitter :=
    ⟨sound_cold none servers, fun d hd => (by cases hd), fun p on => (by cases on),
     fun p on => (by cases on)⟩
  exact Machine.run_inv_of_steps (fun _ a => a.Adapted interval jitter)
    (fun w _ => w.Sound ∧ w.Within interval jitter)
    (fun w _ a ha hw => ⟨sound_step J w a hw.1, within_step J w a hw.1 hw.2 ha⟩) _ hcold actions
    fun as₁ a as₂ heq => hactions a (by simp [heq])

/-- **The catalog stays within reach**: whatever the upstream answers, and wherever the process
crashes, a call of the automatic door leads a fetch once the clock is past the horizon from the
greatest time the scheduler has seen. -/
theorem catalog_stays_reachable (interval jitter : ℕ) (J : Serde) (servers : Option CachedCatalog)
    (actions : List Action) (hactions : ∀ a ∈ actions, a.Adapted interval jitter) (p : Process)
    (on : (runFrom J none servers actions).1.process = some p) (free : p.inner.inFlight = none)
    (caller : ℕ) (hidle : p.callers caller = .idle) (env : DoorEnv)
    (hlate : p.inner.persisted.wallHighWaterUnix + horizon interval jitter ≤ env.now.wall) :
    ∃ p' lead, (step J (runFrom J none servers actions).1 (.call caller .automatic env)).1.process =
      some p' ∧
      p'.callers caller = .leading lead := by
  have hwithin := (within_run J servers hactions).2.memory p on
  generalize (runFrom J none servers actions).1 = w at on
  have hreading : env.now.wall ≤ p.inner.effective env.now := le_max_left _ _
  have hopen : ∀ deadline, (∀ t, deadline = some t →
    t ≤ p.inner.persisted.wallHighWaterUnix + horizon interval jitter) →
      pending deadline (p.inner.effective env.now) = none := by
    intro deadline hdeadline
    cases hpending : pending deadline (p.inner.effective env.now) with
    | none => rfl
    | some t =>
      obtain ⟨hsome, hlt⟩ := pending_eq_some.mp hpending
      have := hdeadline t hsome
      omega
  have hnext := hopen p.inner.persisted.nextEligibleUnix hwithin.nextEligible
  have hsuppression := hopen p.inner.persisted.suppressionUntilUnix hwithin.suppression
  have hdoor : refreshAutomatic p.config env none (w.section p) =
      leadVerdict p.config env ⟨.automatic, none, p.inner.effective env.now,
        p.inner.persisted.nextEligibleUnix, none⟩
        ((w.section p).tracked env.now) := by
    unfold refreshAutomatic
    simp only [observeNow, World.section, hnext, hsuppression]
    rfl
  have hstep : step J w (.call caller .automatic env) =
      World.close p caller
        (.leading (leadStart p.config env
          ⟨.automatic, none, p.inner.effective env.now, p.inner.persisted.nextEligibleUnix, none⟩
          ((w.section p).tracked env.now)).1)
        (leadStart p.config env
          ⟨.automatic, none, p.inner.effective env.now, p.inner.persisted.nextEligibleUnix, none⟩
          ((w.section p).tracked env.now)).2 := by
    simp only [step, on, hidle, World.loop, free, World.admission, passDoor, hdoor, leadVerdict]
  rw [hstep]
  exact ⟨_, _, rfl, Function.update_self _ _ _⟩

/-- A rate limit that asks for thirty years. -/
def hostileLimit : List Action :=
  [.boot floorConfig none none, .call 0 .automatic (.at 100), .invoke 0,
    .finish 0
      (.at 101 (CatalogService.fetch (some (.ok ⟨429, none, some "1000000000", none, .empty⟩))))]

/-- **After a hostile rate limit** the catalog is fetched again within the horizon. -/
theorem catalog_stays_reachable_hostileLimit :
    ∃ p' lead, (step emptySerde (runFrom emptySerde none none hostileLimit).1
        (.call 1 .automatic (.at 2592101))).1.process = some p' ∧ p'.callers 1 = .leading lead := by
  have hprocess : (runFrom emptySerde none none hostileLimit).1.process.map
      (fun p => (p.inner.inFlight, p.callers 1, p.inner.persisted.wallHighWaterUnix)) =
      some (none, .idle, 101) := by
    decide
  obtain ⟨p, on, hfields⟩ := Option.map_eq_some_iff.mp hprocess
  simp only [Prod.mk.injEq] at hfields
  obtain ⟨hfree, hidle, hhigh⟩ := hfields
  refine catalog_stays_reachable 10800 0 emptySerde none hostileLimit ?_ p on hfree 1 hidle
    (.at 2592101) ?_
  · intro a ha
    simp only [hostileLimit, List.mem_cons, List.not_mem_nil, or_false] at ha
    obtain rfl | rfl | rfl | rfl := ha
    · exact ⟨le_rfl, le_rfl⟩
    · trivial
    · trivial
    · rintro answer ⟨⟩
      exact ⟨_, rfl⟩
  · rw [hhigh]
    decide

end ProtonWire
