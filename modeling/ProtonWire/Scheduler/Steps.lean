import ProtonWire.Scheduler.Model

/-!
# What one step of the scheduler can do

The inversion lemmas every invariant is derived from. Each says everything a section can do, guards
included, so that no later proof unfolds the model.

* `leadStart_cases`: the first half of `lead_refresh`, by which of its saves succeeded;
* `passDoor_result`: a door, by what it decided (`DoorResult`);
* `leadFinish_finished`: the second half of `lead_refresh` (`Finished`);
* **`step_case`**: a step of the machine (`StepCase`).
-/

namespace ProtonWire

open U64

/-! ## Saves -/

/-- The in-memory document carries the current schema version. -/
def Inner.Versioned (inner : Inner) : Prop :=
  inner.persisted.schemaVersion = deadlinesSchemaVersion

theorem save_cases {σ : Section} (hv : σ.inner.Versioned) (fault : Option DeadlineStoreError) :
    σ.save fault = (true, { σ with
      deadlines := some σ.inner.persisted
      events := σ.events ++ [.saved σ.inner.persisted] }) ∨ σ.save fault = (false, σ) := by
  unfold Section.save
  split
  · next doc h =>
    rw [DeadlineStore.save_eq_ok hv h]
    exact Or.inl rfl
  · exact Or.inr rfl

/-! ## The first half of a lead -/

/-- The locked state after the first half of a lead. -/
def Inner.started (inner : Inner) (reading : Reading) (healthy : Bool) : Inner :=
  { inner with
    generation := inner.generation + 1
    inFlight := some (inner.generation + 1)
    persisted := anchorDeadlines inner.persisted (inner.effective reading)
    rollback := inner.rollback.track reading
    persistenceHealthy := healthy }

/-- The lead a first half hands out. -/
def startedLead (config : SchedulerConfig) (env : DoorEnv) (admission : Admission) (inner : Inner)
    (anchored : Bool) : Lead :=
  ⟨admission, inner.generation + 1, inner.effective env.start,
    if config.conditionalRequests then inner.etag else none, anchored⟩

/-- What the saves of a first half did: the anchor alone, the gate and the anchor, none, or only the
gate. -/
inductive LeadSaves (σ : Section) (anchored : SchedulerDeadlines) :
    Bool → Option SchedulerDeadlines → List Event → Prop where
  | anchor (healthy : σ.inner.persistenceHealthy = true) :
      LeadSaves σ anchored true (some anchored) (σ.events ++ [.saved anchored])
  | both (unhealthy : σ.inner.persistenceHealthy = false) :
      LeadSaves σ anchored true (some anchored)
        (σ.events ++ [.saved σ.inner.persisted, .saved anchored])
  | neither : LeadSaves σ anchored false σ.deadlines σ.events
  | gate (unhealthy : σ.inner.persistenceHealthy = false) :
      LeadSaves σ anchored false (some σ.inner.persisted) (σ.events ++ [.saved σ.inner.persisted])

theorem LeadSaves.durable {σ : Section} {doc : SchedulerDeadlines} {anchored : Bool}
    {deadlines : Option SchedulerDeadlines} {events : List Event}
    (h : LeadSaves σ doc anchored deadlines events) (ha : anchored = true) :
    deadlines = some doc := by
  cases h with
  | anchor => rfl
  | both => rfl
  | neither => cases ha
  | gate => cases ha

theorem LeadSaves.disk {σ : Section} {doc : SchedulerDeadlines} {anchored : Bool}
    {deadlines : Option SchedulerDeadlines} {events : List Event}
    (h : LeadSaves σ doc anchored deadlines events) :
    (deadlines = σ.deadlines ∧ events = σ.events) ∨ deadlines = some σ.inner.persisted ∨
      deadlines = some doc := by
  cases h with
  | anchor => exact Or.inr (Or.inr rfl)
  | both => exact Or.inr (Or.inr rfl)
  | neither => exact Or.inl ⟨rfl, rfl⟩
  | gate => exact Or.inr (Or.inl rfl)

theorem LeadSaves.gate_saved {σ : Section} {doc : SchedulerDeadlines} {anchored : Bool}
    {deadlines : Option SchedulerDeadlines} {events : List Event}
    (h : LeadSaves σ doc anchored deadlines events) (unhealthy : σ.inner.persistenceHealthy = false)
    (ha : anchored = true) : .saved σ.inner.persisted ∈ events := by
  cases h with
  | anchor healthy => rw [unhealthy] at healthy; cases healthy
  | both => simp
  | neither => cases ha
  | gate => cases ha

theorem LeadSaves.mem {σ : Section} {doc : SchedulerDeadlines} {anchored : Bool}
    {deadlines : Option SchedulerDeadlines} {events : List Event}
    (h : LeadSaves σ doc anchored deadlines events) {e : Event} (he : e ∈ events) :
    e ∈ σ.events ∨ ∃ d, e = .saved d := by
  cases h with
  | anchor => simp at he; tauto
  | both => simp at he; tauto
  | neither => exact Or.inl he
  | gate => simp at he; tauto

theorem persistenceGate_cases {σ : Section} (hv : σ.inner.Versioned)
    (fault : Option DeadlineStoreError) :
    (σ.inner.persistenceHealthy = true ∧ persistenceGate σ fault = (true, σ)) ∨
      (σ.inner.persistenceHealthy = false ∧ persistenceGate σ fault =
        (true, ⟨{ σ.inner with persistenceHealthy := true }, some σ.inner.persisted, σ.servers,
          σ.events ++ [.saved σ.inner.persisted]⟩)) ∨
      (σ.inner.persistenceHealthy = false ∧ persistenceGate σ fault = (false, σ)) := by
  unfold persistenceGate
  cases hh : σ.inner.persistenceHealthy with
  | true => exact Or.inl ⟨rfl, if_pos rfl⟩
  | false =>
    rw [if_neg Bool.false_ne_true]
    rcases save_cases hv fault with h | h
    · rw [h]; exact Or.inr (Or.inl ⟨rfl, rfl⟩)
    · rw [h]; exact Or.inr (Or.inr ⟨rfl, rfl⟩)

theorem anchorSave_cases {σ : Section} (hv : σ.inner.Versioned)
    (fault : Option DeadlineStoreError) :
    anchorSave σ true fault = (true, ⟨σ.inner, some σ.inner.persisted, σ.servers,
        σ.events ++ [.saved σ.inner.persisted]⟩) ∨
      anchorSave σ true fault = (false, σ.setHealthy false) := by
  unfold anchorSave
  rw [if_pos rfl]
  rcases save_cases hv fault with h | h
  · rw [h]; exact Or.inl rfl
  · rw [h]; exact Or.inr rfl

/-- The locked state once the generation is taken. -/
def Inner.flying (inner : Inner) : Inner :=
  { inner with generation := inner.generation + 1, inFlight := some (inner.generation + 1) }

theorem leadStart_of_gate (config : SchedulerConfig) (env : DoorEnv) (admission : Admission)
    {σ : Section} {cleared healthy : Bool} {deadlines : Option SchedulerDeadlines}
    {events : List Event} (h : persistenceGate { σ with inner := σ.inner.flying } env.gateFault =
      (cleared, ⟨{ σ.inner.flying with persistenceHealthy := healthy }, deadlines, σ.servers,
        events⟩)) :
    leadStart config env admission σ =
      (startedLead config env admission σ.inner
        (anchorSave ⟨σ.inner.started env.start healthy, deadlines, σ.servers, events⟩ cleared
          env.anchorFault).1,
        (anchorSave ⟨σ.inner.started env.start healthy, deadlines, σ.servers, events⟩ cleared
          env.anchorFault).2) := by
  unfold leadStart
  simp only [Inner.flying] at h
  simp only [h]
  rfl

/-- **The first half of a lead.** The lead is anchored exactly when the store ends healthy. -/
theorem leadStart_cases (config : SchedulerConfig) (env : DoorEnv) (admission : Admission)
    {σ : Section} (hv : σ.inner.Versioned) :
    ∃ anchored deadlines events,
      leadStart config env admission σ =
        (startedLead config env admission σ.inner anchored,
          ⟨σ.inner.started env.start anchored, deadlines, σ.servers, events⟩) ∧
      LeadSaves σ (anchorDeadlines σ.inner.persisted (σ.inner.effective env.start))
        anchored deadlines
        events := by
  have hv' : ∀ healthy, (σ.inner.started env.start healthy).Versioned := fun _ => hv
  rcases persistenceGate_cases (σ := { σ with inner := σ.inner.flying }) hv env.gateFault with
    ⟨hh, hg⟩ | ⟨hh, hg⟩ | ⟨hh, hg⟩
  · have hflag : σ.inner.flying = { σ.inner.flying with persistenceHealthy := true } := by
      rw [← hh]
    rw [leadStart_of_gate config env admission (hg.trans (by rw [← hflag]))]
    rcases anchorSave_cases (σ := ⟨σ.inner.started env.start true, σ.deadlines, σ.servers,
      σ.events⟩)
      (hv' true) env.anchorFault with h | h
    · exact ⟨_, _, _, by rw [h]; rfl, .anchor hh⟩
    · exact ⟨_, _, _, by rw [h]; rfl, .neither⟩
  · have hg' : persistenceGate { σ with inner := σ.inner.flying } env.gateFault =
        (true, ⟨{ σ.inner.flying with persistenceHealthy := true }, some σ.inner.persisted,
          σ.servers,
          σ.events ++ [.saved σ.inner.persisted]⟩) := hg
    have hunhealthy : σ.inner.persistenceHealthy = false := hh
    rw [leadStart_of_gate config env admission hg']
    rcases anchorSave_cases (σ := ⟨σ.inner.started env.start true, some σ.inner.persisted,
      σ.servers,
      σ.events ++ [.saved σ.inner.persisted]⟩) (hv' true) env.anchorFault with h | h
    · refine ⟨true, _, _, ?_, .both hunhealthy⟩
      rw [h, List.append_assoc]
      rfl
    · exact ⟨_, _, _, by rw [h]; rfl, .gate hunhealthy⟩
  · have hflag : σ.inner.flying = { σ.inner.flying with persistenceHealthy := false } := by
      rw [← hh]
    rw [leadStart_of_gate config env admission (hg.trans (by rw [← hflag]))]
    exact ⟨false, σ.deadlines, σ.events, rfl, .neither⟩

/-! ## The doors -/

/-- The section after a door read the clock. -/
def Section.tracked (σ : Section) (reading : Reading) : Section :=
  { σ with inner := { σ.inner with rollback := σ.inner.rollback.track reading } }

/-- The section with a token in place of the pending one. -/
def Section.withToken (σ : Section) (token : Option PendingToken) : Section :=
  { σ with inner := { σ.inner with token := token } }

/-- What a door decided. -/
inductive DoorResult (config : SchedulerConfig) (env : DoorEnv) (door : Door) (entry : Option ℕ)
    (σ : Section) : Verdict × Section → Prop where
  /-- Not due, or suppressed. -/
  | early (outcome : CallOutcome) :
      DoorResult config env door entry σ (.answer outcome, σ.tracked env.now)
  /-- A fresh ceremony. -/
  | minted (outcome : CallOutcome) (value : String) :
      DoorResult config env door entry σ (.answer outcome,
        { (σ.tracked env.now).withToken (some ⟨value,
            satAdd (σ.inner.effective env.now) confirmationTokenTtlSeconds⟩) with
          events := σ.events ++ [.minted value (σ.inner.effective env.now)] })
  /-- No ceremony: the generator failed. -/
  | mintFailed (outcome : CallOutcome) :
      DoorResult config env door entry σ (.answer outcome,
        { σ.tracked env.now with events := σ.events ++ [.mintFailed] })
  /-- The window is open. -/
  | due
      (open_ : pending σ.inner.persisted.nextEligibleUnix (σ.inner.effective env.now) = none)
      (free : pending σ.inner.persisted.suppressionUntilUnix (σ.inner.effective env.now) = none) :
      DoorResult config env door entry σ (leadVerdict config env
        ⟨door, entry, σ.inner.effective env.now, σ.inner.persisted.nextEligibleUnix, none⟩
        (σ.tracked env.now))
  /-- An early manual call redeemed the pending token. -/
  | redeemed (token : PendingToken)
      (free : pending σ.inner.persisted.suppressionUntilUnix (σ.inner.effective env.now) = none)
      (manual : door = .manual (some token.value)) (nonempty : token.value ≠ "")
      (held : σ.inner.token = some token) (live : σ.inner.effective env.now ≤ token.expiresUnix) :
      DoorResult config env door entry σ (leadVerdict config env
        ⟨door, entry, σ.inner.effective env.now, σ.inner.persisted.nextEligibleUnix,
          some token.value⟩
        ((σ.tracked env.now).withToken none))

theorem ceremony_result (config : SchedulerConfig) (env : DoorEnv) (door : Door) (entry : Option ℕ)
    (σ : Section) :
    DoorResult config env door entry σ
      (ceremony (σ.tracked env.now) (σ.inner.effective env.now) env.mint) := by
  unfold ceremony mintRequirement
  cases mintConfirmationTokenFrom env.mint with
  | none => exact .mintFailed _
  | some value => exact .minted _ value

theorem redeemable_iff {token : Option PendingToken} {value : String} {now : ℕ} :
    redeemable token value now = true ↔ ∃ t, token = some t ∧ t.value = value ∧
    now ≤ t.expiresUnix := by
  cases token with
  | none => simp [redeemable]
  | some t => simp [redeemable]

/-- **What a door decides.** -/
theorem passDoor_result (config : SchedulerConfig) (env : DoorEnv) (door : Door) (entry : Option ℕ)
    (σ : Section) : DoorResult config env door entry σ (passDoor config env door entry σ) := by
  cases door with
  | automatic =>
    show DoorResult config env .automatic entry σ (refreshAutomatic config env entry σ)
    unfold refreshAutomatic
    simp only [observeNow]
    split
    · exact .early _
    · next hopen =>
      split
      · exact .early _
      · next hfree => exact .due hopen hfree
  | manual token =>
    show DoorResult config env (.manual token) entry σ (refreshManual config env token entry σ)
    unfold refreshManual
    simp only [observeNow]
    split
    · exact .early _
    · next hfree =>
      split
      · next hopen => exact .due hopen hfree
      · cases token with
        | none => exact ceremony_result config env _ entry σ
        | some value =>
          change DoorResult config env _ entry σ
            (if value = "" then ceremony (σ.tracked env.now) (σ.inner.effective env.now) env.mint
            else if redeemable σ.inner.token value (σ.inner.effective env.now) then
              leadVerdict config env ⟨.manual (some value), entry, σ.inner.effective env.now,
                σ.inner.persisted.nextEligibleUnix, some value⟩ ((σ.tracked env.now).withToken none)
            else ceremony (σ.tracked env.now) (σ.inner.effective env.now) env.mint)
          split_ifs with hempty hredeem
          · exact ceremony_result config env _ entry σ
          · obtain ⟨t, ht, rfl, hlive⟩ := redeemable_iff.mp hredeem
            exact .redeemed t hfree rfl hempty ht hlive
          · exact ceremony_result config env _ entry σ

/-! ## The second half of a lead -/

/-- The effective time at which a lead completes. -/
def finishTime (env : FinishEnv) (lead : Lead) (inner : Inner) : ℕ :=
  max (inner.effective env.now) lead.started

/-- The deadline a completed lead computes. -/
def finishDeadline (config : SchedulerConfig) (env : FinishEnv) (lead : Lead)
    (fetched : Except FetchFailure FetchOutcome) (inner : Inner) : Deadline :=
  nextDeadline (finishInputs config lead.started (finishTime env lead inner) fetched env.rolls)

/-- The event of a completed fetch. -/
def fetchedEvents (config : SchedulerConfig) (env : FinishEnv) (lead : Lead)
    (fetched : Except FetchFailure FetchOutcome) (inner : Inner) : List Event :=
  if lead.anchored then
    [.fetched lead config.refreshIntervalSeconds fetched (finishTime env lead inner)] else []

/-- What the second half of a lead leaves behind. -/
structure Finished (config : SchedulerConfig) (env : FinishEnv) (lead : Lead)
    (fetched : Except FetchFailure FetchOutcome) (σ : Section) (report : RefreshReport)
    (σ' : Section) : Prop where
  inFlight : σ'.inner.inFlight = none
  completed : σ'.inner.completed = some (lead.generation, report)
  generation : σ'.inner.generation = σ.inner.generation
  token : σ'.inner.token = σ.inner.token
  versioned : σ.inner.Versioned → σ'.inner.Versioned
  lastRequest : σ'.inner.persisted.lastRequestUnix = σ.inner.persisted.lastRequestUnix
  highWater : σ.inner.persisted.wallHighWaterUnix ≤ σ'.inner.persisted.wallHighWaterUnix
  nextEligible : ∃ next, σ'.inner.persisted.nextEligibleUnix = some next ∧
    (finishDeadline config env lead fetched σ.inner).nextEligibleUnix ≤ next
  suppression : σ'.inner.persisted.suppressionUntilUnix =
    mergeSuppression σ.inner.persisted.suppressionUntilUnix
      (finishDeadline config env lead fetched σ.inner).suppressionUntilUnix
  saves : σ.inner.Versioned →
    (σ'.deadlines = some σ'.inner.persisted ∧
        σ'.inner.persistenceHealthy = σ.inner.persistenceHealthy ∧
        σ'.events = σ.events ++ fetchedEvents config env lead fetched σ.inner ++
          [.saved σ'.inner.persisted]) ∨
      (σ'.deadlines = σ.deadlines ∧ σ'.inner.persistenceHealthy = false ∧
        σ'.events = σ.events ++ fetchedEvents config env lead fetched σ.inner)

theorem Finished.mem {config : SchedulerConfig} {env : FinishEnv} {lead : Lead}
    {fetched : Except FetchFailure FetchOutcome} {σ σ' : Section} {report : RefreshReport}
    (fin : Finished config env lead fetched σ report σ') (hv : σ.inner.Versioned) {e : Event}
    (he : e ∈ σ'.events) :
    e ∈ σ.events ∨ (∃ d, e = .saved d) ∨
      (e = .fetched lead config.refreshIntervalSeconds fetched (finishTime env lead σ.inner) ∧
        lead.anchored = true) := by
  have hfetched : ∀ e ∈ fetchedEvents config env lead fetched σ.inner,
      e = .fetched lead config.refreshIntervalSeconds fetched (finishTime env lead σ.inner) ∧
        lead.anchored = true := by
    intro e he
    unfold fetchedEvents at he
    split_ifs at he with ha
    · exact ⟨List.mem_singleton.mp he, ha⟩
    · cases he
  rcases fin.saves hv with ⟨-, -, h⟩ | ⟨-, -, h⟩ <;> rw [h] at he <;>
    simp only [List.mem_append] at he
  · rcases he with (he | he) | he
    · exact Or.inl he
    · exact Or.inr (Or.inr (hfetched e he))
    · exact Or.inr (Or.inl ⟨_, List.mem_singleton.mp he⟩)
  · rcases he with he | he
    · exact Or.inl he
    · exact Or.inr (Or.inr (hfetched e he))

/-- What a fetch writes outside the deadlines: only the etag, the cache and the age anchor of the
locked state change, and nothing is saved. -/
theorem applyFetched_frame (J : Serde) (fetched : Except FetchFailure FetchOutcome) (now : ℕ)
    (fault : Option CatalogCacheError) (σ : Section) :
    ∃ etag cache success, (applyFetched J fetched now fault σ).2.inner =
        { σ.inner with
          etag := etag
          cache := cache
          persisted := { σ.inner.persisted with lastSuccessUnix := success } } ∧
      (applyFetched J fetched now fault σ).2.deadlines = σ.deadlines ∧
      (applyFetched J fetched now fault σ).2.events = σ.events := by
  unfold applyFetched
  split
  · split
    · exact ⟨_, _, _, rfl, rfl, rfl⟩
    · exact ⟨_, _, _, rfl, rfl, rfl⟩
  · dsimp only
    split
    · exact ⟨_, _, _, rfl, rfl, rfl⟩
    · split
      · exact ⟨_, _, _, rfl, rfl, rfl⟩
      · exact ⟨_, _, _, rfl, rfl, rfl⟩
  · exact ⟨_, _, _, rfl, rfl, rfl⟩
  · exact ⟨_, _, _, rfl, rfl, rfl⟩
  · exact ⟨_, _, _, rfl, rfl, rfl⟩

theorem countRefresh_fields (door : Door) (d : SchedulerDeadlines) :
    (countRefresh door d).lastRequestUnix = d.lastRequestUnix ∧
      (countRefresh door d).wallHighWaterUnix = d.wallHighWaterUnix ∧
      (countRefresh door d).suppressionUntilUnix = d.suppressionUntilUnix ∧
      (countRefresh door d).schemaVersion = d.schemaVersion := by
  cases door <;> exact ⟨rfl, rfl, rfl, rfl⟩

theorem settleSave_cases {σ : Section} (hv : σ.inner.Versioned)
    (fault : Option DeadlineStoreError) :
    settleSave σ fault = { σ with
      deadlines := some σ.inner.persisted
      events := σ.events ++ [.saved σ.inner.persisted] } ∨
      settleSave σ fault = σ.setHealthy false := by
  unfold settleSave
  rcases save_cases hv fault with h | h
  · rw [h]; exact Or.inl rfl
  · rw [h]; exact Or.inr rfl

theorem settleSave_inner (σ : Section) (fault : Option DeadlineStoreError) :
    ∃ healthy, (settleSave σ fault).inner = { σ.inner with persistenceHealthy := healthy } := by
  unfold settleSave Section.save
  split
  · next h =>
    split at h
    · cases h; exact ⟨_, rfl⟩
    · cases h
  · next h =>
    split at h
    · cases h
    · cases h; exact ⟨_, rfl⟩

/-- **The second half of a lead.** -/
theorem leadFinish_finished (J : Serde) (config : SchedulerConfig) (env : FinishEnv) (lead : Lead)
    (fetched : Except FetchFailure FetchOutcome) (σ : Section) :
    Finished config env lead fetched σ (leadFinish J config env lead fetched σ).1
      (leadFinish J config env lead fetched σ).2 := by
  set now := finishTime env lead σ.inner with hnow
  set deadline := finishDeadline config env lead fetched σ.inner with hdeadline
  -- the section before the fetch is applied
  set σ₁ : Section := { σ.tracked env.now with
    events := σ.events ++ fetchedEvents config env lead fetched σ.inner } with hσ₁
  obtain ⟨etag, cache, success, hinner, hdisk, hevents⟩ :=
    applyFetched_frame J fetched now env.cacheFault σ₁
  set σ₂ : Section := (applyFetched J fetched now env.cacheFault σ₁).2 with hσ₂
  set persisted := settleDeadlines lead.admission.door deadline now
    σ₂.inner.persisted with hpersisted
  set σ₃ : Section := { σ₂ with inner := { σ₂.inner with persisted := persisted } } with hσ₃
  have hdef : leadFinish J config env lead fetched σ =
      (⟨(applyFetched J fetched now env.cacheFault σ₁).1, false, persisted.nextEligibleUnix.getD 0,
          persisted.suppressionUntilUnix⟩,
        { settleSave σ₃ env.saveFault with inner := { (settleSave σ₃ env.saveFault).inner with
          completed := some (lead.generation,
            ⟨(applyFetched J fetched now env.cacheFault σ₁).1, false,
              persisted.nextEligibleUnix.getD 0, persisted.suppressionUntilUnix⟩)
          inFlight := none } }) := rfl
  obtain ⟨hlr, hhw, hsup, hver⟩ := countRefresh_fields lead.admission.door σ₂.inner.persisted
  have hp₂ : σ₂.inner.persisted = { σ.inner.persisted with lastSuccessUnix := success } := by
    rw [hinner]; rfl
  obtain ⟨healthy, hset⟩ := settleSave_inner σ₃ env.saveFault
  have hpers : (settleSave σ₃ env.saveFault).inner.persisted = persisted := by rw [hset]
  have hschema : persisted.schemaVersion = σ.inner.persisted.schemaVersion := by
    show (countRefresh lead.admission.door σ₂.inner.persisted).schemaVersion = _
    rw [hver, hp₂]
  rw [hdef]
  refine ⟨rfl, rfl, ?_, ?_, fun hv => ?_, ?_, ?_, ?_, ?_, fun hv => ?_⟩
  · show (settleSave σ₃ env.saveFault).inner.generation = _
    rw [hset]
    show σ₂.inner.generation = _
    rw [hinner]; rfl
  · show (settleSave σ₃ env.saveFault).inner.token = _
    rw [hset]
    show σ₂.inner.token = _
    rw [hinner]; rfl
  · show (settleSave σ₃ env.saveFault).inner.persisted.schemaVersion = _
    rw [hpers, hschema]
    exact hv
  · show (settleSave σ₃ env.saveFault).inner.persisted.lastRequestUnix = _
    rw [hpers]
    show (countRefresh lead.admission.door σ₂.inner.persisted).lastRequestUnix = _
    rw [hlr, hp₂]
  · show _ ≤ (settleSave σ₃ env.saveFault).inner.persisted.wallHighWaterUnix
    rw [hpers]
    show _ ≤ max (countRefresh lead.admission.door σ₂.inner.persisted).wallHighWaterUnix now
    rw [hhw, hp₂]
    exact le_max_left _ _
  · refine ⟨max deadline.nextEligibleUnix (persisted.suppressionUntilUnix.getD 0), ?_,
      le_max_left _ _⟩
    show (settleSave σ₃ env.saveFault).inner.persisted.nextEligibleUnix = _
    rw [hpers]
    rfl
  · show (settleSave σ₃ env.saveFault).inner.persisted.suppressionUntilUnix = _
    rw [hpers]
    show mergeSuppression (countRefresh lead.admission.door σ₂.inner.persisted).suppressionUntilUnix
      deadline.suppressionUntilUnix = _
    rw [hsup, hp₂]
  · have hv₃ : σ₃.inner.Versioned := hschema.trans hv
    have hev : σ₂.events = σ.events ++ fetchedEvents config env lead fetched σ.inner := hevents
    rcases settleSave_cases hv₃ env.saveFault with h | h
    · left
      rw [h]
      refine ⟨rfl, ?_, ?_⟩
      · show σ₂.inner.persistenceHealthy = _
        rw [hinner]; rfl
      · show σ₂.events ++ [.saved persisted] = _
        rw [hev]
    · right
      rw [h]
      exact ⟨hdisk, rfl, hev⟩

theorem finished_of_eq {J : Serde} {config : SchedulerConfig} {env : FinishEnv} {lead : Lead}
    {fetched : Except FetchFailure FetchOutcome} {σ σ' : Section} {report : RefreshReport}
    (h : leadFinish J config env lead fetched σ = (report, σ')) :
    Finished config env lead fetched σ report σ' := by
  have hf := leadFinish_finished J config env lead fetched σ
  rw [h] at hf
  exact hf

/-! ## Doors over a world -/

/-- A door that answered at once: only the token and the rollback tracker can have moved. -/
structure Answered (now : ℕ) (w : World) (p : Process) (σ : Section) : Prop where
  persisted : σ.inner.persisted = p.inner.persisted
  etag : σ.inner.etag = p.inner.etag
  generation : σ.inner.generation = p.inner.generation
  inFlight : σ.inner.inFlight = p.inner.inFlight
  completed : σ.inner.completed = p.inner.completed
  cache : σ.inner.cache = p.inner.cache
  healthy : σ.inner.persistenceHealthy = p.inner.persistenceHealthy
  deadlines : σ.deadlines = w.deadlines
  servers : σ.servers = w.servers
  token : (σ.inner.token = p.inner.token ∧ (σ.events = [] ∨ σ.events = [.mintFailed])) ∨
    ∃ value, σ.inner.token = some ⟨value, satAdd now confirmationTokenTtlSeconds⟩ ∧
      σ.events = [.minted value now]

/-- A door that let its caller lead. -/
structure Led (door : Door) (entry : Option ℕ) (now : ℕ) (w : World) (p : Process) (lead : Lead)
    (σ : Section) : Prop where
  door : lead.admission.door = door
  entry : lead.admission.entry = entry
  effective : lead.admission.effective = now
  nextEligible : lead.admission.nextEligible = p.inner.persisted.nextEligibleUnix
  free : pending p.inner.persisted.suppressionUntilUnix now = none
  admitted : (lead.admission.redeemed = none ∧
    pending p.inner.persisted.nextEligibleUnix now = none ∧
      σ.inner.token = p.inner.token) ∨
    ∃ token, lead.admission.redeemed = some token.value ∧
      lead.admission.door = .manual (some token.value) ∧ token.value ≠ "" ∧
      p.inner.token = some token ∧ now ≤ token.expiresUnix ∧ σ.inner.token = none
  generation : lead.generation = p.inner.generation + 1
  inFlight : σ.inner.inFlight = some lead.generation
  newest : σ.inner.generation = lead.generation
  completed : σ.inner.completed = p.inner.completed
  started : p.inner.persisted.wallHighWaterUnix ≤ lead.started
  persisted : σ.inner.persisted = anchorDeadlines p.inner.persisted lead.started
  healthy : σ.inner.persistenceHealthy = lead.anchored
  etag : σ.inner.etag = p.inner.etag
  cache : σ.inner.cache = p.inner.cache
  servers : σ.servers = w.servers
  saves : LeadSaves (w.section p) σ.inner.persisted lead.anchored σ.deadlines σ.events

theorem answered_of_result {config : SchedulerConfig} {env : DoorEnv} {door : Door}
    {entry : Option ℕ} {w : World} {p : Process} {outcome : CallOutcome} {σ : Section}
    (h : DoorResult config env door entry (w.section p) (.answer outcome, σ)) :
    Answered (p.inner.effective env.now) w p σ := by
  generalize hr : (Verdict.answer outcome, σ) = r at h
  cases h with
  | early =>
    cases hr
    exact ⟨rfl, rfl, rfl, rfl, rfl, rfl, rfl, rfl, rfl, Or.inl ⟨rfl, Or.inl rfl⟩⟩
  | minted _ value =>
    cases hr
    exact ⟨rfl, rfl, rfl, rfl, rfl, rfl, rfl, rfl, rfl, Or.inr ⟨value, rfl, rfl⟩⟩
  | mintFailed =>
    cases hr
    exact ⟨rfl, rfl, rfl, rfl, rfl, rfl, rfl, rfl, rfl, Or.inl ⟨rfl, Or.inr rfl⟩⟩
  | due => cases hr
  | redeemed => cases hr

/-- The saves of a first half read the section only through its deadlines, its events and its health
flag. -/
theorem LeadSaves.congr {σ σ' : Section} {doc : SchedulerDeadlines} {anchored : Bool}
    {deadlines : Option SchedulerDeadlines} {events : List Event}
    (h : LeadSaves σ doc anchored deadlines events)
    (hp : σ.inner.persisted = σ'.inner.persisted)
    (hh : σ.inner.persistenceHealthy = σ'.inner.persistenceHealthy)
    (hd : σ.deadlines = σ'.deadlines) (he : σ.events = σ'.events) :
    LeadSaves σ' doc anchored deadlines events := by
  cases h with
  | anchor healthy => rw [he]; exact .anchor (hh ▸ healthy)
  | both unhealthy => rw [he, hp]; exact .both (hh ▸ unhealthy)
  | neither => rw [he, hd]; exact .neither
  | gate unhealthy => rw [he, hp]; exact .gate (hh ▸ unhealthy)

theorem led_of_result {config : SchedulerConfig} {env : DoorEnv} {door : Door} {entry : Option ℕ}
    {w : World} {p : Process} {lead : Lead} {σ : Section} (hv : p.inner.Versioned)
    (h : DoorResult config env door entry (w.section p) (.lead lead, σ)) :
    Led door entry (p.inner.effective env.now) w p lead σ := by
  generalize hr : (Verdict.lead lead, σ) = r at h
  cases h with
  | early => cases hr
  | minted => cases hr
  | mintFailed => cases hr
  | due open_ free =>
    obtain ⟨anchored, deadlines, events, hstart, hsaves⟩ := leadStart_cases config env
      ⟨door, entry, p.inner.effective env.now, p.inner.persisted.nextEligibleUnix, none⟩
      (σ := (w.section p).tracked env.now) hv
    simp only [leadVerdict] at hr
    erw [hstart] at hr
    cases hr
    exact ⟨rfl, rfl, rfl, rfl, free, Or.inl ⟨rfl, open_, rfl⟩, rfl, rfl, rfl, rfl, le_max_right _ _,
      rfl, rfl, rfl, rfl, rfl, hsaves.congr rfl rfl rfl rfl⟩
  | redeemed token free manual nonempty held live =>
    obtain ⟨anchored, deadlines, events, hstart, hsaves⟩ := leadStart_cases config env
      ⟨door, entry, p.inner.effective env.now, p.inner.persisted.nextEligibleUnix, some token.value⟩
      (σ := ((w.section p).tracked env.now).withToken none) hv
    simp only [leadVerdict] at hr
    erw [hstart] at hr
    cases hr
    exact ⟨rfl, rfl, rfl, rfl, free, Or.inr ⟨token, rfl, manual, nonempty, held, live, rfl⟩, rfl,
      rfl,
      rfl, rfl, le_max_right _ _, rfl, rfl, rfl, rfl, rfl, hsaves.congr rfl rfl rfl rfl⟩

/-! ## Steps -/

/-- A parked call whose generation has resolved without leaving its report in `completed`. -/
def Process.Overtaken (p : Process) (seen : ℕ) : Prop :=
  p.inner.inFlight ≠ some seen ∧ ∀ report, p.inner.completed ≠ some (seen, report)

/-- How a call came to its door: fresh, or after a generation it waited for was overtaken. -/
def Process.AtDoor (p : Process) (caller : ℕ) (door : Door) (entry : Option ℕ) : Prop :=
  (p.callers caller = .idle ∧ entry = none) ∨
    ∃ e seen, p.callers caller = .waiting door e seen ∧ entry = some e ∧ p.Overtaken seen

/-- How a call came to park on `running`: on entry, or after its generation was overtaken. -/
def Process.Parking (p : Process) (caller : ℕ) (door : Door) (entry running : ℕ) : Prop :=
  (p.callers caller = .idle ∧ entry = running) ∨
    ∃ seen, p.callers caller = .waiting door entry seen ∧ p.Overtaken seen

/-- The lead a completing call holds, and the answer it completes with. -/
def Process.Completing (p : Process) (caller : ℕ) (lead : Lead)
    (fetched : Except FetchFailure FetchOutcome) (env : FinishEnv) : Prop :=
  (p.callers caller = .fetching lead ∧ fetched = catchUnwind env.answer) ∨
    (p.callers caller = .leading lead ∧ lead.anchored = false ∧ fetched = refusedFetch)

/-- What one step can do. -/
inductive StepCase (J : Serde) (w : World) : Action → World × List Event → Prop where
  | stutter (a : Action) : StepCase J w a (w, [])
  | boot (config : SchedulerConfig) (deadlinesFault : Option DeadlineStoreError)
      (cacheFault : Option CatalogCacheError) (off : w.process = none)
      (versioned : ∀ doc ∈ w.deadlines, doc.schemaVersion = deadlinesSchemaVersion)
      (parses : ∀ doc ∈ w.servers, ∃ parsed,
        CatalogDocument.fromBytes J doc.body.toUTF8 = .ok parsed) :
      StepCase J w (.boot config deadlinesFault cacheFault)
        ({ w with process := some (newWithCache config (w.deadlines.getD .default)
            (w.servers.bind CachedCatalog.etag) (some ⟨w.servers⟩)) }, [.booted])
  | crash (p : Process) (on : w.process = some p) :
      StepCase J w .crash ({ w with process := none }, [.crashed])
  | park (a : Action) (p : Process) (caller : ℕ) (door : Door) (entry running : ℕ)
      (on : w.process = some p) (parking : p.Parking caller door entry running)
      (flying : p.inner.inFlight = some running) :
      StepCase J w a (World.close p caller (.waiting door entry running) (w.section p))
  | join (a : Action) (p : Process) (caller : ℕ) (door : Door) (entry seen : ℕ)
      (report : RefreshReport) (on : w.process = some p)
      (waiting : p.callers caller = .waiting door entry seen)
      (resolved : p.inner.inFlight ≠ some seen) (done : p.inner.completed = some (seen, report)) :
      StepCase J w a (World.close p caller (.returned door (some entry) (door.joined report))
        (w.section p))
  | answer (a : Action) (p : Process) (caller : ℕ) (door : Door) (entry : Option ℕ) (env : DoorEnv)
      (outcome : CallOutcome) (σ : Section) (on : w.process = some p)
      (atDoor : p.AtDoor caller door entry) (free : p.inner.inFlight = none)
      (result : DoorResult p.config env door entry (w.section p) (.answer outcome, σ)) :
      StepCase J w a (World.close p caller (.returned door entry outcome) σ)
  | lead (a : Action) (p : Process) (caller : ℕ) (door : Door) (entry : Option ℕ) (env : DoorEnv)
      (lead : Lead) (σ : Section) (on : w.process = some p)
      (atDoor : p.AtDoor caller door entry) (free : p.inner.inFlight = none)
      (result : DoorResult p.config env door entry (w.section p) (.lead lead, σ)) :
      StepCase J w a (World.close p caller (.leading lead) σ)
  | invoke (p : Process) (caller : ℕ) (lead : Lead) (on : w.process = some p)
      (leading : p.callers caller = .leading lead) (anchored : lead.anchored = true) :
      StepCase J w (.invoke caller) ({ w with process := some { p with
        callers := Function.update p.callers caller (.fetching lead) } }, [.contact caller lead])
  | finish (p : Process) (caller : ℕ) (lead : Lead) (fetched : Except FetchFailure FetchOutcome)
      (env : FinishEnv) (report : RefreshReport) (σ : Section) (on : w.process = some p)
      (completing : p.Completing caller lead fetched env)
      (result : leadFinish J p.config env lead fetched (w.section p) = (report, σ)) :
      StepCase J w (.finish caller env)
        (World.close { p with published := (lead.generation, report) :: p.published } caller
          (.returned lead.admission.door lead.admission.entry
           (lead.admission.door.refreshed report)) σ)

theorem admit_case (J : Serde) (w : World) (a : Action) {p : Process} {caller : ℕ} {door : Door}
    {entry : Option ℕ} (env : DoorEnv) (on : w.process = some p)
    (atDoor : p.AtDoor caller door entry) (free : p.inner.inFlight = none) :
    StepCase J w a (w.admission p caller door entry env) := by
  unfold World.admission
  have h := passDoor_result p.config env door entry (w.section p)
  generalize passDoor p.config env door entry (w.section p) = r at h
  obtain ⟨verdict, σ⟩ := r
  cases verdict with
  | lead lead => exact .lead a p caller door entry env lead σ on atDoor free h
  | answer outcome => exact .answer a p caller door entry env outcome σ on atDoor free h

theorem complete_case (J : Serde) (w : World) {p : Process} {caller : ℕ} {lead : Lead}
    {fetched : Except FetchFailure FetchOutcome} {env : FinishEnv} (on : w.process = some p)
    (completing : p.Completing caller lead fetched env) :
    StepCase J w (.finish caller env) (w.complete J p caller lead fetched env) := by
  unfold World.complete
  generalize hr : leadFinish J p.config env lead fetched (w.section p) = r
  obtain ⟨report, σ⟩ := r
  exact .finish p caller lead fetched env report σ on completing hr

theorem boot_case (J : Serde) (w : World) (config : SchedulerConfig)
    (deadlinesFault : Option DeadlineStoreError) (cacheFault : Option CatalogCacheError)
    (off : w.process = none) :
    StepCase J w (.boot config deadlinesFault cacheFault)
      (match production J config w.deadlines w.servers deadlinesFault cacheFault with
      | .error _ => (w, [])
      | .ok p => ({ w with process := some p }, [.booted])) := by
  unfold production
  cases hd : DeadlineStore.loadStrict w.deadlines deadlinesFault with
  | error e => exact .stutter _
  | ok persisted =>
    dsimp only
    cases hs : CatalogCache.loadStrict J w.servers cacheFault with
    | error e => exact .stutter _
    | ok current =>
      obtain ⟨rfl, hparse⟩ := CatalogCache.loadStrict_eq_ok hs
      have hload : persisted = w.deadlines ∧
          ∀ doc ∈ w.deadlines, doc.schemaVersion = deadlinesSchemaVersion := by
        cases persisted with
        | none =>
          rw [DeadlineStore.loadStrict_none hd]
          exact ⟨rfl, by simp⟩
        | some doc =>
          obtain ⟨hfile, hv⟩ := DeadlineStore.loadStrict_some hd
          rw [hfile]
          exact ⟨rfl, fun d hd => by cases hd; exact hv⟩
      rw [hload.1]
      exact .boot config deadlinesFault cacheFault off hload.2 hparse

theorem rejoin_case (J : Serde) (w : World) (a : Action) {p : Process} {caller : ℕ} {door : Door}
    {entry seen : ℕ} (env : DoorEnv) (on : w.process = some p)
    (hc : p.callers caller = .waiting door entry seen) :
    StepCase J w a (w.rejoin p caller door entry seen env) := by
  -- once the generation is overtaken, the loop starts over
  have again : p.Overtaken seen → StepCase J w a (w.loop p caller door (some entry) env) := by
    intro late
    unfold World.loop
    cases hf : p.inner.inFlight with
    | none => exact admit_case J w a env on (Or.inr ⟨entry, seen, hc, rfl, late⟩) hf
    | some running => exact .park a p caller door entry running on (Or.inr ⟨seen, hc, late⟩) hf
  unfold World.rejoin
  by_cases hin : p.inner.inFlight = some seen
  · rw [if_pos hin]
    exact .stutter a
  rw [if_neg hin]
  cases hdone : p.inner.completed with
  | none => exact again ⟨hin, fun report => by rw [hdone]; simp⟩
  | some completed =>
    obtain ⟨done, report⟩ := completed
    dsimp only
    by_cases heq : done = seen
    · subst heq
      rw [if_pos rfl]
      exact .join a p caller door entry done report on hc hin hdone
    · rw [if_neg heq]
      refine again ⟨hin, fun report' => ?_⟩
      rw [hdone]
      intro h
      cases h
      exact heq rfl

/-- **Everything a step can do.** -/
theorem step_case (J : Serde) (w : World) (a : Action) : StepCase J w a (step J w a) := by
  cases hp : w.process with
  | none =>
    cases a with
    | boot config deadlinesFault cacheFault =>
      simp only [step, hp]
      exact boot_case J w config deadlinesFault cacheFault hp
    | _ => simp only [step, hp]; exact .stutter _
  | some p =>
    cases a with
    | boot config deadlinesFault cacheFault => simp only [step, hp]; exact .stutter _
    | crash => simp only [step, hp]; exact .crash p hp
    | call caller door env =>
      simp only [step, hp]
      cases hc : p.callers caller with
      | idle =>
        dsimp only
        unfold World.loop
        cases hf : p.inner.inFlight with
        | none => exact admit_case J w _ env hp (Or.inl ⟨hc, rfl⟩) hf
        | some running => exact .park _ p caller door running running hp (Or.inl ⟨hc, rfl⟩) hf
      | _ => exact .stutter _
    | wake caller env =>
      simp only [step, hp]
      cases hc : p.callers caller with
      | waiting door entry seen => exact rejoin_case J w _ env hp hc
      | _ => exact .stutter _
    | invoke caller =>
      simp only [step, hp]
      cases hc : p.callers caller with
      | leading lead =>
        dsimp only
        by_cases ha : lead.anchored = true
        · rw [if_pos ha]
          exact .invoke p caller lead hp hc ha
        · rw [if_neg ha]
          exact .stutter _
      | _ => exact .stutter _
    | finish caller env =>
      simp only [step, hp]
      cases hc : p.callers caller with
      | fetching lead => exact complete_case J w hp (Or.inl ⟨hc, rfl⟩)
      | leading lead =>
        dsimp only
        by_cases ha : lead.anchored = true
        · rw [if_pos ha]
          exact .stutter _
        · rw [if_neg ha]
          exact complete_case J w hp (Or.inr ⟨hc, by simpa using ha, rfl⟩)
      | _ => exact .stutter _

end ProtonWire
