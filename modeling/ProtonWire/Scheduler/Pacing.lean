import ProtonWire.Scheduler.SingleFlight

/-!
# Pacing and the durable anchor

Every contact leaves its start on disk before the upstream sees it, so the three-hour floor survives
crashes, failed saves and clock rollbacks.

* `World.Paced`: how memory and disk remember a contact that started at a given time;
  **`paced_run`**: every contact of a run is remembered;
* **`pacing_floor`**: a contact that redeemed no token is at least the floor after every earlier
  one;
* **`durable_anchor`**: at a contact the disk agrees with memory, and an unsaved state is saved
  before the next contact.
-/

namespace ProtonWire

open U64

/-! ## Contacts remembered -/

/-- The document remembers a request that started at `start`. -/
structure SchedulerDeadlines.Covers (d : SchedulerDeadlines) (start : ℕ) : Prop where
  lastRequest : ∃ r, d.lastRequestUnix = some r ∧ start ≤ r
  highWater : start ≤ d.wallHighWaterUnix

theorem covers_anchor {d : SchedulerDeadlines} {start started : ℕ} (h : d.Covers start)
    (hs : d.wallHighWaterUnix ≤ started) : (anchorDeadlines d started).Covers start :=
  ⟨⟨started, rfl, h.highWater.trans hs⟩, h.highWater.trans (le_max_left _ _)⟩

/-- The world remembers a contact that started at `start`: on disk, in memory, in the eligibility of
an idle scheduler and in the reading that admitted the next one. -/
structure World.Paced (w : World) (start : ℕ) : Prop where
  disk : ∃ d, w.deadlines = some d ∧ d.Covers start
  memory : ∀ p, w.process = some p → p.inner.persisted.Covers start
  idle : ∀ p, w.process = some p → p.inner.inFlight = none →
    ∃ next, p.inner.persisted.nextEligibleUnix = some next ∧
      satAdd start freshnessFloorSeconds ≤ next
  leading : ∀ p, w.process = some p → ∀ c lead, p.callers c = .leading lead →
    lead.admission.redeemed = none → satAdd start freshnessFloorSeconds ≤ lead.admission.effective

theorem le_of_pending_none {deadline now : ℕ} (h : pending (some deadline) now = none) :
    deadline ≤ now := by
  by_contra hlt
  simp [pending, Option.filter, not_le.mp hlt] at h

theorem World.Paced.led {w : World} {start : ℕ} (hp : w.Paced start) {p : Process}
    (on : w.process = some p) (free : p.inner.inFlight = none) {door : Door}
    {entry : Option ℕ} {now : ℕ} {lead : Lead} {σ : Section} (led : Led door entry now w p lead σ)
    (hr : lead.admission.redeemed = none) :
    satAdd start freshnessFloorSeconds ≤ lead.admission.effective := by
  rcases led.admitted with ⟨-, hopen, -⟩ | ⟨token, htoken, -⟩
  · obtain ⟨next, hnext, hfloor⟩ := hp.idle p on free
    rw [hnext] at hopen
    rw [led.effective]
    exact hfloor.trans (le_of_pending_none hopen)
  · rw [hr] at htoken; cases htoken

theorem World.Paced.of_inner {w : World} {start : ℕ} (hp : w.Paced start) {p p' : Process}
    (on : w.process = some p) (hinner : p'.inner = p.inner)
    (hleading : ∀ q, some p' = some q → ∀ c lead, q.callers c = .leading lead →
      lead.admission.redeemed = none → satAdd start freshnessFloorSeconds ≤
      lead.admission.effective) :
    World.Paced { w with process := some p' } start := by
  refine ⟨hp.disk, fun q onq => ?_, fun q onq hf => ?_, hleading⟩
  · cases onq
    rw [hinner]
    exact hp.memory p on
  · cases onq
    rw [hinner] at hf ⊢
    exact hp.idle p on hf

/-- **A step forgets no contact.** -/
theorem paced_step (J : Serde) (w : World) (a : Action) {start : ℕ} (hs : w.Sound)
    (hp : w.Paced start) : (step J w a).1.Paced start := by
  have hleading : ∀ p, (step J w a).1.process = some p → ∀ c lead, p.callers c = .leading lead →
      lead.admission.redeemed = none →
      satAdd start freshnessFloorSeconds ≤ lead.admission.effective := by
    intro p' on' c lead hc hr
    obtain ⟨p, on, hold | ⟨free, door, entry, now, σ, led⟩⟩ := leading_step hs on' hc
    · exact hp.leading p on c lead hold hr
    · exact hp.led on free led hr
  have hcase := step_case J w a
  generalize step J w a = r at hcase hleading
  cases hcase with
  | stutter => exact hp
  | boot config deadlinesFault cacheFault off versioned =>
    obtain ⟨d, hd, ⟨r, hr, hle⟩, hhw⟩ := hp.disk
    obtain ⟨hfr, hfw, -, -⟩ := rederive_fields d
    refine ⟨hp.disk, fun p on => ?_, fun p on _ => ?_, hleading⟩
    · cases on
      show (rederiveCrashPacing (w.deadlines.getD .default)).Covers start
      rw [hd]
      exact ⟨⟨r, hfr.trans hr, hle⟩, hhw.trans hfw.ge⟩
    · cases on
      show ∃ next, (rederiveCrashPacing (w.deadlines.getD .default)).nextEligibleUnix =
        some next ∧ _
      rw [hd]
      obtain ⟨next, hnext, hfloor⟩ := floor_le_rederive hr
      exact ⟨next, hnext, (satAdd_le_satAdd hle le_rfl).trans hfloor⟩
  | crash p on =>
    refine ⟨hp.disk, ?_, ?_, hleading⟩ <;> intro p on <;> cases on
  | park a p caller door entry running on parking flying => exact hp.of_inner on rfl hleading
  | join a p caller door entry seen report on waiting resolved done =>
    exact hp.of_inner on rfl hleading
  | answer a p caller door entry env outcome σ on atDoor free result =>
    have ans := answered_of_result result
    refine ⟨?_, fun p' on' => ?_, fun p' on' _ => ?_, hleading⟩
    · show ∃ d, σ.deadlines = some d ∧ _
      rw [ans.deadlines]
      exact hp.disk
    · cases on'
      show σ.inner.persisted.Covers start
      rw [ans.persisted]
      exact hp.memory p on
    · cases on'
      show ∃ next, σ.inner.persisted.nextEligibleUnix = some next ∧ _
      rw [ans.persisted]
      exact hp.idle p on free
  | lead a p caller door entry env lead σ on atDoor free result =>
    have led := led_of_result (hs p on).versioned result
    have hcov := hp.memory p on
    have hcov' : σ.inner.persisted.Covers start := by
      rw [led.persisted]
      exact covers_anchor hcov led.started
    refine ⟨?_, fun p' on' => ?_, fun p' on' hf => ?_, hleading⟩
    · show ∃ d, σ.deadlines = some d ∧ _
      rcases led.saves.disk with ⟨h, -⟩ | h | h <;> rw [h]
      · exact hp.disk
      · exact ⟨_, rfl, hcov⟩
      · exact ⟨_, rfl, hcov'⟩
    · cases on'
      exact hcov'
    · cases on'
      exact absurd (led.inFlight.symm.trans hf) (by simp)
  | invoke p caller lead on leading anchored => exact hp.of_inner on rfl hleading
  | finish p caller lead fetched env report σ on completing result =>
    have fin := finished_of_eq result
    have hlead := (hs p on).leading _ _ (completing_lead? completing)
    obtain ⟨⟨r, hr, hle⟩, hhw⟩ := hp.memory p on
    have hstart : start ≤ lead.started := by
      rw [hlead.lastRequest] at hr
      cases hr
      exact hle
    have hcov' : σ.inner.persisted.Covers start :=
      ⟨⟨r, fin.lastRequest.trans hr, hle⟩, hhw.trans fin.highWater⟩
    refine ⟨?_, fun p' on' => ?_, fun p' on' _ => ?_, hleading⟩
    · show ∃ d, σ.deadlines = some d ∧ _
      rcases fin.saves (hs p on).versioned with ⟨h, -⟩ | ⟨h, -⟩ <;> rw [h]
      · exact ⟨_, rfl, hcov'⟩
      · exact hp.disk
    · cases on'
      exact hcov'
    · cases on'
      obtain ⟨next, hnext, hle⟩ := fin.nextEligible
      exact ⟨next, hnext, ((satAdd_le_satAdd hstart le_rfl).trans
        (floor_le_nextDeadline (finishInputs p.config lead.started _ fetched env.rolls))).trans hle⟩

/-- **At a contact the disk agrees with memory and records its start.** -/
theorem contact_durable {J : Serde} {w : World} {a : Action} {c : ℕ} {lead : Lead} (hs : w.Sound)
    (h : .contact c lead ∈ (step J w a).2) :
    ∃ p, w.process = some p ∧ p.inner.persistenceHealthy = true ∧
      w.deadlines = some p.inner.persisted ∧
      p.inner.persisted.lastRequestUnix = some lead.started ∧
      lead.started ≤ p.inner.persisted.wallHighWaterUnix := by
  obtain ⟨p, on, hc, ha, -⟩ := contact_step hs h
  have hlead := (hs p on).leading c lead (by rw [hc]; rfl)
  exact ⟨p, on, hlead.healthy.trans ha, hlead.durable ha, hlead.lastRequest, hlead.highWater⟩

/-- **A contact is remembered from the start.** -/
theorem paced_contact {J : Serde} {w : World} {a : Action} {c : ℕ} {lead : Lead} (hs : w.Sound)
    (h : .contact c lead ∈ (step J w a).2) : (step J w a).1.Paced lead.started := by
  obtain ⟨p, on, -, hdisk, hlast, hhigh⟩ := contact_durable hs h
  obtain ⟨p', on', hc, ha, heq⟩ := contact_step hs h
  obtain rfl : p = p' := Option.some.inj (on.symm.trans on')
  have hcov : p.inner.persisted.Covers lead.started := ⟨⟨_, hlast, le_rfl⟩, hhigh⟩
  have hlead := (hs p on).leading c lead (by rw [hc]; rfl)
  have hleader := fun q onq => not_leading_of_contact hs h (p := q) onq
  rw [heq] at hleader ⊢
  refine ⟨⟨_, hdisk, hcov⟩, fun p' on' => ?_, fun p' on' hf => ?_, fun p' on' c' l hc' => ?_⟩
  · cases on'
    exact hcov
  · cases on'
    exact absurd (hlead.inFlight.symm.trans hf) (by simp)
  · exact absurd hc' (hleader p' on' c' l)

/-- **Every contact of a run is remembered at its end.** -/
theorem paced_run (J : Serde) (deadlines : Option SchedulerDeadlines)
    (servers : Option CachedCatalog) (actions : List Action) {c : ℕ} {lead : Lead}
    (h : .contact c lead ∈ (runFrom J deadlines servers actions).2) :
    (runFrom J deadlines servers actions).1.Paced lead.started := by
  let P : World → List Event → Prop := fun w h => w.Sound ∧
    ∀ c lead, .contact c lead ∈ h → w.Paced lead.started
  have hP : P (runFrom J deadlines servers actions).1
    ([] ++ (runFrom J deadlines servers actions).2) := by
    refine Machine.run_inv P (fun w h a hP => ?_) _ [] ⟨fun p hp => ?_, fun c lead h => ?_⟩ actions
    · refine ⟨sound_step J w a hP.1, fun c lead hmem => ?_⟩
      rcases List.mem_append.mp hmem with hmem | hmem
      · exact paced_step J w a hP.1 (hP.2 c lead hmem)
      · exact paced_contact hP.1 hmem
    · cases hp
    · cases h
  exact hP.2 c lead h

/-- **The pacing floor.** Over every run, a contact that redeemed no token was admitted at an
effective reading at least the floor after the start of every earlier contact. -/
theorem pacing_floor (J : Serde) (deadlines : Option SchedulerDeadlines)
    (servers : Option CachedCatalog) (actions : List Action) (pre post : List Event) (c : ℕ)
    (lead : Lead) (h : (runFrom J deadlines servers actions).2 = pre ++ .contact c lead :: post)
    (unconfirmed : lead.admission.redeemed = none) (c' : ℕ) (lead' : Lead)
    (earlier : .contact c' lead' ∈ pre) :
    satAdd lead'.started freshnessFloorSeconds ≤ lead.admission.effective := by
  obtain ⟨as₁, p, rfl, on, hc⟩ := exists_contact_step (sound_cold deadlines servers) h
  exact (paced_run J deadlines servers as₁ earlier).leading p on c lead hc unconfirmed

/-- Two automatic refreshes, the second one at the end of the window. -/
def twoWindows : List Action :=
  [.boot floorConfig none none, .call 0 .automatic (.at 100), .invoke 0,
    .finish 0 (.at 101 (.error (.transport "timeout"))), .crash, .boot floorConfig none none,
    .call 0 .automatic (.at 200), .call 1 .automatic (.at 10900), .invoke 1]

theorem pacing_floor_twoWindows :
    ∃ pre lead lead', (runFrom emptySerde none none twoWindows).2 = pre ++ [.contact 1 lead] ∧
      .contact 0 lead' ∈ pre ∧ lead'.started = 100 ∧
      satAdd lead'.started freshnessFloorSeconds ≤ lead.admission.effective := by
  let lead' : Lead := ⟨⟨.automatic, none, 100, none, none⟩, 1, 100, none, true⟩
  let lead : Lead := ⟨⟨.automatic, none, 10900, some 10900, none⟩, 1, 10900, none, true⟩
  let pre := (runFrom emptySerde none none twoWindows).2.dropLast
  have h : (runFrom emptySerde none none twoWindows).2 = pre ++ [.contact 1 lead] := rfl
  have earlier : .contact 0 lead' ∈ pre := by
    show _ ∈ [_, _, Event.contact 0 lead', _, _, _, _, _]
    simp
  exact ⟨pre, lead, lead', h, earlier, rfl,
    pacing_floor emptySerde none none twoWindows pre [] 1 lead h rfl 0 lead' earlier⟩

/-! ## Unsaved states -/

/-- What a later document keeps of an earlier one: neither the high-water mark nor a suppression is
lowered. -/
structure SchedulerDeadlines.Carries (d d' : SchedulerDeadlines) : Prop where
  highWater : d.wallHighWaterUnix ≤ d'.wallHighWaterUnix
  suppression : ∀ s, d.suppressionUntilUnix = some s →
    ∃ s', d'.suppressionUntilUnix = some s' ∧ s ≤ s'

theorem carries_refl (d : SchedulerDeadlines) : d.Carries d := ⟨le_rfl, fun s h => ⟨s, h, le_rfl⟩⟩

theorem SchedulerDeadlines.Carries.trans {d d' d'' : SchedulerDeadlines} (h : d.Carries d')
    (h' : d'.Carries d'') : d.Carries d'' := by
  refine ⟨h.highWater.trans h'.highWater, fun s hs => ?_⟩
  obtain ⟨s', hs', hle⟩ := h.suppression s hs
  obtain ⟨s'', hs'', hle'⟩ := h'.suppression s' hs'
  exact ⟨s'', hs'', hle.trans hle'⟩

theorem carries_anchor (d : SchedulerDeadlines) (started : ℕ) :
    d.Carries (anchorDeadlines d started) := ⟨le_max_left _ _, fun s h => ⟨s, h, le_rfl⟩⟩

theorem Finished.carries {config : SchedulerConfig} {env : FinishEnv} {lead : Lead}
    {fetched : Except FetchFailure FetchOutcome} {σ σ' : Section} {report : RefreshReport}
    (fin : Finished config env lead fetched σ report σ') :
    σ.inner.persisted.Carries σ'.inner.persisted := by
  refine ⟨fin.highWater, fun s hs => ?_⟩
  rw [fin.suppression, hs]
  exact ⟨_, rfl, le_max_left _ _⟩

/-- **Within a process nothing is forgotten**: a step that does not crash it carries on its
deadlines. -/
theorem carries_step {J : Serde} {w : World} {a : Action} {p p' : Process} (hs : w.Sound)
    (on : w.process = some p) (on' : (step J w a).1.process = some p') :
    p.inner.persisted.Carries p'.inner.persisted := by
  have hcase := step_case J w a
  generalize step J w a = r at hcase on'
  cases hcase with
  | stutter =>
    cases on.symm.trans on'
    exact carries_refl _
  | boot config deadlinesFault cacheFault off => rw [off] at on; cases on
  | crash => cases on'
  | park a q caller door entry running onq =>
    cases onq.symm.trans on
    cases on'
    exact carries_refl _
  | join a q caller door entry seen report onq =>
    cases onq.symm.trans on
    cases on'
    exact carries_refl _
  | answer a q caller door entry env outcome σ onq atDoor free result =>
    cases onq.symm.trans on
    cases on'
    show p.inner.persisted.Carries σ.inner.persisted
    rw [(answered_of_result result).persisted]
    exact carries_refl _
  | lead a q caller door entry env lead σ onq atDoor free result =>
    cases onq.symm.trans on
    cases on'
    show p.inner.persisted.Carries σ.inner.persisted
    rw [(led_of_result (hs p on).versioned result).persisted]
    exact carries_anchor _ _
  | invoke q caller lead onq =>
    cases onq.symm.trans on
    cases on'
    exact carries_refl _
  | finish q caller lead fetched env report σ onq completing result =>
    cases onq.symm.trans on
    cases on'
    exact (finished_of_eq result).carries

theorem crashed_of_process_none {J : Serde} {w : World} {a : Action} {p : Process}
    (on : w.process = some p) (off : (step J w a).1.process = none) :
    .crashed ∈ (step J w a).2 := by
  have hcase := step_case J w a
  generalize step J w a = r at hcase off
  cases hcase with
  | stutter => rw [on] at off; cases off
  | boot => cases off
  | crash => exact List.mem_singleton_self _
  | park => cases off
  | join => cases off
  | answer => cases off
  | lead => cases off
  | invoke => cases off
  | finish => cases off

/-- **The store becomes healthy only by saving the state in memory.** -/
theorem saved_of_healthy {J : Serde} {w : World} {a : Action} {p p' : Process} (hs : w.Sound)
    (on : w.process = some p) (unhealthy : p.inner.persistenceHealthy = false)
    (on' : (step J w a).1.process = some p') (healthy : p'.inner.persistenceHealthy = true) :
    .saved p.inner.persisted ∈ (step J w a).2 := by
  have hcase := step_case J w a
  generalize step J w a = r at hcase on'
  cases hcase with
  | stutter =>
    cases on.symm.trans on'
    rw [unhealthy] at healthy
    cases healthy
  | boot config deadlinesFault cacheFault off => rw [off] at on; cases on
  | crash => cases on'
  | park a q caller door entry running onq =>
    cases onq.symm.trans on
    cases on'
    exact absurd (unhealthy.symm.trans healthy) (by simp)
  | join a q caller door entry seen report onq =>
    cases onq.symm.trans on
    cases on'
    exact absurd (unhealthy.symm.trans healthy) (by simp)
  | answer a q caller door entry env outcome σ onq atDoor free result =>
    cases onq.symm.trans on
    cases on'
    have h := (answered_of_result result).healthy
    exact absurd (unhealthy.symm.trans (h.symm.trans healthy)) (by simp)
  | lead a q caller door entry env lead σ onq atDoor free result =>
    cases onq.symm.trans on
    cases on'
    have led := led_of_result (hs p on).versioned result
    have hanchored : lead.anchored = true := led.healthy.symm.trans healthy
    exact led.saves.gate_saved unhealthy hanchored
  | invoke q caller lead onq =>
    cases onq.symm.trans on
    cases on'
    exact absurd (unhealthy.symm.trans healthy) (by simp)
  | finish q caller lead fetched env report σ onq completing result =>
    cases onq.symm.trans on
    cases on'
    have hhealth : σ.inner.persistenceHealthy = true := healthy
    rcases (finished_of_eq result).saves (hs p on).versioned with ⟨-, h, -⟩ | ⟨-, h, -⟩
    · exact absurd (unhealthy.symm.trans (h.symm.trans hhealth)) (by simp)
    · exact absurd (h.symm.trans hhealth) (by simp)

/-- **An unsaved state is saved before the next contact of its process.** -/
theorem saved_before_contact {J : Serde} {c : ℕ} {lead : Lead} {a : Action} (actions : List Action)
    {w : World} {p : Process} (hs : w.Sound) (on : w.process = some p)
    (unhealthy : p.inner.persistenceHealthy = false)
    (alive : .crashed ∉ (Machine.run (step J) w actions).2)
    (h : .contact c lead ∈ (step J (Machine.run (step J) w actions).1 a).2) :
    ∃ as₁ b as₂ p', actions = as₁ ++ b :: as₂ ∧
      (Machine.run (step J) w as₁).1.process = some p' ∧
      p'.inner.persistenceHealthy = false ∧ p.inner.persisted.Carries p'.inner.persisted ∧
      .saved p'.inner.persisted ∈ (step J (Machine.run (step J) w as₁).1 b).2 := by
  -- induction on the run: the first step that ends healthy has saved
  induction actions generalizing w p with
  | nil =>
    obtain ⟨q, onq, healthy, -⟩ := contact_durable hs h
    obtain rfl : p = q := Option.some.inj (on.symm.trans onq)
    exact absurd (unhealthy.symm.trans healthy) (by simp)
  | cons b actions ih =>
    rw [Machine.run_cons] at alive h
    have alive₁ : .crashed ∉ (step J w b).2 := fun hc => alive (List.mem_append_left _ hc)
    cases on₁ : (step J w b).1.process with
    | none => exact absurd (crashed_of_process_none on on₁) alive₁
    | some p₁ =>
      cases hh : p₁.inner.persistenceHealthy with
      | true => exact ⟨[], b, actions, p, rfl, on, unhealthy, carries_refl _,
          saved_of_healthy hs on unhealthy on₁ hh⟩
      | false =>
        obtain ⟨as₁, b', as₂, p', rfl, hp', hu', hcarry, hsave⟩ := ih (sound_step J w b hs) on₁ hh
          (fun hc => alive (List.mem_append_right _ hc)) h
        exact ⟨b :: as₁, b', as₂, p', rfl, hp', hu', (carries_step hs on on₁).trans hcarry, hsave⟩

/-- **The durable anchor.** Whenever the fetch is invoked, the store is healthy, and the document on
disk is the one in memory and records the contact's start; an unsaved state is saved before the next
contact of its process; and at every moment the disk records a request at least as late as every
contact made so far. -/
theorem durable_anchor (J : Serde) (deadlines : Option SchedulerDeadlines)
    (servers : Option CachedCatalog) (actions : List Action) :
    (∀ a c lead, .contact c lead ∈ (step J (runFrom J deadlines servers actions).1 a).2 →
      ∃ p, (runFrom J deadlines servers actions).1.process = some p ∧
        p.inner.persistenceHealthy = true ∧
        (runFrom J deadlines servers actions).1.deadlines = some p.inner.persisted ∧
        p.inner.persisted.lastRequestUnix = some lead.started ∧
        lead.started ≤ p.inner.persisted.wallHighWaterUnix) ∧
    (∀ p, (runFrom J deadlines servers actions).1.process = some p →
      p.inner.persistenceHealthy = false → ∀ later a c lead,
      .crashed ∉ (Machine.run (step J) (runFrom J deadlines servers actions).1 later).2 →
      .contact c lead ∈
        (step J (Machine.run (step J) (runFrom J deadlines servers actions).1 later).1 a).2 →
      ∃ as₁ b as₂ p', later = as₁ ++ b :: as₂ ∧
        (runFrom J deadlines servers (actions ++ as₁)).1.process = some p' ∧
        p'.inner.persistenceHealthy = false ∧ p.inner.persisted.Carries p'.inner.persisted ∧
        .saved p'.inner.persisted ∈ (step J (runFrom J deadlines servers (actions ++ as₁)).1 b).2) ∧
    (∀ c lead, .contact c lead ∈ (runFrom J deadlines servers actions).2 →
      ∃ d r, (runFrom J deadlines servers actions).1.deadlines = some d ∧
        d.lastRequestUnix = some r ∧ lead.started ≤ r) := by
  have hs := sound_run J deadlines servers actions
  refine ⟨fun a c lead h => contact_durable hs h, fun p on unhealthy later a c lead alive h => ?_,
    fun c lead h => ?_⟩
  · obtain ⟨as₁, b, as₂, p', rfl, hp', hu', hcarry, hsave⟩ :=
      saved_before_contact later hs on unhealthy alive h
    have hrun : (runFrom J deadlines servers (actions ++ as₁)).1 =
        (Machine.run (step J) (runFrom J deadlines servers actions).1 as₁).1 := by
      unfold runFrom
      rw [Machine.run_append]
    exact ⟨as₁, b, as₂, p', rfl, by rw [hrun]; exact hp', hu', hcarry, by rw [hrun]; exact hsave⟩
  · obtain ⟨d, hd, ⟨r, hr, hle⟩, -⟩ := (paced_run J deadlines servers actions h).disk
    exact ⟨d, r, hd, hr, hle⟩

end ProtonWire
