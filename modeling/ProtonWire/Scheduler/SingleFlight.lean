import ProtonWire.Scheduler.Steps

/-!
# Single flight

* `Process.Sound`: what the locked state says about the call that leads, if any; **`sound_run`**: it
  holds of the process of every reachable world;
* **`single_flight`**: at most one fetch is in flight, and a joiner gets its generation's report in
  every run in which no refresh completes over a joiner of an earlier one.
-/

namespace ProtonWire

open U64

/-! ## Leaders -/

/-- The lead a call holds. -/
def CallerState.lead? : CallerState → Option Lead
  | leading lead => some lead
  | fetching lead => some lead
  | _ => none

/-- What holds of a world while a call leads. -/
structure World.Leading (w : World) (p : Process) (lead : Lead) : Prop where
  inFlight : p.inner.inFlight = some lead.generation
  lastRequest : p.inner.persisted.lastRequestUnix = some lead.started
  highWater : lead.started ≤ p.inner.persisted.wallHighWaterUnix
  healthy : p.inner.persistenceHealthy = lead.anchored
  durable : lead.anchored = true → w.deadlines = some p.inner.persisted
  burned : lead.admission.redeemed ≠ none → p.inner.token = none

/-- The process's locked state agrees with its calls. -/
structure Process.Sound (w : World) (p : Process) : Prop where
  versioned : p.inner.Versioned
  newest : ∀ g, p.inner.inFlight = some g → g = p.inner.generation
  leading : ∀ c lead, (p.callers c).lead? = some lead → w.Leading p lead
  unique : ∀ c c' lead lead', (p.callers c).lead? = some lead → (p.callers c').lead? = some lead' →
    c = c'

/-- The process of a world is sound. -/
def World.Sound (w : World) : Prop := ∀ p, w.process = some p → p.Sound w

theorem lead?_update {callers : ℕ → CallerState} {caller c : ℕ} {state : CallerState} {lead : Lead}
    (h : (Function.update callers caller state c).lead? = some lead) :
    (c = caller ∧ state.lead? = some lead) ∨ (c ≠ caller ∧ (callers c).lead? = some lead) := by
  by_cases hc : c = caller
  · rw [hc, Function.update_self] at h
    exact Or.inl ⟨hc, h⟩
  · rw [Function.update_of_ne hc] at h
    exact Or.inr ⟨hc, h⟩

theorem update_eq {callers : ℕ → CallerState} {caller c : ℕ} {state s : CallerState}
    (h : Function.update callers caller state c = s) : state = s ∨ callers c = s := by
  by_cases hc : c = caller
  · rw [hc, Function.update_self] at h
    exact Or.inl h
  · rw [Function.update_of_ne hc] at h
    exact Or.inr h

theorem lead?_update_none {callers : ℕ → CallerState} {caller : ℕ} {state : CallerState}
    (hstate : state.lead? = none) (hrest : ∀ c ≠ caller, (callers c).lead? = none) (c : ℕ) :
    (Function.update callers caller state c).lead? = none := by
  by_cases hc : c = caller
  · rw [hc, Function.update_self, hstate]
  · rw [Function.update_of_ne hc, hrest c hc]

theorem Process.Sound.no_leader {w : World} {p : Process} (hs : p.Sound w)
    (free : p.inner.inFlight = none) (c : ℕ) : (p.callers c).lead? = none := by
  cases hl : (p.callers c).lead? with
  | none => rfl
  | some lead => simpa [free] using (hs.leading c lead hl).inFlight

theorem Process.Sound.of_no_leader {w : World} {p : Process} (versioned : p.inner.Versioned)
    (free : p.inner.inFlight = none) (none_ : ∀ c, (p.callers c).lead? = none) : p.Sound w where
  versioned := versioned
  newest g hg := by rw [free] at hg; cases hg
  leading c lead hl := by rw [none_ c] at hl; cases hl
  unique c c' lead lead' hl := by rw [none_ c] at hl; cases hl

theorem completing_lead? {p : Process} {caller : ℕ} {lead : Lead}
    {fetched : Except FetchFailure FetchOutcome} {env : FinishEnv}
    (h : p.Completing caller lead fetched env) : (p.callers caller).lead? = some lead := by
  rcases h with ⟨h, -⟩ | ⟨h, -, -⟩ <;> rw [h] <;> rfl

theorem Process.Sound.move {w : World} {p : Process} (hs : p.Sound w) {caller : ℕ}
    {state : CallerState} (hstate : state.lead? = none) :
    Process.Sound (World.close p caller state (w.section p)).1
      { p with callers := Function.update p.callers caller state } where
  versioned := hs.versioned
  newest := hs.newest
  leading c lead hl := by
    rcases lead?_update hl with ⟨-, h⟩ | ⟨-, h⟩
    · rw [hstate] at h; cases h
    · exact ⟨(hs.leading c lead h).inFlight, (hs.leading c lead h).lastRequest,
        (hs.leading c lead h).highWater, (hs.leading c lead h).healthy,
        (hs.leading c lead h).durable, (hs.leading c lead h).burned⟩
  unique c c' lead lead' hl hl' := by
    rcases lead?_update hl with ⟨-, h⟩ | ⟨-, h⟩
    · rw [hstate] at h; cases h
    rcases lead?_update hl' with ⟨-, h'⟩ | ⟨-, h'⟩
    · rw [hstate] at h'; cases h'
    exact hs.unique c c' lead lead' h h'

theorem Process.Sound.lead {w : World} {p : Process} (hs : p.Sound w)
    (free : p.inner.inFlight = none)
    {caller : ℕ} {door : Door} {entry : Option ℕ} {now : ℕ} {lead : Lead} {σ : Section}
    (led : Led door entry now w p lead σ) :
    Process.Sound (World.close p caller (.leading lead) σ).1
      { p with inner := σ.inner, callers := Function.update p.callers caller (.leading lead) } := by
  -- the new leader is the only one
  have only : ∀ c l, (Function.update p.callers caller (.leading lead) c).lead? = some l →
      c = caller ∧ l = lead := by
    intro c l hl
    rcases lead?_update hl with ⟨hc, h⟩ | ⟨-, h⟩
    · exact ⟨hc, (Option.some.inj h).symm⟩
    · rw [hs.no_leader free c] at h; cases h
  refine ⟨?_, fun g hg => ?_, fun c l hl => ?_, fun c c' l l' hl hl' => ?_⟩
  · show σ.inner.persisted.schemaVersion = _
    rw [led.persisted]
    exact hs.versioned
  · have hg : σ.inner.inFlight = some g := hg
    rw [led.inFlight] at hg
    show g = σ.inner.generation
    rw [led.newest, Option.some.inj hg]
  · obtain ⟨-, rfl⟩ := only c l hl
    refine ⟨led.inFlight, ?_, ?_, led.healthy, fun ha => ?_, fun hr => ?_⟩
    · show σ.inner.persisted.lastRequestUnix = _
      rw [led.persisted]
      rfl
    · show _ ≤ σ.inner.persisted.wallHighWaterUnix
      rw [led.persisted]
      exact le_max_right _ _
    · exact led.saves.durable ha
    · rcases led.admitted with ⟨hnone, -, -⟩ | ⟨token, -, -, -, -, -, hburned⟩
      · exact absurd hnone hr
      · exact hburned
  · rw [(only c l hl).1, (only c' l' hl').1]

/-- **A step keeps the process sound.** -/
theorem sound_step (J : Serde) (w : World) (a : Action) (hs : w.Sound) : (step J w a).1.Sound := by
  have hcase := step_case J w a
  generalize step J w a = r at hcase
  cases hcase with
  | stutter => exact hs
  | boot config deadlinesFault cacheFault off versioned =>
    intro p hp
    cases hp
    refine .of_no_leader ?_ rfl fun _ => rfl
    show (rederiveCrashPacing (w.deadlines.getD .default)).schemaVersion = _
    rw [(rederive_fields _).2.2.2]
    cases hd : w.deadlines with
    | none => rfl
    | some doc => exact versioned doc hd
  | crash p on =>
    intro p hp
    cases hp
  | park a p caller door entry running on =>
    intro p' hp'
    cases hp'
    exact (hs p on).move rfl
  | join a p caller door entry seen report on =>
    intro p' hp'
    cases hp'
    exact (hs p on).move rfl
  | answer a p caller door entry env outcome σ on atDoor free result =>
    intro p' hp'
    cases hp'
    have ans := answered_of_result result
    refine .of_no_leader ?_ (ans.inFlight.trans free)
      (lead?_update_none rfl fun c _ => (hs p on).no_leader free c)
    show σ.inner.persisted.schemaVersion = _
    rw [ans.persisted]
    exact (hs p on).versioned
  | lead a p caller door entry env lead σ on atDoor free result =>
    intro p' hp'
    cases hp'
    exact (hs p on).lead free (led_of_result (hs p on).versioned result)
  | invoke p caller lead on leading anchored =>
    intro p' hp'
    cases hp'
    have hlead : (p.callers caller).lead? = some lead := by rw [leading]; rfl
    refine ⟨(hs p on).versioned, (hs p on).newest, fun c l hl => ?_, fun c c' l l' hl hl' => ?_⟩
    · have hl' : (p.callers c).lead? = some l := by
        rcases lead?_update hl with ⟨rfl, h⟩ | ⟨-, h⟩
        · rw [hlead]; exact h
        · exact h
      have := (hs p on).leading c l hl'
      exact ⟨this.inFlight, this.lastRequest, this.highWater, this.healthy, this.durable,
        this.burned⟩
    · rcases lead?_update hl with ⟨rfl, h⟩ | ⟨-, h⟩ <;>
        rcases lead?_update hl' with ⟨rfl, h'⟩ | ⟨-, h'⟩
      · rfl
      · exact (hs p on).unique _ _ _ _ hlead h'
      · exact (hs p on).unique _ _ _ _ h hlead
      · exact (hs p on).unique _ _ _ _ h h'
  | finish p caller lead fetched env report σ on completing result =>
    intro p' hp'
    cases hp'
    have fin := finished_of_eq result
    refine .of_no_leader (fin.versioned (hs p on).versioned) fin.inFlight
      (lead?_update_none rfl fun c hne => ?_)
    cases hl : (p.callers c).lead? with
    | none => rfl
    | some l => exact absurd ((hs p on).unique _ _ _ _ hl (completing_lead? completing)) hne

theorem sound_run_of (J : Serde) {w : World} (hs : w.Sound) (actions : List Action) :
    (Machine.run (step J) w actions).1.Sound :=
  Machine.run_state_inv World.Sound (sound_step J) w hs actions

theorem sound_cold (deadlines : Option SchedulerDeadlines) (servers : Option CachedCatalog) :
    (World.cold deadlines servers).Sound := fun p hp => by cases hp

/-- **The process of every reachable world is sound.** -/
theorem sound_run (J : Serde) (deadlines : Option SchedulerDeadlines)
    (servers : Option CachedCatalog)
    (actions : List Action) : (runFrom J deadlines servers actions).1.Sound :=
  sound_run_of J (sound_cold deadlines servers) actions

/-- **A leader has just passed its door, or was leading already.** -/
theorem leading_step {J : Serde} {w : World} {a : Action} {p' : Process} {c : ℕ} {lead : Lead}
    (hs : w.Sound) (on' : (step J w a).1.process = some p') (hc : p'.callers c = .leading lead) :
    ∃ p, w.process = some p ∧ (p.callers c = .leading lead ∨
      p.inner.inFlight = none ∧ ∃ door entry now σ, Led door entry now w p lead σ) := by
  have hcase := step_case J w a
  generalize step J w a = r at hcase on'
  cases hcase with
  | stutter => exact ⟨p', on', Or.inl hc⟩
  | boot =>
    cases on'
    cases hc
  | crash => cases on'
  | park a p caller door entry running on =>
    cases on'
    exact ⟨p, on, Or.inl ((update_eq hc).resolve_left (by simp))⟩
  | join a p caller door entry seen report on =>
    cases on'
    exact ⟨p, on, Or.inl ((update_eq hc).resolve_left (by simp))⟩
  | answer a p caller door entry env outcome σ on =>
    cases on'
    exact ⟨p, on, Or.inl ((update_eq hc).resolve_left (by simp))⟩
  | lead a p caller door entry env l σ on atDoor free result =>
    cases on'
    refine ⟨p, on, ?_⟩
    rcases update_eq hc with h | h
    · cases h
      exact Or.inr ⟨free, _, _, _, _, led_of_result (hs p on).versioned result⟩
    · exact Or.inl h
  | invoke p caller l on =>
    cases on'
    exact ⟨p, on, Or.inl ((update_eq hc).resolve_left (by simp))⟩
  | finish p caller l fetched env report σ on =>
    cases on'
    exact ⟨p, on, Or.inl ((update_eq hc).resolve_left (by simp))⟩

/-- **Only the invocation of an anchored lead contacts the upstream.** -/
theorem contact_step {J : Serde} {w : World} {a : Action} {c : ℕ} {lead : Lead} (hs : w.Sound)
    (h : .contact c lead ∈ (step J w a).2) :
    ∃ p, w.process = some p ∧ p.callers c = .leading lead ∧ lead.anchored = true ∧
      (step J w a) = ({ w with process := some { p with
        callers := Function.update p.callers c (.fetching lead) } }, [.contact c lead]) := by
  have hcase := step_case J w a
  generalize step J w a = r at hcase h
  cases hcase with
  | stutter => cases h
  | boot => simp at h
  | crash => simp at h
  | park => cases h
  | join => cases h
  | answer a p caller door entry env outcome σ on atDoor free result =>
    have h : .contact c lead ∈ σ.events := h
    rcases (answered_of_result result).token with ⟨-, he | he⟩ | ⟨value, -, he⟩ <;>
      rw [he] at h <;> simp at h
  | lead a p caller door entry env l σ on atDoor free result =>
    have led := led_of_result (hs p on).versioned result
    rcases led.saves.mem h with h | ⟨d, h⟩
    · cases h
    · cases h
  | invoke p caller l on leading anchored =>
    cases List.mem_singleton.mp h
    exact ⟨p, on, leading, anchored, rfl⟩
  | finish p caller l fetched env report σ on completing result =>
    rcases (finished_of_eq result).mem (hs p on).versioned h with h | ⟨d, h⟩ | ⟨h, -⟩
    · cases h
    · cases h
    · cases h

theorem not_leading_of_contact {J : Serde} {w : World} {a : Action} {c : ℕ} {lead : Lead}
    (hs : w.Sound) (h : .contact c lead ∈ (step J w a).2) {p : Process}
    (on : (step J w a).1.process = some p) (c' : ℕ)
    (lead' : Lead) : p.callers c' ≠ .leading lead' := by
  intro hc'
  obtain ⟨q, onq, hc, -, heq⟩ := contact_step hs h
  rw [heq] at on
  cases on
  have hl := (update_eq hc').resolve_left (by simp)
  obtain rfl := (hs q onq).unique c' c lead' lead (by rw [hl]; rfl) (by rw [hc]; rfl)
  simp at hc'

/-- **A contact of a run is one step**, taken by a leader; the events before it are those of the run
up to that step. -/
theorem exists_contact_step {J : Serde} {w : World} (hs : w.Sound) {actions : List Action}
    {pre post : List Event} {c : ℕ} {lead : Lead}
    (h : (Machine.run (step J) w actions).2 = pre ++ .contact c lead :: post) :
    ∃ as₁ p, pre = (Machine.run (step J) w as₁).2 ∧
      (Machine.run (step J) w as₁).1.process = some p ∧ p.callers c = .leading lead := by
  obtain ⟨as₁, a, as₂, u, v, rfl, hstep, rfl, -⟩ := Machine.exists_step_of_eq_append _ _ _ _ _ h
  have hmem : .contact c lead ∈ (step J (Machine.run (step J) w as₁).1 a).2 := by
    rw [hstep]
    simp
  obtain ⟨p, on, hc, -, heq⟩ := contact_step (sound_run_of J hs as₁) hmem
  rw [heq] at hstep
  cases u with
  | nil => exact ⟨as₁, p, List.append_nil _, on, hc⟩
  | cons e u => simp at hstep

/-! ## Published reports -/

/-- The published reports of a process: one for each generation that completed, the newest of them
in the result slot; a generation in flight is led by a call. -/
structure Process.Publishing (p : Process) : Prop where
  below : ∀ g report, (g, report) ∈ p.published → g ≤ p.inner.generation
  open_ : ∀ g, p.inner.inFlight = some g → ∀ report, (g, report) ∉ p.published
  once : (p.published.map Prod.fst).Nodup
  newest : ∀ g report, p.inner.completed = some (g, report) → (g, report) ∈ p.published
  led : ∀ g, p.inner.inFlight = some g → ∃ c lead, (p.callers c).lead? = some lead ∧
    lead.generation = g

theorem led_update {callers : ℕ → CallerState} {caller : ℕ} {state : CallerState} {g : ℕ}
    (hcaller : (callers caller).lead? = none)
    (h : ∃ c lead, (callers c).lead? = some lead ∧ lead.generation = g) :
    ∃ c lead, (Function.update callers caller state c).lead? = some lead ∧ lead.generation = g := by
  obtain ⟨c, lead, hl, hg⟩ := h
  refine ⟨c, lead, ?_, hg⟩
  rw [Function.update_of_ne, hl]
  rintro rfl
  rw [hcaller] at hl
  cases hl

theorem parking_lead? {p : Process} {caller : ℕ} {door : Door} {entry running : ℕ}
    (h : p.Parking caller door entry running) : (p.callers caller).lead? = none := by
  rcases h with ⟨h, -⟩ | ⟨seen, h, -⟩ <;> rw [h] <;> rfl

/-- **A step keeps the published reports in order.** -/
theorem publishing_step (J : Serde) (w : World) (a : Action) (hs : w.Sound)
    (hp : ∀ p, w.process = some p → p.Publishing) :
    ∀ p, (step J w a).1.process = some p → p.Publishing := by
  have hcase := step_case J w a
  generalize step J w a = r at hcase
  cases hcase with
  | stutter => exact hp
  | boot config deadlinesFault cacheFault off versioned =>
    intro p hp'
    cases hp'
    exact ⟨by simp [newWithCache], by simp [newWithCache], by simp [newWithCache],
      by simp [newWithCache], by simp [newWithCache]⟩
  | crash p on =>
    intro p hp'
    cases hp'
  | park a p caller door entry running on parking flying =>
    intro p' hp'
    cases hp'
    have hold := hp p on
    exact ⟨hold.below, hold.open_, hold.once, hold.newest,
      fun g hg => led_update (parking_lead? parking) (hold.led g hg)⟩
  | join a p caller door entry seen report on waiting resolved done =>
    intro p' hp'
    cases hp'
    have hold := hp p on
    exact ⟨hold.below, hold.open_, hold.once, hold.newest,
      fun g hg => led_update (by rw [waiting]; rfl) (hold.led g hg)⟩
  | answer a p caller door entry env outcome σ on atDoor free result =>
    intro p' hp'
    cases hp'
    have hold := hp p on
    have ans := answered_of_result result
    have hfree : σ.inner.inFlight = none := ans.inFlight.trans free
    refine ⟨fun g report hg => ?_, fun g hg => ?_, hold.once, fun g report hg => ?_, fun g hg => ?_⟩
    · show g ≤ σ.inner.generation
      rw [ans.generation]
      exact hold.below g report hg
    · rw [hfree] at hg; cases hg
    · exact hold.newest g report (ans.completed ▸ hg)
    · rw [hfree] at hg; cases hg
  | lead a p caller door entry env lead σ on atDoor free result =>
    intro p' hp'
    cases hp'
    have hold := hp p on
    have led := led_of_result (hs p on).versioned result
    refine ⟨fun g report hg => ?_, fun g hg report hmem => ?_, hold.once, fun g report hg => ?_,
      fun g hg => ?_⟩
    · show g ≤ σ.inner.generation
      rw [led.newest, led.generation]
      exact Nat.le_succ_of_le (hold.below g report hg)
    · have hg' : some lead.generation = some g := led.inFlight.symm.trans hg
      have := hold.below g report hmem
      rw [← Option.some.inj hg', led.generation] at this
      omega
    · exact hold.newest g report (led.completed ▸ hg)
    · have hg' : some lead.generation = some g := led.inFlight.symm.trans hg
      exact ⟨caller, lead, by simp [CallerState.lead?], Option.some.inj hg'⟩
  | invoke p caller lead on leading anchored =>
    intro p' hp'
    cases hp'
    have hold := hp p on
    refine ⟨hold.below, hold.open_, hold.once, hold.newest, fun g hg => ?_⟩
    obtain ⟨c, l, hl, hgen⟩ := hold.led g hg
    have hcaller : (p.callers caller).lead? = some lead := by rw [leading]; rfl
    obtain rfl := (hs p on).unique _ _ _ _ hl hcaller
    rw [hcaller] at hl
    exact ⟨c, lead, by simp [CallerState.lead?], Option.some.inj hl ▸ hgen⟩
  | finish p caller lead fetched env report σ on completing result =>
    intro p' hp'
    cases hp'
    have hold := hp p on
    have fin := finished_of_eq result
    have hflight := ((hs p on).leading _ _ (completing_lead? completing)).inFlight
    refine ⟨fun g report' hg => ?_, fun g hg => ?_, ?_, fun g report' hg => ?_, fun g hg => ?_⟩
    · show g ≤ σ.inner.generation
      rw [fin.generation]
      rcases List.mem_cons.mp hg with heq | hg
      · cases heq
        exact ((hs p on).newest _ hflight).le
      · exact hold.below g report' hg
    · exact absurd (fin.inFlight.symm.trans hg) (by simp)
    · refine List.nodup_cons.mpr ⟨fun hmem => ?_, hold.once⟩
      obtain ⟨⟨g, report'⟩, hmem, rfl⟩ := List.mem_map.mp hmem
      exact hold.open_ _ hflight report' hmem
    · have hg' : some (lead.generation, report) = some (g, report') := fin.completed.symm.trans hg
      cases hg'
      exact List.mem_cons_self
    · exact absurd (fin.inFlight.symm.trans hg) (by simp)

/-! ## Joiners -/

/-- The step completes a refresh while a call that joined an earlier one has not reacquired the lock
yet. -/
def Overtakes (w : World) (a : Action) : Prop :=
  ∃ p caller env lead fetched, w.process = some p ∧ a = .finish caller env ∧
    p.Completing caller lead fetched env ∧
    ∃ c door entry seen, p.callers c = .waiting door entry seen ∧ seen ≠ lead.generation

/-- Every joiner waits for the generation it found on entry, which is in flight or in the result
slot, and returned its report. -/
structure Process.Joining (p : Process) : Prop where
  waiting : ∀ c door entry seen, p.callers c = .waiting door entry seen →
    entry = seen ∧ (p.inner.inFlight = some seen ∨
      ∃ report, p.inner.completed = some (seen, report))
  returned : ∀ c door g outcome, p.callers c = .returned door (some g) outcome →
    ∃ report, (g, report) ∈ p.published ∧ outcome = door.joined report
  leading : ∀ c lead, (p.callers c).lead? = some lead → lead.admission.entry = none

theorem Process.Joining.not_overtaken {p : Process} (hj : p.Joining) {c : ℕ} {door : Door}
    {entry seen : ℕ} (h : p.callers c = .waiting door entry seen) : ¬ p.Overtaken seen := by
  rintro ⟨hflight, hdone⟩
  rcases (hj.waiting c door entry seen h).2 with h | ⟨report, h⟩
  · exact hflight h
  · exact hdone report h

theorem Process.Joining.entry_none {p : Process} (hj : p.Joining) {c : ℕ} {door : Door}
    {entry : Option ℕ} (h : p.AtDoor c door entry) : entry = none := by
  rcases h with ⟨-, h⟩ | ⟨e, seen, h, -, late⟩
  · exact h
  · exact absurd late (hj.not_overtaken h)

/-- A generation is in flight, or its report is in the result slot. -/
def Inner.Awaited (inner : Inner) (g : ℕ) : Prop :=
  inner.inFlight = some g ∨ ∃ report, inner.completed = some (g, report)

/-- What one caller is owed. -/
def Process.Serves (p : Process) : CallerState → Prop
  | .waiting _ entry seen => entry = seen ∧ p.inner.Awaited seen
  | .returned door (some g) outcome => ∃ report, (g, report) ∈ p.published ∧
    outcome = door.joined report
  | .leading lead | .fetching lead => lead.admission.entry = none
  | _ => True

theorem Process.Joining.serves {p : Process} (hj : p.Joining) (c : ℕ) : p.Serves (p.callers c) := by
  cases hc : p.callers c with
  | idle => trivial
  | waiting door entry seen => exact hj.waiting c door entry seen hc
  | leading lead => exact hj.leading c lead (by rw [hc]; rfl)
  | fetching lead => exact hj.leading c lead (by rw [hc]; rfl)
  | returned door entry outcome =>
    cases entry with
    | none => trivial
    | some g => exact hj.returned c door g outcome hc

theorem joining_of_serves {p : Process} (h : ∀ c, p.Serves (p.callers c)) : p.Joining where
  waiting c door entry seen hc := by
    have := h c
    rwa [hc] at this
  returned c door g outcome hc := by
    have := h c
    rwa [hc] at this
  leading c lead hc := by
    have hserves := h c
    cases hstate : p.callers c with
    | leading l | fetching l =>
      rw [hstate] at hc hserves
      cases hc
      exact hserves
    | _ =>
      rw [hstate] at hc
      cases hc

theorem Process.Joining.update {p p' : Process} (hj : p.Joining) {caller : ℕ} {state : CallerState}
    (hcallers : p'.callers = Function.update p.callers caller state)
    (hawaited : ∀ c door entry seen, p.callers c = .waiting door entry seen → p.inner.Awaited seen →
      p'.inner.Awaited seen)
    (hpublished : ∀ entry ∈ p.published, entry ∈ p'.published) (hstate : p'.Serves state) :
    p'.Joining := by
  refine joining_of_serves fun c => ?_
  rw [hcallers]
  by_cases hcaller : c = caller
  · rw [hcaller, Function.update_self]
    exact hstate
  · rw [Function.update_of_ne hcaller]
    have hold := hj.serves c
    cases hc : p.callers c with
    | idle => trivial
    | waiting door entry seen =>
      rw [hc] at hold
      exact ⟨hold.1, hawaited c door entry seen hc hold.2⟩
    | leading lead | fetching lead =>
      rw [hc] at hold
      exact hold
    | returned door entry outcome =>
      cases entry with
      | none => trivial
      | some g =>
        rw [hc] at hold
        obtain ⟨report, hmem, houtcome⟩ := hold
        exact ⟨report, hpublished _ hmem, houtcome⟩

/-- **A step that overtakes nobody keeps the joiners served.** -/
theorem joining_step (J : Serde) (w : World) (a : Action) (hs : w.Sound)
    (hp : ∀ p, w.process = some p → p.Publishing) (hj : ∀ p, w.process = some p → p.Joining)
    (hok : ¬ Overtakes w a) : ∀ p, (step J w a).1.process = some p → p.Joining := by
  have hcase := step_case J w a
  generalize step J w a = r at hcase
  cases hcase with
  | stutter => exact hj
  | boot config deadlinesFault cacheFault off versioned =>
    intro p hp'
    cases hp'
    exact joining_of_serves fun _ => trivial
  | crash p on =>
    intro p hp'
    cases hp'
  | park a p caller door entry running on parking flying =>
    intro p' hp'
    cases hp'
    have hold := hj p on
    refine hold.update rfl (fun _ _ _ _ _ => id) (fun _ => id) ?_
    rcases parking with ⟨-, rfl⟩ | ⟨seen, h, late⟩
    · exact ⟨rfl, Or.inl flying⟩
    · exact absurd late (hold.not_overtaken h)
  | join a p caller door entry seen report on waiting resolved done =>
    intro p' hp'
    cases hp'
    have hold := hj p on
    obtain ⟨rfl, -⟩ := hold.waiting _ _ _ _ waiting
    exact hold.update rfl (fun _ _ _ _ _ => id) (fun _ => id)
      ⟨report, (hp p on).newest _ _ done, rfl⟩
  | answer a p caller door entry env outcome σ on atDoor free result =>
    intro p' hp'
    cases hp'
    have hold := hj p on
    have ans := answered_of_result result
    obtain rfl := hold.entry_none atDoor
    refine hold.update rfl (fun _ _ _ seen _ hawaited => ?_) (fun _ => id) trivial
    show σ.inner.inFlight = _ ∨ ∃ report, σ.inner.completed = _
    rw [ans.inFlight, ans.completed]
    exact hawaited
  | lead a p caller door entry env lead σ on atDoor free result =>
    intro p' hp'
    cases hp'
    have hold := hj p on
    have led := led_of_result (hs p on).versioned result
    obtain rfl := hold.entry_none atDoor
    refine hold.update rfl (fun _ _ _ seen _ hawaited => ?_) (fun _ => id) led.entry
    -- the flight slot was empty, so the joiner's report is in the result slot
    rcases hawaited with hflight | ⟨report, hdone⟩
    · rw [free] at hflight
      cases hflight
    · exact Or.inr ⟨report, led.completed.trans hdone⟩
  | invoke p caller lead on leading anchored =>
    intro p' hp'
    cases hp'
    have hold := hj p on
    refine hold.update rfl (fun _ _ _ _ _ => id) (fun _ => id) ?_
    exact hold.leading caller lead (by rw [leading]; rfl)
  | finish p caller lead fetched env report σ on completing result =>
    intro p' hp'
    cases hp'
    have hold := hj p on
    have fin := finished_of_eq result
    have hentry := hold.leading _ _ (completing_lead? completing)
    refine hold.update rfl (fun c d e seen hc _ => ?_) (fun _ => List.mem_cons_of_mem _) ?_
    · -- nobody is overtaken: the joiner waits for the generation that completes
      have hseen : seen = lead.generation := by
        by_contra hne
        exact hok ⟨p, caller, env, lead, fetched, on, rfl, completing, c, d, e, seen, hc, hne⟩
      exact Or.inr ⟨report, hseen ▸ fin.completed⟩
    · rw [hentry]
      trivial

theorem joining_run (J : Serde) (deadlines : Option SchedulerDeadlines)
    (servers : Option CachedCatalog) (actions : List Action)
    (hok : ∀ as₁ a as₂, actions = as₁ ++ a :: as₂ →
      ¬ Overtakes (runFrom J deadlines servers as₁).1 a) :
    (∀ p, (runFrom J deadlines servers actions).1.process = some p → p.Publishing ∧ p.Joining) ∧
      ∀ c lead, .contact c lead ∈ (runFrom J deadlines servers actions).2 →
        lead.admission.entry = none := by
  let P : World → List Event → Prop := fun w h => w.Sound ∧
    (∀ p, w.process = some p → p.Publishing ∧ p.Joining) ∧
    ∀ c lead, .contact c lead ∈ h → lead.admission.entry = none
  suffices h : P (runFrom J deadlines servers actions).1 (runFrom J deadlines servers actions).2
    from
    h.2
  refine Machine.run_inv_of_steps (fun w a => ¬ Overtakes w a) P (fun w h a hok hP => ?_) _ ?_ _ hok
  · obtain ⟨hs, hp, hc⟩ := hP
    refine ⟨sound_step J w a hs, fun p on => ⟨?_, ?_⟩, fun c lead hmem => ?_⟩
    · exact publishing_step J w a hs (fun p on => (hp p on).1) p on
    · exact joining_step J w a hs (fun p on => (hp p on).1) (fun p on => (hp p on).2) hok p on
    · rcases List.mem_append.mp hmem with hmem | hmem
      · exact hc c lead hmem
      · obtain ⟨p, on, hlead, -⟩ := contact_step hs hmem
        exact (hp p on).2.leading c lead (by rw [hlead]; rfl)
  · refine ⟨?_, ?_, ?_⟩
    · intro p hp
      cases hp
    · intro p hp
      cases hp
    · intro c lead h
      cases h

theorem wake_joins (J : Serde) {w : World} {p : Process} (on : w.process = some p) {c : ℕ}
    {door : Door} {entry seen : ℕ} (h : p.callers c = .waiting door entry seen) (env : DoorEnv)
    {report : RefreshReport} (resolved : p.inner.inFlight ≠ some seen)
    (done : p.inner.completed = some (seen, report)) :
    ∃ p', (step J w (.wake c env)).1.process = some p' ∧
      p'.callers c = .returned door (some entry) (door.joined report) := by
  refine ⟨{ p with
    callers := Function.update p.callers c (.returned door (some entry) (door.joined report)) },
    ?_, Function.update_self ..⟩
  simp only [step, on, h, World.rejoin]
  rw [if_neg resolved, done]
  dsimp only
  rw [if_pos rfl]
  rfl

/-- **Single flight.** At most one fetch is in flight. In a run in which no refresh completes while
a joiner of an earlier one has not reacquired the lock, a call that found generation `g` in flight
on entry never contacts the upstream, and returned the one report of `g`, marked as coalesced; until
then `g` is led by a call, or the next wake-up returns its report. -/
theorem single_flight (J : Serde) (deadlines : Option SchedulerDeadlines)
    (servers : Option CachedCatalog) (actions : List Action) :
    (∀ p, (runFrom J deadlines servers actions).1.process = some p →
      ∀ c c' lead lead', p.callers c = .fetching lead → p.callers c' = .fetching lead' → c = c') ∧
    ((∀ as₁ a as₂, actions = as₁ ++ a :: as₂ → ¬ Overtakes (runFrom J deadlines servers as₁).1 a) →
      (∀ c lead, .contact c lead ∈ (runFrom J deadlines servers actions).2 →
        lead.admission.entry = none) ∧
      ∀ p, (runFrom J deadlines servers actions).1.process = some p →
        (p.published.map Prod.fst).Nodup ∧
        (∀ c door g outcome, p.callers c = .returned door (some g) outcome →
          ∃ report, (g, report) ∈ p.published ∧ outcome = door.joined report) ∧
        ∀ c door g seen, p.callers c = .waiting door g seen →
          (p.inner.inFlight = some g ∧
            ∃ c' lead, (p.callers c').lead? = some lead ∧ lead.generation = g) ∨
          ∃ report, (g, report) ∈ p.published ∧ ∀ env, ∃ p',
            (step J (runFrom J deadlines servers actions).1 (.wake c env)).1.process = some p' ∧
            p'.callers c = .returned door (some g) (door.joined report)) := by
  refine ⟨fun p on c c' lead lead' h h' => ?_, fun hok => ?_⟩
  · exact (sound_run J deadlines servers actions p on).unique c c' lead lead' (by rw [h]; rfl)
      (by rw [h']; rfl)
  · obtain ⟨hp, hc⟩ := joining_run J deadlines servers actions hok
    refine ⟨hc, fun p on => ⟨(hp p on).1.once, (hp p on).2.returned, fun c door g seen h => ?_⟩⟩
    obtain ⟨rfl, hseen⟩ := (hp p on).2.waiting c door g seen h
    by_cases hflight : p.inner.inFlight = some g
    · exact Or.inl ⟨hflight, (hp p on).1.led g hflight⟩
    · obtain ⟨report, hdone⟩ := hseen.resolve_left hflight
      exact Or.inr ⟨report, (hp p on).1.newest g report hdone,
        fun env => wake_joins J on h env hflight hdone⟩

/-- Two automatic calls: the second joins the first. -/
def joiningRun : List Action :=
  [.boot floorConfig none none, .call 0 .automatic (.at 100), .call 1 .automatic (.at 100),
   .invoke 0, .finish 0 (.at 101 (.error (.transport "timeout"))), .wake 1 (.at 102)]

theorem not_overtakes_of_not_finish {w : World} {a : Action}
    (h : ∀ caller env, a ≠ .finish caller env) :
    ¬ Overtakes w a := by
  rintro ⟨p, caller, env, lead, fetched, -, ha, -⟩
  exact h caller env ha

theorem joiningRun_prompt :
    Machine.Along (step emptySerde) (fun w a => ¬ Overtakes w a) (World.cold none none)
    joiningRun := by
  refine ⟨?_, ?_, ?_, ?_, ?_, ?_, trivial⟩
  -- when the lead completes, the one joiner waits for its generation
  case refine_5 =>
    rintro ⟨p, caller, env, lead, fetched, on, ha, hcompleting, c, door, entry, seen, hc, hne⟩
    cases ha
    cases on
    rcases hcompleting with ⟨hl, -⟩ | ⟨hl, -⟩ <;> cases hl
    rcases update_eq hc with h | hc
    · cases h
    rcases update_eq hc with h | hc
    · cases h
      exact hne rfl
    rcases update_eq hc with h | hc
    · cases h
    · cases hc
  all_goals exact not_overtakes_of_not_finish (by simp)

theorem single_flight_joiningRun :
    ∃ p report, (runFrom emptySerde none none joiningRun).1.process = some p ∧
      (1, report) ∈ p.published ∧
      p.callers 1 = .returned .automatic (some 1) (Door.automatic.joined report) := by
  obtain ⟨p, on, hc⟩ : ∃ p, (runFrom emptySerde none none joiningRun).1.process = some p ∧
      p.callers 1 = .returned .automatic (some 1)
        (Door.automatic.joined ⟨.failed "timeout", false, 10900, none⟩) := ⟨_, rfl, rfl⟩
  obtain ⟨report, hmem, ho⟩ := (((single_flight emptySerde none none joiningRun).2
    joiningRun_prompt.at_step).2 p on).2.1 1 .automatic 1 _ hc
  exact ⟨p, report, on, hmem, ho ▸ hc⟩

/-- A manual call redeems a token minted before the window opened, and completes before the joiner
of the first refresh reacquires the lock. -/
def overtakingRun : List Action :=
  [.boot floorConfig none none, .call 0 (.manual none) (.at 50), .call 1 .automatic (.at 100),
    .call 2 .automatic (.at 100), .invoke 1, .finish 1 (.at 100 (.error (.transport "timeout"))),
    .call 3 (.manual zeroToken) (.at 101), .invoke 3,
    .finish 3 (.at 101 (.error (.transport "timeout"))), .wake 2 (.at 102)]

/-- **An overtaken joiner does not get its generation's report**: it is told that nothing is due. -/
theorem joiner_overtaken :
    ¬ ∀ (J : Serde) (deadlines : Option SchedulerDeadlines) (servers : Option CachedCatalog)
      (actions : List Action) (p : Process) (c : ℕ) (door : Door) (g : ℕ) (outcome : CallOutcome),
      (runFrom J deadlines servers actions).1.process = some p →
      p.callers c = .returned door (some g) outcome →
      ∃ report, (g, report) ∈ p.published ∧ outcome = door.joined report := by
  intro h
  obtain ⟨p, on, hc⟩ : ∃ p, (runFrom emptySerde
      (some { SchedulerDeadlines.default with nextEligibleUnix := some 100 }) none
      overtakingRun).1.process = some p ∧
      p.callers 2 = .returned .automatic (some 1) (.automatic (.notDue 10901)) := ⟨_, rfl, rfl⟩
  obtain ⟨report, -, ho⟩ := h _ _ _ _ p 2 _ 1 _ on hc
  cases ho

end ProtonWire
