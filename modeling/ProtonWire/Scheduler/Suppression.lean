import ProtonWire.Scheduler.Pacing

/-!
# Rate-limit suppression

A rate limit outranks both doors, whatever token a caller presents. Memory never forgets it; the
disk learns it with the first save that succeeds afterwards, and a crash before that save falls back
to the three-hour floor.

* `disk_step`: a step that writes the disk writes a document between the states of memory before and
  after it;
* `World.Suppressed`, `World.Durable`: memory, and memory and disk, suppress up to a bound;
* **`suppression_outranks_doors`**.
-/

namespace ProtonWire

open U64

/-! ## The disk follows memory -/

/-- **What a step writes to disk**: nothing, or a document that carries on memory before the step
and is carried on by memory after it. -/
theorem disk_step {J : Serde} {w : World} {a : Action} (hs : w.Sound) :
    ((step J w a).1.deadlines = w.deadlines ∧ ∀ d, .saved d ∉ (step J w a).2) ∨
      ∃ p p' d, w.process = some p ∧ (step J w a).1.process = some p' ∧
        (step J w a).1.deadlines = some d ∧ p.inner.persisted.Carries d ∧
        d.Carries p'.inner.persisted := by
  have hcase := step_case J w a
  generalize step J w a = r at hcase
  cases hcase with
  | stutter => exact Or.inl ⟨rfl, by simp⟩
  | boot => exact Or.inl ⟨rfl, by simp⟩
  | crash => exact Or.inl ⟨rfl, by simp⟩
  | park => exact Or.inl ⟨rfl, fun d h => by cases h⟩
  | join => exact Or.inl ⟨rfl, fun d h => by cases h⟩
  | answer a p caller door entry env outcome σ on atDoor free result =>
    have ans := answered_of_result result
    refine Or.inl ⟨ans.deadlines, fun d h => ?_⟩
    have h : .saved d ∈ σ.events := h
    rcases ans.token with ⟨-, he | he⟩ | ⟨value, -, he⟩ <;> rw [he] at h <;> simp at h
  | lead a p caller door entry env lead σ on atDoor free result =>
    have led := led_of_result (hs p on).versioned result
    have hcarry : p.inner.persisted.Carries σ.inner.persisted := by
      rw [led.persisted]
      exact carries_anchor _ _
    rcases led.saves.disk with ⟨hd, he⟩ | hd | hd
    · refine Or.inl ⟨hd, fun d h => ?_⟩
      have h : .saved d ∈ σ.events := h
      rw [he] at h
      cases h
    · exact Or.inr ⟨p, _, _, on, rfl, hd, carries_refl _, hcarry⟩
    · exact Or.inr ⟨p, _, _, on, rfl, hd, hcarry, carries_refl _⟩
  | invoke => exact Or.inl ⟨rfl, by simp⟩
  | finish p caller lead fetched env report σ on completing result =>
    have fin := finished_of_eq result
    rcases fin.saves (hs p on).versioned with ⟨hd, -, -⟩ | ⟨hd, -, he⟩
    · exact Or.inr ⟨p, _, _, on, rfl, hd, fin.carries, carries_refl _⟩
    · refine Or.inl ⟨hd, fun d h => ?_⟩
      have h : .saved d ∈ σ.events := h
      rw [he] at h
      unfold fetchedEvents at h
      split_ifs at h <;> simp [World.section] at h

/-- The document on disk is carried on by the one in memory. -/
def World.Behind (w : World) : Prop :=
  ∀ p d, w.process = some p → w.deadlines = some d → d.Carries p.inner.persisted

theorem carries_rederive (d : SchedulerDeadlines) : d.Carries (rederiveCrashPacing d) := by
  obtain ⟨-, hw, hsup, -⟩ := rederive_fields d
  exact ⟨hw.ge, fun s h => ⟨s, hsup.trans h, le_rfl⟩⟩

theorem boot_resumes {J : Serde} {w : World} {a : Action} {p : Process} (off : w.process = none)
    (on : (step J w a).1.process = some p) :
    (step J w a).1.deadlines = w.deadlines ∧
      p.inner.persisted = rederiveCrashPacing (w.deadlines.getD .default) ∧
      ∀ c, p.callers c = .idle := by
  have hcase := step_case J w a
  generalize step J w a = r at hcase on
  cases hcase with
  | stutter => rw [off] at on; cases on
  | boot =>
    cases on
    exact ⟨rfl, rfl, fun _ => rfl⟩
  | crash => cases on
  | park a q caller door entry running onq => rw [off] at onq; cases onq
  | join a q caller door entry seen report onq => rw [off] at onq; cases onq
  | answer a q caller door entry env outcome σ onq => rw [off] at onq; cases onq
  | lead a q caller door entry env lead σ onq => rw [off] at onq; cases onq
  | invoke q caller lead onq => rw [off] at onq; cases onq
  | finish q caller lead fetched env report σ onq => rw [off] at onq; cases onq

theorem behind_step (J : Serde) (w : World) (a : Action) (hs : w.Sound) (hb : w.Behind) :
    (step J w a).1.Behind := by
  intro p' d on' hd
  rcases disk_step (J := J) (a := a) hs with ⟨hsame, -⟩ | ⟨p, q, d', on, onq, hd', -, hcarry⟩
  · rw [hsame] at hd
    cases hp : w.process with
    | none =>
      rw [(boot_resumes hp on').2.1, hd]
      exact carries_rederive d
    | some p => exact (hb p d hp hd).trans (carries_step hs hp on')
  · cases hd'.symm.trans hd
    cases onq.symm.trans on'
    exact hcarry

/-- **The disk never forgets**: a step carries on the document on disk. -/
theorem disk_carries_step {J : Serde} {w : World} {a : Action} (hs : w.Sound) (hb : w.Behind)
    {d : SchedulerDeadlines} (hd : w.deadlines = some d) :
    ∃ d', (step J w a).1.deadlines = some d' ∧ d.Carries d' := by
  rcases disk_step (J := J) (a := a) hs with ⟨hsame, -⟩ | ⟨p, q, d', on, -, hd', hcarry, -⟩
  · exact ⟨d, hsame.trans hd, carries_refl d⟩
  · exact ⟨d', hd', (hb p d on hd).trans hcarry⟩

/-! ## Bounds -/

/-- The document suppresses at least until `bound`. -/
def SchedulerDeadlines.SuppressedTo (d : SchedulerDeadlines) (bound : ℕ) : Prop :=
  ∃ s, d.suppressionUntilUnix = some s ∧ bound ≤ s

theorem SchedulerDeadlines.Carries.suppressedTo {d d' : SchedulerDeadlines} (h : d.Carries d')
    {bound : ℕ} (hs : d.SuppressedTo bound) : d'.SuppressedTo bound := by
  obtain ⟨s, hs, hle⟩ := hs
  obtain ⟨s', hs', hle'⟩ := h.suppression s hs
  exact ⟨s', hs', hle.trans hle'⟩

/-- Memory suppresses until `bound`, and the call about to contact the upstream was admitted at or
after it. -/
structure Process.Suppressed (p : Process) (bound : ℕ) : Prop where
  memory : p.inner.persisted.SuppressedTo bound
  leading : ∀ c lead, p.callers c = .leading lead → bound ≤ lead.admission.effective

/-- A running process suppresses until `bound`. -/
def World.Suppressed (w : World) (bound : ℕ) : Prop :=
  ∃ p, w.process = some p ∧ p.Suppressed bound

/-- The disk, and the process if there is one, suppress until `bound`. -/
structure World.Durable (w : World) (bound : ℕ) : Prop where
  disk : ∃ d, w.deadlines = some d ∧ d.SuppressedTo bound
  process : ∀ p, w.process = some p → p.Suppressed bound

theorem suppressed_process_step {J : Serde} {w : World} {a : Action} {p p' : Process} {bound : ℕ}
    (hs : w.Sound) (on : w.process = some p) (hp : p.Suppressed bound)
    (on' : (step J w a).1.process = some p') : p'.Suppressed bound := by
  refine ⟨(carries_step hs on on').suppressedTo hp.memory, fun c lead hc => ?_⟩
  obtain ⟨q, onq, hold | ⟨-, door, entry, now, σ, led⟩⟩ := leading_step hs on' hc
  · cases on.symm.trans onq
    exact hp.leading c lead hold
  · -- both doors check the suppression before anything else
    cases on.symm.trans onq
    obtain ⟨s, hsup, hle⟩ := hp.memory
    have hfree := led.free
    rw [hsup] at hfree
    rw [led.effective]
    exact hle.trans (le_of_pending_none hfree)

theorem suppressed_step {J : Serde} {w : World} {a : Action} {bound : ℕ} (hs : w.Sound)
    (hp : w.Suppressed bound) (alive : .crashed ∉ (step J w a).2) :
    (step J w a).1.Suppressed bound := by
  obtain ⟨p, on, hp⟩ := hp
  cases on' : (step J w a).1.process with
  | none => exact absurd (crashed_of_process_none on on') alive
  | some p' => exact ⟨p', on', suppressed_process_step hs on hp on'⟩

/-- **The first save makes the bound durable.** -/
theorem durable_of_saved {J : Serde} {w : World} {a : Action} {bound : ℕ} (hs : w.Sound)
    (hp : w.Suppressed bound) {d : SchedulerDeadlines} (saved : .saved d ∈ (step J w a).2) :
    (step J w a).1.Durable bound := by
  obtain ⟨p, on, hp⟩ := hp
  rcases disk_step (J := J) (a := a) hs with ⟨-, hnone⟩ | ⟨q, q', d', onq, -, hd', hcarry, -⟩
  · exact absurd saved (hnone d)
  · cases on.symm.trans onq
    exact ⟨⟨d', hd', hcarry.suppressedTo hp.memory⟩,
      fun p' on' => suppressed_process_step hs on hp on'⟩

/-- **A durable bound survives every step**, crashes and boots included. -/
theorem durable_step {J : Serde} {w : World} {a : Action} {bound : ℕ} (hs : w.Sound) (hb : w.Behind)
    (hd : w.Durable bound) : (step J w a).1.Durable bound := by
  obtain ⟨d, hdisk, hsup⟩ := hd.disk
  obtain ⟨d', hdisk', hcarry⟩ := disk_carries_step (J := J) (a := a) hs hb hdisk
  refine ⟨⟨d', hdisk', hcarry.suppressedTo hsup⟩, fun p' on' => ?_⟩
  cases hp : w.process with
  | none =>
    obtain ⟨-, hmem, hidle⟩ := boot_resumes hp on'
    refine ⟨?_, fun c lead hc => ?_⟩
    · rw [hmem, hdisk]
      exact (carries_rederive d).suppressedTo hsup
    · rw [hidle c] at hc; cases hc
  | some p => exact suppressed_process_step hs hp (hd.process p hp) on'

/-- A save precedes every crash. -/
def SavedBeforeCrash (events : List Event) : Prop :=
  ∃ before doc after, events = before ++ .saved doc :: after ∧ .crashed ∉ before

theorem savedBeforeCrash_append {h ev : List Event} (hs : SavedBeforeCrash (h ++ ev)) :
    SavedBeforeCrash h ∨ (.crashed ∉ h ∧ ∃ doc, .saved doc ∈ ev) := by
  obtain ⟨before, doc, after, heq, hc⟩ := hs
  rcases List.append_eq_append_iff.mp heq with ⟨m, hm, hev⟩ | ⟨m, hm, hrest⟩
  · right
    refine ⟨fun hmem => hc ?_, doc, ?_⟩
    · rw [hm]
      exact List.mem_append_left _ hmem
    · rw [hev]
      simp
  · cases m with
    | nil =>
      right
      rw [List.append_nil] at hm
      have hrest : .saved doc :: after = ev := hrest
      exact ⟨hm ▸ hc, doc, by rw [← hrest]; simp⟩
    | cons e m =>
      left
      rw [List.cons_append] at hrest
      obtain ⟨rfl, -⟩ := List.cons.inj hrest
      exact ⟨before, doc, m, hm, hc⟩

/-- What a run keeps of a bound, by the events since the bound was set. -/
structure World.Bounded (w : World) (bound : ℕ) (since : List Event) : Prop where
  sound : w.Sound
  behind : w.Behind
  alive : .crashed ∉ since → w.Suppressed bound
  saved : SavedBeforeCrash since → w.Durable bound

theorem bounded_step (J : Serde) {bound : ℕ} (w : World) (since : List Event) (a : Action)
    (h : w.Bounded bound since) : (step J w a).1.Bounded bound (since ++ (step J w a).2) := by
  refine ⟨sound_step J w a h.sound, behind_step J w a h.sound h.behind, fun alive => ?_,
    fun hsaved => ?_⟩
  · exact suppressed_step h.sound (h.alive fun hc => alive (List.mem_append_left _ hc))
      fun hc => alive (List.mem_append_right _ hc)
  · rcases savedBeforeCrash_append hsaved with hold | ⟨alive, doc, hdoc⟩
    · exact durable_step h.sound h.behind (h.saved hold)
    · exact durable_of_saved h.sound (h.alive alive) hdoc

theorem le_mergeSuppression (existing : Option ℕ) (until_ : ℕ) :
    ∃ s, mergeSuppression existing (some until_) = some s ∧ until_ ≤ s := by
  cases existing with
  | none => exact ⟨until_, rfl, le_rfl⟩
  | some e => exact ⟨max e until_, rfl, le_max_right _ _⟩

theorem Finished.suppressedTo {config : SchedulerConfig} {env : FinishEnv} {lead : Lead}
    {retry : Option ℕ} {σ σ' : Section} {report : RefreshReport}
    (fin : Finished config env lead (.error (.rateLimited retry)) σ report σ') :
    σ'.inner.persisted.SuppressedTo
      (rateLimitBound config.refreshIntervalSeconds lead.started (finishTime env lead σ.inner)
       retry) := by
  obtain ⟨until_, hdeadline, hbound⟩ := le_suppression_nextDeadline
    (i := finishInputs config lead.started
    (finishTime env lead σ.inner) (.error (.rateLimited retry)) env.rolls) rfl
  obtain ⟨s, hs, hle⟩ := le_mergeSuppression σ.inner.persisted.suppressionUntilUnix until_
  refine ⟨s, ?_, hbound.trans hle⟩
  rw [fin.suppression, ← hs]
  exact congrArg _ hdeadline

/-- What a step that completes a fetch does: it leaves nobody in flight, and saves or does not. -/
structure Completed (J : Serde) (w : World) (a : Action) (lead : Lead) (interval : ℕ)
    (fetched : Except FetchFailure FetchOutcome) (t : ℕ) (p p' : Process) (env : FinishEnv)
    (report : RefreshReport) (σ : Section) : Prop where
  before : w.process = some p
  after : (step J w a).1.process = some p'
  inner : p'.inner = σ.inner
  configured : interval = p.config.refreshIntervalSeconds
  time : t = finishTime env lead p.inner
  finished : Finished p.config env lead fetched (w.section p) report σ
  events : ((step J w a).2 = [.fetched lead interval fetched t, .saved σ.inner.persisted] ∧
      (step J w a).1.deadlines = some σ.inner.persisted) ∨
    (step J w a).2 = [.fetched lead interval fetched t]

theorem completed_of_fetched {J : Serde} {w : World} {a : Action} (hs : w.Sound) {lead : Lead}
    {interval t : ℕ} {fetched : Except FetchFailure FetchOutcome}
    (hmem : .fetched lead interval fetched t ∈ (step J w a).2) :
    ∃ p p' env report σ, Completed J w a lead interval fetched t p p' env report σ := by
  have hcase := step_case J w a
  generalize hr : step J w a = r at hcase hmem
  cases hcase with
  | stutter => cases hmem
  | boot => simp at hmem
  | crash => simp at hmem
  | park => cases hmem
  | join => cases hmem
  | answer a p caller door entry env outcome σ on atDoor free result =>
    have hmem : .fetched lead interval fetched t ∈ σ.events := hmem
    rcases (answered_of_result result).token with ⟨-, he | he⟩ | ⟨value, -, he⟩ <;>
      rw [he] at hmem <;> simp at hmem
  | lead a p caller door entry env l σ on atDoor free result =>
    rcases (led_of_result (hs p on).versioned result).saves.mem hmem with h | ⟨d, h⟩
    · cases h
    · cases h
  | invoke => simp at hmem
  | finish p caller l outcome env report σ on completing result =>
    have fin := finished_of_eq result
    obtain ⟨heq, hanchored⟩ : Event.fetched lead interval fetched t =
        .fetched l p.config.refreshIntervalSeconds outcome (finishTime env l p.inner) ∧
          l.anchored = true := by
      rcases fin.mem (hs p on).versioned hmem with h | ⟨d, h⟩ | h
      · cases h
      · cases h
      · exact h
    obtain ⟨rfl, rfl, rfl, rfl⟩ := Event.fetched.inj heq
    have hevents : fetchedEvents p.config env lead fetched p.inner =
        [.fetched lead p.config.refreshIntervalSeconds fetched (finishTime env lead p.inner)] :=
      if_pos hanchored
    refine ⟨p, _, env, report, σ, on, by rw [hr]; rfl, rfl, rfl, rfl, fin, ?_⟩
    rw [hr]
    rcases fin.saves (hs p on).versioned with ⟨hd, -, he⟩ | ⟨-, -, he⟩
    · refine Or.inl ⟨?_, hd⟩
      show σ.events = _
      rw [he]
      show [] ++ fetchedEvents p.config env lead fetched p.inner ++ _ = _
      rw [hevents]
      rfl
    · right
      show σ.events = _
      rw [he]
      show [] ++ fetchedEvents p.config env lead fetched p.inner = _
      rw [hevents]
      rfl

/-- **The step that completes a rate limit sets its bound.** -/
theorem bounded_fetched {J : Serde} {w : World} {a : Action} (hs : w.Sound) (hb : w.Behind)
    {u v : List Event} {lead : Lead} {interval t : ℕ} {retry : Option ℕ}
    (h : (step J w a).2 = u ++ .fetched lead interval (.error (.rateLimited retry)) t :: v) :
    (step J w a).1.Bounded (rateLimitBound interval lead.started t retry) v ∧
      (v = [] ∨ ∃ d, v = [.saved d]) := by
  have hs' := sound_step J w a hs
  have hb' := behind_step J w a hs hb
  have hmem : .fetched lead interval (.error (.rateLimited retry)) t ∈ (step J w a).2 := by
    rw [h]
    simp
  obtain ⟨p, p', env, report, σ, done⟩ := completed_of_fetched hs hmem
  have hsup : σ.inner.persisted.SuppressedTo (rateLimitBound interval lead.started t retry) := by
    rw [done.configured, done.time]
    exact done.finished.suppressedTo
  -- nobody leads any more, so memory alone carries the bound
  have hp' : p'.Suppressed (rateLimitBound interval lead.started t retry) := by
    refine ⟨by rw [done.inner]; exact hsup, fun c lead hc => ?_⟩
    have hnone := (hs' p' done.after).no_leader (by rw [done.inner]; exact done.finished.inFlight) c
    rw [hc] at hnone
    cases hnone
  have hproc : ∀ q, (step J w a).1.process = some q →
      q.Suppressed (rateLimitBound interval lead.started t retry) := fun q onq => by
    cases done.after.symm.trans onq
    exact hp'
  rcases done.events with ⟨hev, hdisk⟩ | hev
  · have hv : v = [.saved σ.inner.persisted] := by
      rw [hev] at h
      rcases u with _ | ⟨e, _ | ⟨e', u⟩⟩ <;> simp at h
      exact h.symm
    exact ⟨⟨hs', hb', fun _ => ⟨p', done.after, hp'⟩, fun _ => ⟨⟨_, hdisk, hsup⟩, hproc⟩⟩,
      Or.inr ⟨_, hv⟩⟩
  · have hv : v = [] := by
      rw [hev] at h
      rcases u with _ | ⟨e, u⟩ <;> simp at h
      exact h
    refine ⟨⟨hs', hb', fun _ => ⟨p', done.after, hp'⟩, fun hsaved => ?_⟩, Or.inl hv⟩
    rw [hv] at hsaved
    obtain ⟨before, doc, after, heq, -⟩ := hsaved
    simp at heq

/-! ## Over whole runs -/

theorem behind_run_of (J : Serde) {w : World} (hs : w.Sound) (hb : w.Behind)
    (actions : List Action) :
    (Machine.run (step J) w actions).1.Behind :=
  (Machine.run_state_inv (fun w => w.Sound ∧ w.Behind)
    (fun w a h => ⟨sound_step J w a h.1, behind_step J w a h.1 h.2⟩) w ⟨hs, hb⟩ actions).2

theorem behind_cold (deadlines : Option SchedulerDeadlines) (servers : Option CachedCatalog) :
    (World.cold deadlines servers).Behind := fun p d hp => by cases hp

/-- **The disk never forgets**, over a whole run. -/
theorem disk_carries_run (J : Serde) {w : World} (hs : w.Sound) (hb : w.Behind)
    {d : SchedulerDeadlines} (hd : w.deadlines = some d) (actions : List Action) :
    ∃ d', (Machine.run (step J) w actions).1.deadlines = some d' ∧ d.Carries d' := by
  refine (Machine.run_state_inv (fun w => w.Sound ∧ w.Behind ∧ ∃ d', w.deadlines = some d' ∧
    d.Carries d')
    (fun w a h => ?_) w ⟨hs, hb, d, hd, carries_refl d⟩ actions).2.2
  obtain ⟨hs, hb, d', hd', hcarry⟩ := h
  obtain ⟨d'', hd'', hcarry'⟩ := disk_carries_step (J := J) (a := a) hs hb hd'
  exact ⟨sound_step J w a hs, behind_step J w a hs hb, d'', hd'', hcarry.trans hcarry'⟩

/-- **A process never forgets**, until it crashes. -/
theorem memory_carries_run (J : Serde) {w : World} (hs : w.Sound) {p : Process}
    (on : w.process = some p) (actions : List Action)
    (alive : .crashed ∉ (Machine.run (step J) w actions).2) :
    ∃ p', (Machine.run (step J) w actions).1.process = some p' ∧
      p.inner.persisted.Carries p'.inner.persisted := by
  refine (Machine.run_inv (fun w h => w.Sound ∧ (.crashed ∉ h →
    ∃ p', w.process = some p' ∧ p.inner.persisted.Carries p'.inner.persisted))
    (fun w h a hP => ⟨sound_step J w a hP.1, fun alive => ?_⟩) w []
    ⟨hs, fun _ => ⟨p, on, carries_refl _⟩⟩ actions).2 alive
  obtain ⟨q, onq, hcarry⟩ := hP.2 fun hc => alive (List.mem_append_left _ hc)
  cases on' : (step J w a).1.process with
  | none => exact absurd (List.mem_append_right _ (crashed_of_process_none onq on')) alive
  | some p' => exact ⟨p', rfl, hcarry.trans (carries_step hP.1 onq on')⟩

theorem bound_le_contact {J : Serde} {deadlines : Option SchedulerDeadlines}
    {servers : Option CachedCatalog} {actions : List Action} {pre mid post : List Event}
    {lead lead' : Lead} {interval t c : ℕ} {retry : Option ℕ}
    (h : (runFrom J deadlines servers actions).2 =
      pre ++ .fetched lead interval (.error (.rateLimited retry)) t ::
        (mid ++ .contact c lead' :: post))
    (hmid : .crashed ∉ mid ∨ SavedBeforeCrash mid) :
    rateLimitBound interval lead.started t retry ≤ lead'.admission.effective := by
  obtain ⟨as₁, a, as₂, u, v, rfl, hstep, rfl, hrest⟩ := Machine.exists_step_of_eq_append _ _ _ _ _ h
  have hs := sound_run_of J (sound_cold deadlines servers) as₁
  have hb := behind_run_of J (sound_cold deadlines servers) (behind_cold deadlines servers) as₁
  obtain ⟨hbounded, hv⟩ := bounded_fetched hs hb hstep
  -- the contact comes after the events of the completing step
  obtain ⟨mid', rfl, hrun⟩ : ∃ mid', mid = v ++ mid' ∧
      (Machine.run (step J) (step J (Machine.run (step J) (World.cold deadlines servers) as₁).1 a).1
        as₂).2 = mid' ++ .contact c lead' :: post := by
    rcases hv with rfl | ⟨d, rfl⟩
    · exact ⟨mid, rfl, hrest.symm⟩
    · cases mid with
      | nil => simp at hrest
      | cons e mid =>
        rw [List.cons_append, List.cons_append, List.nil_append] at hrest
        obtain ⟨rfl, htail⟩ := List.cons.inj hrest
        exact ⟨mid, rfl, htail.symm⟩
  obtain ⟨as₃, p, rfl, on, hc⟩ := exists_contact_step hbounded.sound hrun
  have hend := Machine.run_inv _ (bounded_step J) _ v hbounded as₃
  rcases hmid with alive | saved
  · obtain ⟨q, onq, hq⟩ := hend.alive alive
    cases onq.symm.trans on
    exact hq.leading c lead' hc
  · exact ((hend.saved saved).process p on).leading c lead' hc

/-- **Suppression outranks both doors.** After a fetch that started at `lead.started` and completed
rate-limited at `t`, no contact is admitted below the bound in the same process, and none after a
later crash once a save of that process has succeeded. The suppression never decreases within a
process, nor on disk over the whole run, and a boot resumes the one on disk. -/
theorem suppression_outranks_doors (J : Serde) (deadlines : Option SchedulerDeadlines)
    (servers : Option CachedCatalog) (actions : List Action) :
    (∀ pre lead interval retry t mid c lead' post,
      (runFrom J deadlines servers actions).2 = pre ++
        .fetched lead interval (.error (.rateLimited retry)) t ::
          (mid ++ .contact c lead' :: post) →
      (.crashed ∉ mid ∨ SavedBeforeCrash mid) →
      rateLimitBound interval lead.started t retry ≤ lead'.admission.effective) ∧
    (∀ p later s, (runFrom J deadlines servers actions).1.process = some p →
      p.inner.persisted.suppressionUntilUnix = some s →
      .crashed ∉ (Machine.run (step J) (runFrom J deadlines servers actions).1 later).2 →
      ∃ p' s', (runFrom J deadlines servers (actions ++ later)).1.process = some p' ∧
        p'.inner.persisted.suppressionUntilUnix = some s' ∧ s ≤ s') ∧
    (∀ d later s, (runFrom J deadlines servers actions).1.deadlines = some d →
      d.suppressionUntilUnix = some s →
      ∃ d' s', (runFrom J deadlines servers (actions ++ later)).1.deadlines = some d' ∧
        d'.suppressionUntilUnix = some s' ∧ s ≤ s') ∧
    (∀ a p, (runFrom J deadlines servers actions).1.process = none →
      (step J (runFrom J deadlines servers actions).1 a).1.process = some p →
      p.inner.persisted.suppressionUntilUnix =
        (runFrom J deadlines servers actions).1.deadlines.bind
          SchedulerDeadlines.suppressionUntilUnix) := by
  have hs := sound_run J deadlines servers actions
  have hb : (runFrom J deadlines servers actions).1.Behind :=
    behind_run_of J (sound_cold deadlines servers) (behind_cold deadlines servers) actions
  have hrun : ∀ later, (runFrom J deadlines servers (actions ++ later)).1 =
      (Machine.run (step J) (runFrom J deadlines servers actions).1 later).1 := by
    intro later
    unfold runFrom
    rw [Machine.run_append]
  refine ⟨fun pre lead interval retry t mid c lead' post h hmid => bound_le_contact h hmid,
    fun p later s on hsup alive => ?_, fun d later s hd hsup => ?_, fun a p off on => ?_⟩
  · obtain ⟨p', on', hcarry⟩ := memory_carries_run J hs on later alive
    obtain ⟨s', hs', hle⟩ := hcarry.suppression s hsup
    exact ⟨p', s', by rw [hrun]; exact on', hs', hle⟩
  · obtain ⟨d', hd', hcarry⟩ := disk_carries_run J hs hb hd later
    obtain ⟨s', hs', hle⟩ := hcarry.suppression s hsup
    exact ⟨d', s', by rw [hrun]; exact hd', hs', hle⟩
  · rw [(boot_resumes off on).2.1, (rederive_fields _).2.2.1]
    cases (runFrom J deadlines servers actions).1.deadlines with
    | none => rfl
    | some d => rfl

/-- A rate limit whose post-fetch save fails, and a crash before the next save. -/
def forgottenLimit : List Action :=
  [.boot floorConfig none none, .call 0 .automatic (.at 100), .invoke 0,
    .finish 0 { FinishEnv.at 101 (.error (.rateLimited (some 100000))) with
      saveFault := some (.io "no space left on device") }]

/-- **The suppression of a crashed process can be lost**, when no save succeeded after the fetch. -/
theorem suppression_lost_by_crash :
    ¬ ∀ (J : Serde) (deadlines : Option SchedulerDeadlines) (servers : Option CachedCatalog)
      (actions later : List Action) (p p' : Process) (s : ℕ),
      (runFrom J deadlines servers actions).1.process = some p →
      (runFrom J deadlines servers (actions ++ later)).1.process = some p' →
      p.inner.persisted.suppressionUntilUnix = some s →
      ∃ s', p'.inner.persisted.suppressionUntilUnix = some s' ∧ s ≤ s' := by
  intro h
  have hbefore : (runFrom emptySerde none none forgottenLimit).1.process.map
      (·.inner.persisted.suppressionUntilUnix) = some (some 100101) := by decide
  have hafter : (runFrom emptySerde none none
      (forgottenLimit ++ [.crash, .boot floorConfig none none])).1.process.map
      (·.inner.persisted.suppressionUntilUnix) = some none := by decide
  obtain ⟨p, on, hsup⟩ := Option.map_eq_some_iff.mp hbefore
  obtain ⟨p', on', hsup'⟩ := Option.map_eq_some_iff.mp hafter
  obtain ⟨s', hs', -⟩ := h _ _ _ _ _ p p' _ on on' hsup
  rw [hsup'] at hs'
  cases hs'

end ProtonWire
