import ProtonWire.Selection.Model

/-!
# The probe planner

`crates/core/src/probe.rs`: the plan of one bounded run over a shortlist, and its execution in
windows of bounded parallelism. The executor is a seam: what the `n`-th probe answers and whether
the `n`-th poll cancels the run are the choice of the environment. A map is a function to `Option`.

* `planRun`: which endpoints a run probes;
* `runPlanned`: the run's observations and the endpoints it attempted;
* `planRun_probe`, `runPlanned_attempted`, `runPlanned_sublist`, `runPlanned_observed`: where each
  of them comes from.
-/

namespace ProtonWire

/-- `Duration::from_millis`. -/
def Duration.ofMillis (ms : ℕ) : Duration := ⟨ms / 1000, ms % 1000 * 1000000, by omega⟩

/-- The whole duration, in nanoseconds. -/
def Duration.toNanos (d : Duration) : ℕ := d.secs * 1000000000 + d.nanos

theorem Duration.toNanos_ofMillis (ms : ℕ) : (ofMillis ms).toNanos = ms * 1000000 := by
  unfold ofMillis toNanos
  dsimp only
  omega

/-- One prior or fresh probe observation. -/
structure Observation where
  rtt : Duration
  deriving DecidableEq

/-- The planner's probe budget. -/
structure ProbeBudget where
  maxProbesPerRun : ℕ
  minProbeInterval : Duration
  minReuseAge : Duration

/-- The per-endpoint prior state. -/
structure EndpointState where
  observation : Option Observation := none
  observedAtMs : ℕ := 0
  lastAttemptMs : ℕ := 0

/-- One planner decision for an endpoint. -/
inductive ProbeDecision where
  | probe
  | reuse (observation : Observation)
  | rateLimited
  deriving DecidableEq

/-- The executor: its answer to the `n`-th probe, and to the `n`-th poll. -/
structure ProbeExecutor where
  probe : ℕ → String → Option Duration
  cancelled : ℕ → Bool

/-! ## Planning -/

/-- Less than `bound` has passed since a reading. -/
def within (nowMs sinceMs : ℕ) (bound : Duration) : Bool :=
  (Duration.ofMillis (nowMs - sinceMs)).toNanos < bound.toNanos

/-- The decision for one endpoint, before the run's cap. -/
def endpointDecision (state : Option EndpointState) (budget : ProbeBudget) (nowMs : ℕ) :
    ProbeDecision :=
  match state with
  | some ⟨some observation, observedAtMs, lastAttemptMs⟩ =>
    if within nowMs observedAtMs budget.minReuseAge then .reuse observation
    else if within nowMs lastAttemptMs budget.minProbeInterval then .rateLimited
    else .probe
  | some ⟨none, _, lastAttemptMs⟩ =>
    if within nowMs lastAttemptMs budget.minProbeInterval then .rateLimited else .probe
  | none => .probe

/-- The planner's loop: the decisions so far, and the probes budgeted. -/
def planLoop (state : String → Option EndpointState) (budget : ProbeBudget) (nowMs : ℕ) :
    List String → (String → Option ProbeDecision) → ℕ → String → Option ProbeDecision
  | [], decisions, _ => decisions
  | endpoint :: rest, decisions, budgeted =>
    let decision := endpointDecision (state endpoint) budget nowMs
    let capped := if decision = .probe ∧ budget.maxProbesPerRun ≤ budgeted then .rateLimited
      else decision
    planLoop state budget nowMs rest (Function.update decisions endpoint (some capped))
      (if capped = .probe then budgeted + 1 else budgeted)

/-- `plan_run`. -/
def planRun (shortlist : List String) (state : String → Option EndpointState) (budget : ProbeBudget)
    (nowMs : ℕ) : String → Option ProbeDecision :=
  planLoop state budget nowMs shortlist (fun _ => none) 0

/-! ## Execution -/

/-- The loop of `run_planned`: the observations, the endpoints attempted, the window not yet started
and the polls made. -/
structure RunState where
  observations : String → Option Observation := fun _ => none
  attempted : List String := []
  window : List String := []
  polls : ℕ := 0

/-- The answers of a window that starts with the `n`-th probe. -/
def answers (executor : ProbeExecutor) :
    List String → ℕ → (String → Option Observation) → String → Option Observation
  | [], _, observations => observations
  | endpoint :: rest, n, observations =>
    answers executor rest (n + 1) (match executor.probe n endpoint with
      | some rtt => Function.update observations endpoint (some ⟨rtt⟩)
      | none => observations)

/-- Start the window and take its answers. -/
def RunState.flush (executor : ProbeExecutor) (s : RunState) : RunState :=
  { s with
    observations := answers executor s.window s.attempted.length s.observations
    attempted := s.attempted ++ s.window
    window := [] }

/-- Keep an observation. -/
def RunState.record (s : RunState) (endpoint : String) (observation : Option Observation) :
    RunState :=
  match observation with
  | some observation =>
    { s with observations := Function.update s.observations endpoint (some observation) }
  | none => s

/-- The loop over the shortlist; a cancelled poll ends it. -/
def runLoop (decisions : String → Option ProbeDecision) (state : String → Option EndpointState)
    (executor : ProbeExecutor) (parallelism : ℕ) : List String → RunState → RunState
  | [], s => s
  | endpoint :: rest, s =>
    match decisions endpoint with
    | some (.reuse observation) =>
      runLoop decisions state executor parallelism rest (s.record endpoint (some observation))
    | some .rateLimited =>
      runLoop decisions state executor parallelism rest
        (s.record endpoint ((state endpoint).bind EndpointState.observation))
    | some .probe =>
      if executor.cancelled s.polls then { s with polls := s.polls + 1 }
      else
        let pushed : RunState := { s with polls := s.polls + 1, window := s.window ++ [endpoint] }
        if parallelism ≤ pushed.window.length then
          runLoop decisions state executor parallelism rest (pushed.flush executor)
        else runLoop decisions state executor parallelism rest pushed
    | none => runLoop decisions state executor parallelism rest s

/-- One planned run's outcome. -/
structure ProbeRun where
  observations : String → Option Observation
  attempted : List String

/-- `run_planned`. -/
def runPlanned (shortlist : List String) (decisions : String → Option ProbeDecision)
    (state : String → Option EndpointState) (executor : ProbeExecutor) (parallelism : ℕ) :
    ProbeRun :=
  let s := (runLoop decisions state executor (max parallelism 1) shortlist {}).flush executor
  ⟨s.observations, s.attempted⟩

/-! ## What a plan decides -/

theorem planLoop_case (state : String → Option EndpointState) (budget : ProbeBudget) (nowMs : ℕ)
    (shortlist : List String) (decisions : String → Option ProbeDecision) (budgeted : ℕ)
    (e : String)
    (d : ProbeDecision) (h : planLoop state budget nowMs shortlist decisions budgeted e = some d) :
    decisions e = some d ∨
      e ∈ shortlist ∧ (d = endpointDecision (state e) budget nowMs ∨ d = .rateLimited) := by
  induction shortlist generalizing decisions budgeted with
  | nil => exact Or.inl h
  | cons endpoint rest ih =>
    rcases ih _ _ h with hold | ⟨hmem, hd⟩
    · rw [Function.update_apply] at hold
      split_ifs at hold with heq hcap
      · cases hold
        exact Or.inr ⟨heq ▸ List.mem_cons_self, Or.inr rfl⟩
      · cases hold
        exact Or.inr ⟨heq ▸ List.mem_cons_self, Or.inl (by rw [heq])⟩
      · exact Or.inl hold
    · exact Or.inr ⟨List.mem_cons_of_mem _ hmem, hd⟩

theorem planRun_case {shortlist : List String} {state : String → Option EndpointState}
    {budget : ProbeBudget} {nowMs : ℕ} {e : String} {d : ProbeDecision}
    (h : planRun shortlist state budget nowMs e = some d) :
    e ∈ shortlist ∧ (d = endpointDecision (state e) budget nowMs ∨ d = .rateLimited) :=
  (planLoop_case _ _ _ _ _ _ _ _ h).resolve_left nofun

/-- An endpoint planned for a probe was not attempted within the interval. -/
theorem planRun_probe {shortlist : List String} {state : String → Option EndpointState}
    {budget : ProbeBudget}
    {nowMs : ℕ} {e : String} (h : planRun shortlist state budget nowMs e = some .probe)
    {prior : EndpointState} (hprior : state e = some prior) :
    within nowMs prior.lastAttemptMs budget.minProbeInterval = false := by
  obtain ⟨-, hd⟩ := planRun_case h
  have hd := hd.resolve_right nofun
  rw [hprior] at hd
  obtain ⟨observation, observedAtMs, lastAttemptMs⟩ := prior
  rw [Bool.eq_false_iff]
  intro hwithin
  cases observation with
  | none =>
    unfold endpointDecision at hd
    dsimp only at hd
    rw [if_pos hwithin] at hd
    cases hd
  | some observation =>
    unfold endpointDecision at hd
    dsimp only at hd
    split_ifs at hd

theorem planRun_reuse {shortlist : List String} {state : String → Option EndpointState}
    {budget : ProbeBudget} {nowMs : ℕ} {e : String} {observation : Observation}
    (h : planRun shortlist state budget nowMs e = some (.reuse observation)) :
    (state e).bind EndpointState.observation = some observation := by
  obtain ⟨-, hd⟩ := planRun_case h
  have hd := hd.resolve_right nofun
  cases hstate : state e with
  | none =>
    rw [hstate] at hd
    cases hd
  | some prior =>
    rw [hstate] at hd
    obtain ⟨prior, observedAtMs, lastAttemptMs⟩ := prior
    unfold endpointDecision at hd
    cases prior with
    | none =>
      dsimp only at hd
      split_ifs at hd
    | some prior =>
      dsimp only at hd
      split_ifs at hd
      cases hd
      rfl

/-! ## What a run observes -/

section
variable {shortlist : List String} {decisions : String → Option ProbeDecision}
  {state : String → Option EndpointState} {executor : ProbeExecutor} {parallelism : ℕ}

/-- Where the loop's endpoints and observations come from. -/
structure Sourced (shortlist : List String) (decisions : String → Option ProbeDecision)
    (state : String → Option EndpointState) (executor : ProbeExecutor) (s : RunState) : Prop where
  attempted : ∀ e ∈ s.attempted ++ s.window, e ∈ shortlist ∧ decisions e = some .probe
  observed : ∀ e observation, s.observations e = some observation →
    decisions e = some (.reuse observation) ∨
    decisions e = some .rateLimited ∧ (state e).bind EndpointState.observation = some observation ∨
    decisions e = some .probe ∧ ∃ n : ℕ, s.attempted[n]? = some e ∧
    executor.probe n e = some observation.rtt

theorem answers_case (window : List String) (n : ℕ) (observations : String → Option Observation)
    (e : String)
    (observation : Observation) (h : answers executor window n observations e = some observation) :
    observations e = some observation ∨
      ∃ i : ℕ, window[i]? = some e ∧ executor.probe (n + i) e = some observation.rtt := by
  induction window generalizing n observations with
  | nil => exact Or.inl h
  | cons endpoint rest ih =>
    rcases ih _ _ h with hold | ⟨i, hi, hprobe⟩
    · cases hanswer : executor.probe n endpoint with
      | none =>
        rw [hanswer] at hold
        exact Or.inl hold
      | some rtt =>
        rw [hanswer] at hold
        dsimp only at hold
        rw [Function.update_apply] at hold
        split_ifs at hold with heq
        · cases hold
          exact Or.inr ⟨0, by rw [heq]; rfl, by rw [heq]; exact hanswer⟩
        · exact Or.inl hold
    · exact Or.inr ⟨i + 1, hi, by rwa [show n + (i + 1) = n + 1 + i by omega]⟩

theorem Sourced.flush {s : RunState} (h : Sourced shortlist decisions state executor s) :
    Sourced shortlist decisions state executor (s.flush executor) := by
  refine ⟨fun e he => h.attempted e (by simpa [RunState.flush] using he),
    fun e observation hobs => ?_⟩
  rcases answers_case _ _ _ _ _ hobs with hold | ⟨i, hi, hprobe⟩
  · refine (h.observed e observation hold).imp_right (Or.imp_right ?_)
    rintro ⟨hd, n, hn, hprobe⟩
    refine ⟨hd, n, ?_, hprobe⟩
    exact (List.getElem?_append_left (List.getElem?_eq_some_iff.mp hn).1).trans hn
  · have hmem : e ∈ s.window := List.mem_of_getElem? hi
    refine Or.inr (Or.inr ⟨(h.attempted e (List.mem_append_right _ hmem)).2, s.attempted.length + i,
      ?_, hprobe⟩)
    show (s.attempted ++ s.window)[s.attempted.length + i]? = some e
    rw [List.getElem?_append_right (Nat.le_add_right _ _), Nat.add_sub_cancel_left]
    exact hi

/-- A prior observation is kept. -/
theorem Sourced.record {s : RunState} {endpoint : String} {prior : Option Observation}
    (h : Sourced shortlist decisions state executor s)
    (hprior : ∀ observation, prior = some observation →
     decisions endpoint = some (.reuse observation) ∨
      decisions endpoint = some .rateLimited ∧
        (state endpoint).bind EndpointState.observation = some observation) :
    Sourced shortlist decisions state executor (s.record endpoint prior) := by
  cases prior with
  | none => exact h
  | some observation =>
    refine ⟨h.attempted, fun e observation' hobs => ?_⟩
    unfold RunState.record at hobs
    dsimp only at hobs
    rw [Function.update_apply] at hobs
    split_ifs at hobs with heq
    · cases hobs
      rw [heq]
      exact (hprior observation rfl).imp_right Or.inl
    · exact h.observed e observation' hobs

theorem sourced_runLoop (list : List String) (hlist : ∀ e ∈ list, e ∈ shortlist) (s : RunState)
    (h : Sourced shortlist decisions state executor s) :
    Sourced shortlist decisions state executor
      (runLoop decisions state executor parallelism list s) := by
  induction list generalizing s with
  | nil => exact h
  | cons endpoint rest ih =>
    have hrest : ∀ e ∈ rest, e ∈ shortlist := fun e he => hlist e (List.mem_cons_of_mem _ he)
    unfold runLoop
    split
    · next observation hd =>
      refine ih hrest _ (h.record fun observation' heq => ?_)
      cases heq
      exact Or.inl hd
    · next hd => exact ih hrest _ (h.record fun observation heq => Or.inr ⟨hd, heq⟩)
    · next hd =>
      have hpushed : Sourced shortlist decisions state executor
          { s with polls := s.polls + 1, window := s.window ++ [endpoint] } := by
        refine ⟨fun e he => ?_, h.observed⟩
        rw [← List.append_assoc] at he
        rcases List.mem_append.mp he with hold | hnew
        · exact h.attempted e hold
        · rw [List.mem_singleton.mp hnew]
          exact ⟨hlist endpoint List.mem_cons_self, hd⟩
      dsimp only
      split_ifs
      · exact ⟨h.attempted, h.observed⟩
      · exact ih hrest _ hpushed.flush
      · exact ih hrest _ hpushed
    · exact ih hrest s h

theorem sourced_runPlanned (shortlist : List String) (decisions : String → Option ProbeDecision)
    (state : String → Option EndpointState) (executor : ProbeExecutor) (parallelism : ℕ) :
    Sourced shortlist decisions state executor
      ((runLoop decisions state executor (max parallelism 1) shortlist {}).flush executor) :=
  (sourced_runLoop shortlist (fun _ => id) {} ⟨nofun, nofun⟩).flush

theorem runPlanned_attempted {e : String}
    (h : e ∈ (runPlanned shortlist decisions state executor parallelism).attempted) :
    e ∈ shortlist ∧ decisions e = some .probe :=
  (sourced_runPlanned shortlist decisions state executor parallelism).attempted e
  (List.mem_append_left _ h)

/-- An observation is the prior one, or the answer of a probe of the run. -/
theorem runPlanned_observed {e : String} {observation : Observation}
    (h : (runPlanned shortlist decisions state executor parallelism).observations e =
     some observation) :
    decisions e = some (.reuse observation) ∨
    decisions e = some .rateLimited ∧ (state e).bind EndpointState.observation = some observation ∨
    decisions e = some .probe ∧ ∃ n : ℕ,
      (runPlanned shortlist decisions state executor parallelism).attempted[n]? = some e ∧
        executor.probe n e = some observation.rtt :=
  (sourced_runPlanned shortlist decisions state executor parallelism).observed e observation h

theorem runLoop_sublist (list : List String) (s : RunState) :
    ∃ l, l.Sublist list ∧ (runLoop decisions state executor parallelism list s).attempted ++
      (runLoop decisions state executor parallelism list s).window = s.attempted ++
      s.window ++ l := by
  have hrecord : ∀ (s : RunState) (endpoint : String) (prior : Option Observation),
      (s.record endpoint prior).attempted ++ (s.record endpoint prior).window = s.attempted ++
      s.window := by
    intro s endpoint prior
    cases prior <;> rfl
  induction list generalizing s with
  | nil => exact ⟨[], List.nil_sublist _, by rw [List.append_nil]; rfl⟩
  | cons endpoint rest ih =>
    unfold runLoop
    split
    · next observation hd =>
      obtain ⟨l, hl, heq⟩ := ih (s.record endpoint (some observation))
      exact ⟨l, hl.cons _, by rw [heq, hrecord]⟩
    · next hd =>
      obtain ⟨l, hl, heq⟩ :=
        ih (s.record endpoint ((state endpoint).bind EndpointState.observation))
      exact ⟨l, hl.cons _, by rw [heq, hrecord]⟩
    · dsimp only
      split_ifs
      · exact ⟨[], List.nil_sublist _, by rw [List.append_nil]⟩
      · obtain ⟨l, hl, heq⟩ := ih (RunState.flush executor
          { s with polls := s.polls + 1, window := s.window ++ [endpoint] })
        refine ⟨endpoint :: l, hl.cons_cons _, ?_⟩
        rw [heq]
        simp [RunState.flush]
      · obtain ⟨l, hl, heq⟩ := ih { s with polls := s.polls + 1, window := s.window ++ [endpoint] }
        refine ⟨endpoint :: l, hl.cons_cons _, ?_⟩
        rw [heq]
        simp
    · obtain ⟨l, hl, heq⟩ := ih s
      exact ⟨l, hl.cons _, heq⟩

theorem runPlanned_sublist :
    (runPlanned shortlist decisions state executor parallelism).attempted.Sublist shortlist := by
  obtain ⟨l, hl, heq⟩ := @runLoop_sublist decisions state executor (max parallelism 1) shortlist {}
  have hattempted : (runPlanned shortlist decisions state executor parallelism).attempted = l := heq
  rwa [hattempted]

end

end ProtonWire
