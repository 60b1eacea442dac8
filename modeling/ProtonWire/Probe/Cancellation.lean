import ProtonWire.Probe.Plan
import ProtonWire.Resolve.Gates

/-!
# Where a cancelled run ends

A run leaves its loop at the first endpoint due for a probe whose poll cancels, and with it what
stands behind that endpoint.

* `walked`: the part of a shortlist a run walks; `runPlanned_walked`: what a run attempts and
  observes in it;
* **`run_keeps_priors_iff`**: a run keeps every prior observation exactly when none stands behind
  the poll that cancels;
* `dueBefore`, `planRun_probe_iff`: which endpoints are planned for a probe;
* **`run_probes_once_iff`**: a run stays within its cap, and probes an id once exactly when no id
  due for a probe stands twice in what it walks.
-/

namespace ProtonWire

/-! ## The walk -/

section Walk

variable (probes : String → Prop) [DecidablePred probes] (cancelled : ℕ → Bool)

/-- The part of a shortlist before the first endpoint due for a probe whose poll cancels, from the
`n`-th poll on. -/
def walked : ℕ → List String → List String
  | _, [] => []
  | n, endpoint :: rest =>
    if probes endpoint then
      if cancelled n then [] else endpoint :: walked (n + 1) rest
    else endpoint :: walked n rest

theorem walked_cases (n : ℕ) (list : List String) :
    walked probes cancelled n list = list ∨
      ∃ pre endpoint post, list = pre ++ endpoint :: post ∧ probes endpoint ∧
        cancelled (n + pre.countP probes) = true ∧ walked probes cancelled n list = pre := by
  induction list generalizing n with
  | nil => exact .inl rfl
  | cons endpoint rest ih =>
    unfold walked
    by_cases hp : probes endpoint
    · rw [if_pos hp]
      by_cases hc : cancelled n = true
      · rw [if_pos hc]
        exact .inr ⟨[], endpoint, rest, rfl, hp, hc, rfl⟩
      · rw [if_neg hc]
        rcases ih (n + 1) with heq | ⟨pre, e, post, hrest, he, hcancel, heq⟩
        · exact .inl (by rw [heq])
        · refine .inr ⟨endpoint :: pre, e, post, by rw [hrest]; rfl, he, ?_, by rw [heq]⟩
          rw [List.countP_cons_of_pos (by simpa using hp), ← Nat.add_assoc, Nat.add_right_comm]
          exact hcancel
    · rw [if_neg hp]
      rcases ih n with heq | ⟨pre, e, post, hrest, he, hcancel, heq⟩
      · exact .inl (by rw [heq])
      · refine .inr ⟨endpoint :: pre, e, post, by rw [hrest]; rfl, he, ?_, by rw [heq]⟩
        rw [List.countP_cons_of_neg (by simpa using hp)]
        exact hcancel

theorem walked_le (n : ℕ) (pre : List String) {endpoint : String} (post : List String)
    (hp : probes endpoint) (hc : cancelled (n + pre.countP probes) = true) :
    walked probes cancelled n (pre ++ endpoint :: post) <+: pre := by
  induction pre generalizing n with
  | nil =>
    rw [List.nil_append, walked, if_pos hp, if_pos (by simpa using hc)]
  | cons e pre ih =>
    rw [List.cons_append, walked]
    by_cases he : probes e
    · rw [if_pos he]
      by_cases hcn : cancelled n = true
      · rw [if_pos hcn]
        exact List.nil_prefix
      · rw [if_neg hcn]
        rw [List.countP_cons_of_pos (by simpa using he), ← Nat.add_assoc, Nat.add_right_comm] at hc
        exact (List.prefix_cons_inj e).mpr (ih (n + 1) hc)
    · rw [if_neg he]
      rw [List.countP_cons_of_neg (by simpa using he)] at hc
      exact (List.prefix_cons_inj e).mpr (ih n hc)

end Walk

/-! ## A run and its walk -/

/-- The plan has data to keep for an endpoint: a reuse, or a rate limit with a prior observation. -/
def Prior (decisions : String → Option ProbeDecision) (state : String → Option EndpointState)
    (endpoint : String) (observation : Observation) : Prop :=
  decisions endpoint = some (.reuse observation) ∨
    decisions endpoint = some .rateLimited ∧ (state endpoint).bind EndpointState.observation =
    some observation

section
variable {decisions : String → Option ProbeDecision} {state : String → Option EndpointState}
  {executor : ProbeExecutor}

theorem Prior.not_probe {endpoint : String} {observation : Observation}
    (h : Prior decisions state endpoint observation) :
    decisions endpoint ≠ some .probe := by
  rcases h with h | ⟨h, -⟩ <;> rw [h] <;> simp

theorem answers_of_not_mem {window : List String} {endpoint : String}
    (h : endpoint ∉ window) (n : ℕ) (observations : String → Option Observation) :
    answers executor window n observations endpoint = observations endpoint := by
  induction window generalizing n observations with
  | nil => rfl
  | cons e rest ih =>
    obtain ⟨hne, hrest⟩ := not_or.mp (mt List.mem_cons.mpr h)
    rw [answers, ih hrest]
    cases executor.probe n e with
    | none => rfl
    | some rtt => exact Function.update_of_ne hne _ _

theorem runLoop_attempted (parallelism : ℕ) (list : List String) (s : RunState) :
    (runLoop decisions state executor parallelism list s).attempted ++
        (runLoop decisions state executor parallelism list s).window =
      s.attempted ++ s.window ++
        (walked (fun e => decisions e = some .probe) executor.cancelled s.polls list).filter
          fun e => decisions e = some .probe := by
  have hrecord : ∀ (s : RunState) (endpoint : String) (prior : Option Observation),
      (s.record endpoint prior).attempted = s.attempted ∧
      (s.record endpoint prior).window = s.window ∧
        (s.record endpoint prior).polls = s.polls := by
    intro s endpoint prior
    cases prior <;> exact ⟨rfl, rfl, rfl⟩
  induction list generalizing s with
  | nil => simp [runLoop, walked]
  | cons endpoint rest ih =>
    unfold runLoop walked
    split
    · next observation hd =>
      obtain ⟨ha, hw, hp⟩ := hrecord s endpoint (some observation)
      have hne : decisions endpoint ≠ some .probe := by rw [hd]; simp
      rw [if_neg hne, List.filter_cons_of_neg (by simpa using hne), ih, ha, hw, hp]
    · next hd =>
      obtain ⟨ha, hw, hp⟩ := hrecord s endpoint ((state endpoint).bind EndpointState.observation)
      have hne : decisions endpoint ≠ some .probe := by rw [hd]; simp
      rw [if_neg hne, List.filter_cons_of_neg (by simpa using hne), ih, ha, hw, hp]
    · next hd =>
      rw [if_pos hd]
      by_cases hc : executor.cancelled s.polls = true
      · rw [if_pos hc, if_pos hc]
        simp
      · rw [if_neg hc, if_neg hc, List.filter_cons_of_pos (by simpa using hd)]
        dsimp only
        split
        · rw [ih]
          simp [RunState.flush]
        · rw [ih]
          simp
    · next hd =>
      have hne : decisions endpoint ≠ some .probe := by rw [hd]; simp
      rw [if_neg hne, List.filter_cons_of_neg (by simpa using hne), ih]

theorem runLoop_observed {endpoint : String} {observation : Observation}
    (hprior : Prior decisions state endpoint observation) (parallelism : ℕ) (list : List String)
    (s : RunState) (hwindow : ∀ e ∈ s.window, decisions e = some .probe) :
    ((runLoop decisions state executor parallelism list s).flush executor).observations endpoint =
      if endpoint ∈ walked (fun e => decisions e = some .probe) executor.cancelled s.polls list then
      some observation
      else s.observations endpoint := by
  have hflush : ∀ s : RunState, (∀ e ∈ s.window, decisions e = some .probe) →
      (s.flush executor).observations endpoint = s.observations endpoint :=
    fun s hw => answers_of_not_mem (fun hmem => hprior.not_probe (hw _ hmem)) _ _
  induction list generalizing s with
  | nil => exact hflush s hwindow
  | cons e rest ih =>
    -- keeping the data of `e` is what the walk says of its head
    have hkeep : ∀ prior : Option Observation, (e = endpoint → prior = some observation) →
      decisions e ≠ some .probe →
        ((runLoop decisions state executor parallelism rest (s.record e prior)).flush
         executor).observations endpoint =
          if endpoint ∈ e :: walked (fun e => decisions e = some .probe)
            executor.cancelled s.polls rest
          then some observation else s.observations endpoint := by
      intro prior hp hne
      cases prior with
      | none =>
        have hee : endpoint ≠ e := fun h => by cases hp h.symm
        rw [RunState.record, ih s hwindow]
        simp only [List.mem_cons, hee, false_or]
      | some prior =>
        rw [ih (s.record e (some prior)) hwindow]
        by_cases hee : e = endpoint
        · cases hp hee
          subst hee
          simp [RunState.record]
        · simp [RunState.record, Ne.symm hee]
    unfold runLoop walked
    split
    · next prior hd =>
      have hne : decisions e ≠ some .probe := by rw [hd]; simp
      rw [if_neg hne]
      refine hkeep (some prior) (fun heq => ?_) hne
      subst heq
      rcases hprior with hr | ⟨hr, -⟩
      · rw [hr] at hd
        cases hd
        rfl
      · rw [hr] at hd
        cases hd
    · next hd =>
      have hne : decisions e ≠ some .probe := by rw [hd]; simp
      rw [if_neg hne]
      refine hkeep _ (fun heq => ?_) hne
      subst heq
      rcases hprior with hr | ⟨-, hr⟩
      · rw [hr] at hd
        cases hd
      · exact hr
    · next hd =>
      have hee : endpoint ≠ e := fun h => hprior.not_probe (h ▸ hd)
      have hpushed : ∀ w ∈ s.window ++ [e], decisions w = some .probe := by
        intro w hw
        rcases List.mem_append.mp hw with hw | hw
        · exact hwindow w hw
        · rw [List.mem_singleton.mp hw]
          exact hd
      rw [if_pos hd]
      by_cases hc : executor.cancelled s.polls = true
      · rw [if_pos hc, if_pos hc]
        rw [if_neg (List.not_mem_nil)]
        exact hflush { s with polls := s.polls + 1 } hwindow
      · rw [if_neg hc, if_neg hc]
        simp only [List.mem_cons, hee, false_or]
        split
        · rw [ih _ (fun w hw => by cases hw)]
          rw [hflush { s with polls := s.polls + 1, window := s.window ++ [e] } hpushed]
          rfl
        · exact ih _ hpushed
    · next hd =>
      have hne : decisions e ≠ some .probe := by rw [hd]; simp
      have hee : endpoint ≠ e := by
        rintro rfl
        rcases hprior with hr | ⟨hr, -⟩ <;> rw [hr] at hd <;> cases hd
      rw [if_neg hne, ih s hwindow]
      simp only [List.mem_cons, hee, false_or]

end

/-- **A run and its walk.** -/
theorem runPlanned_walked (shortlist : List String) (decisions : String → Option ProbeDecision)
    (state : String → Option EndpointState) (executor : ProbeExecutor) (parallelism : ℕ) :
    (runPlanned shortlist decisions state executor parallelism).attempted =
        (walked (fun e => decisions e = some .probe) executor.cancelled 0 shortlist).filter
          (fun e => decisions e = some .probe) ∧
      ∀ endpoint observation, Prior decisions state endpoint observation →
        ((runPlanned shortlist decisions state executor parallelism).observations endpoint =
         some observation ↔
          endpoint ∈ walked (fun e => decisions e = some .probe)
            executor.cancelled 0 shortlist) := by
  constructor
  · exact runLoop_attempted (max parallelism 1) shortlist {}
  · intro endpoint observation hprior
    have h : (runPlanned shortlist decisions state executor parallelism).observations
      endpoint = _ :=
      runLoop_observed hprior (max parallelism 1) shortlist {} fun e he => by cases he
    rw [h]
    split
    · next hmem => exact ⟨fun _ => hmem, fun _ => rfl⟩
    · next hmem =>
      constructor
      · intro hnone
        cases hnone
      · exact fun hmem' => absurd hmem' hmem

/-! ## Prior data -/

/-- **When a run keeps every prior observation**: exactly when no endpoint with data to keep stands
only behind an endpoint due for a probe whose poll cancels. -/
theorem run_keeps_priors_iff (shortlist : List String) (state : String → Option EndpointState)
    (budget : ProbeBudget) (nowMs : ℕ) (executor : ProbeExecutor) (parallelism : ℕ) :
    (∀ endpoint ∈ shortlist, ∀ observation, Prior (planRun shortlist state budget nowMs)
     state endpoint observation →
      (runPlanned shortlist (planRun shortlist state budget nowMs)
       state executor parallelism).observations endpoint =
        some observation) ↔
    ∀ (pre : List String) (probe : String) (post : List String), shortlist = pre ++ probe :: post →
      planRun shortlist state budget nowMs probe = some .probe →
      executor.cancelled (pre.countP fun e => planRun shortlist state budget nowMs e =
        some .probe) = true →
      ∀ endpoint ∈ post, ∀ observation, Prior (planRun shortlist state budget nowMs)
        state endpoint observation →
        endpoint ∈ pre := by
  generalize planRun shortlist state budget nowMs = decisions
  obtain ⟨-, hobserved⟩ := runPlanned_walked shortlist decisions state executor parallelism
  constructor
  · intro h pre probe post hsplit hprobe hcancel endpoint hmem observation hprior
    have hin : endpoint ∈ shortlist := by
      rw [hsplit]
      exact List.mem_append_right _ (List.mem_cons_of_mem _ hmem)
    have hwalked := (hobserved endpoint observation hprior).mp (h endpoint hin observation hprior)
    rw [hsplit] at hwalked
    exact (walked_le _ _ 0 pre post hprobe (by rw [Nat.zero_add]; exact hcancel)).subset hwalked
  · intro h endpoint hin observation hprior
    rw [hobserved endpoint observation hprior]
    rcases walked_cases (fun e => decisions e = some .probe) executor.cancelled 0 shortlist with
      heq | ⟨pre, probe, post, hsplit, hprobe, hcancel, heq⟩
    · rw [heq]
      exact hin
    · rw [heq]
      rw [Nat.zero_add] at hcancel
      rw [hsplit] at hin
      rcases List.mem_append.mp hin with hpre | hin
      · exact hpre
      · rcases List.mem_cons.mp hin with rfl | hpost
        · exact absurd hprobe hprior.not_probe
        · exact h pre probe post hsplit hprobe hcancel endpoint hpost observation hprior

/-- An executor that cancels its first poll. -/
def cancelsAtOnce : ProbeExecutor := ⟨fun _ _ => none, fun _ => true⟩

/-- One endpoint observed a second ago. -/
def observedState (endpoint : String) : Option EndpointState :=
  if endpoint = "b" then some ⟨some ⟨.ofMillis 12⟩, 1000000, 1000000⟩ else none

/-- The default budget. -/
def defaultBudget : ProbeBudget := ⟨8, .ofMillis 60000, .ofMillis 300000⟩

/-- A fresh observation behind the cancelled poll is lost. -/
theorem fresh_prior_lost :
    Prior (planRun ["a", "b"] observedState defaultBudget 1001000) observedState "b"
      ⟨.ofMillis 12⟩ ∧
      (runPlanned ["a", "b"] (planRun ["a", "b"] observedState defaultBudget 1001000)
       observedState cancelsAtOnce
        4).observations "b" = none := by
  refine ⟨.inl ?_, ?_⟩ <;> decide +kernel

/-! ## The plan -/

section Plan

variable (due : String → Prop) [DecidablePred due]

/-- How many endpoints due for a probe stand before the last occurrence of one. -/
def dueBefore (shortlist : List String) (endpoint : String) : ℕ :=
  ((shortlist.reverse.dropWhile (· ≠ endpoint)).drop 1).countP due

theorem dueBefore_snoc (shortlist : List String) (endpoint last : String) :
    dueBefore due (shortlist ++ [last]) endpoint =
      if endpoint = last then shortlist.countP due else dueBefore due shortlist endpoint := by
  unfold dueBefore
  rw [List.reverse_append, List.reverse_singleton, List.singleton_append, List.dropWhile_cons]
  by_cases h : endpoint = last
  · rw [if_pos h, if_neg (by simp [h]), List.drop_one, List.tail_cons, List.countP_reverse]
  · rw [if_neg h, if_pos (by simpa using Ne.symm h)]

end Plan

section
variable (state : String → Option EndpointState) (budget : ProbeBudget) (nowMs : ℕ)

/-- An endpoint is due for a probe, before the run's cap. -/
def Due (endpoint : String) : Prop := endpointDecision (state endpoint) budget nowMs = .probe

instance : DecidablePred (Due state budget nowMs) := fun _ => inferInstanceAs (Decidable (_ = _))

theorem planLoop_snoc (list : List String) (decisions : String → Option ProbeDecision)
    (budgeted : ℕ) (hbudgeted : budgeted ≤ budget.maxProbesPerRun) (last : String) :
    planLoop state budget nowMs (list ++ [last]) decisions budgeted =
      Function.update (planLoop state budget nowMs list decisions budgeted) last
        (some (if Due state budget nowMs last ∧
          budget.maxProbesPerRun ≤ budgeted + list.countP (Due state budget nowMs)
          then .rateLimited else endpointDecision (state last) budget nowMs)) := by
  induction list generalizing decisions budgeted with
  | nil => rfl
  | cons endpoint rest ih =>
    rw [List.cons_append, planLoop, planLoop]
    by_cases hdue : Due state budget nowMs endpoint
    · have hprobe : endpointDecision (state endpoint) budget nowMs = .probe := hdue
      rw [List.countP_cons_of_pos (by simpa using hdue)]
      by_cases hcap : budget.maxProbesPerRun ≤ budgeted
      · -- the cap is reached, and stays so
        rw [if_pos ⟨hdue, hcap⟩, if_neg (by simp), ih _ _ hbudgeted]
        have hiff : (Due state budget nowMs last ∧
            budget.maxProbesPerRun ≤ budgeted + rest.countP (Due state budget nowMs)) ↔
            (Due state budget nowMs last ∧
              budget.maxProbesPerRun ≤ budgeted + (rest.countP (Due state budget nowMs) + 1)) :=
          and_congr_right fun _ => by omega
        simp only [hiff]
      · rw [if_neg fun h => hcap h.2, if_pos hprobe, ih _ _ (by omega)]
        have hiff : (Due state budget nowMs last ∧
            budget.maxProbesPerRun ≤ budgeted + 1 + rest.countP (Due state budget nowMs)) ↔
            (Due state budget nowMs last ∧
              budget.maxProbesPerRun ≤ budgeted + (rest.countP (Due state budget nowMs) + 1)) :=
          and_congr_right fun _ => by omega
        simp only [hiff]
    · have hprobe : ¬ endpointDecision (state endpoint) budget nowMs = .probe := hdue
      rw [if_neg fun h => hdue h.1, if_neg hprobe, ih _ _ hbudgeted,
        List.countP_cons_of_neg (by simpa using hdue)]

/-- **Which endpoints are planned for a probe**: those due for one, with fewer than the cap due
before their last occurrence. -/
theorem planRun_probe_iff (shortlist : List String) (endpoint : String) :
    planRun shortlist state budget nowMs endpoint = some .probe ↔
      endpoint ∈ shortlist ∧ Due state budget nowMs endpoint ∧
        dueBefore (Due state budget nowMs) shortlist endpoint < budget.maxProbesPerRun := by
  induction shortlist using List.reverseRecOn with
  | nil =>
    constructor
    · intro h
      cases h
    · rintro ⟨h, -⟩
      cases h
  | append_singleton list last ih =>
    unfold planRun at ih ⊢
    rw [planLoop_snoc _ _ _ _ _ _ (Nat.zero_le _), dueBefore_snoc, Nat.zero_add]
    by_cases heq : endpoint = last
    · subst heq
      rw [Function.update_self, if_pos rfl, Option.some_inj]
      by_cases hdue : Due state budget nowMs endpoint
      · by_cases hcap : budget.maxProbesPerRun ≤ list.countP (Due state budget nowMs)
        · rw [if_pos ⟨hdue, hcap⟩]
          simp [hcap]
        · rw [if_neg fun h => hcap h.2]
          exact ⟨fun _ => ⟨by simp, hdue, not_le.mp hcap⟩, fun _ => hdue⟩
      · rw [if_neg fun h => hdue h.1]
        simp only [hdue, false_and, and_false, iff_false]
        exact hdue
    · rw [Function.update_of_ne heq, if_neg heq, ih]
      simp [heq]

theorem countP_planned_le (shortlist : List String) :
    shortlist.countP (fun e => planRun shortlist state budget nowMs e = some .probe) ≤
    budget.maxProbesPerRun := by
  -- the last planned endpoint stands behind fewer due ones than the cap
  have hsplit : ∀ list : List String, list.countP
    (fun e => planRun shortlist state budget nowMs e = some .probe) = 0 ∨
      ∃ pre e post, list = pre ++ e :: post ∧ planRun shortlist state budget nowMs e = some .probe ∧
        ∀ x ∈ post, planRun shortlist state budget nowMs x ≠ some .probe := by
    intro list
    induction list using List.reverseRecOn with
    | nil => exact .inl rfl
    | append_singleton list last ih =>
      by_cases hlast : planRun shortlist state budget nowMs last = some .probe
      · exact .inr ⟨list, last, [], rfl, hlast, by simp⟩
      · rcases ih with h | ⟨pre, e, post, rfl, he, hpost⟩
        · left
          rw [List.countP_append, h, List.countP_singleton, if_neg (by simpa using hlast)]
        · refine .inr ⟨pre, e, post ++ [last], by simp, he, fun x hx => ?_⟩
          rcases List.mem_append.mp hx with hx | hx
          · exact hpost x hx
          · rw [List.mem_singleton.mp hx]
            exact hlast
  rcases hsplit shortlist with h | ⟨pre, e, post, heq, he, hpost⟩
  · omega
  · have hmem : e ∉ post := fun h => hpost e h he
    have hlt := ((planRun_probe_iff state budget nowMs shortlist e).mp he).2.2
    have hbefore : dueBefore (Due state budget nowMs) shortlist e =
      pre.countP (Due state budget nowMs) := by
      rw [heq]
      clear heq hpost
      induction post using List.reverseRecOn with
      | nil => rw [dueBefore_snoc, if_pos rfl]
      | append_singleton post last ih =>
        rw [show pre ++ e :: (post ++ [last]) = (pre ++ e :: post) ++ [last] by
          simp, dueBefore_snoc,
          if_neg (by rintro rfl; exact hmem (by simp)),
          ih (fun h => hmem (List.mem_append_left _ h))]
    have hpre : pre.countP (fun e => planRun shortlist state budget nowMs e = some .probe) ≤
        pre.countP (Due state budget nowMs) :=
      List.countP_mono_left fun x _ hx => by
        have := (planRun_probe_iff state budget nowMs shortlist x).mp (by simpa using hx)
        simpa using this.2.1
    have hzero : post.countP (fun e => planRun shortlist state budget nowMs e = some .probe) = 0 :=
      List.countP_eq_zero.mpr fun x hx => by simpa using hpost x hx
    calc shortlist.countP (fun e => planRun shortlist state budget nowMs e = some .probe)
        = pre.countP (fun e => planRun shortlist state budget nowMs e = some .probe) + 1 := by
          conv_lhs => rw [heq]
          rw [List.countP_append, List.countP_cons_of_pos (by simpa [← heq] using he)]
          rw [← heq, hzero]
      _ ≤ budget.maxProbesPerRun := by omega

/-- An endpoint due for a probe whose last occurrence stands within the cap. -/
def Planned (shortlist : List String) (endpoint : String) : Prop :=
  Due state budget nowMs endpoint ∧ dueBefore (Due state budget nowMs) shortlist endpoint <
  budget.maxProbesPerRun

instance (shortlist : List String) : DecidablePred (Planned state budget nowMs shortlist) :=
  fun _ => inferInstanceAs (Decidable (_ ∧ _))

theorem planRun_eq_probe {shortlist : List String} {endpoint : String} (h : endpoint ∈ shortlist) :
    planRun shortlist state budget nowMs endpoint = some .probe ↔
    Planned state budget nowMs shortlist endpoint := by
  rw [planRun_probe_iff]
  exact and_iff_right h

end

theorem walked_congr {p q : String → Prop} [DecidablePred p] [DecidablePred q]
    (cancelled : ℕ → Bool) (n : ℕ) {list : List String} (h : ∀ e ∈ list, p e ↔ q e) :
    walked p cancelled n list = walked q cancelled n list := by
  induction list generalizing n with
  | nil => rfl
  | cons endpoint rest ih =>
    have hrest : ∀ e ∈ rest, p e ↔ q e := fun e he => h e (List.mem_cons_of_mem _ he)
    unfold walked
    rw [ih (n + 1) hrest, ih n hrest]
    exact if_congr (h endpoint List.mem_cons_self) rfl rfl

theorem walked_sublist (p : String → Prop) [DecidablePred p] (cancelled : ℕ → Bool) (n : ℕ)
    (list : List String) :
    (walked p cancelled n list).Sublist list := by
  rcases walked_cases p cancelled n list with h | ⟨pre, e, post, heq, -, -, h⟩
  · rw [h]
  · rw [h, heq]
    exact List.sublist_append_left _ _

/-- **What one run probes.** It stays within its cap; and it starts one probe for each id exactly
when no id that is due for a probe within the cap stands twice in what it walks. -/
theorem run_probes_once_iff (shortlist : List String) (state : String → Option EndpointState)
    (budget : ProbeBudget) (nowMs : ℕ) (executor : ProbeExecutor) (parallelism : ℕ) :
    ((runPlanned shortlist (planRun shortlist state budget nowMs)
      state executor parallelism).attempted.length ≤
          budget.maxProbesPerRun ∧
        (runPlanned shortlist (planRun shortlist state budget nowMs)
         state executor parallelism).attempted.Nodup) ↔
      ∀ endpoint, Planned state budget nowMs shortlist endpoint →
        (walked (Planned state budget nowMs shortlist) executor.cancelled 0 shortlist).count
        endpoint ≤ 1 := by
  obtain ⟨hattempted, -⟩ :=
    runPlanned_walked shortlist (planRun shortlist state budget nowMs) state executor parallelism
  have hwalked : walked (fun e => planRun shortlist state budget nowMs e = some .probe)
    executor.cancelled 0 shortlist =
      walked (Planned state budget nowMs shortlist) executor.cancelled 0 shortlist :=
    walked_congr executor.cancelled 0 fun e he => planRun_eq_probe state budget nowMs he
  have hsub := walked_sublist (Planned state budget nowMs shortlist) executor.cancelled 0 shortlist
  rw [hwalked] at hattempted
  have hfilter :
    (walked (Planned state budget nowMs shortlist) executor.cancelled 0 shortlist).filter
        (fun e => planRun shortlist state budget nowMs e = some .probe) =
      (walked (Planned state budget nowMs shortlist) executor.cancelled 0 shortlist).filter
        (fun e => Planned state budget nowMs shortlist e) :=
    List.filter_congr fun e he => by
      rw [decide_eq_decide]
      exact planRun_eq_probe state budget nowMs (hsub.subset he)
  have hcap : ((walked (Planned state budget nowMs shortlist) executor.cancelled 0 shortlist).filter
      (fun e => planRun shortlist state budget nowMs e = some .probe)).length ≤
      budget.maxProbesPerRun := by
    rw [← List.countP_eq_length_filter]
    exact hsub.countP_le.trans (countP_planned_le state budget nowMs shortlist)
  rw [hattempted]
  refine (and_iff_right hcap).trans ?_
  rw [hfilter, List.nodup_iff_count_le_one]
  refine forall_congr' fun endpoint => ?_
  by_cases hp : Planned state budget nowMs shortlist endpoint
  · rw [List.count_filter (by simpa using hp)]
    exact ⟨fun h _ => h, fun h => h hp⟩
  · have hzero :
      List.count endpoint
        ((walked (Planned state budget nowMs shortlist) executor.cancelled 0 shortlist).filter
        fun e => Planned state budget nowMs shortlist e) = 0 :=
      List.count_eq_zero.mpr fun hmem => hp (by simpa using (List.mem_filter.mp hmem).2)
    rw [hzero]
    simp [hp]

/-- Two servers under one id. -/
def twiceRows : List CatalogRow :=
  [⟨"a", "US#1", "US", "US", "CA", true⟩, ⟨"a", "US#2", "US", "US", "NY", true⟩]

/-- An executor that never cancels. -/
def neverCancels : ProbeExecutor := ⟨fun _ _ => some (.ofMillis 12), fun _ => false⟩

/-- A catalog that lists an id twice is accepted, and one run probes that id twice. -/
theorem id_probed_twice :
    CatalogDocument.fromBytes (serdeOf [twiceRows]) (bodyOf twiceRows) = .ok (catalogOf twiceRows) ∧
      probeShortlist defaultConfig (catalogOf twiceRows) ⟨.fastest, .latency, {}⟩
      ⟨⟨[]⟩, some 0, none, none, none⟩ =
        .ok ["a", "a"] ∧
      (runPlanned ["a", "a"] (planRun ["a", "a"] (fun _ => none) defaultBudget 1000)
       (fun _ => none) neverCancels
        4).attempted = ["a", "a"] :=
  ⟨fromBytes_bodyOf (List.find?_cons_of_pos (by simp)) (by decide +kernel) (by decide)
   (by decide) rfl, rfl,
    by decide +kernel⟩

end ProtonWire
