import ProtonWire.Probe.Revision

/-!
# Reservations of the probe table

Rounds over one revision: each shorter than the interval between two probes of an endpoint, over a
shortlist of distinct ids.

* `Steady`: the steps of such rounds;
* `Reserved`: what a round in flight holds in the table, and what the table knows of every start;
* `Lags`, **`starts_are_spaced`**: two starts of an endpoint are an interval apart and an endpoint
  never attempted gets its entry back, while no round lags behind the table's stamp.
-/

namespace ProtonWire

/-- The round a slot holds. -/
def RoundPc.ongoing : RoundPc → Option Round
  | .idle => none
  | .note round => some round
  | .plan round => some round
  | .execute round _ => some round
  | .writeBack round _ _ _ => some round

namespace Probes

variable {settings : LatencyProbe} {key : RevisionKey} {w : Probes} {h : List ProbeEvent}

/-- The interval between two probes of an endpoint, in nanoseconds. -/
def interval (settings : LatencyProbe) : ℕ := settings.budget.minProbeInterval.toNanos

/-- Every round in progress is shorter than the interval so far, and a new one holds the revision
and distinct ids. -/
structure Steady (settings : LatencyProbe) (key : RevisionKey) (w : Probes) (a : Action) :
    Prop where
  brief : ∀ r round, (w.rounds r).ongoing = some round →
    w.clock * 1000000 < round.now * 1000000 + interval settings
  revision : ∀ r etag fetchedUnix seq shortlist, a = .begin_ r etag fetchedUnix seq shortlist →
    probeRevisionKey etag fetchedUnix = key ∧ shortlist.Nodup

/-- The step plans a round whose catalog was fetched before the table's stamp. -/
def Lags (w : Probes) (a : Action) : Prop :=
  ∃ r executor round, a = .advance r executor ∧ w.rounds r = .plan round ∧
    round.fetchedUnix < w.inner.fetchedUnix

/-- Two starts of one endpoint are of rounds whose readings are an interval apart. -/
def Spaced (settings : LatencyProbe) (e e' : ProbeEvent) : Prop :=
  ∀ r round r' round' endpoint, e = .started r round endpoint → e' = .started r' round' endpoint →
    interval settings ≤ (max round.now round'.now - min round.now round'.now) * 1000000

/-! ## What the rounds hold -/

/-- A round planned the endpoint for a probe. -/
def Plans (w : Probes) (r : ℕ) (round : Round) (plan : RoundPlan) (e : String) : Prop :=
  (w.rounds r).inFlight = some (round, plan) ∧ plan.decisions e = some .probe

/-- The endpoint is planned, and not attempted so far. -/
def Untouched (e : String) : RoundPc → Prop
  | .execute _ plan => plan.decisions e = some .probe
  | .writeBack _ plan run _ => plan.decisions e = some .probe ∧ e ∉ run.attempted
  | _ => False

/-- What the table and the rounds in flight hold over one revision. -/
structure Reserved (settings : LatencyProbe) (key : RevisionKey) (w : Probes)
    (h : List ProbeEvent) : Prop where
  round : ∀ r round, (w.rounds r).ongoing = some round →
    round.key = key ∧ round.shortlist.Nodup ∧ round.now ≤ w.clock
  table : w.inner.revision = some key ∨ w.inner.revision = none ∧ w.inner.state = fun _ => none
  current : ∀ r round plan, (w.rounds r).inFlight = some (round, plan) →
    plan.stale = false ∧ w.inner.revision = some key
  held : ∀ r round plan e, w.Plans r round plan e → e ∈ round.shortlist ∧
    w.inner.state e = some { (plan.state e).getD {} with lastAttemptMs := round.now }
  exclusive : ∀ r round plan r' round' plan' e, w.Plans r round plan e →
    w.Plans r' round' plan' e → r = r'
  due : ∀ r round plan e prior, w.Plans r round plan e → plan.state e = some prior →
    within round.now prior.lastAttemptMs settings.budget.minProbeInterval = false
  started : ∀ r round e, .started r round e ∈ h →
    ∃ entry, w.inner.state e = some entry ∧ round.now ≤ entry.lastAttemptMs
  startedBefore : ∀ r round e, .started r round e ∈ h → ∀ r' round' plan',
    (w.rounds r').inFlight = some (round', plan') → Untouched e (w.rounds r') →
    ∃ prior, plan'.state e = some prior ∧ round.now ≤ prior.lastAttemptMs
  spaced : h.Pairwise (Spaced settings)

/-! ## Steps that leave the table alone -/

/-- No probe starts. -/
def NoStart (events : List ProbeEvent) : Prop := ∀ r round e, .started r round e ∉ events

theorem spaced_append {events : List ProbeEvent} (hh : h.Pairwise (Spaced settings))
    (hno : NoStart events) :
    (h ++ events).Pairwise (Spaced settings) := by
  have hlate : ∀ e e', e' ∈ events → Spaced settings e e' := by
    rintro e _ he' r round r' round' endpoint - rfl
    exact absurd he' (hno r' round' endpoint)
  exact List.pairwise_append.mpr ⟨hh, List.pairwise_of_forall_mem_list fun e _ e' => hlate e e',
    fun e _ e' => hlate e e'⟩

/-- A slot that changes is not in flight. -/
theorem Reserved.calm {w' : Probes} {events : List ProbeEvent} (hr : w.Reserved settings key h)
    (hinner : w'.inner = w.inner) (hclock : w.clock ≤ w'.clock) (hno : NoStart events)
    (hslots : ∀ r, w'.rounds r = w.rounds r ∨ (w'.rounds r).inFlight = none ∧
      ∀ round, (w'.rounds r).ongoing = some round →
        round.key = key ∧ round.shortlist.Nodup ∧ round.now ≤ w'.clock) :
    w'.Reserved settings key (h ++ events) := by
  have hflight : ∀ r x, (w'.rounds r).inFlight = some x → w'.rounds r = w.rounds r := by
    intro r x hx
    refine (hslots r).resolve_right fun hslot => ?_
    rw [hslot.1] at hx
    cases hx
  have hplans : ∀ r round plan e, w'.Plans r round plan e → w.Plans r round plan e :=
    fun r round plan e hp => ⟨by rw [← hflight r _ hp.1]; exact hp.1, hp.2⟩
  have hold : ∀ r round e, .started r round e ∈ h ++ events → .started r round e ∈ h :=
    fun r round e hmem => (List.mem_append.mp hmem).resolve_right (hno r round e)
  refine ⟨fun r round hround => ?_, ?_, fun r round plan hpc => ?_, fun r round plan e hp => ?_,
    fun r round plan r' round' plan' e hp hp' => hr.exclusive r round plan r' round' plan' e
      (hplans _ _ _ _ hp) (hplans _ _ _ _ hp'),
    fun r round plan e prior hp => hr.due r round plan e prior (hplans _ _ _ _ hp),
    fun r round e hmem => ?_, fun r round e hmem r' round' plan' hpc huntouched => ?_,
    spaced_append hr.spaced hno⟩
  · rcases hslots r with heq | hslot
    · rw [heq] at hround
      obtain ⟨hkey, hnodup, hnow⟩ := hr.round r round hround
      exact ⟨hkey, hnodup, hnow.trans hclock⟩
    · exact hslot.2 round hround
  · rw [hinner]
    exact hr.table
  · rw [hinner]
    exact hr.current r round plan (by rw [← hflight r _ hpc]; exact hpc)
  · rw [hinner]
    exact hr.held r round plan e (hplans _ _ _ _ hp)
  · rw [hinner]
    exact hr.started r round e (hold r round e hmem)
  · have hslot := hflight r' _ hpc
    rw [hslot] at hpc huntouched
    exact hr.startedBefore r round e (hold r round e hmem) r' round' plan' hpc huntouched

/-! ## Planning -/

/-- A round of the revision that does not lag is planned as current, over the table as it is. -/
theorem Reserved.fresh {r : ℕ} {round : Round} (hr : w.Reserved settings key h)
    (hpc : w.rounds r = .plan round)
    (hlag : ¬ round.fetchedUnix < w.inner.fetchedUnix) :
    isStale w.inner w.active round = false ∧ (reconcile w.inner round).state = w.inner.state := by
  obtain ⟨hkey, -, -⟩ := hr.round r round (by rw [hpc]; rfl)
  unfold isStale reconcile
  rcases hr.table with hrev | ⟨hrev, hstate⟩
  · rw [hrev, hkey]
    exact ⟨by simp [hlag], by rw [if_neg (not_not.mpr rfl)]⟩
  · rw [hrev]
    exact ⟨by simp [hlag], by rw [if_pos nofun, hstate]⟩

theorem elapsed_lt {now now' clock bound unit : ℕ} (hnow : now ≤ clock) (hnow' : now' ≤ clock)
    (hbrief : clock * unit < now' * unit + bound) : (now - now') * unit < bound := by
  have hle := Nat.mul_le_mul_right unit hnow
  have hle' := Nat.mul_le_mul_right unit hnow'
  rw [Nat.sub_mul]
  omega

theorem within_eq (nowMs sinceMs : ℕ) (bound : Duration) :
    within nowMs sinceMs bound = decide ((nowMs - sinceMs) * 1000000 < bound.toNanos) := by
  unfold within
  rw [Duration.toNanos_ofMillis]

theorem ongoing_of_inFlight {pc : RoundPc} {round : Round} {plan : RoundPlan}
    (hpc : pc.inFlight = some (round, plan)) : pc.ongoing = some round := by
  cases pc <;> cases hpc <;> rfl

theorem untouched_decision {pc : RoundPc} {round : Round} {plan : RoundPlan} {e : String}
    (hpc : pc.inFlight = some (round, plan)) (hu : Untouched e pc) :
    plan.decisions e = some .probe := by
  cases pc with
  | execute round' plan' =>
    cases hpc
    exact hu
  | writeBack round' plan' run answeredAt =>
    cases hpc
    exact hu.1
  | _ => cases hpc

theorem plans_goto {w' : Probes} {r r' : ℕ} {pc : RoundPc} {round : Round} {plan : RoundPlan}
    {e : String} (hrounds : w'.rounds = w.rounds) (hp : (w'.goto r pc).Plans r' round plan e) :
    r' = r ∧ pc.inFlight = some (round, plan) ∧ plan.decisions e = some .probe ∨
      r' ≠ r ∧ w.Plans r' round plan e := by
  obtain ⟨hpc, hd⟩ := hp
  rw [rounds_goto, hrounds] at hpc
  split_ifs at hpc with heq
  · exact Or.inl ⟨heq, hpc, hd⟩
  · exact Or.inr ⟨heq, hpc, hd⟩

theorem reserved_state {shortlist : List String} {state : String → Option EndpointState}
    {budget : ProbeBudget} {now : ℕ} {decisions : String → Option ProbeDecision}
    (hplanned : decisions = planRun shortlist state budget now) (e : String) :
    updateEach (reserveEntry decisions now) shortlist state e =
      if decisions e = some .probe then some { (state e).getD {} with lastAttemptMs := now }
      else state e := by
  rw [reserved_apply]
  by_cases hd : decisions e = some .probe
  · have hmem : e ∈ shortlist := (planRun_case (hplanned ▸ hd)).1
    rw [if_pos hmem, if_pos hd]
    exact if_pos hd
  · rw [if_neg hd]
    split_ifs
    · exact if_neg hd
    · rfl

section
variable {r : ℕ} {round : Round} {executor : ProbeExecutor}
    {decisions : String → Option ProbeDecision}

theorem Reserved.unplanned (hr : w.Reserved settings key h)
    (hs : w.Steady settings key (.advance r executor)) (hpc : w.rounds r = .plan round)
    (hplanned : decisions = planRun round.shortlist w.inner.state settings.budget round.now)
    {e : String} (hd : decisions e = some .probe) (r' : ℕ) (round' : Round) (plan' : RoundPlan) :
    ¬ w.Plans r' round' plan' e := by
  intro hp
  obtain ⟨-, -, hnow⟩ := hr.round r round (by rw [hpc]; rfl)
  have hround' := ongoing_of_inFlight hp.1
  obtain ⟨-, -, hnow'⟩ := hr.round r' round' hround'
  have hfar := planRun_probe (hplanned ▸ hd) (hr.held r' round' plan' e hp).2
  rw [within_eq, decide_eq_false_iff_not] at hfar
  exact hfar (elapsed_lt hnow hnow' (hs.brief r' round' hround'))

theorem Reserved.started_le (hr : w.Reserved settings key h)
    (hs : w.Steady settings key (.advance r executor)) (hpc : w.rounds r = .plan round)
    (hplanned : decisions = planRun round.shortlist w.inner.state settings.budget round.now)
    {e : String} (hd : decisions e = some .probe) {entry : EndpointState}
    (hentry : w.inner.state e = some entry) :
    entry.lastAttemptMs ≤ round.now := by
  have hongoing : (w.rounds r).ongoing = some round := by rw [hpc]; rfl
  obtain ⟨-, -, hnow⟩ := hr.round r round hongoing
  have hpos := elapsed_lt hnow hnow (hs.brief r round hongoing)
  have hfar := planRun_probe (hplanned ▸ hd) hentry
  rw [within_eq, decide_eq_false_iff_not] at hfar
  by_contra hlt
  rw [Nat.sub_eq_zero_of_le (not_le.mp hlt).le] at hfar
  rw [Nat.sub_self] at hpos
  exact hfar hpos

theorem Reserved.planned (hr : w.Reserved settings key h)
    (hs : w.Steady settings key (.advance r executor))
    (hpc : w.rounds r = .plan round) {w' : Probes} (hrounds : w'.rounds = w.rounds)
    (hclock : w'.clock = w.clock) (hrevision : w'.inner.revision = some key)
    (hplanned : decisions = planRun round.shortlist w.inner.state settings.budget round.now)
    (hstate : w'.inner.state = updateEach (reserveEntry decisions round.now)
     round.shortlist w.inner.state) :
    (w'.goto r (.execute round ⟨w.inner.state, decisions, false⟩)).Reserved settings key
      (h ++ [.planned r round false]) := by
  have hold : ∀ r' round' e, .started r' round' e ∈ h ++ [.planned r round false] →
    .started r' round' e ∈ h :=
    fun r' round' e hmem => (List.mem_append.mp hmem).resolve_right (by simp)
  have hfree {e : String} (hd : decisions e = some .probe) := hr.unplanned hs hpc hplanned hd
  have hentry (e : String) : w'.inner.state e = _ :=
    (congrFun hstate e).trans (reserved_state hplanned e)
  have hkept {r' : ℕ} {round' : Round} {plan' : RoundPlan} {e : String}
    (hp : w.Plans r' round' plan' e) :
      w'.inner.state e = w.inner.state e :=
    (hentry e).trans (if_neg fun hd => hfree hd r' round' plan' hp)
  constructor
  case round =>
    intro r' round' hround
    rw [rounds_goto, hrounds] at hround
    show _ ∧ _ ∧ round'.now ≤ w'.clock
    rw [hclock]
    split_ifs at hround
    · cases hround
      exact hr.round r round (by rw [hpc]; rfl)
    · exact hr.round r' round' hround
  case table => exact Or.inl hrevision
  case current =>
    intro r' round' plan' hflight
    rw [rounds_goto, hrounds] at hflight
    refine ⟨?_, hrevision⟩
    split_ifs at hflight
    · cases hflight
      rfl
    · exact (hr.current r' round' plan' hflight).1
  case held =>
    intro r' round' plan' e hp
    rcases plans_goto hrounds hp with ⟨-, hflight, hd⟩ | ⟨-, hp⟩
    · cases hflight
      exact ⟨(planRun_case (hplanned ▸ hd)).1, (hentry e).trans (if_pos hd)⟩
    · obtain ⟨hmem, hheld⟩ := hr.held r' round' plan' e hp
      exact ⟨hmem, (hkept hp).trans hheld⟩
  case exclusive =>
    intro r₁ round₁ plan₁ r₂ round₂ plan₂ e hp₁ hp₂
    rcases plans_goto hrounds hp₁ with ⟨rfl, hflight₁, hd₁⟩ | ⟨-, hold₁⟩
    · rcases plans_goto hrounds hp₂ with ⟨rfl, -, -⟩ | ⟨-, hold₂⟩
      · rfl
      · cases hflight₁
        exact absurd hold₂ (hfree hd₁ _ _ _)
    · rcases plans_goto hrounds hp₂ with ⟨rfl, hflight₂, hd₂⟩ | ⟨-, hold₂⟩
      · cases hflight₂
        exact absurd hold₁ (hfree hd₂ _ _ _)
      · exact hr.exclusive _ _ _ _ _ _ e hold₁ hold₂
  case due =>
    intro r' round' plan' e prior hp hprior
    rcases plans_goto hrounds hp with ⟨-, hflight, hd⟩ | ⟨-, hp⟩
    · cases hflight
      exact planRun_probe (hplanned ▸ hd) hprior
    · exact hr.due r' round' plan' e prior hp hprior
  case started =>
    intro r' round' e hmem
    obtain ⟨entry, hprior, hle⟩ := hr.started r' round' e (hold r' round' e hmem)
    by_cases hd : decisions e = some .probe
    · exact ⟨_, (hentry e).trans (if_pos hd), hle.trans (hr.started_le hs hpc hplanned hd hprior)⟩
    · exact ⟨entry, ((hentry e).trans (if_neg hd)).trans hprior, hle⟩
  case startedBefore =>
    intro r' round' e hmem r'' round'' plan'' hflight huntouched
    have hmem := hold r' round' e hmem
    rw [rounds_goto, hrounds] at hflight huntouched
    split_ifs at hflight huntouched
    · cases hflight
      exact hr.started r' round' e hmem
    · exact hr.startedBefore r' round' e hmem r'' round'' plan'' hflight huntouched
  case spaced => exact spaced_append hr.spaced (by simp [NoStart])

end

/-! ## Execution -/

theorem mem_attemptEvents_started {r : ℕ} {round : Round} {executor : ProbeExecutor}
    {attempted : List String} {k r' : ℕ} {round' : Round} {e : String}
    (hmem : .started r' round' e ∈ attemptEvents r round executor attempted k) :
    r' = r ∧ round' = round ∧ e ∈ attempted := by
  induction attempted generalizing k with
  | nil => cases hmem
  | cons endpoint rest ih =>
    unfold attemptEvents at hmem
    rcases List.mem_append.mp hmem with hnow | hrest
    · have hstart : ProbeEvent.started r' round' e = .started r round endpoint := by
        split at hnow <;> simpa using hnow
      cases hstart
      exact ⟨rfl, rfl, List.mem_cons_self⟩
    · obtain ⟨hr, hround, he⟩ := ih hrest
      exact ⟨hr, hround, List.mem_cons_of_mem _ he⟩

theorem spaced_attemptEvents (r : ℕ) (round : Round) (executor : ProbeExecutor)
    (attempted : List String) (hnodup : attempted.Nodup) (k : ℕ) :
    (attemptEvents r round executor attempted k).Pairwise (Spaced settings) := by
  induction attempted generalizing k with
  | nil => exact .nil
  | cons endpoint rest ih =>
    obtain ⟨hfresh, hrest⟩ := List.nodup_cons.mp hnodup
    unfold attemptEvents
    refine List.pairwise_append.mpr ⟨?_, ih hrest (k + 1), fun e he e' he' => ?_⟩
    · split
      · exact List.pairwise_pair.mpr fun r₁ round₁ r₂ round₂ e _ heq => by cases heq
      · exact List.pairwise_singleton _ _
    · rintro r₁ round₁ r₂ round₂ f rfl rfl
      have hf : f = endpoint := by
        split at he <;> simp at he <;> exact he.2.2
      exact absurd (hf ▸ (mem_attemptEvents_started he').2.2) hfresh

theorem Reserved.executed {r : ℕ} {round : Round} {plan : RoundPlan} {executor : ProbeExecutor}
    {run : ProbeRun} (hr : w.Reserved settings key h) (hpc : w.rounds r = .execute round plan)
    (hran : run = runPlanned round.shortlist plan.decisions plan.state executor settings.parallelism) :
    (w.goto r (.writeBack round plan run w.clock)).Reserved settings key
      (h ++ attemptEvents r round executor run.attempted 0) := by
  have hflight : (w.rounds r).inFlight = some (round, plan) := by rw [hpc]; rfl
  have hattempted : ∀ e ∈ run.attempted, w.Plans r round plan e := by
    intro e he
    rw [hran] at he
    exact ⟨hflight, (runPlanned_attempted he).2⟩
  have hnodup : run.attempted.Nodup := by
    rw [hran]
    exact (hr.round r round (ongoing_of_inFlight hflight)).2.1.sublist runPlanned_sublist
  -- the slot keeps its round and its plan
  have hslot : ∀ r', ((w.goto r (.writeBack round plan run w.clock)).rounds r').inFlight =
    (w.rounds r').inFlight := by
    intro r'
    rw [rounds_goto]
    split_ifs with heq
    · rw [heq, hflight]
      rfl
    · rfl
  have hplans {r' : ℕ} {round' : Round} {plan' : RoundPlan} {e : String}
      (hp : (w.goto r (.writeBack round plan run w.clock)).Plans r' round' plan' e) :
      w.Plans r' round' plan' e :=
    ⟨(hslot r').symm.trans hp.1, hp.2⟩
  constructor
  case round =>
    intro r' round' hround
    rw [rounds_goto] at hround
    split_ifs at hround with heq
    · cases hround
      exact hr.round r round (ongoing_of_inFlight hflight)
    · exact hr.round r' round' hround
  case table => exact hr.table
  case current => exact fun r' round' plan' hpc' => hr.current r' round' plan' ((hslot r').symm.trans hpc')
  case held => exact fun r' round' plan' e hp => hr.held r' round' plan' e (hplans hp)
  case exclusive =>
    exact fun r₁ round₁ plan₁ r₂ round₂ plan₂ e hp₁ hp₂ =>
      hr.exclusive r₁ round₁ plan₁ r₂ round₂ plan₂ e (hplans hp₁) (hplans hp₂)
  case due => exact fun r' round' plan' e prior hp => hr.due r' round' plan' e prior (hplans hp)
  case started =>
    intro r' round' e hmem
    rcases List.mem_append.mp hmem with hold | hnew
    · exact hr.started r' round' e hold
    · obtain ⟨-, rfl, he⟩ := mem_attemptEvents_started hnew
      exact ⟨_, (hr.held r round' plan e (hattempted e he)).2, le_rfl⟩
  case startedBefore =>
    intro r' round' e hmem r'' round'' plan'' hpc'' huntouched
    have hflight'' := (hslot r'').symm.trans hpc''
    rw [rounds_goto] at huntouched
    split_ifs at huntouched with heq
    · -- the round itself: the endpoint is planned and not attempted
      rcases List.mem_append.mp hmem with hold | hnew
      · refine hr.startedBefore r' round' e hold r'' round'' plan'' hflight'' ?_
        rw [heq, hpc]
        exact huntouched.1
      · exact absurd (mem_attemptEvents_started hnew).2.2 huntouched.2
    · rcases List.mem_append.mp hmem with hold | hnew
      · exact hr.startedBefore r' round' e hold r'' round'' plan'' hflight'' huntouched
      · -- another round holds no endpoint this one attempted
        have hp'' : w.Plans r'' round'' plan'' e :=
          ⟨hflight'', untouched_decision hflight'' huntouched⟩
        have he := (mem_attemptEvents_started hnew).2.2
        exact absurd (hr.exclusive _ _ _ _ _ _ e hp'' (hattempted e he)) heq
  case spaced =>
    refine List.pairwise_append.mpr ⟨hr.spaced,
      spaced_attemptEvents r round executor _ hnodup 0, ?_⟩
    rintro _ hold _ hnew r₁ round₁ r₂ round₂ e rfl rfl
    obtain ⟨-, rfl, he⟩ := mem_attemptEvents_started hnew
    have hp := hattempted e he
    obtain ⟨prior, hprior, hle⟩ := hr.startedBefore r₁ round₁ e hold r round₂ plan hflight
      (by rw [hpc]; exact hp.2)
    have hfar := hr.due r round₂ plan e prior hp hprior
    rw [within_eq, decide_eq_false_iff_not, not_lt] at hfar
    exact hfar.trans (Nat.mul_le_mul_right _ (by omega))

/-! ## Write-back -/

section
variable {r : ℕ} {round : Round} {plan : RoundPlan} {run : ProbeRun} {answeredAt : ℕ} {e : String}

theorem Reserved.writeBack_state (hr : w.Reserved settings key h)
    (hpc : w.rounds r = .writeBack round plan run answeredAt) :
    (w.writeBackRound r round plan run answeredAt).1.inner = { w.inner with
      state := updateEach (settleEntry plan run answeredAt) round.shortlist w.inner.state } := by
  have hflight : (w.rounds r).inFlight = some (round, plan) := by rw [hpc]; rfl
  obtain ⟨hcurrent, hrevision⟩ := hr.current r round plan hflight
  obtain ⟨hkey, -, -⟩ := hr.round r round (ongoing_of_inFlight hflight)
  exact if_pos ⟨hcurrent, hkey ▸ hrevision⟩

theorem settled_unplanned (shortlist : List String) (state : String → Option EndpointState)
    (hd : plan.decisions e ≠ some .probe) :
    updateEach (settleEntry plan run answeredAt) shortlist state e = state e := by
  rw [settled_apply]
  split_ifs
  · exact if_pos hd
  · rfl

/-- **The release**: a planned endpoint never attempted gets back the entry it had. -/
theorem Reserved.released (hr : w.Reserved settings key h)
    (hpc : w.rounds r = .writeBack round plan run answeredAt) (hd : plan.decisions e = some .probe)
    (hnot : e ∉ run.attempted) :
    updateEach (settleEntry plan run answeredAt) round.shortlist w.inner.state e =
    plan.state e := by
  obtain ⟨hmem, hheld⟩ := hr.held r round plan e ⟨by rw [hpc]; rfl, hd⟩
  rw [settled_apply, if_pos hmem, hheld]
  unfold settleEntry
  rw [if_neg (not_not.mpr hd), if_pos hnot]
  cases plan.state e <;> rfl

/-- An attempted endpoint keeps its reservation. -/
theorem Reserved.kept (hr : w.Reserved settings key h)
    (hpc : w.rounds r = .writeBack round plan run answeredAt) (hd : plan.decisions e = some .probe)
    (hattempted : e ∈ run.attempted) :
    ∃ entry, updateEach (settleEntry plan run answeredAt) round.shortlist w.inner.state e =
      some entry ∧
      entry.lastAttemptMs = round.now := by
  obtain ⟨hmem, hheld⟩ := hr.held r round plan e ⟨by rw [hpc]; rfl, hd⟩
  rw [settled_apply, if_pos hmem, hheld]
  unfold settleEntry
  rw [if_neg (not_not.mpr hd), if_neg (not_not.mpr hattempted)]
  cases run.observations e with
  | none => exact ⟨_, rfl, rfl⟩
  | some observation => exact ⟨_, rfl, rfl⟩

theorem Reserved.written (hr : w.Reserved settings key h)
    (hpc : w.rounds r = .writeBack round plan run answeredAt) :
    (w.writeBackRound r round plan run answeredAt).1.Reserved settings key
      (h ++ (w.writeBackRound r round plan run answeredAt).2) := by
  have hflight : (w.rounds r).inFlight = some (round, plan) := by rw [hpc]; rfl
  have hinner := hr.writeBack_state hpc
  have hno : NoStart (w.writeBackRound r round plan run answeredAt).2 := by
    unfold writeBackRound
    simp [NoStart]
  have hold : ∀ r' round' e, .started r' round' e ∈ h ++
    (w.writeBackRound r round plan run answeredAt).2 →
      .started r' round' e ∈ h :=
    fun r' round' e hmem => (List.mem_append.mp hmem).resolve_right (hno r' round' e)
  have hslot (r' : ℕ) : (w.writeBackRound r round plan run answeredAt).1.rounds r' =
      if r' = r then .idle else w.rounds r' := rounds_goto _ _ _ _
  have hother {r' : ℕ} {x : Round × RoundPlan}
      (hx : ((w.writeBackRound r round plan run answeredAt).1.rounds r').inFlight = some x) :
      r' ≠ r ∧ (w.rounds r').inFlight = some x := by
    rw [hslot] at hx
    split_ifs at hx with heq
    · cases hx
    · exact ⟨heq, hx⟩
  have hplans {r' : ℕ} {round' : Round} {plan' : RoundPlan} {e : String}
      (hp : (w.writeBackRound r round plan run answeredAt).1.Plans r' round' plan' e) :
      r' ≠ r ∧ w.Plans r' round' plan' e := ⟨(hother hp.1).1, (hother hp.1).2, hp.2⟩
  constructor
  case round =>
    intro r' round' hround
    rw [hslot] at hround
    split_ifs at hround
    · cases hround
    · exact hr.round r' round' hround
  case table =>
    rw [hinner]
    exact Or.inl (hr.current r round plan hflight).2
  case current =>
    intro r' round' plan' hflight'
    rw [hinner]
    exact hr.current r' round' plan' (hother hflight').2
  case held =>
    intro r' round' plan' e hp
    obtain ⟨hne, hp⟩ := hplans hp
    obtain ⟨hmem, hheld⟩ := hr.held r' round' plan' e hp
    have hd : plan.decisions e ≠ some .probe :=
      fun hd => hne (hr.exclusive _ _ _ _ _ _ e hp ⟨hflight, hd⟩)
    rw [hinner]
    exact ⟨hmem, (settled_unplanned _ _ hd).trans hheld⟩
  case exclusive =>
    exact fun r₁ round₁ plan₁ r₂ round₂ plan₂ e hp₁ hp₂ =>
      hr.exclusive r₁ round₁ plan₁ r₂ round₂ plan₂ e (hplans hp₁).2 (hplans hp₂).2
  case due => exact fun r' round' plan' e prior hp => hr.due r' round' plan' e prior (hplans hp).2
  case started =>
    intro r' round' e hmem
    have hmem := hold r' round' e hmem
    obtain ⟨entry, hentry, hle⟩ := hr.started r' round' e hmem
    rw [hinner]
    by_cases hd : plan.decisions e = some .probe
    · by_cases hattempted : e ∈ run.attempted
      · obtain ⟨entry', hentry', hlast⟩ := hr.kept hpc hd hattempted
        have hheld := (hr.held r round plan e ⟨hflight, hd⟩).2
        cases hentry.symm.trans hheld
        exact ⟨entry', hentry', hle.trans hlast.ge⟩
      · obtain ⟨prior, hprior, hle⟩ := hr.startedBefore r' round' e hmem r round plan hflight
          (by rw [hpc]; exact ⟨hd, hattempted⟩)
        exact ⟨prior, (hr.released hpc hd hattempted).trans hprior, hle⟩
    · exact ⟨entry, (settled_unplanned _ _ hd).trans hentry, hle⟩
  case startedBefore =>
    intro r' round' e hmem r'' round'' plan'' hflight'' huntouched
    obtain ⟨hne, hflight''⟩ := hother hflight''
    rw [hslot, if_neg hne] at huntouched
    exact hr.startedBefore r' round' e (hold r' round' e hmem) r'' round'' plan'' hflight''
      huntouched
  case spaced => exact spaced_append hr.spaced hno

end

/-! ## Every run -/

theorem Reserved.step {a : Action} {o : Probes × List ProbeEvent} (hr : w.Reserved settings key h)
    (hs : w.Steady settings key a) (hlag : ¬ w.Lags a) (hcase : StepCase settings w a o) :
    o.1.Reserved settings key (h ++ o.2) := by
  cases hcase with
  | same => exact hr.calm rfl le_rfl nofun fun _ => Or.inl rfl
  | returns r round => exact hr.calm rfl le_rfl (by simp [NoStart]) fun _ => Or.inl rfl
  | @begins r etag fetchedUnix seq shortlist idle =>
    obtain ⟨hkey, hnodup⟩ := hs.revision r etag fetchedUnix seq shortlist rfl
    refine hr.calm rfl le_rfl nofun fun r' => ?_
    rw [rounds_goto]
    split_ifs
    · refine Or.inr ⟨rfl, fun round hround => ?_⟩
      cases hround
      exact ⟨hkey, hnodup, le_rfl⟩
    · exact Or.inl rfl
  | @notes r round executor pc =>
    refine hr.calm rfl le_rfl nofun fun r' => ?_
    rw [rounds_goto]
    split_ifs
    · refine Or.inr ⟨rfl, fun round' hround => ?_⟩
      cases hround
      exact hr.round r round (by rw [pc]; rfl)
    · exact Or.inl rfl
  | @plansStale r round executor pc stale =>
    have hfresh := (hr.fresh pc fun hlt => hlag ⟨r, executor, round, rfl, pc, hlt⟩).1
    rw [hfresh] at stale
    cases stale
  | @plans r round executor decisions pc fresh planned =>
    obtain ⟨hkey, -, -⟩ := hr.round r round (by rw [pc]; rfl)
    have hstate := (hr.fresh pc fun hlt => hlag ⟨r, executor, round, rfl, pc, hlt⟩).2
    rw [hstate] at planned ⊢
    exact hr.planned hs pc rfl rfl (by rw [← hkey]; exact reconcile_revision w.inner round)
      planned rfl
  | executes executor run pc ran => exact hr.executed pc ran
  | writes pc => exact hr.written pc
  | ticks ms => exact hr.calm rfl (Nat.le_add_right _ _) nofun fun _ => Or.inl rfl

theorem reserved_run (settings : LatencyProbe) (key : RevisionKey) (actions : List Action)
    (hok : ∀ as₁ a as₂, actions = as₁ ++ a :: as₂ →
      (run settings as₁).1.Steady settings key a ∧ ¬ (run settings as₁).1.Lags a) :
    (run settings actions).1.Reserved settings key (run settings actions).2 := by
  refine Machine.run_inv_of_steps (fun w a => Steady settings key w a ∧ ¬ Lags w a)
    (Reserved settings key)
    (fun w _ a hok hw => hw.step hok.1 hok.2 (step_case settings w a)) initial ?_ actions hok
  exact ⟨nofun, Or.inr ⟨rfl, rfl⟩, nofun, nofun, nofun, nofun, nofun, nofun, .nil⟩

/-- A round in flight was in flight before the step, or the step planned it. -/
theorem StepCase.inFlight {a : Action} {o : Probes × List ProbeEvent}
    (hcase : StepCase settings w a o) {r : ℕ}
    {round : Round} {plan : RoundPlan} (hpc : (o.1.rounds r).inFlight = some (round, plan)) :
    (w.rounds r).inFlight = some (round, plan) ∨
      ∃ executor, a = .advance r executor ∧ w.rounds r = .plan round ∧
        (plan.stale = false → plan.state = (reconcile w.inner round).state) := by
  have hmove {w' : Probes} {r' : ℕ} {pc : RoundPc} (hrounds : w'.rounds = w.rounds)
      (hpc : ((w'.goto r' pc).rounds r).inFlight = some (round, plan)) :
      r = r' ∧ pc.inFlight = some (round, plan) ∨ (w.rounds r).inFlight = some (round, plan) := by
    rw [rounds_goto, hrounds] at hpc
    split_ifs at hpc with heq
    · exact Or.inl ⟨heq, hpc⟩
    · exact Or.inr hpc
  cases hcase with
  | same => exact Or.inl hpc
  | returns => exact Or.inl hpc
  | begins idle =>
    rcases hmove rfl hpc with ⟨-, hnew⟩ | hold
    · cases hnew
    · exact Or.inl hold
  | notes pc =>
    rcases hmove rfl hpc with ⟨-, hnew⟩ | hold
    · cases hnew
    · exact Or.inl hold
  | @plansStale r' round' executor pc stale =>
    rcases hmove rfl hpc with ⟨rfl, hnew⟩ | hold
    · cases hnew
      exact Or.inr ⟨executor, rfl, pc, nofun⟩
    · exact Or.inl hold
  | @plans r' round' executor decisions pc fresh planned =>
    rcases hmove rfl hpc with ⟨rfl, hnew⟩ | hold
    · cases hnew
      exact Or.inr ⟨executor, rfl, pc, fun _ => rfl⟩
    · exact Or.inl hold
  | @executes r' round' plan' executor run pc ran =>
    rcases hmove rfl hpc with ⟨rfl, hnew⟩ | hold
    · rw [pc]
      exact Or.inl hnew
    · exact Or.inl hold
  | writes pc =>
    rcases hmove rfl hpc with ⟨-, hnew⟩ | hold
    · cases hnew
    · exact Or.inl hold
  | ticks ms => exact Or.inl hpc

/-- The slot holds the round and its plan since a step that planned it over the table of that
time. -/
def HeldSince (settings : LatencyProbe) (actions : List Action) (r : ℕ) (round : Round)
    (plan : RoundPlan) : Prop :=
  ∃ as₁ executor as₂, actions = as₁ ++ .advance r executor :: as₂ ∧
    (run settings as₁).1.rounds r = .plan round ∧ plan.state = (run settings as₁).1.inner.state ∧
    ∀ as₃, as₃ <+: as₂ →
      ((run settings (as₁ ++ .advance r executor :: as₃)).1.rounds r).inFlight = some (round, plan)

theorem heldSince_run (settings : LatencyProbe) (key : RevisionKey) (actions : List Action)
    (hok : ∀ as₁ a as₂, actions = as₁ ++ a :: as₂ →
      (run settings as₁).1.Steady settings key a ∧ ¬ (run settings as₁).1.Lags a) {r : ℕ}
      {round : Round}
    {plan : RoundPlan} (hpc : ((run settings actions).1.rounds r).inFlight = some (round, plan)) :
    HeldSince settings actions r round plan := by
  induction actions using List.reverseRecOn with
  | nil => cases hpc
  | append_singleton as a ih =>
    have hok' : ∀ as₁ b as₂, as = as₁ ++ b :: as₂ →
        (run settings as₁).1.Steady settings key b ∧ ¬ (run settings as₁).1.Lags b :=
      fun as₁ b as₂ heq => hok as₁ b (as₂ ++ [a]) (by rw [heq, List.append_assoc, List.cons_append])
    have hcurrent := (reserved_run settings key (as ++ [a]) hok).current r round plan hpc
    have hstep : ((step settings (run settings as).1 a).1.rounds r).inFlight =
      some (round, plan) := by
      rwa [run_snoc] at hpc
    rcases (step_case settings (run settings as).1 a).inFlight hstep with
      hold | ⟨executor, rfl, hplan, hstate⟩
    · obtain ⟨as₁, executor, as₂, rfl, hplan, hstate, hheld⟩ := ih hok' hold
      refine ⟨as₁, executor, as₂ ++ [a], by rw [List.append_assoc, List.cons_append], hplan, hstate,
        fun as₃ hpre => ?_⟩
      rcases List.prefix_concat_iff.mp hpre with rfl | hpre
      · rwa [← List.cons_append, ← List.append_assoc]
      · exact hheld as₃ hpre
    · have hno := (hok as (.advance r executor) [] rfl).2
      have hsame := ((reserved_run settings key as hok').fresh hplan fun hlt =>
        hno ⟨r, executor, round, rfl, hplan, hlt⟩).2
      refine ⟨as, executor, [], rfl, hplan, (hstate hcurrent.1).trans hsame, fun as₃ hpre => ?_⟩
      rw [List.prefix_nil.mp hpre]
      exact hpc

/-- **The reservation.** Over one revision and brief rounds, none of which lags behind the table's
stamp, two starts of an endpoint are of rounds whose readings are an interval apart, and the
write-back of a round gives an endpoint it planned and never attempted the entry it had when the
round planned. -/
theorem starts_are_spaced (settings : LatencyProbe) (key : RevisionKey) (actions : List Action)
    (hsteady : ∀ as₁ a as₂, actions = as₁ ++ a :: as₂ → (run settings as₁).1.Steady settings key a)
    (hlag : ∀ as₁ a as₂, actions = as₁ ++ a :: as₂ → ¬ (run settings as₁).1.Lags a) :
    (run settings actions).2.Pairwise (Spaced settings) ∧
      ∀ as₁ r executor as₂ round plan probed answeredAt e, actions = as₁ ++
        .advance r executor :: as₂ →
        (run settings as₁).1.rounds r = .writeBack round plan probed answeredAt →
        plan.decisions e = some .probe → e ∉ probed.attempted →
        (run settings (as₁ ++ [.advance r executor])).1.inner.state e = plan.state e ∧
          HeldSince settings as₁ r round plan := by
  have hok : ∀ as₁ a as₂, actions = as₁ ++ a :: as₂ →
      (run settings as₁).1.Steady settings key a ∧ ¬ (run settings as₁).1.Lags a :=
    fun as₁ a as₂ heq => ⟨hsteady as₁ a as₂ heq, hlag as₁ a as₂ heq⟩
  refine ⟨(reserved_run settings key actions hok).spaced, ?_⟩
  rintro as₁ r executor as₂ round plan probed answeredAt e rfl hpc hd hnot
  have hok₁ : ∀ bs₁ b bs₂, as₁ = bs₁ ++ b :: bs₂ →
      (run settings bs₁).1.Steady settings key b ∧ ¬ (run settings bs₁).1.Lags b :=
    fun bs₁ b bs₂ heq => hok bs₁ b (bs₂ ++ .advance r executor :: as₂)
      (by rw [heq, List.append_assoc, List.cons_append])
  have hr := reserved_run settings key as₁ hok₁
  have hstep : step settings (run settings as₁).1 (.advance r executor) =
      (run settings as₁).1.writeBackRound r round plan probed answeredAt := by
    unfold step
    dsimp only
    rw [hpc]
  rw [run_snoc, hstep, hr.writeBack_state hpc]
  exact ⟨hr.released hpc hd hnot, heldSince_run settings key as₁ hok₁ (by rw [hpc]; rfl)⟩

/-- An executor whose deadline has passed. -/
def cut : ProbeExecutor := ⟨fun _ _ => none, fun _ => true⟩

/-- A round that probes; 400 s later one that is cut before its probe, with one over the reserved
endpoint in between; and one that probes again. -/
def spacedRun : List Action :=
  roundOf 0 "E" 100 1 ++ [.tick 400000, .begin_ 1 (some "E") 100 2 ["a"], .advance 1 prompt,
    .advance 1 prompt] ++
    roundOf 2 "E" 100 3 ++ [.advance 1 cut, .advance 1 cut] ++ roundOf 0 "E" 100 4

theorem steady_of_slots (n : ℕ) {a : Action} (hidle : ∀ r, w.rounds (r + n) = .idle)
    (hbrief : ∀ r < n, ((w.rounds r).ongoing.all fun round =>
      decide (w.clock * 1000000 < round.now * 1000000 + interval settings)) = true)
    (hrevision : ∀ r etag fetchedUnix seq shortlist, a = .begin_ r etag fetchedUnix seq shortlist →
      probeRevisionKey etag fetchedUnix = key ∧ shortlist.Nodup) : w.Steady settings key a := by
  refine ⟨fun r round hround => ?_, hrevision⟩
  by_cases hr : r < n
  · have hcheck := hbrief r hr
    rw [hround, Option.all_some] at hcheck
    exact of_decide_eq_true hcheck
  · rw [← Nat.sub_add_cancel (not_lt.mp hr), hidle] at hround
    cases hround

instance (w : Probes) (a : Action) : Decidable (w.Lags a) :=
  match a with
  | .begin_ .. => isFalse nofun
  | .tick _ => isFalse nofun
  | .advance r executor =>
    match hpc : w.rounds r with
    | .plan round => decidable_of_iff (round.fetchedUnix < w.inner.fetchedUnix) (by
        constructor
        · exact fun hlt => ⟨r, executor, round, rfl, hpc, hlt⟩
        · rintro ⟨r', executor', round', ⟨⟩, hpc', hlt⟩
          cases hpc.symm.trans hpc'
          exact hlt)
    | .idle => isFalse fun ⟨_, _, _, ha, hpc', _⟩ => by cases ha; cases hpc.symm.trans hpc'
    | .note _ => isFalse fun ⟨_, _, _, ha, hpc', _⟩ => by cases ha; cases hpc.symm.trans hpc'
    | .execute .. => isFalse fun ⟨_, _, _, ha, hpc', _⟩ => by cases ha; cases hpc.symm.trans hpc'
    | .writeBack .. => isFalse fun ⟨_, _, _, ha, hpc', _⟩ => by cases ha; cases hpc.symm.trans hpc'

theorem spacedRun_steady :
    Machine.Along (step minuteProbes) (Steady minuteProbes ("E", 0)) initial spacedRun := by
  repeat' apply And.intro
  all_goals first
    | exact trivial
    | refine steady_of_slots 3 (fun _ => rfl) (by decide) fun r etag fetchedUnix seq shortlist ha => ?_
      cases ha <;> exact ⟨rfl, by decide⟩

theorem starts_are_spaced_spacedRun :
    (run minuteProbes spacedRun).2.Pairwise (Spaced minuteProbes) ∧
      ((run minuteProbes spacedRun).1.inner.state "a").map EndpointState.lastAttemptMs =
      some 400000 := by
  have hlag : Machine.Along (step minuteProbes) (fun w a => ¬ Lags w a) initial spacedRun := by
    decide
  exact ⟨(starts_are_spaced minuteProbes ("E", 0) spacedRun spacedRun_steady.at_step
    hlag.at_step).1, rfl⟩

/-- The catalog of revision `E` is fetched again unchanged while a round over its first fetch has
not planned yet. -/
def laggingRun : List Action :=
  [.begin_ 0 (some "E") 100 1 ["a"], .advance 0 prompt] ++ roundOf 1 "E" 200 2 ++
    [.advance 0 prompt, .advance 0 prompt]

theorem laggingRun_steady :
    Machine.Along (step minuteProbes) (Steady minuteProbes ("E", 0)) initial laggingRun := by
  repeat' apply And.intro
  all_goals first
    | exact trivial
    | refine steady_of_slots 2 (fun _ => rfl) (by decide) fun r etag fetchedUnix seq shortlist ha => ?_
      cases ha <;> exact ⟨rfl, by decide⟩

/-- **A lagging round probes an endpoint again at once**: both rounds hold revision `E`, and the one
that holds its first fetch is taken for stale and plans over an empty view. -/
theorem lagging_round_probes_again :
    (∀ as₁ a as₂, laggingRun = as₁ ++ a :: as₂ →
        (run minuteProbes as₁).1.Steady minuteProbes ("E", 0) a) ∧
      (run minuteProbes laggingRun).2[1]? = some (.started 1 ⟨some "E", 200, 2, ["a"], 0⟩ "a") ∧
      (run minuteProbes laggingRun).2[5]? = some (.started 0 ⟨some "E", 100, 1, ["a"], 0⟩ "a") ∧
      ¬ (run minuteProbes laggingRun).2.Pairwise (Spaced minuteProbes) := by
  refine ⟨laggingRun_steady.at_step, rfl, rfl, fun hpair => ?_⟩
  have hspaced := List.pairwise_iff_getElem.mp hpair 1 5 (by decide) (by decide) (by decide)
  have hfar := hspaced 1 ⟨some "E", 200, 2, ["a"], 0⟩ 0 ⟨some "E", 100, 1, ["a"], 0⟩ "a" rfl rfl
  revert hfar
  decide

end Probes

end ProtonWire
