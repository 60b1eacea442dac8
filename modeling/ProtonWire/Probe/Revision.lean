import ProtonWire.Probe.Round

/-!
# Revisions of the probe table

* `StepCase`, `step_case`: what a step of a round can do;
* `Measured`: where each observation was measured;
* **`observations_keep_their_revision`**: a table and a round's answer hold observations of one
  revision key only;
* `Outstrips`, **`older_round_is_stale`**: the order of the revisions, while the table's stamp is
  that of the newest catalog admitted.
-/

namespace ProtonWire

/-- The round a slot has planned, and its plan. -/
def RoundPc.inFlight : RoundPc → Option (Round × RoundPlan)
  | .execute round p => some (round, p)
  | .writeBack round p _ _ => some (round, p)
  | _ => none

namespace Probes

variable {settings : LatencyProbe} {w : Probes} {h : List ProbeEvent}

/-! ## What a step does -/

/-- What a step can do. -/
inductive StepCase (settings : LatencyProbe) (w : Probes) :
    Action → Probes × List ProbeEvent → Prop where
  | same (a : Action) : StepCase settings w a (w, [])
  | returns {a : Action} (r : ℕ) (round : Round) :
    StepCase settings w a (w, [.returned r round fun _ => none])
  | begins {r : ℕ} {etag : Option String} {fetchedUnix seq : ℕ} {shortlist : List String}
      (idle : w.rounds r = .idle) :
      StepCase settings w (.begin_ r etag fetchedUnix seq shortlist)
        (w.goto r (.note ⟨etag, fetchedUnix, seq, shortlist, w.clock⟩), [])
  | notes {r : ℕ} {round : Round} {executor : ProbeExecutor} (pc : w.rounds r = .note round) :
      StepCase settings w (.advance r executor)
        ({ w with active := noteActive w.active round.seq round.key }.goto r (.plan round), [])
  | plansStale {r : ℕ} {round : Round} {executor : ProbeExecutor} (pc : w.rounds r = .plan round)
      (stale : isStale w.inner w.active round = true) :
      StepCase settings w (.advance r executor)
        (w.goto r (.execute round ⟨fun _ => none,
          planRun round.shortlist (fun _ => none) settings.budget round.now, true⟩),
          [.planned r round true])
  | plans {r : ℕ} {round : Round} {executor : ProbeExecutor}
    (decisions : String → Option ProbeDecision)
      (pc : w.rounds r = .plan round) (fresh : isStale w.inner w.active round = false)
      (planned : decisions = planRun round.shortlist (reconcile w.inner round).state settings.budget
       round.now) :
      StepCase settings w (.advance r executor)
        ({ w with inner := { (reconcile w.inner round) with
            state := updateEach (reserveEntry decisions round.now) round.shortlist
              (reconcile w.inner round).state } }.goto r
          (.execute round ⟨(reconcile w.inner round).state, decisions, false⟩),
          [.planned r round false])
  | executes {r : ℕ} {round : Round} {plan : RoundPlan} (executor : ProbeExecutor) (run : ProbeRun)
      (pc : w.rounds r = .execute round plan)
      (ran : run = runPlanned round.shortlist plan.decisions plan.state executor
       settings.parallelism) :
      StepCase settings w (.advance r executor)
        (w.goto r (.writeBack round plan run w.clock),
         attemptEvents r round executor run.attempted 0)
  | writes {r : ℕ} {round : Round} {plan : RoundPlan} {run : ProbeRun} {answeredAt : ℕ}
      {executor : ProbeExecutor} (pc : w.rounds r = .writeBack round plan run answeredAt) :
      StepCase settings w (.advance r executor) (w.writeBackRound r round plan run answeredAt)
  | ticks (ms : ℕ) : StepCase settings w (.tick ms) ({ w with clock := w.clock + ms }, [])

theorem step_case (settings : LatencyProbe) (w : Probes) (a : Action) :
    StepCase settings w a (step settings w a) := by
  cases a with
  | begin_ r etag fetchedUnix seq shortlist =>
    unfold step
    dsimp only
    split
    · next hidle =>
      split_ifs
      · exact .returns r _
      · exact .begins hidle
    · exact .same _
  | advance r executor =>
    unfold step
    dsimp only
    split
    · exact .same _
    · next round hpc => exact .notes hpc
    · next round hpc =>
      unfold planRound
      split_ifs with hstale
      · exact .plansStale hpc hstale
      · exact .plans _ hpc (Bool.eq_false_iff.mpr hstale) rfl
    · next round plan hpc => exact .executes executor _ hpc rfl
    · next round plan run answeredAt hpc => exact .writes hpc
  | tick ms => exact .ticks ms

theorem rounds_goto (w : Probes) (r r' : ℕ) (pc : RoundPc) :
    (w.goto r pc).rounds r' = if r' = r then pc else w.rounds r' := by
  unfold goto
  exact Function.update_apply _ _ _ _

theorem run_snoc (settings : LatencyProbe) (as : List Action) (a : Action) :
    run settings (as ++ [a]) = ((step settings (run settings as).1 a).1,
      (run settings as).2 ++ (step settings (run settings as).1 a).2) :=
      Machine.run_snoc initial as a

/-! ## Provenance -/

/-- A round of the key measured the time. -/
def MeasuredUnder (h : List ProbeEvent) (key : RevisionKey) (endpoint : String)
    (rtt : Duration) : Prop :=
  ∃ r round, .answered r round endpoint rtt ∈ h ∧ round.key = key

/-- Every observation of a table was measured by a round of the key. -/
def StateMeasured (h : List ProbeEvent) (key : RevisionKey)
    (state : String → Option EndpointState) : Prop :=
  ∀ e observation, (state e).bind EndpointState.observation = some observation →
    MeasuredUnder h key e observation.rtt

/-- What a round past its planning knows. -/
structure PlanMeasured (h : List ProbeEvent) (round : Round) (plan : RoundPlan) : Prop where
  state : StateMeasured h round.key plan.state
  reused : ∀ e observation, plan.decisions e = some (.reuse observation) →
    (plan.state e).bind EndpointState.observation = some observation

/-- What is known about the observations a round holds. -/
def RoundMeasured (h : List ProbeEvent) : RoundPc → Prop
  | .execute round plan => PlanMeasured h round plan
  | .writeBack round plan run _ => PlanMeasured h round plan ∧
    ∀ e observation, run.observations e = some observation →
      MeasuredUnder h round.key e observation.rtt
  | _ => True

/-- The returned times were measured under the round's own key. -/
def ReturnMeasured (h : List ProbeEvent) : ProbeEvent → Prop
  | .returned _ round latency => ∀ e rtt, latency e = some rtt → MeasuredUnder h round.key e rtt
  | _ => True

/-- The provenance of every observation. -/
structure Measured (w : Probes) (h : List ProbeEvent) : Prop where
  table : ∀ key, w.inner.revision = some key → StateMeasured h key w.inner.state
  rounds : ∀ r, RoundMeasured h (w.rounds r)
  returned : ∀ e ∈ h, ReturnMeasured h e

section
variable {events : List ProbeEvent} {key : RevisionKey}

theorem MeasuredUnder.append {e : String} {rtt : Duration} (hm : MeasuredUnder h key e rtt) :
    MeasuredUnder (h ++ events) key e rtt := by
  obtain ⟨r, round, hmem, hkey⟩ := hm
  exact ⟨r, round, List.mem_append_left _ hmem, hkey⟩

theorem StateMeasured.append {state : String → Option EndpointState}
    (hm : StateMeasured h key state) :
    StateMeasured (h ++ events) key state := fun e observation hobs =>
    (hm e observation hobs).append

theorem RoundMeasured.append {pc : RoundPc} (hm : RoundMeasured h pc) :
    RoundMeasured (h ++ events) pc := by
  cases pc with
  | execute round plan => exact ⟨hm.state.append, hm.reused⟩
  | writeBack round plan run answeredAt =>
    exact ⟨⟨hm.1.state.append, hm.1.reused⟩, fun e observation hobs =>
      (hm.2 e observation hobs).append⟩
  | _ => trivial

theorem ReturnMeasured.append {e : ProbeEvent} (hm : ReturnMeasured h e) :
    ReturnMeasured (h ++ events) e := by
  cases e with
  | returned r round latency => exact fun e rtt hrtt => (hm e rtt hrtt).append
  | _ => trivial

/-- One round moves, with the table it leaves. -/
theorem Measured.goto {w' : Probes} {r : ℕ} {pc : RoundPc} (hm : w.Measured h)
    (hrounds : w'.rounds = w.rounds)
    (htable : ∀ key, w'.inner.revision = some key → StateMeasured (h ++ events) key w'.inner.state)
    (hpc : RoundMeasured (h ++ events) pc)
    (hevents : ∀ e ∈ events, ReturnMeasured (h ++ events) e) :
    (w'.goto r pc).Measured (h ++ events) where
  table := htable
  rounds r' := by
    rw [rounds_goto, hrounds]
    split_ifs
    · exact hpc
    · exact (hm.rounds r').append
  returned e he := by
    rcases List.mem_append.mp he with hold | hnew
    · exact (hm.returned e hold).append
    · exact hevents e hnew

end

/-! ## Every step keeps the provenance -/

theorem reserveEntry_observation (decisions : String → Option ProbeDecision) (now : ℕ) (e : String)
    (entry : Option EndpointState) :
    (reserveEntry decisions now e entry).bind EndpointState.observation =
      entry.bind EndpointState.observation := by
  unfold reserveEntry
  split_ifs
  · cases entry <;> rfl
  · rfl

theorem settleEntry_observation {plan : RoundPlan} {run : ProbeRun} {answeredAt : ℕ} {e : String}
    {entry : Option EndpointState} {observation : Observation}
    (h : (settleEntry plan run answeredAt e entry).bind EndpointState.observation =
     some observation) :
    entry.bind EndpointState.observation = some observation ∨
    run.observations e = some observation := by
  unfold settleEntry at h
  split_ifs at h
  · exact Or.inl h
  · cases hobs : run.observations e with
    | none =>
      rw [hobs] at h
      exact Or.inl h
    | some answer =>
      rw [hobs] at h
      exact Or.inr h
  · -- never attempted: the entry goes back to its prior clock, or goes
    cases hprior : plan.state e with
    | none =>
      rw [hprior] at h
      cases h
    | some prior =>
      rw [hprior] at h
      cases entry with
      | none => cases h
      | some entry => exact Or.inl h

theorem answered_mem_attemptEvents (r : ℕ) (round : Round) (executor : ProbeExecutor)
    (attempted : List String) (k n : ℕ) {e : String} {rtt : Duration} (hn : attempted[n]? = some e)
    (hprobe : executor.probe (k + n) e = some rtt) :
    .answered r round e rtt ∈ attemptEvents r round executor attempted k := by
  induction attempted generalizing k n with
  | nil => cases hn
  | cons endpoint rest ih =>
    unfold attemptEvents
    cases n with
    | zero =>
      obtain rfl : endpoint = e := Option.some.inj hn
      rw [show executor.probe k endpoint = some rtt from hprobe]
      simp
    | succ n =>
      refine List.mem_append_right _ (ih (k + 1) n hn ?_)
      rwa [show k + 1 + n = k + (n + 1) by omega]

theorem returnMeasured_attemptEvents (r : ℕ) (round : Round) (executor : ProbeExecutor)
    (attempted : List String) (k : ℕ) :
    ∀ e ∈ attemptEvents r round executor attempted k, ReturnMeasured h e := by
  induction attempted generalizing k with
  | nil => nofun
  | cons endpoint rest ih =>
    intro e he
    unfold attemptEvents at he
    rcases List.mem_append.mp he with hnow | hrest
    · split at hnow
      · rcases List.mem_pair.mp hnow with rfl | rfl <;> trivial
      · rw [List.mem_singleton.mp hnow]
        trivial
    · exact ih (k + 1) e hrest

@[simp] theorem reconcile_revision (inner : ProbeTableInner) (round : Round) :
    (reconcile inner round).revision = some round.key := by
  unfold reconcile
  split_ifs with hkey
  · rfl
  · exact not_not.mp hkey

/-- The table a round plans over was measured under its key. -/
theorem Measured.reconcile (hm : w.Measured h) (round : Round) :
    StateMeasured h round.key (reconcile w.inner round).state := by
  unfold ProtonWire.reconcile
  split_ifs with hkey
  · nofun
  · exact hm.table round.key (not_not.mp hkey)

theorem Measured.reserved {state : String → Option EndpointState} {key : RevisionKey}
    (hs : StateMeasured h key state) (decisions : String → Option ProbeDecision) (now : ℕ)
    (shortlist : List String) :
    StateMeasured h key (updateEach (reserveEntry decisions now) shortlist state) := by
  intro e observation hobs
  rw [reserved_apply] at hobs
  split_ifs at hobs
  · rw [reserveEntry_observation] at hobs
    exact hs e observation hobs
  · exact hs e observation hobs

theorem PlanMeasured.executed {round : Round} {plan : RoundPlan}
    (hp : PlanMeasured h round plan) (r : ℕ)
    (executor : ProbeExecutor) (run : ProbeRun) (parallelism : ℕ)
    (ran : run = runPlanned round.shortlist plan.decisions plan.state executor parallelism)
    (e : String) (observation : Observation) (hobs : run.observations e = some observation) :
    MeasuredUnder (h ++ attemptEvents r round executor run.attempted 0)
      round.key e observation.rtt := by
  subst ran
  rcases runPlanned_observed hobs with hd | ⟨-, hprior⟩ | ⟨-, n, hn, hprobe⟩
  · exact (hp.state e observation (hp.reused e observation hd)).append
  · exact (hp.state e observation hprior).append
  · refine ⟨r, round, List.mem_append_right _ (answered_mem_attemptEvents _ _ _ _ 0 n hn ?_), rfl⟩
    rwa [Nat.zero_add]

theorem Measured.step {a : Action} {o : Probes × List ProbeEvent} (hm : w.Measured h)
    (hcase : StepCase settings w a o) : o.1.Measured (h ++ o.2) := by
  have hkeep {events : List ProbeEvent} : ∀ key, w.inner.revision = some key →
      StateMeasured (h ++ events) key w.inner.state := fun key hkey => (hm.table key hkey).append
  cases hcase with
  | same =>
    rw [List.append_nil]
    exact hm
  | returns r round =>
    refine ⟨hkeep, fun r' => (hm.rounds r').append, fun e he => ?_⟩
    rcases List.mem_append.mp he with hold | hnew
    · exact (hm.returned e hold).append
    · rw [List.mem_singleton.mp hnew]
      nofun
  | begins idle => exact hm.goto rfl hkeep trivial nofun
  | notes pc => exact hm.goto rfl hkeep trivial nofun
  | plansStale pc stale =>
    refine hm.goto rfl hkeep ⟨nofun, fun e observation hd => planRun_reuse hd⟩ fun e he => ?_
    rw [List.mem_singleton.mp he]
    trivial
  | @plans r round executor decisions pc fresh planned =>
    refine hm.goto rfl (fun key hkey => ?_)
      ⟨(hm.reconcile round).append, fun e observation hd => planRun_reuse (planned ▸ hd)⟩
      fun e he => ?_
    · obtain rfl : round.key = key := Option.some.inj
        ((reconcile_revision w.inner round).symm.trans hkey)
      exact Measured.reserved (hm.reconcile round).append decisions round.now round.shortlist
    · rw [List.mem_singleton.mp he]
      trivial
  | @executes r round plan executor run pc ran =>
    have hp : PlanMeasured h round plan := by
      have := hm.rounds r
      rwa [pc] at this
    exact hm.goto rfl hkeep ⟨⟨hp.state.append, hp.reused⟩,
      hp.executed r executor run settings.parallelism ran⟩
      (returnMeasured_attemptEvents r round executor run.attempted 0)
  | @writes r round plan run answeredAt executor pc =>
    have hrun : PlanMeasured h round plan ∧ ∀ e observation, run.observations e = some observation →
        MeasuredUnder h round.key e observation.rtt := by
      have := hm.rounds r
      rwa [pc] at this
    refine hm.goto rfl (fun key hkey => ?_) trivial fun e he => ?_
    · dsimp only at hkey ⊢
      split_ifs at hkey ⊢ with hown
      · -- the table is still the round's own, so what it records is measured under the table's key
        obtain rfl : round.key = key := Option.some.inj (hown.2.symm.trans hkey)
        intro e observation hobs
        dsimp only at hobs
        rw [settled_apply] at hobs
        split_ifs at hobs
        · rcases settleEntry_observation hobs with hold | hnew
          · exact hkeep round.key hown.2 e observation hold
          · exact (hrun.2 e observation hnew).append
        · exact hkeep round.key hown.2 e observation hobs
      · exact hkeep key hkey
    · rw [List.mem_singleton.mp he]
      intro e rtt hrtt
      obtain ⟨observation, hobs, rfl⟩ := Option.map_eq_some_iff.mp hrtt
      exact (hrun.2 e observation hobs).append
  | ticks ms =>
    rw [List.append_nil]
    exact ⟨hm.table, hm.rounds, hm.returned⟩

theorem measured_run (settings : LatencyProbe) (actions : List Action) :
    (run settings actions).1.Measured (run settings actions).2 :=
  Machine.run_inv Measured (fun w _ a hw => hw.step (step_case settings w a)) initial []
    ⟨nofun, fun _ => trivial, nofun⟩ actions

/-- **Measurements keep their revision**, over every run: an observation of a table stamped with a
key was measured by a round of that key, and so was every time a round of that key returns. -/
theorem observations_keep_their_revision (settings : LatencyProbe) (actions : List Action) :
    (∀ key e entry observation, (run settings actions).1.inner.revision = some key →
        (run settings actions).1.inner.state e = some entry → entry.observation = some observation →
        MeasuredUnder (run settings actions).2 key e observation.rtt) ∧
      ∀ r round latency, .returned r round latency ∈ (run settings actions).2 →
        ∀ e rtt, latency e = some rtt → MeasuredUnder (run settings actions).2 round.key e rtt := by
  have hm := measured_run settings actions
  refine ⟨fun key e entry observation hkey hentry hobs => hm.table key hkey e observation ?_,
    fun r round latency hreturned => hm.returned _ hreturned⟩
  rw [hentry]
  exact hobs

/-! ## The order of the revisions -/

/-- A later plan of a catalog fetched before an admitted one is stale. -/
def Concedes (e e' : ProbeEvent) : Prop :=
  ∀ r admitted r' round stale, e = .planned r admitted false → e' = .planned r' round stale →
    round.fetchedUnix < admitted.fetchedUnix → stale = true

/-- The last plan of slot `r` is the round's. -/
def LastPlanned (h : List ProbeEvent) (r : ℕ) (round : Round) (stale : Bool) : Prop :=
  ∃ pre post, h = pre ++ .planned r round stale :: post ∧
    ∀ round' stale', .planned r round' stale' ∉ post

/-- Every planned round is the last its slot planned. -/
def Traced (w : Probes) (h : List ProbeEvent) : Prop :=
  ∀ r round plan, (w.rounds r).inFlight = some (round, plan) → LastPlanned h r round plan.stale

/-- The step admits, under the key the table carries, a catalog fetched after the table's stamp. -/
def Outstrips (w : Probes) (a : Action) : Prop :=
  ∃ r executor round, a = .advance r executor ∧ w.rounds r = .plan round ∧
    w.inner.revision = some round.key ∧ w.inner.fetchedUnix < round.fetchedUnix

instance (w : Probes) (a : Action) : Decidable (w.Outstrips a) :=
  match a with
  | .begin_ .. => isFalse nofun
  | .tick _ => isFalse nofun
  | .advance r executor =>
    match hpc : w.rounds r with
    | .plan round => decidable_of_iff
      (w.inner.revision = some round.key ∧ w.inner.fetchedUnix < round.fetchedUnix) (by
        constructor
        · exact fun hout => ⟨r, executor, round, rfl, hpc, hout⟩
        · rintro ⟨r', executor', round', ⟨⟩, hpc', hout⟩
          cases hpc.symm.trans hpc'
          exact hout)
    | .idle => isFalse fun ⟨_, _, _, ha, hpc', _⟩ => by cases ha; cases hpc.symm.trans hpc'
    | .note _ => isFalse fun ⟨_, _, _, ha, hpc', _⟩ => by cases ha; cases hpc.symm.trans hpc'
    | .execute .. => isFalse fun ⟨_, _, _, ha, hpc', _⟩ => by cases ha; cases hpc.symm.trans hpc'
    | .writeBack .. => isFalse fun ⟨_, _, _, ha, hpc', _⟩ => by cases ha; cases hpc.symm.trans hpc'

/-- The table's stamp is that of the newest catalog admitted. -/
structure Ordered (w : Probes) (h : List ProbeEvent) : Prop where
  stamp : ∀ r round, .planned r round false ∈ h → round.fetchedUnix ≤ w.inner.fetchedUnix
  concedes : h.Pairwise Concedes

/-- No round plans. -/
def Quiet (events : List ProbeEvent) : Prop := ∀ r round stale, .planned r round stale ∉ events

theorem quiet_attemptEvents (r : ℕ) (round : Round) (executor : ProbeExecutor)
    (attempted : List String) (k : ℕ) :
    Quiet (attemptEvents r round executor attempted k) := by
  induction attempted generalizing k with
  | nil => nofun
  | cons endpoint rest ih =>
    intro r' round' stale hmem
    unfold attemptEvents at hmem
    rcases List.mem_append.mp hmem with hnow | hrest
    · split at hnow
      · simp at hnow
      · simp at hnow
    · exact ih (k + 1) r' round' stale hrest

theorem quiet_writeBackRound (w : Probes) (r : ℕ) (round : Round) (plan : RoundPlan)
    (run : ProbeRun) (answeredAt : ℕ) : Quiet (w.writeBackRound r round plan run answeredAt).2 := by
  unfold writeBackRound
  simp [Quiet]

section
variable {events : List ProbeEvent}

theorem Quiet.concedes (hq : Quiet events) {e e' : ProbeEvent} (he' : e' ∈ events) :
    Concedes e e' := by
  rintro r admitted r' round stale - rfl
  exact absurd he' (hq r' round stale)

theorem Ordered.quiet {w' : Probes} (ho : w.Ordered h) (hq : Quiet events)
    (hstamp : w'.inner.fetchedUnix = w.inner.fetchedUnix) : w'.Ordered (h ++ events) where
  stamp r round hmem := by
    rw [hstamp]
    exact ho.stamp r round ((List.mem_append.mp hmem).resolve_right (hq r round false))
  concedes := List.pairwise_append.mpr ⟨ho.concedes,
    List.pairwise_of_forall_mem_list fun _ _ _ he' => hq.concedes he', fun _ _ _ he' =>
    hq.concedes he'⟩

theorem LastPlanned.append {r : ℕ} {round : Round} {stale : Bool} (hl : LastPlanned h r round stale)
    (hq : ∀ round' stale', .planned r round' stale' ∉ events) :
    LastPlanned (h ++ events) r round stale := by
  obtain ⟨pre, post, rfl, hpost⟩ := hl
  refine ⟨pre,
    post ++ events, by rw [List.append_assoc, List.cons_append], fun round' stale' hmem => ?_⟩
  exact (List.mem_append.mp hmem).elim (hpost round' stale') (hq round' stale')

/-- One slot moves, and no other slot plans. -/
theorem Traced.goto {w' : Probes} {r : ℕ} {pc : RoundPc} (ht : w.Traced h)
    (hrounds : w'.rounds = w.rounds)
    (hothers : ∀ r' round stale, r' ≠ r → .planned r' round stale ∉ events)
    (hpc : ∀ round plan, pc.inFlight = some (round, plan) →
     LastPlanned (h ++ events) r round plan.stale) :
    (w'.goto r pc).Traced (h ++ events) := by
  intro r' round plan hround
  rw [rounds_goto, hrounds] at hround
  split_ifs at hround with heq
  · rw [heq]
    exact hpc round plan hround
  · exact (ht r' round plan hround).append fun round' stale' => hothers r' round' stale' heq

end

theorem Traced.step {a : Action} {o : Probes × List ProbeEvent} (ht : w.Traced h)
    (hcase : StepCase settings w a o) : o.1.Traced (h ++ o.2) := by
  have hself : ∀ r round stale, LastPlanned (h ++ [.planned r round stale]) r round stale :=
    fun r round stale => ⟨h, [], rfl, nofun⟩
  cases hcase with
  | same => rwa [List.append_nil]
  | returns r round => exact fun r' round' plan hpc => (ht r' round' plan hpc).append (by simp)
  | begins idle => exact ht.goto rfl (by simp) nofun
  | notes pc => exact ht.goto rfl (by simp) nofun
  | plansStale pc stale =>
    refine ht.goto rfl (fun r' round stale hne => by simp [hne]) fun round plan hpc => ?_
    obtain ⟨rfl, rfl⟩ := Prod.mk.inj (Option.some.inj hpc)
    exact hself _ _ _
  | plans decisions pc fresh planned =>
    refine ht.goto rfl (fun r' round stale hne => by simp [hne]) fun round plan hpc => ?_
    obtain ⟨rfl, rfl⟩ := Prod.mk.inj (Option.some.inj hpc)
    exact hself _ _ _
  | @executes r round plan executor run pc ran =>
    have hq := quiet_attemptEvents r round executor run.attempted 0
    refine ht.goto rfl (fun r' round' stale' _ => hq r' round' stale') fun round' plan' hpc => ?_
    refine (ht r round' plan' ?_).append (hq r)
    rw [pc]
    exact hpc
  | writes pc =>
    exact ht.goto rfl (fun r' round stale _ =>
      quiet_writeBackRound w _ _ _ _ _ r' round stale) nofun
  | ticks ms => rwa [List.append_nil]

theorem reconcile_fetchedUnix {round : Round} (hfresh : isStale w.inner w.active round = false)
    (hno : w.inner.revision = some round.key → round.fetchedUnix ≤ w.inner.fetchedUnix) :
    w.inner.fetchedUnix ≤ round.fetchedUnix ∧ (reconcile w.inner round).fetchedUnix =
    round.fetchedUnix := by
  unfold isStale at hfresh
  have hle : w.inner.fetchedUnix ≤ round.fetchedUnix := by
    simpa using (Bool.or_eq_false_iff.mp hfresh).1
  refine ⟨hle, ?_⟩
  unfold reconcile
  split_ifs with hkey
  · rfl
  · exact le_antisymm hle (hno (not_not.mp hkey))

theorem Ordered.step {a : Action} {o : Probes × List ProbeEvent} (ho : w.Ordered h)
    (hno : ¬ w.Outstrips a) (hcase : StepCase settings w a o) : o.1.Ordered (h ++ o.2) := by
  cases hcase with
  | same => exact ho.quiet nofun rfl
  | returns r round => exact ho.quiet (by simp [Quiet]) rfl
  | begins idle => exact ho.quiet nofun rfl
  | notes pc => exact ho.quiet nofun rfl
  | @plansStale r round executor pc stale =>
    refine ⟨fun r' round' hmem => ho.stamp r' round' (by simpa using hmem),
      List.pairwise_append.mpr ⟨ho.concedes, List.pairwise_singleton _ _, fun e _ e' he' => ?_⟩⟩
    rw [List.mem_singleton.mp he']
    rintro r₁ admitted r₂ round' stale' - ⟨⟩ -
    rfl
  | @plans r round executor decisions pc fresh planned =>
    obtain ⟨hle, hstamp⟩ := reconcile_fetchedUnix fresh fun hkey =>
      not_lt.mp fun hlt => hno ⟨r, executor, round, rfl, pc, hkey, hlt⟩
    -- the stamp rises to the round's own
    have hadmitted : ∀ r' round', .planned r' round' false ∈ h →
      round'.fetchedUnix ≤ round.fetchedUnix :=
      fun r' round' hmem => (ho.stamp r' round' hmem).trans hle
    refine ⟨fun r' round' hmem => ?_,
      List.pairwise_append.mpr ⟨ho.concedes, List.pairwise_singleton _ _, fun e he e' he' => ?_⟩⟩
    · refine le_of_le_of_eq ?_ hstamp.symm
      rcases List.mem_append.mp hmem with hold | hnew
      · exact hadmitted r' round' hold
      · cases List.mem_singleton.mp hnew
        exact le_rfl
    · rw [List.mem_singleton.mp he']
      rintro r₁ admitted r₂ round' stale' rfl ⟨⟩ hlt
      exact absurd (hadmitted r₁ admitted he) (not_le.mpr hlt)
  | @executes r round plan executor run pc ran =>
    exact ho.quiet (quiet_attemptEvents r round executor run.attempted 0) rfl
  | @writes r round plan run answeredAt executor pc =>
    refine ho.quiet (quiet_writeBackRound w r round plan run answeredAt) ?_
    show (if _ then _ else _ : ProbeTableInner).fetchedUnix = _
    split_ifs <;> rfl
  | ticks ms => exact ho.quiet nofun rfl

/-- Only a round planned as current touches the table. -/
theorem StepCase.touches {a : Action} {o : Probes × List ProbeEvent} (ht : w.Traced h)
    (hcase : StepCase settings w a o) (htouch : o.1.inner ≠ w.inner) :
    ∃ r executor round, a = .advance r executor ∧ LastPlanned (h ++ o.2) r round false := by
  cases hcase with
  | same => exact absurd rfl htouch
  | returns r round => exact absurd rfl htouch
  | begins idle => exact absurd rfl htouch
  | notes pc => exact absurd rfl htouch
  | plansStale pc stale => exact absurd rfl htouch
  | @plans r round executor decisions pc fresh planned =>
    exact ⟨r, executor, round, rfl, h, [], rfl, nofun⟩
  | executes executor run pc ran => exact absurd rfl htouch
  | @writes r round plan run answeredAt executor pc =>
    have hcurrent : plan.stale = false := by
      by_contra hstale
      refine htouch (if_neg fun hown => hstale hown.1)
    have hlast := ht r round plan (by rw [pc]; rfl)
    rw [hcurrent] at hlast
    exact ⟨r, executor, round, rfl, hlast.append
      (quiet_writeBackRound w r round plan run answeredAt r)⟩
  | ticks ms => exact absurd rfl htouch

theorem traced_run (settings : LatencyProbe) (actions : List Action) :
    (run settings actions).1.Traced (run settings actions).2 :=
  Machine.run_inv Traced (fun w _ a hw => hw.step (step_case settings w a)) initial [] nofun actions

/-- **A round of an older catalog is stale**, while every round admitted under the key the table
carries holds a catalog fetched no later than the table's stamp; and a step that changes the table
is of a round that was planned as current. -/
theorem older_round_is_stale (settings : LatencyProbe) (actions : List Action)
    (hno : ∀ as₁ a as₂, actions = as₁ ++ a :: as₂ → ¬ (run settings as₁).1.Outstrips a) :
    (run settings actions).2.Pairwise Concedes ∧
      ∀ as₁ a as₂, actions = as₁ ++ a :: as₂ →
        (run settings (as₁ ++ [a])).1.inner ≠ (run settings as₁).1.inner →
        ∃ r executor round, a = .advance r executor ∧
          LastPlanned (run settings (as₁ ++ [a])).2 r round false := by
  constructor
  · exact (Machine.run_inv_of_steps (fun w a => ¬ Outstrips w a) Ordered
      (fun w _ a hno hw => hw.step hno (step_case settings w a)) initial ⟨nofun,
       .nil⟩ actions hno).concedes
  · intro as₁ a as₂ _ htouch
    rw [run_snoc] at htouch ⊢
    exact (step_case settings (run settings as₁).1 a).touches (traced_run settings as₁) htouch

/-- Probing enabled, one probe at a time, a minute between two probes of an endpoint. -/
def minuteProbes : LatencyProbe := ⟨true, 1, 20, ⟨60, 0, by decide⟩, ⟨300, 0, by decide⟩⟩

/-- An executor that answers every probe after 5 ms. -/
def prompt : ProbeExecutor := ⟨fun _ _ => some (.ofMillis 5), fun _ => false⟩

/-- The five steps of a round over one endpoint. -/
def roundOf (r : ℕ) (etag : String) (fetchedUnix seq : ℕ) : List Action :=
  [.begin_ r (some etag) fetchedUnix seq ["a"], .advance r prompt, .advance r prompt,
   .advance r prompt, .advance r prompt]

/-- A round of revision `E`, a newer one of revision `X`, and an older one of `E`. -/
def orderedRun : List Action := roundOf 0 "E" 100 1 ++ roundOf 1 "X" 200 2 ++ roundOf 2 "E" 150 3

theorem older_round_is_stale_orderedRun :
    (run minuteProbes orderedRun).2.Pairwise Concedes ∧
      (run minuteProbes orderedRun).1.inner.revision = some ("X", 0) := by
  refine ⟨(older_round_is_stale minuteProbes orderedRun ?_).1, rfl⟩
  have hno : Machine.Along (step minuteProbes) (fun w a => ¬ Outstrips w a) initial orderedRun := by
    decide
  exact hno.at_step

/-- The catalog of revision `E` is fetched again unchanged, and a catalog of `X` fetched in between
arrives late. -/
def restampedRun : List Action := roundOf 0 "E" 100 1 ++ roundOf 1 "E" 200 3 ++ roundOf 2 "X" 150 2

/-- **An older catalog wipes the table of a newer one**: the table keeps the stamp `100` of the
first round of `E`, so the round of `X`, fetched at `150`, is admitted after the one fetched at
`200`. -/
theorem older_round_is_admitted :
    (run minuteProbes restampedRun).2[4]? = some (.planned 1 ⟨some "E", 200, 3, ["a"], 0⟩ false) ∧
      (run minuteProbes restampedRun).2[6]? = some (.planned 2 ⟨some "X", 150, 2, ["a"], 0⟩ false) ∧
      ¬ (run minuteProbes restampedRun).2.Pairwise Concedes ∧
      (run minuteProbes restampedRun).1.inner.revision = some ("X", 0) := by
  refine ⟨rfl, rfl, fun hpair => ?_, rfl⟩
  have hconcedes := List.pairwise_iff_getElem.mp hpair 4 6 (by decide) (by decide) (by decide)
  cases hconcedes 1 ⟨some "E", 200, 3, ["a"], 0⟩ 2 ⟨some "X", 150, 2, ["a"], 0⟩ false rfl rfl
    (by decide)

end Probes

end ProtonWire
