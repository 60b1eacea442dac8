import ProtonWire.Lib.Runs
import ProtonWire.Probe.Plan

/-!
# Probe rounds over one table

`apps/daemon/src/selection.rs`: `ProbeTable` and `probe_round`, as an interleaving of rounds. A step
of a round is one section under the table's lock, one access to the active watermark, or its
unlocked execution. The planning clock is a reading that only moves forward. A catalog is its etag,
the time it was fetched and the sequence number of its read; which shortlist a round gets, what the
executor answers and where the deadline cuts the run are the choice of the environment.

* `ProbeTableInner`, `Probes`: the shared state;
* `RoundPc`: where a round is;
* `Probes.step`: one step, and the events it emits.
-/

namespace ProtonWire

/-- The revision a table's observations belong to. -/
abbrev RevisionKey := String × ℕ

/-- The revision key of a loaded catalog. -/
def probeRevisionKey (etag : Option String) (fetchedUnix : ℕ) : RevisionKey :=
  match etag with
  | some etag => (etag, 0)
  | none => ("", fetchedUnix)

/-- The probe table, under its lock. -/
structure ProbeTableInner where
  revision : Option RevisionKey := none
  fetchedUnix : ℕ := 0
  state : String → Option EndpointState := fun _ => none

/-- What a round holds: its catalog, its shortlist and its planning reading. -/
structure Round where
  etag : Option String
  fetchedUnix : ℕ
  seq : ℕ
  shortlist : List String
  now : ℕ

/-- The round's revision key. -/
def Round.key (round : Round) : RevisionKey := probeRevisionKey round.etag round.fetchedUnix

/-- What a round planned: the table's snapshot, the decisions, and whether it was stale. -/
structure RoundPlan where
  state : String → Option EndpointState
  decisions : String → Option ProbeDecision
  stale : Bool

/-- Where a round is. -/
inductive RoundPc where
  | idle
  | note (round : Round)
  | plan (round : Round)
  | execute (round : Round) (plan : RoundPlan)
  | writeBack (round : Round) (plan : RoundPlan) (run : ProbeRun) (answeredAt : ℕ)

/-- The table, the active watermark with its read sequence, the clock and the rounds. -/
structure Probes where
  active : Option (ℕ × RevisionKey)
  inner : ProbeTableInner
  clock : ℕ
  rounds : ℕ → RoundPc

/-- What a round did. -/
inductive ProbeEvent where
  | planned (r : ℕ) (round : Round) (stale : Bool)
  | started (r : ℕ) (round : Round) (endpoint : String)
  | answered (r : ℕ) (round : Round) (endpoint : String) (rtt : Duration)
  | returned (r : ℕ) (round : Round) (latency : String → Option Duration)

/-- The settings of the rounds. -/
structure LatencyProbe where
  enabled : Bool
  parallelism : ℕ
  budget : ProbeBudget

/-! ## Reconciling and planning -/

/-- `note_active`: a note of an earlier read loses to a later one. -/
def noteActive (active : Option (ℕ × RevisionKey)) (seq : ℕ) (key : RevisionKey) :
    Option (ℕ × RevisionKey) :=
  match active with
  | none => some (seq, key)
  | some seen => if seen.1 ≤ seq then some (seq, key) else some seen

/-- The table is stamped under a newer catalog, or ties with one whose key is not the active one. -/
def isStale (inner : ProbeTableInner) (active : Option (ℕ × RevisionKey)) (round : Round) : Bool :=
  decide (round.fetchedUnix < inner.fetchedUnix) ||
    (decide (inner.fetchedUnix = round.fetchedUnix) && inner.revision.any (· ≠ round.key) &&
      !decide (active.map Prod.snd = some round.key))

/-- A changed revision clears the table. -/
def reconcile (inner : ProbeTableInner) (round : Round) : ProbeTableInner :=
  if inner.revision ≠ some round.key then ⟨some round.key, round.fetchedUnix, fun _ => none⟩
  else inner

/-- Update the entry of each endpoint of a list. -/
def updateEach (f : String → Option EndpointState → Option EndpointState) :
    List String → (String → Option EndpointState) → String → Option EndpointState
  | [], state => state
  | endpoint :: rest, state => updateEach f rest
    (Function.update state endpoint (f endpoint (state endpoint)))

/-- The reservation: the attempt clock of an endpoint planned for a probe. -/
def reserveEntry (decisions : String → Option ProbeDecision) (now : ℕ) (endpoint : String)
    (entry : Option EndpointState) : Option EndpointState :=
  if decisions endpoint = some .probe then some { entry.getD {} with lastAttemptMs := now }
  else entry

/-- The write-back of one endpoint: a reservation never used is released, an answer is recorded. -/
def settleEntry (plan : RoundPlan) (run : ProbeRun) (answeredAt : ℕ) (endpoint : String)
    (entry : Option EndpointState) : Option EndpointState :=
  if plan.decisions endpoint ≠ some .probe then entry
  else if endpoint ∉ run.attempted then
    match plan.state endpoint with
    | some prior => entry.map fun entry => { entry with lastAttemptMs := prior.lastAttemptMs }
    | none => none
  else
    match run.observations endpoint with
    | some observation => some { entry.getD {} with
      observation := some observation, observedAtMs := answeredAt }
    | none => entry

/-! ## Steps -/

namespace Probes

/-- Round `r` goes on at `pc`. -/
def goto (w : Probes) (r : ℕ) (pc : RoundPc) : Probes :=
  { w with rounds := Function.update w.rounds r pc }

/-- The planning section: a stale round plans over an empty view, any other reconciles the table,
plans over it and reserves. -/
def planRound (settings : LatencyProbe) (w : Probes) (r : ℕ) (round : Round) :
    Probes × List ProbeEvent :=
  if isStale w.inner w.active round then
    let decisions := planRun round.shortlist (fun _ => none) settings.budget round.now
    (w.goto r (.execute round ⟨fun _ => none, decisions, true⟩), [.planned r round true])
  else
    let inner := reconcile w.inner round
    let decisions := planRun round.shortlist inner.state settings.budget round.now
    let reserved := updateEach (reserveEntry decisions round.now) round.shortlist inner.state
    ({ w with inner := { inner with state := reserved } }.goto r
     (.execute round ⟨inner.state, decisions, false⟩),
      [.planned r round false])

/-- The `n`-th attempt and what it answered. -/
def attemptEvents (r : ℕ) (round : Round) (executor : ProbeExecutor) : List String → ℕ →
    List ProbeEvent
  | [], _ => []
  | endpoint :: rest, n =>
    (match executor.probe n endpoint with
      | some rtt => [.started r round endpoint, .answered r round endpoint rtt]
      | none => [.started r round endpoint]) ++ attemptEvents r round executor rest (n + 1)

/-- The unlocked execution, up to the reading of the answer time. -/
def executeRound (settings : LatencyProbe) (w : Probes) (r : ℕ) (round : Round) (plan : RoundPlan)
    (executor : ProbeExecutor) : Probes × List ProbeEvent :=
  let run := runPlanned round.shortlist plan.decisions plan.state executor settings.parallelism
  (w.goto r (.writeBack round plan run w.clock), attemptEvents r round executor run.attempted 0)

/-- The write-back section: dropped by a stale round, and when the table is another revision's. -/
def writeBackRound (w : Probes) (r : ℕ) (round : Round) (plan : RoundPlan) (run : ProbeRun)
    (answeredAt : ℕ) :
    Probes × List ProbeEvent :=
  let inner := if plan.stale = false ∧ w.inner.revision = some round.key then
      { w.inner with
        state := updateEach (settleEntry plan run answeredAt) round.shortlist w.inner.state }
    else w.inner
  ({ w with inner := inner }.goto r .idle,
    [.returned r round fun id => (run.observations id).map Observation.rtt])

/-- The choices of the environment. -/
inductive Action where
  /-- A request starts a round over its catalog. -/
  | begin_ (r : ℕ) (etag : Option String) (fetchedUnix seq : ℕ) (shortlist : List String)
  | advance (r : ℕ) (executor : ProbeExecutor)
  | tick (ms : ℕ)

/-- One step. A round with probing disabled or nothing to probe returns at once. -/
def step (settings : LatencyProbe) (w : Probes) : Action → Probes × List ProbeEvent
  | .begin_ r etag fetchedUnix seq shortlist =>
    match w.rounds r with
    | .idle =>
      let round : Round := ⟨etag, fetchedUnix, seq, shortlist, w.clock⟩
      if settings.enabled = false ∨ shortlist = [] then (w, [.returned r round fun _ => none])
      else (w.goto r (.note round), [])
    | _ => (w, [])
  | .advance r executor =>
    match w.rounds r with
    | .idle => (w, [])
    | .note round => ({ w with active := noteActive w.active round.seq round.key }.goto r
      (.plan round), [])
    | .plan round => w.planRound settings r round
    | .execute round plan => w.executeRound settings r round plan executor
    | .writeBack round plan run answeredAt => w.writeBackRound r round plan run answeredAt
  | .tick ms => ({ w with clock := w.clock + ms }, [])

/-- An empty table and no round. -/
def initial : Probes := ⟨none, {}, 0, fun _ => .idle⟩

/-- A run from the start. -/
def run (settings : LatencyProbe) (actions : List Action) : Probes × List ProbeEvent :=
  Machine.run (step settings) initial actions

end Probes

/-! ## Updates of a table -/

theorem updateEach_apply {f : String → Option EndpointState → Option EndpointState}
    (hf : ∀ e s, f e (f e s) = f e s) (list : List String) (state : String → Option EndpointState)
    (e : String) :
    updateEach f list state e = if e ∈ list then f e (state e) else state e := by
  induction list generalizing state with
  | nil => rfl
  | cons endpoint rest ih =>
    unfold updateEach
    rw [ih, Function.update_apply]
    by_cases heq : e = endpoint
    · rw [if_pos heq, ← heq, hf, ite_self, if_pos List.mem_cons_self]
    · rw [if_neg heq]
      simp only [List.mem_cons, heq, false_or]

theorem reserveEntry_idem (decisions : String → Option ProbeDecision) (now : ℕ) (e : String)
    (s : Option EndpointState) :
    reserveEntry decisions now e (reserveEntry decisions now e s) =
    reserveEntry decisions now e s := by
  unfold reserveEntry
  split_ifs <;> rfl

theorem settleEntry_idem (plan : RoundPlan) (run : ProbeRun) (answeredAt : ℕ) (e : String)
    (s : Option EndpointState) :
    settleEntry plan run answeredAt e (settleEntry plan run answeredAt e s) =
      settleEntry plan run answeredAt e s := by
  unfold settleEntry
  by_cases hd : plan.decisions e = some .probe
  · rw [if_neg (not_not.mpr hd), if_neg (not_not.mpr hd)]
    by_cases ha : e ∈ run.attempted
    · rw [if_neg (not_not.mpr ha), if_neg (not_not.mpr ha)]
      cases run.observations e <;> rfl
    · rw [if_pos ha, if_pos ha]
      cases plan.state e with
      | none => rfl
      | some prior => cases s <;> rfl
  · rw [if_pos hd]

/-- The table after a reservation. -/
theorem reserved_apply (decisions : String → Option ProbeDecision) (now : ℕ)
    (shortlist : List String) (state : String → Option EndpointState) (e : String) :
    updateEach (reserveEntry decisions now) shortlist state e =
      if e ∈ shortlist then reserveEntry decisions now e (state e) else state e :=
  updateEach_apply (reserveEntry_idem decisions now) shortlist state e

theorem settled_apply (plan : RoundPlan) (run : ProbeRun) (answeredAt : ℕ) (shortlist : List String)
    (state : String → Option EndpointState) (e : String) :
    updateEach (settleEntry plan run answeredAt) shortlist state e =
      if e ∈ shortlist then settleEntry plan run answeredAt e (state e) else state e :=
  updateEach_apply (settleEntry_idem plan run answeredAt) shortlist state e

end ProtonWire
