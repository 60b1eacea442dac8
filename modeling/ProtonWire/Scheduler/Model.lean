import ProtonWire.Lib.Runs
import ProtonWire.Scheduler.Policy

/-!
# The single-flight scheduler

`crates/core/src/scheduler.rs`, as a machine of lock-protected sections. A step is one critical
section of one caller (the door, the wake-up of a joiner, the completion of a lead), the invocation
of the fetch between two of them, a boot, or a crash. Every choice of the environment is part of the
action: the schedule, the clock readings, the generator's bytes, the upstream's answer and the error
every file operation runs into.

* A crash happens between two steps. One inside a section leaves on disk what the section's
  remaining saves, had they failed, would have left: nobody sees the memory of the dying process.
* A caller is one call; callers are numbered and there is always a fresh one.
* Events and the fields `Admission`, `Process.published` and `entry` are history: no decision of the
  code reads them.

`observeNow`, `refreshAutomatic`, `refreshManual`, `ceremony`, `mintRequirement`, `leadStart` and
`leadFinish` (the two locked halves of `lead_refresh`), `adoptFetchedRevision`, `production`,
`step`.
-/

namespace ProtonWire

open U64

/-! ## Readings, fetches and reports -/

/-- The two clocks, read together. -/
structure Reading where
  wall : ℕ
  mono : ℕ
  deriving DecidableEq

/-- The success side of one conditional fetch. -/
inductive FetchOutcome where
  | changed (etag : Option String) (body : ByteArray)
  | notModified
  deriving DecidableEq

/-- The failure classification the pacing policy consumes. -/
inductive FetchFailure where
  | rateLimited (retryAfterSeconds : Option ℕ)
  | transport (message : String)
  | persistence (message : String)
  deriving DecidableEq

/-- What one completed refresh did. -/
inductive RefreshOutcome where
  | changed (etag : Option String) (body : ByteArray)
  | notModified
  | rateLimited (retryAfterSeconds : Option ℕ)
  | failed (reason : String)
  deriving DecidableEq

/-- The report every refresh caller receives. -/
structure RefreshReport where
  outcome : RefreshOutcome
  coalesced : Bool
  nextEligibleUnix : ℕ
  suppressionUntilUnix : Option ℕ
  deriving DecidableEq

/-- The result of the automatic door. -/
inductive AutomaticOutcome where
  | due (report : RefreshReport)
  | notDue (nextEligibleUnix : ℕ)
  deriving DecidableEq

/-- What an early manual caller must confirm. -/
structure ConfirmationRequirement where
  catalogAgeSeconds : ℕ
  lastRequestUnix : Option ℕ
  nextEligibleUnix : ℕ
  warning : String
  confirmationToken : String
  deriving DecidableEq

/-- The result of the manual door. -/
inductive ManualOutcome where
  | refreshed (report : RefreshReport)
  | confirmationRequired (requirement : ConfirmationRequirement)
  | suppressed (untilUnix : ℕ)
  | unavailable
  deriving DecidableEq

/-- The result of a call through either door. -/
inductive CallOutcome where
  | automatic (outcome : AutomaticOutcome)
  | manual (outcome : ManualOutcome)
  deriving DecidableEq

/-- Which door a call uses; a manual call may present a token. -/
inductive Door where
  | automatic
  | manual (token : Option String)
  deriving DecidableEq

/-- A door's result that carries a report. -/
def Door.refreshed : Door → RefreshReport → CallOutcome
  | automatic, report => .automatic (.due report)
  | manual _, report => .manual (.refreshed report)

/-- The result of a caller that joined a refresh: its report, marked as coalesced. -/
def Door.joined (door : Door) (report : RefreshReport) : CallOutcome :=
  door.refreshed { report with coalesced := true }

/-! ## The state behind the lock -/

/-- A minted, not yet redeemed confirmation token. -/
structure PendingToken where
  value : String
  expiresUnix : ℕ
  deriving DecidableEq

/-- Live rollback tracking. -/
structure RollbackTracker where
  lastWallSeen : ℕ
  lastMonoSeen : ℕ
  detected : Bool
  deriving DecidableEq

/-- The wired catalog cache's current document. -/
structure CacheState where
  current : Option CachedCatalog
  deriving DecidableEq

/-- The state the scheduler's mutex protects. -/
structure Inner where
  persisted : SchedulerDeadlines
  etag : Option String
  generation : ℕ
  inFlight : Option ℕ
  completed : Option (ℕ × RefreshReport)
  token : Option PendingToken
  rollback : RollbackTracker
  cache : Option CacheState
  persistenceHealthy : Bool
  deriving DecidableEq

/-- What the door saw when it let a call lead: the generation found in flight on entry, the
effective reading, the eligibility compared against it, and the token it accepted. -/
structure Admission where
  door : Door
  entry : Option ℕ
  effective : ℕ
  nextEligible : Option ℕ
  redeemed : Option String
  deriving DecidableEq

/-- The local variables of `lead_refresh` across the fetch. -/
structure Lead where
  admission : Admission
  generation : ℕ
  started : ℕ
  etag : Option String
  anchored : Bool
  deriving DecidableEq

/-- What happens in a run, as seen from outside the process. -/
inductive Event where
  | booted
  | crashed
  | saved (doc : SchedulerDeadlines)
  | minted (value : String) (effective : ℕ)
  | mintFailed
  | contact (caller : ℕ) (lead : Lead)
  | fetched (lead : Lead) (interval : ℕ) (answer : Except FetchFailure FetchOutcome) (finished : ℕ)

/-- What a critical section works on: the locked state, the two files, the events it emits. -/
structure Section where
  inner : Inner
  deadlines : Option SchedulerDeadlines
  servers : Option CachedCatalog
  events : List Event

/-- What a door decides: lead a refresh, or answer at once. -/
inductive Verdict where
  | lead (lead : Lead)
  | answer (outcome : CallOutcome)

/-- The environment of a section that may pass a door. -/
structure DoorEnv where
  now : Reading
  mint : Option (Vector UInt8 32)
  gateFault : Option DeadlineStoreError
  start : Reading
  anchorFault : Option DeadlineStoreError

/-- The environment of a lead's completion; an `answer` of `none` is a panicking fetch. -/
structure FinishEnv where
  answer : Option (Except FetchFailure FetchOutcome)
  now : Reading
  rolls : List ℕ
  cacheFault : Option CatalogCacheError
  saveFault : Option DeadlineStoreError

/-! ## Observing the clock, saving -/

/-- The high-water-clamped wall reading. -/
def Inner.effective (inner : Inner) (reading : Reading) : ℕ :=
  max reading.wall inner.persisted.wallHighWaterUnix

/-- The rollback tracker after a reading. -/
def RollbackTracker.track (t : RollbackTracker) (reading : Reading) : RollbackTracker where
  lastWallSeen := max t.lastWallSeen reading.wall
  lastMonoSeen := max t.lastMonoSeen reading.mono
  detected := t.detected || wallRolledBack t.lastWallSeen t.lastMonoSeen reading.wall reading.mono

/-- Reads both clocks: the effective time, and the state with the tracker updated. -/
def observeNow (reading : Reading) (inner : Inner) : ℕ × Inner :=
  (inner.effective reading, { inner with rollback := inner.rollback.track reading })

/-- Saves the in-memory deadlines; `true` when the save succeeded. -/
def Section.save (σ : Section) (fault : Option DeadlineStoreError) : Bool × Section :=
  match DeadlineStore.save σ.inner.persisted fault with
  | .ok doc => (true, { σ with deadlines := some doc, events := σ.events ++ [.saved doc] })
  | .error _ => (false, σ)

/-- The section with the health flag set. -/
def Section.setHealthy (σ : Section) (healthy : Bool) : Section :=
  { σ with inner := { σ.inner with persistenceHealthy := healthy } }

/-! ## `lead_refresh`, up to the fetch -/

/-- The persistence-health gate: while the store is unhealthy, retry a bare save first. -/
def persistenceGate (σ : Section) (fault : Option DeadlineStoreError) : Bool × Section :=
  if σ.inner.persistenceHealthy then (true, σ)
  else match σ.save fault with
    | (true, σ) => (true, σ.setHealthy true)
    | (false, σ) => (false, σ)

/-- The pre-fetch save of the anchored deadlines. -/
def anchorSave (σ : Section) (cleared : Bool) (fault : Option DeadlineStoreError) :
    Bool × Section :=
  if cleared then
    match σ.save fault with
    | (true, σ) => (true, σ)
    | (false, σ) => (false, σ.setHealthy false)
  else (false, σ)

/-- The deadlines with the request anchored at `started`. -/
def anchorDeadlines (d : SchedulerDeadlines) (started : ℕ) : SchedulerDeadlines :=
  { d with
    lastRequestUnix := some started
    wallHighWaterUnix := max d.wallHighWaterUnix started }

/-- The first locked half of `lead_refresh`: take the generation, clear the gate, anchor the
request, and drop the lock. -/
def leadStart (config : SchedulerConfig) (env : DoorEnv) (admission : Admission) (σ : Section) :
    Lead × Section :=
  let generation := σ.inner.generation + 1
  let σ := { σ with
    inner := { σ.inner with generation := generation, inFlight := some generation } }
  let gate := persistenceGate σ env.gateFault
  let σ := gate.2
  let observed := observeNow env.start σ.inner
  let started := observed.1
  let inner := { observed.2 with persisted := anchorDeadlines observed.2.persisted started }
  let etag := if config.conditionalRequests then inner.etag else none
  let anchor := anchorSave { σ with inner := inner } gate.1 env.anchorFault
  (⟨admission, generation, started, etag, anchor.1⟩, anchor.2)

/-! ## The doors -/

/-- The deadline that has not arrived yet at `now`, if any. -/
def pending (deadline : Option ℕ) (now : ℕ) : Option ℕ := deadline.filter fun d => now < d

/-- Mints one fresh confirmation requirement, replacing any outstanding token. -/
def mintRequirement (σ : Section) (effectiveNow : ℕ) (fill : Option (Vector UInt8 32)) :
    Option ConfirmationRequirement × Section :=
  match mintConfirmationTokenFrom fill with
  | none => (none, { σ with events := σ.events ++ [.mintFailed] })
  | some token =>
    (some
      { catalogAgeSeconds := (σ.inner.persisted.lastSuccessUnix.map (effectiveNow - ·)).getD 0
        lastRequestUnix := σ.inner.persisted.lastRequestUnix
        nextEligibleUnix := max (σ.inner.persisted.nextEligibleUnix.getD effectiveNow)
          (σ.inner.persisted.suppressionUntilUnix.getD 0)
        warning := manualRefreshWarning
        confirmationToken := token },
      { σ with
        inner := { σ.inner with
          token := some ⟨token, satAdd effectiveNow confirmationTokenTtlSeconds⟩ }
        events := σ.events ++ [.minted token effectiveNow] })

/-- Mints one fresh ceremony, fail-closed. -/
def ceremony (σ : Section) (effectiveNow : ℕ) (fill : Option (Vector UInt8 32)) :
    Verdict × Section :=
  match mintRequirement σ effectiveNow fill with
  | (some requirement, σ) => (.answer (.manual (.confirmationRequired requirement)), σ)
  | (none, σ) => (.answer (.manual .unavailable), σ)

/-- Lead a refresh from an admission. -/
def leadVerdict (config : SchedulerConfig) (env : DoorEnv) (admission : Admission) (σ : Section) :
    Verdict × Section :=
  (.lead (leadStart config env admission σ).1, (leadStart config env admission σ).2)

/-- `refresh_automatic`, once no refresh is in flight. -/
def refreshAutomatic (config : SchedulerConfig) (env : DoorEnv) (entry : Option ℕ) (σ : Section) :
    Verdict × Section :=
  let observed := observeNow env.now σ.inner
  let now := observed.1
  let σ := { σ with inner := observed.2 }
  match pending σ.inner.persisted.nextEligibleUnix now with
  | some deadline => (.answer (.automatic (.notDue deadline)), σ)
  | none =>
    match pending σ.inner.persisted.suppressionUntilUnix now with
    | some until_ => (.answer (.automatic (.notDue until_)), σ)
    | none => leadVerdict config env
        ⟨.automatic, entry, now, σ.inner.persisted.nextEligibleUnix, none⟩ σ

/-- Whether the presented token redeems the pending one. -/
def redeemable (token : Option PendingToken) (value : String) (now : ℕ) : Bool :=
  token.any fun pendingToken => pendingToken.value == value &&
  decide (now ≤ pendingToken.expiresUnix)

/-- `refresh_manual`, once no refresh is in flight. -/
def refreshManual (config : SchedulerConfig) (env : DoorEnv) (token : Option String)
    (entry : Option ℕ) (σ : Section) : Verdict × Section :=
  let observed := observeNow env.now σ.inner
  let now := observed.1
  let σ := { σ with inner := observed.2 }
  match pending σ.inner.persisted.suppressionUntilUnix now with
  | some until_ => (.answer (.manual (.suppressed until_)), σ)
  | none =>
    match pending σ.inner.persisted.nextEligibleUnix now with
    | none => leadVerdict config env
        ⟨.manual token, entry, now, σ.inner.persisted.nextEligibleUnix, none⟩ σ
    | some _ =>
      match token with
      | none => ceremony σ now env.mint
      | some value =>
        if value = "" then ceremony σ now env.mint
        else if redeemable σ.inner.token value now then
          leadVerdict config env
            ⟨.manual token, entry, now, σ.inner.persisted.nextEligibleUnix, some value⟩
            { σ with inner := { σ.inner with token := none } }
        else ceremony σ now env.mint

/-- A call at its door. -/
def passDoor (config : SchedulerConfig) (env : DoorEnv) (door : Door) (entry : Option ℕ)
    (σ : Section) : Verdict × Section :=
  match door with
  | .automatic => refreshAutomatic config env entry σ
  | .manual token => refreshManual config env token entry σ

/-! ## `lead_refresh`, after the fetch -/

/-- Whether a fetched revision may be adopted. -/
inductive RevisionVerdict where
  | adopted
  | unusable (reason : String)
  deriving DecidableEq

/-- Writes one fetched revision through the wired catalog cache: the verdict, the cache state and
the content of `servers.json`. -/
def adoptFetchedRevision (J : Serde) (cache : Option CacheState) (servers : Option CachedCatalog)
    (etag : Option String) (body : ByteArray) (fetchedUnix : ℕ) (fault : Option CatalogCacheError) :
    RevisionVerdict × Option CacheState × Option CachedCatalog :=
  match CatalogDocument.fromBytes J body with
  | .error error =>
    (.unusable ("fetched catalog body rejected by the live model (drift fails loudly): " ++
      error.display), cache, servers)
  | .ok _ =>
    match cache with
    | none => (.adopted, cache, servers)
    | some _ =>
      match String.fromUTF8? body with
      | none => (.unusable "fetched catalog body is not valid UTF-8", cache, servers)
      | some text =>
        match CatalogCache.store J ⟨catalogCacheSchemaVersion, etag, fetchedUnix, text⟩ fault with
        | .error error =>
          (.unusable
           ("persisting the fetched catalog revision failed (clients keep the last durable " ++
            "catalog; the next window retries): " ++ error.display), cache, servers)
        | .ok doc => (.adopted, some ⟨some doc⟩, some doc)

/-- A panicking fetch bridge is a transport failure. -/
def catchUnwind (answer : Option (Except FetchFailure FetchOutcome)) :
    Except FetchFailure FetchOutcome :=
  answer.getD (.error (.transport "fetch bridge panicked"))

/-- The failure of a lead whose anchor could not be saved. -/
def refusedFetch : Except FetchFailure FetchOutcome :=
  .error (.persistence
    ("the deadline store is unwritable; the fetch was refused so a restart cannot " ++
    "bypass the window"))

/-- The outcome of a fetch, with what it writes: the etag, the age anchor and the catalog cache. -/
def applyFetched (J : Serde) (fetched : Except FetchFailure FetchOutcome) (effectiveNow : ℕ)
    (fault : Option CatalogCacheError) (σ : Section) : RefreshOutcome × Section :=
  match fetched with
  | .ok (.changed etag body) =>
    match adoptFetchedRevision J σ.inner.cache σ.servers etag body effectiveNow fault with
    | (.adopted, cache, servers) =>
      (.changed etag body,
        { σ with
          inner := { σ.inner with
            etag := etag
            cache := cache
            persisted := { σ.inner.persisted with lastSuccessUnix := some effectiveNow } }
          servers := servers })
    | (.unusable reason, cache, servers) =>
      (.failed reason, { σ with inner := { σ.inner with cache := cache }, servers := servers })
  | .ok .notModified =>
    let σ := { σ with inner := { σ.inner with
      persisted := { σ.inner.persisted with lastSuccessUnix := some effectiveNow } } }
    match σ.inner.cache.bind CacheState.current with
    | none => (.notModified, σ)
    | some current =>
      match CatalogCache.refreshFreshness J current effectiveNow fault with
      | .ok updated =>
        (.notModified, { σ with
          inner := { σ.inner with cache := some ⟨some updated⟩ }
          servers := some updated })
      | .error _ => (.notModified, σ)
  | .error (.rateLimited retryAfterSeconds) => (.rateLimited retryAfterSeconds, σ)
  | .error (.transport message) => (.failed message, σ)
  | .error (.persistence message) => (.failed message, σ)

/-- The `Retry-After` delay a fetch carried. -/
def retryAfter : Except FetchFailure FetchOutcome → Option ℕ
  | .error (.rateLimited retryAfterSeconds) => retryAfterSeconds
  | _ => none

/-- Whether the upstream rate-limited the fetch. -/
def isRateLimited : Except FetchFailure FetchOutcome → Bool
  | .error (.rateLimited _) => true
  | _ => false

/-- The deadline inputs of a completed lead. -/
def finishInputs (config : SchedulerConfig) (started effectiveNow : ℕ)
    (fetched : Except FetchFailure FetchOutcome) (rolls : List ℕ) : DeadlineInputs where
  lastRequestUnix := some started
  nowUnix := effectiveNow
  configuredIntervalSeconds := config.refreshIntervalSeconds
  protonLifetimeSeconds := none
  rateLimited := isRateLimited fetched
  retryAfterSeconds := retryAfter fetched
  jitterSeconds := drawJitter config.maxPositiveJitterSeconds rolls

/-- The greater of a lingering suppression and a fresh one. -/
def mergeSuppression (existing fresh : Option ℕ) : Option ℕ :=
  match existing with
  | some e => some (max e (fresh.getD 0))
  | none => fresh

/-- The door's diagnostic counter, incremented. -/
def countRefresh (door : Door) (d : SchedulerDeadlines) : SchedulerDeadlines :=
  match door with
  | .automatic => { d with automaticRefreshCount := wrapSucc d.automaticRefreshCount }
  | .manual _ => { d with manualRefreshCount := wrapSucc d.manualRefreshCount }

/-- The deadlines after a completed lead. -/
def settleDeadlines (door : Door) (deadline : Deadline) (effectiveNow : ℕ)
    (d : SchedulerDeadlines) :
    SchedulerDeadlines :=
  let d := countRefresh door d
  let suppression := mergeSuppression d.suppressionUntilUnix deadline.suppressionUntilUnix
  { d with
    nextEligibleUnix := some (max deadline.nextEligibleUnix (suppression.getD 0))
    nextEligibleSource := some deadline.source
    suppressionUntilUnix := suppression
    wallHighWaterUnix := max d.wallHighWaterUnix effectiveNow }

/-- The post-fetch save. -/
def settleSave (σ : Section) (fault : Option DeadlineStoreError) : Section :=
  match σ.save fault with
  | (true, σ) => σ
  | (false, σ) => σ.setHealthy false

/-- The second locked half of `lead_refresh`: settle the deadlines, save them, publish the report.
`fetched` is the answer of the fetch, or `refusedFetch`. -/
def leadFinish (J : Serde) (config : SchedulerConfig) (env : FinishEnv) (lead : Lead)
    (fetched : Except FetchFailure FetchOutcome) (σ : Section) : RefreshReport × Section :=
  let observed := observeNow env.now σ.inner
  let effectiveNow := max observed.1 lead.started
  let σ := { σ with
    inner := observed.2
    events := σ.events ++ (if lead.anchored then
      [.fetched lead config.refreshIntervalSeconds fetched effectiveNow] else []) }
  let deadline := nextDeadline (finishInputs config lead.started effectiveNow fetched env.rolls)
  let applied := applyFetched J fetched effectiveNow env.cacheFault σ
  let σ := applied.2
  let persisted := settleDeadlines lead.admission.door deadline effectiveNow σ.inner.persisted
  let σ := settleSave { σ with inner := { σ.inner with persisted := persisted } } env.saveFault
  let report : RefreshReport :=
    ⟨applied.1, false, persisted.nextEligibleUnix.getD 0, persisted.suppressionUntilUnix⟩
  (report, { σ with inner := { σ.inner with
    completed := some (lead.generation, report)
    inFlight := none } })

/-! ## The machine -/

/-- Where a call is. -/
inductive CallerState where
  /-- Not called yet. -/
  | idle
  /-- Parked on generation `seen`; `entry` was in flight when the call entered. -/
  | waiting (door : Door) (entry seen : ℕ)
  /-- Leading, with the lock dropped and the fetch not yet invoked. -/
  | leading (lead : Lead)
  /-- Inside the fetch. -/
  | fetching (lead : Lead)
  /-- Returned. -/
  | returned (door : Door) (entry : Option ℕ) (outcome : CallOutcome)
  deriving DecidableEq

/-- One daemon process. -/
structure Process where
  config : SchedulerConfig
  inner : Inner
  callers : ℕ → CallerState
  /-- Every report published so far, newest first. -/
  published : List (ℕ × RefreshReport)

/-- The two files and the running process, if any. -/
structure World where
  deadlines : Option SchedulerDeadlines
  servers : Option CachedCatalog
  process : Option Process

/-- No process yet, over any files. -/
def World.cold (deadlines : Option SchedulerDeadlines) (servers : Option CachedCatalog) : World :=
  ⟨deadlines, servers, none⟩

/-- One step's worth of scheduling and environment. -/
inductive Action where
  | boot (config : SchedulerConfig) (deadlinesFault : Option DeadlineStoreError)
      (cacheFault : Option CatalogCacheError)
  | crash
  | call (caller : ℕ) (door : Door) (env : DoorEnv)
  | wake (caller : ℕ) (env : DoorEnv)
  | invoke (caller : ℕ)
  | finish (caller : ℕ) (env : FinishEnv)

/-- The common construction path. -/
def newWithCache (config : SchedulerConfig) (persisted : SchedulerDeadlines) (etag : Option String)
    (cache : Option CacheState) : Process where
  config := config
  inner :=
    { persisted := rederiveCrashPacing persisted
      etag := etag
      generation := 0
      inFlight := none
      completed := none
      token := none
      rollback := ⟨0, 0, false⟩
      cache := cache
      persistenceHealthy := true }
  callers := fun _ => .idle
  published := []

/-- The production constructor over the two files. -/
def production (J : Serde) (config : SchedulerConfig) (deadlines : Option SchedulerDeadlines)
    (servers : Option CachedCatalog) (deadlinesFault : Option DeadlineStoreError)
    (cacheFault : Option CatalogCacheError) : Except SchedulerError Process :=
  match DeadlineStore.loadStrict deadlines deadlinesFault with
  | .error error => .error (.deadlines error)
  | .ok persisted =>
    match CatalogCache.loadStrict J servers cacheFault with
    | .error error => .error (.catalogCache error)
    | .ok current =>
      .ok (newWithCache config (persisted.getD .default) (current.bind CachedCatalog.etag)
        (some ⟨current⟩))

/-- A caller's section over the world's files. -/
def World.section (w : World) (p : Process) : Section := ⟨p.inner, w.deadlines, w.servers, []⟩

/-- The world after a section that left its caller in state `state`. -/
def World.close (p : Process) (caller : ℕ) (state : CallerState) (σ : Section) :
    World × List Event :=
  (⟨σ.deadlines, σ.servers,
    some { p with inner := σ.inner, callers := Function.update p.callers caller state }⟩, σ.events)

/-- A call passes its door. -/
def World.admission (w : World) (p : Process) (caller : ℕ) (door : Door) (entry : Option ℕ)
    (env : DoorEnv) : World × List Event :=
  match passDoor p.config env door entry (w.section p) with
  | (.lead lead, σ) => World.close p caller (.leading lead) σ
  | (.answer outcome, σ) => World.close p caller (.returned door entry outcome) σ

/-- The head of the joining loop: park on a refresh in flight, or go to the door. `entry` is what
the call found in flight when it entered, if it entered before. -/
def World.loop (w : World) (p : Process) (caller : ℕ) (door : Door) (entry : Option ℕ)
    (env : DoorEnv) :
    World × List Event :=
  match p.inner.inFlight with
  | some running => World.close p caller (.waiting door (entry.getD running) running) (w.section p)
  | none => w.admission p caller door entry env

/-- A parked call reacquires the lock: it keeps waiting, returns its generation's report, or starts
its loop over. -/
def World.rejoin (w : World) (p : Process) (caller : ℕ) (door : Door) (entry seen : ℕ)
    (env : DoorEnv) : World × List Event :=
  if p.inner.inFlight = some seen then (w, [])
  else match p.inner.completed with
    | some (done, report) =>
      if done = seen then
        World.close p caller (.returned door (some entry) (door.joined report)) (w.section p)
      else w.loop p caller door (some entry) env
    | none => w.loop p caller door (some entry) env

/-- A lead completes: the report is published and returned. -/
def World.complete (J : Serde) (w : World) (p : Process) (caller : ℕ) (lead : Lead)
    (fetched : Except FetchFailure FetchOutcome) (env : FinishEnv) : World × List Event :=
  match leadFinish J p.config env lead fetched (w.section p) with
  | (report, σ) =>
    World.close { p with published := (lead.generation, report) :: p.published } caller
      (.returned lead.admission.door lead.admission.entry (lead.admission.door.refreshed report)) σ

/-- One step of the machine; an action that is not enabled changes nothing. -/
def step (J : Serde) (w : World) (a : Action) : World × List Event :=
  match w.process, a with
  | none, .boot config deadlinesFault cacheFault =>
    match production J config w.deadlines w.servers deadlinesFault cacheFault with
    | .error _ => (w, [])
    | .ok p => ({ w with process := some p }, [.booted])
  | some _, .crash => ({ w with process := none }, [.crashed])
  | some p, .call caller door env =>
    match p.callers caller with
    | .idle => w.loop p caller door none env
    | _ => (w, [])
  | some p, .wake caller env =>
    match p.callers caller with
    | .waiting door entry seen => w.rejoin p caller door entry seen env
    | _ => (w, [])
  | some p, .invoke caller =>
    match p.callers caller with
    | .leading lead =>
      if lead.anchored then
        ({ w with process := some { p with
            callers := Function.update p.callers caller (.fetching lead) } },
              [.contact caller lead])
      else (w, [])
    | _ => (w, [])
  | some p, .finish caller env =>
    match p.callers caller with
    | .fetching lead => w.complete J p caller lead (catchUnwind env.answer) env
    | .leading lead =>
      if lead.anchored then (w, []) else w.complete J p caller lead refusedFetch env
    | _ => (w, [])
  | _, _ => (w, [])

/-- The run of a list of actions over the given files. -/
def runFrom (J : Serde) (deadlines : Option SchedulerDeadlines) (servers : Option CachedCatalog)
    (actions : List Action) : World × List Event :=
  Machine.run (step J) (World.cold deadlines servers) actions

/-! ## Environments of concrete runs -/

/-- The policy at its floor, without jitter. -/
def floorConfig : SchedulerConfig := ⟨freshnessFloorSeconds, 0, true, le_rfl, by decide⟩

/-- A codec that accepts no body. -/
def emptySerde : Serde := ⟨fun _ => .error "expected value", fun doc => doc.body.utf8ByteSize⟩

/-- A door at `seconds`, over a working store and a generator that answers zeroes. -/
def DoorEnv.at (seconds : ℕ) : DoorEnv :=
  ⟨⟨seconds, seconds⟩, some (Vector.replicate 32 0), none, ⟨seconds, seconds⟩, none⟩

/-- A fetch answered at `seconds`, over working stores. -/
def FinishEnv.at (seconds : ℕ) (answer : Except FetchFailure FetchOutcome) : FinishEnv :=
  ⟨some answer, ⟨seconds, seconds⟩, [], none, none⟩

/-- The token the generator of `DoorEnv.at` mints. -/
def zeroToken : Option String := mintConfirmationTokenFrom (some (Vector.replicate 32 0))

end ProtonWire
