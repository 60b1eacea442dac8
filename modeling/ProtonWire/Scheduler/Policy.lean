import ProtonWire.Lib.Saturating
import ProtonWire.Store.Deadlines
import ProtonWire.Store.Catalog

/-!
# The scheduler's pure policy

`crates/core/src/scheduler.rs`: the validated configuration, the greatest-of deadline, the jitter
draw, the rollback test, the crash re-derivation and the confirmation token. All times are Unix
seconds.

* `nextDeadline`; **`floor_le_nextDeadline`**: the next eligibility is at least the three-hour floor
  after the request; **`le_suppression_nextDeadline`**: a rate limit is suppressed until the later
  of the interval and the `Retry-After` delay;
* `rederiveCrashPacing`, `floor_le_rederive`;
* `drawJitter`, `drawJitter_le`.
-/

namespace ProtonWire

open U64

/-- `FRESHNESS_FLOOR_SECONDS`: three hours. -/
def freshnessFloorSeconds : ℕ := 3 * 60 * 60

/-- `CONFIRMATION_TOKEN_TTL_SECONDS`. -/
def confirmationTokenTtlSeconds : ℕ := 300

/-- `MANUAL_REFRESH_WARNING`. -/
def manualRefreshWarning : String :=
  "The server list is still fresh. Unnecessary refresh " ++
  "requests may be rate-limited by Proton or your account may be " ++
  "temporarily blocked from fetching server data. Confirm to refresh " ++
  "now anyway."

/-! ## Configuration -/

/-- Failures of scheduler construction. -/
inductive SchedulerError where
  | config (message : String)
  | deadlines (error : DeadlineStoreError)
  | catalogCache (error : CatalogCacheError)
  deriving DecidableEq

/-- The validated scheduler policy: an interval below the floor or an overflowing jitter ceiling
cannot be built. -/
structure SchedulerConfig where
  refreshIntervalSeconds : ℕ
  maxPositiveJitterSeconds : ℕ
  conditionalRequests : Bool
  floor_le : freshnessFloorSeconds ≤ refreshIntervalSeconds
  jitter_ne : maxPositiveJitterSeconds ≠ U64.max

/-- `SchedulerConfig::new`. -/
def SchedulerConfig.new (refreshIntervalSeconds maxPositiveJitterSeconds : ℕ)
    (conditionalRequests : Bool) : Except SchedulerError SchedulerConfig :=
  if hf : refreshIntervalSeconds < freshnessFloorSeconds then
    .error (.config ("refresh interval " ++ toString refreshIntervalSeconds ++
      "s is below the three-hour floor (" ++ toString freshnessFloorSeconds ++ "s)"))
  else if hj : maxPositiveJitterSeconds = U64.max then
    .error (.config ("jitter ceiling u64::MAX overflows draw_jitter's inclusive range " ++
      "(max_seconds + 1 wraps); use any value below u64::MAX"))
  else .ok ⟨refreshIntervalSeconds, maxPositiveJitterSeconds, conditionalRequests, not_lt.mp hf, hj⟩

/-! ## The greatest-of deadline -/

/-- The inputs of one deadline computation. -/
structure DeadlineInputs where
  lastRequestUnix : Option ℕ
  nowUnix : ℕ
  configuredIntervalSeconds : ℕ
  protonLifetimeSeconds : Option ℕ
  rateLimited : Bool
  retryAfterSeconds : Option ℕ
  jitterSeconds : ℕ

/-- One computed deadline. -/
structure Deadline where
  nextEligibleUnix : ℕ
  source : IntervalSource
  suppressionUntilUnix : Option ℕ
  deriving DecidableEq

namespace DeadlineInputs

/-- The span's origin: the last request, or now before the first one. -/
def origin (i : DeadlineInputs) : ℕ := i.lastRequestUnix.getD i.nowUnix

/-- The greater of the configured interval and the floor. -/
def floorSpan (i : DeadlineInputs) : ℕ × IntervalSource :=
  if i.configuredIntervalSeconds > freshnessFloorSeconds then
    (i.configuredIntervalSeconds, .configured)
  else (freshnessFloorSeconds, .threeHourFloor)

/-- The greatest of that and the lifetime the API supplied. -/
def span (i : DeadlineInputs) : ℕ × IntervalSource :=
  match i.protonLifetimeSeconds with
  | some lifetime => if lifetime > i.floorSpan.1 then (lifetime, .protonLifetime) else i.floorSpan
  | none => i.floorSpan

/-- The un-jittered deadline: the span from the origin against `now + Retry-After`. -/
def raw (i : DeadlineInputs) : ℕ × IntervalSource :=
  match i.retryAfterSeconds with
  | some retryAfter =>
    if satAdd i.nowUnix retryAfter > satAdd i.origin i.span.1 then
      (satAdd i.nowUnix retryAfter, .retryAfter)
    else (satAdd i.origin i.span.1, i.span.2)
  | none => (satAdd i.origin i.span.1, i.span.2)

end DeadlineInputs

/-- The greatest-of deadline function. -/
def nextDeadline (i : DeadlineInputs) : Deadline where
  nextEligibleUnix := satAdd i.raw.1 i.jitterSeconds
  source := i.raw.2
  suppressionUntilUnix := if i.rateLimited then some i.raw.1 else none

theorem floorSpan_fst (i : DeadlineInputs) :
    i.floorSpan.1 = Nat.max i.configuredIntervalSeconds freshnessFloorSeconds := by
  unfold DeadlineInputs.floorSpan
  split_ifs with h
  · exact (Nat.max_eq_left (Nat.le_of_lt h)).symm
  · exact (Nat.max_eq_right (not_lt.mp h)).symm

theorem floorSpan_le_span (i : DeadlineInputs) : i.floorSpan.1 ≤ i.span.1 := by
  unfold DeadlineInputs.span
  split
  · split_ifs with h
    · exact Nat.le_of_lt h
    · exact le_rfl
  · exact le_rfl

theorem satAdd_span_le_raw (i : DeadlineInputs) : satAdd i.origin i.span.1 ≤ i.raw.1 := by
  unfold DeadlineInputs.raw
  split
  · split_ifs with h
    · exact Nat.le_of_lt h
    · exact le_rfl
  · exact le_rfl

theorem retryAfter_le_raw (i : DeadlineInputs) {retryAfter : ℕ}
    (h : i.retryAfterSeconds = some retryAfter) : satAdd i.nowUnix retryAfter ≤ i.raw.1 := by
  unfold DeadlineInputs.raw
  rw [h]
  dsimp only
  split_ifs with hlt
  · exact le_rfl
  · exact not_lt.mp hlt

theorem interval_le_raw (i : DeadlineInputs) :
    satAdd i.origin (Nat.max i.configuredIntervalSeconds freshnessFloorSeconds) ≤ i.raw.1 := by
  rw [← floorSpan_fst]
  exact (satAdd_le_satAdd le_rfl (floorSpan_le_span i)).trans (satAdd_span_le_raw i)

/-- **The next eligibility is at least the floor after the origin.** -/
theorem floor_le_nextDeadline (i : DeadlineInputs) :
    satAdd i.origin freshnessFloorSeconds ≤ (nextDeadline i).nextEligibleUnix := by
  have h : satAdd i.origin freshnessFloorSeconds ≤ i.raw.1 :=
    (satAdd_le_satAdd le_rfl (Nat.le_max_right _ _)).trans (interval_le_raw i)
  have hj : i.raw.1 ≤ i.raw.1 + i.jitterSeconds := Nat.le_add_right _ _
  show _ ≤ satAdd i.raw.1 i.jitterSeconds
  unfold satAdd at h ⊢
  omega

/-- The bound a rate limit sets: the interval from the request's start, or the `Retry-After` delay
from its completion, whichever is later. -/
def rateLimitBound (configuredInterval started completed : ℕ) (retryAfter : Option ℕ) : ℕ :=
  Nat.max (satAdd started (Nat.max configuredInterval freshnessFloorSeconds))
    (retryAfter.elim 0 (satAdd completed))

/-- **A rate limit is suppressed until the later of the interval and the delay.** -/
theorem le_suppression_nextDeadline {i : DeadlineInputs} (h : i.rateLimited = true) :
    ∃ until_, (nextDeadline i).suppressionUntilUnix = some until_ ∧
      rateLimitBound i.configuredIntervalSeconds i.origin i.nowUnix i.retryAfterSeconds ≤
      until_ := by
  refine ⟨i.raw.1, if_pos h, Nat.max_le.mpr ⟨interval_le_raw i, ?_⟩⟩
  cases hr : i.retryAfterSeconds with
  | none => exact Nat.zero_le _
  | some retryAfter => exact retryAfter_le_raw i hr

/-! ## Jitter -/

/-- The rejection loop over the generator's answers; an exhausted list is a failing generator. -/
def drawJitterLoop (range limit : ℕ) : List ℕ → ℕ
  | [] => 0
  | value :: rolls => if value < limit then value % range else drawJitterLoop range limit rolls

/-- One draw in `0..=maxSeconds`. -/
def drawJitter (maxSeconds : ℕ) (rolls : List ℕ) : ℕ :=
  if maxSeconds = 0 then 0
  else drawJitterLoop (maxSeconds + 1) (U64.max - U64.max % (maxSeconds + 1)) rolls

theorem drawJitterLoop_lt {range limit : ℕ} (hr : 0 < range) (rolls : List ℕ) :
    drawJitterLoop range limit rolls < range := by
  induction rolls with
  | nil => exact hr
  | cons value rolls ih =>
    unfold drawJitterLoop
    split_ifs
    · exact Nat.mod_lt _ hr
    · exact ih

theorem drawJitter_le (maxSeconds : ℕ) (rolls : List ℕ) :
    drawJitter maxSeconds rolls ≤ maxSeconds := by
  unfold drawJitter
  split_ifs with h
  · exact Nat.zero_le _
  · exact Nat.lt_succ_iff.mp (drawJitterLoop_lt (Nat.succ_pos _) rolls)

/-! ## Rollback and crash re-derivation -/

/-- The wall went backward while the monotonic counter did not. -/
def wallRolledBack (prevWall prevMono wall mono : ℕ) : Bool :=
  decide (wall < prevWall) && decide (prevMono ≤ mono)

/-- The crash-between-saves re-derivation: the floor from the persisted request time. -/
def rederiveCrashPacing (persisted : SchedulerDeadlines) : SchedulerDeadlines :=
  match persisted.lastRequestUnix with
  | none => persisted
  | some lastRequest =>
    if persisted.nextEligibleUnix.all fun next =>
    next < satAdd lastRequest freshnessFloorSeconds then
      { persisted with
        nextEligibleUnix := some (satAdd lastRequest freshnessFloorSeconds)
        nextEligibleSource := some .threeHourFloor }
    else persisted

theorem rederive_fields (d : SchedulerDeadlines) :
    (rederiveCrashPacing d).lastRequestUnix = d.lastRequestUnix ∧
      (rederiveCrashPacing d).wallHighWaterUnix = d.wallHighWaterUnix ∧
      (rederiveCrashPacing d).suppressionUntilUnix = d.suppressionUntilUnix ∧
      (rederiveCrashPacing d).schemaVersion = d.schemaVersion := by
  unfold rederiveCrashPacing
  split
  · exact ⟨rfl, rfl, rfl, rfl⟩
  · split_ifs <;> exact ⟨rfl, rfl, rfl, rfl⟩

/-- **After the re-derivation the floor from the last request stands.** -/
theorem floor_le_rederive {d : SchedulerDeadlines} {lastRequest : ℕ}
    (h : d.lastRequestUnix = some lastRequest) :
    ∃ next, (rederiveCrashPacing d).nextEligibleUnix = some next ∧
      satAdd lastRequest freshnessFloorSeconds ≤ next := by
  unfold rederiveCrashPacing
  rw [h]
  dsimp only
  split_ifs with hn
  · exact ⟨_, rfl, le_rfl⟩
  · cases hd : d.nextEligibleUnix with
    | none => simp [hd] at hn
    | some next => exact ⟨next, rfl, by simpa [hd] using hn⟩

/-! ## Confirmation tokens -/

/-- One lower-case hexadecimal digit. -/
def hexDigit (n : ℕ) : Char := if n < 10 then Char.ofNat (48 + n) else Char.ofNat (87 + n)

/-- `{b:02x}`. -/
def hexByte (b : UInt8) : List Char := [hexDigit (b.toNat / 16), hexDigit (b.toNat % 16)]

/-- The mint over an injectable fill; `none` is a failing generator. -/
def mintConfirmationTokenFrom (fill : Option (Vector UInt8 32)) : Option String :=
  fill.map fun bytes => String.ofList (bytes.toList.flatMap hexByte)

end ProtonWire
