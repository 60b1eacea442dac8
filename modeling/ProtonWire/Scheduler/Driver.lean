import ProtonWire.Scheduler.Eligibility

/-!
# The automatic refresh driver

`automatic_refresh_driver` of `apps/daemon/src/lib.rs`, a thread beside the other callers of one
scheduler. It reads the deadline, then the clock; it sleeps, or calls `refresh_automatic`. Between
any two of its reads the scheduler may step, and every reading is the environment's.

* `Place`, `Move`, `step`: the thread over the machine of the scheduler;
* `Turned`, `Missed`: what a call would find at a reading on which the driver falls asleep, and when
  it misses it;
* `turned_iff_not_missed`: one sleep; `settled_step`: what follows a `NotDue`;
* **`driver_agrees_iff`**: when the driver agrees with the door.
-/

namespace ProtonWire.Driver

/-! ## The thread -/

/-- Where the driver is. -/
inductive Place where
  /-- There is no process. -/
  | absent
  /-- At the head of the loop. -/
  | head
  /-- The deadline is read, the clock is not. -/
  | clock (due : ℕ)
  /-- At the head of the waiting loop. -/
  | wait
  | waitClock (due : ℕ)
  /-- In `sleep_for`. -/
  | asleep
  /-- Before the call of `refresh_automatic`. -/
  | ready
  /-- In the call. -/
  | calling (caller : ℕ)
  | stopped
  deriving DecidableEq

/-- The scheduler and the driver. -/
structure Driven where
  world : World
  place : Place

/-- A step of either. -/
inductive Move where
  /-- A section of the scheduler: another caller's, or of the driver's own call. -/
  | scheduler (a : Action)
  /-- The head of a loop: the stop flag and `next_due_unix`. -/
  | head (stop : Bool)
  /-- `now_unix`. -/
  | clock (wall : ℕ)
  /-- The slice is over. -/
  | wake
  /-- `refresh_automatic`, by a caller that is unused. -/
  | call (caller : ℕ) (env : DoorEnv)
  /-- The call returns. -/
  | back

/-- What happens in a run. -/
inductive Note where
  /-- The door answers the driver's call with `NotDue` at the reading. -/
  | notDue (wall : ℕ)
  | read (wall : ℕ)
  | slept
  | called
  /-- A lead changes the deadlines. -/
  | led

/-- The world answers the driver's call with `NotDue`. -/
def answered (place : Place) (w : World) : Bool :=
  match place, w.process with
  | .calling caller, some p => (p.callers caller).isNotDue
  | _, _ => false

/-- The deadlines in memory. -/
def deadlinesOf (w : World) : Option SchedulerDeadlines := w.process.map fun p => p.inner.persisted

/-- A section of the scheduler; the driver goes with its process. -/
def schedule (J : Serde) (s : Driven) (a : Action) : Driven × List Note :=
  let w := (ProtonWire.step J s.world a).1
  ({ world := w, place := if w.process.isNone then .absent else s.place },
    (if deadlinesOf w = deadlinesOf s.world then [] else [.led]) ++
      if !answered s.place s.world && answered s.place w then [.notDue (wallOf a)] else [])

/-- One step. A move that is not the driver's next changes nothing. -/
def step (J : Serde) (s : Driven) : Move → Driven × List Note
  | .scheduler a => schedule J s a
  | .head stop =>
    match s.place, s.world.process with
    | .head, some p =>
      if stop then ({ s with place := .stopped }, [])
      else match p.inner.persisted.nextEligibleUnix with
        | none => ({ s with place := .ready }, [])
        | some due => ({ s with place := .clock due }, [])
    | .wait, some p =>
      if stop then ({ s with place := .head }, [])
      else match p.inner.persisted.nextEligibleUnix with
        | none => ({ s with place := .head }, [])
        | some due => ({ s with place := .waitClock due }, [])
    | _, _ => (s, [])
  | .clock wall =>
    match s.place with
    | .clock due => ({ s with place := if due - wall > 0 then .wait else .ready }, [.read wall])
    | .waitClock due =>
      if due - wall = 0 then ({ s with place := .head }, [.read wall])
      else ({ s with place := .asleep }, [.read wall, .slept])
    | _ => (s, [])
  | .wake =>
    match s.place with
    | .asleep => ({ s with place := .wait }, [])
    | _ => (s, [])
  | .call caller env =>
    match s.place, s.world.process with
    | .ready, some p =>
      match p.callers caller with
      | .idle =>
        let next := schedule J { s with place := .calling caller } (.call caller .automatic env)
        (next.1, .called :: next.2)
      | _ => (s, [])
    | _, _ => (s, [])
  | .back =>
    match s.place, s.world.process with
    | .calling caller, some p =>
      match p.callers caller with
      | .returned _ _ _ => ({ s with place := .head }, [])
      | _ => (s, [])
    | _, _ => (s, [])

/-- The driver beside a world of the scheduler. -/
def start (w : World) : Driven := ⟨w, if w.process.isNone then .absent else .head⟩

/-! ## What it should find -/

/-- The driver falls asleep at the reading, before the deadline it has read. -/
def Sleeps (s : Driven) (m : Move) (due wall : ℕ) : Prop :=
  m = .clock wall ∧ s.place = .waitClock due ∧ wall < due

/-- At the reading `refresh_automatic` would join a refresh in flight, or answer `NotDue`. -/
def Turned (w : World) (wall : ℕ) : Prop :=
  ∀ p env, w.process = some p → env.now.wall = wall → p.inner.inFlight ≠ none ∨
    ∃ next, (refreshAutomatic p.config env none (w.section p)).1 =
      .answer (.automatic (.notDue next))

/-- Nothing is in flight, and the deadline that was read is at or below the high-water mark; or a
lead has replaced it since by one that is reached. -/
def Missed (inner : Inner) (due wall : ℕ) : Prop :=
  inner.inFlight = none ∧
    (inner.persisted.nextEligibleUnix = some due ∧ due ≤ inner.persisted.wallHighWaterUnix ∨
      ∃ next, inner.persisted.nextEligibleUnix = some next ∧ next ≠ due ∧
        (next ≤ wall ∨ next ≤ inner.persisted.wallHighWaterUnix))

/-! ## Every step -/

/-- What holds in every state. -/
structure Inv (s : Driven) : Prop where
  sound : s.world.Sound
  ordered : s.world.Ordered
  /-- A deadline that was read stays set. -/
  deadline : ∀ due, s.place = .waitClock due →
    ∃ p, s.world.process = some p ∧ p.inner.persisted.nextEligibleUnix ≠ none
  alive : ∀ caller, s.place = .calling caller → s.world.process ≠ none

variable {J : Serde} {s : Driven} {m : Move} {a : Action} {due wall : ℕ}

theorem schedule_place (h : (schedule J s a).1.place ≠ .absent) :
    (schedule J s a).1.place = s.place ∧ ∃ p, (ProtonWire.step J s.world a).1.process = some p := by
  cases hp : (ProtonWire.step J s.world a).1.process with
  | none => simp [schedule, hp] at h
  | some p => exact ⟨by simp [schedule, hp], p, rfl⟩

theorem schedule_inv (h : Inv s) (a : Action) : Inv (schedule J s a).1 := by
  refine ⟨sound_step J s.world a h.sound, ordered_step J s.world a h.sound h.ordered, ?_, ?_⟩
  · intro due hplace
    obtain ⟨hsame, p', on'⟩ := schedule_place (by rw [hplace]; simp)
    obtain ⟨p, on, hnext⟩ := h.deadline due (hsame.symm.trans hplace)
    exact ⟨p', on', nextEligible_step h.sound on on' hnext⟩
  · intro caller hplace hnone
    obtain ⟨-, p', on'⟩ := schedule_place (by rw [hplace]; simp)
    cases on'.symm.trans hnone

theorem Inv.move (h : Inv s) {place : Place} (hclock : ∀ due, place ≠ .waitClock due)
    (hcall : ∀ caller, place ≠ .calling caller) : Inv { s with place := place } :=
  ⟨h.sound, h.ordered, fun due heq => absurd heq (hclock due), fun caller heq =>
   absurd heq (hcall caller)⟩

/-- **Every step keeps the invariant.** -/
theorem inv_step (J : Serde) (s : Driven) (m : Move) (h : Inv s) : Inv (step J s m).1 := by
  cases m with
  | scheduler a => exact schedule_inv h a
  | head stop =>
    unfold step
    dsimp only
    split
    · split_ifs
      · exact h.move (by simp) (by simp)
      · split <;> exact h.move (by simp) (by simp)
    · next p hplace on =>
      split_ifs
      · exact h.move (by simp) (by simp)
      · split
        · exact h.move (by simp) (by simp)
        · next due hdue =>
          exact ⟨h.sound, h.ordered, fun _ _ => ⟨p, on, by simp [hdue]⟩, by simp⟩
    · exact h
  | clock wall =>
    unfold step
    dsimp only
    split
    · exact h.move (by split_ifs <;> simp) (by split_ifs <;> simp)
    · split_ifs <;> exact h.move (by simp) (by simp)
    · exact h
  | wake =>
    unfold step
    dsimp only
    split
    · exact h.move (by simp) (by simp)
    · exact h
  | call caller env =>
    unfold step
    dsimp only
    split
    · next p hplace on =>
      split
      · have hcalling : Inv { s with place := .calling caller } :=
          ⟨h.sound, h.ordered, by simp, by simp [on]⟩
        exact schedule_inv hcalling _
      · exact h
    · exact h
  | back =>
    unfold step
    dsimp only
    split
    · split
      · exact h.move (by simp) (by simp)
      · exact h
    · exact h

theorem inv_start (J : Serde) (servers : Option CachedCatalog) (actions : List Action) :
    Inv (start (runFrom J none servers actions).1) := by
  obtain ⟨hs, ho⟩ := ordered_run J servers actions
  refine ⟨hs, ho, fun due hplace => ?_, fun caller hplace => ?_⟩
  · simp only [start] at hplace
    split_ifs at hplace
  · simp only [start] at hplace
    split_ifs at hplace

/-! ## The reading on which it falls asleep -/

theorem turned_iff {w : World} {p : Process} (on : w.process = some p)
    (ho : p.inner.persisted.Ordered) (wall : ℕ) :
    Turned w wall ↔ p.inner.inFlight ≠ none ∨ ∃ next, p.inner.persisted.nextEligibleUnix =
    some next ∧
      wall < next ∧ p.inner.persisted.wallHighWaterUnix < next := by
  have hdoor : ∀ env : DoorEnv, env.now.wall = wall →
      ((∃ next, (refreshAutomatic p.config env none (w.section p)).1 =
        .answer (.automatic (.notDue next))) ↔
      ∃ next, p.inner.persisted.nextEligibleUnix = some next ∧
        wall < next ∧ p.inner.persisted.wallHighWaterUnix < next) := by
    intro env henv
    refine (refreshAutomatic_notDue_iff p.config env none (σ := w.section p) ho).trans ?_
    simp only [World.section, Inner.effective, henv, max_lt_iff]
  constructor
  · intro h
    rcases h p ⟨⟨wall, 0⟩, none, none, ⟨wall, 0⟩, none⟩ on rfl with hflight | hanswer
    · exact .inl hflight
    · exact .inr ((hdoor _ rfl).mp hanswer)
  · rintro h p' env on' henv
    cases on.symm.trans on'
    exact h.imp_right (hdoor env henv).mpr

/-- **A sleep misses nothing exactly where the condition holds.** -/
theorem turned_iff_not_missed (h : Inv s) (hsleeps : Sleeps s m due wall) :
    Turned s.world wall ↔ ∀ p, s.world.process = some p → ¬ Missed p.inner due wall := by
  obtain ⟨-, hplace, hlt⟩ := hsleeps
  obtain ⟨p, on, hset⟩ := h.deadline due hplace
  obtain ⟨next, hnext⟩ := Option.ne_none_iff_exists'.mp hset
  have hmissed : (∀ q, s.world.process = some q → ¬ Missed q.inner due wall) ↔
    ¬ Missed p.inner due wall :=
    ⟨fun hall => hall p on, fun hp q onq => by cases on.symm.trans onq; exact hp⟩
  rw [turned_iff on (h.ordered.memory p on), hmissed, Missed, hnext]
  by_cases hflight : p.inner.inFlight = none
  · by_cases heq : next = due
    · subst heq
      simp [hflight, hlt]
    · simp [hflight, heq]
  · simp [hflight]

/-! ## After `NotDue` -/

/-- The driver has slept, the clock has moved, or a lead has. -/
def Excused (wall : ℕ) (mid : List Note) : Prop :=
  .slept ∈ mid ∨ (∃ wall', .read wall' ∈ mid ∧ wall' ≠ wall) ∨ .led ∈ mid

theorem Excused.append {mid : List Note} (h : Excused wall mid) (more : List Note) :
    Excused wall (mid ++ more) := by
  rcases h with h | ⟨wall', h, hne⟩ | h
  · exact .inl (List.mem_append_left more h)
  · exact .inr (.inl ⟨wall', List.mem_append_left more h, hne⟩)
  · exact .inr (.inr (List.mem_append_left more h))

theorem Excused.append_right {more : List Note} (h : Excused wall more) (mid : List Note) :
    Excused wall (mid ++ more) := by
  rcases h with h | ⟨wall', h, hne⟩ | h
  · exact .inl (List.mem_append_right mid h)
  · exact .inr (.inl ⟨wall', List.mem_append_right mid h, hne⟩)
  · exact .inr (.inr (List.mem_append_right mid h))

/-- The eligibility is beyond the reading, and the driver is on its way to a sleep, or at its
end. -/
def Held (s : Driven) (wall : ℕ) : Prop :=
  s.place = .absent ∨ s.place = .stopped ∨ ∃ p next, s.world.process = some p ∧
    p.inner.persisted.nextEligibleUnix = some next ∧ wall < next ∧
    (s.place = .head ∨ s.place = .clock next ∨ s.place = .wait ∨ s.place = .waitClock next ∨
      ∃ caller, s.place = .calling caller)

theorem schedule_held (h : Held s wall) (a : Action) :
    Excused wall (schedule J s a).2 ∨ Held (schedule J s a).1 wall := by
  by_cases hled : deadlinesOf (ProtonWire.step J s.world a).1 = deadlinesOf s.world
  swap
  · left
    right
    right
    simp [schedule, hled]
  right
  by_cases habsent : (schedule J s a).1.place = .absent
  · exact .inl habsent
  obtain ⟨hsame, p', on'⟩ := schedule_place habsent
  rcases h with h | h | ⟨p, next, on, hnext, hlt, hplace⟩
  · exact .inl (hsame.trans h)
  · exact .inr (.inl (hsame.trans h))
  · refine .inr (.inr ⟨p', next, on', ?_, hlt, ?_⟩)
    · simp only [deadlinesOf, on', on, Option.map_some, Option.some.injEq] at hled
      rw [hled, hnext]
    · rwa [hsame]

/-- **One step of a driver that is held.** -/
theorem held_step (J : Serde) (m : Move) (hheld : Held s wall) :
    Excused wall (step J s m).2 ∨ Held (step J s m).1 wall := by
  -- a move that is not the driver's next
  have stay : step J s m = (s, []) → Held (step J s m).1 wall := fun heq => by
    rw [heq]
    exact hheld
  -- the next place, with the deadlines as they are
  have go : ∀ {p : Process} {next : ℕ} {place : Place}, s.world.process = some p →
      p.inner.persisted.nextEligibleUnix = some next → wall < next →
      (place = .head ∨ place = .clock next ∨ place = .wait ∨ place = .waitClock next) →
      Held { s with place := place } wall :=
    fun {p next place} on hnext hlt hplace => .inr (.inr ⟨p, next, on, hnext, hlt, by tauto⟩)
  cases m with
  | scheduler a => exact schedule_held hheld a
  | head stop =>
    right
    rcases hheld with h | h | ⟨p, next, on, hnext, hlt, h | h | h | h | ⟨caller, h⟩⟩
    · exact stay (by simp [step, h])
    · exact stay (by simp [step, h])
    · cases stop with
      | true => exact .inr (.inl (by simp [step, h, on]))
      | false =>
        simp only [step, h, on, hnext]
        exact go on hnext hlt (.inr (.inl rfl))
    · exact stay (by simp [step, h])
    · cases stop with
      | true =>
        simp only [step, h, on, if_true]
        exact go on hnext hlt (.inl rfl)
      | false =>
        simp only [step, h, on, hnext]
        exact go on hnext hlt (.inr (.inr (.inr rfl)))
    · exact stay (by simp [step, h])
    · exact stay (by simp [step, h])
  | clock wall' =>
    rcases hheld with h | h | ⟨p, next, on, hnext, hlt, h | h | h | h | ⟨caller, h⟩⟩
    · exact .inr (stay (by simp [step, h]))
    · exact .inr (stay (by simp [step, h]))
    · exact .inr (stay (by simp [step, h]))
    · by_cases heq : wall' = wall
      · subst heq
        have hpos : next - wall' > 0 := by omega
        right
        simp only [step, h, if_pos hpos]
        exact go on hnext hlt (.inr (.inr (.inl rfl)))
      · exact .inl (.inr (.inl ⟨wall', by simp [step, h], heq⟩))
    · exact .inr (stay (by simp [step, h]))
    · by_cases heq : wall' = wall
      · subst heq
        have hpos : next - wall' ≠ 0 := by omega
        exact .inl (.inl (by simp [step, h, hpos]))
      · refine .inl (.inr (.inl ⟨wall', ?_, heq⟩))
        simp only [step, h]
        split_ifs <;> simp
    · exact .inr (stay (by simp [step, h]))
  | wake =>
    right
    rcases hheld with h | h | ⟨p, next, on, hnext, hlt, h | h | h | h | ⟨caller, h⟩⟩
    all_goals exact stay (by simp [step, h])
  | call caller env =>
    right
    rcases hheld with h | h | ⟨p, next, on, hnext, hlt, h | h | h | h | ⟨caller, h⟩⟩
    all_goals exact stay (by simp [step, h])
  | back =>
    right
    rcases hheld with h | h | ⟨p, next, on, hnext, hlt, h | h | h | h | ⟨caller, h⟩⟩
    · exact stay (by simp [step, h])
    · exact stay (by simp [step, h])
    · exact stay (by simp [step, h])
    · exact stay (by simp [step, h])
    · exact stay (by simp [step, h])
    · exact stay (by simp [step, h])
    · cases hstate : p.callers caller with
      | returned door entry outcome =>
        simp only [step, h, on, hstate]
        exact go on hnext hlt (.inl rfl)
      | idle => exact stay (by simp [step, h, on, hstate])
      | waiting door entry seen => exact stay (by simp [step, h, on, hstate])
      | leading lead => exact stay (by simp [step, h, on, hstate])
      | fetching lead => exact stay (by simp [step, h, on, hstate])

theorem schedule_notDue (h : Inv s) (hmem : .notDue wall ∈ (schedule J s a).2) :
    Held (schedule J s a).1 wall := by
  simp only [schedule, List.mem_append] at hmem
  rcases hmem with hmem | hmem
  · split_ifs at hmem <;> simp at hmem
  split_ifs at hmem with hanswered
  swap
  · cases hmem
  obtain rfl : wall = wallOf a := by simpa using hmem
  rw [Bool.and_eq_true, Bool.not_eq_true'] at hanswered
  obtain ⟨hbefore, hafter⟩ := hanswered
  unfold answered at hafter
  split at hafter
  · next caller p' hplace on' =>
    obtain ⟨p, on⟩ := Option.ne_none_iff_exists'.mp (h.alive caller hplace)
    have hidle : (p.callers caller).isNotDue = false := by
      simpa [answered, hplace, on] using hbefore
    obtain ⟨hsame, next, hnext, hlt⟩ := notDue_step on (h.ordered.memory p on) on' hidle hafter
    refine .inr
      (.inr ⟨p', next, on', by rw [hsame, hnext], hlt, .inr (.inr (.inr (.inr ⟨caller, ?_⟩)))⟩)
    simp [schedule, on', hplace]
  · cases hafter

theorem step_quiet (hscheduler : ∀ a, m ≠ .scheduler a) (hclock : ∀ wall, m ≠ .clock wall)
    (hcall : ∀ caller env, m ≠ .call caller env) : (step J s m).2 = [] := by
  cases m with
  | scheduler a => exact absurd rfl (hscheduler a)
  | clock wall => exact absurd rfl (hclock wall)
  | call caller env => exact absurd rfl (hcall caller env)
  | head stop =>
    unfold step
    dsimp only
    split
    · split_ifs
      · rfl
      · split <;> rfl
    · split_ifs
      · rfl
      · split <;> rfl
    · rfl
  | wake =>
    unfold step
    dsimp only
    split <;> rfl
  | back =>
    unfold step
    dsimp only
    split
    · split <;> rfl
    · rfl

theorem note_of_clock {note : Note} (h : note ∈ (step J s (.clock wall)).2) :
    note = .read wall ∨ note = .slept := by
  unfold step at h
  dsimp only at h
  split at h
  · exact .inl (by simpa using h)
  · split_ifs at h
    · exact .inl (by simpa using h)
    · simpa using h
  · cases h

theorem step_notDue (h : Inv s) (hmem : .notDue wall ∈ (step J s m).2) :
    Held (step J s m).1 wall := by
  cases m with
  | scheduler a => exact schedule_notDue h hmem
  | clock wall' => rcases note_of_clock hmem with heq | heq <;> cases heq
  | call caller env =>
    unfold step at hmem ⊢
    dsimp only at hmem ⊢
    split at hmem
    · next p hplace on =>
      split at hmem
      · have hcalling : Inv { s with place := .calling caller } :=
          ⟨h.sound, h.ordered, by simp, by simp [on]⟩
        exact schedule_notDue hcalling (by simpa using hmem)
      · cases hmem
    · cases hmem
  | head stop => simp [step_quiet] at hmem
  | wake => simp [step_quiet] at hmem
  | back => simp [step_quiet] at hmem

theorem ready_of_called {u v : List Note} (h : (step J s m).2 = u ++ .called :: v) :
    u = [] ∧ s.place = .ready := by
  have hschedule : ∀ s a, Note.called ∉ (schedule J s a).2 := by
    intro s a hmem
    simp only [schedule, List.mem_append] at hmem
    rcases hmem with hmem | hmem <;> split_ifs at hmem <;> simp at hmem
  have hmem : .called ∈ (step J s m).2 := by simp [h]
  cases m with
  | scheduler a => exact absurd hmem (hschedule s a)
  | clock wall' => rcases note_of_clock hmem with heq | heq <;> cases heq
  | call caller env =>
    unfold step at h
    dsimp only at h
    split at h
    · next p hplace on =>
      refine ⟨?_, hplace⟩
      split at h
      · cases u with
        | nil => rfl
        | cons note u =>
          obtain ⟨-, hrest⟩ := List.cons.inj h
          have hin : .called ∈ u.append (.called :: v) := List.mem_append_right u List.mem_cons_self
          rw [← hrest] at hin
          exact absurd hin (hschedule _ _)
      · simp at h
    · simp at h
  | head stop => simp [step_quiet] at hmem
  | wake => simp [step_quiet] at hmem
  | back => simp [step_quiet] at hmem

/-! ## Every run -/

/-- Since each `NotDue` there is an excuse, or the driver is held. -/
structure Settled (s : Driven) (h : List Note) : Prop where
  inv : Inv s
  held : ∀ pre wall mid, h = pre ++ .notDue wall :: mid → Excused wall mid ∨ Held s wall

theorem settled_step (J : Serde) (s : Driven) (h : List Note) (m : Move) (hs : Settled s h) :
    Settled (step J s m).1 (h ++ (step J s m).2) := by
  refine ⟨inv_step J s m hs.inv, fun pre wall mid heq => ?_⟩
  rcases Machine.append_eq_append_cons heq with ⟨before, hh, rfl⟩ | ⟨before, hnew, -⟩
  · rcases hs.held pre wall before hh with hexcused | hheld
    · exact .inl (hexcused.append _)
    · exact (held_step J m hheld).imp_left fun hexcused => hexcused.append_right before
  · exact .inr (step_notDue hs.inv (by simp [hnew]))

/-- **When the driver agrees with the door.** From every reachable world: the driver falls asleep
only where a call would join a refresh or answer `NotDue`, in every run whose readings meet the
condition and in no other. In every run it sleeps between a `NotDue` and its next call, unless the
clock has moved or a lead has. -/
theorem driver_agrees_iff (J : Serde) (servers : Option CachedCatalog) (before : List Action)
    (moves : List Move) :
    (Machine.Along (step J) (fun s m => ∀ due wall, Sleeps s m due wall → Turned s.world wall)
        (start (runFrom J none servers before).1) moves ↔
      Machine.Along (step J) (fun s m => ∀ due wall, Sleeps s m due wall →
          ∀ p, s.world.process = some p → ¬ Missed p.inner due wall)
        (start (runFrom J none servers before).1) moves) ∧
    ∀ pre wall mid post,
      (Machine.run (step J) (start (runFrom J none servers before).1) moves).2 =
        pre ++ .notDue wall :: (mid ++ .called :: post) →
      .slept ∈ mid ∨ (∃ wall', .read wall' ∈ mid ∧ wall' ≠ wall) ∨ .led ∈ mid := by
  have hstart := inv_start J servers before
  refine ⟨Machine.Along.congr Inv (inv_step J) (fun s m hinv => ?_) hstart moves, ?_⟩
  · exact forall_congr' fun due => forall_congr' fun wall =>
      forall_congr' fun hsleeps => turned_iff_not_missed hinv hsleeps
  · intro pre wall mid post hrun
    obtain ⟨first, m, rest, u, v, -, hstep, hpre, -⟩ :=
      Machine.exists_step_of_eq_append (start (runFrom J none servers before).1) moves
        (pre ++ .notDue wall :: mid) post .called (by rw [hrun]; simp)
    obtain ⟨rfl, hready⟩ := ready_of_called hstep
    have hsettled := Machine.run_inv Settled (settled_step J) _ []
      ⟨hstart, fun pre wall mid h => by simp at h⟩ first
    rw [List.append_nil] at hpre
    rcases hsettled.held pre wall mid (by rw [List.nil_append, ← hpre]) with hexcused | hheld
    · exact hexcused
    · rcases hheld with h | h | ⟨p, next, on, hnext, hlt, h | h | h | h | ⟨caller, h⟩⟩ <;>
        rw [hready] at h <;> cases h

/-! ## The clock comes back -/

/-- A first refresh whose fetch takes a day, by a clock that is put back afterwards. -/
def clockPutBack : List Move :=
  [.head false, .call 0 (.at 100), .scheduler (.invoke 0),
   .scheduler (.finish 0 (.at 86500 (.ok .notModified))), .back,
    .head false, .clock 200, .head false]

/-- **An open window is slept through.** -/
theorem driver_sleeps_through :
    ¬ Machine.Along (step emptySerde) (fun s m => ∀ due wall, Sleeps s m due wall →
      Turned s.world wall)
      (start (runFrom emptySerde none none [.boot floorConfig none none]).1)
      (clockPutBack ++ [.clock 200]) := by
  intro h
  have hlast := h.at_step clockPutBack (.clock 200) [] rfl
  have hplace : (Machine.run (step emptySerde)
    (start (runFrom emptySerde none none [.boot floorConfig none none]).1)
      clockPutBack).1.place = .waitClock 10900 := by decide
  have hinner : (Machine.run (step emptySerde)
    (start (runFrom emptySerde none none [.boot floorConfig none none]).1)
      clockPutBack).1.world.process.map (fun p =>
        (p.inner.inFlight, p.inner.persisted.nextEligibleUnix,
        p.inner.persisted.wallHighWaterUnix)) = some (none, some 10900, 86500) := by decide
  obtain ⟨p, on, hfields⟩ := Option.map_eq_some_iff.mp hinner
  have hinv : Inv (Machine.run (step emptySerde)
      (start (runFrom emptySerde none none [.boot floorConfig none none]).1) clockPutBack).1 :=
    Machine.run_state_inv Inv (inv_step emptySerde) _ (inv_start emptySerde none _) clockPutBack
  have hsleeps := hlast 10900 200 ⟨rfl, hplace, by decide⟩
  rw [turned_iff on (hinv.ordered.memory p on)] at hsleeps
  simp only [Prod.mk.injEq] at hfields
  obtain ⟨hflight, hdue, hhigh⟩ := hfields
  rcases hsleeps with hflying | ⟨next, hnext, -, hlt⟩
  · exact hflying hflight
  · rw [hdue] at hnext
    cases hnext
    omega

end ProtonWire.Driver
