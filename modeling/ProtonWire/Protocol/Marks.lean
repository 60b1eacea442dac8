import ProtonWire.Lib.Runs

/-!
# The health of the socket marks

`crates/protocol/src/marks.rs`: the outcomes of the marking callbacks, in one machine word. From the
lowest bit: a failure latch, the count of the callbacks in flight (14 bits), and the count of the
reports (49 bits).

* `MarkHealth`: the word and its operations;
* `Phase`, `step`: the callbacks, any number of them, each operation on the word one step;
* `Counted`: the word is the sum of its fields;
* **`mark_health_decodes`**: along every run the fields are what they count.
-/

namespace ProtonWire

/-! ## The word -/

/-- One atomic word, a `usize`. -/
structure MarkHealth where
  state : UInt64
  deriving DecidableEq

namespace MarkHealth

def inFlightShift : UInt64 := 1

def inFlightMask : UInt64 := (0x3FFF : UInt64) <<< inFlightShift

def inFlightUnit : UInt64 := (1 : UInt64) <<< inFlightShift

/-- The failure latch. -/
def failed : UInt64 := (1 : UInt64) <<< 0

def reportedUnit : UInt64 := (1 : UInt64) <<< 15

def reportedShift : UInt64 := 15

def new : MarkHealth := ⟨0⟩

/-- No mark has failed. -/
def allMarked (health : MarkHealth) : Bool := health.state &&& failed == 0

/-- How many outcomes have been reported. -/
def reported (health : MarkHealth) : UInt64 := health.state >>> reportedShift

/-- How many callbacks are in flight. -/
def inFlight (health : MarkHealth) : UInt64 := (health.state &&& inFlightMask) >>> inFlightShift

/-- Something was reported, nothing failed, and nothing is in flight. -/
def healthy (health : MarkHealth) : Bool :=
  health.state >>> reportedShift > 0 && health.state &&& (inFlightMask ||| failed) == 0

def noteInFlight (health : MarkHealth) : MarkHealth := ⟨health.state + inFlightUnit⟩

def noteFailure (health : MarkHealth) : MarkHealth := ⟨health.state ||| failed⟩

def noteReported (health : MarkHealth) : MarkHealth := ⟨health.state + reportedUnit⟩

def noteDone (health : MarkHealth) : MarkHealth := ⟨health.state - inFlightUnit⟩

end MarkHealth

namespace Marks

/-! ## The callbacks -/

/-- Where a call of `protect_socket` is, once it is admitted. -/
inductive Phase where
  | admitted
  /-- The mark was applied, or not. -/
  | outcome (ok : Bool)
  /-- The failure is latched. -/
  | latched
  | reported (ok : Bool)
  | done (ok : Bool)
  deriving DecidableEq

namespace Phase

/-- The callback is admitted and not done. -/
def inFlight : Phase → Bool
  | done _ => false
  | _ => true

/-- The callback's outcome is recorded. -/
def recorded : Phase → Bool
  | reported _ => true
  | done _ => true
  | _ => false

/-- The callback has latched a failure. -/
def failed : Phase → Bool
  | latched => true
  | reported ok => !ok
  | done ok => !ok
  | _ => false

end Phase

/-- The operations on the word. -/
inductive Note where
  | inFlight
  | failure
  | reported
  | done
  deriving DecidableEq

/-- An operation on the word. -/
def Note.apply : Note → MarkHealth → MarkHealth
  | inFlight => MarkHealth.noteInFlight
  | failure => MarkHealth.noteFailure
  | reported => MarkHealth.noteReported
  | done => MarkHealth.noteDone

/-- The word, and the callbacks in the order they were admitted. -/
structure World where
  health : MarkHealth
  callbacks : List Phase
  deriving DecidableEq

/-- A socket is reported, or a callback goes on; `ok` is what the applier answers. -/
inductive Action where
  | protect
  | advance (callback : ℕ) (ok : Bool)
  deriving DecidableEq

/-- The next step of a callback: where it is then, and its operation on the word. -/
def Phase.next (ok : Bool) : Phase → Option (Phase × Option Note)
  | admitted => some (outcome ok, none)
  | outcome true => some (reported true, some .reported)
  | outcome false => some (latched, some .failure)
  | latched => some (reported false, some .reported)
  | reported ok => some (done ok, some .done)
  | done _ => none

/-- One step of one callback. -/
def step (w : World) : Action → World × List Note
  | .protect => (⟨Note.inFlight.apply w.health, w.callbacks ++ [.admitted]⟩, [.inFlight])
  | .advance callback ok =>
    match w.callbacks[callback]?.bind (Phase.next ok) with
    | none => (w, [])
    | some (phase, none) => ({ w with callbacks := w.callbacks.set callback phase }, [])
    | some (phase, some note) => (⟨note.apply w.health, w.callbacks.set callback phase⟩, [note])

/-- Before any socket is reported. -/
def start : World := ⟨.new, []⟩

namespace World

/-- The callbacks admitted and not done. -/
def inFlight (w : World) : ℕ := w.callbacks.countP Phase.inFlight

/-- The callbacks whose outcome is recorded. -/
def recorded (w : World) : ℕ := w.callbacks.countP Phase.recorded

/-- The callbacks that have latched a failure. -/
def failures (w : World) : ℕ := w.callbacks.countP Phase.failed

/-- The counts fit their fields. -/
def Within (w : World) : Prop := w.inFlight < 2 ^ 14 ∧ w.recorded < 2 ^ 49

instance (w : World) : Decidable w.Within := inferInstanceAs (Decidable (_ ∧ _))

end World

/-- An operation changes its own field and no other. -/
def Note.Moves (before after : MarkHealth) : Note → Prop
  | inFlight => after.inFlight.toNat = before.inFlight.toNat + 1 ∧
    after.reported = before.reported ∧
      after.allMarked = before.allMarked
  | failure => after.inFlight = before.inFlight ∧ after.reported = before.reported ∧
    after.allMarked = false
  | reported => after.inFlight = before.inFlight ∧
    after.reported.toNat = before.reported.toNat + 1 ∧
      after.allMarked = before.allMarked
  | done => before.inFlight.toNat = after.inFlight.toNat + 1 ∧ after.reported = before.reported ∧
      after.allMarked = before.allMarked

/-! ## The fields -/

/-- The word is the sum of its fields. -/
structure Counted (health : MarkHealth) (reported inFlight : ℕ) (failed : Bool) : Prop where
  sum : health.state.toNat = reported * 2 ^ 15 + inFlight * 2 + failed.toNat
  inFlight_lt : inFlight < 2 ^ 14
  reported_lt : reported < 2 ^ 49

namespace Counted

variable {health : MarkHealth} {reported inFlight : ℕ} {failed : Bool}

theorem lt_two (failed : Bool) : failed.toNat < 2 := by cases failed <;> decide

theorem toNat_inFlight (h : Counted health reported inFlight failed) :
    health.inFlight.toNat = inFlight := by
  have hb := lt_two failed
  have hbound := h.inFlight_lt
  have hnat : health.inFlight.toNat = health.state.toNat / 2 % 2 ^ 14 := by
    rw [MarkHealth.inFlight, UInt64.toNat_shiftRight, UInt64.toNat_and,
      ← Nat.and_two_pow_sub_one_eq_mod]
    change (health.state.toNat &&& 0x7FFE) >>> 1 = (health.state.toNat >>> 1) &&& 0x3FFF
    rw [Nat.shiftRight_and_distrib]
    rfl
  rw [hnat, h.sum]
  omega

theorem toNat_reported (h : Counted health reported inFlight failed) :
    health.reported.toNat = reported := by
  have hb := lt_two failed
  have hbound := h.inFlight_lt
  have hnat : health.reported.toNat = health.state.toNat / 2 ^ 15 := by
    rw [MarkHealth.reported, UInt64.toNat_shiftRight, ← Nat.shiftRight_eq_div_pow]
    rfl
  rw [hnat, h.sum]
  omega

theorem allMarked_eq (h : Counted health reported inFlight failed) :
    health.allMarked = !failed := by
  have hnat : (health.state &&& MarkHealth.failed).toNat = health.state.toNat % 2 := by
    rw [UInt64.toNat_and]
    exact Nat.and_one_is_mod _
  rw [Bool.eq_iff_iff, MarkHealth.allMarked, beq_iff_eq, ← UInt64.toNat_inj, hnat, h.sum]
  cases failed
  · simp
    omega
  · simp
    omega

theorem healthy_iff (h : Counted health reported inFlight failed) :
    health.healthy = true ↔ 0 < reported ∧ inFlight = 0 ∧ failed = false := by
  have hb := lt_two failed
  have hbound := h.inFlight_lt
  have hmask : (health.state &&& (MarkHealth.inFlightMask ||| MarkHealth.failed)).toNat =
    health.state.toNat % 2 ^ 15 := by
    rw [UInt64.toNat_and, ← Nat.and_two_pow_sub_one_eq_mod]
    rfl
  have hreported : health.state >>> MarkHealth.reportedShift > 0 ↔ 0 < reported := by
    rw [gt_iff_lt, UInt64.lt_iff_toNat_lt, ← h.toNat_reported]
    rfl
  rw [MarkHealth.healthy, Bool.and_eq_true, decide_eq_true_iff, beq_iff_eq, hreported,
    ← UInt64.toNat_inj, hmask, h.sum]
  cases failed
  · simp
    omega
  · simp
    omega

/-! ## The operations -/

theorem noteInFlight (h : Counted health reported inFlight failed)
    (hbound : inFlight + 1 < 2 ^ 14) :
    Counted health.noteInFlight reported (inFlight + 1) failed := by
  refine ⟨?_, hbound, h.reported_lt⟩
  have hb := lt_two failed
  have hreported := h.reported_lt
  have hunit : MarkHealth.inFlightUnit.toNat = 2 := rfl
  rw [MarkHealth.noteInFlight, UInt64.toNat_add, h.sum, hunit]
  omega

theorem noteReported (h : Counted health reported inFlight failed)
    (hbound : reported + 1 < 2 ^ 49) :
    Counted health.noteReported (reported + 1) inFlight failed := by
  refine ⟨?_, h.inFlight_lt, hbound⟩
  have hb := lt_two failed
  have hinFlight := h.inFlight_lt
  have hunit : MarkHealth.reportedUnit.toNat = 2 ^ 15 := rfl
  rw [MarkHealth.noteReported, UInt64.toNat_add, h.sum, hunit]
  omega

theorem noteDone (h : Counted health reported (inFlight + 1) failed) :
    Counted health.noteDone reported inFlight failed := by
  have hinFlight := h.inFlight_lt
  refine ⟨?_, by omega, h.reported_lt⟩
  have hb := lt_two failed
  have hreported := h.reported_lt
  have hunit : MarkHealth.inFlightUnit.toNat = 2 := rfl
  rw [MarkHealth.noteDone, UInt64.toNat_sub, h.sum, hunit]
  omega

theorem noteFailure (h : Counted health reported inFlight failed) :
    Counted health.noteFailure reported inFlight true := by
  refine ⟨?_, h.inFlight_lt, h.reported_lt⟩
  have hb := lt_two failed
  have hhalf : (health.state.toNat ||| 1) / 2 = health.state.toNat / 2 := by
    rw [Nat.or_div_two]
    simp
  have hodd : (health.state.toNat ||| 1) % 2 = 1 := by simp
  have hnat : health.noteFailure.state.toNat = health.state.toNat ||| 1 := UInt64.toNat_or ..
  rw [h.sum] at hhalf
  rw [hnat, h.sum]
  rw [h.sum] at hodd
  simp only [Bool.toNat_true]
  omega

end Counted

/-! ## Along a run -/

theorem countP_set {callbacks : List Phase} {callback : ℕ} {old : Phase}
    (h : callbacks[callback]? = some old) (p : Phase → Bool) (phase : Phase) :
    (callbacks.set callback phase).countP p + (p old).toNat = callbacks.countP p +
    (p phase).toNat := by
  obtain ⟨hlt, hget⟩ := List.getElem?_eq_some_iff.mp h
  have hold : p old = true → 0 < callbacks.countP p := fun hp =>
    List.countP_pos_iff.mpr ⟨old, hget ▸ List.getElem_mem hlt, hp⟩
  rw [List.countP_set hlt, hget]
  cases hpold : p old <;> cases p phase <;> simp
  all_goals
    have := hold hpold
    omega

/-- The word counts the callbacks, and the failures that are latched were noted. -/
structure Inv (w : World) (notes : List Note) : Prop where
  counted : Counted w.health w.recorded w.inFlight (decide (0 < w.failures))
  noted : .failure ∈ notes ↔ 0 < w.failures

theorem inv_start : Inv start [] := ⟨⟨rfl, by decide, by decide⟩, by decide⟩

/-- One step of a callback that is under way: what it does to the counts, and to the word. -/
inductive Advance (w w' : World) : List Note → Prop where
  | applied (health : w'.health = w.health) (inFlight : w'.inFlight = w.inFlight)
      (recorded : w'.recorded = w.recorded) (failures : w'.failures = w.failures) : Advance w w' []
  | failure (health : w'.health = w.health.noteFailure) (inFlight : w'.inFlight = w.inFlight)
      (recorded : w'.recorded = w.recorded) (failures : w'.failures = w.failures + 1) :
      Advance w w' [.failure]
  | reported (health : w'.health = w.health.noteReported) (inFlight : w'.inFlight = w.inFlight)
      (recorded : w'.recorded = w.recorded + 1) (failures : w'.failures = w.failures) :
      Advance w w' [.reported]
  | done (health : w'.health = w.health.noteDone) (inFlight : w.inFlight = w'.inFlight + 1)
      (recorded : w'.recorded = w.recorded) (failures : w'.failures = w.failures) :
      Advance w w' [.done]

theorem step_advance (w : World) (callback : ℕ) (ok : Bool) :
    Advance w (step w (.advance callback ok)).1 (step w (.advance callback ok)).2 := by
  rw [step]
  cases hget : w.callbacks[callback]? with
  | none => exact .applied rfl rfl rfl rfl
  | some old =>
    have hinFlight := countP_set hget Phase.inFlight
    have hrecorded := countP_set hget Phase.recorded
    have hfailed := countP_set hget Phase.failed
    cases old with
    | admitted =>
      have hin := Nat.add_right_cancel (hinFlight (.outcome ok))
      exact .applied rfl hin (hrecorded (.outcome ok)) (hfailed (.outcome ok))
    | outcome applied =>
      cases applied with
      | true => exact .reported rfl (Nat.add_right_cancel (hinFlight _)) (hrecorded _) (hfailed _)
      | false => exact .failure rfl (Nat.add_right_cancel (hinFlight _)) (hrecorded _) (hfailed _)
    | latched =>
      exact .reported rfl (Nat.add_right_cancel (hinFlight _)) (hrecorded _)
        (Nat.add_right_cancel (hfailed _))
    | reported applied =>
      have hin := hinFlight (.done applied)
      have hrec := Nat.add_right_cancel (hrecorded (.done applied))
      exact .done rfl hin.symm hrec (Nat.add_right_cancel (hfailed (.done applied)))
    | done applied => exact .applied rfl rfl rfl rfl

theorem step_protect (w : World) : (step w .protect).1.health = w.health.noteInFlight ∧
    (step w .protect).1.inFlight = w.inFlight + 1 ∧ (step w .protect).1.recorded = w.recorded ∧
    (step w .protect).1.failures = w.failures := by
  refine ⟨rfl, ?_, ?_, ?_⟩
  · exact List.countP_append
  · exact List.countP_append
  · exact List.countP_append

/-- A step keeps the invariant while the counts fit. -/
theorem Inv.step {w : World} {notes : List Note} {a : Action} (hwithin : (Marks.step w a).1.Within)
    (h : Inv w notes) :
    Inv (Marks.step w a).1 (notes ++ (Marks.step w a).2) := by
  obtain ⟨hinFlight, hrecorded⟩ := hwithin
  cases a with
  | protect =>
    obtain ⟨hhealth, hin, hrec, hfail⟩ := step_protect w
    refine ⟨?_, ?_⟩
    · rw [hhealth, hin, hrec, hfail]
      exact h.counted.noteInFlight (hin ▸ hinFlight)
    · rw [hfail, ← h.noted]
      simp [Marks.step]
  | advance callback ok =>
    have hadvance := step_advance w callback ok
    revert hinFlight hrecorded hadvance
    generalize (Marks.step w (.advance callback ok)).1 = w'
    generalize (Marks.step w (.advance callback ok)).2 = new
    intro hinFlight hrecorded hadvance
    cases hadvance with
    | applied hhealth hin hrec hfail =>
      exact ⟨by
        rw [hhealth, hin, hrec, hfail]; exact h.counted, by
          rw [hfail, List.append_nil]; exact h.noted⟩
    | failure hhealth hin hrec hfail =>
      refine ⟨?_, by simp [hfail]⟩
      rw [hhealth, hin, hrec, decide_eq_true (by omega : 0 < w'.failures)]
      exact h.counted.noteFailure
    | reported hhealth hin hrec hfail =>
      refine ⟨?_, by rw [hfail, ← h.noted]; simp⟩
      rw [hhealth, hin, hrec, hfail]
      exact h.counted.noteReported (hrec ▸ hrecorded)
    | done hhealth hin hrec hfail =>
      refine ⟨?_, by rw [hfail, ← h.noted]; simp⟩
      rw [hhealth, hrec, hfail]
      exact (hin ▸ h.counted).noteDone

theorem moves_of_step {w : World} {notes : List Note} {a : Action}
    (hwithin : (Marks.step w a).1.Within)
    (h : Inv w notes) {note : Note} (hnote : note ∈ (Marks.step w a).2) :
    note.Moves w.health (Marks.step w a).1.health := by
  have hnext := (h.step hwithin).counted
  cases a with
  | protect =>
    obtain ⟨-, hin, hrec, hfail⟩ := step_protect w
    cases List.mem_singleton.mp hnote
    rw [hin, hrec, hfail] at hnext
    refine ⟨?_, ?_, ?_⟩
    · rw [hnext.toNat_inFlight, h.counted.toNat_inFlight]
    · rw [← UInt64.toNat_inj, hnext.toNat_reported, h.counted.toNat_reported]
    · rw [hnext.allMarked_eq, h.counted.allMarked_eq]
  | advance callback ok =>
    have hadvance := step_advance w callback ok
    revert hnote hnext hadvance
    generalize (Marks.step w (.advance callback ok)).1 = w'
    generalize (Marks.step w (.advance callback ok)).2 = new
    intro hnote hnext hadvance
    cases hadvance with
    | applied => cases hnote
    | failure hhealth hin hrec hfail =>
      cases List.mem_singleton.mp hnote
      rw [hin, hrec, decide_eq_true (by omega : 0 < w'.failures)] at hnext
      refine ⟨?_, ?_, hnext.allMarked_eq⟩
      · rw [← UInt64.toNat_inj, hnext.toNat_inFlight, h.counted.toNat_inFlight]
      · rw [← UInt64.toNat_inj, hnext.toNat_reported, h.counted.toNat_reported]
    | reported hhealth hin hrec hfail =>
      cases List.mem_singleton.mp hnote
      rw [hin, hrec, hfail] at hnext
      refine ⟨?_, ?_, ?_⟩
      · rw [← UInt64.toNat_inj, hnext.toNat_inFlight, h.counted.toNat_inFlight]
      · rw [hnext.toNat_reported, h.counted.toNat_reported]
      · rw [hnext.allMarked_eq, h.counted.allMarked_eq]
    | done hhealth hin hrec hfail =>
      cases List.mem_singleton.mp hnote
      rw [hrec, hfail] at hnext
      refine ⟨?_, ?_, ?_⟩
      · rw [hnext.toNat_inFlight, h.counted.toNat_inFlight, hin]
      · rw [← UInt64.toNat_inj, hnext.toNat_reported, h.counted.toNat_reported]
      · rw [hnext.allMarked_eq, h.counted.allMarked_eq]

/-- Where nothing is in flight and nothing failed, every callback is done with its mark applied. -/
theorem forall_done_iff (w : World) : (∀ callback ∈ w.callbacks, callback = .done true) ↔
    w.inFlight = 0 ∧ ¬ 0 < w.failures := by
  rw [World.inFlight, World.failures, List.countP_eq_zero, List.countP_pos_iff]
  push Not
  rw [← forall₂_and]
  refine forall₂_congr fun callback _ => ?_
  cases callback with
  | done ok => cases ok <;> decide
  | outcome ok => simp [Phase.inFlight]
  | reported ok => simp [Phase.inFlight]
  | admitted => decide
  | latched => decide

/-- **The word decodes.** In every run whose counts fit the fields, the word's fields are the number
of callbacks admitted and not done, the number of outcomes recorded, and whether a failure was
noted; an operation changes its own field alone; and the word is healthy exactly when some callback
was admitted and all are done with their marks applied. -/
theorem mark_health_decodes (actions : List Action)
    (hwithin : ∀ before after, actions = before ++ after →
     (Machine.run step start before).1.Within) :
    let w := (Machine.run step start actions).1
    w.health.inFlight.toNat = w.inFlight ∧ w.health.reported.toNat = w.recorded ∧
    (w.health.allMarked = false ↔ .failure ∈ (Machine.run step start actions).2) ∧
    (w.health.healthy = true ↔ w.callbacks ≠ [] ∧ ∀ callback ∈ w.callbacks, callback = .done true) ∧
    ∀ before a after, actions = before ++ a :: after →
      ∀ note ∈ (step (Machine.run step start before).1 a).2,
        note.Moves (Machine.run step start before).1.health
          (step (Machine.run step start before).1 a).1.health := by
  have hinv : ∀ before after, actions = before ++ after →
      Inv (Machine.run step start before).1 (Machine.run step start before).2 := by
    intro before after hsplit
    refine Machine.run_inv_of_steps (fun w a => (step w a).1.Within) Inv (fun _ _ _ h hinv =>
      hinv.step h) start
      inv_start before fun first a rest hbefore => ?_
    have hstep := hwithin (first ++ [a]) (rest ++ after) (by rw [hsplit, hbefore]; simp)
    rwa [Machine.run_snoc] at hstep
  have hend := hinv actions [] (List.append_nil _).symm
  refine ⟨hend.counted.toNat_inFlight, hend.counted.toNat_reported, ?_, ?_, ?_⟩
  · rw [hend.counted.allMarked_eq, hend.noted]
    simp
  · rw [hend.counted.healthy_iff, decide_eq_false_iff_not, ← forall_done_iff]
    refine and_congr_left fun hall => ?_
    rw [World.recorded, List.countP_pos_iff]
    constructor
    · rintro ⟨callback, hmem, -⟩
      exact List.ne_nil_of_mem hmem
    · intro hne
      obtain ⟨callback, hmem⟩ := List.exists_mem_of_ne_nil _ hne
      exact ⟨callback, hmem, by rw [hall callback hmem]; rfl⟩
  · intro before a after hsplit note hnote
    have hstep := hwithin (before ++ [a]) after (by rw [hsplit]; simp)
    rw [Machine.run_snoc] at hstep
    exact moves_of_step hstep (hinv before (a :: after) hsplit) hnote

/-- Two overlapping callbacks, the first done while the second's mark fails. -/
theorem mark_health_decodes_overlap :
    let actions := [.protect, .protect, .advance 0 true, .advance 0 true, .advance 0 true,
      .advance 1 false,
      .advance 1 true]
    (Machine.run step start actions).1.health.inFlight.toNat = 1 ∧
      (Machine.run step start actions).1.health.reported.toNat = 1 ∧
      (Machine.run step start actions).1.health.allMarked = false := by
  intro actions
  have hwithin : ∀ before after, actions = before ++ after →
    (Machine.run step start before).1.Within := by
    intro before after hsplit
    have hprefixes : ∀ before ∈ actions.inits, (Machine.run step start before).1.Within := by decide
    exact hprefixes before ((List.mem_inits _ _).mpr ⟨after, hsplit.symm⟩)
  obtain ⟨hinFlight, hreported, hfailed, -, -⟩ := mark_health_decodes actions hwithin
  exact ⟨hinFlight, hreported, hfailed.mpr (by decide)⟩

end Marks

end ProtonWire
