import ProtonWire.Engine.Steps

/-!
# Control obligations

A control event that the bounded queue could not take stays in its recovery slot until the slots are
taken, or a settings update clears the refusals.

* `retain_spec`: retaining keeps one event per class, the newest;
* `SlotCase`, `slotCase_step`: what a step does to the slots;
* `forwarded_step`, `fifo_step`: what becomes of a forwarded event;
* **`obligations_kept`**: no control obligation is lost along any run.
-/

namespace ProtonWire.Engine

variable {π : Type}

/-! ## Retention -/

theorem isFatal_iff {event : EngineEvent π} : event.isFatal = true ↔ event = .certificateFatal := by
  cases event <;> simp [EngineEvent.isFatal]

theorem criticalClass_eq_fatal {event : EngineEvent π} :
    criticalClass event = .certificateFatal ↔ event = .certificateFatal := by
  cases event with
  | apiError endpoint code invalid => cases invalid <;> simp [criticalClass]
  | _ => simp [criticalClass]

theorem isRefusal_congr {event event' : EngineEvent π}
    (h : criticalClass event = criticalClass event') :
    event.isRefusal = event'.isRefusal := by
  have hclass : ∀ e : EngineEvent π, e.isRefusal = true ↔
    ∃ setting, criticalClass e = .settingRefused setting := by
    intro e
    cases e with
    | apiError endpoint code invalid =>
      cases invalid <;> simp [criticalClass, EngineEvent.isRefusal]
    | _ => simp [criticalClass, EngineEvent.isRefusal]
  rw [Bool.eq_iff_iff, hclass, hclass, h]

theorem retain_spec (slot : List (EngineEvent π)) (critical : EngineEvent π)
    (hnodup : (slot.map criticalClass).Nodup) :
    critical ∈ retain slot critical ∧ ((retain slot critical).map criticalClass).Nodup ∧
      ∀ event ∈ slot, criticalClass event ≠ criticalClass critical →
        event ∈ retain slot critical := by
  unfold retain
  cases hfind : slot.findIdx? fun existing => criticalClass existing = criticalClass critical with
  | none =>
    have hnew := List.findIdx?_eq_none_iff.mp hfind
    refine ⟨by simp, ?_, fun event hmem _ => List.mem_append_left _ hmem⟩
    rw [List.map_append, List.map_singleton]
    refine List.Nodup.append hnodup (List.nodup_singleton _) fun c hmem hc => ?_
    obtain ⟨event, hevent, rfl⟩ := List.mem_map.mp hmem
    exact of_decide_eq_false (hnew event hevent) (List.mem_singleton.mp hc)
  | some index =>
    obtain ⟨hlt, hclass, -⟩ := List.findIdx?_eq_some_iff_getElem.mp hfind
    have hclass : criticalClass slot[index] = criticalClass critical := of_decide_eq_true hclass
    -- a terminal event is equal to the one that is there
    have hfatal : critical = .certificateFatal → critical ∈ slot := fun h => by
      rw [h] at hclass ⊢
      rw [← criticalClass_eq_fatal.mp hclass]
      exact List.getElem_mem hlt
    dsimp only
    rw [List.getElem?_eq_getElem hlt, Option.any_some]
    split_ifs with hold hnew
    · have hfatal' : critical = .certificateFatal := by
        rw [isFatal_iff.mp hold] at hclass
        exact criticalClass_eq_fatal.mp hclass.symm
      exact ⟨hfatal hfatal', hnodup, fun event hmem _ => hmem⟩
    · refine ⟨List.mem_set hlt critical, ?_, fun event hmem hne => ?_⟩
      · rw [List.map_set, ← hclass, ← List.getElem_map criticalClass
          (h := by rwa [List.length_map]),
          List.set_getElem_self]
        exact hnodup
      · obtain ⟨j, hj, rfl⟩ := List.getElem_of_mem hmem
        have hij : index ≠ j := fun h => hne (by subst h; exact hclass)
        rw [← List.getElem_set_ne hij (a := critical) (by rwa [List.length_set])]
        exact List.getElem_mem _
    · exact ⟨hfatal (isFatal_iff.mp (Bool.not_eq_false _ ▸ hnew)), hnodup, fun event hmem _ => hmem⟩

theorem mem_retain {slot : List (EngineEvent π)} {critical event : EngineEvent π}
    (h : event ∈ retain slot critical) :
    event ∈ slot ∨ event = critical := by
  unfold retain at h
  split at h
  · split_ifs at h
    · exact .inl h
    · exact List.mem_or_eq_of_mem_set h
    · exact .inl h
  · exact (List.mem_append.mp h).imp id List.mem_singleton.mp

theorem getLast?_takeOrder {slot : List (EngineEvent π)} (h : .certificateFatal ∈ slot) :
    (takeOrder slot).getLast? = some .certificateFatal := by
  have hmem : .certificateFatal ∈ takeOrder slot := StableSort.mem_sortKey.mpr h
  obtain ⟨front, last, hsnoc⟩ : ∃ front last, takeOrder slot = front ++ [last] :=
    ⟨_, _, (List.dropLast_append_getLast (List.ne_nil_of_mem hmem)).symm⟩
  have hsorted := StableSort.pairwise_sortKey EngineEvent.isFatal slot
  change (takeOrder slot).Pairwise _ at hsorted
  rw [hsnoc] at hmem hsorted ⊢
  rw [List.getLast?_concat]
  rcases List.mem_append.mp hmem with hfront | hlast
  · have hle : EngineEvent.isFatal .certificateFatal ≤ last.isFatal :=
      (List.pairwise_append.mp hsorted).2.2 _ hfront last (List.mem_singleton_self last)
    rw [isFatal_iff.mp (Bool.eq_true_of_true_le hle)]
  · rw [List.mem_singleton.mp hlast]

namespace ForwardingLane

/-! ## What a step does -/

/-- The records about the slots. -/
def Trace.slots : Trace π → Bool
  | forwarded _ .retained | taken _ | cleared => true
  | _ => false

/-- What a step does to the slots, and what it records. -/
inductive SlotCase (slots : List (EngineEvent π)) : List (EngineEvent π) → List (Trace π) → Prop
  | quiet {trace : List (Trace π)} (h : ∀ record ∈ trace, record.slots = false) :
    SlotCase slots slots trace
  | retained {event : EngineEvent π} (h : event.isControl = true) :
    SlotCase slots (retain slots event) [.forwarded event .retained]
  | taken : SlotCase slots [] [.taken (takeOrder slots)]
  | cleared : SlotCase slots (slots.filter fun event => !event.isRefusal) [.cleared]

/-- **One step on the slots.** -/
theorem StepCase.slotCase {lane lane' : ForwardingLane π} {trace : List (Trace π)}
    (h : StepCase lane lane' trace) :
    SlotCase lane.critical lane'.critical trace := by
  cases h with
  | retained event rest epoch h hcontrol => exact .retained hcontrol
  | cleared h => exact .cleared
  | taken hhandle => exact .taken
  | _ => exact .quiet (by simp [Trace.slots])

/-- An event that the queue took. -/
def Trace.sent? : Trace π → Option (EngineEvent π)
  | forwarded event .enqueued => some event
  | _ => none

/-- An event that a receiver got. -/
def Trace.received? : Trace π → Option (EngineEvent π)
  | received event => some event
  | _ => none

/-- **The queue is first in, first out**, and within its capacity. -/
theorem StepCase.fifo {lane lane' : ForwardingLane π} {trace : List (Trace π)}
    (h : StepCase lane lane' trace) (hbound : lane.queue.length ≤ lane.capacity) :
    lane.queue ++ trace.filterMap Trace.sent? = trace.filterMap Trace.received? ++ lane'.queue ∧
      lane'.queue.length ≤ lane'.capacity := by
  cases h with
  | enqueued event rest epoch h hroom =>
    refine ⟨rfl, ?_⟩
    rw [List.length_append]
    exact hroom
  | handedOver event rest epoch h hcapacity =>
    -- a queue without capacity is empty
    have hempty : lane.queue = [] := List.length_eq_zero_iff.mp (by omega)
    rw [hempty]
    exact ⟨rfl, Nat.zero_le _⟩
  | received event queue hhandle hqueue =>
    rw [hqueue] at hbound ⊢
    exact ⟨List.append_nil _, Nat.le_of_succ_le hbound⟩
  | _ => exact ⟨List.append_nil _, hbound⟩

/-- **What becomes of a forwarded control event.** -/
theorem StepCase.outcome {lane lane' : ForwardingLane π} {trace : List (Trace π)}
    (h : StepCase lane lane' trace)
    {event : EngineEvent π} {outcome : Outcome} (hmem : .forwarded event outcome ∈ trace)
    (hcontrol : event.isControl = true) :
    outcome = .enqueued ∨ outcome = .retained ∨ outcome = .disconnected ∧ lane.handle = false := by
  cases h with
  | disconnected event' rest epoch h hgone =>
    simp only [List.mem_singleton, Trace.forwarded.injEq] at hmem
    exact .inr (.inr ⟨hmem.2, hgone⟩)
  | dropped event' rest epoch h hother =>
    simp only [List.mem_singleton, Trace.forwarded.injEq] at hmem
    rw [hmem.1, hother] at hcontrol
    cases hcontrol
  | enqueued | handedOver | retained =>
    simp at hmem
    simp [hmem]
  | _ => simp at hmem

theorem StepCase.handle {lane lane' : ForwardingLane π} {trace : List (Trace π)}
    (h : StepCase lane lane' trace)
    (hgone : lane'.handle = false) : lane.handle = false ∨ .handleDropped ∈ trace := by
  cases h with
  | handleDropped => exact .inr (by simp)
  | _ => exact .inl hgone

/-! ## Obligations -/

/-- The records that end what holds an event in its slot. -/
def Trace.ends (event : EngineEvent π) : Trace π → Bool
  | taken _ => true
  | cleared => event.isRefusal
  | _ => false

/-- Among some events there is one of an event's class that is at least as new: the event, or one
retained since. -/
def Held (event : EngineEvent π) (slots : List (EngineEvent π)) (since : List (Trace π)) : Prop :=
  ∃ kept ∈ slots, criticalClass kept = criticalClass event ∧
    (kept = event ∨ .forwarded kept .retained ∈ since)

theorem SlotCase.held {slots slots' : List (EngineEvent π)} {trace since : List (Trace π)}
    {event : EngineEvent π}
    (h : SlotCase slots slots' trace) (hnodup : (slots.map criticalClass).Nodup)
    (hheld : Held event slots since)
    (hkeep : ∀ record ∈ trace, record.ends event = false) : Held event slots' (since ++ trace) := by
  obtain ⟨kept, hmem, hclass, hnew⟩ := hheld
  have hnew' : ∀ trace, kept = event ∨ .forwarded kept .retained ∈ since ++ trace := fun trace =>
    hnew.imp id (List.mem_append_left trace)
  cases h with
  | quiet => exact ⟨kept, hmem, hclass, hnew' _⟩
  | @retained later hcontrol =>
    obtain ⟨hlater, -, hothers⟩ := retain_spec slots later hnodup
    by_cases hsame : criticalClass kept = criticalClass later
    · exact ⟨later, hlater, hsame.symm.trans hclass,
        .inr (List.mem_append_right _ (List.mem_singleton_self _))⟩
    · exact ⟨kept, hothers kept hmem hsame, hclass, hnew' _⟩
  | taken => exact absurd (hkeep _ (List.mem_singleton_self _)) Bool.true_eq_false.mp
  | cleared =>
    have hother : event.isRefusal = false := hkeep _ (List.mem_singleton_self _)
    rw [← isRefusal_congr hclass] at hother
    exact ⟨kept, List.mem_filter.mpr ⟨hmem, by rw [hother]; rfl⟩, hclass, hnew' _⟩

theorem SlotCase.nodup {slots slots' : List (EngineEvent π)} {trace : List (Trace π)}
    (h : SlotCase slots slots' trace)
    (hnodup : (slots.map criticalClass).Nodup) : (slots'.map criticalClass).Nodup := by
  cases h with
  | quiet => exact hnodup
  | @retained later hcontrol => exact (retain_spec slots later hnodup).2.1
  | taken => exact List.nodup_nil
  | cleared => exact hnodup.sublist (List.filter_sublist.map criticalClass)

/-- No control obligation is lost: how a lane stands to its history. -/
structure Kept (lane : ForwardingLane π) (history : List (Trace π)) : Prop where
  /-- A control event is enqueued or retained, unless the handle is gone. -/
  forwarded : ∀ past event outcome since, history = past ++ .forwarded event outcome :: since →
    event.isControl = true →
      outcome = .enqueued ∨ outcome = .retained ∨ outcome = .disconnected ∧ .handleDropped ∈ past
  /-- What was enqueued was received, or is in the queue. -/
  fifo : history.filterMap Trace.sent? = history.filterMap Trace.received? ++ lane.queue
  /-- A retained event is held until its slot ends. -/
  held : ∀ past event since, history = past ++ .forwarded event .retained :: since →
    (∀ record ∈ since, record.ends event = false) → Held event lane.critical since
  /-- The next take returns what is held. -/
  taken : ∀ past event since events rest,
    history = past ++ .forwarded event .retained :: (since ++ .taken events :: rest) →
      (∀ record ∈ since, record.ends event = false) → Held event events since
  /-- A retained terminal event stays until it is taken. -/
  fatal : ∀ past since, history = past ++ .forwarded .certificateFatal .retained :: since →
    (∀ events, .taken events ∉ since) → .certificateFatal ∈ lane.critical
  /-- A terminal event is returned last. -/
  fatalLast : ∀ events, .taken events ∈ history → .certificateFatal ∈ events →
    events.getLast? = some .certificateFatal
  /-- There is one retained event per class. -/
  nodup : (lane.critical.map criticalClass).Nodup

theorem SlotCase.mem_of_retained {slots slots' : List (EngineEvent π)} {trace : List (Trace π)}
    {event : EngineEvent π}
    (h : SlotCase slots slots' trace) (hnodup : (slots.map criticalClass).Nodup)
    (hmem : .forwarded event .retained ∈ trace) : event ∈ slots' := by
  cases h with
  | quiet hquiet => exact absurd (hquiet _ hmem) Bool.true_eq_false.mp
  | @retained event' hcontrol =>
    cases List.mem_singleton.mp hmem
    exact (retain_spec slots event hnodup).1
  | taken => simp at hmem
  | cleared => simp at hmem

theorem SlotCase.eq_of_taken {slots slots' : List (EngineEvent π)} {trace : List (Trace π)}
    {events : List (EngineEvent π)} (h : SlotCase slots slots' trace)
    (hmem : .taken events ∈ trace) :
    trace = [.taken events] ∧ events = takeOrder slots := by
  cases h with
  | quiet hquiet => exact absurd (hquiet _ hmem) Bool.true_eq_false.mp
  | retained => simp at hmem
  | taken =>
    cases List.mem_singleton.mp hmem
    exact ⟨rfl, rfl⟩
  | cleared => simp at hmem

/-- **A step keeps the obligations.** -/
theorem Kept.step {lane lane' : ForwardingLane π} {history trace : List (Trace π)}
    (hkept : Kept lane history)
    (h : StepCase lane lane' trace) (hbound : lane.queue.length ≤ lane.capacity)
    (hgone : lane.handle = false → .handleDropped ∈ history) : Kept lane' (history ++ trace) := by
  have hslots := h.slotCase
  have hheld : ∀ past event since, history ++ trace = past ++ .forwarded event .retained :: since →
      (∀ record ∈ since, record.ends event = false) → Held event lane'.critical since := by
    intro past event since heq hkeep
    rcases Machine.append_eq_append_cons heq with ⟨mid, hpast, rfl⟩ | ⟨mid, rfl, rfl⟩
    · exact hslots.held hkept.nodup (hkept.held past event mid hpast fun record hmem =>
        hkeep record (List.mem_append_left _ hmem)) fun record hmem =>
        hkeep record (List.mem_append_right _ hmem)
    · exact ⟨event, hslots.mem_of_retained hkept.nodup (by simp), rfl, .inl rfl⟩
  refine ⟨?forwarded, ?fifo, hheld, ?taken, ?fatal, ?fatalLast, hslots.nodup hkept.nodup⟩
  case forwarded =>
    intro past event outcome since heq hcontrol
    rcases Machine.append_eq_append_cons heq with ⟨mid, hpast, rfl⟩ | ⟨mid, rfl, rfl⟩
    · exact hkept.forwarded past event outcome mid hpast hcontrol
    · refine (h.outcome (by simp) hcontrol).imp id (Or.imp id (And.imp id fun hfalse => ?_))
      exact List.mem_append_left _ (hgone hfalse)
  case fifo =>
    rw [List.filterMap_append, List.filterMap_append, hkept.fifo, List.append_assoc,
      (h.fifo hbound).1, List.append_assoc]
  case taken =>
    intro past event since events rest heq hkeep
    rw [← List.cons_append, ← List.append_assoc] at heq
    rcases Machine.append_eq_append_cons heq with ⟨mid, hpast, -⟩ | ⟨mid, rfl, hpast⟩
    · rw [List.append_assoc, List.cons_append] at hpast
      exact hkept.taken past event since events mid hpast hkeep
    · -- the step takes what is held before it
      have hmem : .taken events ∈ mid ++ .taken events :: rest :=
        List.mem_append_right mid List.mem_cons_self
      obtain ⟨hsingle, rfl⟩ := hslots.eq_of_taken hmem
      obtain ⟨rfl, -⟩ := List.append_eq_singleton_iff.mp hsingle |>.resolve_right (by simp)
      obtain ⟨kept, hmem, hrest⟩ := hkept.held past event since
        (by rw [hpast, List.append_nil]) hkeep
      exact ⟨kept, StableSort.mem_sortKey.mpr hmem, hrest⟩
  case fatal =>
    intro past since heq huntaken
    obtain ⟨kept, hmem, hclass, -⟩ := hheld past _ since heq fun record hrecord => by
      cases record with
      | taken events => exact absurd hrecord (huntaken events)
      | _ => rfl
    rwa [criticalClass_eq_fatal.mp hclass] at hmem
  case fatalLast =>
    intro events hmem hfatal
    rcases List.mem_append.mp hmem with hold | hnew
    · exact hkept.fatalLast events hold hfatal
    · obtain ⟨-, rfl⟩ := hslots.eq_of_taken hnew
      exact getLast?_takeOrder (StableSort.mem_sortKey.mp hfatal)

/-- **No control obligation is lost**, for every capacity and along every run. -/
theorem obligations_kept (π : Type) (capacity : ℕ) (requested : EngineAgentSettings)
    (actions : List (Action π)) :
    Kept (Machine.run step (ForwardingLane.new π capacity requested) actions).1
      (Machine.run step (ForwardingLane.new π capacity requested) actions).2 := by
  have hnew : Kept (ForwardingLane.new π capacity requested) [] :=
    ⟨by simp, rfl, by simp, by simp, by simp, by simp, List.nodup_nil⟩
  have hrun := Machine.run_inv
    (fun lane history => lane.queue.length ≤ lane.capacity ∧
     (lane.handle = false → .handleDropped ∈ history) ∧
      Kept lane history)
    (fun lane history action hinv => by
      obtain ⟨hbound, hgone, hkept⟩ := hinv
      have h := stepCase_step lane action
      refine ⟨(h.fifo hbound).2, fun hfalse => ?_, hkept.step h hbound hgone⟩
      exact List.mem_append.mpr ((h.handle hfalse).imp hgone id))
    (ForwardingLane.new π capacity requested) [] ⟨Nat.zero_le _, nofun, hnew⟩ actions
  exact hrun.2.2

end ForwardingLane

end ProtonWire.Engine
