import ProtonWire.Engine.Steps

/-!
# Epochs and callbacks

The request epoch counts the settings updates, so a callback's snapshot says how many there were
when it entered.

* `updates`, `returns`: the updates of a history that advanced the epoch, and that returned;
* `EnteredAt`, `DoneBy`: the callback that is running, and the one that did a step;
* **`epochs_run`**: how the lane's epochs stand to its history, after every run.
-/

namespace ProtonWire.Engine

variable {π : Type}

/-- The epoch that the running callback took at its entry. -/
def CallbackAt.epoch : CallbackAt π → Option ℕ
  | idle => none
  | stateLedger _ _ epoch | stateStore _ epoch | events _ epoch | forward _ _ epoch | send _ _ epoch
  | full _ _ epoch => some epoch

/-- The event that the running callback forwards. -/
def CallbackAt.event : CallbackAt π → Option (EngineEvent π)
  | forward event _ _ | send event _ _ | full event _ _ => some event
  | _ => none

namespace ForwardingLane

def Trace.isAdvanced : Trace π → Bool
  | advanced => true
  | _ => false

def Trace.isReturned : Trace π → Bool
  | returned => true
  | _ => false

/-- The updates that have advanced the epoch. -/
def updates (history : List (Trace π)) : ℕ := history.countP Trace.isAdvanced

/-- The updates that have returned. -/
def returns (history : List (Trace π)) : ℕ := history.countP Trace.isReturned

theorem updates_append (history trace : List (Trace π)) :
    updates (history ++ trace) = updates history + updates trace :=
  List.countP_append

theorem returns_append (history trace : List (Trace π)) :
    returns (history ++ trace) = returns history + returns trace :=
  List.countP_append

theorem updates_eq_zero {trace : List (Trace π)} : updates trace = 0 ↔ .advanced ∉ trace := by
  unfold updates
  rw [List.countP_eq_zero]
  refine ⟨fun h hmem => h _ hmem rfl, fun h record hmem hadvanced => h ?_⟩
  cases record <;> first | exact hmem | cases hadvanced

/-- The last callback entered after so many updates. -/
def EnteredAt (history : List (Trace π)) (epoch : ℕ) : Prop :=
  ∃ past since : List (Trace π), history = past ++ .entered :: since ∧ .entered ∉ since ∧
    updates past = epoch

/-- A record was made by a callback that entered after so many updates. -/
def DoneBy (history : List (Trace π)) (record : Trace π) (epoch : ℕ) : Prop :=
  ∃ past mid since : List (Trace π), history = past ++ .entered :: (mid ++ record :: since) ∧
    .entered ∉ mid ∧
    updates past = epoch

theorem EnteredAt.append {history : List (Trace π)} {epoch : ℕ} (h : EnteredAt history epoch)
    {trace : List (Trace π)} (htrace : .entered ∉ trace) : EnteredAt (history ++ trace) epoch := by
  obtain ⟨past, since, rfl, hsince, hpast⟩ := h
  refine ⟨past, since ++ trace, by rw [List.append_assoc, List.cons_append], ?_, hpast⟩
  exact fun hmem => (List.mem_append.mp hmem).elim hsince htrace

theorem EnteredAt.doneBy {history : List (Trace π)} {epoch : ℕ} (h : EnteredAt history epoch)
    (record : Trace π) :
    DoneBy (history ++ [record]) record epoch := by
  obtain ⟨past, since, rfl, hsince, hpast⟩ := h
  exact ⟨past, since, [], by rw [List.append_assoc, List.cons_append], hsince, hpast⟩

theorem DoneBy.append {history : List (Trace π)} {record : Trace π} {epoch : ℕ}
    (h : DoneBy history record epoch)
    (trace : List (Trace π)) : DoneBy (history ++ trace) record epoch := by
  obtain ⟨past, mid, since, rfl, hmid, hpast⟩ := h
  exact ⟨past, mid, since ++ trace, by simp, hmid, hpast⟩

theorem DoneBy.le_updates {record : Trace π} {epoch : ℕ} (before after : List (Trace π))
    (h : DoneBy (before ++ after) record epoch) (hafter : .entered ∉ after) :
    epoch ≤ updates before := by
  obtain ⟨past, mid, since, heq, -, rfl⟩ := h
  rcases Machine.append_eq_append_cons heq with ⟨rest, rfl, -⟩ | ⟨rest, rfl, -⟩
  · rw [updates_append]
    exact Nat.le_add_right _ _
  · exact absurd (List.mem_append_right rest List.mem_cons_self) hafter

/-- How a lane's epochs stand to its history. -/
structure Epochs (lane : ForwardingLane π) (history : List (Trace π)) : Prop where
  /-- The epoch counts the updates. -/
  updates : updates history = lane.ledger.epoch
  /-- All of them have returned, but for the one that is running. -/
  returns : returns history + (if lane.update = .idle then 0 else 1) = lane.ledger.epoch
  /-- The callback's snapshot is that of its entry. -/
  entered : ∀ epoch, lane.callback.epoch = some epoch → EnteredAt history epoch
  /-- A refusal in flight is stamped with it. -/
  stamp : ∀ setting stamp, lane.callback.event = some (.settingRefused setting stamp) →
    lane.callback.epoch = some stamp
  /-- After an update nothing is applied until a callback enters. -/
  stale : ∀ epoch, lane.callback.epoch = some epoch → epoch ≠ lane.ledger.epoch →
    lane.ledger.applied = none

/-- Since the entry of a callback whose epoch is current, no update advanced. -/
theorem EnteredAt.quiet {history : List (Trace π)} (h : EnteredAt history (updates history)) :
    ∃ past since : List (Trace π), history = past ++ .entered :: since ∧ .entered ∉ since ∧
      .advanced ∉ since := by
  obtain ⟨past, since, rfl, hsince, hpast⟩ := h
  have hsplit : updates (past ++ .entered :: since) = updates past + updates since :=
    updates_append _ _
  exact ⟨past, since, rfl, hsince, updates_eq_zero.mp (by omega)⟩

variable {lane lane' : ForwardingLane π} {history trace : List (Trace π)}

/-! ## What a step does to the epochs -/

theorem noteApplied_epoch (ledger : FeatureReconciliation) (report : EngineAgentSettings)
    (epoch : ℕ) :
    (ledger.noteApplied report epoch).epoch = ledger.epoch := by
  unfold FeatureReconciliation.noteApplied
  split_ifs <;> rfl

theorem noteRefused_fields (ledger : FeatureReconciliation) (setting : EngineSettingType)
    (epoch : ℕ) :
    (ledger.noteRefused setting epoch).2.epoch = ledger.epoch ∧
      (ledger.noteRefused setting epoch).2.applied = ledger.applied := by
  unfold FeatureReconciliation.noteRefused
  split_ifs <;> exact ⟨rfl, rfl⟩

theorem StepCase.ledger_epoch (h : StepCase lane lane' trace) :
    lane'.ledger.epoch = lane.ledger.epoch + updates trace := by
  cases h with
  | applied state report epoch => exact noteApplied_epoch lane.ledger report epoch
  | refused setting stamp rest epoch => exact (noteRefused_fields lane.ledger setting epoch).1
  | _ => rfl

theorem StepCase.returns (h : StepCase lane lane' trace) :
    returns trace + (if lane'.update = .idle then 0 else 1) =
      (if lane.update = .idle then 0 else 1) + updates trace := by
  cases h with
  | requested settings hhandle hlock =>
    rw [if_pos hlock]
    rfl
  | cleared h =>
    rw [h]
    rfl
  | returned h =>
    rw [h]
    rfl
  | _ => exact Nat.zero_add _

/-- The running callback's snapshot is an earlier one, or it enters here. -/
theorem StepCase.entered {epoch : ℕ} (h : StepCase lane lane' trace)
    (hepoch : lane'.callback.epoch = some epoch) :
    (.entered ∉ trace ∧ lane.callback.epoch = some epoch) ∨
      (trace = [.entered] ∧ epoch = lane.ledger.epoch) := by
  cases h with
  | stay | requested | cleared | returned | taken | received | handleDropped =>
    exact .inl ⟨by simp, hepoch⟩
  | enterState | enterEvent => exact .inr ⟨rfl, (Option.some.inj hepoch).symm⟩
  | finished => cases hepoch
  | applied _ _ _ h | unconfirmed _ _ h | stored _ _ h | refused _ _ _ _ h | suppressed _ _ _ _ h
  | translated _ _ _ h | mirrored _ _ _ h | disconnected _ _ _ h | enqueued _ _ _ h
  | handedOver _ _ _ h | refusedByQueue _ _ _ h | dropped _ _ _ h | retained _ _ _ h =>
    rw [h]
    exact .inl ⟨by simp, hepoch⟩

theorem StepCase.stamp {setting : EngineSettingType} {stamp : ℕ} (h : StepCase lane lane' trace)
    (hevent : lane'.callback.event = some (.settingRefused setting stamp)) :
    lane'.callback.epoch = some stamp ∨
      lane.callback.event = some (.settingRefused setting stamp) ∧
      lane'.callback.epoch = lane.callback.epoch := by
  cases h with
  | stay | requested | cleared | returned | taken | received | handleDropped =>
    exact .inr ⟨hevent, rfl⟩
  | enterState | enterEvent | applied | unconfirmed | stored | finished | suppressed | disconnected
  | enqueued | handedOver | dropped | retained => cases hevent
  | refused =>
    cases hevent
    exact .inl rfl
  | translated event rest epoch h hother =>
    cases hevent
    cases hother
  | mirrored _ _ _ h | refusedByQueue _ _ _ h =>
    rw [h]
    exact .inr ⟨hevent, rfl⟩

theorem StepCase.applied_cases {report : EngineAgentSettings} (h : StepCase lane lane' trace)
    (happlied : lane'.ledger.applied = some report) :
    (trace = [.reported (some report)] ∧ lane.callback.epoch = some lane.ledger.epoch) ∨
      (lane.ledger.applied = some report ∧ .advanced ∉ trace ∧ ∀ other, .reported other ∈ trace →
        ∃ epoch, lane.callback.epoch = some epoch ∧ epoch ≠ lane.ledger.epoch) := by
  cases h with
  | applied state other epoch h hlock =>
    change (lane.ledger.noteApplied other epoch).applied = some report at happlied
    unfold FeatureReconciliation.noteApplied at happlied
    split_ifs at happlied with hstale
    · refine .inr ⟨happlied, by simp, fun _ _ => ⟨epoch, by rw [h]; rfl, hstale⟩⟩
    · cases happlied
      refine .inl ⟨rfl, ?_⟩
      rw [h, ← not_not.mp hstale]
      rfl
  | unconfirmed => cases happlied
  | requested => cases happlied
  | refused setting stamp rest epoch =>
    exact .inr ⟨(noteRefused_fields lane.ledger setting epoch).2.symm.trans happlied, by
      simp, by simp⟩
  | _ => exact .inr ⟨happlied, by simp, by simp⟩

/-- **A step keeps the epochs.** -/
theorem Epochs.step (hepochs : Epochs lane history) (h : StepCase lane lane' trace) :
    Epochs lane' (history ++ trace) := by
  have hledger := h.ledger_epoch
  refine ⟨?updates, ?returns, ?entered, ?stamp, ?stale⟩
  case updates => rw [updates_append, hepochs.updates, hledger]
  case returns => rw [returns_append, add_assoc, h.returns, ← add_assoc, hepochs.returns, hledger]
  case entered =>
    intro epoch hepoch
    rcases h.entered hepoch with ⟨hquiet, hbefore⟩ | ⟨rfl, rfl⟩
    · exact (hepochs.entered epoch hbefore).append hquiet
    · exact ⟨history, [], rfl, by simp, hepochs.updates⟩
  case stamp =>
    intro setting stamp hevent
    rcases h.stamp hevent with hstamp | ⟨hbefore, hsame⟩
    · exact hstamp
    · exact hsame.trans (hepochs.stamp setting stamp hbefore)
  case stale =>
    intro epoch hepoch hne
    by_contra happlied
    obtain ⟨report, happlied⟩ := Option.ne_none_iff_exists'.mp happlied
    rcases h.applied_cases happlied with ⟨rfl, hcurrent⟩ | ⟨hbefore, hadvanced, -⟩
    · -- the report is of the running callback, which is current
      rcases h.entered hepoch with ⟨-, hrunning⟩ | ⟨htrace, -⟩
      · exact hne ((Option.some.inj (hrunning.symm.trans hcurrent)).trans hledger.symm)
      · cases htrace
    · rw [updates_eq_zero.mpr hadvanced, Nat.add_zero] at hledger
      rcases h.entered hepoch with ⟨-, hrunning⟩ | ⟨-, rfl⟩
      · rw [hepochs.stale epoch hrunning fun heq => hne (heq.trans hledger.symm)] at hbefore
        cases hbefore
      · exact hne hledger.symm

theorem epochs_new (π : Type) (capacity : ℕ) (requested : EngineAgentSettings) :
    Epochs (ForwardingLane.new π capacity requested) [] :=
  ⟨rfl, rfl, nofun, nofun, nofun⟩

/-- **The epochs after every run.** -/
theorem epochs_run (π : Type) (capacity : ℕ) (requested : EngineAgentSettings)
    (actions : List (Action π)) :
    Epochs (Machine.run step (ForwardingLane.new π capacity requested) actions).1
      (Machine.run step (ForwardingLane.new π capacity requested) actions).2 :=
  Machine.run_inv Epochs (fun lane _ action hepochs =>
    hepochs.step (stepCase_step lane action)) _ []
    (epochs_new π capacity requested) actions

end ForwardingLane

end ProtonWire.Engine
