import ProtonWire.Engine.Epochs
import ProtonWire.Engine.Obligations

/-!
# Stale refusals

A refusal is noted in the ledger and retained in its slot in two steps, and a settings update fits
between them: it clears the slots, and then the refusal of the earlier request is put there.

* `FreshRefusals`: the ledger and the slots have only refusals of callbacks that entered after every
  update that has returned;
* `RetainsFresh`: no refusal is retained that was noted before the slots were last cleared;
* **`refusals_fresh`**: the refusals stay fresh along the runs that retain fresh ones.
-/

namespace ProtonWire.Engine.ForwardingLane

variable {π : Type}

/-- A refusal was noted by a callback that entered after the latest update. -/
def Noted (history : List (Trace π)) (setting : EngineSettingType) : Prop :=
  ∃ (past mid since : List (Trace π)) (epoch : ℕ), history = past ++
    .entered :: (mid ++ .noted setting epoch :: since) ∧
    .entered ∉ mid ∧ .advanced ∉ mid ∧ .advanced ∉ since

/-- How fresh refusals stand to the history. -/
structure FreshRefusals (lane : ForwardingLane π) (history : List (Trace π)) : Prop where
  refused : ∀ setting ∈ lane.ledger.refused, Noted history setting
  /-- A refusal of the slots was retained by a callback that entered after the updates that have
  returned. -/
  slots : ∀ setting stamp, .settingRefused setting stamp ∈ lane.critical →
    ∃ epoch, DoneBy history (.forwarded (.settingRefused setting stamp) .retained) epoch ∧
      returns history ≤ epoch

/-- The updates that have cleared the slots. -/
def clears (lane : ForwardingLane π) : ℕ :=
  if lane.update = .advanced then lane.ledger.epoch - 1 else lane.ledger.epoch

/-- A step that retains a refusal finds the slots as they were when its callback entered: no update
has cleared them since. -/
def RetainsFresh (lane : ForwardingLane π) : Action π → Prop
  | .callback _ =>
    match lane.callback with
    | .full (.settingRefused _ stamp) _ _ => lane.clears ≤ stamp
    | _ => True
  | _ => True

instance (lane : ForwardingLane π) (action : Action π) : Decidable (RetainsFresh lane action) := by
  unfold RetainsFresh
  split
  · split <;> infer_instance
  · infer_instance

variable {lane lane' : ForwardingLane π} {history trace : List (Trace π)}

/-! ## The ledger -/

theorem StepCase.refused_cases {setting : EngineSettingType} (h : StepCase lane lane' trace)
    (hrefused : setting ∈ lane'.ledger.refused) :
    (∃ epoch, trace = [.noted setting epoch] ∧ lane.callback.epoch = some lane.ledger.epoch) ∨
      (setting ∈ lane.ledger.refused ∧ .advanced ∉ trace) := by
  cases h with
  | refused setting' stamp rest epoch h hlock hepoch =>
    change setting ∈ (lane.ledger.noteRefused setting' epoch).2.refused at hrefused
    unfold FeatureReconciliation.noteRefused at hrefused
    split_ifs at hrefused with hstale hold
    · exact .inr ⟨hrefused, by simp⟩
    · exact .inr ⟨hrefused, by simp⟩
    · rcases List.mem_append.mp hrefused with hbefore | hnew
      · exact .inr ⟨hbefore, by simp⟩
      · rw [List.mem_singleton.mp hnew, h, ← hepoch]
        exact .inl ⟨epoch, rfl, rfl⟩
  | applied state report epoch =>
    change setting ∈ (lane.ledger.noteApplied report epoch).refused at hrefused
    unfold FeatureReconciliation.noteApplied at hrefused
    split_ifs at hrefused <;> exact .inr ⟨hrefused, by simp⟩
  | unconfirmed => cases hrefused
  | requested => cases hrefused
  | _ => exact .inr ⟨hrefused, by simp⟩

theorem refused_step (hepochs : Epochs lane history) (h : StepCase lane lane' trace)
    (hfresh : ∀ setting ∈ lane.ledger.refused, Noted history setting) :
    ∀ setting ∈ lane'.ledger.refused, Noted (history ++ trace) setting := by
  intro setting hrefused
  rcases h.refused_cases hrefused with ⟨epoch, rfl, hcurrent⟩ | ⟨hbefore, hadvanced⟩
  · have hentered := hepochs.entered _ hcurrent
    rw [← hepochs.updates] at hentered
    obtain ⟨past, mid, rfl, hmid, hquiet⟩ := hentered.quiet
    exact ⟨past, mid, [], epoch, by rw [List.append_assoc, List.cons_append], hmid, hquiet, by simp⟩
  · obtain ⟨past, mid, since, epoch, rfl, hmid, hquiet, hsince⟩ := hfresh setting hbefore
    refine ⟨past, mid, since ++ trace, epoch, by simp, hmid, hquiet, fun hmem => ?_⟩
    exact (List.mem_append.mp hmem).elim hsince hadvanced

/-! ## The slots -/

theorem StepCase.clears_cases (h : StepCase lane lane' trace) :
    trace = [.cleared] ∨ lane'.clears = lane.clears := by
  have hsame : ∀ ledger : FeatureReconciliation, ledger.epoch = lane.ledger.epoch →
      clears { lane with ledger := ledger } = lane.clears := fun ledger heq => by
    unfold clears
    rw [heq]
  cases h with
  | applied state report epoch => exact .inr (hsame _ (noteApplied_epoch lane.ledger report epoch))
  | refused setting stamp rest epoch =>
    exact .inr (hsame _ (noteRefused_fields lane.ledger setting epoch).1)
  | requested settings hhandle hlock =>
    refine .inr ?_
    unfold clears
    rw [if_pos rfl, if_neg (by rw [hlock]; nofun)]
    rfl
  | cleared => exact .inl rfl
  | returned h =>
    refine .inr ?_
    unfold clears
    rw [if_neg nofun, if_neg (by rw [h]; nofun)]
  | _ => exact .inr rfl

theorem callback_of_retained {action : Action π} {event : EngineEvent π}
    (h : .forwarded event .retained ∈ (lane.step action).2) :
    ∃ rendezvous, action = .callback rendezvous := by
  cases action with
  | callback rendezvous => exact ⟨rendezvous, rfl⟩
  | update =>
    rw [step, updateStep] at h
    split at h <;> simp at h
  | _ =>
    rw [step] at h
    split at h <;> simp at h

theorem StepCase.slot_cases {setting : EngineSettingType} {stamp : ℕ}
    (h : StepCase lane lane' trace) (hslot : .settingRefused setting stamp ∈ lane'.critical) :
    (.settingRefused setting stamp ∈ lane.critical ∧ lane'.clears = lane.clears) ∨
      (trace = [.forwarded (.settingRefused setting stamp) .retained] ∧ lane'.clears = lane.clears ∧
        ∃ rest epoch, lane.callback = .full (.settingRefused setting stamp) rest epoch) := by
  have hclears := h.clears_cases
  cases h with
  | retained event rest epoch h hcontrol =>
    have hclears := hclears.resolve_left nofun
    rcases mem_retain hslot with hbefore | rfl
    · exact .inl ⟨hbefore, hclears⟩
    · exact .inr ⟨rfl, hclears, rest, epoch, h⟩
  | cleared =>
    have hkept := (List.mem_filter.mp hslot).2
    cases hkept
  | taken => cases hslot
  | _ => exact .inl ⟨hslot, hclears.resolve_left nofun⟩

/-- **A step keeps the slots' refusals fresh**, where what it retains is. -/
theorem slots_step (hepochs : Epochs lane history) (action : Action π)
    (hretains : RetainsFresh lane action)
    (hfresh : ∀ setting stamp, .settingRefused setting stamp ∈ lane.critical →
      DoneBy history (.forwarded (.settingRefused setting stamp) .retained) stamp ∧
      lane.clears ≤ stamp) :
    ∀ setting stamp, .settingRefused setting stamp ∈ (lane.step action).1.critical →
      DoneBy (history ++ (lane.step action).2)
      (.forwarded (.settingRefused setting stamp) .retained) stamp ∧
        (lane.step action).1.clears ≤ stamp := by
  intro setting stamp hslot
  rcases (stepCase_step lane action).slot_cases hslot with
    ⟨hbefore, hclears⟩ | ⟨htrace, hclears, rest, epoch, hfull⟩
  · rw [hclears]
    exact (hfresh setting stamp hbefore).imp_left fun hdone => hdone.append _
  · obtain ⟨rendezvous, rfl⟩ : ∃ rendezvous, action = .callback rendezvous :=
      callback_of_retained (htrace ▸ List.mem_singleton_self _)
    have hentered : EnteredAt history stamp :=
      hepochs.entered stamp (hepochs.stamp setting stamp (by rw [hfull]; rfl))
    rw [RetainsFresh, hfull] at hretains
    rw [htrace, hclears]
    exact ⟨hentered.doneBy _, hretains⟩

theorem Epochs.returns_le_clears (hepochs : Epochs lane history) :
    ForwardingLane.returns history ≤ lane.clears := by
  have hreturns := hepochs.returns
  unfold clears
  split_ifs at hreturns ⊢ with hidle hadvanced
  · cases hidle.symm.trans hadvanced
  · omega
  · omega
  · omega

/-! ## Runs -/

/-- **Refusals stay fresh along the runs that retain fresh ones.** -/
theorem refusals_fresh (π : Type) (capacity : ℕ) (requested : EngineAgentSettings)
    (actions : List (Action π))
    (h : Machine.Along step RetainsFresh (ForwardingLane.new π capacity requested) actions) :
    FreshRefusals (Machine.run step (ForwardingLane.new π capacity requested) actions).1
      (Machine.run step (ForwardingLane.new π capacity requested) actions).2 := by
  have hrun := Machine.run_inv_of_steps RetainsFresh
    (fun lane history => Epochs lane history ∧
      (∀ setting ∈ lane.ledger.refused, Noted history setting) ∧
      ∀ setting stamp, .settingRefused setting stamp ∈ lane.critical →
        DoneBy history (.forwarded (.settingRefused setting stamp) .retained) stamp ∧
        lane.clears ≤ stamp)
    (fun lane history action hretains hinv => by
      obtain ⟨hepochs, hrefused, hslots⟩ := hinv
      have hcase := stepCase_step lane action
      exact ⟨hepochs.step hcase, refused_step hepochs hcase hrefused,
        slots_step hepochs action hretains hslots⟩)
    (ForwardingLane.new π capacity requested)
    ⟨epochs_new π capacity requested, nofun, nofun⟩ actions h.at_step
  obtain ⟨hepochs, hrefused, hslots⟩ := hrun
  refine ⟨hrefused, fun setting stamp hslot => ?_⟩
  obtain ⟨hdone, hclears⟩ := hslots setting stamp hslot
  exact ⟨stamp, hdone, hepochs.returns_le_clears.trans hclears⟩

/-- A fork selector fills a queue of one, and a refusal is noted and finds it full. -/
def refusalAtFullQueue : List (Action Unit) :=
  [.onEvent (.localAgentError .forkSelectorNeeded), .callback false, .callback false,
   .callback false, .callback false,
   .onEvent (.localAgentError (.localAgentSettingPolicyRefused .netshieldLevel)), .callback false,
   .callback false, .callback false]

/-- A whole settings update. -/
def wholeUpdate : List (Action Unit) := [.updateAgentSettings {}, .update, .update]

/-- The refusal is retained after the update, or the update goes in between. -/
def updateFirst : List (Action Unit) := wholeUpdate ++ refusalAtFullQueue ++ [Action.callback false]

def updateBetween : List (Action Unit) :=
  refusalAtFullQueue ++ wholeUpdate ++ [Action.callback false]

theorem refusals_fresh_updateFirst :
    FreshRefusals (Machine.run step (ForwardingLane.new Unit 1 {}) updateFirst).1
      (Machine.run step (ForwardingLane.new Unit 1 {}) updateFirst).2 :=
  refusals_fresh Unit 1 {} updateFirst (by decide)

theorem run_updateBetween :
    Machine.run step (ForwardingLane.new Unit 1 {}) updateBetween =
      ({ ForwardingLane.new Unit 1 {} with
          queue := [.forkSelectorNeeded]
          critical := [.settingRefused .netshield 0]
          controlsRetained := 1
          ledger := { requested := {}, epoch := 1 }
          callback := .events [] 0 },
        [.entered, .forwarded .forkSelectorNeeded .enqueued, .entered, .noted .netshield 0,
         .advanced, .cleared,
          .returned, .forwarded (.settingRefused .netshield 0) .retained]) := rfl

/-- **An update between the two steps leaves a stale refusal in its slot.** -/
theorem updateBetween_leaves_refusal :
    ¬ FreshRefusals (Machine.run step (ForwardingLane.new Unit 1 {}) updateBetween).1
      (Machine.run step (ForwardingLane.new Unit 1 {}) updateBetween).2 := by
  intro hfresh
  rw [run_updateBetween] at hfresh
  obtain ⟨epoch, hdone, hreturns⟩ := hfresh.slots .netshield 0 (List.mem_singleton_self _)
  -- no callback enters once the update has advanced
  have hearly : epoch ≤ 0 := DoneBy.le_updates
    [.entered, .forwarded .forkSelectorNeeded .enqueued, .entered, .noted .netshield 0]
    [.advanced, .cleared, .returned, .forwarded (.settingRefused .netshield 0) .retained]
    hdone (by simp)
  have hlate : 1 ≤ epoch := hreturns
  omega

end ProtonWire.Engine.ForwardingLane
