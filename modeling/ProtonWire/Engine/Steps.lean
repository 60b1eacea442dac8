import ProtonWire.Engine.Callbacks

/-!
# What a step of the lane can do

* `StepCase`: the steps, with their guards;
* **`stepCase_step`**: every action takes one of them.
-/

namespace ProtonWire.Engine.ForwardingLane

variable {π : Type}

/-- What one step leaves of the lane, and records. -/
inductive StepCase (lane : ForwardingLane π) : ForwardingLane π → List (Trace π) → Prop
  /-- The step is not enabled. -/
  | stay : StepCase lane lane []
  | enterState (state : π) (report : Option EngineAgentSettings) (h : lane.callback = .idle) :
    StepCase lane { lane with callback := .stateLedger state report lane.ledger.epoch } [.entered]
  | enterEvent (event : ProtunEvent π) (h : lane.callback = .idle) :
    StepCase lane { lane with callback := .events (translateEvent event) lane.ledger.epoch }
      [.entered]
  | applied (state : π) (report : EngineAgentSettings) (epoch : ℕ)
    (h : lane.callback = .stateLedger state (some report) epoch) (hlock : lane.update = .idle) :
    StepCase lane
      { lane with
        ledger := lane.ledger.noteApplied report epoch
        callback := .stateStore state epoch }
      [.reported (some report)]
  | unconfirmed (state : π) (epoch : ℕ) (h : lane.callback = .stateLedger state none epoch)
    (hlock : lane.update = .idle) :
    StepCase lane
      { lane with ledger := lane.ledger.noteUnconfirmed, callback := .stateStore state epoch }
      [.reported none]
  | stored (state : π) (epoch : ℕ) (h : lane.callback = .stateStore state epoch) :
    StepCase lane { lane with latest := some state, callback := .forward (.state state) [] epoch }
      []
  | finished (epoch : ℕ) (h : lane.callback = .events [] epoch) :
    StepCase lane { lane with callback := .idle } []
  | refused (setting : EngineSettingType) (stamp : ℕ) (rest : List (EngineEvent π)) (epoch : ℕ)
    (h : lane.callback = .events (.settingRefused setting stamp :: rest) epoch)
    (hlock : lane.update = .idle)
    (hepoch : epoch = lane.ledger.epoch) :
    StepCase lane { lane with ledger := (lane.ledger.noteRefused setting epoch).2,
                              callback := .forward (.settingRefused setting epoch) rest epoch }
      [.noted setting epoch]
  | suppressed (setting : EngineSettingType) (stamp : ℕ) (rest : List (EngineEvent π)) (epoch : ℕ)
    (h : lane.callback = .events (.settingRefused setting stamp :: rest) epoch)
    (hlock : lane.update = .idle)
    (hepoch : epoch ≠ lane.ledger.epoch) :
    StepCase lane { lane with callback := .events rest epoch } []
  | translated (event : EngineEvent π) (rest : List (EngineEvent π)) (epoch : ℕ)
    (h : lane.callback = .events (event :: rest) epoch) (hother : event.isRefusal = false) :
    StepCase lane { lane with callback := .forward event rest epoch } []
  | mirrored (event : EngineEvent π) (rest : List (EngineEvent π)) (epoch : ℕ)
    (h : lane.callback = .forward event rest epoch) (wgStats agentStats : Option π) :
    StepCase lane { lane with latestWgStats := wgStats, latestAgentStats := agentStats,
                              callback := .send event rest epoch } []
  | disconnected (event : EngineEvent π) (rest : List (EngineEvent π)) (epoch : ℕ)
    (h : lane.callback = .send event rest epoch) (hgone : lane.handle = false) :
    StepCase lane { lane with callback := .events rest epoch } [.forwarded event .disconnected]
  | enqueued (event : EngineEvent π) (rest : List (EngineEvent π)) (epoch : ℕ)
    (h : lane.callback = .send event rest epoch) (hroom : lane.queue.length < lane.capacity) :
    StepCase lane { lane with queue := lane.queue ++ [event], callback := .events rest epoch }
      [.forwarded event .enqueued]
  | handedOver (event : EngineEvent π) (rest : List (EngineEvent π)) (epoch : ℕ)
    (h : lane.callback = .send event rest epoch) (hcapacity : lane.capacity = 0) :
    StepCase lane { lane with callback := .events rest epoch }
      [.forwarded event .enqueued, .received event]
  | refusedByQueue (event : EngineEvent π) (rest : List (EngineEvent π)) (epoch : ℕ)
    (h : lane.callback = .send event rest epoch) (hfull : lane.capacity ≤ lane.queue.length) :
    StepCase lane { lane with callback := .full event rest epoch } []
  | dropped (event : EngineEvent π) (rest : List (EngineEvent π)) (epoch : ℕ)
    (h : lane.callback = .full event rest epoch) (hother : event.isControl = false)
    (stats states : ℕ) :
    StepCase lane
      { lane with droppedStats := stats, droppedStates := states, callback := .events rest epoch }
      [.forwarded event .dropped]
  | retained (event : EngineEvent π) (rest : List (EngineEvent π)) (epoch : ℕ)
    (h : lane.callback = .full event rest epoch) (hcontrol : event.isControl = true) :
    StepCase lane
      { lane with
        critical := retain lane.critical event
        controlsRetained := lane.controlsRetained + 1
        callback := .events rest epoch } [.forwarded event .retained]
  | requested (settings : EngineAgentSettings) (hhandle : lane.handle = true)
    (hlock : lane.update = .idle) :
    StepCase lane { lane with ledger := lane.ledger.noteRequested settings, update := .advanced }
      [.advanced]
  | cleared (h : lane.update = .advanced) :
    StepCase lane
      { lane with
        critical := lane.critical.filter fun event => !event.isRefusal
        update := .cleared }
      [.cleared]
  | returned (h : lane.update = .cleared) : StepCase lane { lane with update := .idle } [.returned]
  | taken (hhandle : lane.handle = true) :
    StepCase lane { lane with critical := [] } [.taken (takeOrder lane.critical)]
  | received (event : EngineEvent π) (queue : List (EngineEvent π)) (hhandle : lane.handle = true)
    (hqueue : lane.queue = event :: queue) :
    StepCase lane { lane with queue := queue } [.received event]
  | handleDropped (hhandle : lane.handle = true) (hlock : lane.update = .idle) :
    StepCase lane { lane with handle := false } [.handleDropped]

theorem stepCase_callbackStep (lane : ForwardingLane π) (rendezvous : Bool) :
    StepCase lane (lane.callbackStep rendezvous).1 (lane.callbackStep rendezvous).2 := by
  unfold callbackStep
  split
  · exact .stay
  · next state report epoch h =>
    split_ifs with hlock
    · exact .stay
    · cases report with
      | none => exact .unconfirmed state epoch h (not_not.mp hlock)
      | some report => exact .applied state report epoch h (not_not.mp hlock)
  · next state epoch h => exact .stored state epoch h
  · next epoch h => exact .finished epoch h
  · next setting stamp rest epoch h =>
    dsimp only
    by_cases hlock : lane.update = .idle
    · rw [if_neg (not_not.mpr hlock)]
      by_cases hepoch : epoch = lane.ledger.epoch
      · have haccepted : (lane.ledger.noteRefused setting epoch).1 = true := by
          unfold FeatureReconciliation.noteRefused
          split_ifs <;> trivial
        rw [if_pos haccepted]
        exact .refused setting stamp rest epoch h hlock hepoch
      · have hstale : lane.ledger.noteRefused setting epoch = (false, lane.ledger) := if_pos hepoch
        rw [hstale]
        exact .suppressed setting stamp rest epoch h hlock hepoch
    · rw [if_pos hlock]
      exact .stay
  · next event rest epoch hother h =>
    refine .translated event rest epoch h ?_
    cases event with
    | settingRefused setting stamp => exact absurd rfl (hother setting stamp)
    | _ => rfl
  · next event rest epoch h =>
    cases event with
    | stats stats => exact .mirrored _ rest epoch h (some stats) lane.latestAgentStats
    | agentStats stats => exact .mirrored _ rest epoch h lane.latestWgStats (some stats)
    | _ => exact .mirrored _ rest epoch h lane.latestWgStats lane.latestAgentStats
  · next event rest epoch h =>
    split_ifs with hgone hroom hwaiting
    · exact .disconnected event rest epoch h hgone
    · exact .enqueued event rest epoch h hroom
    · exact .handedOver event rest epoch h hwaiting.1
    · exact .refusedByQueue event rest epoch h (not_lt.mp hroom)
  · next event rest epoch h =>
    cases event with
    | stats | agentStats =>
      exact .dropped _ rest epoch h rfl (lane.droppedStats + 1) lane.droppedStates
    | state => exact .dropped _ rest epoch h rfl lane.droppedStats (lane.droppedStates + 1)
    | settingRefused | forkSelectorNeeded | certificateFatal | apiError =>
      exact .retained _ rest epoch h rfl

/-- **Every action takes one of the steps.** -/
theorem stepCase_step (lane : ForwardingLane π) (action : Action π) :
    StepCase lane (lane.step action).1 (lane.step action).2 := by
  cases action with
  | onStateChanged state report =>
    rw [step]
    split
    · next h => exact .enterState state report h
    · exact .stay
  | onEvent event =>
    rw [step]
    split
    · next h => exact .enterEvent event h
    · exact .stay
  | callback rendezvous => exact stepCase_callbackStep lane rendezvous
  | updateAgentSettings settings =>
    rw [step]
    split_ifs with h
    · exact .requested settings h.1 h.2
    · exact .stay
  | update =>
    rw [step, updateStep]
    split
    · exact .stay
    · next h => exact .cleared h
    · next h => exact .returned h
  | takeCriticalEvents =>
    rw [step]
    split_ifs with h
    · exact .taken h
    · exact .stay
  | receive =>
    rw [step]
    split
    · next event queue hhandle hqueue => exact .received event queue hhandle hqueue
    · exact .stay
  | dropHandle =>
    rw [step]
    split_ifs with h
    · exact .handleDropped h.1 h.2
    · exact .stay

end ProtonWire.Engine.ForwardingLane
