import ProtonWire.Engine.Ledger
import ProtonWire.Lib.Runs
import ProtonWire.Lib.StableSort

/-!
# The forwarding lane of the engine

The callbacks of `crates/protocol/src/engine.rs` and the calls on the connection's handle: the
bounded event queue, the recovery slots behind it, the latest state, and the feature ledger.

ProTUN runs its callbacks one at a time. A callback moves in steps between its critical sections,
and so does a settings update, which holds the ledger's lock throughout. What a state and the
statistics carry is not read here (`π`).

* `EngineEvent`, `translateEvent`, `criticalClass`, `retain`: the events and their recovery classes;
* `ForwardingLane`, `Action`, `step`: the lane, and what happens to it;
* `Trace`: what a run records.
-/

namespace ProtonWire.Engine

/-! ## Events -/

/-- ProTUN's name of a setting. -/
inductive LocalAgentSettingType where
  | netshieldLevel
  | bouncing
  | portForwarding
  | splitTcp
  | safeMode
  | randomNat
  deriving DecidableEq

def settingTypeFromProtun : LocalAgentSettingType → EngineSettingType
  | .netshieldLevel => .netshield
  | .bouncing => .bouncing
  | .portForwarding => .portForwarding
  | .splitTcp => .splitTcp
  | .safeMode => .safeMode
  | .randomNat => .randomNat

/-- The endpoint of a failed call. -/
inductive EngineApiEndpoint where
  | auth
  | certificateRefresh
  deriving DecidableEq

/-- ProTUN's LocalAgent errors. -/
inductive ErrorEvent where
  | forkSelectorNeeded
  | certificateRefreshFatalError
  | localAgentSettingPolicyRefused (setting : LocalAgentSettingType)
  | apiError (endpoint : EngineApiEndpoint) (httpCode : Option UInt16) (refreshTokenInvalid : Bool)
  deriving DecidableEq

/-- ProTUN's events. -/
inductive ProtunEvent (π : Type) where
  | connectionStats (stats : π)
  | localAgentStats (stats : π)
  | localAgentError (error : ErrorEvent)
  | packetCaptureStarted
  | packetCaptureStopped

/-- The engine's events. A refusal carries the request epoch it was published at. -/
inductive EngineEvent (π : Type) where
  | state (state : π)
  | stats (stats : π)
  | agentStats (stats : π)
  | settingRefused (setting : EngineSettingType) (epoch : ℕ)
  | forkSelectorNeeded
  | certificateFatal
  | apiError (endpoint : EngineApiEndpoint) (httpCode : Option UInt16) (refreshTokenInvalid : Bool)
  deriving DecidableEq

variable {π : Type}

/-- A refusal gets its epoch from the callback. -/
def translateEvent : ProtunEvent π → List (EngineEvent π)
  | .connectionStats stats => [.stats stats]
  | .localAgentStats stats => [.agentStats stats]
  | .localAgentError .forkSelectorNeeded => [.forkSelectorNeeded]
  | .localAgentError .certificateRefreshFatalError => [.certificateFatal]
  | .localAgentError (.localAgentSettingPolicyRefused setting) =>
    [.settingRefused (settingTypeFromProtun setting) 0]
  | .localAgentError (.apiError endpoint httpCode refreshTokenInvalid) =>
    [.apiError endpoint httpCode refreshTokenInvalid]
  | .packetCaptureStarted | .packetCaptureStopped => []

/-! ## Recovery slots -/

/-- The position of a setting identity in its enumeration. -/
def toUsize : EngineSettingType → ℕ
  | .netshield => 0
  | .bouncing => 1
  | .portForwarding => 2
  | .splitTcp => 3
  | .safeMode => 4
  | .randomNat => 5
  | .circumventionRouting => 6

/-- The independent recovery classes. -/
inductive ControlClass where
  | certificateFatal
  | forkSelector
  | settingRefused (setting : ℕ)
  | apiError
  | apiErrorCredentialInvalid
  | other
  deriving DecidableEq

def criticalClass : EngineEvent π → ControlClass
  | .certificateFatal => .certificateFatal
  | .forkSelectorNeeded => .forkSelector
  | .settingRefused setting _ => .settingRefused (toUsize setting)
  | .apiError _ _ refreshTokenInvalid => if refreshTokenInvalid then .apiErrorCredentialInvalid
    else .apiError
  | _ => .other

namespace EngineEvent

/-- The terminal event. -/
def isFatal : EngineEvent π → Bool
  | certificateFatal => true
  | _ => false

/-- A refused setting. -/
def isRefusal : EngineEvent π → Bool
  | settingRefused _ _ => true
  | _ => false

/-- An event that has no poll surface. -/
def isControl : EngineEvent π → Bool
  | state _ | stats _ | agentStats _ => false
  | _ => true

end EngineEvent

/-- Retain a control event: the newest of its class, but a terminal event stays. -/
def retain (slot : List (EngineEvent π)) (critical : EngineEvent π) : List (EngineEvent π) :=
  match slot.findIdx? fun existing => criticalClass existing = criticalClass critical with
  | some index =>
    if (slot[index]?.any EngineEvent.isFatal) = true then slot
    else if critical.isFatal = false then slot.set index critical
    else slot
  | none => slot ++ [critical]

/-- The retained events in the order they are returned, the terminal one last. -/
def takeOrder (slot : List (EngineEvent π)) : List (EngineEvent π) :=
  StableSort.sortKey EngineEvent.isFatal slot

/-! ## The lane -/

/-- Where the callback thread is. -/
inductive CallbackAt (π : Type) where
  | idle
  /-- `on_state_changed`, past its epoch snapshot; the report is a connected state's agent
  report. -/
  | stateLedger (state : π) (report : Option EngineAgentSettings) (epoch : ℕ)
  | stateStore (state : π) (epoch : ℕ)
  /-- `on_event`, past its epoch snapshot, with the translated events it has left. -/
  | events (rest : List (EngineEvent π)) (epoch : ℕ)
  /-- `forward`, before its statistics slot, before its send, and past a full queue. -/
  | forward (event : EngineEvent π) (rest : List (EngineEvent π)) (epoch : ℕ)
  | send (event : EngineEvent π) (rest : List (EngineEvent π)) (epoch : ℕ)
  | full (event : EngineEvent π) (rest : List (EngineEvent π)) (epoch : ℕ)

/-- Where a settings update is. Past its first step it holds the ledger's lock. -/
inductive UpdateAt where
  | idle
  | advanced
  | cleared
  deriving DecidableEq

/-- The lane and its handle. -/
structure ForwardingLane (π : Type) where
  capacity : ℕ
  queue : List (EngineEvent π) := []
  /-- The handle, which holds the receiver, is there. -/
  handle : Bool := true
  critical : List (EngineEvent π) := []
  latestWgStats : Option π := none
  latestAgentStats : Option π := none
  latest : Option π := none
  droppedStats : ℕ := 0
  droppedStates : ℕ := 0
  controlsRetained : ℕ := 0
  ledger : FeatureReconciliation
  callback : CallbackAt π := .idle
  update : UpdateAt := .idle

/-- A connection's lane at its start. -/
def ForwardingLane.new (π : Type) (capacity : ℕ) (requested : EngineAgentSettings) :
    ForwardingLane π where
  capacity := capacity
  ledger := { requested := requested }

namespace ForwardingLane

/-- What became of a forwarded event. -/
inductive Outcome where
  | enqueued
  | retained
  | dropped
  | disconnected
  deriving DecidableEq

/-- What a run records. -/
inductive Trace (π : Type) where
  /-- A callback took its epoch snapshot. -/
  | entered
  /-- A state callback did its ledger step. -/
  | reported (report : Option EngineAgentSettings)
  /-- The ledger accepted a refusal. -/
  | noted (setting : EngineSettingType) (epoch : ℕ)
  | forwarded (event : EngineEvent π) (outcome : Outcome)
  | received (event : EngineEvent π)
  | taken (events : List (EngineEvent π))
  /-- A settings update advanced the epoch, cleared the slots of refusals, and returned. -/
  | advanced
  | cleared
  | returned
  | handleDropped

/-- What happens. -/
inductive Action (π : Type) where
  | onStateChanged (state : π) (report : Option EngineAgentSettings)
  | onEvent (event : ProtunEvent π)
  /-- The callback's next step. A queue without capacity takes an event that a receiver is waiting
  for. -/
  | callback (rendezvous : Bool)
  | updateAgentSettings (settings : EngineAgentSettings)
  /-- The update's next step. -/
  | update
  | takeCriticalEvents
  | receive
  | dropHandle

/-- The callback's next step. -/
def callbackStep (lane : ForwardingLane π) (rendezvous : Bool) :
    ForwardingLane π × List (Trace π) :=
  match lane.callback with
  | .idle => (lane, [])
  | .stateLedger state report epoch =>
    if lane.update ≠ .idle then (lane, [])
    else
      let ledger := match report with
        | some applied => lane.ledger.noteApplied applied epoch
        | none => lane.ledger.noteUnconfirmed
      ({ lane with ledger := ledger, callback := .stateStore state epoch }, [.reported report])
  | .stateStore state epoch =>
    ({ lane with latest := some state, callback := .forward (.state state) [] epoch }, [])
  | .events [] _ => ({ lane with callback := .idle }, [])
  | .events (.settingRefused setting _ :: rest) epoch =>
    if lane.update ≠ .idle then (lane, [])
    else
      let refused := lane.ledger.noteRefused setting epoch
      if refused.1 then
        ({ lane with
           ledger := refused.2
           callback := .forward (.settingRefused setting epoch) rest epoch },
          [.noted setting epoch])
      -- a refusal of an earlier request is suppressed
      else ({ lane with ledger := refused.2, callback := .events rest epoch }, [])
  | .events (event :: rest) epoch => ({ lane with callback := .forward event rest epoch }, [])
  | .forward event rest epoch =>
    let lane := match event with
      | .stats stats => { lane with latestWgStats := some stats }
      | .agentStats stats => { lane with latestAgentStats := some stats }
      | _ => lane
    ({ lane with callback := .send event rest epoch }, [])
  | .send event rest epoch =>
    if lane.handle = false then
      ({ lane with callback := .events rest epoch }, [.forwarded event .disconnected])
    else if lane.queue.length < lane.capacity then
      ({ lane with queue := lane.queue ++ [event], callback := .events rest epoch },
       [.forwarded event .enqueued])
    else if lane.capacity = 0 ∧ rendezvous = true then
      ({ lane with callback := .events rest epoch }, [.forwarded event .enqueued, .received event])
    else ({ lane with callback := .full event rest epoch }, [])
  | .full event rest epoch =>
    match event with
    | .stats _ | .agentStats _ =>
      ({ lane with droppedStats := lane.droppedStats + 1, callback := .events rest epoch },
        [.forwarded event .dropped])
    | .state _ =>
      ({ lane with droppedStates := lane.droppedStates + 1, callback := .events rest epoch },
        [.forwarded event .dropped])
    | critical =>
      ({ lane with
         critical := retain lane.critical critical
         controlsRetained := lane.controlsRetained + 1
         callback := .events rest epoch }, [.forwarded critical .retained])

/-- The update's next step. -/
def updateStep (lane : ForwardingLane π) : ForwardingLane π × List (Trace π) :=
  match lane.update with
  | .idle => (lane, [])
  | .advanced =>
    ({ lane with
       critical := lane.critical.filter fun event => !event.isRefusal
       update := .cleared }, [.cleared])
  | .cleared => ({ lane with update := .idle }, [.returned])

/-- One thing happens. A call on a handle that is gone is none. -/
def step (lane : ForwardingLane π) : Action π → ForwardingLane π × List (Trace π)
  | .onStateChanged state report =>
    match lane.callback with
    | .idle => ({ lane with callback := .stateLedger state report lane.ledger.epoch }, [.entered])
    | _ => (lane, [])
  | .onEvent event =>
    match lane.callback with
    | .idle => ({ lane with callback := .events (translateEvent event) lane.ledger.epoch },
      [.entered])
    | _ => (lane, [])
  | .callback rendezvous => lane.callbackStep rendezvous
  | .updateAgentSettings settings =>
    if lane.handle = true ∧ lane.update = .idle then
      ({ lane with ledger := lane.ledger.noteRequested settings, update := .advanced }, [.advanced])
    else (lane, [])
  | .update => lane.updateStep
  | .takeCriticalEvents =>
    if lane.handle = true then ({ lane with critical := [] }, [.taken (takeOrder lane.critical)])
    else (lane, [])
  | .receive =>
    match lane.handle, lane.queue with
    | true, event :: queue => ({ lane with queue := queue }, [.received event])
    | _, _ => (lane, [])
  | .dropHandle =>
    if lane.handle = true ∧ lane.update = .idle then
    ({ lane with handle := false }, [.handleDropped]) else (lane, [])

end ForwardingLane

end ProtonWire.Engine
