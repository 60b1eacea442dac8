import ProtonWire.Lane.Model

/-!
# The feed of a connection

What the engine's callbacks leave for the pump of one connection of the lane: the bounded event
queue, the latest state and the counter of dropped states (`crates/protocol/src/engine.rs`:
`on_state_changed`, `on_event` and `forward`). ProTUN runs the callbacks one at a time; their steps,
the pump's and everything else of the lane interleave freely.

* `Feed`, `Feed.Action`: the lane with the feed of connection `k`, and what happens to it;
* `Feed.step`: one step, and what it records.
-/

namespace ProtonWire

/-- Where the callback thread of the engine is. -/
inductive FeedCallback where
  | idle
  /-- Before `try_send`; a state is stored. -/
  | send (event : EngineEvent)
  /-- Past a full queue, before a dropped state is counted. -/
  | full (event : EngineEvent)

/-- The lane, and the feed of one of its connections. -/
structure Feed where
  lane : ConnectionLane
  capacity : ℕ
  /-- The states stored, the last of them in `latest_state`. -/
  states : List EngineConnectionState := []
  /-- The queued events, each with the number of states stored when it was sent. -/
  queue : List (ℕ × EngineEvent) := []
  droppedStates : ℕ := 0
  callback : FeedCallback := .idle
  /-- The number of the event that the pump took last. -/
  hand : ℕ := 0
  /-- The counter as `reconcile_drops` has read it. -/
  readDrops : Option ℕ := none

/-- What a run records. -/
inductive FeedTrace where
  /-- The callback thread took a step. -/
  | called
  /-- The pump published a state of the engine: its number, and what the core reads. -/
  | published (index : ℕ) (state : VpnState)
  /-- The pump's wait found the queue empty. -/
  | timedOut
  /-- The zero-time probe of a quiet cadence found the queue empty. -/
  | quiet
  /-- The connection left its slot, taken by its pump or by a call. -/
  | taken (pump : Bool)
  /-- The pump published the terminal state. -/
  | terminal

/-- `reconcile_drops` runs here. -/
def PumpPc.reconciles : PumpPc → Bool
  | reconcileFirst _ | reconcileAfter | reconcileQuiet => true
  | _ => false

namespace Feed

/-- A feed where nothing has happened yet. -/
def new (capacity : ℕ) : Feed where
  lane := .new
  capacity := capacity

/-- What happens. -/
inductive Action where
  /-- Anything else of the lane. -/
  | lane (action : ConnectionLane.Action)
  | onStateChanged (state : EngineConnectionState)
  | onEvent (event : EngineEvent)
  /-- The callback's next step. -/
  | callback
  /-- `reconcile_drops` reads the counter. -/
  | readDrops
  /-- The pump's next step. The engine may be found dead, and criticals retained. -/
  | pump (died : Bool) (criticalEvents : List EngineEvent)

/-- The callback's next step. -/
def callbackStep (feed : Feed) (k : ℕ) : Feed × List FeedTrace :=
  match feed.callback with
  | .idle => (feed, [])
  | .send event =>
    -- the receiver goes with the disconnect, which only an installed connection gets
    if (feed.lane.connections k).installer ≠ none ∧ (feed.lane.connections k).live = false then
      ({ feed with callback := .idle }, [.called])
    else if feed.queue.length < feed.capacity then
      ({ feed with queue := feed.queue ++ [(feed.states.length, event)], callback := .idle },
       [.called])
    else ({ feed with callback := .full event }, [.called])
  | .full (.state _) => ({ feed with droppedStates := feed.droppedStates + 1, callback := .idle },
    [.called])
  | .full _ => ({ feed with callback := .idle }, [.called])

/-- What the pump finds. `latest_state` is read after the counter. -/
def answer (feed : Feed) (died : Bool) (criticalEvents : List EngineEvent) : EngineAnswer where
  received := match feed.queue with
    | (_, event) :: _ => .event event
    | [] => if died then .disconnected else .timeout
  tryReceived := match feed.queue with
    | (_, event) :: _ => .event event
    | [] => if died then .disconnected else .empty
  criticalEvents := criticalEvents
  droppedStates := feed.readDrops.getD feed.droppedStates
  latestState := feed.states.getLast?

/-- The pump looks into the queue. -/
def receives (conn : Connection) : Bool :=
  conn.slot && match conn.pc with
    | .receive => conn.pump.pending.isNone
    | .probe => true
    | _ => false

/-- What a step of the pump published of the engine's states: the event in its hand, or the latest
state. -/
def published (feed : Feed) (before after : Connection) (vpnState : VpnState) : List FeedTrace :=
  if after.pump.last = before.pump.last then []
  else
    match before.pc with
    | .process _ => [.published feed.hand vpnState]
    | _ => [.published feed.states.length vpnState]

/-- What a look into an empty queue is. -/
def waited (feed : Feed) (conn : Connection) (died : Bool) : List FeedTrace :=
  if receives conn = true ∧ feed.queue = [] ∧ died = false then
    match conn.pc with
    | .probe => [.quiet]
    | _ => [.timedOut]
  else []

/-- A slot that is emptied. -/
def emptied (before after : Connection) (pump : Bool) : List FeedTrace :=
  if before.slot = true ∧ after.slot = false then [.taken pump] else []

/-- The terminal publication. -/
def terminal (conn : Connection) : List FeedTrace :=
  match conn.pc with
  | .publish => [.terminal]
  | _ => []

/-- The pump's next step. `reconcile_drops` has read the counter before. -/
def pumpStep (feed : Feed) (k : ℕ) (died : Bool) (criticalEvents : List EngineEvent) :
    Feed × List FeedTrace :=
  let conn := feed.lane.connections k
  if conn.pc.reconciles = true ∧ feed.readDrops = none then (feed, [])
  else
    let lane := (feed.lane.pumpStep k (feed.answer died criticalEvents)).1
    let after := lane.connections k
    ({ feed with
        lane := lane
        queue := if receives conn then feed.queue.tail else feed.queue
        hand := if receives conn then (feed.queue.head?.map Prod.fst).getD feed.hand else feed.hand
        readDrops := none },
      feed.published conn after lane.vpnState ++ feed.waited conn died ++ emptied conn after true ++
      terminal conn)

/-- A step of the lane. -/
def laneStep (feed : Feed) (k : ℕ) (action : ConnectionLane.Action) : Feed × List FeedTrace :=
  let lane := (feed.lane.step action).1
  ({ feed with lane := lane }, emptied (feed.lane.connections k) (lane.connections k) false)

/-- One step of the lane with the feed of connection `k`. Callbacks run while the connection is
live. -/
def step (k : ℕ) (feed : Feed) : Action → Feed × List FeedTrace
  | .lane (.pump k' answer) => if k' = k then (feed, []) else feed.laneStep k (.pump k' answer)
  | .lane action => feed.laneStep k action
  | .onStateChanged state =>
    match feed.callback, (feed.lane.connections k).live with
    | .idle, true =>
      ({ feed with states := feed.states ++ [state], callback := .send (.state state) }, [.called])
    | _, _ => (feed, [])
  | .onEvent event =>
    match feed.callback, (feed.lane.connections k).live, event with
    | _, _, .state _ => (feed, [])
    | .idle, true, event => ({ feed with callback := .send event }, [.called])
    | _, _, _ => (feed, [])
  | .callback => feed.callbackStep k
  | .readDrops =>
    if (feed.lane.connections k).pc.reconciles = true ∧ feed.readDrops = none then
      ({ feed with readDrops := some feed.droppedStates }, [])
    else (feed, [])
  | .pump died criticalEvents => feed.pumpStep k died criticalEvents

end Feed

end ProtonWire
