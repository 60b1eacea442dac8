import ProtonWire.Frontend.Proto
import ProtonWire.Lib.Runs

/-!
# The connection lane

`apps/daemon/src/connect.rs`: `ConnectionLane` and the event pump of a connection, as an
interleaving of the calls and the pumps. A step is one section under a lock (the lane's, a slot's or
the core's), one access to `draining`, one call of the engine or one completed join or disconnect.

What the engine answers is the choice of the environment: whether it starts a connection, and what a
pump finds on the connection's event queue and poll surfaces. The lane is alive as long as it is
called, so a pump can always upgrade its reference to it.

* `LaneState`, `Connection`, `ConnectionLane`: the shared state;
* `CallPc`, `PumpPc`: where a call is, and where a pump is;
* `ConnectionLane.step`: one step, and the events it emits.
-/

namespace ProtonWire

/-! ## Data -/

/-- Why a lane call refused. -/
inductive LaneRefusal where
  | notOwner (owner : ℕ)
  | noActiveConnection
  | draining
  | reconnecting
  | disconnecting
  deriving DecidableEq

/-- A failed connect: the typed refusal or the engine's own error. -/
inductive LaneError where
  | refused (refusal : LaneRefusal)
  | engine (error : String)
  deriving DecidableEq

/-- The owner gate: one connection, one owner. -/
def gateOwner (current : Option ℕ) (requester : ℕ) : Except LaneRefusal Unit :=
  match current with
  | some owner => if owner ≠ requester then .error (.notOwner owner) else .ok ()
  | none => .ok ()

/-- The connection state of the engine. -/
inductive EngineConnectionState where
  | disconnected
  | connecting
  | connectingToAgent
  | connected
  deriving DecidableEq

/-- The engine's state on the frontend's state machine. -/
def mapVpnState : EngineConnectionState → VpnState
  | .disconnected => .disconnected
  | .connecting | .connectingToAgent => .connecting
  | .connected => .connected

/-- An engine event. -/
inductive EngineEvent where
  | state (state : EngineConnectionState)
  | stats
  | agentStats
  | settingRefused
  | forkSelectorNeeded
  | certificateFatal
  | apiError (refreshTokenInvalid : Bool)
  deriving DecidableEq

/-- What `recv_timeout` returns. -/
inductive Received where
  | event (event : EngineEvent)
  | timeout
  | disconnected

/-- What `try_recv` returns. -/
inductive TryReceived where
  | event (event : EngineEvent)
  | empty
  | disconnected

/-- What a pump finds on its connection at a step. -/
structure EngineAnswer where
  received : Received
  tryReceived : TryReceived
  criticalEvents : List EngineEvent
  droppedStates : ℕ
  latestState : Option EngineConnectionState

/-! ## The pump -/

/-- The locals of `pump_events`. -/
structure Pump where
  last : Option VpnState := none
  droppedWatermark : ℕ := 0
  backlog : Bool := false
  pending : Option EngineEvent := none

/-- Publish a state the pump has not published last. -/
def Pump.publish (pump : Pump) (state : EngineConnectionState) : Pump × Option VpnState :=
  if pump.last ≠ some (mapVpnState state) then
    ({ pump with last := some (mapVpnState state) }, some (mapVpnState state))
  else (pump, none)

/-- Arm the backlog when drops moved. -/
def Pump.observeDrops (pump : Pump) (dropped : ℕ) : Pump :=
  if pump.droppedWatermark < dropped then { pump with droppedWatermark := dropped, backlog := true }
  else pump

/-- `reconcile_drops` on a connection: whether it surfaced a fatal event, the locals, and what it
publishes. -/
def reconcileDrops (pump : Pump) (answer : EngineAnswer) : Bool × Pump × Option VpnState :=
  if .certificateFatal ∈ answer.criticalEvents then (true, pump, none)
  else
    let pump := pump.observeDrops answer.droppedStates
    if pump.backlog = false then (false, pump, none)
    else
      match answer.latestState with
      | some state => (false, pump.publish state)
      | none => (false, pump, none)

/-- Where a pump is. A connection whose pump is not yet spawned is at `exited`. -/
inductive PumpPc where
  | receive
  | reconcileFirst (event : EngineEvent)
  | process (event : EngineEvent)
  | reconcileAfter
  | reconcileQuiet
  | probe
  | claim
  | disconnect
  | publish
  | retireLane
  | exited

/-- A connection: its slot holds it or is empty, it is live from the engine's start to the end of
its disconnect. -/
structure Connection where
  installer : Option ℕ := none
  slot : Bool := false
  live : Bool := false
  pc : PumpPc := .exited
  pump : Pump := {}

/-! ## The lane -/

/-- What the lane's lock protects. An active lane is named by its connection. -/
structure LaneState where
  active : Option ℕ := none
  owner : Option ℕ := none
  reconnecting : Bool := false
  disconnecting : Bool := false
  drainInProgress : Bool := false

/-- Whether drain's loop must yield. -/
def drainWaits (lane : LaneState) : Bool := lane.drainInProgress || lane.reconnecting ||
    lane.disconnecting

/-- The disconnect admission decision. -/
def disconnectRefusal (lane : LaneState) (draining : Bool) : Option LaneRefusal :=
  if draining then some .draining
  else if lane.reconnecting then some .reconnecting
  else if lane.disconnecting then some .disconnecting
  else none

/-- The calls of the lane. -/
inductive LaneCall where
  | connect (uid : ℕ)
  | disconnect (uid : ℕ)
  | drain
  deriving DecidableEq

/-- Where a call is. `retired` says that the call took the connection out of its slot. -/
inductive CallPc where
  | idle
  | entry (call : LaneCall)
  | drainLoop
  | retire (call : LaneCall) (lane : ℕ)
  | publishDisconnecting (call : LaneCall) (lane : ℕ) (retired : Bool)
  | tear (call : LaneCall) (lane : ℕ) (retired : Bool)
  | join (call : LaneCall) (lane : ℕ)
  | recheck (uid : ℕ) (superseded : Bool)
  | engine (uid : ℕ)
  | failPublish (uid : ℕ) (error : String)
  | failClear (uid : ℕ) (error : String)
  | install (uid lane : ℕ)
  | publishDisconnected (uid : ℕ)
  | clearDisconnecting (uid : ℕ)
  | clearDrain

/-- The lane, the core's published state, the connections in the order they were started and the
calls. -/
structure ConnectionLane where
  state : LaneState
  draining : Bool
  vpnState : VpnState
  connections : ℕ → Connection
  started : ℕ
  callers : ℕ → CallPc

/-- What happened. -/
inductive LaneEvent where
  /-- A call took the active lane, recorded for an owner. -/
  | retired (caller : ℕ) (call : LaneCall) (owner : Option ℕ) (lane : ℕ)
  | started (caller lane : ℕ)
  | installed (caller uid lane : ℕ)
  /-- The disconnect of a connection completed. -/
  | disconnected (lane : ℕ)
  | returned (caller : ℕ) (call : LaneCall) (result : Except LaneError Unit)

namespace ConnectionLane

/-- Call `c` goes on at `pc`. -/
def goto (w : ConnectionLane) (c : ℕ) (pc : CallPc) : ConnectionLane :=
  { w with callers := Function.update w.callers c pc }

/-- Call `c` returns. -/
def ret (w : ConnectionLane) (c : ℕ) (call : LaneCall) (result : Except LaneError Unit) :
    ConnectionLane × List LaneEvent :=
  (w.goto c .idle, [.returned c call result])

/-- `set_vpn_state`. -/
def setVpnState (w : ConnectionLane) (state : VpnState) : ConnectionLane :=
  { w with vpnState := state }

/-- Connection `k` becomes `conn`. -/
def setConnection (w : ConnectionLane) (k : ℕ) (conn : Connection) : ConnectionLane :=
  { w with connections := Function.update w.connections k conn }

/-! ### `connect` -/

/-- The first section of `connect`: the gates, then the window is armed and the lane taken. -/
def connectEntry (w : ConnectionLane) (c uid : ℕ) : ConnectionLane × List LaneEvent :=
  match gateOwner w.state.owner uid with
  | .error refusal => w.ret c (.connect uid) (.error (.refused refusal))
  | .ok () =>
    if w.draining then w.ret c (.connect uid) (.error (.refused .draining))
    else if w.state.reconnecting then w.ret c (.connect uid) (.error (.refused .reconnecting))
    else if w.state.disconnecting then w.ret c (.connect uid) (.error (.refused .disconnecting))
    else
      let armed : ConnectionLane :=
        { w with state := { w.state with reconnecting := true, active := none, owner := none } }
      match w.state.active with
      | some lane =>
        (armed.goto c (.retire (.connect uid) lane), [.retired c (.connect uid) w.state.owner lane])
      | none => (armed.goto c (.recheck uid false), [])

/-- The second section: `draining` is checked again. -/
def connectRecheck (w : ConnectionLane) (c uid : ℕ) : ConnectionLane × List LaneEvent :=
  if w.draining then
    { w with state := { w.state with reconnecting := false } }.ret c (.connect uid)
      (.error (.refused .draining))
  else ({ w with state := { w.state with owner := none } }.goto c (.engine uid), [])

/-- `engine.connect`. -/
def engineConnect (w : ConnectionLane) (c uid : ℕ) :
    Except String Unit → ConnectionLane × List LaneEvent
  | .ok () =>
    ({ w with connections := Function.update w.connections w.started { live := true }
              started := w.started + 1 }.goto c (.install uid w.started), [.started c w.started])
  | .error error => (w.goto c (.failPublish uid error), [])

/-- The last section: the slot, the pump, the lane, the owner and the window, under one guard. -/
def install (w : ConnectionLane) (c uid lane : ℕ) : ConnectionLane × List LaneEvent :=
  (({ w with
      state := { w.state with active := some lane, owner := some uid, reconnecting := false }
        }.setConnection
      lane { w.connections lane with
             installer := some uid
             slot := true
             pc := .receive
             pump := {} }).goto
      c .idle,
    [.installed c uid lane, .returned c (.connect uid) (.ok ())])

/-! ### `disconnect` and `drain` -/

/-- The first section of `disconnect`. The window is armed only for a real teardown. -/
def disconnectEntry (w : ConnectionLane) (c uid : ℕ) : ConnectionLane × List LaneEvent :=
  match disconnectRefusal w.state w.draining with
  | some refusal => w.ret c (.disconnect uid) (.error (.refused refusal))
  | none =>
    match gateOwner w.state.owner uid with
    | .error refusal => w.ret c (.disconnect uid) (.error (.refused refusal))
    | .ok () =>
      match w.state.active with
      | some lane =>
        ({ w with
           state := { w.state with active := none, disconnecting := true, owner := none } }.goto c
          (.retire (.disconnect uid) lane), [.retired c (.disconnect uid) w.state.owner lane])
      | none => { w with state := { w.state with owner := none } }.ret c (.disconnect uid) (.ok ())

/-- One turn of drain's loop. -/
def drainTurn (w : ConnectionLane) (c : ℕ) : ConnectionLane × List LaneEvent :=
  if drainWaits w.state then (w, [])
  else
    match w.state.active with
    | some lane =>
      ({ w with
         state := { w.state with active := none, drainInProgress := true, owner := none } }.goto c
        (.retire .drain lane), [.retired c .drain w.state.owner lane])
    | none => { w with state := { w.state with owner := none } }.ret c .drain (.ok ())

/-! ### Teardown -/

/-- The slot's connection is taken. `disconnect` and `connect` publish the transition, `drain` does
not. -/
def takeSlot (w : ConnectionLane) (c : ℕ) (call : LaneCall) (lane : ℕ) : ConnectionLane :=
  let retired := (w.connections lane).slot
  (w.setConnection lane { w.connections lane with slot := false }).goto c
    (match call with
    | .drain => .tear call lane retired
    | _ => .publishDisconnecting call lane retired)

/-- The taken connection is disconnected. -/
def tearDown (w : ConnectionLane) (c : ℕ) (call : LaneCall) (lane : ℕ) (retired : Bool) :
    ConnectionLane × List LaneEvent :=
  if retired then
    ((w.setConnection lane { w.connections lane with live := false }).goto c (.join call lane),
      [.disconnected lane])
  else (w.goto c (.join call lane), [])

/-- Where a call goes on once the pump has exited. -/
def afterJoin : LaneCall → CallPc
  | .connect uid => .recheck uid true
  | .disconnect uid => .publishDisconnected uid
  | .drain => .clearDrain

/-- The pump is joined. -/
def joinPump (w : ConnectionLane) (c : ℕ) (call : LaneCall) (lane : ℕ) : ConnectionLane :=
  match (w.connections lane).pc with
  | .exited => w.goto c (afterJoin call)
  | _ => w

/-! ### The pump -/

/-- Connection `k`'s pump goes on at `pc`. -/
def pumpGoto (w : ConnectionLane) (k : ℕ) (pc : PumpPc) : ConnectionLane :=
  w.setConnection k { w.connections k with pc := pc }

/-- The pump publishes what its locals call for. -/
def pumpPublish (w : ConnectionLane) (k : ℕ) (pc : PumpPc) (published : Pump × Option VpnState) :
    ConnectionLane :=
  (w.setConnection k { w.connections k with pc := pc, pump := published.1 }).setVpnState
    (published.2.getD w.vpnState)

/-- A receive, from the event the last probe kept or from the slot. -/
def pumpReceive (w : ConnectionLane) (k : ℕ) (received : Received) : ConnectionLane :=
  match (w.connections k).pump.pending with
  | some event => w.setConnection k { w.connections k with
      pc := .reconcileFirst event, pump := { (w.connections k).pump with pending := none } }
  | none =>
    if (w.connections k).slot then
      match received with
      | .event event => w.pumpGoto k (.reconcileFirst event)
      | .timeout => w.pumpGoto k .reconcileQuiet
      | .disconnected => w.pumpGoto k .claim
    else w.pumpGoto k .exited

/-- `reconcile_drops` under the slot's lock, then the claim of a fatal event or `next`. -/
def pumpReconcile (w : ConnectionLane) (k : ℕ) (answer : EngineAnswer) (next : PumpPc) :
    ConnectionLane :=
  if (w.connections k).slot then
    let reconciled := reconcileDrops (w.connections k).pump answer
    w.pumpPublish k (if reconciled.1 then .claim else next) reconciled.2
  else w.pumpGoto k next

/-- The zero-time probe: only an empty queue disarms the backlog. -/
def pumpProbe (w : ConnectionLane) (k : ℕ) (tryReceived : TryReceived) : ConnectionLane :=
  if (w.connections k).slot then
    match tryReceived with
    | .empty => w.setConnection k { w.connections k with
        pc := .receive, pump := { (w.connections k).pump with backlog := false } }
    | .event event => w.setConnection k { w.connections k with
        pc := .receive, pump := { (w.connections k).pump with pending := some event } }
    | .disconnected => w.pumpGoto k .receive
  else w.pumpGoto k .receive

/-- An event. A state is suppressed while the backlog is armed, and once the slot is empty. -/
def pumpProcess (w : ConnectionLane) (k : ℕ) : EngineEvent → ConnectionLane
  | .state state =>
    if (w.connections k).pump.backlog then w.pumpGoto k .receive
    else if (w.connections k).slot = false then w.pumpGoto k .receive
    else w.pumpPublish k .reconcileAfter ((w.connections k).pump.publish state)
  | .certificateFatal => w.pumpGoto k .claim
  | _ => w.pumpGoto k .reconcileAfter

/-- The claim of a dead engine or of a fatal event: whoever empties the slot owns the terminal
state. -/
def pumpClaim (w : ConnectionLane) (k : ℕ) : ConnectionLane :=
  if (w.connections k).slot then
    w.setConnection k { w.connections k with slot := false, pc := .disconnect }
  else w.pumpGoto k .exited

/-- `retire_lane`: only the entry whose slot is ours. -/
def retireLane (w : ConnectionLane) (k : ℕ) : ConnectionLane :=
  if w.state.active = some k then
    { w with state := { w.state with active := none, owner := none } }.pumpGoto k .exited
  else w.pumpGoto k .exited

/-- The next step of a pump. -/
def pumpStep (w : ConnectionLane) (k : ℕ) (answer : EngineAnswer) :
    ConnectionLane × List LaneEvent :=
  match (w.connections k).pc with
  | .receive => (w.pumpReceive k answer.received, [])
  | .reconcileFirst event => (w.pumpReconcile k answer (.process event), [])
  | .process event => (w.pumpProcess k event, [])
  | .reconcileAfter => (w.pumpReconcile k answer .receive, [])
  | .reconcileQuiet => (w.pumpReconcile k answer .probe, [])
  | .probe => (w.pumpProbe k answer.tryReceived, [])
  | .claim => (w.pumpClaim k, [])
  | .disconnect =>
    (w.setConnection k { w.connections k with live := false, pc := .publish }, [.disconnected k])
  | .publish => ((w.setVpnState .disconnected).pumpGoto k .retireLane, [])
  | .retireLane => (w.retireLane k, [])
  | .exited => (w, [])

/-! ## Steps -/

/-- The next step of a call. The engine's answer counts where the call is at the engine. -/
def advance (w : ConnectionLane) (c : ℕ) (answer : Except String Unit) :
    ConnectionLane × List LaneEvent :=
  match w.callers c with
  | .idle => (w, [])
  | .entry (.connect uid) => w.connectEntry c uid
  | .entry (.disconnect uid) => w.disconnectEntry c uid
  | .entry .drain => ({ w with draining := true }.goto c .drainLoop, [])
  | .drainLoop => w.drainTurn c
  | .retire call lane => (w.takeSlot c call lane, [])
  | .publishDisconnecting call lane retired =>
    ((w.setVpnState .disconnecting).goto c (.tear call lane retired), [])
  | .tear call lane retired => w.tearDown c call lane retired
  | .join call lane => (w.joinPump c call lane, [])
  | .recheck uid _ => w.connectRecheck c uid
  | .engine uid => w.engineConnect c uid answer
  | .failPublish uid error => ((w.setVpnState .disconnected).goto c (.failClear uid error), [])
  | .failClear uid error =>
    { w with state := { w.state with reconnecting := false } }.ret c (.connect uid)
    (.error (.engine error))
  | .install uid lane => w.install c uid lane
  | .publishDisconnected uid => ((w.setVpnState .disconnected).goto c (.clearDisconnecting uid), [])
  | .clearDisconnecting uid =>
    { w with state := { w.state with disconnecting := false } }.ret c (.disconnect uid) (.ok ())
  | .clearDrain => { w with state := { w.state with drainInProgress := false } }.ret c
    .drain (.ok ())

/-- The choices of the environment. -/
inductive Action where
  /-- An idle caller makes a call. -/
  | call (caller : ℕ) (call : LaneCall)
  | advance (caller : ℕ) (answer : Except String Unit)
  | pump (lane : ℕ) (answer : EngineAnswer)

/-- One step. -/
def step (w : ConnectionLane) : Action → ConnectionLane × List LaneEvent
  | .call c call =>
    match w.callers c with
    | .idle => (w.goto c (.entry call), [])
    | _ => (w, [])
  | .advance c answer => w.advance c answer
  | .pump k answer => w.pumpStep k answer

/-- `ConnectionLane::new`: nothing active, nothing started, and the core reads `Disconnected`. -/
def new : ConnectionLane := ⟨{}, false, .disconnected, fun _ => {}, 0, fun _ => .idle⟩

/-- A run of the lane. -/
def run (actions : List Action) : ConnectionLane × List LaneEvent := Machine.run step new actions

end ConnectionLane

end ProtonWire
