import ProtonWire.Core.State
import ProtonWire.Lib.Runs

/-!
# One served session

`crates/ipc/src/server/session.rs`, `bus.rs` and `authz.rs`: the dispatcher, the forwarder and the
writer of one session, and the core that publishes to its queue, as a machine. An action is one
atomic step of one of the threads; any message, and any answer of the handler, can come at any time.

* `requiredRole`, `authorize`: who may ask what;
* `IpcSession`: the session's channels and where its threads are;
* `IpcSession.dispatch`, `forward`, `write`: a step of each thread;
* `IpcServer.step`: the session and the core together.
-/

namespace ProtonWire

/-! ## Authorization -/

/-- Who is at the other end of the socket. -/
structure PeerCredentials where
  uid : ℕ
  gid : ℕ
  pid : Option ℤ

/-- `PeerCredentials::is_root`. -/
def PeerCredentials.isRoot (peer : PeerCredentials) : Bool := decide (peer.uid = 0)

/-- What a request can require. -/
inductive IpcRole where
  | anyUser
  | admin
  deriving DecidableEq

/-- `required_role`. -/
def requiredRole : Request → IpcRole
  | .ping _ | .getState | .connect _ | .disconnect | .serversList | .serversRefresh
    _ | .beginLogin .. |
    .submitTwoFactor _ | .submitFidoPayload .. | .refreshSession | .logout | .submitCredential
      .. | .getAccount |
    .select .. | .groupsList | .groupShow _ => .anyUser
  | .shutdown => .admin

/-- `authorize`. -/
def authorize (role : IpcRole) (peer : PeerCredentials) : Except RpcError Unit :=
  match role with
  | .anyUser => .ok ()
  | .admin =>
    if peer.isRoot then .ok ()
    else .error (RpcError.new .permissionDenied
      ("this request requires administrator (UID 0) credentials; peer UID is " ++
       toString peer.uid))

/-! ## The session -/

/-- `SESSION_QUEUE_LEN`, of the bus's queue and of the writer channel. -/
def sessionQueueLen : ℕ := 256

/-- `MAX_UNWRITTEN_MESSAGES`. -/
def maxUnwrittenMessages : Word64 := 16

/-- `resync_marker`. -/
def resyncMarker :
    EventEnvelope := ⟨eventSeqResyncNow, .notice .warning "event queue overflowed; resynchronize"⟩

/-- Why the dispatcher's loop was left. -/
inductive Cause where
  | refused (reason : String)
  | ended

/-- What the dispatcher does once its message is queued. -/
inductive Afterwards where
  | openGate (version : ℕ) (client : ClientInfo)
  | loop

/-- Where the dispatcher is. -/
inductive DispatcherPc where
  | subscribing
  | top
  | reading
  | refusing (reason : String)
  | stamping (version : ℕ) (client : ClientInfo)
  | dispatching (id : ℕ) (request : Request)
  | reserving (message : ServerMessage) (afterwards : Afterwards)
  | sending (message : ServerMessage) (afterwards : Afterwards)
  | opening (version : ℕ) (client : ClientInfo)
  | returned (cause : Cause)
  | leaving (cause : Cause)
  | over (cause : Cause)

/-- What the forwarder sends. -/
inductive Forwarded where
  | event (envelope : EventEnvelope)
  | marker

/-- Where the forwarder is. -/
inductive ForwarderPc where
  | gate
  | receiving (version : ℕ)
  | reserving (version : ℕ) (item : Forwarded)
  | sending (version : ℕ) (item : Forwarded)
  | checking (version : ℕ)
  | done

/-- Where the writer is. -/
inductive WriterPc where
  | receiving
  | writing (message : ServerMessage)
  | releasing
  | dropping
  | noting
  | gone

/-- One session: its entry on the bus, its channels, and its three threads. -/
structure IpcSession where
  peer : PeerCredentials
  subscribed : Bool
  queue : List EventEnvelope
  overflowed : Bool
  gateAlive : Bool
  gate : Option ℕ
  channel : List ServerMessage
  receiverAlive : Bool
  unwritten : Word64
  writerGone : Bool
  helloDone : Bool
  clientInfo : Option ClientInfo
  dispatcher : DispatcherPc
  forwarder : ForwarderPc
  writer : WriterPc

/-- What a session lets the world see, and what its threads hand each other. -/
inductive SessionEvent where
  | accepted (envelope : EventEnvelope)
  | dropped (envelope : EventEnvelope)
  | handled (request : Request)
  | dispatched (id : ℕ) (request : Request) (response : Option Response)
  | reserved (message : ServerMessage)
  | queued (message : ServerMessage)
  | written (message : ServerMessage)

/-- `dispatch`: authorization, then the handler. -/
def dispatch (peer : PeerCredentials) (request : Request) (handle : Except RpcError RequestResult) :
    Except RpcError RequestResult := do
  authorize (requiredRole request) peer
  handle

/-- The response a dispatch comes to. -/
def Response.of (id : ℕ) : Except RpcError RequestResult → Response
  | .ok result => .ok id result
  | .error failure => .error id failure

/-- What the dispatcher goes on to when its message is queued. -/
def Afterwards.pc : Afterwards → DispatcherPc
  | openGate version client => .opening version client
  | loop => .top

/-- What the forwarder goes on to when its message is queued. -/
def Forwarded.pc (version : ℕ) : Forwarded → ForwarderPc
  | event _ => .checking version
  | marker => .receiving version

/-- The envelope of what is forwarded. -/
def Forwarded.envelope : Forwarded → EventEnvelope
  | event envelope => envelope
  | marker => resyncMarker

namespace IpcSession

/-- `handle_session`, with its threads spawned. -/
def new (peer : PeerCredentials) : IpcSession where
  peer := peer
  subscribed := false
  queue := []
  overflowed := false
  gateAlive := true
  gate := none
  channel := []
  receiverAlive := true
  unwritten := 0
  writerGone := false
  helloDone := false
  clientInfo := none
  dispatcher := .subscribing
  forwarder := .gate
  writer := .receiving

variable (s : IpcSession)

/-- `WriteWindow::is_exhausted`. -/
def isExhausted : Bool := decide (maxUnwrittenMessages ≤ s.unwritten)

/-- `WriteWindow::reserve`. -/
def reserve : IpcSession := { s with unwritten := s.unwritten + 1 }

/-- `WriteWindow::release`: a refusal was not reserved, so this can wrap. -/
def release : IpcSession := { s with unwritten := s.unwritten - 1 }

/-- A send into the writer channel fails once the receiver is gone, and waits while the channel is
full. -/
def send (message : ServerMessage) (sent failed : IpcSession → IpcSession) :
    IpcSession × List SessionEvent :=
  if s.receiverAlive then
    if s.channel.length < sessionQueueLen then (sent { s with channel := s.channel ++ [message] },
      [.queued message])
    else (s, [])
  else (failed s, [])

/-! ## The dispatcher -/

/-- What the dispatcher meets. -/
inductive Incident where
  | stop
  | helloDeadline
  | idle
  | pollable
  | readFailed
  | panicked

/-- The message of a refusal. -/
def refusal (reason : String) : ServerMessage := .helloError ⟨protocolVersion, reason⟩

/-- A message has been read. -/
def onMessage : ClientMessage → IpcSession
  | .hello version client =>
    if s.helloDone then { s with dispatcher := .refusing "duplicate-hello" }
    else if protocolVersion < version ∨ version < 1 then
      { s with dispatcher := .refusing "unsupported-protocol-version" }
    else { s with dispatcher := .stamping (min version protocolVersion) client.sanitized }
  | .request id request => match s.clientInfo with
    | none => { s with dispatcher := .refusing "request-before-hello" }
    | some _ => { s with dispatcher := .dispatching id request }

/-- The head of the loop, past its deadlines. -/
def onTop : IpcSession :=
  if s.helloDone && s.isExhausted then
    if s.writerGone then { s with dispatcher := .returned .ended } else s
  else { s with dispatcher := .reading }

/-- The next step of the dispatcher that nothing from outside decides. `busFree`: no publisher holds
the lock of the bus. -/
def advance (core : DaemonCore) (busFree : Bool) : IpcSession × List SessionEvent :=
  match s.dispatcher with
  | .subscribing =>
    if busFree then ({ s with subscribed := true, dispatcher := .top }, []) else (s, [])
  | .top => (s.onTop, [])
  | .refusing reason =>
    s.send (refusal reason) (fun s => { s with dispatcher := .returned (.refused reason) })
      (fun s => { s with dispatcher := .returned .ended })
  | .stamping version client =>
    ({ s with dispatcher := .reserving (.helloAck ⟨version, core.version, core.latestEventSeq⟩)
                (.openGate version client) }, [])
  | .reserving message afterwards =>
    ({ s.reserve with dispatcher := .sending message afterwards }, [.reserved message])
  | .sending message afterwards =>
    s.send message (fun s => { s with dispatcher := afterwards.pc })
      (fun s => { s with dispatcher := .returned .ended })
  | .opening version client =>
    ({ s with
    gate := some version, clientInfo := some client, helloDone := true, dispatcher := .top }, [])
  | .returned cause => ({ s with gateAlive := false, dispatcher := .leaving cause }, [])
  | .leaving cause =>
    if busFree then ({ s with subscribed := false, dispatcher := .over cause }, []) else (s, [])
  | _ => (s, [])

/-- A step of the dispatcher that something from outside decides. -/
def onIncident (incident : Incident) : IpcSession × List SessionEvent :=
  match s.dispatcher, incident with
  | .top, .stop => ({ s with dispatcher := .returned .ended }, [])
  | .top, .helloDeadline => (if s.helloDone then s
    else { s with dispatcher := .refusing "hello-timeout" }, [])
  | .top, .idle => (if s.helloDone then { s with dispatcher := .returned .ended } else s, [])
  | .reading, .pollable => ({ s with dispatcher := .top }, [])
  | .reading, .readFailed => ({ s with dispatcher := .returned .ended }, [])
  | .dispatching id request, .panicked =>
    ({ s with dispatcher := .returned .ended }, [.dispatched id request none])
  | _, _ => (s, [])

/-- The handler has answered, if it was asked at all. -/
def onHandled (handle : Except RpcError RequestResult) : IpcSession × List SessionEvent :=
  match s.dispatcher with
  | .dispatching id request =>
    let response := Response.of id (dispatch s.peer request handle)
    ({ s with dispatcher := .reserving (.response response) .loop },
      (match authorize (requiredRole request) s.peer with
        | .ok () => [.handled request]
        | .error _ => []) ++ [.dispatched id request (some response)])
  | _ => (s, [])

/-! ## The forwarder -/

/-- A step of the forwarder. -/
def forward : IpcSession × List SessionEvent :=
  match s.forwarder with
  | .gate => match s.gate with
    | some version => ({ s with gate := none, forwarder := .receiving version }, [])
    | none => if s.gateAlive then (s, []) else ({ s with forwarder := .done, queue := [] }, [])
  | .receiving version => match s.queue with
    | envelope :: rest =>
      if eventReaches version envelope.event then
        ({ s with queue := rest, forwarder := .reserving version (.event envelope) }, [])
      else ({ s with queue := rest }, [])
    | [] => if s.subscribed then (s, []) else ({ s with forwarder := .done }, [])
  | .reserving version item =>
    ({ s.reserve with forwarder := .sending version item }, [.reserved (.event item.envelope)])
  | .sending version item =>
    s.send (.event item.envelope) (fun s => { s with forwarder := item.pc version })
      (fun s => { s with forwarder := .done, queue := [] })
  | .checking version =>
    ({ s with
        overflowed := false
        forwarder := if s.overflowed && resyncMarkerReaches version then .reserving version .marker
          else .receiving version }, [])
  | .done => (s, [])

/-! ## The writer -/

/-- Whether a sender of the writer channel is left. -/
def senderAlive : Bool :=
  match s.dispatcher, s.forwarder with
  | .leaving _, .done | .over _, .done => false
  | _, _ => true

/-- A step of the writer; `ok`: the frame went out within its deadline. -/
def write (ok : Bool) : IpcSession × List SessionEvent :=
  match s.writer with
  | .receiving => match s.channel with
    | message :: rest => ({ s with channel := rest, writer := .writing message }, [])
    | [] => if s.senderAlive then (s, []) else ({ s with writer := .dropping }, [])
  | .writing message =>
    if ok then ({ s with writer := .releasing }, [.written message])
    else ({ s with writer := .dropping }, [])
  | .releasing => ({ s.release with writer := .receiving }, [])
  | .dropping => ({ s with receiverAlive := false, channel := [], writer := .noting }, [])
  | .noting => ({ s with writerGone := true, writer := .gone }, [])
  | .gone => (s, [])

end IpcSession

/-! ## The session and the core -/

/-- The core and one session of it. -/
structure IpcServer where
  core : DaemonCore
  session : IpcSession

namespace IpcServer

/-- An atomic step of one thread. -/
inductive Action where
  | setVpnState (to_ : VpnState)
  | notice (level : NoticeLevel) (message : String)
  | publish
  | mark
  | advance
  | incident (incident : IpcSession.Incident)
  | read (message : ClientMessage)
  | handled (handle : Except RpcError RequestResult)
  | forward
  | write (ok : Bool)

variable (d : IpcServer)

/-- `emit_locked` runs under the lock of the core. -/
def emit (change : DaemonCore → DaemonCore) : IpcServer :=
  match d.core.emitter with
  | .free => { d with core := change d.core }
  | _ => d

/-- `EventBus::publish`, up to the mark: the send never waits, and a receiver that is gone ends the
entry. -/
def publish : IpcServer × List SessionEvent :=
  match d.core.emitter with
  | .publishing envelope =>
    if d.session.subscribed then
      match d.session.forwarder with
      | .done =>
        ({ core := { d.core with emitter := .free }
           session := { d.session with subscribed := false } }, [])
      | _ =>
        if d.session.queue.length < sessionQueueLen then
          ({ core := { d.core with emitter := .free }
             session := { d.session with queue := d.session.queue ++ [envelope] } },
            [.accepted envelope])
        else ({ d with core := { d.core with emitter := .marking } }, [.dropped envelope])
    else ({ d with core := { d.core with emitter := .free } }, [])
  | _ => (d, [])

/-- The rest of `EventBus::publish`: the overflow is marked. -/
def mark : IpcServer :=
  match d.core.emitter with
  | .marking =>
    { core := { d.core with emitter := .free }
      session := { d.session with overflowed := true } }
  | _ => d

/-- Whether no publisher holds the lock of the bus. -/
def busFree : Bool :=
  match d.core.emitter with
  | .marking => false
  | _ => true

/-- A step of one thread. -/
def step (d : IpcServer) : Action → IpcServer × List SessionEvent
  | .setVpnState to_ => (d.emit fun core => core.setVpnState to_, [])
  | .notice level message => (d.emit fun core => core.notice level message, [])
  | .publish => d.publish
  | .mark => (d.mark, [])
  | .advance => ({ d with session := (d.session.advance d.core d.busFree).1 },
    (d.session.advance d.core d.busFree).2)
  | .incident incident => ({ d with session := (d.session.onIncident incident).1 },
    (d.session.onIncident incident).2)
  | .read message => match d.session.dispatcher with
    | .reading => ({ d with session := d.session.onMessage message }, [])
    | _ => (d, [])
  | .handled handle => ({ d with session := (d.session.onHandled handle).1 },
    (d.session.onHandled handle).2)
  | .forward => ({ d with session := d.session.forward.1 }, d.session.forward.2)
  | .write ok => ({ d with session := (d.session.write ok).1 }, (d.session.write ok).2)

end IpcServer

end ProtonWire
