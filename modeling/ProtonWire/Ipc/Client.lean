import ProtonWire.Frontend.Messages
import ProtonWire.Lib.Runs

/-!
# The client

`crates/client/src/lib.rs` and `crates/ipc/src/client.rs`: one `ProtonwireClient` and the transport
it holds, as a machine. An action is a call of the client's owner, or what the socket does to a read
or a write; any message can arrive at any time.

* `verdict`: what an envelope asks of the cursor;
* `resumeCursor`: where a resynchronization puts it;
* `ProtonwireClient.step`: one step of the thread that holds the client.
-/

namespace ProtonWire

/-! ## What goes wrong -/

/-- `ConnectError`, past the trust checks of the socket; the protocol errors one by one. -/
inductive ConnectError where
  | handshakeRefused (supportedVersion : ℕ) (reason : String)
  | writeFailed
  | readFailed
  | timedOut
  | unexpectedMessage (message : ServerMessage)

/-- The texts of `RequestError::Transport`. -/
inductive TransportFailure where
  | unusable
  | timedOut
  | writeFailed
  | readFailed
  | outOfOrder (id : ℕ)
  | unexpectedMessage (message : ServerMessage)

/-- What waiting for an event fails with. -/
inductive WaitFailure where
  | unusable
  | noEvent
  | readFailed
  | unexpectedMessage (message : ServerMessage)

/-- `ClientError`. An unexpected result is an internal refusal that shows it. -/
inductive ClientError where
  | rpc (error : RpcError)
  | unexpectedResult (result : RequestResult)
  | transport (failure : TransportFailure)
  | wait (failure : WaitFailure)

/-! ## The cursor -/

/-- What an envelope asks of the cursor. -/
inductive CursorVerdict where
  | resynchronize (gapSeq : Option Word64)
  | skip
  | deliver
  deriving DecidableEq

/-- One turn of the loop of `next_event`: the envelope against the cursor, or against the hello's
stamp while there is none. -/
def verdict (lastSeq : Option Word64) (helloSeq seq : Word64) : CursorVerdict :=
  if seq = eventSeqResyncNow then .resynchronize none
  else match lastSeq with
    | some last => match last.checkedAddOne with
      | some expected =>
        if expected < seq then .resynchronize (some seq) else if seq < expected then .skip
        else .deliver
      | none => .resynchronize none
    | none => if helloSeq.checkedAddOne.any (· < seq) then .resynchronize (some seq) else .deliver

/-- The cursor of `resynchronize`: the snapshot's stamp, but not below the fallback. -/
def resumeCursor (gapSeq lastSeq stamp : Option Word64) : Word64 :=
  max (stamp.getD (gapSeq.getD (lastSeq.getD 0))) (gapSeq.getD (lastSeq.getD 0))

/-! ## The client -/

/-- What the client hands to its owner. -/
inductive ClientEvent where
  | event (envelope : EventEnvelope)
  | resynchronized (state : DaemonState) (resumedAtSeq : Word64)

/-- What a request is for. -/
inductive Purpose where
  | caller
  | resynchronize (gapSeq : Option Word64)

namespace ProtonwireClient

/-- Where the client's thread is. -/
inductive Pc where
  | greeting
  | handshake
  | closed
  | idle
  | next
  | polling
  | sending (purpose : Purpose) (id : ℕ) (request : Request)
  | awaiting (purpose : Purpose) (id : ℕ)

end ProtonwireClient

/-- A `ProtonwireClient` and the `IpcClient` it holds. -/
structure ProtonwireClient where
  client : ClientInfo
  pc : ProtonwireClient.Pc
  nextId : ℕ
  pendingEvents : List EventEnvelope
  droppedEvents : ℕ
  unreportedDrops : ℕ
  poisoned : Bool
  ack : HelloAck
  lastSeq : Option Word64
  helloSeq : Word64

/-- `PENDING_EVENTS_CAP`. -/
def pendingEventsCap : ℕ := 256

namespace ProtonwireClient

/-- `connect`, with the hello still to be written. -/
def connect (client : ClientInfo) : ProtonwireClient where
  client := client
  pc := .greeting
  nextId := 0
  pendingEvents := []
  droppedEvents := 0
  unreportedDrops := 0
  poisoned := false
  ack := ⟨protocolVersion, "", 0⟩
  lastSeq := none
  helloSeq := 0

/-- What the client's thread lets the world see. -/
inductive Output where
  | sent (message : ClientMessage)
  | refused (error : ConnectError)
  | yielded (event : ClientEvent)
  | answered (answer : Except RpcError RequestResult)
  | failed (error : ClientError)

/-- What a step takes from outside: a call, or what the socket does. -/
inductive Action where
  | nextEvent
  | request (request : Request)
  | go
  | write (ok : Bool)
  | read (message : ServerMessage)
  | readFailed
  | expired

variable (s : ProtonwireClient)

/-- A call returns with an error. -/
def fail (error : ClientError) : ProtonwireClient × List Output :=
  ({ s with pc := .idle }, [.failed error])

/-- A request fails, and the stream with it. -/
def poison (failure : TransportFailure) : ProtonwireClient × List Output :=
  fail { s with poisoned := true } (.transport failure)

/-- The start of `request`: an id is drawn. -/
def startRequest (purpose : Purpose) (request : Request) : ProtonwireClient × List Output :=
  if s.poisoned then s.fail (.transport .unusable)
  else ({ s with pc := .sending purpose s.nextId request, nextId := s.nextId + 1 }, [])

/-- One turn of the loop of `next_event`, with its envelope. -/
def receive (envelope : EventEnvelope) : ProtonwireClient × List Output :=
  match verdict s.lastSeq s.helloSeq envelope.seq with
  | .resynchronize gapSeq => s.startRequest (.resynchronize gapSeq) .getState
  | .skip => ({ s with pc := .next }, [])
  | .deliver => ({ s with pc := .idle, lastSeq := some envelope.seq }, [.yielded (.event envelope)])

/-- The tail of `resynchronize`: what is buffered and covered by the snapshot goes. -/
def resume (gapSeq : Option Word64) (state : DaemonState) : ProtonwireClient × List Output :=
  let cursor := resumeCursor gapSeq s.lastSeq state.latestEventSeq
  ({ s with
      pc := .idle
      pendingEvents := s.pendingEvents.filter fun envelope => cursor < envelope.seq
      lastSeq := some cursor },
    [.yielded (.resynchronized state cursor)])

/-- A request has its answer: `state` takes a snapshot and nothing else. -/
def conclude : Purpose → Response → ProtonwireClient × List Output
  | .caller, .ok _ result => ({ s with pc := .idle }, [.answered (.ok result)])
  | .caller, .error _ error => ({ s with pc := .idle }, [.answered (.error error)])
  | .resynchronize gapSeq, .ok _ (.state state) => s.resume gapSeq state
  | .resynchronize _, .ok _ result => s.fail (.unexpectedResult result)
  | .resynchronize _, .error _ error => s.fail (.rpc error)

/-- An event that arrives while a request waits: the oldest makes room. -/
def buffer (envelope : EventEnvelope) : ProtonwireClient :=
  if pendingEventsCap ≤ s.pendingEvents.length then
    { s with
      pendingEvents := s.pendingEvents.tail ++ [envelope]
      droppedEvents := s.droppedEvents + 1
      unreportedDrops := s.unreportedDrops + 1 }
  else { s with pendingEvents := s.pendingEvents ++ [envelope] }

/-- The head of the loop of `next_event`: what is buffered goes first. -/
def takePending : ProtonwireClient × List Output :=
  if s.poisoned then s.fail (.wait .unusable)
  else match s.pendingEvents with
    | envelope :: rest => { s with pendingEvents := rest, unreportedDrops := 0 }.receive envelope
    | [] => ({ s with pc := .polling, unreportedDrops := 0 }, [])

/-- The end of `handshake`. -/
def greet : ServerMessage → ProtonwireClient × List Output
  | .helloAck ack =>
    if ack.protocolVersion ≤ protocolVersion then
      ({ s with pc := .idle, ack := ack, helloSeq := ack.latestEventSeq }, [])
    else ({ s with pc := .closed }, [.refused (.unexpectedMessage (.helloAck ack))])
  | .helloError error => ({ s with pc := .closed },
    [.refused (.handshakeRefused error.supportedVersion error.reason)])
  | message => ({ s with pc := .closed }, [.refused (.unexpectedMessage message)])

/-- A message has arrived for a request. -/
def correlate (purpose : Purpose) (id : ℕ) : ServerMessage → ProtonwireClient × List Output
  | .response response => if response.id = id then s.conclude purpose response
    else s.poison (.outOfOrder response.id)
  | .event envelope => (s.buffer envelope, [])
  | message => s.poison (.unexpectedMessage message)

/-- A message has arrived for `next_event`. -/
def poll : ServerMessage → ProtonwireClient × List Output
  | .event envelope => s.receive envelope
  | message => s.fail (.wait (.unexpectedMessage message))

/-- A message has arrived. -/
def onRead (message : ServerMessage) : ProtonwireClient × List Output :=
  match s.pc with
  | .handshake => s.greet message
  | .polling => s.poll message
  | .awaiting purpose id => s.correlate purpose id message
  | _ => (s, [])

/-- A frame has been written, or not. -/
def onWrite (ok : Bool) : ProtonwireClient × List Output :=
  match s.pc with
  | .greeting =>
    if ok then ({ s with pc := .handshake }, [.sent (.hello protocolVersion s.client)])
    else ({ s with pc := .closed }, [.refused .writeFailed])
  | .sending purpose id request =>
    if ok then ({ s with pc := .awaiting purpose id }, [.sent (.request id request)])
    else s.poison .writeFailed
  | _ => (s, [])

/-- A read has failed, otherwise than by waiting. -/
def onReadFailed : ProtonwireClient × List Output :=
  match s.pc with
  | .handshake => ({ s with pc := .closed }, [.refused .readFailed])
  | .polling => s.fail (.wait .readFailed)
  | .awaiting .. => s.poison .readFailed
  | _ => (s, [])

/-- The deadline has passed. -/
def onExpired : ProtonwireClient × List Output :=
  match s.pc with
  | .handshake => ({ s with pc := .closed }, [.refused .timedOut])
  | .polling => s.fail (.wait .noEvent)
  | .sending .. | .awaiting .. => s.poison .timedOut
  | _ => (s, [])

/-- A step of the client's thread. -/
def step (s : ProtonwireClient) : Action → ProtonwireClient × List Output
  | .nextEvent => match s.pc with
    | .idle => ({ s with pc := .next }, [])
    | _ => (s, [])
  | .request request => match s.pc with
    | .idle => s.startRequest .caller request
    | _ => (s, [])
  | .go => match s.pc with
    | .next => s.takePending
    | _ => (s, [])
  | .write ok => s.onWrite ok
  | .read message => s.onRead message
  | .readFailed => s.onReadFailed
  | .expired => s.onExpired

end ProtonwireClient

end ProtonWire
