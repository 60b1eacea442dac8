import ProtonWire.Ipc.Client
import ProtonWire.Ipc.Window
import ProtonWire.Lib.Resync

/-!
# From the core to the client

The core, one session of it, and one client that calls `next_event`, over a socket that fails
nobody. An action is an atomic step of one thread.

* `System`, `System.step`: the parties together;
* `Parked`: no step but a new event is enabled;
* `Prompt`: the steps that leave no gap behind;
* `Serving`, `Phase`: a session that nothing has ended, and where the conversation is;
* **`Shows`**: the feed, with its losses announced, that a system shows.
-/

namespace ProtonWire.EndToEnd

open Resync

/-! ## The parties -/

/-- The daemon's end, the client, and the socket between them. -/
structure System where
  server : IpcServer
  client : ProtonwireClient
  requests : List ClientMessage
  frames : List ServerMessage

/-- A new core, a session that has just been accepted, and a client about to greet it. -/
def System.start (version : String) (networkIntegration : NetworkIntegration)
    (peer : PeerCredentials) (client : ClientInfo) : System where
  server := .start version networkIntegration peer
  client := .connect client
  requests := []
  frames := []

inductive Action where
  | setVpnState (to_ : VpnState)
  | notice (level : NoticeLevel) (message : String)
  | publish
  | mark
  | advance
  | read
  | handled
  | forward
  | write
  | nextEvent
  | go
  | clientWrite
  | clientRead

/-- The step begins a new event. -/
def Action.begins : Action → Bool
  | setVpnState _ | notice .. => true
  | _ => false

/-- What the client has sent. -/
def sentOf (outputs : List ProtonwireClient.Output) : List ClientMessage := outputs.filterMap fun
  | .sent message => some message
  | _ => none

/-- The client waits for a message. -/
def reads : ProtonwireClient.Pc → Bool
  | .handshake | .polling | .awaiting .. => true
  | _ => false

namespace System

variable (w : System)

/-- A step of the daemon's. -/
def serve (a : IpcServer.Action) : System × List SessionEvent :=
  ({ w with server := (w.server.step a).1, frames := w.frames ++ writtenOf (w.server.step a).2 },
   (w.server.step a).2)

/-- A step of the client's. -/
def act (a : ProtonwireClient.Action) : System × List SessionEvent :=
  ({ w with client := (w.client.step a).1, requests := w.requests ++ sentOf (w.client.step a).2 },
   [])

/-- The dispatcher takes a message, when it reads. -/
def read : System × List SessionEvent :=
  match w.server.session.dispatcher, w.requests with
  | .reading, message :: rest => serve { w with requests := rest } (.read message)
  | _, _ => (w, [])

/-- `GetState` is answered under the lock of the core. -/
def handled : System × List SessionEvent :=
  match w.server.session.dispatcher, w.server.core.emitter with
  | .dispatching _ .getState, .free => w.serve (.handled (.ok (.state w.server.core.state)))
  | _, _ => (w, [])

/-- The client takes a message, when it waits for one. -/
def clientRead : System × List SessionEvent :=
  match w.frames with
  | message :: rest => if reads w.client.pc then act { w with frames := rest } (.read message)
    else (w, [])
  | [] => (w, [])

def step (w : System) : Action → System × List SessionEvent
  | .setVpnState to_ => w.serve (.setVpnState to_)
  | .notice level message => w.serve (.notice level message)
  | .publish => w.serve .publish
  | .mark => w.serve .mark
  | .advance => w.serve .advance
  | .read => w.read
  | .handled => w.handled
  | .forward => w.serve .forward
  | .write => w.serve (.write true)
  | .nextEvent => w.act .nextEvent
  | .go => w.act .go
  | .clientWrite => w.act (.write true)
  | .clientRead => w.clientRead

end System

/-- No step but a new event changes anything. -/
def Parked (w : System) : Prop := ∀ a : Action, a.begins = false → (w.step a).1 = w

/-! ## What is on its way -/

/-- An envelope on the line. -/
def item (envelope : EventEnvelope) : Item :=
  if envelope.seq = eventSeqResyncNow then .marker else .event envelope.seq.val

/-- The events among the messages. -/
def eventItems (messages : List ServerMessage) : List Item := messages.filterMap fun
  | .event envelope => some (item envelope)
  | _ => none

/-- The other messages. -/
def talk (messages : List ServerMessage) : List ServerMessage := messages.filter fun
  | .event _ => false
  | _ => true

/-- What the forwarder has in hand. -/
def inHand : ForwarderPc → List EventEnvelope
  | .reserving _ forwarded | .sending _ forwarded => [forwarded.envelope]
  | _ => []

/-- The forwarder will look at the mark. -/
def looks : ForwarderPc → Bool
  | .reserving _ (.event _) | .sending _ (.event _) | .checking _ => true
  | _ => false

/-- The forwarder waits for nothing. -/
def works : ForwarderPc → Bool
  | .reserving .. | .sending .. | .checking _ => true
  | _ => false

/-- The messages that are queued, written, and on the socket. -/
def System.messages (w : System) : List ServerMessage :=
  w.frames ++ w.server.session.writer.inHand ++ w.server.session.channel

/-- What is on its way to the client, and what it has put by. -/
def System.line (w : System) : List Item :=
  w.client.pendingEvents.map item ++ eventItems w.messages ++
  (inHand w.server.session.forwarder).map item ++
    w.server.session.queue.map item

@[simp] theorem eventItems_append (a b : List ServerMessage) :
    eventItems (a ++ b) = eventItems a ++ eventItems b :=
  List.filterMap_append

@[simp] theorem talk_append (a b : List ServerMessage) : talk (a ++ b) = talk a ++ talk b :=
  List.filter_append ..

@[simp] theorem eventItems_event (envelope : EventEnvelope) (rest : List ServerMessage) :
    eventItems (.event envelope :: rest) = item envelope :: eventItems rest := rfl

@[simp] theorem talk_event (envelope : EventEnvelope) (rest : List ServerMessage) :
    talk (.event envelope :: rest) = talk rest := rfl

theorem eventItems_of_talk {message : ServerMessage} (h : talk [message] = [message]) :
    eventItems [message] = [] := by
  cases message with
  | event envelope => cases h
  | _ => rfl

/-! ## The steps that leave no gap behind -/

/-- No event takes the reserved number; a mark is set while the forwarder has something to do; and
the client, waiting for an answer, drops no marker from what it has put by. -/
def Prompt (w : System) : Action → Prop
  | .setVpnState to_ => (w.step (.setVpnState to_)).1.server.core.seq ≠ eventSeqResyncNow
  | .notice level message => (w.step (.notice level message)).1.server.core.seq ≠ eventSeqResyncNow
  | .mark => w.server.core.emitter = .marking →
      w.server.session.queue ≠ [] ∨ works w.server.session.forwarder = true
  | .clientRead => ∀ envelope rest, w.client.pendingEvents = envelope :: rest →
      pendingEventsCap ≤ w.client.pendingEvents.length → envelope.seq ≠ eventSeqResyncNow
  | _ => True

/-! ## The session is served -/

/-- The version a forwarder goes by. -/
def version : ForwarderPc → Option ℕ
  | .receiving version | .reserving version _ | .sending version _ | .checking version =>
    some version
  | _ => none

/-- The slots that are held. -/
def slots (s : IpcSession) : ℕ :=
  s.channel.length + s.writer.inHand.length + s.writer.releases + s.dispatcher.sends +
  s.forwarder.sends

/-- A session that nothing has ended. -/
structure Serving (s : IpcSession) : Prop where
  gateAlive : s.gateAlive = true
  receiverAlive : s.receiverAlive = true
  writerGone : s.writerGone = false
  writer : s.writer = .receiving ∨ s.writer.inHand ≠ [] ∨ s.writer = .releasing
  forwarder : s.forwarder ≠ .done
  gate : ∀ v, s.gate = some v → v = protocolVersion ∧ s.subscribed = true
  version : ∀ v, version s.forwarder = some v → v = protocolVersion
  subscribed : s.subscribed = true ∨ s.dispatcher = .subscribing
  entered : s.forwarder ≠ .gate → s.subscribed = true
  room : s.channel.length ≤ sessionQueueLen
  counter : s.unwritten.val = slots s

section
variable {s : IpcSession}

theorem Serving.slots_le (h : Serving s) : slots s + 1 < 2 ^ 64 := by
  have hroom := h.room
  have hhand : s.writer.inHand.length ≤ 1 := by cases s.writer <;> simp [WriterPc.inHand]
  have hreleases : s.writer.releases ≤ 1 := by cases s.writer <;> simp [WriterPc.releases]
  have hsends : s.dispatcher.sends ≤ 1 := by cases s.dispatcher <;> simp [DispatcherPc.sends]
  have hsends' : s.forwarder.sends ≤ 1 := by cases s.forwarder <;> simp [ForwarderPc.sends]
  rw [sessionQueueLen] at hroom
  rw [slots]
  omega

theorem Serving.reserve_val (h : Serving s) : (s.unwritten + 1).val = slots s + 1 := by
  have hslots := h.slots_le
  rw [← h.counter] at hslots ⊢
  exact Fin.val_add_one_of_lt' hslots

theorem Serving.release_val (h : Serving s) (hheld : 0 < slots s) :
    (s.unwritten - 1).val = slots s - 1 := by
  have hval : (s.unwritten - 1).val = (2 ^ 64 - 1 + s.unwritten.val) % 2 ^ 64 := rfl
  have hslots := h.slots_le
  rw [hval, h.counter]
  omega

/-- The dispatcher goes on. -/
theorem Serving.goes (h : Serving s) {pc : DispatcherPc} (hsubscribed : s.subscribed = true)
    (hsends : pc.sends = s.dispatcher.sends) : Serving { s with dispatcher := pc } :=
  { h with
    subscribed := .inl hsubscribed
    counter := by
      rw [slots]
      show s.unwritten.val = s.channel.length + s.writer.inHand.length + s.writer.releases +
        pc.sends + s.forwarder.sends
      rw [hsends]
      exact h.counter }

theorem Serving.forward (h : Serving s) : Serving s.forward.1 := by
  have hcounter := h.counter
  have hversion := h.version
  rw [slots] at hcounter
  have hstep := s.forward_forwards
  generalize s.forward.1 = s' at hstep ⊢
  generalize s.forward.2 = emitted at hstep
  cases hstep with
  | stays => exact h
  | enters v pc gate =>
    rw [pc] at hcounter
    obtain ⟨hv, hsubscribed⟩ := h.gate v gate
    refine { h with
      forwarder := by
        simp, gate := by simp, entered := fun _ => hsubscribed, counter := hcounter, version := ?_ }
    rintro _ ⟨⟩
    exact hv
  | turnsBack pc gate closed => simp [h.gateAlive] at closed
  | receives v envelope rest pc queue reaches =>
    rw [pc] at hcounter hversion
    exact { h with
      forwarder := by
        simp, entered := fun _ => h.entered (by simp [pc]), counter := hcounter, version :=
          hversion }
  | withholds v envelope rest pc queue hidden => exact { h with }
  | finishes v pc queue left =>
    have := h.entered (by simp [pc])
    simp [this] at left
  | reserves v forwarded pc =>
    rw [pc] at hcounter hversion
    refine { h with
      forwarder := by
        simp, entered := fun _ => h.entered (by simp [pc]), version := hversion, counter := ?_ }
    rw [show (IpcSession.reserve s).unwritten = s.unwritten + 1 from rfl, h.reserve_val]
    simp only [slots, pc, ForwarderPc.sends]
    rfl
  | sends v forwarded pc alive room =>
    rw [pc] at hcounter hversion
    refine { h with
      forwarder := by cases forwarded <;> simp [Forwarded.pc]
      entered := fun _ => h.entered (by simp [pc])
      version := fun v' hv => hversion v' (by cases forwarded <;> exact hv)
      room := by simpa using room
      counter := ?_ }
    have hsends : (forwarded.pc v).sends = 0 := by cases forwarded <;> rfl
    have hheld : (ForwarderPc.sending v forwarded).sends = 1 := rfl
    simp only [slots, hsends, hheld, List.length_append, List.length_singleton] at hcounter ⊢
    omega
  | sendsNobody v forwarded pc dead => simp [h.receiverAlive] at dead
  | signals v pc marked reaches =>
    rw [pc] at hcounter hversion
    exact { h with
      forwarder := by
        simp, entered := fun _ => h.entered (by simp [pc]), counter := hcounter, version :=
          hversion }
  | resumes v pc unmarked =>
    rw [pc] at hcounter hversion
    exact { h with
      forwarder := by
        simp, entered := fun _ => h.entered (by simp [pc]), counter := hcounter, version :=
          hversion }

theorem Serving.senderAlive (h : Serving s) : s.senderAlive = true := by
  unfold IpcSession.senderAlive
  split
  · next hdone => exact absurd hdone h.forwarder
  · next hdone => exact absurd hdone h.forwarder
  · rfl

/-- The writer goes on, and what it has written is on the socket. -/
theorem Serving.write (h : Serving s) : Serving (s.write true).1 ∧
    writtenOf (s.write true).2 ++ (s.write true).1.writer.inHand ++ (s.write true).1.channel =
      s.writer.inHand ++ s.channel := by
  have hcounter := h.counter
  have hroom := h.room
  rw [slots] at hcounter
  obtain hpc | hpc | hpc := h.writer
  · cases hchannel : s.channel with
    | nil =>
      have hsame : s.write true = (s, []) := by
        rw [IpcSession.write, hpc, hchannel, h.senderAlive]
        rfl
      rw [hsame]
      exact ⟨h, by rw [hchannel]; rfl⟩
    | cons message rest =>
      have htakes : s.write true = ({ s with channel := rest, writer := .writing message },
        []) := by
        rw [IpcSession.write, hpc, hchannel]
      rw [htakes]
      rw [hpc, hchannel] at hcounter
      rw [hchannel] at hroom
      refine ⟨{ h with
        writer := .inr (.inl (by simp [WriterPc.inHand]))
        room := Nat.le_of_succ_le hroom
        counter := ?_ }, ?_⟩
      · simp only [slots, WriterPc.inHand, WriterPc.releases, List.length_cons, List.length_nil]
          at hcounter ⊢
        omega
      · rw [hpc]
        rfl
  · cases hwriter : s.writer with
    | writing message =>
      have hwrites : s.write true = ({ s with writer := .releasing }, [.written message]) := by
        rw [IpcSession.write, hwriter]
        rfl
      rw [hwrites]
      rw [hwriter] at hcounter
      refine ⟨{ h with writer := .inr (.inr rfl), counter := ?_ }, rfl⟩
      simp only [slots, WriterPc.inHand, WriterPc.releases, List.length_cons, List.length_nil]
        at hcounter ⊢
      omega
    | _ =>
      rw [hwriter] at hpc
      exact absurd rfl hpc
  · have hreleases : s.write true = ({ s.release with writer := .receiving }, []) := by
      rw [IpcSession.write, hpc]
    rw [hreleases]
    have hheld : slots s = s.channel.length + s.dispatcher.sends + s.forwarder.sends + 1 := by
      rw [slots, hpc]
      simp only [WriterPc.inHand, WriterPc.releases, List.length_nil]
      omega
    refine ⟨{ h with writer := .inl rfl, counter := ?_ }, by rw [hpc]; rfl⟩
    show (s.unwritten - 1).val = _
    rw [h.release_val (by omega), hheld]
    simp only [slots, WriterPc.inHand, WriterPc.releases, List.length_nil, IpcSession.release]
    omega

end

/-! ## Requests and answers -/

/-- Before the handshake is granted. -/
structure Closed (s : IpcSession) : Prop where
  helloDone : s.helloDone = false
  gate : s.gate = none
  forwarder : s.forwarder = .gate

/-- After it has been granted. -/
structure Opened (s : IpcSession) : Prop where
  helloDone : s.helloDone = true
  client : s.clientInfo.isSome = true
  forwarder : s.forwarder = .gate → s.gate ≠ none

/-- The dispatcher has nothing to answer. -/
inductive Ready (s : IpcSession) : Prop where
  | opening (info : ClientInfo) (pc : s.dispatcher = .opening protocolVersion info)
    (closed : Closed s)
  | top (pc : s.dispatcher = .top) (opened : Opened s)
  | reading (pc : s.dispatcher = .reading) (opened : Opened s)

/-- The dispatcher waits for the hello. -/
def Greetable (s : IpcSession) : Prop :=
  s.dispatcher = .subscribing ∨ s.dispatcher = .top ∨ s.dispatcher = .reading

/-- The dispatcher grants the handshake. -/
inductive Granting (s : IpcSession) : Prop where
  | stamping (info : ClientInfo) (pc : s.dispatcher = .stamping protocolVersion info)
  | reserving (info : ClientInfo) (ack : HelloAck) (granted : ack.protocolVersion = protocolVersion)
      (pc : s.dispatcher = .reserving (.helloAck ack) (.openGate protocolVersion info))
  | sending (info : ClientInfo) (ack : HelloAck) (granted : ack.protocolVersion = protocolVersion)
      (pc : s.dispatcher = .sending (.helloAck ack) (.openGate protocolVersion info))

/-- The answer to `GetState`. -/
def snapshot (id : ℕ) (state : DaemonState) : ServerMessage := .response (.ok id (.state state))

/-- **Where the conversation is**, and the stage of the feed that it shows. -/
inductive Phase (w : System) : Stage → Prop where
  | greeting (pc : w.client.pc = .greeting) (requests : w.requests = [])
    (messages : w.messages = [])
      (dispatcher : Greetable w.server.session) (closed : Closed w.server.session) :
      Phase w .reading
  | greeted (info : ClientInfo) (pc : w.client.pc = .handshake)
    (requests : w.requests = [.hello protocolVersion info])
      (messages : w.messages = []) (dispatcher : Greetable w.server.session)
      (closed : Closed w.server.session) :
      Phase w .reading
  | granting (pc : w.client.pc = .handshake) (requests : w.requests = [])
    (messages : w.messages = [])
      (dispatcher : Granting w.server.session) (closed : Closed w.server.session) : Phase w .reading
  | granted (ack : HelloAck) (rest : List ServerMessage) (pc : w.client.pc = .handshake)
    (requests : w.requests = [])
      (messages : w.messages = .helloAck ack :: rest) (quiet : talk rest = [])
      (version : ack.protocolVersion = protocolVersion) (ready : Ready w.server.session) :
      Phase w .reading
  | listening (pc : w.client.pc = .idle ∨ w.client.pc = .next ∨ w.client.pc = .polling ∧
    w.client.pendingEvents = [])
      (requests : w.requests = []) (quiet : talk w.messages = []) (ready : Ready w.server.session) :
      Phase w .reading
  | asking (gap : Option Word64) (id : ℕ)
    (pc : w.client.pc = .sending (.resynchronize gap) id .getState)
      (requests : w.requests = []) (quiet : talk w.messages = []) (ready : Ready w.server.session) :
      Phase w (.asked (gap.map Fin.val))
  | asked (gap : Option Word64) (id : ℕ) (pc : w.client.pc = .awaiting (.resynchronize gap) id)
      (requests : w.requests = [.request id .getState]) (quiet : talk w.messages = [])
      (ready : Ready w.server.session) : Phase w (.asked (gap.map Fin.val))
  | dispatching (gap : Option Word64) (id : ℕ)
    (pc : w.client.pc = .awaiting (.resynchronize gap) id)
      (requests : w.requests = []) (quiet : talk w.messages = [])
      (dispatcher : w.server.session.dispatcher = .dispatching id .getState)
      (opened : Opened w.server.session) :
      Phase w (.asked (gap.map Fin.val))
  | answering (gap : Option Word64) (id : ℕ) (state : DaemonState) (stamp : Word64)
      (pc : w.client.pc = .awaiting (.resynchronize gap) id) (requests : w.requests = [])
      (quiet : talk w.messages = [])
      (dispatcher : w.server.session.dispatcher = .reserving (snapshot id state) .loop ∨
        w.server.session.dispatcher = .sending (snapshot id state) .loop)
      (opened : Opened w.server.session) (stamped : state.latestEventSeq = some stamp) :
      Phase w (.told (gap.map Fin.val) stamp.val)
  | answered (gap : Option Word64) (id : ℕ) (state : DaemonState) (stamp : Word64)
      (pc : w.client.pc = .awaiting (.resynchronize gap) id) (requests : w.requests = [])
      (answer : talk w.messages = [snapshot id state]) (ready : Ready w.server.session)
      (stamped : state.latestEventSeq = some stamp) : Phase w (.told (gap.map Fin.val) stamp.val)

theorem Phase.of_parts {w w' : System} {stage : Stage} (more : List ServerMessage)
    (h : Phase w stage) (hclient : w'.client = w.client) (hrequests : w'.requests = w.requests)
    (hmessages : w'.messages = w.messages ++ more) (hmore : talk more = [])
    (hready : Ready w.server.session → Ready w'.server.session)
    (hgreetable : Closed w.server.session → Greetable w.server.session →
      more = [] ∧ Closed w'.server.session ∧ Greetable w'.server.session)
    (hgranting : Closed w.server.session → Granting w.server.session →
      more = [] ∧ Closed w'.server.session ∧ Granting w'.server.session)
    (hopened : Opened w.server.session → Opened w'.server.session)
    (hdispatching : ∀ id, w.server.session.dispatcher = .dispatching id .getState →
      w'.server.session.dispatcher = .dispatching id .getState)
    (hanswering : ∀ id state, (w.server.session.dispatcher = .reserving (snapshot id state) .loop ∨
        w.server.session.dispatcher = .sending (snapshot id state) .loop) →
      w'.server.session.dispatcher = .reserving (snapshot id state) .loop ∨
        w'.server.session.dispatcher = .sending (snapshot id state) .loop) : Phase w' stage := by
  have hquiet : talk w.messages = [] → talk w'.messages = [] := by
    intro hquiet
    rw [hmessages, talk_append, hquiet, hmore]
    rfl
  have hempty : more = [] → w.messages = [] → w'.messages = [] := by
    intro hnothing hnone
    rw [hmessages, hnone, hnothing]
    rfl
  cases h with
  | greeting pc requests messages dispatcher closed =>
    obtain ⟨hnothing, hclosed, hdispatcher⟩ := hgreetable closed dispatcher
    exact .greeting (by rw [hclient, pc]) (by rw [hrequests, requests])
      (hempty hnothing messages) hdispatcher hclosed
  | greeted info pc requests messages dispatcher closed =>
    obtain ⟨hnothing, hclosed, hdispatcher⟩ := hgreetable closed dispatcher
    exact .greeted info (by rw [hclient, pc]) (by rw [hrequests, requests])
      (hempty hnothing messages) hdispatcher
      hclosed
  | granting pc requests messages dispatcher closed =>
    obtain ⟨hnothing, hclosed, hdispatcher⟩ := hgranting closed dispatcher
    exact .granting (by rw [hclient, pc]) (by rw [hrequests, requests])
      (hempty hnothing messages) hdispatcher hclosed
  | granted ack rest pc requests messages quiet version ready =>
    refine .granted ack (rest ++ more) (by rw [hclient, pc])
      (by rw [hrequests, requests]) ?_ ?_ version (hready ready)
    · rw [hmessages, messages, List.cons_append]
    · rw [talk_append, quiet, hmore]
      rfl
  | listening pc requests quiet ready =>
    exact .listening (by rw [hclient]; exact pc) (by rw [hrequests, requests]) (hquiet quiet)
      (hready ready)
  | asking gap id pc requests quiet ready =>
    exact .asking gap id (by rw [hclient, pc]) (by rw [hrequests, requests]) (hquiet quiet)
      (hready ready)
  | asked gap id pc requests quiet ready =>
    exact .asked gap id (by rw [hclient, pc]) (by rw [hrequests, requests]) (hquiet quiet)
      (hready ready)
  | dispatching gap id pc requests quiet dispatcher opened =>
    exact .dispatching gap id (by rw [hclient, pc]) (by rw [hrequests, requests]) (hquiet quiet)
      (hdispatching id dispatcher) (hopened opened)
  | answering gap id state stamp pc requests quiet dispatcher opened stamped =>
    exact .answering gap id state stamp (by rw [hclient, pc]) (by rw [hrequests, requests])
      (hquiet quiet)
      (hanswering id state dispatcher) (hopened opened) stamped
  | answered gap id state stamp pc requests answer ready stamped =>
    refine .answered gap id state stamp (by rw [hclient, pc])
      (by rw [hrequests, requests]) ?_ (hready ready) stamped
    rw [hmessages, talk_append, answer, hmore]
    rfl

theorem Phase.of_session {w w' : System} {stage : Stage} (more : List ServerMessage)
    (h : Phase w stage) (hclient : w'.client = w.client) (hrequests : w'.requests = w.requests)
    (hdispatcher : w'.server.session.dispatcher = w.server.session.dispatcher)
    (hmessages : w'.messages = w.messages ++ more) (hmore : talk more = [])
    (hclosed : Closed w.server.session → Closed w'.server.session ∧ more = [])
    (hopened : Opened w.server.session → Opened w'.server.session) : Phase w' stage := by
  refine h.of_parts more hclient hrequests hmessages hmore ?_ ?_ ?_ hopened ?_ ?_
  · intro hready
    cases hready with
    | opening info pc closed => exact .opening info (by rw [hdispatcher, pc]) (hclosed closed).1
    | top pc opened => exact .top (by rw [hdispatcher, pc]) (hopened opened)
    | reading pc opened => exact .reading (by rw [hdispatcher, pc]) (hopened opened)
  · intro closed hgreetable
    refine ⟨(hclosed closed).2, (hclosed closed).1, ?_⟩
    rwa [Greetable, hdispatcher]
  · intro closed hgranting
    refine ⟨(hclosed closed).2, (hclosed closed).1, ?_⟩
    cases hgranting with
    | stamping info pc => exact .stamping info (by rw [hdispatcher, pc])
    | reserving info ack granted pc => exact .reserving info ack granted (by rw [hdispatcher, pc])
    | sending info ack granted pc => exact .sending info ack granted (by rw [hdispatcher, pc])
  · exact fun id hpc => by rw [hdispatcher, hpc]
  · exact fun id state hpc => by rwa [hdispatcher]

/-- Where the dispatcher can be. -/
theorem Phase.dispatcher {w : System} {stage : Stage} (h : Phase w stage) :
    Ready w.server.session ∨ (Closed w.server.session ∧ Greetable w.server.session) ∨
      (Closed w.server.session ∧ Granting w.server.session) ∨
      (Opened w.server.session ∧ ∃ id, w.server.session.dispatcher = .dispatching id .getState) ∨
      Opened w.server.session ∧ ∃ id state, w.server.session.dispatcher =
      .reserving (snapshot id state) .loop ∨
        w.server.session.dispatcher = .sending (snapshot id state) .loop := by
  cases h with
  | greeting pc requests messages dispatcher closed => exact .inr (.inl ⟨closed, dispatcher⟩)
  | greeted info pc requests messages dispatcher closed => exact .inr (.inl ⟨closed, dispatcher⟩)
  | granting pc requests messages dispatcher closed => exact .inr (.inr (.inl ⟨closed, dispatcher⟩))
  | dispatching gap id pc requests quiet dispatcher opened =>
    exact .inr (.inr (.inr (.inl ⟨opened, id, dispatcher⟩)))
  | answering gap id state stamp pc requests quiet dispatcher opened stamped =>
    exact .inr (.inr (.inr (.inr ⟨opened, id, state, dispatcher⟩)))
  | _ => exact .inl (by assumption)

/-! ## What a system shows -/

/-- An event of the core's whose publication is not over. -/
def unfinished : Emitter → ℕ
  | .free => 0
  | _ => 1

/-- What has been published to the session. -/
def publishedOf (events : List SessionEvent) : List EventEnvelope := events.filterMap fun
  | .accepted envelope | .dropped envelope => some envelope
  | _ => none

/-- **The feed that a system shows**, after `events`. -/
structure Shows (w : System) (events : List SessionEvent) (f : Feed) : Prop where
  number : w.server.core.seq.val = f.published + unfinished w.server.core.emitter
  below : w.server.core.seq ≠ eventSeqResyncNow
  publishing : ∀ envelope, w.server.core.emitter = .publishing envelope →
    envelope.seq = w.server.core.seq
  marking : w.server.core.emitter = .marking → w.server.session.subscribed = true
  line : f.line = w.line
  cursor : f.cursor = w.client.lastSeq.map Fin.val
  owed : f.owed = true → w.server.session.overflowed = true ∧
    (w.server.session.queue ≠ [] ∨ looks w.server.session.forwarder = true)
  marked : w.server.session.overflowed = true → f.heard = true
  absent : w.server.session.subscribed = false → f.heard = false
  silent : f.heard = false → w.server.core.emitter ≠ .marking → publishedOf events = []
  serving : Serving w.server.session
  phase : Phase w f.stage
  usable : w.client.poisoned = false

end ProtonWire.EndToEnd
