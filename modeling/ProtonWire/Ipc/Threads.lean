import ProtonWire.Ipc.Steps

/-!
# The threads of a session

What holds between the threads of a session and the messages queued so far, each with the steps that
keep it.

* `queuedOf`, `writtenOf`, `acceptedOf`, `answersOf`: what a run of the session comes to;
* `Greeting`: the ack comes first, and nobody but the dispatcher queues before it;
* `Unrefused`, `RefusedLast`: a refusal is queued when the dispatcher leaves, and is the last
  message unless the forwarder queues another;
* `Answering`: the responses are the answers, in order;
* `Delivering`: the events are some of what was accepted, in order;
* `Piping`: what is written is the beginning of what was queued.
-/

namespace ProtonWire

/-! ## What a run comes to -/

/-- The messages queued for the writer. -/
def queuedOf (events : List SessionEvent) : List ServerMessage :=
  events.filterMap fun
    | .queued message => some message
    | _ => none

/-- The frames written. -/
def writtenOf (events : List SessionEvent) : List ServerMessage :=
  events.filterMap fun
    | .written message => some message
    | _ => none

/-- The events the session's queue took from the bus. -/
def acceptedOf (events : List SessionEvent) : List EventEnvelope :=
  events.filterMap fun
    | .accepted envelope => some envelope
    | _ => none

/-- What the dispatched requests were answered with; a handler that panics answers nothing. -/
def answersOf (events : List SessionEvent) : List (Option Response) :=
  events.filterMap fun
    | .dispatched _ _ response => some response
    | _ => none

/-- The responses among the messages. -/
def responsesOf (messages : List ServerMessage) : List Response :=
  messages.filterMap fun
    | .response response => some response
    | _ => none

/-- The bus events among the messages: the marker's number is reserved, no event carries it. -/
def eventsOf (messages : List ServerMessage) : List EventEnvelope :=
  messages.filterMap fun
    | .event envelope => if envelope.seq = eventSeqResyncNow then none else some envelope
    | _ => none

/-- A refusal of the handshake. -/
def ServerMessage.isRefusal : ServerMessage → Bool
  | helloError _ => true
  | _ => false

@[simp] theorem queuedOf_nil : queuedOf [] = [] := rfl

@[simp] theorem queuedOf_written (message : ServerMessage) : queuedOf [.written message] = [] := rfl

@[simp] theorem queuedOf_append (a b : List SessionEvent) :
    queuedOf (a ++ b) = queuedOf a ++ queuedOf b :=
  List.filterMap_append

@[simp] theorem writtenOf_append (a b : List SessionEvent) :
    writtenOf (a ++ b) = writtenOf a ++ writtenOf b :=
  List.filterMap_append

@[simp] theorem acceptedOf_append (a b : List SessionEvent) :
    acceptedOf (a ++ b) = acceptedOf a ++ acceptedOf b :=
  List.filterMap_append

@[simp] theorem answersOf_append (a b : List SessionEvent) :
    answersOf (a ++ b) = answersOf a ++ answersOf b :=
  List.filterMap_append

@[simp] theorem responsesOf_append (a b : List ServerMessage) :
    responsesOf (a ++ b) = responsesOf a ++ responsesOf b :=
  List.filterMap_append

@[simp] theorem eventsOf_append (a b : List ServerMessage) :
    eventsOf (a ++ b) = eventsOf a ++ eventsOf b :=
  List.filterMap_append

/-! ## The dispatcher's part -/

/-- Why the dispatcher's loop was left. -/
def DispatcherPc.left : DispatcherPc → Option Cause
  | returned cause | leaving cause | .over cause => some cause
  | _ => none

/-- The refusal that was queued last. -/
def DispatcherPc.refused (pc : DispatcherPc) : Option String :=
  match pc.left with
  | some (.refused reason) => some reason
  | _ => none

/-- The message the dispatcher is about to queue. -/
def DispatcherPc.pending : DispatcherPc → List ServerMessage
  | refusing reason => [IpcSession.refusal reason]
  | reserving message _ | sending message _ => [message]
  | _ => []

/-- A message goes with what follows it. -/
def DispatcherPc.Sound (helloDone : Bool) : DispatcherPc → Prop
  | dispatching _ _ => helloDone = true
  | reserving message afterwards | sending message afterwards =>
    (∃ ack version client, message = .helloAck ack ∧ afterwards = .openGate version client) ∨
      helloDone = true ∧ afterwards = .loop ∧ ∃ response, message = .response response
  | _ => True

/-- The ack is queued, and the gate about to be opened. -/
def DispatcherPc.opens : DispatcherPc → Bool
  | opening _ _ => true
  | _ => false

/-- The forwarder has passed the gate. -/
def ForwarderPc.entered : ForwarderPc → Bool
  | gate | done => false
  | _ => true

/-- The event that is forwarded. -/
def Forwarded.taken : Forwarded → List EventEnvelope
  | event envelope => [envelope]
  | marker => []

/-- The event the forwarder has taken, and not queued. -/
def ForwarderPc.taken : ForwarderPc → List EventEnvelope
  | reserving _ item | sending _ item => item.taken
  | _ => []

/-- What the writer has taken of the channel, as long as it drains it. -/
def WriterPc.held : WriterPc → Option (List ServerMessage)
  | receiving | releasing => some []
  | writing message => some [message]
  | _ => none

namespace IpcSession

/-- The ack is queued. -/
def acked (s : IpcSession) : Bool := s.helloDone || s.dispatcher.opens

/-- **The handshake.** -/
structure Greeting (s : IpcSession) (queued : List ServerMessage) : Prop where
  client : s.clientInfo.isSome = true → s.helloDone = true
  gate : s.gate.isSome = true → s.helloDone = true
  forwarder : s.forwarder.entered = true → s.helloDone = true
  sound : s.dispatcher.Sound s.helloDone
  first : s.acked = true → ∃ ack rest, queued = .helloAck ack :: rest
  silent : s.acked = false →
    queued = [] ∨ ∃ reason, s.dispatcher.refused = some reason ∧ queued = [refusal reason]

variable {s s' : IpcSession} {core : DaemonCore} {busFree : Bool} {events : List SessionEvent}
  {queued : List ServerMessage}

/-- While the dispatcher runs, and is not about to open the gate. -/
theorem Greeting.running (h : s.Greeting queued) (hleft : s.dispatcher.left = none)
    (hopens : s.dispatcher.opens = false) :
    (s.helloDone = true → ∃ ack rest, queued = .helloAck ack :: rest) ∧
    (s.helloDone = false → queued = []) := by
  have hacked : s.acked = s.helloDone := by rw [acked, hopens, Bool.or_false]
  refine ⟨fun hdone => h.first (hacked.trans hdone), fun hdone => ?_⟩
  rcases h.silent (hacked.trans hdone) with hnil | ⟨reason, hrefused, -⟩
  · exact hnil
  · rw [DispatcherPc.refused, hleft] at hrefused
    cases hrefused

/-- Another place of the dispatcher, with nothing queued. -/
theorem Greeting.goto (h : s.Greeting queued) (hleft : s.dispatcher.left = none)
    (hopens : s.dispatcher.opens = false)
    (hclient : s'.clientInfo = s.clientInfo) (hgate : s'.gate = s.gate)
    (hforwarder : s'.forwarder = s.forwarder)
    (hdone : s'.helloDone = s.helloDone) (hopens' : s'.dispatcher.opens = false)
    (hsound : s'.dispatcher.Sound s.helloDone) : s'.Greeting queued := by
  have hacked : s'.acked = s.helloDone := by rw [acked, hopens', Bool.or_false, hdone]
  obtain ⟨hfirst, hsilent⟩ := h.running hleft hopens
  refine ⟨?_, ?_, ?_, ?_, ?_, ?_⟩
  · rw [hclient, hdone]
    exact h.client
  · rw [hgate, hdone]
    exact h.gate
  · rw [hforwarder, hdone]
    exact h.forwarder
  · rwa [hdone]
  · rwa [hacked]
  · rw [hacked]
    exact fun hd => .inl (hsilent hd)

/-- Another place of the dispatcher on its way out. -/
theorem Greeting.onward (h : s.Greeting queued)
    (hrefused : s.dispatcher.refused = s'.dispatcher.refused)
    (hopens : s.dispatcher.opens = false) (hclient : s'.clientInfo = s.clientInfo)
    (hgate : s'.gate = s.gate)
    (hforwarder : s'.forwarder = s.forwarder) (hdone : s'.helloDone = s.helloDone)
    (hopens' : s'.dispatcher.opens = false) (hsound : s'.dispatcher.Sound s.helloDone) :
    s'.Greeting queued := by
  have hacked : s'.acked = s.acked := by rw [acked, acked, hopens', hopens, hdone]
  refine ⟨?_, ?_, ?_, ?_, ?_, ?_⟩
  · rw [hclient, hdone]
    exact h.client
  · rw [hgate, hdone]
    exact h.gate
  · rw [hforwarder, hdone]
    exact h.forwarder
  · rwa [hdone]
  · rw [hacked]
    exact h.first
  · rw [hacked, ← hrefused]
    exact h.silent

theorem Greeting.dispatches (h : s.Greeting queued) (hstep : s.Dispatches core busFree s' events) :
    s'.Greeting (queued ++ queuedOf events) := by
  have hquiet : ∀ pc, s.dispatcher = pc → pc.left = none → pc.opens = false →
      s'.clientInfo = s.clientInfo → s'.gate = s.gate → s'.forwarder = s.forwarder →
      s'.helloDone = s.helloDone →
      s'.dispatcher.opens = false → s'.dispatcher.Sound s.helloDone → queuedOf events = [] →
      s'.Greeting (queued ++ queuedOf events) := by
    rintro pc rfl hleft hopens hclient hgate hforwarder hdone hopens' hsound hnone
    rw [hnone, List.append_nil]
    exact h.goto hleft hopens hclient hgate hforwarder hdone hopens' hsound
  have hsound := h.sound
  cases hstep with
  | stays => rwa [queuedOf_nil, List.append_nil]
  | subscribes pc free => exact hquiet _ pc rfl rfl rfl rfl rfl rfl rfl trivial rfl
  | reads pc => exact hquiet _ pc rfl rfl rfl rfl rfl rfl rfl trivial rfl
  | polls pc => exact hquiet _ pc rfl rfl rfl rfl rfl rfl rfl trivial rfl
  | ends pc => 
    rcases pc with pc | pc
    · exact hquiet _ pc rfl rfl rfl rfl rfl rfl rfl trivial rfl
    · exact hquiet _ pc rfl rfl rfl rfl rfl rfl rfl trivial rfl
  | declines reason pc =>
    rcases pc with pc | pc
    · exact hquiet _ pc rfl rfl rfl rfl rfl rfl rfl trivial rfl
    · exact hquiet _ pc rfl rfl rfl rfl rfl rfl rfl trivial rfl
  | refuses reason pc alive =>
    obtain ⟨hfirst, hsilent⟩ := h.running (by rw [pc]; rfl) (by rw [pc]; rfl)
    refine ⟨h.client, h.gate, h.forwarder, trivial, fun hacked => ?_, fun hacked => ?_⟩
    · obtain ⟨ack, rest, hqueued⟩ := hfirst (by simpa [acked, DispatcherPc.opens] using hacked)
      exact ⟨ack, rest ++ [refusal reason], by rw [hqueued]; rfl⟩
    · have hnil := hsilent (by simpa [acked, DispatcherPc.opens] using hacked)
      exact .inr ⟨reason, rfl, by rw [hnil]; rfl⟩
  | refusesNobody reason pc dead => exact hquiet _ pc rfl rfl rfl rfl rfl rfl rfl trivial rfl
  | greets version client pc => exact hquiet _ pc rfl rfl rfl rfl rfl rfl rfl trivial rfl
  | stamps version client pc =>
    exact hquiet _ pc rfl rfl rfl rfl rfl rfl rfl (.inl ⟨_, version, client, rfl, rfl⟩) rfl
  | accepts id request pc known =>
    exact hquiet _ pc rfl rfl rfl rfl rfl rfl rfl (h.client known) rfl
  | panics id request pc => exact hquiet _ pc rfl rfl rfl rfl rfl rfl rfl trivial rfl
  | answers id request handle asked pc authorized =>
    rw [pc] at hsound
    have hnone : queuedOf asked = [] := by
      rcases authorized with rfl | ⟨-, rfl⟩ <;> rfl
    exact hquiet _ pc rfl rfl rfl rfl rfl rfl rfl (.inr ⟨hsound, rfl, _, rfl⟩)
      (by rw [queuedOf_append, hnone]; rfl)
  | reserves message afterwards pc =>
    rw [pc] at hsound
    exact hquiet _ pc rfl rfl rfl rfl rfl rfl rfl hsound rfl
  | sends message afterwards pc alive =>
    rw [pc] at hsound
    obtain ⟨hfirst, hsilent⟩ := h.running (by rw [pc]; rfl) (by rw [pc]; rfl)
    rcases hsound with ⟨ack, version, client, rfl, rfl⟩ | ⟨hdone, rfl, response, rfl⟩
    · refine ⟨h.client, h.gate, h.forwarder, trivial, fun _ => ?_, fun hacked => ?_⟩
      · cases hdone : s.helloDone with
        | true =>
          obtain ⟨ack', rest, hqueued⟩ := hfirst hdone
          exact ⟨ack', rest ++ [.helloAck ack], by rw [hqueued]; rfl⟩
        | false => exact ⟨ack, [], by rw [hsilent hdone]; rfl⟩
      · simp [acked, Afterwards.pc, DispatcherPc.opens] at hacked
    · obtain ⟨ack, rest, hqueued⟩ := hfirst hdone
      refine ⟨h.client, h.gate, h.forwarder, trivial, fun _ => ?_, fun hacked => ?_⟩
      · exact ⟨ack, rest ++ [.response response], by rw [hqueued]; rfl⟩
      · simp [acked, hdone] at hacked
  | sendsNobody message afterwards pc dead =>
    exact hquiet _ pc rfl rfl rfl rfl rfl rfl rfl trivial rfl
  | opens version client pc =>
    have hacked : s.acked = true := by rw [acked, pc]; exact Bool.or_true _
    refine ⟨fun _ => rfl, fun _ => rfl, fun _ => rfl, trivial, fun _ => ?_, fun hacked' => ?_⟩
    · rw [queuedOf_nil, List.append_nil]
      exact h.first hacked
    · simp [acked] at hacked'
  | returns cause pc =>
    rw [queuedOf_nil, List.append_nil]
    exact h.onward (by rw [pc]; rfl) (by rw [pc]; rfl) rfl rfl rfl rfl rfl trivial
  | leaves cause pc free =>
    rw [queuedOf_nil, List.append_nil]
    exact h.onward (by rw [pc]; rfl) (by rw [pc]; rfl) rfl rfl rfl rfl rfl trivial

/-- What the forwarder queues is an event, after the ack. -/
theorem Greeting.forwards (h : s.Greeting queued) (hstep : s.Forwards s' events) :
    s'.Greeting (queued ++ queuedOf events) := by
  -- a step that only moves the forwarder
  have hquiet : s'.dispatcher = s.dispatcher → s'.clientInfo = s.clientInfo →
    s'.helloDone = s.helloDone →
      (s'.gate.isSome = true → s.helloDone = true) →
      (s'.forwarder.entered = true → s.helloDone = true) →
      queuedOf events = [] → s'.Greeting (queued ++ queuedOf events) := by
    intro hdispatcher hclient hdone hgate hforwarder hnone
    have hacked : s'.acked = s.acked := by rw [acked, acked, hdispatcher, hdone]
    rw [hnone, List.append_nil]
    refine ⟨?_, ?_, ?_, ?_, ?_, ?_⟩
    · rw [hclient, hdone]
      exact h.client
    · rwa [hdone]
    · rwa [hdone]
    · rw [hdispatcher, hdone]
      exact h.sound
    · rw [hacked]
      exact h.first
    · rw [hacked, hdispatcher]
      exact h.silent
  have hentered : ∀ pc, s.forwarder = pc → pc.entered = true → s.helloDone = true := by
    rintro pc rfl
    exact h.forwarder
  cases hstep with
  | stays => rwa [queuedOf_nil, List.append_nil]
  | enters version pc gate =>
    exact hquiet rfl rfl rfl (fun hg => by cases hg) (fun _ => h.gate (by rw [gate]; rfl)) rfl
  | turnsBack pc gate closed => exact hquiet rfl rfl rfl h.gate (fun he => by cases he) rfl
  | receives version envelope rest pc queue reaches =>
    exact hquiet rfl rfl rfl h.gate (fun _ => hentered _ pc rfl) rfl
  | withholds version envelope rest pc queue hidden =>
    exact hquiet rfl rfl rfl h.gate h.forwarder rfl
  | finishes version pc queue left => exact hquiet rfl rfl rfl h.gate (fun he => by cases he) rfl
  | reserves version item pc => exact hquiet rfl rfl rfl h.gate (fun _ => hentered _ pc rfl) rfl
  | sends version item pc alive room =>
    have hdone := hentered _ pc rfl
    have hacked : s.acked = true := by rw [acked, hdone]; rfl
    obtain ⟨ack, rest, hqueued⟩ := h.first hacked
    refine ⟨h.client, h.gate, fun _ => hdone, h.sound, fun _ => ?_, fun hacked' => ?_⟩
    · exact ⟨ack, rest ++ [.event item.envelope], by rw [hqueued]; rfl⟩
    · cases hacked.symm.trans hacked'
  | sendsNobody version item pc dead => exact hquiet rfl rfl rfl h.gate (fun he => by cases he) rfl
  | signals version pc marked reaches =>
    exact hquiet rfl rfl rfl h.gate (fun _ => hentered _ pc rfl) rfl
  | resumes version pc unmarked => exact hquiet rfl rfl rfl h.gate (fun _ => hentered _ pc rfl) rfl

theorem Greeting.writes (h : s.Greeting queued) (hstep : s.Writes s' events) :
    s'.Greeting (queued ++ queuedOf events) := by
  obtain ⟨hclient, hgate, hforwarder, hsound, hfirst, hsilent⟩ := h
  cases hstep <;> simpa only [queuedOf_nil, queuedOf_written, List.append_nil] using
    ⟨hclient, hgate, hforwarder, hsound, hfirst, hsilent⟩

/-! ## Refusals -/

/-- **A refusal is queued** only when the dispatcher leaves with it. -/
def Unrefused (s : IpcSession) (queued : List ServerMessage) : Prop :=
  s.dispatcher.refused = none → ∀ message ∈ queued, message.isRefusal = false

/-- **A refusal is the last** message queued. -/
def RefusedLast (s : IpcSession) (queued : List ServerMessage) : Prop :=
  ∀ reason, s.dispatcher.refused = some reason →
    ∃ front, queued = front ++ [refusal reason] ∧ ∀ message ∈ front, message.isRefusal = false

theorem refused_of_left {pc : DispatcherPc} (h : pc.left = none) : pc.refused = none := by
  rw [DispatcherPc.refused, h]

/-- What the dispatcher queues besides refusals. -/
theorem isRefusal_of_sound {pc : DispatcherPc} {message : ServerMessage} {afterwards : Afterwards}
    {done : Bool}
    (hpc : pc = .sending message afterwards) (h : pc.Sound done) : message.isRefusal = false := by
  subst hpc
  rcases h with ⟨ack, version, client, rfl, -⟩ | ⟨-, -, response, rfl⟩ <;> rfl

theorem Unrefused.dispatches (h : s.Unrefused queued) (hsound : s.dispatcher.Sound s.helloDone)
    (hstep : s.Dispatches core busFree s' events) : s'.Unrefused (queued ++ queuedOf events) := by
  have hquiet : ∀ pc, s.dispatcher = pc → pc.refused = s'.dispatcher.refused →
    queuedOf events = [] →
      s'.Unrefused (queued ++ queuedOf events) := by
    rintro pc rfl hsame hnone hrefused
    rw [hnone, List.append_nil]
    exact h (hsame.trans hrefused)
  cases hstep with
  | stays => exact hquiet _ rfl rfl rfl
  | subscribes pc free => exact hquiet _ pc rfl rfl
  | reads pc => exact hquiet _ pc rfl rfl
  | polls pc => exact hquiet _ pc rfl rfl
  | ends pc => rcases pc with pc | pc <;> exact hquiet _ pc rfl rfl
  | declines reason pc => rcases pc with pc | pc <;> exact hquiet _ pc rfl rfl
  | refuses reason pc alive => exact fun hrefused => by cases hrefused
  | refusesNobody reason pc dead => exact hquiet _ pc rfl rfl
  | greets version client pc => exact hquiet _ pc rfl rfl
  | stamps version client pc => exact hquiet _ pc rfl rfl
  | accepts id request pc known => exact hquiet _ pc rfl rfl
  | panics id request pc => exact hquiet _ pc rfl rfl
  | answers id request handle asked pc authorized =>
    exact hquiet _ pc rfl (by rcases authorized with rfl | ⟨-, rfl⟩ <;> rfl)
  | reserves message afterwards pc => exact hquiet _ pc rfl rfl
  | sends message afterwards pc alive =>
    intro _ m hm
    rcases List.mem_append.mp hm with hm | hm
    · exact h (by rw [pc]; rfl) m hm
    · obtain rfl : m = message := List.mem_singleton.mp hm
      exact isRefusal_of_sound pc hsound
  | sendsNobody message afterwards pc dead => exact hquiet _ pc rfl rfl
  | opens version client pc => exact hquiet _ pc rfl rfl
  | returns cause pc => exact hquiet _ pc rfl rfl
  | leaves cause pc free => exact hquiet _ pc rfl rfl

theorem Unrefused.forwards (h : s.Unrefused queued) (hstep : s.Forwards s' events) :
    s'.Unrefused (queued ++ queuedOf events) := by
  cases hstep with
  | sends version item pc alive room =>
    intro hrefused m hm
    rcases List.mem_append.mp hm with hm | hm
    · exact h hrefused m hm
    · obtain rfl : m = .event item.envelope := List.mem_singleton.mp hm
      rfl
  | _ =>
    intro hrefused
    simpa [queuedOf] using h hrefused

theorem Unrefused.writes (h : s.Unrefused queued) (hstep : s.Writes s' events) :
    s'.Unrefused (queued ++ queuedOf events) := by
  cases hstep <;> exact fun hrefused => by simpa [queuedOf] using h hrefused

theorem RefusedLast.dispatches (h : s.RefusedLast queued) (hclear : s.Unrefused queued)
    (hstep : s.Dispatches core busFree s' events) : s'.RefusedLast (queued ++ queuedOf events) := by
  have hquiet : ∀ pc, s.dispatcher = pc → pc.refused = s'.dispatcher.refused →
    queuedOf events = [] →
      s'.RefusedLast (queued ++ queuedOf events) := by
    rintro pc rfl hsame hnone reason hrefused
    rw [hnone, List.append_nil]
    exact h reason (hsame.trans hrefused)
  cases hstep with
  | stays => exact hquiet _ rfl rfl rfl
  | subscribes pc free => exact hquiet _ pc rfl rfl
  | reads pc => exact hquiet _ pc rfl rfl
  | polls pc => exact hquiet _ pc rfl rfl
  | ends pc => rcases pc with pc | pc <;> exact hquiet _ pc rfl rfl
  | declines reason pc => rcases pc with pc | pc <;> exact hquiet _ pc rfl rfl
  | refuses reason pc alive =>
    rintro _ ⟨⟩
    exact ⟨queued, rfl, hclear (by rw [pc]; rfl)⟩
  | refusesNobody reason pc dead => exact hquiet _ pc rfl rfl
  | greets version client pc => exact hquiet _ pc rfl rfl
  | stamps version client pc => exact hquiet _ pc rfl rfl
  | accepts id request pc known => exact hquiet _ pc rfl rfl
  | panics id request pc => exact hquiet _ pc rfl rfl
  | answers id request handle asked pc authorized =>
    exact hquiet _ pc rfl (by rcases authorized with rfl | ⟨-, rfl⟩ <;> rfl)
  | reserves message afterwards pc => exact hquiet _ pc rfl rfl
  | sends message afterwards pc alive =>
    intro reason hrefused
    cases afterwards <;> cases hrefused
  | sendsNobody message afterwards pc dead => exact hquiet _ pc rfl rfl
  | opens version client pc => exact hquiet _ pc rfl rfl
  | returns cause pc => exact hquiet _ pc rfl rfl
  | leaves cause pc free => exact hquiet _ pc rfl rfl

/-- The forwarder is about to queue an event, and can. -/
def sendsEvent (s : IpcSession) : Bool :=
  match s.forwarder with
  | .sending _ _ => s.receiverAlive && decide (s.channel.length < sessionQueueLen)
  | _ => false

theorem RefusedLast.forwards (h : s.RefusedLast queued)
    (hquiet : s.dispatcher.refused ≠ none → s.sendsEvent = false) (hstep : s.Forwards s' events) :
    s'.RefusedLast (queued ++ queuedOf events) := by
  cases hstep with
  | sends version item pc alive room =>
    intro reason hrefused
    have hsends := hquiet (by rw [hrefused]; exact Option.some_ne_none reason)
    simp [sendsEvent, pc, alive, room] at hsends
  | _ =>
    intro reason hrefused
    simpa [queuedOf] using h reason hrefused

theorem RefusedLast.writes (h : s.RefusedLast queued) (hstep : s.Writes s' events) :
    s'.RefusedLast (queued ++ queuedOf events) := by
  cases hstep <;> exact fun reason hrefused => by simpa [queuedOf] using h reason hrefused

/-! ## Answers -/

/-- **The answers**: what is queued, and what the dispatcher is about to queue, is what was
answered. -/
structure Answering (s : IpcSession) (queued : List ServerMessage)
    (answers : List (Option Response)) : Prop where
  running : s.dispatcher.left = none → (responsesOf (queued ++ s.dispatcher.pending)).map
    some = answers
  begun : (responsesOf queued).map some <+: answers

variable {answers : List (Option Response)}

theorem Answering.dispatches (h : s.Answering queued answers)
    (hstep : s.Dispatches core busFree s' events) :
    s'.Answering (queued ++ queuedOf events) (answers ++ answersOf events) := by
  -- from place to place, with nothing answered
  have hquiet : ∀ pc, s.dispatcher = pc → pc.left = none →
    responsesOf s'.dispatcher.pending = responsesOf pc.pending →
      queuedOf events = [] → answersOf events = [] →
      s'.Answering (queued ++ queuedOf events) (answers ++ answersOf events) := by
    rintro pc rfl hleft hpending hnone hnone'
    rw [hnone, hnone', List.append_nil, List.append_nil]
    refine ⟨fun _ => ?_, h.begun⟩
    rw [responsesOf_append, hpending, ← responsesOf_append]
    exact h.running hleft
  -- out of the loop
  have hout : ∀ cause, s'.dispatcher.left = some cause → responsesOf (queuedOf events) = [] →
      s'.Answering (queued ++ queuedOf events) (answers ++ answersOf events) := by
    intro cause hleft hnone
    refine ⟨fun hrunning => (by cases hleft.symm.trans hrunning), ?_⟩
    rw [responsesOf_append, hnone, List.append_nil]
    exact h.begun.trans (List.prefix_append _ _)
  cases hstep with
  | stays => simpa [answersOf] using h
  | subscribes pc free => exact hquiet _ pc rfl rfl rfl rfl
  | reads pc => exact hquiet _ pc rfl rfl rfl rfl
  | polls pc => exact hquiet _ pc rfl rfl rfl rfl
  | ends pc => exact hout _ rfl rfl
  | declines reason pc => rcases pc with pc | pc <;> exact hquiet _ pc rfl rfl rfl rfl
  | refuses reason pc alive => exact hout _ rfl rfl
  | refusesNobody reason pc dead => exact hout _ rfl rfl
  | greets version client pc => exact hquiet _ pc rfl rfl rfl rfl
  | stamps version client pc => exact hquiet _ pc rfl rfl rfl rfl
  | accepts id request pc known => exact hquiet _ pc rfl rfl rfl rfl
  | panics id request pc => exact hout _ rfl rfl
  | answers id request handle asked pc authorized =>
    have hrunning := h.running (by rw [pc]; rfl)
    rw [pc] at hrunning
    have hasked : queuedOf asked = [] ∧ answersOf asked = [] := by
      rcases authorized with rfl | ⟨-, rfl⟩ <;> exact ⟨rfl, rfl⟩
    have hall : (responsesOf (queued ++ [])).map some = answers := hrunning
    rw [queuedOf_append, answersOf_append, hasked.1, hasked.2]
    refine ⟨fun _ => ?_, ?_⟩
    · show (responsesOf (queued ++ [] ++
        [.response (Response.of id (dispatch s.peer request handle))])).map some = _
      rw [responsesOf_append, List.map_append, hall]
      rfl
    · show (responsesOf (queued ++ [])).map some <+: _
      rw [hall]
      exact List.prefix_append _ _
  | reserves message afterwards pc => exact hquiet _ pc rfl rfl rfl rfl
  | sends message afterwards pc alive =>
    have hrunning := h.running (by rw [pc]; rfl)
    rw [pc] at hrunning
    have hall : (responsesOf (queued ++ [message])).map some = answers := hrunning
    have hpending : afterwards.pc.pending = [] := by cases afterwards <;> rfl
    rw [show answersOf [.queued message] = [] from rfl, List.append_nil]
    refine ⟨fun _ => ?_, ?_⟩
    · rw [hpending, List.append_nil]
      exact hall
    · show (responsesOf (queued ++ [message])).map some <+: answers
      rw [hall]
  | sendsNobody message afterwards pc dead => exact hout _ rfl rfl
  | opens version client pc => exact hquiet _ pc rfl rfl rfl rfl
  | returns cause pc => exact hout cause rfl rfl
  | leaves cause pc free => exact hout cause rfl rfl

theorem Answering.forwards (h : s.Answering queued answers) (hstep : s.Forwards s' events) :
    s'.Answering (queued ++ queuedOf events) (answers ++ answersOf events) := by
  cases hstep with
  | sends version item pc alive room =>
    rw [show answersOf [.queued (.event item.envelope)] = [] from rfl, List.append_nil]
    have hsame : ∀ rest, responsesOf (queued ++ queuedOf [.queued (.event item.envelope)] ++ rest) =
        responsesOf (queued ++ rest) := by
      intro rest
      rw [responsesOf_append, responsesOf_append, responsesOf_append]
      exact congrArg (· ++ responsesOf rest) (List.append_nil _)
    refine ⟨fun hleft => ?_, ?_⟩
    · rw [hsame]
      exact h.running hleft
    · have hbegun := hsame []
      rw [List.append_nil, List.append_nil] at hbegun
      rw [hbegun]
      exact h.begun
  | _ =>
    obtain ⟨hrunning, hbegun⟩ := h
    simpa [queuedOf, answersOf] using ⟨hrunning, hbegun⟩

theorem Answering.writes (h : s.Answering queued answers) (hstep : s.Writes s' events) :
    s'.Answering (queued ++ queuedOf events) (answers ++ answersOf events) := by
  obtain ⟨hrunning, hbegun⟩ := h
  cases hstep <;> simpa [queuedOf, answersOf] using ⟨hrunning, hbegun⟩

/-! ## Events -/

/-- **The events**: what is queued, what the forwarder has taken and what is left of the queue is
some of what was accepted, in order. -/
def Delivering (s : IpcSession) (queued : List ServerMessage)
    (accepted : List EventEnvelope) : Prop :=
  (eventsOf queued ++ s.forwarder.taken ++ s.queue).Sublist accepted

variable {accepted : List EventEnvelope}

theorem eventsOf_of_sound {pc : DispatcherPc} {message : ServerMessage} {afterwards : Afterwards}
    {done : Bool}
    (hpc : pc = .sending message afterwards) (h : pc.Sound done) : eventsOf [message] = [] := by
  subst hpc
  rcases h with ⟨ack, version, client, rfl, -⟩ | ⟨-, -, response, rfl⟩ <;> rfl

theorem Delivering.dispatches (h : s.Delivering queued accepted)
    (hsound : s.dispatcher.Sound s.helloDone) (hstep : s.Dispatches core busFree s' events) :
    s'.Delivering (queued ++ queuedOf events) (accepted ++ acceptedOf events) := by
  have hquiet : s'.forwarder = s.forwarder → s'.queue = s.queue → eventsOf (queuedOf events) = [] →
      acceptedOf events = [] → s'.Delivering (queued ++ queuedOf events)
        (accepted ++ acceptedOf events) := by
    intro hforwarder hqueue hnone hnone'
    rw [Delivering, eventsOf_append, hnone, hnone', hforwarder, hqueue, List.append_nil,
      List.append_nil]
    exact h
  cases hstep with
  | answers id request handle asked pc authorized =>
    rcases authorized with rfl | ⟨-, rfl⟩ <;> exact hquiet rfl rfl rfl rfl
  | sends message afterwards pc alive => exact hquiet rfl rfl (eventsOf_of_sound pc hsound) rfl
  | _ => exact hquiet rfl rfl rfl rfl

/-- An event that is queued, or the marker in its place, is one of what was taken. -/
theorem eventsOf_sublist (item : Forwarded) :
    (eventsOf [.event item.envelope]).Sublist item.taken := by
  cases item with
  | marker => exact List.Sublist.refl _
  | event envelope =>
    show (eventsOf [.event envelope]).Sublist [envelope]
    by_cases hseq : envelope.seq = eventSeqResyncNow
    · simp [eventsOf, hseq]
    · simp [eventsOf, hseq]

theorem Delivering.forwards (h : s.Delivering queued accepted) (hstep : s.Forwards s' events) :
    s'.Delivering (queued ++ queuedOf events) (accepted ++ acceptedOf events) := by
  rw [Delivering] at h ⊢
  cases hstep with
  | stays => simpa [queuedOf, acceptedOf] using h
  | enters version pc gate => simpa [queuedOf, acceptedOf, pc, ForwarderPc.taken] using h
  | turnsBack pc gate closed =>
    refine List.Sublist.trans ?_ (by simpa [acceptedOf] using h)
    simp [queuedOf, ForwarderPc.taken]
  | receives version envelope rest pc queue reaches =>
    simpa [queuedOf, acceptedOf, pc, queue, ForwarderPc.taken, Forwarded.taken] using h
  | withholds version envelope rest pc queue hidden =>
    rw [queue] at h
    rw [queuedOf_nil, List.append_nil, show acceptedOf [] = [] from rfl, List.append_nil]
    exact ((List.Sublist.refl _).append (List.sublist_cons_self envelope rest)).trans h
  | finishes version pc queue left => simpa [queuedOf, acceptedOf, pc, ForwarderPc.taken] using h
  | reserves version item pc => simpa [queuedOf, acceptedOf, pc, ForwarderPc.taken, reserve] using h
  | sends version item pc alive room =>
    have hnone : (item.pc version).taken = [] := by cases item <;> rfl
    have hitem : s.forwarder.taken = item.taken := by rw [pc]; rfl
    rw [hitem] at h
    rw [show acceptedOf [.queued (.event item.envelope)] = [] from rfl, List.append_nil]
    show (eventsOf (queued ++ [.event item.envelope]) ++ (item.pc version).taken ++
      s.queue).Sublist accepted
    rw [hnone, List.append_nil, eventsOf_append]
    exact (((List.Sublist.refl _).append (eventsOf_sublist item)).append
      (List.Sublist.refl _)).trans h
  | sendsNobody version item pc dead =>
    refine List.Sublist.trans ?_ (by simpa [acceptedOf] using h)
    simp [queuedOf, ForwarderPc.taken]
  | signals version pc marked reaches =>
    simpa [queuedOf, acceptedOf, pc, ForwarderPc.taken, Forwarded.taken] using h
  | resumes version pc unmarked => simpa [queuedOf, acceptedOf, pc, ForwarderPc.taken] using h

theorem Delivering.writes (h : s.Delivering queued accepted) (hstep : s.Writes s' events) :
    s'.Delivering (queued ++ queuedOf events) (accepted ++ acceptedOf events) := by
  rw [Delivering] at h ⊢
  cases hstep <;> simpa [queuedOf, acceptedOf, release] using h

/-! ## The writer's part -/

/-- **The channel is first in, first out**: what is written, what the writer holds and what the
channel holds is what was queued. -/
structure Piping (s : IpcSession) (queued written : List ServerMessage) : Prop where
  begun : written <+: queued
  held : ∀ held, s.writer.held = some held → queued = written ++ held ++ s.channel

variable {written : List ServerMessage}

/-- One more message at the end of the channel. -/
theorem Piping.queues (h : s.Piping queued written) (message : ServerMessage)
    (hwriter : s'.writer = s.writer)
    (hchannel : s'.channel = s.channel ++ [message]) : s'.Piping (queued ++ [message]) written := by
  refine ⟨h.begun.trans (List.prefix_append _ _), fun held hheld => ?_⟩
  rw [hwriter] at hheld
  rw [hchannel, h.held held hheld, List.append_assoc _ s.channel]

theorem Piping.dispatches (h : s.Piping queued written)
    (hstep : s.Dispatches core busFree s' events) :
    s'.Piping (queued ++ queuedOf events) (written ++ writtenOf events) := by
  have hquiet : s'.writer = s.writer → s'.channel = s.channel → queuedOf events = [] →
    writtenOf events = [] →
      s'.Piping (queued ++ queuedOf events) (written ++ writtenOf events) := by
    intro hwriter hchannel hnone hnone'
    rw [hnone, hnone', List.append_nil, List.append_nil]
    refine ⟨h.begun, ?_⟩
    rw [hwriter, hchannel]
    exact h.held
  cases hstep with
  | refuses reason pc alive =>
    rw [show writtenOf [.queued (refusal reason)] = [] from rfl, List.append_nil]
    exact h.queues (refusal reason) rfl rfl
  | sends message afterwards pc alive =>
    rw [show writtenOf [.queued message] = [] from rfl, List.append_nil]
    exact h.queues message rfl rfl
  | answers id request handle asked pc authorized =>
    rcases authorized with rfl | ⟨-, rfl⟩ <;> exact hquiet rfl rfl rfl rfl
  | _ => exact hquiet rfl rfl rfl rfl

theorem Piping.forwards (h : s.Piping queued written) (hstep : s.Forwards s' events) :
    s'.Piping (queued ++ queuedOf events) (written ++ writtenOf events) := by
  obtain ⟨hbegun, hheld⟩ := h
  cases hstep with
  | sends version item pc alive room =>
    rw [show writtenOf [.queued (.event item.envelope)] = [] from rfl, List.append_nil]
    exact Piping.queues ⟨hbegun, hheld⟩ _ rfl rfl
  | _ => simpa [queuedOf, writtenOf] using ⟨hbegun, hheld⟩

theorem Piping.writes (h : s.Piping queued written) (hstep : s.Writes s' events) :
    s'.Piping (queued ++ queuedOf events) (written ++ writtenOf events) := by
  obtain ⟨hbegun, hheld⟩ := h
  have hdone : ∀ s'' : IpcSession, s''.writer.held = none → s''.Piping (queued ++ [])
    (written ++ []) := by
    intro s'' hnone
    rw [List.append_nil, List.append_nil]
    exact ⟨hbegun, fun held hheld' => by cases hnone.symm.trans hheld'⟩
  cases hstep with
  | stays => simpa [queuedOf, writtenOf] using ⟨hbegun, hheld⟩
  | takes message rest pc channel =>
    have hqueued := hheld [] (by rw [pc]; rfl)
    rw [channel] at hqueued
    rw [show writtenOf [] = [] from rfl, queuedOf_nil, List.append_nil, List.append_nil]
    refine ⟨hbegun, ?_⟩
    rintro _ ⟨⟩
    rw [hqueued]
    simp
  | closes pc channel alone => exact hdone _ rfl
  | writes message pc =>
    have hqueued := hheld [message] (by rw [pc]; rfl)
    show Piping _ (queued ++ []) (written ++ [message])
    rw [List.append_nil]
    refine ⟨?_, ?_⟩
    · rw [hqueued]
      exact List.prefix_append _ _
    · rintro _ ⟨⟩
      rw [hqueued, List.append_nil]
  | fails message pc => exact hdone _ rfl
  | releases pc =>
    have hqueued := hheld [] (by rw [pc]; rfl)
    rw [show writtenOf [] = [] from rfl, queuedOf_nil, List.append_nil, List.append_nil]
    exact ⟨hbegun, by rintro _ ⟨⟩; exact hqueued⟩
  | drops pc => exact hdone _ rfl
  | notes pc => exact hdone _ rfl

end IpcSession

end ProtonWire
