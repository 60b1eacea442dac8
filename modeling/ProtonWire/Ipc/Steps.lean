import ProtonWire.Ipc.Session

/-!
# What a step of a session does

One inversion lemma for each thread of a session, and for the core: everything a step can do, with
what it finds before.

* `send_cases`: a send into the writer channel;
* `Dispatches`, `advance_dispatches`, `onIncident_dispatches`, `onMessage_dispatches`,
  `onHandled_dispatches`: the dispatcher;
* `Forwards`, `forward_forwards`: the forwarder;
* `Writes`, `write_writes`: the writer;
* `Publishes`, `publish_publishes`: the core and the bus;
* `Steps`, `step_steps`: any of them.
-/

namespace ProtonWire

namespace IpcSession

variable (s : IpcSession)

theorem send_cases (message : ServerMessage) (sent failed : IpcSession → IpcSession) :
    s.send message sent failed = (s, []) ∨
      s.receiverAlive = true ∧ s.channel.length < sessionQueueLen ∧
        s.send message sent failed = (sent { s with channel := s.channel ++ [message] },
          [.queued message]) ∨
      s.receiverAlive = false ∧ s.send message sent failed = (failed s, []) := by
  rw [send]
  by_cases halive : s.receiverAlive = true
  · by_cases hroom : s.channel.length < sessionQueueLen
    · exact .inr (.inl ⟨halive, hroom, by rw [if_pos halive, if_pos hroom]⟩)
    · exact .inl (by rw [if_pos halive, if_neg hroom])
  · exact .inr (.inr ⟨by simpa using halive, if_neg halive⟩)

/-! ## The dispatcher -/

/-- A step of the dispatcher, with what it reads of the core and of the bus. -/
inductive Dispatches (core : DaemonCore) (busFree : Bool) :
    IpcSession → List SessionEvent → Prop where
  | stays : Dispatches core busFree s []
  | subscribes (pc : s.dispatcher = .subscribing) (free : busFree = true) :
    Dispatches core busFree { s with subscribed := true, dispatcher := .top } []
  | reads (pc : s.dispatcher = .top) (credit : s.helloDone = true → s.isExhausted = false) :
    Dispatches core busFree { s with dispatcher := .reading } []
  | polls (pc : s.dispatcher = .reading) : Dispatches core busFree { s with dispatcher := .top } []
  | ends (pc : s.dispatcher = .top ∨ s.dispatcher = .reading) :
    Dispatches core busFree { s with dispatcher := .returned .ended } []
  | declines (reason : String) (pc : s.dispatcher = .top ∨ s.dispatcher = .reading) :
    Dispatches core busFree { s with dispatcher := .refusing reason } []
  | refuses (reason : String) (pc : s.dispatcher = .refusing reason)
    (alive : s.receiverAlive = true)
      (room : s.channel.length < sessionQueueLen) :
    Dispatches core busFree
      { s with channel := s.channel ++ [refusal reason], dispatcher := .returned (.refused reason) }
      [.queued (refusal reason)]
  | refusesNobody (reason : String) (pc : s.dispatcher = .refusing reason)
    (dead : s.receiverAlive = false) :
    Dispatches core busFree { s with dispatcher := .returned .ended } []
  | greets (version : ℕ) (client : ClientInfo) (pc : s.dispatcher = .reading) :
    Dispatches core busFree { s with dispatcher := .stamping version client } []
  | stamps (version : ℕ) (client : ClientInfo) (pc : s.dispatcher = .stamping version client) :
    Dispatches core busFree
      { s with
        dispatcher :=
          .reserving (.helloAck ⟨version, core.version, core.latestEventSeq⟩)
          (.openGate version client) } []
  | accepts (id : ℕ) (request : Request) (pc : s.dispatcher = .reading)
    (known : s.clientInfo.isSome = true) :
    Dispatches core busFree { s with dispatcher := .dispatching id request } []
  | panics (id : ℕ) (request : Request) (pc : s.dispatcher = .dispatching id request) :
    Dispatches core busFree { s with dispatcher := .returned .ended } [.dispatched id request none]
  | answers (id : ℕ) (request : Request) (handle : Except RpcError RequestResult)
    (asked : List SessionEvent)
      (pc : s.dispatcher = .dispatching id request)
      (authorized : asked = [] ∨ authorize (requiredRole request) s.peer = .ok () ∧
       asked = [.handled request]) :
    Dispatches core busFree
      { s with
        dispatcher := .reserving (.response (Response.of id (dispatch s.peer request handle))) .loop }
      (asked ++ [.dispatched id request (some (Response.of id (dispatch s.peer request handle)))])
  | reserves (message : ServerMessage) (afterwards : Afterwards)
    (pc : s.dispatcher = .reserving message afterwards) :
    Dispatches core busFree { s.reserve with dispatcher := .sending message afterwards }
      [.reserved message]
  | sends (message : ServerMessage) (afterwards : Afterwards)
    (pc : s.dispatcher = .sending message afterwards)
      (alive : s.receiverAlive = true) (room : s.channel.length < sessionQueueLen) :
    Dispatches core busFree
      { s with channel := s.channel ++ [message], dispatcher := afterwards.pc } [.queued message]
  | sendsNobody (message : ServerMessage) (afterwards : Afterwards)
    (pc : s.dispatcher = .sending message afterwards)
      (dead : s.receiverAlive = false) :
    Dispatches core busFree { s with dispatcher := .returned .ended } []
  | opens (version : ℕ) (client : ClientInfo) (pc : s.dispatcher = .opening version client) :
    Dispatches core busFree
      { s with
        gate := some version, clientInfo := some client, helloDone := true, dispatcher := .top } []
  | returns (cause : Cause) (pc : s.dispatcher = .returned cause) :
    Dispatches core busFree { s with gateAlive := false, dispatcher := .leaving cause } []
  | leaves (cause : Cause) (pc : s.dispatcher = .leaving cause) (free : busFree = true) :
    Dispatches core busFree { s with subscribed := false, dispatcher := .over cause } []

theorem onTop_dispatches (core : DaemonCore) (busFree : Bool) (pc : s.dispatcher = .top) :
    s.Dispatches core busFree s.onTop [] := by
  rw [onTop]
  split
  · split
    · exact .ends (.inl pc)
    · exact .stays
  · rename_i hcredit
    exact .reads pc fun hdone => by simpa [hdone] using hcredit

theorem advance_dispatches (core : DaemonCore) (busFree : Bool) :
    s.Dispatches core busFree (s.advance core busFree).1 (s.advance core busFree).2 := by
  rw [advance]
  cases pc : s.dispatcher with
  | subscribing => cases busFree with
    | true => exact .subscribes pc rfl
    | false => exact .stays
  | top => exact s.onTop_dispatches core busFree pc
  | refusing reason =>
    rcases s.send_cases (refusal reason)
      (fun s => { s with dispatcher := .returned (.refused reason) })
      (fun s => { s with dispatcher := .returned .ended }) with hsend | ⟨halive, hroom,
       hsend⟩ | ⟨hdead, hsend⟩
    · simp only [hsend]
      exact .stays
    · simp only [hsend]
      exact .refuses reason pc halive hroom
    · simp only [hsend]
      exact .refusesNobody reason pc hdead
  | stamping version client => exact .stamps version client pc
  | reserving message afterwards => exact .reserves message afterwards pc
  | sending message afterwards =>
    rcases s.send_cases message (fun s => { s with dispatcher := afterwards.pc })
      (fun s => { s with dispatcher := .returned .ended }) with hsend | ⟨halive, hroom,
       hsend⟩ | ⟨hdead, hsend⟩
    · simp only [hsend]
      exact .stays
    · simp only [hsend]
      exact .sends message afterwards pc halive hroom
    · simp only [hsend]
      exact .sendsNobody message afterwards pc hdead
  | opening version client => exact .opens version client pc
  | returned cause => exact .returns cause pc
  | leaving cause => cases busFree with
    | true => exact .leaves cause pc rfl
    | false => exact .stays
  | _ => exact .stays

theorem onIncident_dispatches (core : DaemonCore) (busFree : Bool) (incident : Incident) :
    s.Dispatches core busFree (s.onIncident incident).1 (s.onIncident incident).2 := by
  unfold onIncident
  split
  · rename_i pc
    exact .ends (.inl pc)
  · rename_i pc
    split
    · exact .stays
    · exact .declines _ (.inl pc)
  · rename_i pc
    split
    · exact .ends (.inl pc)
    · exact .stays
  · rename_i pc
    exact .polls pc
  · rename_i pc
    exact .ends (.inr pc)
  · rename_i id request pc
    exact .panics id request pc
  · exact .stays

theorem onMessage_dispatches (core : DaemonCore) (busFree : Bool) (pc : s.dispatcher = .reading)
    (message : ClientMessage) :
    s.Dispatches core busFree (s.onMessage message) [] := by
  unfold onMessage
  split
  · split
    · exact .declines _ (.inr pc)
    · split
      · exact .declines _ (.inr pc)
      · exact .greets _ _ pc
  · rename_i id request
    split
    · exact .declines _ (.inr pc)
    · rename_i client hclient
      exact .accepts id request pc (Option.isSome_iff_exists.mpr ⟨client, hclient⟩)

theorem onHandled_dispatches (core : DaemonCore) (busFree : Bool)
    (handle : Except RpcError RequestResult) :
    s.Dispatches core busFree (s.onHandled handle).1 (s.onHandled handle).2 := by
  unfold onHandled
  split
  · rename_i id request pc
    cases hauthorize : authorize (requiredRole request) s.peer with
    | ok granted => exact .answers id request handle _ pc (.inr ⟨hauthorize, rfl⟩)
    | error failure => exact .answers id request handle _ pc (.inl rfl)
  · exact .stays

theorem Dispatches.peer {s s' : IpcSession} {core : DaemonCore} {busFree : Bool}
    {events : List SessionEvent} (h : s.Dispatches core busFree s' events) : s'.peer = s.peer := by
  cases h <;> rfl

/-! ## The forwarder -/

/-- A step of the forwarder. -/
inductive Forwards : IpcSession → List SessionEvent → Prop where
  | stays : Forwards s []
  | enters (version : ℕ) (pc : s.forwarder = .gate) (gate : s.gate = some version) :
    Forwards { s with gate := none, forwarder := .receiving version } []
  | turnsBack (pc : s.forwarder = .gate) (gate : s.gate = none) (closed : s.gateAlive = false) :
    Forwards { s with forwarder := .done, queue := [] } []
  | receives (version : ℕ) (envelope : EventEnvelope) (rest : List EventEnvelope)
      (pc : s.forwarder = .receiving version) (queue : s.queue = envelope :: rest)
      (reaches : eventReaches version envelope.event = true) :
    Forwards { s with queue := rest, forwarder := .reserving version (.event envelope) } []
  | withholds (version : ℕ) (envelope : EventEnvelope) (rest : List EventEnvelope)
      (pc : s.forwarder = .receiving version) (queue : s.queue = envelope :: rest)
      (hidden : eventReaches version envelope.event = false) :
    Forwards { s with queue := rest } []
  | finishes (version : ℕ) (pc : s.forwarder = .receiving version) (queue : s.queue = [])
      (left : s.subscribed = false) : Forwards { s with forwarder := .done } []
  | reserves (version : ℕ) (item : Forwarded) (pc : s.forwarder = .reserving version item) :
    Forwards { s.reserve with forwarder := .sending version item }
      [.reserved (.event item.envelope)]
  | sends (version : ℕ) (item : Forwarded) (pc : s.forwarder = .sending version item)
      (alive : s.receiverAlive = true) (room : s.channel.length < sessionQueueLen) :
    Forwards { s with channel := s.channel ++ [.event item.envelope], forwarder := item.pc version }
      [.queued (.event item.envelope)]
  | sendsNobody (version : ℕ) (item : Forwarded) (pc : s.forwarder = .sending version item)
      (dead : s.receiverAlive = false) :
    Forwards { s with forwarder := .done, queue := [] } []
  | signals (version : ℕ) (pc : s.forwarder = .checking version) (marked : s.overflowed = true)
      (reaches : resyncMarkerReaches version = true) :
    Forwards { s with overflowed := false, forwarder := .reserving version .marker } []
  | resumes (version : ℕ) (pc : s.forwarder = .checking version)
      (unmarked : (s.overflowed && resyncMarkerReaches version) = false) :
    Forwards { s with overflowed := false, forwarder := .receiving version } []

theorem forward_forwards : s.Forwards s.forward.1 s.forward.2 := by
  unfold forward
  split
  · rename_i pc
    split
    · rename_i version gate
      exact .enters version pc gate
    · rename_i gate
      split
      · exact .stays
      · rename_i closed
        exact .turnsBack pc gate (by simpa using closed)
  · rename_i version pc
    split
    · rename_i envelope rest queue
      split
      · rename_i reaches
        exact .receives version envelope rest pc queue reaches
      · rename_i hidden
        exact .withholds version envelope rest pc queue (by simpa using hidden)
    · rename_i queue
      split
      · exact .stays
      · rename_i left
        exact .finishes version pc queue (by simpa using left)
  · rename_i version item pc
    exact .reserves version item pc
  · rename_i version item pc
    rcases s.send_cases (.event item.envelope) (fun s => { s with forwarder := item.pc version })
      (fun s => { s with forwarder := .done, queue := [] }) with hsend | ⟨halive, hroom,
       hsend⟩ | ⟨hdead, hsend⟩
    · rw [hsend]
      exact .stays
    · rw [hsend]
      exact .sends version item pc halive hroom
    · rw [hsend]
      exact .sendsNobody version item pc hdead
  · rename_i version pc
    dsimp only
    split
    · rename_i marked
      rw [Bool.and_eq_true] at marked
      exact .signals version pc marked.1 marked.2
    · rename_i unmarked
      exact .resumes version pc (by simpa using unmarked)
  · exact .stays

theorem Forwards.peer {s s' : IpcSession} {events : List SessionEvent} (h : s.Forwards s' events) :
    s'.peer = s.peer := by
  cases h <;> rfl

/-! ## The writer -/

/-- A step of the writer. -/
inductive Writes : IpcSession → List SessionEvent → Prop where
  | stays : Writes s []
  | takes (message : ServerMessage) (rest : List ServerMessage) (pc : s.writer = .receiving)
      (channel : s.channel = message :: rest) :
      Writes { s with channel := rest, writer := .writing message } []
  | closes (pc : s.writer = .receiving) (channel : s.channel = []) (alone : s.senderAlive = false) :
    Writes { s with writer := .dropping } []
  | writes (message : ServerMessage) (pc : s.writer = .writing message) :
    Writes { s with writer := .releasing } [.written message]
  | fails (message : ServerMessage) (pc : s.writer = .writing message) :
    Writes { s with writer := .dropping } []
  | releases (pc : s.writer = .releasing) : Writes { s.release with writer := .receiving } []
  | drops (pc : s.writer = .dropping) : Writes
    { s with receiverAlive := false, channel := [], writer := .noting } []
  | notes (pc : s.writer = .noting) : Writes { s with writerGone := true, writer := .gone } []

theorem write_writes (ok : Bool) : s.Writes (s.write ok).1 (s.write ok).2 := by
  unfold write
  split
  · rename_i pc
    split
    · rename_i message rest channel
      exact .takes message rest pc channel
    · rename_i channel
      split
      · exact .stays
      · rename_i alone
        exact .closes pc channel (by simpa using alone)
  · rename_i message pc
    split
    · exact .writes message pc
    · exact .fails message pc
  · rename_i pc
    exact .releases pc
  · rename_i pc
    exact .drops pc
  · rename_i pc
    exact .notes pc
  · exact .stays

theorem Writes.peer {s s' : IpcSession} {events : List SessionEvent} (h : s.Writes s' events) :
    s'.peer = s.peer := by
  cases h <;> rfl

/-- What no publication changes. -/
structure Alike (s s' : IpcSession) : Prop where
  peer : s'.peer = s.peer
  clientInfo : s'.clientInfo = s.clientInfo
  gate : s'.gate = s.gate
  helloDone : s'.helloDone = s.helloDone
  channel : s'.channel = s.channel
  receiverAlive : s'.receiverAlive = s.receiverAlive
  unwritten : s'.unwritten = s.unwritten
  dispatcher : s'.dispatcher = s.dispatcher
  forwarder : s'.forwarder = s.forwarder
  writer : s'.writer = s.writer

theorem Alike.refl (s : IpcSession) :
    Alike s s := ⟨rfl, rfl, rfl, rfl, rfl, rfl, rfl, rfl, rfl, rfl⟩

end IpcSession

/-! ## The core -/

namespace IpcServer

variable (d : IpcServer)

/-- A step of a thread that emits. -/
inductive Publishes : IpcServer → List SessionEvent → Prop where
  | stays : Publishes d []
  | emits (core : DaemonCore) (envelope : EventEnvelope) (free : d.core.emitter = .free)
      (emitter : core.emitter = .publishing envelope) (seq : core.seq = d.core.seq + 1)
      (stamped : envelope.seq = core.seq) : Publishes { d with core := core } []
  | accepts (envelope : EventEnvelope) (emitter : d.core.emitter = .publishing envelope)
      (subscribed : d.session.subscribed = true) (alive : d.session.forwarder ≠ .done)
      (room : d.session.queue.length < sessionQueueLen) :
    Publishes
      { core := { d.core with emitter := .free }
        session := { d.session with queue := d.session.queue ++ [envelope] } } [.accepted envelope]
  | drops (envelope : EventEnvelope) (emitter : d.core.emitter = .publishing envelope)
      (subscribed : d.session.subscribed = true) (alive : d.session.forwarder ≠ .done)
      (full : sessionQueueLen ≤ d.session.queue.length) :
    Publishes { d with core := { d.core with emitter := .marking } } [.dropped envelope]
  | forgets (envelope : EventEnvelope) (emitter : d.core.emitter = .publishing envelope)
      (subscribed : d.session.subscribed = true) (gone : d.session.forwarder = .done) :
    Publishes
      { core := { d.core with emitter := .free }, session := { d.session with subscribed := false } } []
  | misses (envelope : EventEnvelope) (emitter : d.core.emitter = .publishing envelope)
      (unsubscribed : d.session.subscribed = false) :
    Publishes { d with core := { d.core with emitter := .free } } []
  | marks (emitter : d.core.emitter = .marking) :
    Publishes
      { core := { d.core with emitter := .free }, session := { d.session with overflowed := true } } []

theorem Publishes.alike {d d' : IpcServer} {events : List SessionEvent}
    (h : d.Publishes d' events) :
    IpcSession.Alike d.session d'.session := by
  cases h <;> exact ⟨rfl, rfl, rfl, rfl, rfl, rfl, rfl, rfl, rfl, rfl⟩

theorem setVpnState_publishes (to_ : VpnState) :
    d.Publishes (d.emit fun core => core.setVpnState to_) [] := by
  unfold emit
  split
  · rename_i free
    show d.Publishes { d with core := d.core.setVpnState to_ } []
    rw [DaemonCore.setVpnState]
    split
    · exact .stays
    · exact .emits _ _ free rfl rfl rfl
  · exact .stays

theorem notice_publishes (level : NoticeLevel) (message : String) :
    d.Publishes (d.emit fun core => core.notice level message) [] := by
  unfold emit
  split
  · rename_i free
    exact .emits _ _ free rfl rfl rfl
  · exact .stays

theorem publish_publishes : d.Publishes d.publish.1 d.publish.2 := by
  unfold publish
  split
  · rename_i envelope emitter
    split
    · rename_i subscribed
      split
      · rename_i gone
        exact .forgets envelope emitter subscribed gone
      · rename_i alive
        split
        · rename_i room
          exact .accepts envelope emitter subscribed alive room
        · rename_i full
          exact .drops envelope emitter subscribed alive (Nat.le_of_not_lt full)
    · rename_i unsubscribed
      exact .misses envelope emitter (by simpa using unsubscribed)
  · exact .stays

theorem mark_publishes : d.Publishes d.mark [] := by
  unfold mark
  split
  · rename_i emitter
    exact .marks emitter
  · exact .stays

/-! ## All of them -/

/-- A step of one thread. -/
inductive Steps : IpcServer → List SessionEvent → Prop where
  | publishes {d' : IpcServer} {events : List SessionEvent} (step : d.Publishes d' events) :
    Steps d' events
  | dispatches {s : IpcSession} {events : List SessionEvent}
      (step : d.session.Dispatches d.core d.busFree s events) :
    Steps { d with session := s } events
  | forwards {s : IpcSession} {events : List SessionEvent} (step : d.session.Forwards s events) :
    Steps { d with session := s } events
  | writes {s : IpcSession} {events : List SessionEvent} (step : d.session.Writes s events) :
    Steps { d with session := s } events

theorem step_steps (a : Action) : d.Steps (d.step a).1 (d.step a).2 := by
  cases a with
  | setVpnState to_ => exact .publishes (d.setVpnState_publishes to_)
  | notice level message => exact .publishes (d.notice_publishes level message)
  | publish => exact .publishes d.publish_publishes
  | mark => exact .publishes d.mark_publishes
  | advance => exact .dispatches (d.session.advance_dispatches d.core d.busFree)
  | incident incident =>
    exact .dispatches (d.session.onIncident_dispatches d.core d.busFree incident)
  | read message =>
    unfold step
    dsimp only
    split
    · rename_i pc
      exact .dispatches (d.session.onMessage_dispatches d.core d.busFree pc message)
    · exact .publishes .stays
  | handled handle => exact .dispatches (d.session.onHandled_dispatches d.core d.busFree handle)
  | forward => exact .forwards d.session.forward_forwards
  | write ok => exact .writes (d.session.write_writes ok)

end IpcServer

end ProtonWire
