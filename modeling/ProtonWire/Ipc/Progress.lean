import ProtonWire.Ipc.Window
import ProtonWire.Lib.Descent

/-!
# A session never wedges

`crates/ipc/src/server/session.rs`, `handle_session`: the threads wait for each other, the forwarder
and the dispatcher for room in the writer channel, the dispatcher for the window, and the end of the
session for both of the others.

* `Plumbed`, `step_plumbed`: what the ends of the channels say of the threads;
* `weight`: what is left to do when the dispatcher has gone;
* `Stuck`: no thread of the session can take a step;
* **`never_wedges`**: a session that is stuck waits for its peer or for the handler, or all its
  threads have ended;
* **`session_tears_down`**: a session whose dispatcher has gone ends, within a bound.
-/

namespace ProtonWire

namespace IpcSession

/-- The gate's sender has been dropped. -/
def gateClosed : DispatcherPc → Bool
  | .leaving _ | .over _ => true
  | _ => false

/-- The channel's receiver has been dropped. -/
def receiverDropped : WriterPc → Bool
  | .noting | .gone => true
  | _ => false

/-- **The ends of the channels**, and the threads that hold them. -/
structure Plumbed (s : IpcSession) : Prop where
  gate : s.gateAlive = !gateClosed s.dispatcher
  receiver : s.receiverAlive = !receiverDropped s.writer
  noted : s.writer = .gone → s.writerGone = true
  dropped : s.receiverAlive = false → s.channel = []
  unsubscribed : ∀ cause, s.dispatcher = .over cause → s.subscribed = false
  queue : s.queue.length ≤ sessionQueueLen

variable {s s' : IpcSession} {core : DaemonCore} {busFree : Bool} {events : List SessionEvent}

theorem Plumbed.goto (h : s.Plumbed) {pc : DispatcherPc} (hpc : s.dispatcher = pc)
    (hopen : gateClosed pc = false)
    (hgate : s'.gateAlive = s.gateAlive) (hreceiver : s'.receiverAlive = s.receiverAlive)
    (hwriter : s'.writer = s.writer) (hgone : s'.writerGone = s.writerGone)
    (hchannel : s'.channel = s.channel)
    (hqueue : s'.queue = s.queue) (hpc' : gateClosed s'.dispatcher = false) : s'.Plumbed where
  gate := by rw [hgate, h.gate, hpc, hopen, hpc']
  receiver := by rw [hreceiver, hwriter, h.receiver]
  noted := by rw [hwriter, hgone]; exact h.noted
  dropped := by rw [hreceiver, hchannel]; exact h.dropped
  unsubscribed cause hover := by simp [hover, gateClosed] at hpc'
  queue := by rw [hqueue]; exact h.queue

theorem Plumbed.dispatches (h : s.Plumbed) (hstep : s.Dispatches core busFree s' events) :
    s'.Plumbed := by
  cases hstep with
  | stays => exact h
  | refuses reason pc alive room =>
    refine ⟨by rw [h.gate, pc]; rfl, h.receiver, h.noted, fun hdead => ?_, by simp, h.queue⟩
    exact absurd alive (by simp [show s.receiverAlive = false from hdead])
  | sends message afterwards pc alive room =>
    refine ⟨by
      rw [h.gate, pc]; cases afterwards <;> rfl, h.receiver, h.noted, fun hdead => ?_, ?_, h.queue⟩
    · exact absurd alive (by simp [show s.receiverAlive = false from hdead])
    · cases afterwards <;> simp [Afterwards.pc]
  | returns cause pc => exact ⟨rfl, h.receiver, h.noted, h.dropped, by simp, h.queue⟩
  | leaves cause pc free =>
    exact ⟨by rw [h.gate, pc]; rfl, h.receiver, h.noted, h.dropped, fun _ _ => rfl, h.queue⟩
  | ends pc => obtain pc | pc := pc <;> exact h.goto pc rfl rfl rfl rfl rfl rfl rfl rfl
  | declines reason pc => obtain pc | pc := pc <;> exact h.goto pc rfl rfl rfl rfl rfl rfl rfl rfl
  | subscribes pc free => exact h.goto pc rfl rfl rfl rfl rfl rfl rfl rfl
  | reads pc credit => exact h.goto pc rfl rfl rfl rfl rfl rfl rfl rfl
  | polls pc => exact h.goto pc rfl rfl rfl rfl rfl rfl rfl rfl
  | refusesNobody reason pc dead => exact h.goto pc rfl rfl rfl rfl rfl rfl rfl rfl
  | greets version client pc => exact h.goto pc rfl rfl rfl rfl rfl rfl rfl rfl
  | stamps version client pc => exact h.goto pc rfl rfl rfl rfl rfl rfl rfl rfl
  | accepts id request pc known => exact h.goto pc rfl rfl rfl rfl rfl rfl rfl rfl
  | panics id request pc => exact h.goto pc rfl rfl rfl rfl rfl rfl rfl rfl
  | answers id request handle asked pc authorized => exact h.goto pc rfl rfl rfl rfl rfl rfl rfl rfl
  | reserves message afterwards pc => exact h.goto pc rfl rfl rfl rfl rfl rfl rfl rfl
  | sendsNobody message afterwards pc dead => exact h.goto pc rfl rfl rfl rfl rfl rfl rfl rfl
  | opens version client pc => exact h.goto pc rfl rfl rfl rfl rfl rfl rfl rfl

theorem Plumbed.forwards (h : s.Plumbed) (hstep : s.Forwards s' events) : s'.Plumbed := by
  obtain ⟨hgate, hreceiver, hnoted, hdropped, hunsubscribed, hroom⟩ := h
  have htail : ∀ envelope rest, s.queue = envelope :: rest → rest.length ≤ sessionQueueLen := by
    intro envelope rest hqueue
    rw [hqueue] at hroom
    exact Nat.le_of_succ_le hroom
  cases hstep with
  | sends version item pc alive room =>
    refine ⟨hgate, hreceiver, hnoted, fun hdead => ?_, hunsubscribed, hroom⟩
    exact absurd alive (by simp [show s.receiverAlive = false from hdead])
  | receives version envelope rest pc queue reaches =>
    exact ⟨hgate, hreceiver, hnoted, hdropped, hunsubscribed, htail envelope rest queue⟩
  | withholds version envelope rest pc queue hidden =>
    exact ⟨hgate, hreceiver, hnoted, hdropped, hunsubscribed, htail envelope rest queue⟩
  | turnsBack pc gate closed =>
    exact ⟨hgate, hreceiver, hnoted, hdropped, hunsubscribed, Nat.zero_le _⟩
  | sendsNobody version item pc dead =>
    exact ⟨hgate, hreceiver, hnoted, hdropped, hunsubscribed, Nat.zero_le _⟩
  | _ => exact ⟨hgate, hreceiver, hnoted, hdropped, hunsubscribed, hroom⟩

theorem Plumbed.writes (h : s.Plumbed) (hstep : s.Writes s' events) : s'.Plumbed := by
  obtain ⟨hgate, hreceiver, hnoted, hdropped, hunsubscribed, hroom⟩ := h
  cases hstep with
  | stays => exact ⟨hgate, hreceiver, hnoted, hdropped, hunsubscribed, hroom⟩
  | takes message rest pc channel =>
    refine ⟨hgate, by rw [hreceiver, pc]; rfl, by simp, fun hdead => ?_, hunsubscribed, hroom⟩
    simp [hdropped hdead] at channel
  | closes pc channel alone =>
    exact ⟨hgate, by rw [hreceiver, pc]; rfl, by simp, hdropped, hunsubscribed, hroom⟩
  | writes message pc =>
    exact ⟨hgate, by rw [hreceiver, pc]; rfl, by simp, hdropped, hunsubscribed, hroom⟩
  | fails message pc =>
    exact ⟨hgate, by rw [hreceiver, pc]; rfl, by simp, hdropped, hunsubscribed, hroom⟩
  | releases pc =>
    exact ⟨hgate, by
      rw [IpcSession.release, hreceiver, pc]; rfl, by simp, hdropped, hunsubscribed, hroom⟩
  | drops pc => exact ⟨hgate, rfl, by simp, fun _ => rfl, hunsubscribed, hroom⟩
  | notes pc =>
    exact ⟨hgate, by rw [hreceiver, pc]; rfl, fun _ => rfl, hdropped, hunsubscribed, hroom⟩

/-! ## What is left to do -/

/-- The steps the forwarder has before it, with what it queues for the writer. -/
def forwarderWeight : ForwarderPc → ℕ
  | .gate => 2
  | .receiving _ => 1
  | .reserving _ (.event _) => 12
  | .sending _ (.event _) => 11
  | .checking _ => 7
  | .reserving _ .marker => 6
  | .sending _ .marker => 5
  | .done => 0

/-- The steps the writer has before it. -/
def writerWeight : WriterPc → ℕ
  | .receiving => 3
  | .writing _ => 5
  | .releasing => 4
  | .dropping => 2
  | .noting => 1
  | .gone => 0

/-- **What is left to do** when the dispatcher has gone. -/
def weight (s : IpcSession) : ℕ :=
  12 * s.queue.length + forwarderWeight s.forwarder + 3 * s.channel.length + writerWeight s.writer

theorem weight_forward (s : IpcSession) : s.forward.1 = s ∨ weight s.forward.1 < weight s := by
  have hstep := s.forward_forwards
  generalize s.forward.2 = emitted at hstep
  generalize s.forward.1 = s' at hstep ⊢
  cases hstep with
  | stays => exact .inl rfl
  | receives version envelope rest pc queue reaches =>
    refine .inr ?_
    simp only [weight, pc, queue, forwarderWeight, List.length_cons]
    omega
  | withholds version envelope rest pc queue hidden =>
    refine .inr ?_
    simp only [weight, pc, queue, forwarderWeight, List.length_cons]
    omega
  | reserves version item pc =>
    refine .inr ?_
    cases item <;> simp only [weight, pc, forwarderWeight, reserve] <;> omega
  | sends version item pc alive room =>
    refine .inr ?_
    cases item <;>
      simp only [weight, pc, forwarderWeight, Forwarded.pc, List.length_append,
        List.length_singleton] <;> omega
  | sendsNobody version item pc dead =>
    refine .inr ?_
    cases item <;> simp only [weight, pc, forwarderWeight, List.length_nil] <;> omega
  | turnsBack pc gate closed =>
    refine .inr ?_
    simp only [weight, pc, forwarderWeight, List.length_nil]
    omega
  | enters version pc gate => exact .inr (by simp only [weight, pc, forwarderWeight]; omega)
  | finishes version pc queue left => exact .inr (by simp only [weight, pc, forwarderWeight]; omega)
  | signals version pc marked reaches =>
    exact .inr (by simp only [weight, pc, forwarderWeight]; omega)
  | resumes version pc unmarked => exact .inr (by simp only [weight, pc, forwarderWeight]; omega)

theorem weight_write (s : IpcSession) (ok : Bool) :
    (s.write ok).1 = s ∨ weight (s.write ok).1 < weight s := by
  have hstep := s.write_writes ok
  generalize (s.write ok).2 = emitted at hstep
  generalize (s.write ok).1 = s' at hstep ⊢
  cases hstep with
  | stays => exact .inl rfl
  | takes message rest pc channel =>
    refine .inr ?_
    simp only [weight, pc, channel, writerWeight, List.length_cons]
    omega
  | drops pc =>
    refine .inr ?_
    simp only [weight, pc, writerWeight, List.length_nil]
    omega
  | closes pc channel alone => exact .inr (by simp only [weight, pc, writerWeight]; omega)
  | writes message pc => exact .inr (by simp only [weight, pc, writerWeight]; omega)
  | fails message pc => exact .inr (by simp only [weight, pc, writerWeight]; omega)
  | releases pc => exact .inr (by simp only [weight, pc, writerWeight, release]; omega)
  | notes pc => exact .inr (by simp only [weight, pc, writerWeight]; omega)

end IpcSession

namespace IpcServer

variable {peer : PeerCredentials} {d d' : IpcServer} {events emitted : List SessionEvent}

theorem step_plumbed (h : d.session.Plumbed) (hstep : d.Steps d' emitted) : d'.session.Plumbed := by
  cases hstep with
  | publishes hstep =>
    have halike := hstep.alike
    refine ⟨?_, ?_, ?_, ?_, fun cause hover => ?_, ?_⟩
    · rw [halike.dispatcher, ← h.gate]
      cases hstep <;> rfl
    · rw [halike.receiverAlive, halike.writer, h.receiver]
    · rw [halike.writer]
      cases hstep <;> exact h.noted
    · rw [halike.receiverAlive, halike.channel]
      exact h.dropped
    · have := h.unsubscribed cause (halike.dispatcher ▸ hover)
      cases hstep <;> first | exact this | rfl
    · have := h.queue
      cases hstep with
      | accepts envelope emitter subscribed alive room =>
        rw [List.length_append]
        exact room
      | _ => exact this
  | dispatches hstep => exact h.dispatches hstep
  | forwards hstep => exact h.forwards hstep
  | writes hstep => exact h.writes hstep

theorem run_plumbed (version : String) (networkIntegration : NetworkIntegration)
    (peer : PeerCredentials) (as : List Action) :
    (Machine.run step (start version networkIntegration peer) as).1.session.Plumbed :=
  Machine.run_state_inv (fun d : IpcServer => d.session.Plumbed)
  (fun d a h => step_plumbed h (d.step_steps a)) _
    ⟨rfl, rfl, by
    rintro ⟨⟩, fun h => absurd (show true = false from h) (by decide), by
      rintro _ ⟨⟩, Nat.zero_le _⟩ as

/-! ## A stuck session -/

/-- The steps that the threads of a session take by themselves. -/
def ownSteps : List Action := [.advance, .forward, .write true]

/-- No thread of the session can take a step. -/
def Stuck (d : IpcServer) : Prop := ∀ a ∈ ownSteps, (d.step a).1.session = d.session

/-- What a stuck session waits for: its peer, or the handler; all that was queued for the peer is
written or lost. -/
structure Waiting (s : IpcSession) : Prop where
  dispatcher : s.dispatcher = .reading ∨ ∃ id request, s.dispatcher = .dispatching id request
  channel : s.channel = []
  writer : s.writer = .receiving ∨ s.writer = .gone

/-- All threads of a session have ended. -/
structure Ended (s : IpcSession) : Prop where
  dispatcher : ∃ cause, s.dispatcher = .over cause
  forwarder : s.forwarder = .done
  writer : s.writer = .gone

theorem Stuck.writer (hstuck : Stuck d) (h : d.session.Plumbed) :
    d.session.writer = .receiving ∧ d.session.channel = [] ∧ d.session.senderAlive = true ∨
      d.session.writer = .gone ∧ d.session.channel = [] ∧ d.session.receiverAlive = false := by
  have hwrite : (d.session.write true).1.writer = d.session.writer :=
    congrArg IpcSession.writer (hstuck (.write true) (by simp [ownSteps]))
  cases hpc : d.session.writer with
  | receiving =>
    cases hchannel : d.session.channel with
    | nil =>
      refine .inl ⟨rfl, rfl, ?_⟩
      by_contra halone
      simp [IpcSession.write, hpc, hchannel, halone] at hwrite
    | cons message rest => simp [IpcSession.write, hpc, hchannel] at hwrite
  | writing message => simp [IpcSession.write, hpc] at hwrite
  | releasing => simp [IpcSession.write, hpc] at hwrite
  | dropping => simp [IpcSession.write, hpc] at hwrite
  | noting => simp [IpcSession.write, hpc] at hwrite
  | gone =>
    have hdead : d.session.receiverAlive = false := by
      rw [h.receiver, hpc]
      rfl
    exact .inr ⟨rfl, h.dropped hdead, hdead⟩

theorem Stuck.send (hstuck : Stuck d) (h : d.session.Plumbed) (message : ServerMessage)
    (sent failed : IpcSession → IpcSession) :
    (d.session.send message sent failed).1 =
    sent { d.session with channel := d.session.channel ++ [message] } ∨
      (d.session.send message sent failed).1 = failed d.session := by
  obtain ⟨-, hchannel, -⟩ | ⟨-, -, hdead⟩ := hstuck.writer h
  · rw [IpcSession.send]
    split
    · refine .inl ?_
      rw [hchannel]
      rfl
    · exact .inr rfl
  · exact .inr (by simp [IpcSession.send, hdead])

theorem Stuck.forwarder (hstuck : Stuck d) (h : d.session.Plumbed) :
    (d.session.forwarder = .gate ∧ d.session.gateAlive = true) ∨
      (∃ v, d.session.forwarder = .receiving v ∧ d.session.subscribed = true) ∨
      d.session.forwarder = .done := by
  have hforward : d.session.forward.1 = d.session := hstuck .forward (by simp [ownSteps])
  have hsame := congrArg IpcSession.forwarder hforward
  have hqueue := congrArg (fun s => s.queue.length) hforward
  cases hpc : d.session.forwarder with
  | gate =>
    refine .inl ⟨rfl, ?_⟩
    by_contra hclosed
    cases hgate : d.session.gate <;> simp [IpcSession.forward, hpc, hgate, hclosed] at hsame
  | receiving v =>
    refine .inr (.inl ⟨v, rfl, ?_⟩)
    cases hnext : d.session.queue with
    | nil =>
      by_contra hleft
      simp [IpcSession.forward, hpc, hnext, hleft] at hsame
    | cons envelope rest =>
      by_cases hreaches : eventReaches v envelope.event = true
      · simp [IpcSession.forward, hpc, hnext, hreaches] at hsame
      · simp [IpcSession.forward, hpc, hnext, hreaches] at hqueue
  | reserving v item => simp [IpcSession.forward, hpc] at hsame
  | sending v item =>
    have hforward' : d.session.forward =
        d.session.send (.event item.envelope) (fun s => { s with forwarder := item.pc v })
          (fun s => { s with forwarder := .done, queue := [] }) := by
      rw [IpcSession.forward, hpc]
    rw [hforward'] at hsame
    obtain hsend | hsend := hstuck.send h (.event item.envelope)
      (fun s => { s with forwarder := item.pc v })
      (fun s => { s with forwarder := .done, queue := [] })
    · rw [hsend, hpc] at hsame
      cases item <;> simp [Forwarded.pc] at hsame
    · simp [hsend, hpc] at hsame
  | checking v =>
    by_cases hmarked : (d.session.overflowed && resyncMarkerReaches v) = true
    · simp [IpcSession.forward, hpc, hmarked] at hsame
    · simp [IpcSession.forward, hpc, hmarked] at hsame
  | done => exact .inr (.inr rfl)

/-- No request waits for the window of a stuck session. -/
theorem Stuck.window (hstuck : Stuck d) (h : d.session.Plumbed) (hwindowed : Windowed peer d events)
    (hpc : d.session.dispatcher = .top) (hexhausted : d.session.isExhausted = true) :
    d.session.writerGone = true := by
  obtain ⟨hwriter, hchannel, -⟩ | ⟨hwriter, -, -⟩ := hstuck.writer h
  · -- every slot but one that the forwarder left behind has been released
    exfalso
    obtain ⟨hordered, hcarrying, hslots⟩ := hwindowed
    have hclear := hordered.unrefused (by rw [hpc]; rfl)
    have hexact := hcarrying.exact hslots hclear
    have hlost := hcarrying.lost
    have hnone := countP_isRefusal hclear
    have hreserved := length_eq_countP (reservedOf events)
    have hqueued := length_eq_countP (queuedOf events)
    have hanswers := hslots.answers_le
    have hevents := hslots.events_le
    have hrefusals := hslots.refusals
    have hforwarder : d.session.forwarder.sends = 0 ∧ d.session.forwarder.leaks ≤ 1 := by
      obtain ⟨hgate, -⟩ | ⟨v, hreceiving, -⟩ | hdone := hstuck.forwarder h
      · simp [hgate, ForwarderPc.sends, ForwarderPc.leaks]
      · simp [hreceiving, ForwarderPc.sends, ForwarderPc.leaks]
      · simp [hdone, ForwarderPc.sends, ForwarderPc.leaks]
    rw [hpc] at hanswers
    rw [hwriter] at hexact hlost
    have hdispatcher : DispatcherPc.top.sends = 0 ∧ DispatcherPc.top.leaks = 0 := ⟨rfl, rfl⟩
    have hidle : WriterPc.receiving.lost = 0 ∧ WriterPc.receiving.releases = 0 := ⟨rfl, rfl⟩
    have hwindow : 16 ≤ d.session.unwritten.val := by
      have hle := of_decide_eq_true hexhausted
      exact hle
    rw [hchannel, List.length_nil] at hlost
    omega
  · exact h.noted hwriter

theorem Stuck.dispatcher (hstuck : Stuck d) (h : d.session.Plumbed)
    (hwindowed : Windowed peer d events) (hfree : d.busFree = true) :
    (d.session.dispatcher = .reading ∨ ∃ id request, d.session.dispatcher =
     .dispatching id request) ∨
      ∃ cause, d.session.dispatcher = .over cause := by
  have hadvance : (d.session.advance d.core d.busFree).1 = d.session :=
    hstuck .advance (by simp [ownSteps])
  rw [hfree] at hadvance
  have hsame := congrArg IpcSession.dispatcher hadvance
  have hsend : ∀ (message : ServerMessage) (pc pc' : DispatcherPc),
      d.session.advance d.core true =
        d.session.send message (fun s => { s with dispatcher := pc })
          (fun s => { s with dispatcher := pc' }) →
      d.session.dispatcher = pc ∨ d.session.dispatcher = pc' := by
    intro message pc pc' hstep
    rw [hstep] at hsame
    obtain hsend | hsend := hstuck.send h message (fun s => { s with dispatcher := pc })
      (fun s => { s with dispatcher := pc' })
    · rw [hsend] at hsame
      exact .inl hsame.symm
    · rw [hsend] at hsame
      exact .inr hsame.symm
  by_cases hover : ∃ cause, d.session.dispatcher = .over cause
  · exact .inr hover
  refine .inl ?_
  cases hpc : d.session.dispatcher with
  | reading => exact .inl rfl
  | dispatching id request => exact .inr ⟨id, request, rfl⟩
  | top =>
    by_cases hexhausted : d.session.isExhausted = true
    · have hgone := hstuck.window h hwindowed hpc hexhausted
      by_cases hhello : d.session.helloDone = true
      · simp [IpcSession.advance, hpc, IpcSession.onTop, hhello, hexhausted, hgone] at hsame
      · simp [IpcSession.advance, hpc, IpcSession.onTop, hhello] at hsame
    · simp [IpcSession.advance, hpc, IpcSession.onTop, hexhausted] at hsame
  | sending message afterwards =>
    have hnot := hsend message afterwards.pc (.returned .ended) (by rw [IpcSession.advance, hpc])
    rw [hpc] at hnot
    cases afterwards <;> simp [Afterwards.pc] at hnot
  | refusing reason =>
    have hnot := hsend (IpcSession.refusal reason) (.returned (.refused reason)) (.returned .ended)
      (by rw [IpcSession.advance, hpc])
    simp [hpc] at hnot
  | _ =>
    first
    | simp [IpcSession.advance, hpc] at hsame; done
    | exact absurd ⟨_, hpc⟩ hover

theorem Stuck.ended (hstuck : Stuck d) (h : d.session.Plumbed) {cause : Cause}
    (hover : d.session.dispatcher = .over cause) : Ended d.session := by
  have hdone : d.session.forwarder = .done := by
    obtain ⟨-, halive⟩ | ⟨v, -, hsubscribed⟩ | hdone := hstuck.forwarder h
    · simp [h.gate, hover, IpcSession.gateClosed] at halive
    · simp [h.unsubscribed cause hover] at hsubscribed
    · exact hdone
  obtain ⟨-, -, halive⟩ | ⟨hwriter, -, -⟩ := hstuck.writer h
  · simp [IpcSession.senderAlive, hover, hdone] at halive
  · exact ⟨⟨cause, hover⟩, hdone, hwriter⟩

/-- **A session never wedges**: where no thread of its own can go on, it waits for its peer or the
handler with nothing left to write, or it has ended. -/
theorem never_wedges (version : String) (networkIntegration : NetworkIntegration)
    (peer : PeerCredentials) (as : List Action)
    (hfree : (Machine.run step (start version networkIntegration peer) as).1.busFree = true)
    (hstuck : Stuck (Machine.run step (start version networkIntegration peer) as).1) :
    Waiting (Machine.run step (start version networkIntegration peer) as).1.session ∨
      Ended (Machine.run step (start version networkIntegration peer) as).1.session := by
  have hplumbed := run_plumbed version networkIntegration peer as
  have hwindowed := run_windowed version networkIntegration peer as
  obtain hwaits | ⟨cause, hover⟩ := hstuck.dispatcher hplumbed hwindowed hfree
  · obtain ⟨hwriter, hchannel, -⟩ | ⟨hwriter, hchannel, -⟩ := hstuck.writer hplumbed
    · exact .inl ⟨hwaits, hchannel, .inl hwriter⟩
    · exact .inl ⟨hwaits, hchannel, .inr hwriter⟩
  · exact .inr (hstuck.ended hplumbed hover)

/-- A session that waits for the hello. -/
theorem never_wedges_hello :
    Waiting (Machine.run step (start "1" .auto ⟨1000, 1000, none⟩) [.advance, .advance]).1.session ∨
      Ended (Machine.run step (start "1" .auto ⟨1000, 1000, none⟩)
        [.advance, .advance]).1.session := by
  refine never_wedges "1" .auto ⟨1000, 1000, none⟩ [.advance, .advance] rfl ?_
  intro a ha
  simp only [ownSteps, List.mem_cons, List.not_mem_nil, or_false] at ha
  obtain rfl | rfl | rfl := ha <;> rfl

/-! ## The end of a session -/

/-- Nobody marks a session that is off the bus. -/
structure Sealed (d : IpcServer) : Prop where
  plumbed : d.session.Plumbed
  unmarked : ∀ cause, d.session.dispatcher = .over cause → d.busFree = true

theorem step_sealed (h : Sealed d) (hstep : d.Steps d' emitted) : Sealed d' := by
  refine ⟨step_plumbed h.plumbed hstep, fun cause hover => ?_⟩
  cases hstep with
  | publishes hstep =>
    rw [hstep.alike.dispatcher] at hover
    have hfree := h.unmarked cause hover
    have hleft := h.plumbed.unsubscribed cause hover
    cases hstep with
    | stays => exact hfree
    | emits core envelope free emitter seq stamped => simp [busFree, emitter]
    | drops envelope emitter subscribed alive full => simp [hleft] at subscribed
    | _ => rfl
  | dispatches hstep =>
    show d.busFree = true
    cases hstep with
    | stays => exact h.unmarked cause hover
    | leaves cause pc free => exact free
    | sends message afterwards pc alive room => cases afterwards <;> cases hover
    | _ => cases hover
  | forwards hstep => exact h.unmarked cause (by cases hstep <;> exact hover)
  | writes hstep => exact h.unmarked cause (by cases hstep <;> exact hover)

theorem run_sealed (version : String) (networkIntegration : NetworkIntegration)
    (peer : PeerCredentials)
    (as : List Action) : Sealed (Machine.run step (start version networkIntegration peer) as).1 :=
  Machine.run_state_inv Sealed (fun d a h => step_sealed h (d.step_steps a)) _
    ⟨run_plumbed version networkIntegration peer [], by rintro _ ⟨⟩⟩ as

/-- The publisher leaves a session alone that is off the bus. -/
theorem Sealed.publishes (h : Sealed d) {cause : Cause} (hover : d.session.dispatcher = .over cause)
    (hstep : d.Publishes d' emitted) : d'.session = d.session := by
  have hfree := h.unmarked cause hover
  have hleft := h.plumbed.unsubscribed cause hover
  cases hstep with
  | accepts envelope emitter subscribed alive room => simp [hleft] at subscribed
  | forgets envelope emitter subscribed gone => simp [hleft] at subscribed
  | marks emitter => simp [busFree, emitter] at hfree
  | _ => rfl

theorem Sealed.descends (h : Sealed d) {cause : Cause} (hover : d.session.dispatcher = .over cause)
    (a : Action) :
    (d.step a).1.session.dispatcher = .over cause ∧ ((d.step a).1.session = d.session ∨
      IpcSession.weight (d.step a).1.session < IpcSession.weight d.session) := by
  have hkeeps : (d.step a).1.session = d.session → (d.step a).1.session.dispatcher = .over cause ∧
      ((d.step a).1.session = d.session ∨
        IpcSession.weight (d.step a).1.session < IpcSession.weight d.session) :=
    fun hsame => ⟨hsame ▸ hover, .inl hsame⟩
  cases a with
  | setVpnState to_ => exact hkeeps (h.publishes hover (d.setVpnState_publishes to_))
  | notice level message => exact hkeeps (h.publishes hover (d.notice_publishes level message))
  | publish => exact hkeeps (h.publishes hover d.publish_publishes)
  | mark => exact hkeeps (h.publishes hover d.mark_publishes)
  | advance => exact hkeeps (by simp [step, IpcSession.advance, hover])
  | incident incident =>
    exact hkeeps (by cases incident <;> simp [step, IpcSession.onIncident, hover])
  | read message => exact hkeeps (by simp [step, hover])
  | handled handle => exact hkeeps (by simp [step, IpcSession.onHandled, hover])
  | forward =>
    refine ⟨?_, d.session.weight_forward⟩
    have hstep := d.session.forward_forwards
    show d.session.forward.1.dispatcher = _
    generalize d.session.forward.2 = emitted at hstep
    generalize d.session.forward.1 = s' at hstep ⊢
    cases hstep <;> exact hover
  | write ok =>
    refine ⟨?_, d.session.weight_write ok⟩
    have hstep := d.session.write_writes ok
    show (d.session.write ok).1.dispatcher = _
    generalize (d.session.write ok).2 = emitted at hstep
    generalize (d.session.write ok).1 = s' at hstep ⊢
    cases hstep <;> exact hover

theorem leaves_of_left {cause : Cause} (hleft : d.session.dispatcher.left = some cause) :
    ∃ as, (∀ a ∈ as, a = .mark ∨ a ∈ ownSteps) ∧
      (Machine.run step d as).1.session.dispatcher = .over cause := by
  have hleaves : ∀ {d : IpcServer}, d.busFree = true → d.session.dispatcher = .leaving cause →
      (d.step .advance).1.session.dispatcher = .over cause := by
    intro d hfree hpc
    simp [step, IpcSession.advance, hpc, hfree]
  have hmark : ∀ d : IpcServer, (d.step .mark).1.busFree = true ∧
      (d.step .mark).1.session.dispatcher = d.session.dispatcher := by
    intro d
    refine ⟨?_, d.mark_publishes.alike.dispatcher⟩
    show d.mark.busFree = true
    cases hemitter : d.core.emitter <;> simp [mark, busFree, hemitter]
  cases hpc : d.session.dispatcher with
  | returned cause' =>
    rw [hpc] at hleft
    cases hleft
    refine ⟨[.advance, .mark, .advance], by simp [ownSteps], ?_⟩
    have hleaving : (d.step .advance).1.session.dispatcher = .leaving cause := by
      simp [step, IpcSession.advance, hpc]
    obtain ⟨hfree, hsame⟩ := hmark (d.step .advance).1
    exact hleaves hfree (hsame.trans hleaving)
  | leaving cause' =>
    rw [hpc] at hleft
    cases hleft
    refine ⟨[.mark, .advance], by simp [ownSteps], ?_⟩
    obtain ⟨hfree, hsame⟩ := hmark d
    exact hleaves hfree (hsame.trans hpc)
  | _ =>
    rw [hpc] at hleft
    first
    | cases hleft; exact ⟨[], by simp, hpc⟩
    | cases hleft

/-- **The end of a session** in a given state. -/
structure TearsDown (d : IpcServer) : Prop where
  /-- Once the session is off the bus, whatever the schedule, no more than that many steps change
  it. -/
  bounded : ∀ cause, d.session.dispatcher = .over cause →
    ∀ as, Machine.changes step session d as ≤ 3857
  /-- Where nothing changes it any more, all its threads have ended. -/
  complete : ∀ cause, d.session.dispatcher = .over cause → Stuck d → Ended d.session
  /-- Once its dispatcher's loop is left, its own threads bring it to its end. -/
  reaches : ∀ cause, d.session.dispatcher.left = some cause →
    ∃ as, (∀ a ∈ as, a = .mark ∨ a ∈ ownSteps) ∧ Ended (Machine.run step d as).1.session

/-- **Every session tears down.** -/
theorem session_tears_down (version : String) (networkIntegration : NetworkIntegration)
    (peer : PeerCredentials) (as : List Action) :
    TearsDown (Machine.run step (start version networkIntegration peer) as).1 := by
  have hsealed := run_sealed version networkIntegration peer as
  have hwindowed := run_windowed version networkIntegration peer as
  generalize (Machine.run step (start version networkIntegration peer) as).1 = d
    at hsealed hwindowed ⊢
  have hdescends : ∀ (cause : Cause) (d : IpcServer) (a : Action),
      Sealed d ∧ d.session.dispatcher = .over cause → (d.step a).1.session ≠ d.session →
      IpcSession.weight (d.step a).1.session < IpcSession.weight d.session :=
    fun cause d a h hchange => (h.1.descends h.2 a).2.resolve_left hchange
  have hkeeps : ∀ (cause : Cause) (d : IpcServer) (a : Action),
      Sealed d ∧ d.session.dispatcher = .over cause →
      Sealed (d.step a).1 ∧ (d.step a).1.session.dispatcher = .over cause :=
    fun cause d a h => ⟨step_sealed h.1 (d.step_steps a), (h.1.descends h.2 a).1⟩
  refine ⟨fun cause hover as => ?_, fun cause hover hstuck => hstuck.ended hsealed.plumbed hover,
    fun cause hleft => ?_⟩
  · have hok : ∀ a ∈ as, True := fun _ _ => trivial
    refine (Machine.changes_le (fun d a _ => hkeeps cause d a) (fun d a _ => hdescends cause d a)
      ⟨hsealed, hover⟩
      hok).trans ?_
    have hqueue := hsealed.plumbed.queue
    have hchannel := hwindowed.carrying.room
    have hforwarder : IpcSession.forwarderWeight d.session.forwarder ≤ 12 := by
      cases hpc : d.session.forwarder with
      | reserving v item => cases item <;> simp [IpcSession.forwarderWeight]
      | sending v item => cases item <;> simp [IpcSession.forwarderWeight]
      | _ => simp [IpcSession.forwarderWeight]
    have hwriter : IpcSession.writerWeight d.session.writer ≤ 5 := by
      cases d.session.writer <;> simp [IpcSession.writerWeight]
    rw [sessionQueueLen] at hqueue hchannel
    rw [IpcSession.weight]
    omega
  · obtain ⟨as₁, hown₁, hover⟩ := leaves_of_left hleft
    have hsealed' : Sealed (Machine.run step d as₁).1 :=
      Machine.run_state_inv Sealed (fun d a h => step_sealed h (d.step_steps a)) d hsealed as₁
    obtain ⟨as₂, hown₂, hend, hstill⟩ :=
      Machine.exists_still ownSteps (fun d a _ => hkeeps cause d a)
      (fun d a _ => hdescends cause d a) ⟨hsealed', hover⟩
    refine ⟨as₁ ++ as₂, ?_, ?_⟩
    · intro a ha
      obtain ha | ha := List.mem_append.mp ha
      · exact hown₁ a ha
      · exact .inr (hown₂ a ha)
    · rw [Machine.run_append]
      exact Stuck.ended hstill hend.1.plumbed hend.2

end IpcServer

end ProtonWire
