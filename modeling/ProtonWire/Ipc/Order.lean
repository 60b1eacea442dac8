import ProtonWire.Ipc.Threads

/-!
# The order of a session's frames

* `Ordered`, `step_ordered`: what holds of the whole session, through every step;
* `Numbering`: the numbers of the events in the session's queue, where no number is used twice;
* `requestsRead`, `Asking`: the requests that a run reads, and those of them that it dispatches;
* `Orderly`: the steps that queue nothing after a refusal, and allocate no reserved number;
* **`session_order`**: the frames of a run of such steps;
* `late_event`: an event is written after the refusal of a second hello.
-/

namespace ProtonWire

/-- The core's lock is free. -/
def Emitter.isFree : Emitter → Bool
  | free => true
  | _ => false

namespace IpcServer

/-! ## The session -/

/-- A new core, and a session that has just been accepted. -/
def start (version : String) (networkIntegration : NetworkIntegration) (peer : PeerCredentials) :
    IpcServer where
  core := DaemonCore.new version networkIntegration
  session := IpcSession.new peer

/-- **What holds of the session** after `events`. -/
structure Ordered (peer : PeerCredentials) (d : IpcServer) (events : List SessionEvent) : Prop where
  peer : d.session.peer = peer
  greeting : d.session.Greeting (queuedOf events)
  unrefused : d.session.Unrefused (queuedOf events)
  answering : d.session.Answering (queuedOf events) (answersOf events)
  delivering : d.session.Delivering (queuedOf events) (acceptedOf events)
  piping : d.session.Piping (queuedOf events) (writtenOf events)

variable {peer : PeerCredentials} {d d' : IpcServer} {events emitted : List SessionEvent}

theorem ordered_start (version : String) (networkIntegration : NetworkIntegration)
    (peer : PeerCredentials) :
    Ordered peer (start version networkIntegration peer) [] := by
  refine ⟨rfl, ⟨?_, ?_, ?_, trivial, ?_, fun _ => .inl rfl⟩, ?_, ⟨fun _ => rfl, List.prefix_refl _⟩,
    List.Sublist.refl _, ⟨List.prefix_refl _, ?_⟩⟩
  · intro h
    cases h
  · intro h
    cases h
  · intro h
    cases h
  · intro h
    cases h
  · intro _ m hm
    cases hm
  · rintro _ ⟨⟩
    rfl

theorem queuedOf_publishes (h : d.Publishes d' emitted) :
    queuedOf emitted = [] ∧ answersOf emitted = [] ∧ writtenOf emitted = [] := by
  cases h <;> exact ⟨rfl, rfl, rfl⟩

theorem delivering_publishes (h : d.Publishes d' emitted) {queued : List ServerMessage}
    {accepted : List EventEnvelope} (hdelivering : d.session.Delivering queued accepted) :
    d'.session.Delivering queued (accepted ++ acceptedOf emitted) := by
  rw [IpcSession.Delivering] at hdelivering ⊢
  cases h with
  | accepts envelope emitter subscribed alive room =>
    rw [← List.append_assoc]
    exact hdelivering.append (List.Sublist.refl _)
  | _ => simpa [acceptedOf] using hdelivering

theorem Ordered.publishes (h : Ordered peer d events) (hstep : d.Publishes d' emitted) :
    Ordered peer d' (events ++ emitted) := by
  obtain ⟨hpeer, ⟨hclient, hgate, hforwarder, hsound, hfirst, hsilent⟩, hunrefused,
    ⟨hrunning, hbegun⟩, hdelivering,
    ⟨hbegun', hheld⟩⟩ := h
  have hlike := hstep.alike
  obtain ⟨hqueued, hanswers, hwritten⟩ := queuedOf_publishes hstep
  have hacked : d'.session.acked = d.session.acked := by
    rw [IpcSession.acked, IpcSession.acked, hlike.helloDone, hlike.dispatcher]
  refine ⟨hlike.peer.trans hpeer, ⟨?_, ?_, ?_, ?_, ?_, ?_⟩, ?_, ⟨?_, ?_⟩, ?_, ⟨?_, ?_⟩⟩
  · rwa [hlike.clientInfo, hlike.helloDone]
  · rwa [hlike.gate, hlike.helloDone]
  · rwa [hlike.forwarder, hlike.helloDone]
  · rwa [hlike.dispatcher, hlike.helloDone]
  · rwa [hacked, queuedOf_append, hqueued, List.append_nil]
  · rwa [hacked, hlike.dispatcher, queuedOf_append, hqueued, List.append_nil]
  · rwa [IpcSession.Unrefused, hlike.dispatcher, queuedOf_append, hqueued, List.append_nil]
  · rwa [hlike.dispatcher, queuedOf_append, hqueued, answersOf_append, hanswers, List.append_nil,
      List.append_nil]
  · rwa [queuedOf_append, hqueued, answersOf_append, hanswers, List.append_nil, List.append_nil]
  · rw [queuedOf_append, hqueued, acceptedOf_append, List.append_nil]
    exact delivering_publishes hstep hdelivering
  · rwa [queuedOf_append, hqueued, writtenOf_append, hwritten, List.append_nil, List.append_nil]
  · rwa [hlike.writer, hlike.channel, queuedOf_append, hqueued, writtenOf_append, hwritten,
      List.append_nil, List.append_nil]

/-- **A step of any thread.** -/
theorem step_ordered (h : Ordered peer d events) (hstep : d.Steps d' emitted) :
    Ordered peer d' (events ++ emitted) := by
  cases hstep with
  | publishes hstep => exact h.publishes hstep
  | dispatches hstep =>
    obtain ⟨hpeer, hgreeting, hunrefused, hanswering, hdelivering, hpiping⟩ := h
    have hpeer' : _ = peer := (IpcSession.Dispatches.peer hstep).trans hpeer
    have hsound := hgreeting.sound
    refine ⟨hpeer', ?_, ?_, ?_, ?_, ?_⟩
    · rw [queuedOf_append]
      exact hgreeting.dispatches hstep
    · rw [queuedOf_append]
      exact hunrefused.dispatches hsound hstep
    · rw [queuedOf_append, answersOf_append]
      exact hanswering.dispatches hstep
    · rw [queuedOf_append, acceptedOf_append]
      exact hdelivering.dispatches hsound hstep
    · rw [queuedOf_append, writtenOf_append]
      exact hpiping.dispatches hstep
  | forwards hstep =>
    obtain ⟨hpeer, hgreeting, hunrefused, hanswering, hdelivering, hpiping⟩ := h
    have hpeer' : _ = peer := (IpcSession.Forwards.peer hstep).trans hpeer
    refine ⟨hpeer', ?_, ?_, ?_, ?_, ?_⟩
    · rw [queuedOf_append]
      exact hgreeting.forwards hstep
    · rw [queuedOf_append]
      exact hunrefused.forwards hstep
    · rw [queuedOf_append, answersOf_append]
      exact hanswering.forwards hstep
    · rw [queuedOf_append, acceptedOf_append]
      exact hdelivering.forwards hstep
    · rw [queuedOf_append, writtenOf_append]
      exact hpiping.forwards hstep
  | writes hstep =>
    obtain ⟨hpeer, hgreeting, hunrefused, hanswering, hdelivering, hpiping⟩ := h
    have hpeer' : _ = peer := (IpcSession.Writes.peer hstep).trans hpeer
    refine ⟨hpeer', ?_, ?_, ?_, ?_, ?_⟩
    · rw [queuedOf_append]
      exact hgreeting.writes hstep
    · rw [queuedOf_append]
      exact hunrefused.writes hstep
    · rw [queuedOf_append, answersOf_append]
      exact hanswering.writes hstep
    · rw [queuedOf_append, acceptedOf_append]
      exact hdelivering.writes hstep
    · rw [queuedOf_append, writtenOf_append]
      exact hpiping.writes hstep

/-- **A run.** -/
theorem run_ordered (version : String) (networkIntegration : NetworkIntegration)
    (peer : PeerCredentials) (as : List Action) :
    Ordered peer (Machine.run step (start version networkIntegration peer) as).1
      (Machine.run step (start version networkIntegration peer) as).2 :=
  Machine.run_inv (Ordered peer) (fun d _ a h => step_ordered h (d.step_steps a)) _ []
    (ordered_start version networkIntegration peer) as

/-! ## The numbers -/

/-- **The numbers** of what the session's queue accepted, and of what is about to be published. -/
structure Numbering (d : IpcServer) (accepted : List EventEnvelope) : Prop where
  sorted : accepted.Pairwise fun a b => a.seq < b.seq
  below : ∀ e ∈ accepted, e.seq ≤ d.core.seq
  publishing : ∀ envelope, d.core.emitter = .publishing envelope →
    envelope.seq = d.core.seq ∧ ∀ e ∈ accepted, e.seq < envelope.seq

/-- The step allocates a number. -/
def allocates (d : IpcServer) : Action → Bool
  | .setVpnState to_ => d.core.emitter.isFree && !decide (d.core.vpnState = to_)
  | .notice _ _ => d.core.emitter.isFree
  | _ => false

theorem seq_of_not_allocates {a : Action} (h : d.allocates a = false) :
    (d.step a).1.core.seq = d.core.seq := by
  cases a with
  | setVpnState to_ =>
    show (d.emit fun core => core.setVpnState to_).core.seq = d.core.seq
    unfold emit
    split
    · rename_i free
      have hsame : d.core.vpnState = to_ := by simpa [allocates, free, Emitter.isFree] using h
      simp [DaemonCore.setVpnState, hsame]
    · rfl
  | notice level message =>
    show (d.emit fun core => core.notice level message).core.seq = d.core.seq
    unfold emit
    split
    · rename_i free
      simp [allocates, free, Emitter.isFree] at h
    · rfl
  | publish =>
    have hstep := d.publish_publishes
    show d.publish.1.core.seq = d.core.seq
    unfold publish
    split
    · split
      · split
        · rfl
        · split <;> rfl
      · rfl
    · rfl
  | mark =>
    show d.mark.core.seq = d.core.seq
    unfold mark
    split <;> rfl
  | read message =>
    show (d.step (.read message)).1.core.seq = d.core.seq
    unfold step
    dsimp only
    split <;> rfl
  | _ => rfl

theorem lt_succ_seq {seq : Word64} (h : seq.val + 1 < eventSeqResyncNow.val) {a : Word64}
    (ha : a ≤ seq) :
    a < seq + 1 := by
  have hval : (seq + 1).val = seq.val + 1 := by
    have hmax : eventSeqResyncNow.val = 2 ^ 64 - 1 := rfl
    rw [Fin.val_add_one_of_lt' (by omega)]
  rw [Fin.lt_def, hval]
  exact Nat.lt_succ_of_le ha

theorem Numbering.step {accepted : List EventEnvelope} (h : Numbering d accepted)
    (hroom : d'.core.seq ≠ d.core.seq → d.core.seq.val + 1 < eventSeqResyncNow.val)
    (hstep : d.Steps d' emitted) :
    Numbering d' (accepted ++ acceptedOf emitted) := by
  obtain ⟨hsorted, hbelow, hpublishing⟩ := h
  -- a step of a thread of the session
  have hquiet : d'.core = d.core → acceptedOf emitted = [] →
    Numbering d' (accepted ++ acceptedOf emitted) := by
    intro hcore hnone
    rw [hnone, List.append_nil]
    exact ⟨hsorted, by rwa [hcore], by rwa [hcore]⟩
  cases hstep with
  | dispatches hstep =>
    refine hquiet rfl ?_
    cases hstep with
    | answers id request handle asked pc authorized => rcases authorized with rfl | ⟨-, rfl⟩ <;> rfl
    | _ => rfl
  | forwards hstep => exact hquiet rfl (by cases hstep <;> rfl)
  | writes hstep => exact hquiet rfl (by cases hstep <;> rfl)
  | publishes hstep =>
    have hfree : ∀ core : DaemonCore, core.seq = d.core.seq →
      (∀ envelope, core.emitter ≠ .publishing envelope) →
        ∀ session, Numbering ⟨core, session⟩ (accepted ++ []) := by
      intro core hseq hemitter session
      rw [List.append_nil]
      exact ⟨hsorted, by rwa [hseq], fun envelope he => absurd he (hemitter envelope)⟩
    cases hstep with
    | stays => exact hquiet rfl rfl
    | emits core envelope free emitter seq stamped =>
      rw [show acceptedOf [] = [] from rfl, List.append_nil]
      have hne : d.core.seq + 1 ≠ d.core.seq := by simp
      have habove : ∀ a ≤ d.core.seq, a < d.core.seq + 1 := fun a =>
        lt_succ_seq (hroom (by rwa [seq]))
      refine ⟨hsorted, fun e he => ?_, fun envelope' he => ?_⟩
      · rw [seq]
        exact (habove _ (hbelow e he)).le
      · obtain rfl : envelope' = envelope := by
          have := emitter.symm.trans he
          injection this with this
          exact this.symm
        refine ⟨stamped, fun e he => ?_⟩
        rw [stamped, seq]
        exact habove _ (hbelow e he)
    | accepts envelope emitter subscribed alive room =>
      obtain ⟨hseq, hlt⟩ := hpublishing envelope emitter
      refine ⟨?_, fun e he => ?_, fun envelope' he => by cases he⟩
      · refine List.pairwise_append.mpr ⟨hsorted, List.pairwise_singleton _ _,
          fun e he e' he' => ?_⟩
        rw [List.mem_singleton.mp he']
        exact hlt e he
      · rcases List.mem_append.mp he with he | he
        · exact hbelow e he
        · rw [List.mem_singleton.mp he]
          exact hseq.le
    | drops envelope emitter subscribed alive full =>
      exact hfree { d.core with emitter := .marking } rfl (by simp) _
    | forgets envelope emitter subscribed gone =>
      exact hfree { d.core with emitter := .free } rfl (by simp) _
    | misses envelope emitter unsubscribed =>
      exact hfree { d.core with emitter := .free } rfl (by simp) _
    | marks emitter => exact hfree { d.core with emitter := .free } rfl (by simp) _

/-! ## The requests -/

end IpcServer

/-- The dispatched requests, with their ids. -/
def dispatchedOf (events : List SessionEvent) : List (ℕ × Request) :=
  events.filterMap fun
    | .dispatched id request _ => some (id, request)
    | _ => none

@[simp] theorem dispatchedOf_append (a b : List SessionEvent) :
    dispatchedOf (a ++ b) = dispatchedOf a ++ dispatchedOf b :=
  List.filterMap_append

/-- The request that a message carries. -/
def ClientMessage.request? : ClientMessage → Option (ℕ × Request)
  | .request id asked => some (id, asked)
  | .hello .. => none

/-- What was read and not dispatched: the request the dispatcher is at, or one that it refused. -/
def DispatcherPc.Undone (undone : List (ℕ × Request)) : DispatcherPc → Prop
  | dispatching id request => undone = [(id, request)]
  | refusing _ | returned _ | leaving _ | .over _ => undone.length ≤ 1
  | _ => undone = []

theorem DispatcherPc.Undone.length_le {pc : DispatcherPc} {undone : List (ℕ × Request)}
    (h : pc.Undone undone) : undone.length ≤ 1 := by
  unfold Undone at h
  split at h
  · rw [h]
    exact le_rfl
  · exact h
  · exact h
  · exact h
  · exact h
  · rw [h]
    exact Nat.zero_le 1

namespace IpcSession

variable {s s' : IpcSession} {core : DaemonCore} {busFree : Bool} {events : List SessionEvent}
  {undone : List (ℕ × Request)}

theorem Forwards.idle (h : s.Forwards s' events) :
    s'.dispatcher = s.dispatcher ∧ dispatchedOf events = [] := by
  cases h <;> exact ⟨rfl, rfl⟩

theorem Writes.idle (h : s.Writes s' events) :
    s'.dispatcher = s.dispatcher ∧ dispatchedOf events = [] := by
  cases h <;> exact ⟨rfl, rfl⟩

theorem undone_dispatches (hpc : s.dispatcher ≠ .reading) (h : s.dispatcher.Undone undone)
    (hstep : s.Dispatches core busFree s' events) :
    ∃ undone', undone = dispatchedOf events ++ undone' ∧ s'.dispatcher.Undone undone' := by
  have hone := h.length_le
  cases hstep with
  | stays => exact ⟨undone, rfl, h⟩
  | polls pc | greets _ _ pc | accepts _ _ pc => exact absurd pc hpc
  | ends | declines | refuses | refusesNobody | sendsNobody | returns | leaves =>
    exact ⟨undone, rfl, hone⟩
  | subscribes pc | reads pc | stamps _ _ pc | reserves _ _ pc | opens _ _ pc =>
    rw [pc] at h
    exact ⟨undone, rfl, h⟩
  | sends message afterwards pc =>
    rw [pc] at h
    refine ⟨undone, rfl, ?_⟩
    cases afterwards <;> exact h
  | panics id request pc =>
    rw [pc] at h
    exact ⟨[], h, Nat.zero_le 1⟩
  | answers id request handle asked pc authorized =>
    rw [pc] at h
    refine ⟨[], ?_, rfl⟩
    rcases authorized with rfl | ⟨-, rfl⟩ <;> exact h

theorem undone_onMessage (s : IpcSession) (message : ClientMessage) :
    (s.onMessage message).dispatcher.Undone message.request?.toList := by
  unfold onMessage
  split
  · split_ifs
    · exact Nat.zero_le 1
    · exact Nat.zero_le 1
    · rfl
  · split
    · exact le_rfl
    · rfl

end IpcSession

namespace IpcServer

variable {peer : PeerCredentials} {d d' : IpcServer} {events emitted : List SessionEvent}

/-- The request that a step reads. -/
def reads (d : IpcServer) : Action → List (ℕ × Request)
  | .read message => match d.session.dispatcher with
    | .reading => message.request?.toList
    | _ => []
  | _ => []

/-- The requests that a run reads. -/
def requestsRead : IpcServer → List Action → List (ℕ × Request)
  | _, [] => []
  | d, a :: as => d.reads a ++ requestsRead (d.step a).1 as

/-- All requests read so far are dispatched, but for the last. -/
def Asking (d : IpcServer) (events : List SessionEvent) (requests : List (ℕ × Request)) : Prop :=
  ∃ undone, requests = dispatchedOf events ++ undone ∧ d.session.dispatcher.Undone undone

theorem Publishes.idle (h : d.Publishes d' emitted) :
    d'.session.dispatcher = d.session.dispatcher ∧ dispatchedOf emitted = [] := by
  refine ⟨h.alike.dispatcher, ?_⟩
  cases h <;> rfl

theorem undone_steps {undone : List (ℕ × Request)} (hpc : d.session.dispatcher ≠ .reading)
    (h : d.session.dispatcher.Undone undone) (hstep : d.Steps d' emitted) :
    ∃ undone', undone = dispatchedOf emitted ++ undone' ∧ d'.session.dispatcher.Undone undone' := by
  have hstays (hidle : d'.session.dispatcher = d.session.dispatcher ∧ dispatchedOf emitted = []) :
      ∃ undone', undone = dispatchedOf emitted ++ undone' ∧
        d'.session.dispatcher.Undone undone' := by
    refine ⟨undone, ?_, ?_⟩
    · rw [hidle.2, List.nil_append]
    · rwa [hidle.1]
  cases hstep with
  | publishes hstep => exact hstays hstep.idle
  | dispatches hstep => exact IpcSession.undone_dispatches hpc h hstep
  | forwards hstep => exact hstays hstep.idle
  | writes hstep => exact hstays hstep.idle

theorem reading_step (hpc : d.session.dispatcher = .reading) (a : Action) :
    ∃ undone', d.reads a = dispatchedOf (d.step a).2 ++ undone' ∧
      (d.step a).1.session.dispatcher.Undone undone' := by
  have hstays {d' : IpcServer} {emitted : List SessionEvent}
      (hidle : d'.session.dispatcher = d.session.dispatcher ∧ dispatchedOf emitted = []) :
      ∃ undone', [] = dispatchedOf emitted ++ undone' ∧ d'.session.dispatcher.Undone undone' := by
    refine ⟨[], ?_, ?_⟩
    · rw [hidle.2, List.nil_append]
    · rw [hidle.1, hpc]
      rfl
  cases a with
  | setVpnState to_ => exact hstays (d.setVpnState_publishes to_).idle
  | notice level message => exact hstays (d.notice_publishes level message).idle
  | publish => exact hstays d.publish_publishes.idle
  | mark => exact hstays d.mark_publishes.idle
  | forward => exact hstays d.session.forward_forwards.idle
  | write ok => exact hstays (d.session.write_writes ok).idle
  | advance =>
    have hsame : d.step .advance = (d, []) := by
      rw [step, show d.session.advance d.core d.busFree = (d.session, []) by
        rw [IpcSession.advance, hpc]]
    rw [hsame]
    exact hstays ⟨rfl, rfl⟩
  | handled handle =>
    have hsame : d.step (.handled handle) = (d, []) := by
      rw [step, show d.session.onHandled handle = (d.session, []) by
        rw [IpcSession.onHandled, hpc]]
    rw [hsame]
    exact hstays ⟨rfl, rfl⟩
  | incident incident =>
    refine ⟨[], ?_, ?_⟩
    · cases incident <;> simp [step, IpcSession.onIncident, hpc, reads, dispatchedOf]
    · cases incident <;> simp [step, IpcSession.onIncident, hpc, DispatcherPc.Undone]
  | read message =>
    have hreads : d.reads (.read message) = message.request?.toList := by
      rw [reads, hpc]
    have hstep : d.step (.read message) =
        ({ d with session := d.session.onMessage message }, []) := by
      rw [step, hpc]
    rw [hreads, hstep]
    exact ⟨_, rfl, IpcSession.undone_onMessage d.session message⟩

theorem Asking.step {requests : List (ℕ × Request)} (h : Asking d events requests) (a : Action) :
    Asking (d.step a).1 (events ++ (d.step a).2) (requests ++ d.reads a) := by
  obtain ⟨undone, rfl, hundone⟩ := h
  suffices hstep : ∃ undone', undone ++ d.reads a = dispatchedOf (d.step a).2 ++ undone' ∧
      (d.step a).1.session.dispatcher.Undone undone' by
    obtain ⟨undone', heq, hundone'⟩ := hstep
    exact ⟨undone', by
      rw [dispatchedOf_append, List.append_assoc, List.append_assoc, heq], hundone'⟩
  by_cases hpc : d.session.dispatcher = .reading
  · rw [hpc] at hundone
    obtain rfl : undone = [] := hundone
    rw [List.nil_append]
    exact reading_step hpc a
  · have hnone : d.reads a = [] := by
      unfold reads
      split
      · split
        · rename_i hreading
          exact absurd hreading hpc
        · rfl
      · rfl
    rw [hnone, List.append_nil]
    exact undone_steps hpc hundone (d.step_steps a)

theorem Asking.run {requests : List (ℕ × Request)} (h : Asking d events requests)
    (as : List Action) :
    Asking (Machine.run IpcServer.step d as).1 (events ++ (Machine.run IpcServer.step d as).2)
      (requests ++ requestsRead d as) := by
  induction as generalizing d events requests with
  | nil => simpa [Machine.run, requestsRead] using h
  | cons a as ih =>
    have hrun := ih (h.step a)
    rw [List.append_assoc, List.append_assoc] at hrun
    exact hrun

/-! ## The order -/

/-- The step of the forwarder. -/
def forwards : Action → Bool
  | .forward => true
  | _ => false

/-- A step that queues no event after a refusal, and allocates no reserved number. -/
def Orderly (d : IpcServer) (a : Action) : Prop :=
  (d.allocates a = true → d.core.seq.val + 1 < eventSeqResyncNow.val) ∧
    (forwards a = true → d.session.dispatcher.refused.isSome = true → d.session.sendsEvent = false)

instance (d : IpcServer) (a : Action) :
    Decidable (Orderly d a) := inferInstanceAs (Decidable (_ ∧ _))

theorem refusedLast_publishes (hstep : d.Publishes d' emitted) {queued : List ServerMessage}
    (h : d.session.RefusedLast queued) : d'.session.RefusedLast (queued ++ queuedOf emitted) := by
  rw [(queuedOf_publishes hstep).1, List.append_nil, IpcSession.RefusedLast, hstep.alike.dispatcher]
  exact h

theorem refusedLast_step {a : Action} (hok : Orderly d a) {queued : List ServerMessage}
    (hunrefused : d.session.Unrefused queued) (h : d.session.RefusedLast queued) :
    (d.step a).1.session.RefusedLast (queued ++ queuedOf (d.step a).2) := by
  have hdispatches : ∀ {s : IpcSession} {emitted : List SessionEvent},
      d.session.Dispatches d.core d.busFree s emitted →
      s.RefusedLast (queued ++ queuedOf emitted) :=
    fun hstep => h.dispatches hunrefused hstep
  cases a with
  | setVpnState to_ => exact refusedLast_publishes (d.setVpnState_publishes to_) h
  | notice level message => exact refusedLast_publishes (d.notice_publishes level message) h
  | publish => exact refusedLast_publishes d.publish_publishes h
  | mark => exact refusedLast_publishes d.mark_publishes h
  | advance => exact hdispatches (d.session.advance_dispatches d.core d.busFree)
  | incident incident =>
    exact hdispatches (d.session.onIncident_dispatches d.core d.busFree incident)
  | read message =>
    unfold step
    dsimp only
    split
    · rename_i pc
      exact hdispatches (d.session.onMessage_dispatches d.core d.busFree pc message)
    · exact refusedLast_publishes .stays h
  | handled handle => exact hdispatches (d.session.onHandled_dispatches d.core d.busFree handle)
  | forward =>
    exact h.forwards (fun hrefused => hok.2 rfl (Option.isSome_iff_ne_none.mpr hrefused))
      d.session.forward_forwards
  | write ok => exact h.writes (d.session.write_writes ok)

/-- **The order of a run.** -/
structure SessionOrder (peer : PeerCredentials) (requests : List (ℕ × Request))
    (events : List SessionEvent) : Prop where
  /-- The first frame is an ack or a refusal. -/
  opened : ∀ message rest, writtenOf events = message :: rest →
    (∃ ack, message = .helloAck ack) ∨ message.isRefusal = true
  /-- Nothing follows a refusal. -/
  refused : ∀ front error rest, writtenOf events = front ++ .helloError error :: rest → rest = []
  /-- No event precedes the ack. -/
  acked : ∀ front envelope rest, writtenOf events = front ++ .event envelope :: rest →
    ∃ ack, .helloAck ack ∈ front
  /-- No request is dispatched before the ack is queued. -/
  greeted : ∀ front id request response rest, events = front ++
    .dispatched id request response :: rest →
    ∃ ack, .queued (.helloAck ack) ∈ front
  /-- The requests dispatched are those read, in order, with their ids; the last may be left. -/
  requested : ∃ undone, requests = dispatchedOf events ++ undone ∧ undone.length ≤ 1
  /-- The handler is asked what the peer may ask, after the ack. -/
  authorized : ∀ front request rest, events = front ++ .handled request :: rest →
    authorize (requiredRole request) peer = .ok () ∧ ∃ ack, .queued (.helloAck ack) ∈ front
  /-- A request is answered under its id. -/
  named : ∀ id request response, .dispatched id request (some response) ∈ events →
    ∃ handle, response = Response.of id (dispatch peer request handle)
  /-- The responses written are those of the first requests dispatched, in order. -/
  answered : (responsesOf (writtenOf events)).map some <+: answersOf events
  /-- The events written are some of those accepted, by their numbers. -/
  sequenced : (eventsOf (writtenOf events)).Sublist (acceptedOf events) ∧
    (eventsOf (writtenOf events)).Pairwise fun a b => a.seq < b.seq

theorem eventsOf_prefix {a b : List ServerMessage} (h : a <+: b) :
    (eventsOf a).Sublist (eventsOf b) :=
  h.sublist.filterMap _

theorem run_orderly (version : String) (networkIntegration : NetworkIntegration)
    (peer : PeerCredentials) (as : List Action)
    (hok : Machine.Along step Orderly (start version networkIntegration peer) as) :
    Ordered peer (Machine.run step (start version networkIntegration peer) as).1
        (Machine.run step (start version networkIntegration peer) as).2 ∧
      (Machine.run step (start version networkIntegration peer) as).1.session.RefusedLast
        (queuedOf (Machine.run step (start version networkIntegration peer) as).2) ∧
      Numbering (Machine.run step (start version networkIntegration peer) as).1
        (acceptedOf (Machine.run step (start version networkIntegration peer) as).2) := by
  refine Machine.run_inv_of_steps Orderly
    (fun d events => Ordered peer d events ∧ d.session.RefusedLast (queuedOf events) ∧
     Numbering d (acceptedOf events))
    (fun d events a hok h => ?_) _ ?_ as fun as₁ a as₂ heq => hok.at_step as₁ a as₂ heq
  · obtain ⟨hordered, hlast, hnumbering⟩ := h
    refine ⟨step_ordered hordered (d.step_steps a), ?_, ?_⟩
    · rw [queuedOf_append]
      exact refusedLast_step hok hordered.unrefused hlast
    · rw [acceptedOf_append]
      refine hnumbering.step (fun hne => hok.1 ?_) (d.step_steps a)
      by_contra hno
      exact hne (seq_of_not_allocates (by simpa using hno))
  · refine ⟨ordered_start version networkIntegration peer, ?_, List.Pairwise.nil, ?_, ?_⟩
    · intro reason hreason
      cases hreason
    · intro e he
      cases he
    · intro envelope he
      cases he

/-- The first of what was queued is an ack, or a refusal and nothing else. -/
theorem Ordered.head (h : Ordered peer d events) {message : ServerMessage}
    {rest : List ServerMessage} (hqueued : queuedOf events = message :: rest) :
    (∃ ack, message = .helloAck ack) ∨ message.isRefusal = true ∧ rest = [] := by
  cases hacked : d.session.acked with
  | true =>
    obtain ⟨ack, rest', hfirst⟩ := h.greeting.first hacked
    rw [hqueued] at hfirst
    exact .inl ⟨ack, (List.cons.inj hfirst).1⟩
  | false =>
    rcases h.greeting.silent hacked with hnil | ⟨reason, -, hone⟩
    · rw [hqueued] at hnil
      cases hnil
    · rw [hqueued] at hone
      obtain ⟨rfl, rfl⟩ := List.cons.inj hone
      exact .inr ⟨rfl, rfl⟩

theorem Ordered.ack_of_dispatching (h : Ordered peer d events) {id : ℕ} {request : Request}
    (pc : d.session.dispatcher = .dispatching id request) :
    ∃ ack, .queued (.helloAck ack) ∈ events := by
  have hsound := h.greeting.sound
  rw [pc] at hsound
  have hacked : d.session.acked = true := by
    rw [IpcSession.acked, show d.session.helloDone = true from hsound]
    rfl
  obtain ⟨ack, rest, hfirst⟩ := h.greeting.first hacked
  have hmem : .helloAck ack ∈ queuedOf events := by
    rw [hfirst]
    exact List.mem_cons_self
  obtain ⟨e, he, heq⟩ := List.mem_filterMap.mp hmem
  cases e with
  | queued message =>
    obtain rfl : message = .helloAck ack := Option.some.inj heq
    exact ⟨ack, he⟩
  | _ => cases heq

/-- What the dispatcher does with a request it has read. -/
def Asked (s : IpcSession) : SessionEvent → Prop
  | .dispatched id request response =>
    s.dispatcher = .dispatching id request ∧
      ∀ r, response = some r → ∃ handle, r = Response.of id (dispatch s.peer request handle)
  | .handled request =>
    authorize (requiredRole request) s.peer = .ok () ∧ ∃ id, s.dispatcher = .dispatching id request
  | _ => True

theorem asked_of_mem (hstep : d.Steps d' emitted) : ∀ e ∈ emitted, Asked d.session e := by
  cases hstep with
  | publishes hstep => cases hstep <;> simp [Asked]
  | forwards hstep => cases hstep <;> simp [Asked]
  | writes hstep => cases hstep <;> simp [Asked]
  | dispatches hstep =>
    cases hstep with
    | panics id request pc =>
      intro e he
      rw [List.mem_singleton.mp he]
      refine ⟨pc, fun r hr => ?_⟩
      cases hr
    | answers id request handle asked pc authorized =>
      intro e he
      rcases List.mem_append.mp he with he | he
      · rcases authorized with rfl | ⟨hauthorized, rfl⟩
        · cases he
        · rw [List.mem_singleton.mp he]
          exact ⟨hauthorized, id, pc⟩
      · rw [List.mem_singleton.mp he]
        refine ⟨pc, fun r hr => ⟨handle, ?_⟩⟩
        exact (Option.some.inj hr).symm
    | _ => simp [Asked]

/-- **Where a request is dispatched**: the peer is the session's, and the ack is queued. -/
theorem asked_of_run (version : String) (networkIntegration : NetworkIntegration)
    (peer : PeerCredentials) (as : List Action) {front rest : List SessionEvent} {e : SessionEvent}
    (heq : (Machine.run step (start version networkIntegration peer) as).2 = front ++ e :: rest) :
    ∃ s : IpcSession, s.peer = peer ∧ Asked s e ∧
      ∀ id request, s.dispatcher = .dispatching id request →
        ∃ ack, .queued (.helloAck ack) ∈ front := by
  obtain ⟨as₁, a, as₂, u, v, -, hemitted, hfront, -⟩ :=
    Machine.exists_step_of_eq_append _ as front rest e heq
  have hordered := run_ordered version networkIntegration peer as₁
  refine ⟨_, hordered.peer, asked_of_mem (step_steps _ a) e ?_, fun id request pc => ?_⟩
  · rw [hemitted]
    exact List.mem_append_right _ List.mem_cons_self
  · obtain ⟨ack, hack⟩ := hordered.ack_of_dispatching pc
    exact ⟨ack, by rw [hfront]; exact List.mem_append_left _ hack⟩

/-- **The frames of a session are in order.** -/
theorem session_order (version : String) (networkIntegration : NetworkIntegration)
    (peer : PeerCredentials) (as : List Action)
    (hok : Machine.Along step Orderly (start version networkIntegration peer) as) :
    SessionOrder peer (requestsRead (start version networkIntegration peer) as)
      (Machine.run step (start version networkIntegration peer) as).2 := by
  obtain ⟨hordered, hlast, hnumbering⟩ := run_orderly version networkIntegration peer as hok
  have hasking : Asking (start version networkIntegration peer) [] [] := ⟨[], rfl, rfl⟩
  obtain ⟨undone, hrequests, hundone⟩ := hasking.run as
  rw [List.nil_append, List.nil_append] at hrequests
  rw [hrequests]
  have hasked := fun front e rest => @asked_of_run version networkIntegration peer as front rest e
  generalize Machine.run step (start version networkIntegration peer) as = r at *
  obtain ⟨d, events⟩ := r
  obtain ⟨rest, hqueued⟩ := hordered.piping.begun
  have hevents := eventsOf_prefix hordered.piping.begun
  refine ⟨?_, ?_, ?_, ?_, ⟨undone, rfl, hundone.length_le⟩, ?_, ?_, ?_, ?_⟩
  · intro message tail hwritten
    rw [hwritten] at hqueued
    exact (hordered.head hqueued.symm).imp_right And.left
  · intro front error tail hwritten
    rw [hwritten] at hqueued
    have hmem : .helloError error ∈ queuedOf events := by
      rw [← hqueued]
      simp
    cases hrefused : d.session.dispatcher.refused with
    | none => cases hordered.unrefused hrefused _ hmem
    | some reason =>
      obtain ⟨front', hall, hclear⟩ := hlast reason hrefused
      rw [← hqueued, List.append_assoc] at hall
      rcases (tail ++ rest).eq_nil_or_concat with hnil | ⟨init, last, hconcat⟩
      · exact (List.append_eq_nil_iff.mp hnil).1
      · -- the only refusal is the last message
        rw [List.cons_append, hconcat, List.concat_eq_append, ← List.cons_append,
          ← List.append_assoc] at hall
        have hfront : front ++ .helloError error :: init = front' := List.append_inj_left' hall rfl
        have hfalse := hclear (.helloError error) (by rw [← hfront]; simp)
        cases hfalse
  · intro front envelope tail hwritten
    rw [hwritten] at hqueued
    cases front with
    | nil =>
      rcases hordered.head hqueued.symm with ⟨ack, hack⟩ | ⟨hrefusal, -⟩
      · cases hack
      · cases hrefusal
    | cons message front =>
      rcases hordered.head hqueued.symm with ⟨ack, rfl⟩ | ⟨-, hnone⟩
      · exact ⟨ack, List.mem_cons_self⟩
      · simp at hnone
  · intro front id request response tail heq
    obtain ⟨s, -, ⟨pc, -⟩, hack⟩ := hasked front _ tail heq
    exact hack id request pc
  · intro front request tail heq
    obtain ⟨s, hpeer, ⟨hauthorized, id, pc⟩, hack⟩ := hasked front _ tail heq
    rw [hpeer] at hauthorized
    exact ⟨hauthorized, hack id request pc⟩
  · intro id request response hmem
    obtain ⟨front, tail, heq⟩ := List.append_of_mem hmem
    obtain ⟨s, hpeer, ⟨-, hresponse⟩, -⟩ := hasked front _ tail heq
    rw [← hpeer]
    exact hresponse response rfl
  · refine List.IsPrefix.trans ?_ hordered.answering.begun
    exact (hordered.piping.begun.filterMap _).map some
  · have hsublist : (eventsOf (writtenOf events)).Sublist (acceptedOf events) := by
      refine hevents.trans (List.Sublist.trans ?_ hordered.delivering)
      rw [List.append_assoc]
      exact List.sublist_append_left _ _
    exact ⟨hsublist, hnumbering.sorted.sublist hsublist⟩

/-! ## A second hello -/

/-- A handshake, a request, an event on the bus, and a second hello. -/
def secondHello : List Action :=
  [.advance, .advance, .read (.hello 1 ⟨"cli", "1", .cli⟩), .advance, .advance, .advance, .advance,
   .advance, .read (.request 7 (.ping "a")), .handled (.ok (.pong "a")), .advance, .advance,
   .advance, .notice .info "", .publish, .read (.hello 1 ⟨"cli", "1", .cli⟩)]

/-- The second hello is refused; nothing is forwarded after it. -/
def refusedHello : List Action := secondHello ++ .advance :: .replicate 8 (.write true)

/-- The second hello is refused, and the event is forwarded after it. -/
def overtakenHello : List Action :=
  secondHello ++ [.advance, .forward, .forward, .forward, .forward] ++ .replicate 11 (.write true)

/-- A second hello refused before the forwarder has taken the event. -/
theorem session_order_refused :
    SessionOrder ⟨1000, 1000, none⟩ (requestsRead (start "1" .auto ⟨1000, 1000, none⟩) refusedHello)
      (Machine.run step (start "1" .auto ⟨1000, 1000, none⟩) refusedHello).2 :=
  session_order "1" .auto ⟨1000, 1000, none⟩ refusedHello (by decide)

/-- **An event after the refusal**: the forwarder goes on with what is in its queue. -/
theorem late_event :
    ¬ ∀ (version : String) (networkIntegration : NetworkIntegration) (peer : PeerCredentials)
      (as : List Action),
      SessionOrder peer (requestsRead (start version networkIntegration peer) as)
        (Machine.run step (start version networkIntegration peer) as).2 := by
  intro h
  have horder := (h "1" .auto ⟨1000, 1000, none⟩ overtakenHello).refused
    [.helloAck ⟨1, "1", 0⟩, .response (.ok 7 (.pong "a"))] ⟨1, "duplicate-hello"⟩
    [.event ⟨1, .notice .info ""⟩] rfl
  cases horder

end IpcServer

end ProtonWire
