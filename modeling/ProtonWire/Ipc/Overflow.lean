import ProtonWire.Ipc.EndToEnd

/-!
# An overflow, and what recovers from it

The schedules that lead a system into an overflow of its session's queue and out of it.

* `Leads`: prompt steps from a system to another, with the events that are lost on the way;
* `System.calm`: every thread between two of its turns;
* `leads_notices`, `leads_overflow`: notices fill the queue, and one more overflows it;
* **`leads_recovers`**: from a marked overflow the client comes to the newest number.
-/

namespace ProtonWire.EndToEnd

variable {w : System}

/-! ## Runs of prompt steps -/

instance (w : System) (a : Action) : Decidable (Prompt w a) :=
  match a with
  | .setVpnState _ | .notice .. => inferInstanceAs (Decidable (_ ≠ _))
  | .mark =>
    decidable_of_iff ((match w.server.core.emitter with | .marking => true | _ => false) = true →
        w.server.session.queue.isEmpty = false ∨ works w.server.session.forwarder = true)
      (by cases hemitter : w.server.core.emitter <;> simp [Prompt, hemitter])
  | .clientRead =>
    decidable_of_iff (∀ envelope ∈ w.client.pendingEvents.head?,
        pendingEventsCap ≤ w.client.pendingEvents.length → envelope.seq ≠ eventSeqResyncNow)
      (by cases hpending : w.client.pendingEvents <;> simp [Prompt, hpending])
  | .publish | .advance | .read | .handled | .forward | .write | .nextEvent | .go | .clientWrite =>
    isTrue trivial

/-- The number of an event that its session's queue had no room for. -/
def lost : SessionEvent → Option Word64
  | .dropped envelope => some envelope.seq
  | _ => none

/-- Prompt steps lead from a system to another, and lose the events of some numbers. -/
def Leads (w : System) (as : List Action) (numbers : List Word64) (w' : System) : Prop :=
  (Machine.run System.step w as).1 = w' ∧
  (Machine.run System.step w as).2.filterMap lost = numbers ∧
    Machine.Along System.step Prompt w as

theorem Leads.append {w w' w'' : System} {as bs : List Action} {numbers more : List Word64}
    (h : Leads w as numbers w') (h' : Leads w' bs more w'') :
    Leads w (as ++ bs) (numbers ++ more) w'' := by
  obtain ⟨rfl, rfl, hprompt⟩ := h
  obtain ⟨rfl, rfl, hprompt'⟩ := h'
  refine ⟨?_, ?_, Machine.along_append.mpr ⟨hprompt, hprompt'⟩⟩
  · rw [Machine.run_append]
  · rw [Machine.run_append, List.filterMap_append]

/-- Some steps, again and again. -/
def times (n : ℕ) (steps : List Action) : List Action := (List.replicate n steps).flatten

theorem times_succ (n : ℕ) (steps : List Action) :
    times (n + 1) steps = steps ++ times n steps := by
  rw [times, times, List.replicate_succ, List.flatten_cons]

/-! ## Between two turns -/

/-- The counter of the write window, with some messages in the channel and none elsewhere. -/
def counted : List ServerMessage → Word64
  | [] => 0
  | _ :: rest => counted rest + 1

theorem counted_append (channel : List ServerMessage) (message : ServerMessage) :
    counted (channel ++ [message]) = counted channel + 1 := by
  induction channel with
  | nil => rfl
  | cons first rest ih => exact congrArg (· + 1) ih

theorem counted_cons_sub (message : ServerMessage) (rest : List ServerMessage) :
    counted (message :: rest) - 1 = counted rest := add_sub_cancel_right ..

/-- Past the handshake, every thread between two of its turns. -/
def System.calm (w : System) (seq : Word64) (overflowed : Bool) (queue : List EventEnvelope)
    (channel frames : List ServerMessage) (lastSeq : Option Word64) (nextId : ℕ) : System where
  server :=
    { core := { w.server.core with seq := seq, emitter := .free }
      session :=
        { peer := w.server.session.peer, subscribed := true, queue := queue, overflowed := overflowed
          gateAlive := true, gate := none, channel := channel, receiverAlive := true
          unwritten := counted channel, writerGone := false, helloDone := true
          clientInfo := w.server.session.clientInfo, dispatcher := .reading
          forwarder := .receiving protocolVersion, writer := .receiving } }
  client :=
    { w.client with
        pc := .polling, nextId := nextId, pendingEvents := [], unreportedDrops := 0
        poisoned := false, lastSeq := lastSeq, helloSeq := 0 }
  requests := []
  frames := frames

/-- With nothing queued, every thread waits for another. -/
theorem calm_parked {seq : Word64} {lastSeq : Option Word64} {nextId : ℕ} :
    Parked (w.calm seq false [] [] [] lastSeq nextId) := by
  intro a hbegins
  cases a with
  | setVpnState to_ => cases hbegins
  | notice level message => cases hbegins
  | _ => rfl

/-- The notices that the core publishes from a number on. -/
def notices : Word64 → ℕ → List EventEnvelope
  | _, 0 => []
  | first, n + 1 => ⟨first, .notice .info ""⟩ :: notices (first + 1) n

theorem length_notices (first : Word64) (n : ℕ) : (notices first n).length = n := by
  induction n generalizing first with
  | zero => rfl
  | succ n ih => exact congrArg (· + 1) (ih (first + 1))

theorem eventReaches_of_mem_notices {first : Word64} {n : ℕ} {envelope : EventEnvelope}
    (h : envelope ∈ notices first n) : eventReaches protocolVersion envelope.event = true := by
  induction n generalizing first with
  | zero => cases h
  | succ n ih =>
    rcases List.mem_cons.mp h with rfl | h
    · rfl
    · exact ih h

theorem seq_le_of_mem_notices {first : Word64} {n : ℕ} (hn : first.val + n < 2 ^ 64)
    {envelope : EventEnvelope}
    (h : envelope ∈ notices first n) : envelope.seq.val < first.val + n := by
  induction n generalizing first with
  | zero => cases h
  | succ n ih =>
    rcases List.mem_cons.mp h with rfl | h
    · show first.val < _
      omega
    · have hval : (first + 1).val = first.val + 1 := Fin.val_add_one_of_lt' (by omega)
      have := ih (by omega) h
      omega

section
variable {queue rest : List EventEnvelope} {channel frames : List ServerMessage} {seq last : Word64}
  {lastSeq : Option Word64} {nextId : ℕ}

theorem val_add_one (hseq : seq.val < eventSeqResyncNow.val) : (seq + 1).val = seq.val + 1 :=
  Fin.val_add_one_of_lt' (by simp only [eventSeqResyncNow, Word64.maxValue] at hseq; omega)

theorem add_one_ne_resync (hseq : seq.val + 1 < eventSeqResyncNow.val) :
    seq + 1 ≠ eventSeqResyncNow := by
  intro heq
  have hval := congrArg Fin.val heq
  rw [val_add_one (by omega)] at hval
  omega

/-! ## Turns -/

theorem leads_notice (hroom : queue.length < sessionQueueLen)
    (hseq : seq.val + 1 < eventSeqResyncNow.val) :
    Leads (w.calm seq false queue [] [] none 0) [.notice .info "", .publish] []
      (w.calm (seq + 1) false (queue ++ [⟨seq + 1, .notice .info ""⟩]) [] [] none 0) := by
  have hpublish : ((w.calm seq false queue [] [] none 0).step (.notice .info "")).1.step .publish =
      (w.calm (seq + 1) false (queue ++ [⟨seq + 1, .notice .info ""⟩]) [] [] none 0,
        [.accepted ⟨seq + 1, .notice .info ""⟩]) := by
    simp [System.step, System.serve, System.calm, IpcServer.step, IpcServer.emit, IpcServer.publish,
      DaemonCore.notice, DaemonCore.emitLocked, hroom, writtenOf]
  refine ⟨?_, ?_, add_one_ne_resync hseq, trivial, trivial⟩
  · rw [Machine.run_cons, Machine.run_cons, hpublish]
    rfl
  · rw [Machine.run_cons, Machine.run_cons, hpublish]
    rfl

/-- One more overflows the queue. -/
theorem leads_overflow (hqueue : queue.length = sessionQueueLen)
    (hseq : seq.val + 1 < eventSeqResyncNow.val) :
    Leads (w.calm seq false queue [] [] none 0) [.notice .info "", .publish, .mark] [seq + 1]
      (w.calm (seq + 1) true queue [] [] none 0) := by
  have hpublish : ((w.calm seq false queue [] [] none 0).step (.notice .info "")).1.step .publish =
      ({ w.calm (seq + 1) false queue [] [] none 0 with
          server :=
            { core := { w.server.core with seq := seq + 1, emitter := .marking }
              session := (w.calm (seq + 1) false queue [] [] none 0).server.session } },
        [.dropped ⟨seq + 1, .notice .info ""⟩]) := by
    simp [System.step, System.serve, System.calm, IpcServer.step, IpcServer.emit, IpcServer.publish,
      DaemonCore.notice, DaemonCore.emitLocked, hqueue, writtenOf]
  refine ⟨?_, ?_, add_one_ne_resync hseq, trivial, ?_, trivial⟩
  · rw [Machine.run_cons, Machine.run_cons, hpublish]
    rfl
  · rw [Machine.run_cons, Machine.run_cons, hpublish]
    rfl
  · rw [hpublish]
    refine fun _ => .inl (List.ne_nil_of_length_pos ?_)
    show 0 < queue.length
    rw [hqueue]
    decide

theorem leads_forward_one {envelope : EventEnvelope} (hroom : channel.length < sessionQueueLen)
    (hreaches : eventReaches protocolVersion envelope.event = true) :
    Leads (w.calm seq false (envelope :: rest) channel frames lastSeq nextId)
    (times 4 [.forward]) []
      (w.calm seq false rest (channel ++ [.event envelope]) frames lastSeq nextId) := by
  refine ⟨?_, ?_, by simp [times, Machine.Along, Prompt]⟩
  all_goals
    simp [times, Machine.run, System.step, System.serve, System.calm, IpcServer.step,
      IpcSession.forward, IpcSession.reserve, IpcSession.send, hreaches, hroom, Forwarded.pc,
      Forwarded.envelope, writtenOf, counted_append, lost]

theorem leads_write_one {message : ServerMessage} :
    Leads (w.calm seq false queue (message :: channel) frames lastSeq nextId) (times 3 [.write]) []
      (w.calm seq false queue channel (frames ++ [message]) lastSeq nextId) := by
  refine ⟨?_, ?_, by simp [times, Machine.Along, Prompt]⟩
  all_goals
    simp [times, Machine.run, System.step, System.serve, System.calm, IpcServer.step,
      IpcSession.write, IpcSession.release, writtenOf, counted_cons_sub, lost]

theorem leads_skip_one {envelope : EventEnvelope} (hlast : last.val < eventSeqResyncNow.val)
    (hskipped : envelope.seq ≤ last) :
    Leads (w.calm seq false queue [] (.event envelope :: frames) (some last) nextId)
    [.clientRead, .go] []
      (w.calm seq false queue [] frames (some last) nextId) := by
  have hverdict : verdict (some last) 0 envelope.seq = .skip := by
    have hnext : ∃ expected, last.checkedAddOne = some expected := by
      rw [← Option.ne_none_iff_exists']
      intro hnone
      rw [Word64.checkedAddOne_eq_none] at hnone
      simp [hnone, eventSeqResyncNow] at hlast
    obtain ⟨expected, hexpected⟩ := hnext
    have hval := Word64.checkedAddOne_eq_some.mp hexpected
    have hle : envelope.seq.val ≤ last.val := hskipped
    have hmarker : envelope.seq ≠ eventSeqResyncNow := fun heq => by rw [heq] at hle; omega
    have hahead : ¬ expected < envelope.seq := by rw [Fin.lt_def]; omega
    have hbehind : envelope.seq < expected := by rw [Fin.lt_def]; omega
    simp only [verdict, if_neg hmarker, hexpected, if_neg hahead, if_pos hbehind]
  refine ⟨?_, ?_, by simp [Machine.Along, Prompt, System.calm]⟩
  all_goals
    simp [Machine.run, System.step, System.act, System.calm, System.clientRead, reads,
      ProtonwireClient.step, ProtonwireClient.onRead, ProtonwireClient.poll,
      ProtonwireClient.receive, hverdict, ProtonwireClient.takePending, sentOf, lost]

/-! ## An overflow -/

/-- Notices fill the queue. -/
theorem leads_notices {n : ℕ} {seq' : Word64} (hroom : queue.length + n ≤ sessionQueueLen)
    (hseq : seq'.val = seq.val + n) (hlast : seq'.val < eventSeqResyncNow.val) :
    Leads (w.calm seq false queue [] [] none 0) (times n [.notice .info "", .publish]) []
      (w.calm seq' false (queue ++ notices (seq + 1) n) [] [] none 0) := by
  induction n generalizing seq queue with
  | zero =>
    obtain rfl : seq' = seq := Fin.ext hseq
    rw [notices, List.append_nil]
    exact ⟨rfl, rfl, trivial⟩
  | succ n ih =>
    have hval : (seq + 1).val = seq.val + 1 := val_add_one (by omega)
    have hroom' : (queue ++ [(⟨seq + 1, .notice .info ""⟩ : EventEnvelope)]).length + n ≤
      sessionQueueLen := by
      rw [List.length_append, List.length_singleton]
      omega
    rw [times_succ, notices, List.append_cons]
    exact (leads_notice (by omega) (by omega)).append (ih hroom' (by omega))

theorem leads_forward (hroom : channel.length + queue.length ≤ sessionQueueLen)
    (hreaches : ∀ envelope ∈ queue, eventReaches protocolVersion envelope.event = true) :
    Leads (w.calm seq false queue channel frames lastSeq nextId)
    (times queue.length (times 4 [.forward])) []
      (w.calm seq false [] (channel ++ queue.map .event) frames lastSeq nextId) := by
  induction queue generalizing channel with
  | nil => exact ⟨by rw [List.map_nil, List.append_nil]; rfl, rfl, trivial⟩
  | cons envelope queue ih =>
    rw [List.length_cons] at hroom ⊢
    rw [times_succ, List.map_cons, List.append_cons]
    refine (leads_forward_one (by omega) (hreaches envelope List.mem_cons_self)).append
      (ih ?_ fun e he => hreaches e (List.mem_cons_of_mem _ he))
    rw [List.length_append, List.length_singleton]
    omega

theorem leads_write :
    Leads (w.calm seq false queue channel frames lastSeq nextId)
    (times channel.length (times 3 [.write])) []
      (w.calm seq false queue [] (frames ++ channel) lastSeq nextId) := by
  induction channel generalizing frames with
  | nil => exact ⟨by rw [List.append_nil]; rfl, rfl, trivial⟩
  | cons message channel ih =>
    rw [List.length_cons, times_succ, List.append_cons]
    exact leads_write_one.append ih

theorem leads_skip (hlast : last.val < eventSeqResyncNow.val) {skipped : List EventEnvelope}
    (hskipped : ∀ envelope ∈ skipped, envelope.seq ≤ last) :
    Leads (w.calm seq false queue [] (skipped.map .event) (some last) nextId)
      (times skipped.length [.clientRead, .go]) []
      (w.calm seq false queue [] [] (some last) nextId) := by
  induction skipped with
  | nil => exact ⟨rfl, rfl, trivial⟩
  | cons envelope skipped ih =>
    rw [List.length_cons, times_succ, List.map_cons]
    exact (leads_skip_one hlast (hskipped envelope List.mem_cons_self)).append
      (ih fun e he => hskipped e (List.mem_cons_of_mem _ he))

/-- The forwarder queues an event, finds the mark, and queues the marker. -/
theorem leads_marker {envelope : EventEnvelope}
    (hreaches : eventReaches protocolVersion envelope.event = true) :
    Leads (w.calm seq true (envelope :: rest) [] frames lastSeq nextId) (times 6 [.forward]) []
      (w.calm seq false rest [.event envelope, .event resyncMarker] frames lastSeq nextId) := by
  have hmarker : resyncMarkerReaches protocolVersion = true := by decide
  refine ⟨?_, ?_, by simp [times, Machine.Along, Prompt]⟩
  all_goals
    simp [times, Machine.run, System.step, System.serve, System.calm, IpcServer.step,
      IpcSession.forward, IpcSession.reserve, IpcSession.send, hreaches, hmarker, sessionQueueLen,
      Forwarded.pc, Forwarded.envelope, writtenOf, counted, lost]

theorem leads_first {event : DaemonEvent} :
    Leads (w.calm seq false queue [] (.event ⟨1, event⟩ :: frames) none nextId)
    [.clientRead, .nextEvent, .go] []
      (w.calm seq false queue [] frames (some 1) nextId) := by
  have hverdict : verdict none 0 1 = .deliver := by decide
  refine ⟨?_, ?_, by simp [Machine.Along, Prompt, System.calm]⟩
  all_goals
    simp [Machine.run, System.step, System.act, System.calm, System.clientRead, reads,
      ProtonwireClient.step, ProtonwireClient.onRead, ProtonwireClient.poll,
      ProtonwireClient.receive, hverdict, ProtonwireClient.takePending, sentOf, lost]

/-- The client waits for the state. -/
def System.awaits (w : System) (nextId : ℕ) : System :=
  { w with client := { w.client with pc := .awaiting (.resynchronize none) nextId } }

/-- The answer to a request for the state. -/
def stateAnswer (w : System) (seq : Word64) (nextId : ℕ) : ServerMessage :=
  .response (.ok nextId (.state { w.server.core with seq := seq }.state))

/-- A marker comes to the client, which asks for the state. -/
def asks : List Action := [.clientRead, .clientWrite, .read, .handled] ++ times 3 [.advance]

/-- The state comes to the client. -/
def resumes : List Action := times 3 [.write] ++ [.clientRead, .nextEvent, .go]

theorem leads_asks (hclient : w.server.session.clientInfo.isSome = true) :
    Leads (w.calm seq false queue [] [.event resyncMarker] (some last) nextId) asks []
      ((w.calm seq false queue [stateAnswer w seq nextId] [] (some last) (nextId + 1)).awaits
       nextId) := by
  have hverdict : verdict (some last) 0 eventSeqResyncNow = .resynchronize none := by simp [verdict]
  have hanswer : ∀ result, Response.of nextId
    (dispatch w.server.session.peer .getState (.ok result)) =
      .ok nextId result := fun _ => rfl
  have hwindow : ¬ maxUnwrittenMessages ≤ 1 := by decide
  obtain ⟨info, hinfo⟩ := Option.isSome_iff_exists.mp hclient
  refine ⟨?_, ?_, ?_⟩
  all_goals
    simp [asks, times, Machine.run, Machine.Along, Prompt, System.calm, System.awaits, System.step,
      System.act, System.serve, System.clientRead, System.read, System.handled, reads,
      ProtonwireClient.step, ProtonwireClient.onRead, ProtonwireClient.poll,
      ProtonwireClient.receive, ProtonwireClient.startRequest, ProtonwireClient.onWrite,
      IpcServer.step, IpcSession.onMessage, IpcSession.onHandled, IpcSession.advance,
      IpcSession.onTop, IpcSession.isExhausted, IpcSession.send, IpcSession.reserve, Afterwards.pc,
      authorize, requiredRole, DaemonCore.state, resyncMarker, stateAnswer, hverdict, hanswer,
      hwindow, hinfo, sentOf, writtenOf, counted, sessionQueueLen, lost]

theorem leads_resumes (hseq : last ≤ seq) :
    Leads ((w.calm seq false queue [stateAnswer w seq nextId] [] (some last) (nextId + 1)).awaits
      nextId) resumes []
      (w.calm seq false queue [] [] (some seq) (nextId + 1)) := by
  have hcursor : resumeCursor none (some last) (some seq) = seq := by simp [resumeCursor, hseq]
  refine ⟨?_, ?_, ?_⟩
  all_goals
    simp [resumes, times, Machine.run, Machine.Along, Prompt, System.calm, System.awaits,
      System.step, System.act, System.serve, System.clientRead, reads, ProtonwireClient.step,
      ProtonwireClient.onRead, ProtonwireClient.correlate, ProtonwireClient.conclude,
      ProtonwireClient.resume, ProtonwireClient.takePending, IpcServer.step, IpcSession.write,
      IpcSession.release, DaemonCore.state, stateAnswer, Response.id, hcursor, sentOf, writtenOf,
      counted, lost]

/-- The first event and the marker come to the client, which asks for the state; and `n` more events
come after it. -/
def recovers (n : ℕ) : List Action :=
  times 6 [.forward] ++ times 2 (times 3 [.write]) ++ [.clientRead, .nextEvent, .go] ++ asks ++
    resumes ++ times n (times 4 [.forward]) ++ times n (times 3 [.write]) ++
    times n [.clientRead, .go]

/-- **From a marked overflow the client comes to the newest number**, with no step but those of the
four threads. -/
theorem leads_recovers {event : DaemonEvent} (hclient : w.server.session.clientInfo.isSome = true)
    (hseq : 1 ≤ seq ∧ seq.val < eventSeqResyncNow.val) (hroom : rest.length ≤ sessionQueueLen)
    (hevent : eventReaches protocolVersion event = true)
    (hreaches : ∀ envelope ∈ rest, eventReaches protocolVersion envelope.event = true)
    (hskipped : ∀ envelope ∈ rest, envelope.seq ≤ seq) :
    Leads (w.calm seq true (⟨1, event⟩ :: rest) [] [] none 0) (recovers rest.length) []
      (w.calm seq false [] [] [] (some seq) 1) := by
  have hmarker : Leads (w.calm seq true (⟨1, event⟩ :: rest) [] [] none 0) (times 6 [.forward]) []
      (w.calm seq false rest [.event ⟨1, event⟩, .event resyncMarker] [] none 0) :=
      leads_marker hevent
  have hwritten : Leads (w.calm seq true (⟨1, event⟩ :: rest) [] [] none 0)
      (times 6 [.forward] ++ times 2 (times 3 [.write])) []
      (w.calm seq false rest [] [.event ⟨1, event⟩, .event resyncMarker] none 0) :=
      hmarker.append leads_write
  have hresumed := ((hwritten.append leads_first).append (leads_asks hclient)).append
    (leads_resumes hseq.1)
  have hforward : Leads (w.calm seq false rest [] [] (some seq) 1)
    (times rest.length (times 4 [.forward])) []
      (w.calm seq false [] (rest.map .event) [] (some seq) 1) :=
      leads_forward (by simpa using hroom) hreaches
  have hwrite : Leads (w.calm seq false [] (rest.map .event) [] (some seq) 1)
      (times rest.length (times 3 [.write])) []
      (w.calm seq false [] [] (rest.map .event) (some seq) 1) := by
    rw [← List.length_map ServerMessage.event]
    exact leads_write
  exact ((hresumed.append hforward).append hwrite).append (leads_skip hseq.2 hskipped)

end

end ProtonWire.EndToEnd
