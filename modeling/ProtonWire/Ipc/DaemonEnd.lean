import ProtonWire.Ipc.EndToEnd

/-!
# The daemon's end

What the steps of the daemon's threads do to the feed that a system shows.

* `Shows.publishes`: the core publishes, and marks what it could not queue;
* `Shows.forwards`, `Shows.writes`: the forwarder and the writer;
* `Shows.advances`, `Shows.listens`: the dispatcher;
* `Shows.handles`: the snapshot is taken.
-/

namespace ProtonWire.EndToEnd

open Resync

variable {w : System} {events : List SessionEvent} {f : Feed}

theorem Shows.of_publication (h : Shows w events f) {d' : IpcServer} {emitted : List SessionEvent}
    (hstep : w.server.Publishes d' emitted) {w' : System} (hw : w' = { w with server := d' }) :
    w'.messages = w.messages ∧ Phase w' f.stage := by
  subst hw
  have halike := hstep.alike
  have hmessages : System.messages { w with server := d' } = w.messages := by
    simp only [System.messages, halike.writer, halike.channel]
  refine ⟨hmessages, h.phase.of_session [] rfl rfl halike.dispatcher
    (by rw [hmessages, List.append_nil]) rfl
    ?_ ?_⟩
  · intro hclosed
    exact ⟨⟨by rw [halike.helloDone, hclosed.helloDone], by rw [halike.gate, hclosed.gate],
      by rw [halike.forwarder, hclosed.forwarder]⟩, rfl⟩
  · intro hopened
    exact ⟨by rw [halike.helloDone, hopened.helloDone], by rw [halike.clientInfo, hopened.client],
      by rw [halike.forwarder, halike.gate]; exact hopened.forwarder⟩

theorem item_of_ne {envelope : EventEnvelope} (h : envelope.seq ≠ eventSeqResyncNow) :
    item envelope = .event envelope.seq.val := if_neg h

theorem item_resyncMarker : item resyncMarker = .marker := rfl

theorem Shows.unfinished_eq (h : Shows w events f) {n : ℕ}
    (hn : unfinished w.server.core.emitter = n) :
    w.server.core.seq.val = f.published + n := hn ▸ h.number

/-- What is lost is owed to the client, or a marker is on its way. -/
theorem Shows.loses (h : Shows w events f)
    (hmark : w.server.session.queue ≠ [] ∨ works w.server.session.forwarder = true) :
    ∃ owed : Bool, (owed = true ∨ .marker ∈ f.line) ∧
      (owed = true → w.server.session.queue ≠ [] ∨ looks w.server.session.forwarder = true) := by
  by_cases hlooks : w.server.session.queue ≠ [] ∨ looks w.server.session.forwarder = true
  · exact ⟨true, .inl rfl, fun _ => hlooks⟩
  · -- the forwarder has a marker in hand
    refine ⟨false, .inr ?_, by simp⟩
    rw [not_or] at hlooks
    obtain hqueue | hworks := hmark
    · exact absurd hqueue hlooks.1
    · have hhand : inHand w.server.session.forwarder = [resyncMarker] := by
        cases hpc : w.server.session.forwarder with
        | reserving v forwarded =>
          cases forwarded <;> simp [hpc, looks, inHand, Forwarded.envelope] at hlooks ⊢
        | sending v forwarded =>
          cases forwarded <;> simp [hpc, looks, inHand, Forwarded.envelope] at hlooks ⊢
        | _ => simp [hpc, looks, works] at hlooks hworks
      rw [h.line, System.line, hhand]
      simp [item_resyncMarker]

/-- A publication goes on. -/
theorem Shows.publishes (h : Shows w events f) {d' : IpcServer} {emitted : List SessionEvent}
    (hstep : w.server.Publishes d' emitted) (hseq : d'.core.seq ≠ eventSeqResyncNow)
    (hmark : w.server.core.emitter = .marking → d'.core.emitter = .free →
      w.server.session.queue ≠ [] ∨ works w.server.session.forwarder = true) :
    ∃ f', Step f f' ∧ Shows { w with server := d' } (events ++ emitted) f' := by
  obtain ⟨hmessages, hphase⟩ := h.of_publication hstep rfl
  have hserving := h.serving
  cases hstep with
  | stays => exact ⟨f, .stays, by simpa using h⟩
  | emits core envelope free emitter seq stamped =>
    have hnumber := h.unfinished_eq (congrArg unfinished free)
    refine ⟨f, .stays, { h with
      number := ?_, below := hseq, publishing := ?_, marking := ?_, silent := ?_, phase := hphase }⟩
    · have hlt : w.server.core.seq.val + 1 < 2 ^ 64 := by
        have hne := h.below
        rw [Ne, Fin.ext_iff] at hne
        have := w.server.core.seq.isLt
        simp only [eventSeqResyncNow, Word64.maxValue] at hne
        omega
      rw [emitter, seq, Fin.val_add_one_of_lt' hlt, hnumber]
      rfl
    · intro envelope' hpublishing
      rw [emitter] at hpublishing
      cases hpublishing
      exact stamped
    · simp [emitter]
    · intro hsilent _
      rw [List.append_nil]
      exact h.silent hsilent (by simp [free])
  | accepts envelope emitter subscribed alive room =>
    have hnumber := h.unfinished_eq (congrArg unfinished emitter)
    have hstamped := h.publishing envelope emitter
    have hitem : item envelope = .event (f.published + 1) := by
      rw [item_of_ne (hstamped ▸ h.below), hstamped]
      exact congrArg Item.event hnumber
    refine ⟨_, .publish, { h with
      number := hnumber, line := ?_, owed := ?_, publishing := ?_, marking := ?_, marked :=
        ?_, absent := ?_,
      silent := ?_, serving := { hserving with }, phase := hphase }⟩
    · rintro _ ⟨⟩
    · rintro ⟨⟩
    · show f.line ++ [Item.event (f.published + 1)] = _
      rw [h.line, ← hitem]
      simp only [System.line, hmessages, List.map_append, List.map_cons, List.map_nil,
        List.append_assoc]
    · intro howed
      exact ⟨(h.owed howed).1, .inl (by simp)⟩
    · exact fun _ => rfl
    · intro habsent
      exact absurd habsent (by simp [subscribed])
    · intro hsilent
      cases hsilent
  | drops envelope emitter subscribed alive full =>
    have hnumber : w.server.core.seq.val = f.published + 1 := h.unfinished_eq (by rw [emitter]; rfl)
    refine ⟨f, .stays, { h with
      number := hnumber, publishing := ?_, marking := fun _ => subscribed, silent :=
        ?_, phase := hphase }⟩
    · rintro _ ⟨⟩
    · intro _ hnot
      exact absurd rfl hnot
  | forgets envelope emitter subscribed gone => exact absurd gone hserving.forwarder
  | misses envelope emitter unsubscribed =>
    have hsilent := h.absent unsubscribed
    have hnumber : w.server.core.seq.val = f.published + 1 := h.unfinished_eq (by rw [emitter]; rfl)
    refine ⟨_, .elsewhere hsilent, { h with
      number := hnumber, publishing := ?_, marking := ?_, silent := ?_, phase := hphase }⟩
    · rintro _ ⟨⟩
    · rintro ⟨⟩
    · intro _ _
      rw [List.append_nil]
      exact h.silent hsilent (by simp [emitter])
  | marks emitter =>
    have hsubscribed := h.marking emitter
    have hnumber : w.server.core.seq.val = f.published + 1 := h.unfinished_eq (by rw [emitter]; rfl)
    obtain ⟨owed, hnoticed, howed⟩ := h.loses (hmark emitter rfl)
    refine ⟨_, .lose owed hnoticed, { h with
      number := hnumber, publishing := ?_, marking := ?_, owed := fun h => ⟨rfl, howed h⟩, marked :=
        fun _ => rfl,
      absent := ?_, silent := ?_, serving := { hserving with }, phase := hphase }⟩
    · rintro _ ⟨⟩
    · rintro ⟨⟩
    · intro habsent
      exact absurd habsent (by simp [hsubscribed])
    · rintro ⟨⟩

theorem Shows.of_serves (h : Shows w events f) {w' : System} {f' : Feed}
    {emitted : List SessionEvent}
    (hcore : w'.server.core = w.server.core) (hclient : w'.client = w.client)
    (hemitted : publishedOf emitted = []) (hserving : Serving w'.server.session)
    (hsubscribed : w.server.session.subscribed = true → w'.server.session.subscribed = true)
    (hpublished : f'.published = f.published) (hheard : f'.heard = f.heard)
    (hcursor : f'.cursor = f.cursor) (hline : f'.line = w'.line)
    (howed : f'.owed = true → w'.server.session.overflowed = true ∧
      (w'.server.session.queue ≠ [] ∨ looks w'.server.session.forwarder = true))
    (hmarked : w'.server.session.overflowed = true → w.server.session.overflowed = true)
    (hphase : Phase w' f'.stage) : Shows w' (events ++ emitted) f' where
  number := by rw [hcore, hpublished, h.number]
  below := by rw [hcore]; exact h.below
  publishing := by rw [hcore]; exact h.publishing
  marking := by rw [hcore]; exact fun hmarking => hsubscribed (h.marking hmarking)
  line := hline
  cursor := by rw [hcursor, hclient, h.cursor]
  owed := howed
  marked hoverflowed := by rw [hheard]; exact h.marked (hmarked hoverflowed)
  absent habsent := by
    rw [hheard]
    refine h.absent ?_
    by_contra hsub
    exact absurd (hsubscribed (by simpa using hsub)) (by simp [habsent])
  silent := by
    rw [hheard, hcore]
    intro hsilent hnot
    rw [publishedOf, List.filterMap_append]
    exact List.append_eq_nil_iff.mpr ⟨h.silent hsilent hnot, hemitted⟩
  serving := hserving
  phase := hphase
  usable := by rw [hclient]; exact h.usable

theorem publishedOf_forwards {s s' : IpcSession} {emitted : List SessionEvent}
    (h : s.Forwards s' emitted) :
    publishedOf emitted = [] ∧ writtenOf emitted = [] := by
  cases h <;> exact ⟨rfl, rfl⟩

theorem Phase.of_forwarder {w' : System} {stage : Stage} (more : List ServerMessage)
    (h : Phase w stage) (hclient : w'.client = w.client) (hrequests : w'.requests = w.requests)
    (hdispatcher : w'.server.session.dispatcher = w.server.session.dispatcher)
    (hhello : w'.server.session.helloDone = w.server.session.helloDone)
    (hinfo : w'.server.session.clientInfo = w.server.session.clientInfo)
    (hmessages : w'.messages = w.messages ++ more) (hmore : talk more = [])
    (hopen : w.server.session.forwarder = .gate → w.server.session.gate ≠ none)
    (hforwarder : w'.server.session.forwarder ≠ .gate) : Phase w' stage := by
  refine h.of_session more hclient hrequests hdispatcher hmessages hmore ?_ ?_
  · intro hclosed
    exact absurd hclosed.gate (hopen hclosed.forwarder)
  · intro hopened
    exact ⟨by
      rw [hhello, hopened.helloDone], by
        rw [hinfo, hopened.client], fun hgate => absurd hgate hforwarder⟩

/-- The forwarder goes on. -/
theorem Shows.forwards (h : Shows w events f) {s' : IpcSession} {emitted : List SessionEvent}
    (hstep : w.server.session.Forwards s' emitted) (hserving : Serving s') :
    ∃ f', Step f f' ∧ Shows { w with server := { w.server with session := s' } }
      (events ++ emitted) f' := by
  have hversion := h.serving.version
  cases hstep with
  | stays => exact ⟨f, .stays, by simpa using h⟩
  | enters v pc gate =>
    refine ⟨f, .stays, h.of_serves rfl rfl rfl hserving id rfl rfl rfl ?_ ?_ id ?_⟩
    · rw [h.line, System.line, pc]
      rfl
    · intro howed
      have := h.owed howed
      rw [pc] at this
      exact this
    · exact h.phase.of_forwarder [] rfl rfl rfl rfl rfl (List.append_nil _).symm rfl
        (fun _ => by simp [gate]) (by simp)
  | turnsBack pc gate closed => simp [h.serving.gateAlive] at closed
  | receives v envelope rest pc queue reaches =>
    refine ⟨f, .stays, h.of_serves rfl rfl rfl hserving id rfl rfl rfl ?_ ?_ id ?_⟩
    · rw [h.line]
      simp only [System.line, System.messages, pc, queue, inHand, Forwarded.envelope, List.map_cons,
        List.map_nil, List.append_assoc, List.nil_append, List.cons_append]
    · exact fun howed => ⟨(h.owed howed).1, .inr rfl⟩
    · exact h.phase.of_forwarder [] rfl rfl rfl rfl rfl (List.append_nil _).symm rfl
        (by simp [pc]) (by simp)
  | withholds v envelope rest pc queue hidden =>
    have hv := hversion v (by rw [pc]; rfl)
    subst hv
    cases hevent : envelope.event <;> simp [hevent, eventReaches, m2EventsReach, protocolVersion,
      m2EventsIntroducedIn] at hidden
  | finishes v pc queue left =>
    have := h.serving.entered (by simp [pc])
    simp [this] at left
  | reserves v forwarded pc =>
    refine ⟨f, .stays, h.of_serves rfl rfl rfl hserving id rfl rfl rfl ?_ ?_ id ?_⟩
    · rw [h.line, System.line, pc]
      rfl
    · intro howed
      have := h.owed howed
      rw [pc] at this
      cases forwarded <;> exact this
    · exact h.phase.of_forwarder [] rfl rfl rfl rfl rfl (List.append_nil _).symm rfl
        (by simp [pc]) (by simp)
  | sends v forwarded pc alive room =>
    refine ⟨f, .stays, h.of_serves rfl rfl rfl hserving id rfl rfl rfl ?_ ?_ id ?_⟩
    · have hhand : inHand (.sending v forwarded) = [forwarded.envelope] := rfl
      have hsent : inHand (forwarded.pc v) = [] := by cases forwarded <;> rfl
      rw [h.line]
      simp only [System.line, System.messages, pc, hhand, hsent, eventItems_append,
        eventItems_event, List.append_assoc]
      rfl
    · intro howed
      have := h.owed howed
      rw [pc] at this
      cases forwarded <;> exact this
    · refine h.phase.of_forwarder [.event forwarded.envelope] rfl rfl rfl rfl rfl ?_ rfl
        (by simp [pc]) ?_
      · simp only [System.messages, List.append_assoc]
      · cases forwarded <;> simp [Forwarded.pc]
  | sendsNobody v forwarded pc dead => simp [h.serving.receiverAlive] at dead
  | signals v pc marked reaches =>
    refine ⟨_, .announce (w.client.pendingEvents.map item ++ eventItems w.messages)
      (w.server.session.queue.map item)
      ?_ (h.marked marked), h.of_serves rfl rfl rfl hserving id rfl rfl rfl ?_ ?_ ?_ ?_⟩
    · rw [h.line, System.line, pc]
      simp only [inHand, List.map_nil, List.append_nil]
    · simp only [System.line, System.messages, inHand, Forwarded.envelope, item_resyncMarker,
        List.map_cons, List.map_nil, List.append_assoc, List.cons_append, List.nil_append]
    · rintro ⟨⟩
    · rintro ⟨⟩
    · exact h.phase.of_forwarder [] rfl rfl rfl rfl rfl (List.append_nil _).symm rfl
        (by simp [pc]) (by simp)
  | resumes v pc unmarked =>
    have hv := hversion v (by rw [pc]; rfl)
    refine ⟨f, .stays, h.of_serves rfl rfl rfl hserving id rfl rfl rfl ?_ ?_ ?_ ?_⟩
    · rw [h.line, System.line, pc]
      rfl
    · intro howed
      simp [(h.owed howed).1, hv, resyncMarkerReaches, protocolVersion, resyncMarkerIntroducedIn]
        at unmarked
    · rintro ⟨⟩
    · exact h.phase.of_forwarder [] rfl rfl rfl rfl rfl (List.append_nil _).symm rfl
        (by simp [pc]) (by simp)

theorem Shows.writes (h : Shows w events f) :
    Shows (w.serve (.write true)).1 (events ++ (w.serve (.write true)).2) f := by
  obtain ⟨hserving, hframes⟩ := h.serving.write
  have hstep := w.server.session.write_writes true
  have hmessages : (w.serve (.write true)).1.messages = w.messages := by
    show (w.frames ++ writtenOf (w.server.session.write true).2) ++ _ ++ _ = w.frames ++ _ ++ _
    rw [List.append_assoc, List.append_assoc, ← List.append_assoc (writtenOf _),
      List.append_assoc w.frames, ← hframes]
    rfl
  have hline : (w.serve (.write true)).1.line =
      w.client.pendingEvents.map item ++ eventItems w.messages ++
        (inHand (w.server.session.write true).1.forwarder).map item ++
        (w.server.session.write true).1.queue.map item := by
    rw [← hmessages]
    rfl
  have hemitted : (w.serve (.write true)).2 = (w.server.session.write true).2 := rfl
  rw [hemitted]
  generalize (w.server.session.write true).2 = emitted at hstep ⊢
  generalize hs : (w.server.session.write true).1 = s' at hstep hline hserving
  have hsession : (w.serve (.write true)).1.server.session = s' := hs
  refine h.of_serves rfl rfl ?_ (by rwa [hsession]) ?_ rfl rfl rfl ?_ ?_ ?_ ?_
  · cases hstep <;> rfl
  · rw [hsession]
    cases hstep <;> exact id
  · rw [hline, h.line]
    cases hstep <;> rfl
  · rw [hsession]
    cases hstep <;> exact h.owed
  · rw [hsession]
    cases hstep <;> exact id
  · refine h.phase.of_session [] rfl rfl ?_ (by rw [hmessages, List.append_nil]) rfl ?_ ?_
    · rw [hsession]
      cases hstep <;> rfl
    · rw [hsession]
      rintro ⟨hhello, hgate, hforwarder⟩
      cases hstep <;> exact ⟨⟨hhello, hgate, hforwarder⟩, rfl⟩
    · rw [hsession]
      rintro ⟨hhello, hinfo, hforwarder⟩
      cases hstep <;> exact ⟨hhello, hinfo, hforwarder⟩

/-- What a step of the dispatcher keeps, and what it queues. -/
structure Keeps (s s' : IpcSession) (more : List ServerMessage) : Prop where
  queue : s'.queue = s.queue
  overflowed : s'.overflowed = s.overflowed
  forwarder : s'.forwarder = s.forwarder
  writer : s'.writer = s.writer
  channel : s'.channel = s.channel ++ more
  subscribed : s.subscribed = true → s'.subscribed = true

theorem Shows.of_dispatcher (h : Shows w events f) {s' : IpcSession} {emitted : List SessionEvent}
    {requests : List ClientMessage} {stage : Stage} {more : List ServerMessage}
    (hkeeps : Keeps w.server.session s' more) (hemitted : publishedOf emitted = [])
    (hevents : eventItems more = []) (hserving : Serving s')
    (hphase : Phase { w with server := { w.server with session := s' }, requests := requests }
     stage) :
    Shows { w with server := { w.server with session := s' }, requests := requests }
    (events ++ emitted)
      { f with stage := stage } := by
  refine h.of_serves rfl rfl hemitted hserving hkeeps.subscribed rfl rfl rfl ?_ ?_ ?_ hphase
  · show f.line = _
    rw [h.line]
    simp only [System.line, System.messages, hkeeps.queue, hkeeps.forwarder, hkeeps.writer,
      hkeeps.channel, eventItems_append, hevents, List.append_nil]
  · rw [hkeeps.overflowed, hkeeps.queue, hkeeps.forwarder]
    exact h.owed
  · rw [hkeeps.overflowed]
    exact id

theorem Shows.of_advance (h : Shows w events f) {s' : IpcSession} {emitted : List SessionEvent}
    {more : List ServerMessage}
    (hstep : w.server.session.advance w.server.core w.server.busFree = (s', emitted))
    (hemitted : writtenOf emitted = [] ∧ publishedOf emitted = [])
    (hkeeps : Keeps w.server.session s' more)
    (hevents : eventItems more = []) (hserving : Serving s')
    (hphase : Phase { w with server := { w.server with session := s' } } f.stage) :
    Shows (w.serve .advance).1 (events ++ (w.serve .advance).2) f := by
  have hserve : w.serve .advance = ({ w with server := { w.server with session := s' } },
    emitted) := by
    simp only [System.serve, IpcServer.step, hstep, hemitted.1, List.append_nil]
  rw [hserve]
  exact h.of_dispatcher hkeeps hemitted.2 hevents hserving hphase

theorem Shows.waits (h : Shows w events f)
    (hstep : w.server.session.advance w.server.core w.server.busFree = (w.server.session, [])) :
    Shows (w.serve .advance).1 (events ++ (w.serve .advance).2) f :=
  h.of_advance hstep ⟨rfl, rfl⟩ ⟨rfl, rfl, rfl, rfl, (List.append_nil _).symm,
    id⟩ rfl h.serving h.phase

theorem Shows.tops (h : Shows w events f) (hpc : w.server.session.dispatcher = .top) :
    Shows (w.serve .advance).1 (events ++ (w.serve .advance).2) f := by
  have hsubscribed : w.server.session.subscribed = true :=
    h.serving.subscribed.resolve_right (by simp [hpc])
  have hstep : w.server.session.advance w.server.core w.server.busFree =
    (w.server.session.onTop, []) := by
    rw [IpcSession.advance, hpc]
  by_cases hwaits : (w.server.session.helloDone && w.server.session.isExhausted) = true
  · refine h.waits ?_
    rw [hstep, IpcSession.onTop, if_pos hwaits, if_neg (by simp [h.serving.writerGone])]
  · rw [IpcSession.onTop, if_neg hwaits] at hstep
    refine h.of_advance hstep ⟨rfl, rfl⟩ ⟨rfl, rfl, rfl, rfl, (List.append_nil _).symm, id⟩ rfl
      (h.serving.goes hsubscribed (by rw [hpc]; rfl)) ?_
    refine h.phase.of_parts [] rfl rfl (List.append_nil _).symm rfl ?_ ?_ ?_ ?_ ?_ ?_
    · intro hready
      cases hready with
      | opening info pc closed => simp [hpc] at pc
      | top pc opened => exact .reading rfl ⟨opened.helloDone, opened.client, opened.forwarder⟩
      | reading pc opened => simp [hpc] at pc
    · exact fun closed _ => ⟨rfl, ⟨closed.helloDone, closed.gate, closed.forwarder⟩,
        .inr (.inr rfl)⟩
    · intro closed hgranting
      cases hgranting <;> simp_all
    · exact fun opened => ⟨opened.helloDone, opened.client, opened.forwarder⟩
    · simp [hpc]
    · simp [hpc]

/-- The session enters the bus. -/
theorem Shows.subscribes (h : Shows w events f) (hpc : w.server.session.dispatcher = .subscribing) :
    Shows (w.serve .advance).1 (events ++ (w.serve .advance).2) f := by
  cases hfree : w.server.busFree with
  | false =>
    refine h.waits ?_
    rw [IpcSession.advance, hpc, hfree]
    rfl
  | true =>
    have hserving := h.serving
    have hslots := hserving.counter
    rw [slots, hpc] at hslots
    have hstep : w.server.session.advance w.server.core w.server.busFree =
        ({ w.server.session with subscribed := true, dispatcher := .top }, []) := by
      rw [IpcSession.advance, hpc, hfree]
      rfl
    refine h.of_advance hstep ⟨rfl, rfl⟩ ⟨rfl, rfl, rfl, rfl, (List.append_nil _).symm,
      fun _ => rfl⟩ rfl
      { hserving with
        gate := fun v hv => ⟨(hserving.gate v hv).1, rfl⟩, subscribed := .inl rfl, entered :=
          fun _ => rfl,
        counter := hslots } ?_
    refine h.phase.of_parts [] rfl rfl (List.append_nil _).symm rfl ?_ ?_ ?_ ?_ ?_ ?_
    · intro hready
      cases hready <;> simp_all
    · exact fun closed _ => ⟨rfl, ⟨closed.helloDone, closed.gate, closed.forwarder⟩,
        .inr (.inl rfl)⟩
    · intro closed hgranting
      cases hgranting <;> simp_all
    · exact fun opened => ⟨opened.helloDone, opened.client, opened.forwarder⟩
    · simp [hpc]
    · simp [hpc]

/-- A message of the dispatcher's takes a slot. -/
theorem Shows.reserves (h : Shows w events f) {message : ServerMessage} {afterwards : Afterwards}
    (hpc : w.server.session.dispatcher = .reserving message afterwards) :
    Shows (w.serve .advance).1 (events ++ (w.serve .advance).2) f := by
  have hsubscribed : w.server.session.subscribed = true :=
    h.serving.subscribed.resolve_right (by simp [hpc])
  have hstep : w.server.session.advance w.server.core w.server.busFree =
      ({ w.server.session.reserve with dispatcher := .sending message afterwards },
       [.reserved message]) := by
    rw [IpcSession.advance, hpc]
  have hserving := h.serving
  refine h.of_advance hstep ⟨rfl, rfl⟩ ⟨rfl, rfl, rfl, rfl, (List.append_nil _).symm, id⟩ rfl
    { hserving with subscribed := .inl hsubscribed, counter := ?_ } ?_
  · show (w.server.session.unwritten + 1).val = _
    rw [hserving.reserve_val]
    simp only [slots, hpc, DispatcherPc.sends, IpcSession.reserve]
    omega
  · refine h.phase.of_parts [] rfl rfl (List.append_nil _).symm rfl ?_ ?_ ?_ ?_ ?_ ?_
    · intro hready
      cases hready <;> simp_all
    · intro closed hgreetable
      simp [Greetable, hpc] at hgreetable
    · intro closed hgranting
      refine ⟨rfl, ⟨closed.helloDone, closed.gate, closed.forwarder⟩, ?_⟩
      cases hgranting with
      | reserving info ack granted pc =>
        rw [hpc] at pc
        cases pc
        exact .sending info ack granted rfl
      | stamping info pc => simp [hpc] at pc
      | sending info ack granted pc => simp [hpc] at pc
    · exact fun opened => ⟨opened.helloDone, opened.client, opened.forwarder⟩
    · simp [hpc]
    · intro id state hsnapshot
      simp only [hpc, DispatcherPc.reserving.injEq, reduceCtorEq, or_false] at hsnapshot
      exact .inr (by rw [hsnapshot.1, hsnapshot.2])

theorem Shows.stamps (h : Shows w events f) {v : ℕ} {info : ClientInfo}
    (hpc : w.server.session.dispatcher = .stamping v info) :
    Shows (w.serve .advance).1 (events ++ (w.serve .advance).2) f := by
  have hsubscribed : w.server.session.subscribed = true :=
    h.serving.subscribed.resolve_right (by simp [hpc])
  have hstep : w.server.session.advance w.server.core w.server.busFree =
      ({ w.server.session with
        dispatcher :=
          .reserving (.helloAck ⟨v, w.server.core.version, w.server.core.latestEventSeq⟩)
          (.openGate v info) }, []) := by
    rw [IpcSession.advance, hpc]
  refine h.of_advance hstep ⟨rfl, rfl⟩ ⟨rfl, rfl, rfl, rfl, (List.append_nil _).symm, id⟩ rfl
    (h.serving.goes hsubscribed (by rw [hpc]; rfl)) ?_
  refine h.phase.of_parts [] rfl rfl (List.append_nil _).symm rfl ?_ ?_ ?_ ?_ ?_ ?_
  · intro hready
    cases hready <;> simp_all
  · intro closed hgreetable
    simp [Greetable, hpc] at hgreetable
  · intro closed hgranting
    refine ⟨rfl, ⟨closed.helloDone, closed.gate, closed.forwarder⟩, ?_⟩
    cases hgranting with
    | stamping info pc =>
      rw [hpc] at pc
      cases pc
      exact .reserving info _ rfl rfl
    | reserving info ack granted pc => simp [hpc] at pc
    | sending info ack granted pc => simp [hpc] at pc
  · exact fun opened => ⟨opened.helloDone, opened.client, opened.forwarder⟩
  · simp [hpc]
  · simp [hpc]

theorem Shows.opens (h : Shows w events f) {v : ℕ} {info : ClientInfo}
    (hpc : w.server.session.dispatcher = .opening v info) :
    Shows (w.serve .advance).1 (events ++ (w.serve .advance).2) f := by
  have hsubscribed : w.server.session.subscribed = true :=
    h.serving.subscribed.resolve_right (by simp [hpc])
  have hstep : w.server.session.advance w.server.core w.server.busFree =
      ({ w.server.session with
      gate := some v, clientInfo := some info, helloDone := true, dispatcher := .top }, []) := by
    rw [IpcSession.advance, hpc]
  have hready : Ready w.server.session := by
    obtain hready | ⟨-, hother⟩ | ⟨-, hother⟩ | ⟨-, id, hother⟩ | ⟨-, id, state, hother⟩ :=
      h.phase.dispatcher
    · exact hready
    · simp [Greetable, hpc] at hother
    · cases hother <;> simp_all
    · simp [hpc] at hother
    · simp [hpc] at hother
  have hv : v = protocolVersion := by
    cases hready with
    | opening info' pc closed =>
      rw [hpc] at pc
      cases pc
      rfl
    | top pc opened => simp [hpc] at pc
    | reading pc opened => simp [hpc] at pc
  have hserving := h.serving
  have hslots := hserving.counter
  rw [slots, hpc] at hslots
  refine h.of_advance hstep ⟨rfl, rfl⟩ ⟨rfl, rfl, rfl, rfl, (List.append_nil _).symm, id⟩ rfl
    { hserving with subscribed := .inl hsubscribed, counter := hslots, gate := ?_ } ?_
  · rintro _ ⟨⟩
    exact ⟨hv, hsubscribed⟩
  · refine h.phase.of_parts [] rfl rfl (List.append_nil _).symm rfl ?_ ?_ ?_ ?_ ?_ ?_
    · exact fun _ => .top rfl ⟨rfl, rfl, by simp⟩
    · intro closed hgreetable
      simp [Greetable, hpc] at hgreetable
    · intro closed hgranting
      cases hgranting <;> simp_all
    · exact fun _ => ⟨rfl, rfl, by simp⟩
    · simp [hpc]
    · simp [hpc]

theorem Shows.of_sends (h : Shows w events f) {message : ServerMessage} {afterwards : Afterwards}
    (hpc : w.server.session.dispatcher = .sending message afterwards)
    (hquiet : talk [message] = [message]) (hphase : Phase
      { w with server := { w.server with session := { w.server.session with
          channel := w.server.session.channel ++ [message], dispatcher :=
            afterwards.pc } } } f.stage) :
    Shows (w.serve .advance).1 (events ++ (w.serve .advance).2) f := by
  have hserving := h.serving
  have hsubscribed : w.server.session.subscribed = true :=
    h.serving.subscribed.resolve_right (by simp [hpc])
  by_cases hroom : w.server.session.channel.length < sessionQueueLen
  · have hstep : w.server.session.advance w.server.core w.server.busFree =
        ({ w.server.session with
          channel := w.server.session.channel ++ [message], dispatcher :=
            afterwards.pc }, [.queued message]) := by
      rw [IpcSession.advance, hpc]
      simp only [IpcSession.send]
      rw [if_pos hserving.receiverAlive, if_pos hroom]
    refine h.of_advance hstep ⟨rfl, rfl⟩ ⟨rfl, rfl, rfl, rfl, rfl, id⟩ (eventItems_of_talk hquiet)
      { hserving with subscribed := .inl hsubscribed, room := ?_, counter := ?_ } hphase
    · simpa using hroom
    · have hslots := hserving.counter
      have hfree : afterwards.pc.sends = 0 := by cases afterwards <;> rfl
      have hheld : (DispatcherPc.sending message afterwards).sends = 1 := rfl
      simp only [slots, hpc, hfree, hheld, List.length_append, List.length_singleton] at hslots ⊢
      omega
  · refine h.waits ?_
    rw [IpcSession.advance, hpc]
    simp only [IpcSession.send]
    rw [if_pos hserving.receiverAlive, if_neg hroom]

theorem Shows.acknowledges (h : Shows w events f) {ack : HelloAck} {info : ClientInfo}
    (hpc : w.server.session.dispatcher = .sending (.helloAck ack) (.openGate protocolVersion info))
    (hack : ack.protocolVersion = protocolVersion) :
    Shows (w.serve .advance).1 (events ++ (w.serve .advance).2) f := by
  refine h.of_sends hpc rfl ?_
  have hphase := h.phase
  generalize f.stage = stage at hphase ⊢
  cases hphase with
  | granting pc requests messages dispatcher closed =>
    refine .granted ack [] pc requests ?_ rfl hack
      (.opening info rfl ⟨closed.helloDone, closed.gate, closed.forwarder⟩)
    show w.frames ++ w.server.session.writer.inHand ++
      (w.server.session.channel ++ [.helloAck ack]) = _
    rw [← List.append_assoc, show w.frames ++ w.server.session.writer.inHand ++
      w.server.session.channel = [] from
      messages]
    rfl
  | greeting pc requests messages dispatcher closed => simp [Greetable, hpc] at dispatcher
  | greeted info pc requests messages dispatcher closed => simp [Greetable, hpc] at dispatcher
  | dispatching gap id pc requests quiet dispatcher opened => simp [hpc] at dispatcher
  | answering gap id state stamp pc requests quiet dispatcher opened stamped =>
    simp [hpc, snapshot] at dispatcher
  | _ =>
    have hready : Ready w.server.session := by assumption
    cases hready <;> simp_all

/-- The snapshot is sent. -/
theorem Shows.answers (h : Shows w events f) {id : ℕ} {state : DaemonState}
    (hpc : w.server.session.dispatcher = .sending (snapshot id state) .loop) :
    Shows (w.serve .advance).1 (events ++ (w.serve .advance).2) f := by
  refine h.of_sends hpc rfl ?_
  have hphase := h.phase
  generalize f.stage = stage at hphase ⊢
  cases hphase with
  | answering gap id' state' stamp pc requests quiet dispatcher opened stamped =>
    simp only [hpc, snapshot, reduceCtorEq, false_or, DispatcherPc.sending.injEq,
      ServerMessage.response.injEq, Response.ok.injEq, RequestResult.state.injEq,
      and_true] at dispatcher
    obtain ⟨rfl, rfl⟩ := dispatcher
    refine .answered gap id state stamp pc requests ?_
      (.top rfl ⟨opened.helloDone, opened.client, opened.forwarder⟩) stamped
    show talk (w.frames ++ w.server.session.writer.inHand ++
      (w.server.session.channel ++ [snapshot id state])) = _
    rw [← List.append_assoc, talk_append, show talk (w.frames ++ w.server.session.writer.inHand ++
      w.server.session.channel) = [] from quiet]
    rfl
  | greeting pc requests messages dispatcher closed => simp [Greetable, hpc] at dispatcher
  | greeted info pc requests messages dispatcher closed => simp [Greetable, hpc] at dispatcher
  | granting pc requests messages dispatcher closed => cases dispatcher <;> simp_all
  | dispatching gap id pc requests quiet dispatcher opened => simp [hpc] at dispatcher
  | _ =>
    have hready : Ready w.server.session := by assumption
    cases hready <;> simp_all

theorem Shows.advances (h : Shows w events f) :
    Shows (w.serve .advance).1 (events ++ (w.serve .advance).2) f := by
  have hwaits : ∀ pc : DispatcherPc, w.server.session.dispatcher = pc →
      pc = .reading ∨ (∃ id, pc = .dispatching id .getState) →
      Shows (w.serve .advance).1 (events ++ (w.serve .advance).2) f := by
    rintro _ hpc (rfl | ⟨id, rfl⟩)
    · exact h.waits (by rw [IpcSession.advance, hpc])
    · exact h.waits (by rw [IpcSession.advance, hpc])
  obtain hready | ⟨closed, hgreetable⟩ | ⟨closed, hgranting⟩ | ⟨opened, id, hpc⟩ | ⟨opened, id,
    state, hpc⟩ :=
    h.phase.dispatcher
  · cases hready with
    | opening info pc closed => exact h.opens pc
    | top pc opened => exact h.tops pc
    | reading pc opened => exact hwaits _ pc (.inl rfl)
  · obtain hpc | hpc | hpc := hgreetable
    · exact h.subscribes hpc
    · exact h.tops hpc
    · exact hwaits _ hpc (.inl rfl)
  · cases hgranting with
    | stamping info pc => exact h.stamps pc
    | reserving info ack granted pc => exact h.reserves pc
    | sending info ack granted pc => exact h.acknowledges pc granted
  · exact hwaits _ hpc (.inr ⟨id, rfl⟩)
  · obtain hpc | hpc := hpc
    · exact h.reserves hpc
    · exact h.answers hpc

theorem Shows.of_read (h : Shows w events f) {message : ClientMessage} {rest : List ClientMessage}
    (pc : DispatcherPc)
    (hpc : w.server.session.dispatcher = .reading) (hrequests : w.requests = message :: rest)
    (hstep : w.server.session.onMessage message = { w.server.session with dispatcher := pc })
    (hsends : pc.sends = 0)
    (hphase : Phase
      { w with
        server := { w.server with session := { w.server.session with dispatcher := pc } },
          requests := rest }
      f.stage) : Shows w.read.1 (events ++ w.read.2) f := by
  have hsubscribed : w.server.session.subscribed = true :=
    h.serving.subscribed.resolve_right (by simp [hpc])
  have hread : w.read =
      ({ w with
        server := { w.server with session := { w.server.session with dispatcher := pc } },
          requests := rest }, []) := by
    rw [System.read, hpc, hrequests]
    simp only [System.serve, IpcServer.step, hpc, hstep]
    simp [writtenOf]
  rw [hread]
  exact h.of_dispatcher ⟨rfl, rfl, rfl, rfl, (List.append_nil _).symm, id⟩ rfl rfl
    (h.serving.goes hsubscribed (by rw [hpc, hsends]; rfl)) hphase

theorem Shows.listens (h : Shows w events f) : Shows w.read.1 (events ++ w.read.2) f := by
  have hstays : w.read = (w, []) → Shows w.read.1 (events ++ w.read.2) f := by
    intro hread
    rw [hread]
    simpa using h
  by_cases hpc : w.server.session.dispatcher = .reading
  · cases hrequests : w.requests with
    | nil => exact hstays (by rw [System.read, hpc, hrequests])
    | cons message rest =>
      have hphase := h.phase
      generalize hstage : f.stage = stage at hphase
      cases hphase with
      | greeted info pc requests messages dispatcher closed =>
        rw [requests] at hrequests
        cases hrequests
        refine h.of_read (.stamping protocolVersion info.sanitized) hpc requests ?_ rfl ?_
        · simp [IpcSession.onMessage, closed.helloDone, protocolVersion]
        · rw [hstage]
          exact .granting pc rfl messages (.stamping _ rfl)
            ⟨closed.helloDone, closed.gate, closed.forwarder⟩
      | asked gap id pc requests quiet ready =>
        rw [requests] at hrequests
        cases hrequests
        have opened : Opened w.server.session := by
          cases ready with
          | reading pc opened => exact opened
          | opening info pc closed => simp [hpc] at pc
          | top pc opened => exact opened
        obtain ⟨info, hinfo⟩ := Option.isSome_iff_exists.mp opened.client
        refine h.of_read (.dispatching id .getState) hpc requests ?_ rfl ?_
        · simp only [IpcSession.onMessage, hinfo]
        · rw [hstage]
          exact .dispatching gap id pc rfl quiet rfl ⟨opened.helloDone, opened.client,
            opened.forwarder⟩
      | _ =>
        have hnone : w.requests = [] := by assumption
        simp [hnone] at hrequests
  · refine hstays ?_
    rw [System.read]
    split
    · next heq _ => exact absurd heq hpc
    · rfl

theorem Shows.handles (h : Shows w events f) :
    ∃ f', Step f f' ∧ Shows w.handled.1 (events ++ w.handled.2) f' := by
  have hstays : w.handled = (w, []) → ∃ f', Step f f' ∧
    Shows w.handled.1 (events ++ w.handled.2) f' := by
    intro hhandled
    rw [hhandled]
    exact ⟨f, .stays, by simpa using h⟩
  rw [System.handled] at hstays ⊢
  split
  · next id hpc hemitter =>
    have hsubscribed : w.server.session.subscribed = true :=
      h.serving.subscribed.resolve_right (by simp [hpc])
    have hserve : w.serve (.handled (.ok (.state w.server.core.state))) =
        ({ w with server := { w.server with session := { w.server.session with
            dispatcher := .reserving (snapshot id w.server.core.state) .loop } } },
          [.handled .getState, .dispatched id .getState
           (some (.ok id (.state w.server.core.state)))]) := by
      simp [System.serve, IpcServer.step, IpcSession.onHandled, hpc, snapshot, requiredRole,
        authorize, dispatch, Response.of, writtenOf, bind, Except.bind]
    have hpublished : w.server.core.seq.val = f.published := by
      rw [h.number, hemitter]
      rfl
    have hphase := h.phase
    generalize hstage : f.stage = stage at hphase
    cases hphase with
    | dispatching gap id' pc requests quiet dispatcher opened =>
      rw [hpc] at dispatcher
      cases dispatcher
      have hanswering : Phase
          { w with server := { w.server with session := { w.server.session with
            dispatcher := .reserving (snapshot id w.server.core.state) .loop } } }
          (.told (gap.map Fin.val) w.server.core.seq.val) :=
        .answering gap id _ _ pc requests quiet (.inl rfl)
          ⟨opened.helloDone, opened.client, opened.forwarder⟩ rfl
      rw [hpublished] at hanswering
      refine ⟨_, .tell _ hstage, ?_⟩
      rw [hserve]
      have hkeeps : Keeps w.server.session { w.server.session with
          dispatcher := .reserving (snapshot id w.server.core.state) .loop } [] :=
        ⟨rfl, rfl, rfl, rfl, (List.append_nil _).symm, fun hs => hs⟩
      exact h.of_dispatcher hkeeps rfl rfl (h.serving.goes hsubscribed (by rw [hpc]; rfl))
        hanswering
    | greeting pc requests messages dispatcher closed => simp [Greetable, hpc] at dispatcher
    | greeted info pc requests messages dispatcher closed => simp [Greetable, hpc] at dispatcher
    | granting pc requests messages dispatcher closed => cases dispatcher <;> simp_all
    | answering gap id state stamp pc requests quiet dispatcher opened stamped =>
      simp [hpc] at dispatcher
    | _ =>
      have hready : Ready w.server.session := by assumption
      cases hready <;> simp_all
  · exact ⟨f, .stays, by simpa using h⟩

end ProtonWire.EndToEnd
