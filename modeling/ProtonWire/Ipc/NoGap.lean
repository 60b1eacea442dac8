import ProtonWire.Ipc.Cursor
import ProtonWire.Ipc.DaemonEnd
import ProtonWire.Ipc.Overflow

/-!
# No gap stays invisible

The client's steps, the runs of the whole system, and where they come to rest.

* `Shows.receives`, `Shows.resumes`, `Shows.buffers`: what the client does with what comes;
* `step_shows`, `run_shows`: a step of any party, and a run;
* `Parked.settled`: what a system at rest has left to do;
* **`no_invisible_gap`**: where it rests, the client is up to date.
-/

namespace ProtonWire.EndToEnd

open Resync

variable {w w' : System} {events : List SessionEvent} {f f' : Feed}

theorem Shows.of_acts (h : Shows w events f) (hserver : w'.server = w.server)
    (hpublished : f'.published = f.published)
    (hheard : f'.heard = f.heard) (howed : f'.owed = f.owed) (hline : f'.line = w'.line)
    (hcursor : f'.cursor = w'.client.lastSeq.map Fin.val) (husable : w'.client.poisoned = false)
    (hphase : Phase w' f'.stage) : Shows w' (events ++ []) f' where
  number := by rw [hserver, hpublished, h.number]
  below := by rw [hserver]; exact h.below
  publishing := by rw [hserver]; exact h.publishing
  marking := by rw [hserver]; exact h.marking
  line := hline
  cursor := hcursor
  owed := by rw [hserver, howed]; exact h.owed
  marked := by rw [hserver, hheard]; exact h.marked
  absent := by rw [hserver, hheard]; exact h.absent
  silent := by rw [hserver, hheard, List.append_nil]; exact h.silent
  serving := by rw [hserver]; exact h.serving
  phase := hphase
  usable := husable

theorem Shows.published_le (h : Shows w events f) : f.published < eventSeqResyncNow.val := by
  have hne := h.below
  have hnumber := h.number
  have hlt := w.server.core.seq.isLt
  rw [Ne, Fin.ext_iff] at hne
  simp only [eventSeqResyncNow, Word64.maxValue] at hne ⊢
  omega

theorem Shows.last_lt (h : Shows w events f) (hsound : Sound f) {last : Word64}
    (hlast : w.client.lastSeq = some last) :
    last.val < eventSeqResyncNow.val := by
  have hcursor : f.cursor = some last.val := by
    rw [h.cursor, hlast]
    rfl
  exact (hsound.cursor _ hcursor).trans_lt h.published_le

theorem verdict_cases {lastSeq : Option Word64} (helloSeq : Word64) {seq : Word64}
    (hseq : seq ≠ eventSeqResyncNow)
    (hlast : ∀ last, lastSeq = some last → last.val < eventSeqResyncNow.val) :
    (verdict lastSeq helloSeq seq = .resynchronize (some seq) ∧ ∀ last, lastSeq = some last →
     last.val < seq.val) ∨
      (verdict lastSeq helloSeq seq = .skip ∧ ∃ last, lastSeq = some last ∧ seq.val ≤ last.val) ∨
      verdict lastSeq helloSeq seq = .deliver ∧ ∀ last, lastSeq = some last →
      seq.val = last.val + 1 := by
  cases lastSeq with
  | none =>
    by_cases hhello : helloSeq.checkedAddOne.any (· < seq) = true
    · exact .inl ⟨by simp only [verdict, if_neg hseq, hhello, if_true], by simp⟩
    · exact .inr (.inr ⟨by simp only [verdict, if_neg hseq, hhello]; rfl, by simp⟩)
  | some last =>
    have hbelow := hlast last rfl
    have hnext : ∃ expected, last.checkedAddOne = some expected := by
      rw [← Option.ne_none_iff_exists']
      intro hnone
      rw [Word64.checkedAddOne_eq_none] at hnone
      simp [hnone, eventSeqResyncNow] at hbelow
    obtain ⟨expected, hexpected⟩ := hnext
    have hval := Word64.checkedAddOne_eq_some.mp hexpected
    by_cases hahead : expected < seq
    · refine .inl ⟨by simp only [verdict, if_neg hseq, hexpected, if_pos hahead], ?_⟩
      rintro _ ⟨⟩
      rw [Fin.lt_def] at hahead
      omega
    · by_cases hstale : seq < expected
      · refine .inr
          (.inl ⟨by
          simp only [verdict, if_neg hseq, hexpected, if_neg hahead, if_pos hstale], last, rfl, ?_⟩)
        rw [Fin.lt_def] at hstale
        omega
      · refine .inr
          (.inr ⟨by simp only [verdict, if_neg hseq, hexpected, if_neg hahead, if_neg hstale], ?_⟩)
        rintro _ ⟨⟩
        rw [Fin.lt_def] at hahead hstale
        omega

/-- The system when the client has been given the outcome of a call. -/
def System.acted (w : System) (r : ProtonwireClient × List ProtonwireClient.Output) : System :=
  { w with client := r.1, requests := w.requests ++ sentOf r.2 }

theorem Shows.asks (h : Shows w events f) (gap : Option Word64) (hserver : w'.server = w.server)
    (hlast : w'.client.lastSeq = w.client.lastSeq) (husable : w'.client.poisoned = false)
    (hrequests : w'.requests = [])
    (hquiet : talk w'.messages = []) (hready : Ready w'.server.session) :
    Shows (w'.acted (w'.client.startRequest (.resynchronize gap) .getState)) (events ++ [])
      { f with line := w'.line, stage := .asked (gap.map Fin.val) } := by
  have hstart : w'.acted (w'.client.startRequest (.resynchronize gap) .getState) =
      { w' with client := { w'.client with
          pc := .sending (.resynchronize gap) w'.client.nextId .getState, nextId :=
            w'.client.nextId + 1 } } := by
    simp [System.acted, ProtonwireClient.startRequest, husable, sentOf]
  rw [hstart]
  refine h.of_acts hserver rfl rfl rfl rfl ?_ husable (.asking gap _ rfl hrequests hquiet hready)
  show f.cursor = w'.client.lastSeq.map Fin.val
  rw [hlast, h.cursor]

theorem Shows.receives (h : Shows w events f) (hsound : Sound f) (w' : System)
    {envelope : EventEnvelope}
    (hserver : w'.server = w.server) (hlast : w'.client.lastSeq = w.client.lastSeq)
    (husable : w'.client.poisoned = false) (hline : w.line = item envelope :: w'.line)
    (hrequests : w'.requests = [])
    (hquiet : talk w'.messages = []) (hready : Ready w'.server.session)
    (hreading : f.stage = .reading) :
    ∃ f', Step f f' ∧ Shows (w'.acted (w'.client.receive envelope)) (events ++ []) f' := by
  rw [← h.line] at hline
  have hcursor : ∀ last : Word64, w'.client.lastSeq = some last → f.cursor = some last.val := by
    intro last hseen
    rw [h.cursor, ← hlast, hseen]
    rfl
  have hcursor' : ∀ cursor, f.cursor = some cursor →
    ∃ last : Word64, w'.client.lastSeq = some last ∧ last.val = cursor := by
    intro cursor hseen
    rwa [h.cursor, ← hlast, Option.map_eq_some_iff] at hseen
  have hlistens : ∀ {v : System}, v.client.pc = .idle ∨ v.client.pc = .next → v.requests = [] →
    v.frames = w'.frames →
      v.server = w'.server → Phase v f.stage := by
    intro v hpc hnone hframes hsame
    rw [hreading]
    refine .listening (hpc.imp_right .inl) hnone ?_ (hsame ▸ hready)
    simpa only [System.messages, hsame, hframes] using hquiet
  by_cases hmarker : envelope.seq = eventSeqResyncNow
  · have hverdict : verdict w'.client.lastSeq w'.client.helloSeq envelope.seq =
      .resynchronize none := by
      simp only [verdict, hmarker, if_true]
    rw [item, if_pos hmarker] at hline
    refine ⟨_, .resync _ hreading hline, ?_⟩
    rw [ProtonwireClient.receive, hverdict]
    exact h.asks none hserver hlast husable hrequests hquiet hready
  · rw [item_of_ne hmarker] at hline
    rw [ProtonwireClient.receive]
    obtain ⟨hverdict, hahead⟩ | ⟨hverdict, last, hseen, hstale⟩ | ⟨hverdict, hnext⟩ :=
      verdict_cases w'.client.helloSeq hmarker fun last hseen => h.last_lt hsound (hlast ▸ hseen)
    · refine ⟨_, .gap envelope.seq.val _ hreading hline ?_, ?_⟩
      · intro cursor hseen
        obtain ⟨last, hlast', rfl⟩ := hcursor' cursor hseen
        exact hahead last hlast'
      · rw [hverdict]
        exact h.asks (some envelope.seq) hserver hlast husable hrequests hquiet hready
    · refine ⟨_, .skip envelope.seq.val last.val _ hreading hline (hcursor last hseen) hstale, ?_⟩
      rw [hverdict]
      refine h.of_acts hserver rfl rfl rfl rfl ?_ husable (hlistens (.inr rfl) ?_ rfl rfl)
      · show f.cursor = w'.client.lastSeq.map Fin.val
        rw [hlast, h.cursor]
      · simp [System.acted, hrequests, sentOf]
    · refine ⟨_, .deliver envelope.seq.val _ hreading hline ?_, ?_⟩
      · intro cursor hseen
        obtain ⟨last, hlast', rfl⟩ := hcursor' cursor hseen
        exact hnext last hlast'
      · rw [hverdict]
        refine h.of_acts hserver rfl rfl rfl rfl rfl husable (hlistens (.inl rfl) ?_ rfl rfl)
        simp [System.acted, hrequests, sentOf]

theorem Shows.buffers (h : Shows w events f) {envelope : EventEnvelope} {rest : List ServerMessage}
    (hframes : w.frames = .event envelope :: rest)
    (hroom : ∀ oldest others, w.client.pendingEvents = oldest :: others →
      pendingEventsCap ≤ w.client.pendingEvents.length → oldest.seq ≠ eventSeqResyncNow)
    (hphase : Phase { w with frames := rest, client := w.client.buffer envelope } f.stage) :
    ∃ f', Step f f' ∧
      Shows (System.acted { w with frames := rest } (w.client.buffer envelope, []))
        (events ++ []) f' := by
  have hacted : System.acted { w with frames := rest } (w.client.buffer envelope, []) =
      { w with frames := rest, client := w.client.buffer envelope } := by
    simp [System.acted, sentOf]
  rw [hacted]
  have hlast : f.cursor = (w.client.buffer envelope).lastSeq.map Fin.val := by
    rw [h.cursor, (ProtonwireClient.buffer_lastSeq w.client envelope).1]
  have husable : (w.client.buffer envelope).poisoned = false := by
    unfold ProtonwireClient.buffer
    split <;> exact h.usable
  have hline : f.line = w.client.pendingEvents.map item ++ item envelope ::
      (eventItems (rest ++ w.server.session.writer.inHand ++ w.server.session.channel) ++
        (inHand w.server.session.forwarder).map item ++ w.server.session.queue.map item) := by
    rw [h.line, System.line, System.messages, hframes]
    simp only [List.cons_append, eventItems_event, List.append_assoc]
  by_cases hfull : pendingEventsCap ≤ w.client.pendingEvents.length
  · cases hpending : w.client.pendingEvents with
    | nil => simp [hpending, pendingEventsCap] at hfull
    | cons oldest others =>
      have hbuffer : (w.client.buffer envelope).pendingEvents = others ++ [envelope] := by
        rw [ProtonwireClient.buffer, if_pos hfull, hpending]
        rfl
      rw [hpending, List.map_cons, item_of_ne (hroom oldest others hpending hfull),
        List.cons_append] at hline
      refine ⟨_, .evict oldest.seq.val _ hline (by simp),
        h.of_acts rfl rfl rfl rfl ?_ hlast husable hphase⟩
      simp only [System.line, System.messages, hbuffer, List.map_append, List.map_cons,
        List.map_nil, List.append_assoc, List.cons_append, List.nil_append]
  · have hbuffer : (w.client.buffer envelope).pendingEvents = w.client.pendingEvents ++
      [envelope] := by
      rw [ProtonwireClient.buffer, if_neg hfull]
    refine ⟨f, .stays, h.of_acts rfl rfl rfl rfl ?_ hlast husable hphase⟩
    rw [hline]
    simp only [System.line, System.messages, hbuffer, List.map_append, List.map_cons, List.map_nil,
      List.append_assoc, List.cons_append, List.nil_append]

theorem resumeCursor_val (gap lastSeq : Option Word64) (stamp : Word64) :
    (resumeCursor gap lastSeq (some stamp)).val =
      max stamp.val ((gap.map Fin.val).getD ((lastSeq.map Fin.val).getD 0)) := by
  have hmax : ∀ a b : Word64, (max a b).val = max a.val b.val := fun a b => by
    rw [max_def, max_def]
    simp only [Fin.le_def]
    split <;> rfl
  rw [resumeCursor, hmax]
  cases gap with
  | some g => rfl
  | none => cases lastSeq <;> rfl

theorem map_filter_item {cursor : Word64} (hcursor : cursor.val < eventSeqResyncNow.val)
    (pending : List EventEnvelope) :
    (pending.filter fun envelope => cursor < envelope.seq).map item =
      (pending.map item).filter (survives cursor.val) := by
  rw [List.filter_map]
  refine congrArg _ (List.filter_congr fun envelope _ => ?_)
  by_cases hmarker : envelope.seq = eventSeqResyncNow
  · have hlt : cursor < envelope.seq := by
      rw [hmarker]
      exact hcursor
    rw [Function.comp_apply, item, if_pos hmarker]
    exact decide_eq_true hlt
  · rw [Function.comp_apply, item_of_ne hmarker]
    rfl

theorem Shows.resumes (h : Shows w events f) (hsound : Sound f) {gap : Option Word64} {id : ℕ}
    {state : DaemonState}
    {stamp : Word64} {rest : List ServerMessage} (hframes : w.frames = snapshot id state :: rest)
    (hstage : f.stage = .told (gap.map Fin.val) stamp.val)
    (hstamp : state.latestEventSeq = some stamp)
    (hrequests : w.requests = []) (hready : Ready w.server.session)
    (hquiet : talk (rest ++ w.server.session.writer.inHand ++ w.server.session.channel) = []) :
    ∃ f', Step f f' ∧ Shows (System.acted { w with frames := rest } (w.client.resume gap state))
      (events ++ []) f' := by
  have hval := resumeCursor_val gap w.client.lastSeq stamp
  rw [← h.cursor] at hval
  have hline : f.line = w.client.pendingEvents.map item ++
      (eventItems (rest ++ w.server.session.writer.inHand ++ w.server.session.channel) ++
        (inHand w.server.session.forwarder).map item ++ w.server.session.queue.map item) := by
    rw [h.line, System.line, System.messages, hframes]
    simp only [List.append_assoc]
    rfl
  have hstep := Step.resume _ _ _ _ _ hstage hline hval
  have hbelow : (resumeCursor gap w.client.lastSeq (some stamp)).val < eventSeqResyncNow.val :=
    ((step_sound hsound hstep).cursor _ rfl).trans_lt h.published_le
  refine ⟨_, hstep, ?_⟩
  rw [ProtonwireClient.resume, hstamp]
  refine h.of_acts rfl rfl rfl rfl ?_ rfl h.usable (.listening (.inl rfl) ?_ hquiet hready)
  · simp only [System.line, System.acted, System.messages, map_filter_item hbelow,
      List.append_assoc]
  · simp [System.acted, hrequests, sentOf]

theorem Shows.of_client (h : Shows w events f) {c : ProtonwireClient}
    {outputs : List ProtonwireClient.Output}
    (hpending : c.pendingEvents = w.client.pendingEvents) (hlast : c.lastSeq = w.client.lastSeq)
    (husable : c.poisoned = w.client.poisoned) (hphase : Phase (w.acted (c, outputs)) f.stage) :
    Shows (w.acted (c, outputs)) (events ++ []) f := by
  refine h.of_acts rfl rfl rfl rfl ?_ ?_ ?_ hphase
  · rw [h.line, System.line]
    simp only [System.line, System.acted, System.messages, hpending]
  · rw [h.cursor]
    simp only [System.acted, hlast]
  · exact husable.trans h.usable

theorem Shows.idles (h : Shows w events f) : Shows (w.acted (w.client, [])) (events ++ []) f := by
  simpa [System.acted, sentOf] using h

theorem Shows.asksNext (h : Shows w events f) :
    Shows (w.acted (w.client.step .nextEvent)) (events ++ []) f := by
  rw [ProtonwireClient.step]
  split
  · next hpc =>
    have hphase := h.phase
    generalize hstage : f.stage = stage at hphase
    cases hphase with
    | listening pc requests quiet ready =>
      refine h.of_client rfl rfl rfl ?_
      rw [hstage]
      exact .listening (.inr (.inl rfl)) (by simp [System.acted, requests, sentOf]) quiet ready
    | _ => simp_all
  · exact h.idles

theorem Shows.takes (h : Shows w events f) (hsound : Sound f) :
    ∃ f', Step f f' ∧ Shows (w.acted (w.client.step .go)) (events ++ []) f' := by
  rw [ProtonwireClient.step]
  split
  · next hpc =>
    have hphase := h.phase
    generalize hstage : f.stage = stage at hphase
    cases hphase with
    | listening pc requests quiet ready =>
      cases hpending : w.client.pendingEvents with
      | nil =>
        have htake : w.client.takePending =
          ({ w.client with pc := .polling, unreportedDrops := 0 }, []) := by
          simp [ProtonwireClient.takePending, h.usable, hpending]
        rw [htake]
        refine ⟨f, .stays, h.of_client rfl rfl rfl ?_⟩
        rw [hstage]
        exact .listening (.inr (.inr ⟨rfl, hpending⟩))
          (by simp [System.acted, requests, sentOf]) quiet ready
      | cons envelope rest =>
        have htake : w.client.takePending =
            { w.client with pendingEvents := rest, unreportedDrops := 0 }.receive envelope := by
          simp [ProtonwireClient.takePending, h.usable, hpending]
        rw [htake]
        refine h.receives hsound { w with
            client := { w.client with pendingEvents := rest, unreportedDrops := 0 } }
          rfl rfl h.usable ?_ requests quiet ready hstage
        rw [System.line, hpending]
        rfl
    | _ => simp_all
  · exact ⟨f, .stays, h.idles⟩

theorem Shows.sends (h : Shows w events f) :
    Shows (w.acted (w.client.step (.write true))) (events ++ []) f := by
  rw [ProtonwireClient.step, ProtonwireClient.onWrite]
  have hphase := h.phase
  generalize hstage : f.stage = stage at hphase
  split
  · next hpc =>
    cases hphase with
    | greeting pc requests messages dispatcher closed =>
      refine h.of_client rfl rfl rfl ?_
      rw [hstage]
      exact .greeted w.client.client rfl (by simp [System.acted, requests, sentOf])
        messages dispatcher closed
    | listening pc requests quiet ready => simp [hpc] at pc
    | _ => simp_all
  · next purpose id request hpc =>
    cases hphase with
    | asking gap id' pc requests quiet ready =>
      rw [hpc] at pc
      cases pc
      refine h.of_client rfl rfl rfl ?_
      rw [hstage]
      exact .asked gap id rfl (by simp [System.acted, requests, sentOf]) quiet ready
    | listening pc requests quiet ready => simp [hpc] at pc
    | _ => simp_all
  · exact h.idles

theorem talk_cons (message : ServerMessage) (rest : List ServerMessage) :
    (∃ envelope, message = .event envelope ∧ talk (message :: rest) = talk rest) ∨
      talk (message :: rest) = message :: talk rest := by
  cases message with
  | event envelope => exact .inl ⟨envelope, rfl, rfl⟩
  | _ => exact .inr rfl

theorem Shows.hears (h : Shows w events f) (hsound : Sound f) {message : ServerMessage}
    {rest : List ServerMessage}
    (hframes : w.frames = message :: rest) (hreads : reads w.client.pc = true)
    (hroom : ∀ oldest others, w.client.pendingEvents = oldest :: others →
      pendingEventsCap ≤ w.client.pendingEvents.length → oldest.seq ≠ eventSeqResyncNow) :
    ∃ f', Step f f' ∧
      Shows (System.acted { w with frames := rest } (w.client.step (.read message)))
        (events ++ []) f' := by
  have hmessages : w.messages = message ::
    (rest ++ w.server.session.writer.inHand ++ w.server.session.channel) := by
    rw [System.messages, hframes]
    rfl
  have hhead := talk_cons message (rest ++ w.server.session.writer.inHand ++
    w.server.session.channel)
  rw [← hmessages] at hhead
  -- while the client waits, only events come before its answer
  have hbuffers : ∀ gap id, w.client.pc = .awaiting (.resynchronize gap) id →
    ∀ envelope, message = .event envelope →
      Phase { w with frames := rest, client := w.client.buffer envelope } f.stage →
      ∃ f', Step f f' ∧
        Shows (System.acted { w with frames := rest } (w.client.step (.read message)))
          (events ++ []) f' := by
    rintro gap id hpc envelope rfl hphase
    have hstep : w.client.step (.read (.event envelope)) = (w.client.buffer envelope, []) := by
      simp only [ProtonwireClient.step, ProtonwireClient.onRead, hpc, ProtonwireClient.correlate]
    rw [hstep]
    exact h.buffers hframes hroom hphase
  have hpc' : ∀ envelope, (w.client.buffer envelope).pc = w.client.pc :=
    fun envelope => (ProtonwireClient.buffer_lastSeq w.client envelope).2
  have hphase := h.phase
  generalize hstage : f.stage = stage at hphase hbuffers
  cases hphase with
  | greeting pc requests messages dispatcher closed => simp [pc, reads] at hreads
  | greeted info pc requests messages dispatcher closed => simp [messages] at hmessages
  | granting pc requests messages dispatcher closed => simp [messages] at hmessages
  | granted ack others pc requests messages quiet version ready =>
    rw [messages] at hmessages
    obtain ⟨rfl, hothers⟩ := List.cons.inj hmessages
    have hstep : w.client.step (.read (.helloAck ack)) =
        ({ w.client with pc := .idle, ack := ack, helloSeq := ack.latestEventSeq }, []) := by
      simp only [ProtonwireClient.step, ProtonwireClient.onRead, pc, ProtonwireClient.greet,
        version, if_pos le_rfl]
    rw [hstep]
    refine ⟨f, .stays, h.of_acts rfl rfl rfl rfl ?_ h.cursor h.usable ?_⟩
    · rw [h.line, System.line, System.line, messages, hothers]
      rfl
    · rw [hstage]
      rw [hothers] at quiet
      exact .listening (.inl rfl) (by simp [System.acted, requests, sentOf]) quiet ready
  | listening pc requests quiet ready =>
    obtain hpc | hpc | ⟨hpc, hpending⟩ := pc
    · simp [hpc, reads] at hreads
    · simp [hpc, reads] at hreads
    · rw [quiet] at hhead
      obtain ⟨envelope, rfl, hrest⟩ | hhead := hhead
      · have hstep : w.client.step (.read (.event envelope)) = w.client.receive envelope := by
          simp only [ProtonwireClient.step, ProtonwireClient.onRead, hpc, ProtonwireClient.poll]
        rw [hstep]
        refine h.receives hsound { w with frames := rest } rfl rfl h.usable ?_ requests hrest.symm
          ready hstage
        rw [System.line, System.line, hmessages, hpending]
        rfl
      · cases hhead
  | asking gap id pc requests quiet ready => simp [pc, reads] at hreads
  | asked gap id pc requests quiet ready =>
    rw [quiet] at hhead
    obtain ⟨envelope, rfl, hrest⟩ | hhead := hhead
    · exact hbuffers gap id pc envelope rfl
        (.asked gap id ((hpc' envelope).trans pc) requests hrest.symm ready)
    · cases hhead
  | dispatching gap id pc requests quiet dispatcher opened =>
    rw [quiet] at hhead
    obtain ⟨envelope, rfl, hrest⟩ | hhead := hhead
    · exact hbuffers gap id pc envelope rfl
        (.dispatching gap id ((hpc' envelope).trans pc) requests hrest.symm dispatcher opened)
    · cases hhead
  | answering gap id state stamp pc requests quiet dispatcher opened stamped =>
    rw [quiet] at hhead
    obtain ⟨envelope, rfl, hrest⟩ | hhead := hhead
    · exact hbuffers gap id pc envelope rfl
        (.answering gap id state stamp ((hpc' envelope).trans pc) requests hrest.symm dispatcher
         opened stamped)
    · cases hhead
  | answered gap id state stamp pc requests answer ready stamped =>
    rw [answer] at hhead
    obtain ⟨envelope, rfl, hrest⟩ | hhead := hhead
    · exact hbuffers gap id pc envelope rfl
        (.answered gap id state stamp ((hpc' envelope).trans pc) requests hrest.symm ready stamped)
    · obtain ⟨hmessage, hrest⟩ := List.cons.inj hhead
      have hstep : w.client.step (.read message) = w.client.resume gap state := by
        simp only [← hmessage, ProtonwireClient.step, ProtonwireClient.onRead, pc, snapshot,
          ProtonwireClient.correlate, Response.id, if_true, ProtonwireClient.conclude]
      rw [hstep]
      exact h.resumes hsound (by rw [hframes, hmessage]) hstage stamped requests ready hrest.symm

/-! ## A step, and a run -/

theorem Shows.serves (h : Shows w events f) {a : IpcServer.Action} {d' : IpcServer}
    {emitted : List SessionEvent}
    (hstep : w.server.step a = (d', emitted)) (hpublishes : w.server.Publishes d' emitted)
    (hseq : d'.core.seq ≠ eventSeqResyncNow)
    (hmark : w.server.core.emitter = .marking → d'.core.emitter = .free →
      w.server.session.queue ≠ [] ∨ works w.server.session.forwarder = true) :
    ∃ f', Step f f' ∧ Shows (w.serve a).1 (events ++ (w.serve a).2) f' := by
  have hserve : w.serve a = ({ w with server := d' }, emitted) := by
    simp only [System.serve, hstep, (IpcServer.queuedOf_publishes hpublishes).2.2, List.append_nil]
  rw [hserve]
  exact h.publishes hpublishes hseq hmark

/-- **A step of any party.** -/
theorem step_shows (h : Shows w events f) (hsound : Sound f) {a : Action} (hprompt : Prompt w a) :
    ∃ f', Step f f' ∧ Shows (w.step a).1 (events ++ (w.step a).2) f' := by
  cases a with
  | setVpnState to_ =>
    refine h.serves rfl (w.server.setVpnState_publishes to_) hprompt fun hmarking hfree => ?_
    simp [IpcServer.emit, hmarking] at hfree
  | notice level message =>
    refine h.serves rfl (w.server.notice_publishes level message) hprompt fun hmarking hfree => ?_
    simp [IpcServer.emit, hmarking] at hfree
  | publish =>
    have hseq : w.server.publish.1.core.seq = w.server.core.seq :=
      IpcServer.seq_of_not_allocates (a := .publish) rfl
    refine h.serves rfl w.server.publish_publishes (hseq ▸ h.below) fun hmarking hfree => ?_
    simp [hmarking] at hfree
  | mark =>
    have hseq : w.server.mark.core.seq = w.server.core.seq :=
      IpcServer.seq_of_not_allocates (a := .mark) rfl
    exact h.serves rfl w.server.mark_publishes (hseq ▸ h.below) fun hmarking _ => hprompt hmarking
  | advance => exact ⟨f, .stays, h.advances⟩
  | read => exact ⟨f, .stays, h.listens⟩
  | handled => exact h.handles
  | forward =>
    have hstep := w.server.session.forward_forwards
    have hserve : w.serve .forward =
        ({ w with server := { w.server with session := w.server.session.forward.1 } },
         w.server.session.forward.2) := by
      simp only [System.serve, IpcServer.step, (publishedOf_forwards hstep).2, List.append_nil]
    rw [show w.step .forward = w.serve .forward from rfl, hserve]
    exact h.forwards hstep h.serving.forward
  | write => exact ⟨f, .stays, h.writes⟩
  | nextEvent => exact ⟨f, .stays, h.asksNext⟩
  | go => exact h.takes hsound
  | clientWrite => exact ⟨f, .stays, h.sends⟩
  | clientRead =>
    show ∃ f', Step f f' ∧ Shows w.clientRead.1 (events ++ w.clientRead.2) f'
    rw [System.clientRead]
    split
    · next message rest hframes =>
      split
      · next hreads => exact h.hears hsound hframes hreads hprompt
      · exact ⟨f, .stays, by simpa using h⟩
    · exact ⟨f, .stays, by simpa using h⟩

theorem start_shows (version : String) (networkIntegration : NetworkIntegration)
    (peer : PeerCredentials) (client : ClientInfo) :
    Shows (.start version networkIntegration peer client) []
      ⟨0, false, [], false, .reading, none⟩ where
  number := rfl
  below := show (0 : Word64) ≠ eventSeqResyncNow by decide
  publishing := by rintro _ ⟨⟩
  marking := by rintro ⟨⟩
  line := rfl
  cursor := rfl
  owed := by rintro ⟨⟩
  marked := by rintro ⟨⟩
  absent _ := rfl
  silent _ _ := rfl
  serving := {
    gateAlive := rfl
    receiverAlive := rfl
    writerGone := rfl
    writer := .inl rfl
    forwarder := by rintro ⟨⟩
    gate := by rintro _ ⟨⟩
    version := by rintro _ ⟨⟩
    subscribed := .inr rfl
    entered := fun h => absurd rfl h
    room := Nat.zero_le _
    counter := rfl }
  phase := .greeting rfl rfl rfl (.inl rfl) ⟨rfl, rfl, rfl⟩
  usable := rfl

theorem start_sound : Sound ⟨0, false, [], false, .reading, none⟩ where
  sorted := List.Pairwise.nil
  bounded := by rintro _ ⟨⟩
  cursor := by rintro _ ⟨⟩
  gap := by rintro _ ⟨⟩
  stamp := by rintro _ _ ⟨⟩
  silent _ := ⟨rfl, rfl, rfl, rfl⟩
  visible := by rintro ⟨⟩

/-- **A run shows a sound feed.** -/
theorem run_shows (version : String) (networkIntegration : NetworkIntegration)
    (peer : PeerCredentials) (client : ClientInfo) (as : List Action)
    (hprompt : Machine.Along System.step Prompt
     (.start version networkIntegration peer client) as) :
    ∃ f, Sound f ∧
      Shows (Machine.run System.step (.start version networkIntegration peer client) as).1
        (Machine.run System.step (.start version networkIntegration peer client) as).2 f := by
  refine Machine.run_inv_of_steps Prompt (fun w events => ∃ f, Sound f ∧ Shows w events f) ?_ _
    ⟨_, start_sound, start_shows version networkIntegration peer client⟩ as fun as₁ a as₂ h =>
    hprompt.at_step as₁ a as₂ h
  rintro w events a hok ⟨f, hsound, hshows⟩
  obtain ⟨f', hstep, hshows'⟩ := step_shows hshows hsound hok
  exact ⟨f', step_sound hsound hstep, hshows'⟩

/-! ## Where a system rests -/

theorem Parked.server (hparked : Parked w) (a : Action) (b : IpcServer.Action)
    (hstep : w.step a = w.serve b)
    (hbegins : a.begins = false) : (w.server.step b).1 = w.server := by
  have hsame := congrArg System.server (hparked a hbegins)
  rwa [hstep] at hsame

theorem Parked.free (hparked : Parked w) : w.server.core.emitter = .free := by
  have hpublish : w.server.publish.1 = w.server := hparked.server .publish .publish rfl rfl
  have hmark : w.server.mark = w.server := hparked.server .mark .mark rfl rfl
  have hstep := w.server.publish_publishes
  cases hemitter : w.server.core.emitter with
  | free => rfl
  | marking =>
    have hsame := congrArg (fun d => d.core.emitter) hmark
    simp [IpcServer.mark, hemitter] at hsame
  | publishing envelope =>
    have hsame := congrArg (fun d => d.core.emitter) hpublish
    simp only [IpcServer.publish, hemitter] at hsame
    split at hsame
    · split at hsame
      · cases hsame
      · split at hsame <;> cases hsame
    · cases hsame

theorem Parked.written (hparked : Parked w) (h : Shows w events f) :
    w.server.session.channel = [] ∧ w.server.session.writer = .receiving := by
  have hwrite : (w.server.session.write true).1 = w.server.session :=
    congrArg IpcServer.session (hparked.server .write (.write true) rfl rfl)
  obtain hpc | hpc | hpc := h.serving.writer
  · refine ⟨?_, hpc⟩
    cases hchannel : w.server.session.channel with
    | nil => rfl
    | cons message rest =>
      have hsame := congrArg IpcSession.writer hwrite
      simp [IpcSession.write, hpc, hchannel] at hsame
  · have hsame := congrArg IpcSession.writer hwrite
    cases hwriter : w.server.session.writer with
    | writing message => simp [IpcSession.write, hwriter] at hsame
    | _ => simp [hwriter, WriterPc.inHand] at hpc
  · have hsame := congrArg IpcSession.writer hwrite
    simp [IpcSession.write, hpc] at hsame

/-- The forwarder has nothing in hand, and nothing to take. -/
theorem Parked.forwarded (hparked : Parked w) (h : Shows w events f) :
    w.server.session.forwarder = .gate ∧ w.server.session.gate = none ∨
      w.server.session.queue = [] ∧ ∃ v, w.server.session.forwarder = .receiving v := by
  have hforward : w.server.session.forward.1 = w.server.session :=
    congrArg IpcServer.session (hparked.server .forward .forward rfl rfl)
  have hsame := congrArg IpcSession.forwarder hforward
  obtain ⟨hchannel, -⟩ := hparked.written h
  cases hpc : w.server.session.forwarder with
  | gate =>
    refine .inl ⟨rfl, ?_⟩
    by_contra hgate
    obtain ⟨v, hgate⟩ := Option.ne_none_iff_exists'.mp hgate
    simp [IpcSession.forward, hpc, hgate] at hsame
  | receiving v =>
    refine .inr ⟨?_, v, rfl⟩
    have hversion := h.serving.version v (by rw [hpc]; rfl)
    cases hqueue : w.server.session.queue with
    | nil => rfl
    | cons envelope rest =>
      have hreaches : eventReaches v envelope.event = true := by
        rw [hversion]
        cases envelope.event <;> rfl
      simp [IpcSession.forward, hpc, hqueue, hreaches] at hsame
  | reserving v forwarded => simp [IpcSession.forward, hpc] at hsame
  | sending v forwarded =>
    cases forwarded <;>
      simp [IpcSession.forward, hpc, IpcSession.send, h.serving.receiverAlive, hchannel,
        sessionQueueLen, Forwarded.pc] at hsame
  | checking v =>
    by_cases hmarked : (w.server.session.overflowed && resyncMarkerReaches v) = true
    · simp [IpcSession.forward, hpc, hmarked] at hsame
    · simp [IpcSession.forward, hpc, hmarked] at hsame
  | done => exact absurd hpc h.serving.forwarder

/-- The dispatcher waits for a message, and there is none. -/
theorem Parked.waiting (hparked : Parked w) (h : Shows w events f) :
    w.server.session.dispatcher = .reading ∧ w.requests = [] := by
  have hfree := hparked.free
  have hbus : w.server.busFree = true := by
    rw [IpcServer.busFree, hfree]
  have hadvance : (w.server.session.advance w.server.core w.server.busFree).1 = w.server.session :=
    congrArg IpcServer.session (hparked.server .advance .advance rfl rfl)
  rw [hbus] at hadvance
  have hsame := congrArg IpcSession.dispatcher hadvance
  obtain ⟨hchannel, hwriter⟩ := hparked.written h
  have hpc : w.server.session.dispatcher = .reading := by
    have htop : w.server.session.dispatcher ≠ .top := by
      intro hpc
      have hsends : w.server.session.forwarder.sends = 0 := by
        obtain ⟨hgate, -⟩ | ⟨-, v, hreceiving⟩ := hparked.forwarded h
        · rw [hgate]
          rfl
        · rw [hreceiving]
          rfl
      have hcounter : w.server.session.unwritten.val = 0 := by
        rw [h.serving.counter, slots, hchannel, hwriter, hpc, hsends]
        rfl
      have hcredit : w.server.session.isExhausted = false := by
        rw [IpcSession.isExhausted, decide_eq_false_iff_not, Fin.le_def, hcounter]
        decide
      simp [IpcSession.advance, hpc, IpcSession.onTop, hcredit] at hsame
    obtain hready | ⟨closed, hgreetable⟩ | ⟨closed, hgranting⟩ | ⟨opened, id, hpc⟩ | ⟨opened, id,
      state, hpc⟩ :=
      h.phase.dispatcher
    · cases hready with
      | opening info pc closed => simp [IpcSession.advance, pc] at hsame
      | top pc opened => exact absurd pc htop
      | reading pc opened => exact pc
    · obtain hpc | hpc | hpc := hgreetable
      · simp [IpcSession.advance, hpc] at hsame
      · exact absurd hpc htop
      · exact hpc
    · cases hgranting with
      | stamping info pc => simp [IpcSession.advance, pc] at hsame
      | reserving info ack granted pc => simp [IpcSession.advance, pc] at hsame
      | sending info ack granted pc =>
        simp [IpcSession.advance, pc, IpcSession.send, h.serving.receiverAlive, hchannel,
          sessionQueueLen, Afterwards.pc] at hsame
    · have hhandled := congrArg (fun w => w.server.session.dispatcher) (hparked .handled rfl)
      simp [System.step, System.handled, hpc, hfree, System.serve, IpcServer.step,
        IpcSession.onHandled] at hhandled
    · obtain hpc | hpc := hpc
      · simp [IpcSession.advance, hpc] at hsame
      · simp [IpcSession.advance, hpc, IpcSession.send, h.serving.receiverAlive, hchannel,
          sessionQueueLen, Afterwards.pc] at hsame
  refine ⟨hpc, ?_⟩
  cases hrequests : w.requests with
  | nil => rfl
  | cons message rest =>
    have hread := congrArg (fun w => w.requests.length) (hparked .read rfl)
    simp [System.step, System.read, hpc, hrequests, System.serve] at hread

theorem Parked.polls (hparked : Parked w) (h : Shows w events f)
    (hpc : w.client.pc = .idle ∨ w.client.pc = .next ∨ w.client.pc = .polling ∧
     w.client.pendingEvents = []) :
    w.client.pc = .polling ∧ w.client.pendingEvents = [] := by
  obtain hpc | hpc | hpc := hpc
  · have hsame := congrArg (fun w => w.client.pc) (hparked .nextEvent rfl)
    simp [System.step, System.act, ProtonwireClient.step, hpc] at hsame
  · have hsame := congrArg System.client (hparked .go rfl)
    have hgo : (w.client.step .go).1 = w.client.takePending.1 := by
      simp only [ProtonwireClient.step, hpc]
    have htake : w.client.takePending.1 = w.client := hgo.symm.trans hsame
    cases hpending : w.client.pendingEvents with
    | nil =>
      have hpolls := congrArg ProtonwireClient.pc htake
      simp [ProtonwireClient.takePending, h.usable, hpending, hpc] at hpolls
    | cons envelope rest =>
      have hshorter := congrArg (fun c => c.pendingEvents.length) htake
      have hreceive : w.client.takePending =
          { w.client with pendingEvents := rest, unreportedDrops := 0 }.receive envelope := by
        simp [ProtonwireClient.takePending, h.usable, hpending]
      have hkeeps : w.client.takePending.1.pendingEvents = rest := by
        rw [hreceive, ProtonwireClient.receive]
        split
        · simp [ProtonwireClient.startRequest, h.usable]
        · rfl
        · rfl
      simp [hkeeps, hpending] at hshorter
  · exact hpc

/-- **Where a system rests**, nothing is on its way. -/
theorem Parked.settled (hparked : Parked w) (h : Shows w events f) :
    f.line = [] ∧ f.stage = .reading ∧ f.owed = false := by
  obtain ⟨hpc, hrequests⟩ := hparked.waiting h
  obtain ⟨hchannel, hwriter⟩ := hparked.written h
  have hmessages : w.messages = w.frames := by
    simp [System.messages, hchannel, hwriter, WriterPc.inHand]
  have hread : reads w.client.pc = true → w.frames = [] := by
    intro hreads
    cases hframes : w.frames with
    | nil => rfl
    | cons message rest =>
      have hsame := congrArg (fun w => w.frames.length) (hparked .clientRead rfl)
      simp [System.step, System.clientRead, hframes, hreads, System.act] at hsame
  have hwrites : (w.client.step (.write true)).1.pc = w.client.pc :=
    congrArg (fun w => w.client.pc) (hparked .clientWrite rfl)
  have hphase := h.phase
  generalize hstage : f.stage = stage at hphase
  cases hphase with
  | listening pc requests quiet ready =>
    obtain ⟨hpolling, hpending⟩ := hparked.polls h pc
    have hframes := hread (by rw [hpolling]; rfl)
    have hforwarded : w.server.session.queue = [] ∧
      ∃ v, w.server.session.forwarder = .receiving v := by
      obtain ⟨hgate, hnone⟩ | hreceiving := hparked.forwarded h
      · cases ready with
        | opening info pc closed => simp [hpc] at pc
        | top pc opened => simp [hpc] at pc
        | reading pc opened => exact absurd hnone (opened.forwarder hgate)
      · exact hreceiving
    obtain ⟨hqueue, v, hreceiving⟩ := hforwarded
    refine ⟨?_, rfl, ?_⟩
    · rw [h.line, System.line, hmessages, hpending, hframes, hqueue, hreceiving]
      rfl
    · by_contra howed
      have := (h.owed (by simpa using howed)).2
      simp [hqueue, hreceiving, looks] at this
  | greeting pc requests messages dispatcher closed =>
    simp [ProtonwireClient.step, ProtonwireClient.onWrite, pc] at hwrites
  | greeted info pc requests messages dispatcher closed => simp [requests] at hrequests
  | granting pc requests messages dispatcher closed => cases dispatcher <;> simp_all
  | granted ack others pc requests messages quiet version ready =>
    rw [hmessages, hread (by rw [pc]; rfl)] at messages
    cases messages
  | asking gap id pc requests quiet ready =>
    simp [ProtonwireClient.step, ProtonwireClient.onWrite, pc] at hwrites
  | asked gap id pc requests quiet ready => simp [requests] at hrequests
  | dispatching gap id pc requests quiet dispatcher opened => simp [hpc] at dispatcher
  | answering gap id state stamp pc requests quiet dispatcher opened stamped =>
    simp [hpc] at dispatcher
  | answered gap id state stamp pc requests answer ready stamped =>
    rw [hmessages, hread (by rw [pc]; rfl)] at answer
    cases answer

/-! ## The client is up to date -/

/-- **No gap stays invisible.** -/
theorem no_invisible_gap (version : String) (networkIntegration : NetworkIntegration)
    (peer : PeerCredentials)
    (client : ClientInfo) (as : List Action) (w : System) (events : List SessionEvent)
    (hrun : Machine.run System.step (.start version networkIntegration peer client) as =
     (w, events))
    (hprompt : Machine.Along System.step Prompt (.start version networkIntegration peer client) as)
    (hparked : Parked w) :
    (w.client.lastSeq = none → publishedOf events = []) ∧
      ∀ last, w.client.lastSeq = some last → last = w.server.core.seq := by
  obtain ⟨f, hsound, hshows⟩ := run_shows version networkIntegration peer client as hprompt
  rw [hrun] at hshows
  obtain ⟨hline, hreading, howed⟩ := hparked.settled hshows
  have hfree := hparked.free
  have hpublished : w.server.core.seq.val = f.published := by
    rw [hshows.number, hfree]
    rfl
  have hcursor := hshows.cursor
  obtain ⟨hsilent, hnone⟩ | hseen := hsound.settled hline hreading howed
  · rw [hnone] at hcursor
    refine ⟨fun _ => hshows.silent hsilent (by simp [hfree]), ?_⟩
    intro last hlast
    simp [hlast] at hcursor
  · rw [hseen] at hcursor
    refine ⟨?_, ?_⟩
    · intro hnone
      simp [hnone] at hcursor
    · intro last hlast
      rw [hlast, Option.map_some, Option.some_inj] at hcursor
      exact Fin.ext (hcursor.symm.trans hpublished.symm)

/-! ## A gap that is marked -/

/-- A client that is about to greet a new core. -/
def newcomer : System := .start "1" .auto ⟨1000, 1000, none⟩ ⟨"cli", "1", .cli⟩

/-- A handshake; the client waits for an event, and the forwarder for its queue. -/
def greets : List Action :=
  [.advance, .advance, .clientWrite, .read] ++ times 5 [.advance] ++ times 3 [.write] ++
    [.clientRead, .nextEvent, .go, .forward]

/-- The queue is filled while the forwarder does nothing, one more event overflows it, and the
client recovers. -/
def floods : List Action :=
  greets ++ times 256 [.notice .info "", .publish] ++ [.notice .info "", .publish, .mark] ++
  recovers 255

theorem leads_greets : ∃ w : System, w.server.session.clientInfo.isSome = true ∧
    Leads newcomer greets [] (w.calm 0 false [] [] [] none 0) :=
  ⟨(Machine.run System.step newcomer greets).1, rfl, rfl, rfl, by decide⟩

theorem leads_floods :
    ∃ w : System, Leads newcomer floods [257] (w.calm 257 false [] [] [] (some 257) 1) := by
  obtain ⟨w, hclient, hgreets⟩ := leads_greets
  have hqueue : notices 1 256 = ⟨1, .notice .info ""⟩ :: notices 2 255 := rfl
  have hnotices : Leads (w.calm 0 false [] [] [] none 0) (times 256 [.notice .info "", .publish]) []
      (w.calm 256 false (notices 1 256) [] [] none 0) := leads_notices (by decide) rfl (by decide)
  have hoverflow : Leads (w.calm 256 false (notices 1 256) [] [] none 0)
    [.notice .info "", .publish, .mark] [257]
      (w.calm 257 true (notices 1 256) [] [] none 0) := leads_overflow (length_notices 1 256)
      (by decide)
  have hrecovers : Leads (w.calm 257 true (⟨1, .notice .info ""⟩ :: notices 2 255) [] [] none 0)
      (recovers (notices 2 255).length) [] (w.calm 257 false [] [] [] (some 257) 1) := by
    refine leads_recovers hclient (by decide) (by rw [length_notices]; decide) rfl
      (fun _ => eventReaches_of_mem_notices) fun envelope hmem => Fin.le_def.mpr ?_
    exact Nat.le_of_lt (seq_le_of_mem_notices (by decide) hmem)
  rw [length_notices, ← hqueue] at hrecovers
  exact ⟨w, ((hgreets.append hnotices).append hoverflow).append hrecovers⟩

/-- The last event never came, and the client's cursor is its number. -/
theorem no_invisible_gap_floods :
    (Machine.run System.step newcomer floods).2.filterMap lost = [257] ∧
      (Machine.run System.step newcomer floods).1.client.lastSeq = some 257 ∧
      ∀ last, (Machine.run System.step newcomer floods).1.client.lastSeq = some last →
        last = (Machine.run System.step newcomer floods).1.server.core.seq := by
  obtain ⟨w, hstate, hlost, hprompt⟩ := leads_floods
  have hparked : Parked (Machine.run System.step newcomer floods).1 := by
    rw [hstate]
    exact calm_parked
  have hrun : Machine.run System.step newcomer floods =
      ((Machine.run System.step newcomer floods).1, (Machine.run System.step newcomer floods).2) :=
      Prod.eta _ |>.symm
  have hnewest := no_invisible_gap "1" .auto ⟨1000, 1000, none⟩
    ⟨"cli", "1", .cli⟩ floods _ _ hrun hprompt hparked
  refine ⟨hlost, ?_, hnewest.2⟩
  rw [hstate]
  rfl

end ProtonWire.EndToEnd
