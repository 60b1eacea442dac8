import ProtonWire.Ipc.Client

/-!
# The client's view never regresses

* `ClientEvent.seq`, `Follows`: the cursor a yielded event leaves, and what may follow it;
* `Moves`, `step_moves`: what a step does to the cursor;
* `View`, `step_view`, `run_view`: the cursor is that of the last thing yielded, through every run;
* **`view_never_regresses`**: it never decreases, events are consecutive between resynchronizations
  and above every snapshot before them;
* `poisoned_cursor`: a snapshot stamped with the reserved number makes it the cursor.
-/

namespace ProtonWire

/-! ## The cursor of a stream -/

/-- The cursor an event leaves. -/
def ClientEvent.seq : ClientEvent → Word64
  | event envelope => envelope.seq
  | resynchronized _ resumedAtSeq => resumedAtSeq

/-- What may be yielded next: the next event, or a snapshot no older. -/
def Follows (before : ClientEvent) : ClientEvent → Prop
  | .event envelope => envelope.seq.val = before.seq.val + 1
  | .resynchronized _ resumedAtSeq => before.seq ≤ resumedAtSeq

/-- An event is not the reserved marker, and a snapshot's cursor covers its stamp. -/
def ClientEvent.Sound : ClientEvent → Prop
  | event envelope => envelope.seq ≠ eventSeqResyncNow
  | resynchronized state resumedAtSeq => ∀ stamp, state.latestEventSeq = some stamp →
    stamp ≤ resumedAtSeq

/-- A resynchronization to a snapshot stamped with the reserved number. -/
def ClientEvent.StampedReserved : ClientEvent → Prop
  | event _ => False
  | resynchronized state _ => state.latestEventSeq = some eventSeqResyncNow

theorem Follows.le {a b : ClientEvent} (h : Follows a b) : a.seq ≤ b.seq := by
  cases b with
  | event envelope =>
    refine Fin.le_def.mpr ?_
    have heq : envelope.seq.val = a.seq.val + 1 := h
    rw [show (ClientEvent.event envelope).seq = envelope.seq from rfl]
    omega
  | resynchronized state resumedAtSeq => exact h

/-- What a client has yielded. -/
def yields (outputs : List ProtonwireClient.Output) : List ClientEvent :=
  outputs.filterMap fun
    | .yielded event => some event
    | _ => none

theorem yields_append (a b : List ProtonwireClient.Output) :
    yields (a ++ b) = yields a ++ yields b :=
  List.filterMap_append

/-! ## What an envelope and a snapshot do to the cursor -/

theorem verdict_deliver {lastSeq : Option Word64} {helloSeq seq : Word64}
    (h : verdict lastSeq helloSeq seq = .deliver) :
    seq ≠ eventSeqResyncNow ∧ ∀ last, lastSeq = some last → seq.val = last.val + 1 := by
  unfold verdict at h
  split at h
  · cases h
  · next hseq =>
    refine ⟨hseq, ?_⟩
    rintro last rfl
    simp only at h
    split at h
    · next expected hexp =>
      rw [Word64.checkedAddOne_eq_some] at hexp
      split at h
      · cases h
      · next hle =>
        split at h
        · cases h
        · next hge =>
          rw [Fin.lt_def] at hle hge
          omega
    · cases h

theorem verdict_resynchronize {lastSeq : Option Word64} {helloSeq seq gap : Word64}
    (h : verdict lastSeq helloSeq seq = .resynchronize (some gap)) :
    gap ≠ eventSeqResyncNow ∧ ∀ last, lastSeq = some last → last < gap := by
  unfold verdict at h
  split at h
  · cases h
  · next hseq =>
    split at h
    · next last =>
      split at h
      · next expected hexp =>
        rw [Word64.checkedAddOne_eq_some] at hexp
        split at h
        · next hlt =>
          cases h
          refine ⟨hseq, ?_⟩
          rintro _ ⟨⟩
          rw [Fin.lt_def] at hlt ⊢
          omega
        · split at h <;> cases h
      · cases h
    · split at h
      · cases h
        exact ⟨hseq, by rintro _ ⟨⟩⟩
      · cases h

theorem stamp_le_resumeCursor (gapSeq lastSeq : Option Word64) (stamp : Word64) :
    stamp ≤ resumeCursor gapSeq lastSeq (some stamp) := le_max_left _ _

theorem last_le_resumeCursor {gapSeq lastSeq : Option Word64} (stamp : Option Word64)
    {last : Word64} (hlast : lastSeq = some last)
    (hgap : ∀ gap, gapSeq = some gap → last < gap) : last ≤ resumeCursor gapSeq lastSeq stamp := by
  refine le_trans ?_ (le_max_right _ _)
  subst hlast
  cases gapSeq with
  | none => exact le_rfl
  | some gap => exact (hgap gap rfl).le

/-- The reserved number comes from the snapshot's stamp, or was the cursor. -/
theorem resumeCursor_eq_reserved {gapSeq lastSeq stamp : Option Word64}
    (h : resumeCursor gapSeq lastSeq stamp = eventSeqResyncNow)
    (hgap : ∀ gap, gapSeq = some gap → gap ≠ eventSeqResyncNow) :
    stamp = some eventSeqResyncNow ∨ lastSeq = some eventSeqResyncNow := by
  have hfall : gapSeq.getD (lastSeq.getD 0) = eventSeqResyncNow →
    lastSeq = some eventSeqResyncNow := by
    intro hf
    cases gapSeq with
    | some gap => exact absurd hf (hgap gap rfl)
    | none =>
      cases lastSeq with
      | none => exact absurd hf (by decide)
      | some last => exact congrArg some hf
  unfold resumeCursor at h
  rcases max_choice (stamp.getD (gapSeq.getD (lastSeq.getD 0)))
    (gapSeq.getD (lastSeq.getD 0)) with hm | hm
  · rw [hm] at h
    cases stamp with
    | none => exact .inr (hfall h)
    | some t => exact .inl (congrArg some h)
  · rw [hm] at h
    exact .inr (hfall h)

namespace ProtonwireClient

/-! ## What a step does to the cursor -/

/-- The sequence number that revealed the gap being repaired. -/
def Pc.gapSeq : Pc → Option Word64
  | .sending (.resynchronize gapSeq) _ _ | .awaiting (.resynchronize gapSeq) _ => gapSeq
  | _ => none

/-- What a step does to the cursor, with what it yields. -/
inductive Moves (s : ProtonwireClient) (s' : ProtonwireClient) : List ClientEvent → Prop
  | keeps (hseq : s'.lastSeq = s.lastSeq)
    (hgap : s'.pc.gapSeq = s.pc.gapSeq ∨ s'.pc.gapSeq = none) : Moves s s' []
  | repairs (gap : Word64) (hseq : s'.lastSeq = s.lastSeq) (hgap : s'.pc.gapSeq = some gap)
      (hv : ∃ seq, verdict s.lastSeq s.helloSeq seq = .resynchronize (some gap)) : Moves s s' []
  | delivers (envelope : EventEnvelope) (hseq : s'.lastSeq = some envelope.seq)
    (hgap : s'.pc.gapSeq = none)
      (hv : verdict s.lastSeq s.helloSeq envelope.seq = .deliver) : Moves s s' [.event envelope]
  | resumes (state : DaemonState)
      (hseq : s'.lastSeq = some (resumeCursor s.pc.gapSeq s.lastSeq state.latestEventSeq))
      (hgap : s'.pc.gapSeq = none) :
      Moves s s' [.resynchronized state (resumeCursor s.pc.gapSeq s.lastSeq state.latestEventSeq)]

theorem moves_self (s : ProtonwireClient) : Moves s s [] := .keeps rfl (.inl rfl)

theorem fail_moves {s t : ProtonwireClient} (h : t.lastSeq = s.lastSeq) (error : ClientError) :
    Moves s (t.fail error).1 (yields (t.fail error).2) := .keeps h (.inr rfl)

theorem poison_moves (s : ProtonwireClient) (failure : TransportFailure) :
    Moves s (s.poison failure).1 (yields (s.poison failure).2) := .keeps rfl (.inr rfl)

theorem startRequest_moves {s t : ProtonwireClient} (h : t.lastSeq = s.lastSeq) (purpose : Purpose)
    (request : Request) (hgap : ∀ gap, purpose = .resynchronize (some gap) →
     ∃ seq, verdict s.lastSeq s.helloSeq seq = .resynchronize (some gap)) :
    Moves s (t.startRequest purpose request).1 (yields (t.startRequest purpose request).2) := by
  unfold startRequest
  split
  · exact fail_moves h _
  · cases purpose with
    | caller => exact .keeps h (.inr rfl)
    | resynchronize gapSeq =>
      cases gapSeq with
      | none => exact .keeps h (.inr rfl)
      | some gap => exact .repairs gap h rfl (hgap gap rfl)

theorem receive_moves {s t : ProtonwireClient} (h : t.lastSeq = s.lastSeq)
    (hhello : t.helloSeq = s.helloSeq) (envelope : EventEnvelope) :
    Moves s (t.receive envelope).1 (yields (t.receive envelope).2) := by
  unfold receive
  split
  · next gapSeq hv =>
    rw [h, hhello] at hv
    refine startRequest_moves h _ _ fun gap hgap => ⟨envelope.seq, ?_⟩
    cases hgap
    exact hv
  · exact .keeps h (.inr rfl)
  · next hv =>
    rw [h, hhello] at hv
    exact .delivers envelope rfl rfl hv

theorem conclude_moves {s : ProtonwireClient} {purpose : Purpose} {id : ℕ}
    (hpc : s.pc = .awaiting purpose id) (response : Response) :
    Moves s (s.conclude purpose response).1 (yields (s.conclude purpose response).2) := by
  cases purpose with
  | caller => cases response <;> exact .keeps rfl (.inr rfl)
  | resynchronize gapSeq =>
    have hgap : s.pc.gapSeq = gapSeq := by rw [hpc]; rfl
    cases response with
    | error id error => exact fail_moves rfl _
    | ok id result =>
      cases result with
      | state state =>
        subst hgap
        exact .resumes state rfl rfl
      | _ => exact fail_moves rfl _

theorem buffer_lastSeq (s : ProtonwireClient) (envelope : EventEnvelope) :
    (s.buffer envelope).lastSeq = s.lastSeq ∧ (s.buffer envelope).pc = s.pc := by
  unfold buffer
  split <;> exact ⟨rfl, rfl⟩

theorem correlate_moves {s : ProtonwireClient} {purpose : Purpose} {id : ℕ}
    (hpc : s.pc = .awaiting purpose id) (message : ServerMessage) :
    Moves s (s.correlate purpose id message).1 (yields (s.correlate purpose id message).2) := by
  cases message with
  | helloAck ack => exact poison_moves s _
  | helloError error => exact poison_moves s _
  | response response =>
    rw [correlate]
    split
    · exact conclude_moves hpc response
    · exact poison_moves s _
  | event envelope =>
    obtain ⟨hseq, hpc'⟩ := s.buffer_lastSeq envelope
    exact .keeps hseq (.inl (congrArg Pc.gapSeq hpc'))

theorem poll_moves (s : ProtonwireClient) (message : ServerMessage) :
    Moves s (s.poll message).1 (yields (s.poll message).2) := by
  cases message with
  | event envelope => exact receive_moves rfl rfl envelope
  | _ => exact fail_moves rfl _

theorem greet_moves (s : ProtonwireClient) (message : ServerMessage) :
    Moves s (s.greet message).1 (yields (s.greet message).2) := by
  cases message with
  | helloAck ack =>
    rw [greet]
    split <;> exact .keeps rfl (.inr rfl)
  | _ => exact .keeps rfl (.inr rfl)

theorem takePending_moves (s : ProtonwireClient) :
    Moves s s.takePending.1 (yields s.takePending.2) := by
  unfold takePending
  split
  · exact fail_moves rfl _
  · split
    · exact receive_moves (by rfl) (by rfl) _
    · exact .keeps rfl (.inr rfl)

/-- **What a step does to the cursor.** -/
theorem step_moves (s : ProtonwireClient) (a : Action) :
    Moves s (s.step a).1 (yields (s.step a).2) := by
  cases a with
  | nextEvent =>
    rw [step]
    split
    · exact .keeps rfl (.inr rfl)
    · exact moves_self s
  | request request =>
    rw [step]
    split
    · exact startRequest_moves rfl _ _ fun gap hgap => by cases hgap
    · exact moves_self s
  | go =>
    rw [step]
    split
    · exact takePending_moves s
    · exact moves_self s
  | write ok =>
    rw [step, onWrite]
    split
    · split <;> exact .keeps rfl (.inr rfl)
    · next purpose id request hpc =>
      split
      · refine .keeps rfl (.inl ?_)
        rw [hpc]
        cases purpose <;> rfl
      · exact poison_moves s _
    · exact moves_self s
  | read message =>
    rw [step, onRead]
    split
    · exact greet_moves s message
    · exact poll_moves s message
    · next hpc => exact correlate_moves hpc message
    · exact moves_self s
  | readFailed =>
    rw [step, onReadFailed]
    split
    · exact .keeps rfl (.inr rfl)
    · exact fail_moves rfl _
    · exact poison_moves s _
    · exact moves_self s
  | expired =>
    rw [step, onExpired]
    split
    · exact .keeps rfl (.inr rfl)
    · exact fail_moves rfl _
    · exact poison_moves s _
    · exact poison_moves s _
    · exact moves_self s

/-! ## The view -/

/-- The cursor is that of the last thing yielded. -/
structure View (s : ProtonwireClient) (h : List Output) : Prop where
  cursor : s.lastSeq = (yields h).getLast?.map ClientEvent.seq
  chain : (yields h).IsChain Follows
  sound : ∀ y ∈ yields h, y.Sound
  gap : ∀ gap, s.pc.gapSeq = some gap → gap ≠ eventSeqResyncNow ∧ ∀ last, s.lastSeq = some last →
    last < gap
  reserved : s.lastSeq = some eventSeqResyncNow → ∃ y ∈ yields h, y.StampedReserved

theorem connect_view (client : ClientInfo) : View (connect client) [] where
  cursor := rfl
  chain := .nil
  sound _ hy := by cases hy
  gap _ hgap := by cases hgap
  reserved h := by cases h

/-- What is yielded after `ys` extends the chain when it follows the cursor. -/
theorem isChain_snoc {ys : List ClientEvent} {y : ClientEvent} {cursor : Option Word64}
    (hc : cursor = ys.getLast?.map ClientEvent.seq) (hys : ys.IsChain Follows)
    (hy : ∀ before, cursor = some before.seq → Follows before y) : (ys ++ [y]).IsChain Follows := by
  refine List.isChain_append.mpr ⟨hys, .singleton y, ?_⟩
  rintro before hbefore _ ⟨⟩
  refine hy before ?_
  rw [hc, hbefore]
  rfl

theorem step_view {s : ProtonwireClient} {h : List Output} (hv : View s h) (a : Action) :
    View (s.step a).1 (h ++ (s.step a).2) := by
  have hgap_le : ∀ last, s.lastSeq = some last → ∀ gap, s.pc.gapSeq = some gap → last < gap :=
    fun last hlast gap hgap => (hv.gap gap hgap).2 last hlast
  generalize hs' : (s.step a).1 = s'
  have hm := s.step_moves a
  rw [hs'] at hm
  generalize hy : yields (s.step a).2 = y at hm
  have hys : yields (h ++ (s.step a).2) = yields h ++ y := by rw [yields_append, hy]
  cases hm with
  | keeps hseq hgap =>
    rw [List.append_nil] at hys
    refine ⟨by rw [hseq, hys]; exact hv.cursor, hys ▸ hv.chain, hys ▸ hv.sound, fun gap hg => ?_,
      fun hr => hys ▸ hv.reserved (hseq ▸ hr)⟩
    rw [hseq]
    rcases hgap with hgap | hgap
    · exact hv.gap gap (hgap ▸ hg)
    · rw [hgap] at hg
      cases hg
  | repairs gap hseq hgap hverdict =>
    obtain ⟨seq, hverdict⟩ := hverdict
    rw [List.append_nil] at hys
    refine ⟨by rw [hseq, hys]; exact hv.cursor, hys ▸ hv.chain, hys ▸ hv.sound, fun gap' hg => ?_,
      fun hr => hys ▸ hv.reserved (hseq ▸ hr)⟩
    rw [hgap] at hg
    cases hg
    rw [hseq]
    exact verdict_resynchronize hverdict
  | delivers envelope hseq hgap hverdict =>
    obtain ⟨hne, hnext⟩ := verdict_deliver hverdict
    refine ⟨?_, ?_, ?_, fun gap hg => ?_, fun hr => ?_⟩
    · rw [hseq, hys, List.getLast?_concat]
      rfl
    · rw [hys]
      exact isChain_snoc hv.cursor hv.chain fun before hb => hnext _ hb
    · rw [hys]
      rintro y hmem
      rcases List.mem_append.mp hmem with hmem | hmem
      · exact hv.sound y hmem
      · cases List.mem_singleton.mp hmem
        exact hne
    · rw [hgap] at hg
      cases hg
    · rw [hseq] at hr
      exact absurd (Option.some.inj hr) hne
  | resumes state hseq hgap =>
    refine ⟨?_, ?_, ?_, fun gap hg => ?_, fun hr => ?_⟩
    · rw [hseq, hys, List.getLast?_concat]
      rfl
    · rw [hys]
      exact isChain_snoc hv.cursor hv.chain fun before hb =>
        last_le_resumeCursor _ hb (hgap_le _ hb)
    · rw [hys]
      rintro y hmem
      rcases List.mem_append.mp hmem with hmem | hmem
      · exact hv.sound y hmem
      · cases List.mem_singleton.mp hmem
        intro stamp hstamp
        rw [hstamp]
        exact stamp_le_resumeCursor _ _ stamp
    · rw [hgap] at hg
      cases hg
    · rw [hseq] at hr
      rw [hys]
      rcases resumeCursor_eq_reserved (Option.some.inj hr) fun gap hg => (hv.gap gap hg).1 with
        hst | hlast
      · exact ⟨_, List.mem_append_right _ (List.mem_singleton_self _), hst⟩
      · obtain ⟨y, hmem, hy'⟩ := hv.reserved hlast
        exact ⟨y, List.mem_append_left _ hmem, hy'⟩

theorem run_view (client : ClientInfo) (as : List Action) :
    View (Machine.run step (connect client) as).1 (Machine.run step (connect client) as).2 :=
  Machine.run_inv View (fun _ _ a hv => step_view hv a) (connect client) [] (connect_view client) as

/-! ## The view never regresses -/

theorem Follows.pairwise {ys : List ClientEvent} (h : ys.IsChain Follows) :
    ys.Pairwise fun a b => a.seq ≤ b.seq := by
  have hle : ys.IsChain fun a b => a.seq ≤ b.seq := h.imp fun _ _ => Follows.le
  have : IsTrans ClientEvent fun a b => a.seq ≤ b.seq := ⟨fun _ _ _ => le_trans⟩
  exact hle.pairwise

/-- What follows in a chain lies above: an event strictly. -/
theorem lt_of_follows {pre mid post : List ClientEvent} {y : ClientEvent} {envelope : EventEnvelope}
    (h : (pre ++ y :: mid ++ .event envelope :: post).IsChain Follows) : y.seq < envelope.seq := by
  rw [List.append_assoc, List.cons_append] at h
  have h₁ := (List.isChain_append.mp h).2.1
  rcases List.eq_nil_or_concat mid with rfl | ⟨mid, z, rfl⟩
  · have hf : envelope.seq.val = y.seq.val + 1 := (List.isChain_cons_cons.mp h₁).1
    exact Fin.lt_def.mpr (by omega)
  · rw [List.concat_eq_append, ← List.cons_append] at h₁
    obtain ⟨hpre, -, hlast⟩ := List.isChain_append.mp h₁
    have hyz : y.seq ≤ z.seq := (List.pairwise_cons.mp (Follows.pairwise hpre)).1 z (by simp)
    have hf : Follows z (.event envelope) :=
      hlast z (by rw [← List.cons_append, List.getLast?_concat]; rfl) _ rfl
    have hnext : envelope.seq.val = z.seq.val + 1 := hf
    rw [Fin.le_def] at hyz
    exact Fin.lt_def.mpr (by omega)

/-- **The client's view never regresses**, whatever the daemon sends and whenever its owner calls:
the cursor never decreases; an event is the one after what was yielded before it, without wrapping;
it lies above every snapshot yielded earlier; the reserved marker is never yielded; and it becomes
the cursor only where a snapshot is stamped with it. -/
theorem view_never_regresses (client : ClientInfo) (as : List Action) :
    (∀ as₁ as₂ : List Action, as = as₁ ++ as₂ → ∀ cursor : Word64,
      (Machine.run step (connect client) as₁).1.lastSeq = some cursor →
      ∃ cursor' : Word64, (Machine.run step (connect client) as).1.lastSeq = some cursor' ∧
        cursor ≤ cursor') ∧
    (∀ (pre : List ClientEvent) (before : ClientEvent) (envelope : EventEnvelope)
     (post : List ClientEvent),
      yields (Machine.run step (connect client) as).2 = pre ++
      before :: ClientEvent.event envelope :: post →
      envelope.seq.val = before.seq.val + 1) ∧
    (∀ (pre : List ClientEvent) (state : DaemonState) (resumedAtSeq : Word64)
     (mid : List ClientEvent)
      (envelope : EventEnvelope) (post : List ClientEvent),
      yields (Machine.run step (connect client) as).2 =
        pre ++ ClientEvent.resynchronized state resumedAtSeq :: mid ++
        ClientEvent.event envelope :: post →
      resumedAtSeq < envelope.seq ∧ ∀ stamp : Word64, state.latestEventSeq = some stamp →
      stamp < envelope.seq) ∧
    (∀ envelope : EventEnvelope, ClientEvent.event envelope ∈
     yields (Machine.run step (connect client) as).2 →
      envelope.seq ≠ eventSeqResyncNow) ∧
    ((Machine.run step (connect client) as).1.lastSeq = some eventSeqResyncNow →
      ∃ (state : DaemonState) (resumedAtSeq : Word64),
        ClientEvent.resynchronized state resumedAtSeq ∈
        yields (Machine.run step (connect client) as).2 ∧
          state.latestEventSeq = some eventSeqResyncNow) := by
  have hv := run_view client as
  refine ⟨?_, ?_, ?_, ?_, ?_⟩
  · rintro as₁ as₂ rfl cursor hcursor
    have hv₁ := run_view client as₁
    have hp := Follows.pairwise hv.chain
    have hc := hv.cursor
    rw [Machine.run_append] at hp hc ⊢
    simp only [yields_append] at hp hc
    rw [hv₁.cursor, Option.map_eq_some_iff] at hcursor
    obtain ⟨y, hy, rfl⟩ := hcursor
    simp only
    rw [hc]
    rcases List.eq_nil_or_concat (yields
      (Machine.run step (Machine.run step (connect client) as₁).1 as₂).2) with
      hnil | ⟨ys, z, hz⟩
    · rw [hnil, List.append_nil, hy]
      exact ⟨_, rfl, le_rfl⟩
    · rw [hz, List.concat_eq_append, ← List.append_assoc] at hp ⊢
      rw [List.getLast?_concat]
      refine ⟨_, rfl, ?_⟩
      exact (List.pairwise_append.mp hp).2.2 y (List.mem_append_left _ (List.mem_of_getLast? hy))
        z (by simp)
  · intro pre before envelope post heq
    have hc := hv.chain
    rw [heq] at hc
    exact (List.isChain_cons_cons.mp (List.isChain_append.mp hc).2.1).1
  · intro pre state resumedAtSeq mid envelope post heq
    have hc := hv.chain
    have hs := hv.sound (.resynchronized state resumedAtSeq) (by rw [heq]; simp)
    rw [heq] at hc
    have hlt : resumedAtSeq < envelope.seq := lt_of_follows hc
    exact ⟨hlt, fun stamp hstamp => (hs stamp hstamp).trans_lt hlt⟩
  · exact fun envelope hmem => hv.sound _ hmem
  · intro hr
    obtain ⟨y, hmem, hst⟩ := hv.reserved hr
    cases y with
    | event envelope => exact hst.elim
    | resynchronized state resumedAtSeq => exact ⟨state, resumedAtSeq, hmem, hst⟩

/-- A client of a command line. -/
def cli : ClientInfo := ⟨"protonwire-client", "0.1.0", .cli⟩

/-- A snapshot under this stamp. -/
def snapshot (stamp : Word64) : DaemonState :=
  ⟨protocolVersion, "0.1.0", .disconnected, .auto, none, some stamp⟩

/-- A warning under this number. -/
def warning (seq : Word64) : EventEnvelope :=
  ⟨seq, .notice .warning "event queue overflowed; resynchronize"⟩

/-- The handshake. -/
def handshakeRun (stamp : Word64) : List Action :=
  [.write true, .read (.helloAck ⟨protocolVersion, "0.1.0", stamp⟩)]

/-- The marker, and a snapshot stamped with its number. -/
def poisonedRun : List Action :=
  [handshakeRun 0, [.nextEvent, .go, .read (.event (warning eventSeqResyncNow)), .write true,
    .read (.response (.ok 0 (.state (snapshot eventSeqResyncNow))))]].flatten

/-- The owner takes a snapshot, and then the events that arrived meanwhile. -/
def overtakenRun : List Action :=
  [handshakeRun 0, [.request .getState, .write true, .read (.event (warning 1)),
    .read (.response (.ok 0 (.state (snapshot 1)))), .nextEvent, .go]].flatten

/-- The reserved number can become the cursor; and a snapshot the owner asked for itself is followed
by an event it covers. -/
theorem poisoned_cursor :
    (Machine.run step (connect cli) poisonedRun).1.lastSeq = some eventSeqResyncNow ∧
      ∃ pre : List Output, (Machine.run step (connect cli) overtakenRun).2 =
        pre ++ [Output.answered (.ok (.state (snapshot 1))), Output.yielded (.event (warning 1))] :=
  ⟨rfl, [.sent (.hello protocolVersion cli), .sent (.request 0 .getState)], rfl⟩

end ProtonwireClient

end ProtonWire
