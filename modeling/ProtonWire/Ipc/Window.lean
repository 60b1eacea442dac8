import ProtonWire.Ipc.Order

/-!
# The request-credit window

`crates/ipc/src/server/session.rs`, `WriteWindow`: every message but a refusal reserves a slot
before it is queued, the writer releases the slot after it is written, and the dispatcher reads no
request while `maxUnwrittenMessages` slots are held.

* `reservedOf`, `ServerMessage.isAnswer`: the slots a run reserved, and the dispatcher's among them;
* `Windowed`: what the slots, the messages and the counter come to, through every step;
* **`request_credit`**: the counter is exact, and at most `maxUnwrittenMessages` responses are
  unwritten;
* `read_past_window`: the forwarder fills the window while the dispatcher waits for a request.
-/

namespace ProtonWire

open ServerMessage

/-- The messages that slots were reserved for. -/
def reservedOf (events : List SessionEvent) : List ServerMessage :=
  events.filterMap fun
    | .reserved message => some message
    | _ => none

/-- A message of the dispatcher's that takes a slot. -/
def ServerMessage.isAnswer : ServerMessage → Bool
  | helloAck _ | response _ => true
  | _ => false

/-- A message of the forwarder's. -/
def ServerMessage.isEvent : ServerMessage → Bool
  | event _ => true
  | _ => false

/-- The message that is being written. -/
def WriterPc.inHand : WriterPc → List ServerMessage
  | .writing message => [message]
  | _ => []

/-- The slot of a message that is written, and not released. -/
def WriterPc.releases : WriterPc → ℕ
  | releasing => 1
  | _ => 0

/-- What the writer can have dropped. -/
def WriterPc.lost : WriterPc → ℕ
  | .writing _ => 1
  | dropping => 1
  | noting | gone => 1 + sessionQueueLen
  | _ => 0

/-- The slot of a message that is not queued yet. -/
def DispatcherPc.sends : DispatcherPc → ℕ
  | sending _ _ => 1
  | _ => 0

/-- The slot a failed send leaves behind. -/
def DispatcherPc.leaks (pc : DispatcherPc) : ℕ := if pc.left.isSome then 1 else 0

/-- The slots the dispatcher may hold. -/
def DispatcherPc.allowance : DispatcherPc → ℕ
  | reading | stamping _ _ | dispatching _ _ | reserving _ _ => 15
  | _ => 16

@[inherit_doc DispatcherPc.sends]
def ForwarderPc.sends : ForwarderPc → ℕ
  | sending _ _ => 1
  | _ => 0

@[inherit_doc DispatcherPc.leaks]
def ForwarderPc.leaks : ForwarderPc → ℕ
  | done => 1
  | _ => 0

@[simp] theorem reservedOf_append (a b : List SessionEvent) :
    reservedOf (a ++ b) = reservedOf a ++ reservedOf b :=
  List.filterMap_append

theorem length_eq_countP (messages : List ServerMessage) :
    messages.length =
      messages.countP isAnswer + messages.countP isEvent + messages.countP isRefusal := by
  induction messages with
  | nil => rfl
  | cons message messages ih =>
    cases message <;>
      simp [List.countP_cons, ih, isAnswer, isEvent, isRefusal] <;> omega

theorem countP_isRefusal {messages : List ServerMessage}
    (h : ∀ message ∈ messages, message.isRefusal = false) :
    messages.countP isRefusal = 0 := by
  rw [List.countP_eq_zero]
  intro message hmem
  simp [h message hmem]

theorem length_responsesOf_le (messages : List ServerMessage) :
    (responsesOf messages).length ≤ messages.countP isAnswer := by
  induction messages with
  | nil => exact Nat.le_refl _
  | cons message messages ih =>
    cases message <;>
      simp [responsesOf, List.countP_cons, isAnswer] at ih ⊢ <;> omega

namespace IpcSession

/-- **The counter and the channel**: what is reserved is counted, and what is queued is written,
held, or lost. -/
structure Carrying (s : IpcSession) (reserved queued written : List ServerMessage) : Prop where
  counter : (s.unwritten.val + written.length) % 2 ^ 64 =
    (reserved.length + s.writer.releases) % 2 ^ 64
  carried : (written ++ s.writer.inHand ++ s.channel).Sublist queued
  lost : queued.length ≤ written.length + s.channel.length + s.writer.lost
  room : s.channel.length ≤ sessionQueueLen

/-- **The slots of the senders**: each is queued, about to be queued, or leaked. -/
structure Slots (s : IpcSession) (reserved queued written : List ServerMessage) : Prop where
  answers : queued.countP isAnswer + s.dispatcher.sends ≤ reserved.countP isAnswer
  answers_le : reserved.countP isAnswer ≤ queued.countP isAnswer + s.dispatcher.sends +
    s.dispatcher.leaks
  events : queued.countP isEvent + s.forwarder.sends ≤ reserved.countP isEvent
  events_le : reserved.countP isEvent ≤ queued.countP isEvent + s.forwarder.sends +
    s.forwarder.leaks
  refusals : reserved.countP isRefusal = 0
  credit : reserved.countP isAnswer ≤ written.countP isAnswer + s.dispatcher.allowance

variable {s s' : IpcSession} {core : DaemonCore} {busFree : Bool} {events : List SessionEvent}
  {reserved queued written : List ServerMessage}

theorem Carrying.countP_le (h : s.Carrying reserved queued written) (p : ServerMessage → Bool) :
    written.countP p + s.writer.inHand.countP p + s.channel.countP p ≤ queued.countP p := by
  have hcarried := h.carried.countP_le (p := p)
  rwa [List.countP_append, List.countP_append] at hcarried

/-- **The counter is exact** where no refusal is queued. -/
theorem Carrying.exact (h : s.Carrying reserved queued written)
    (hslots : s.Slots reserved queued written)
    (hclear : ∀ message ∈ queued, message.isRefusal = false) :
    s.unwritten.val + written.length = reserved.length + s.writer.releases := by
  have hnone := countP_isRefusal hclear
  have hanswers := h.countP_le isAnswer
  have hevents := h.countP_le isEvent
  have hrefusals := h.countP_le isRefusal
  have hreserved := length_eq_countP reserved
  have hqueued := length_eq_countP queued
  have hwritten := length_eq_countP written
  have hsends : s.dispatcher.sends ≤ 1 := by cases s.dispatcher <;> simp [DispatcherPc.sends]
  have hsends' : s.forwarder.sends ≤ 1 := by cases s.forwarder <;> simp [ForwarderPc.sends]
  have hleaks : s.dispatcher.leaks ≤ 1 := by
    rw [DispatcherPc.leaks]
    split <;> omega
  have hleaks' : s.forwarder.leaks ≤ 1 := by cases s.forwarder <;> simp [ForwarderPc.leaks]
  have hreleases : s.writer.releases ≤ 1 := by cases s.writer <;> simp [WriterPc.releases]
  have hlost : s.writer.lost ≤ 257 := by cases s.writer <;> simp [WriterPc.lost, sessionQueueLen]
  have hlt := s.unwritten.isLt
  obtain ⟨ha, ha', he, he', hr, -⟩ := hslots
  obtain ⟨hcounter, -, hl, hroom⟩ := h
  rw [sessionQueueLen] at hroom
  omega

/-- **Where the window is open**, the dispatcher's slots are fewer than all. -/
theorem Carrying.answers_lt (h : s.Carrying reserved queued written)
    (hslots : s.Slots reserved queued written)
    (hclear : ∀ message ∈ queued, message.isRefusal = false) (hfree : s.isExhausted = false) :
    reserved.length < written.length + 16 ∧
    reserved.countP isAnswer ≤ written.countP isAnswer + 15 := by
  have hexact := h.exact hslots hclear
  have hlt : s.unwritten.val < 16 := by
    simpa [isExhausted, maxUnwrittenMessages, Fin.le_def] using hfree
  have hnone := countP_isRefusal hclear
  have hwrittenEvents := h.countP_le isEvent
  have hwrittenRefusals := h.countP_le isRefusal
  have hevents := hslots.events
  have hreserved := length_eq_countP reserved
  have hwritten := length_eq_countP written
  exact ⟨by omega, by omega⟩

/-! ## The counter and the channel -/

theorem Carrying.quiet (h : s.Carrying reserved queued written)
    (hunwritten : s'.unwritten = s.unwritten)
    (hchannel : s'.channel = s.channel) (hwriter : s'.writer = s.writer) :
    s'.Carrying reserved queued written := by
  obtain ⟨hcounter, hcarried, hlost, hroom⟩ := h
  refine ⟨?_, ?_, ?_, ?_⟩
  · rwa [hunwritten, hwriter]
  · rwa [hwriter, hchannel]
  · rwa [hwriter, hchannel]
  · rwa [hchannel]

theorem Carrying.reserves (h : s.Carrying reserved queued written) (message : ServerMessage)
    (hunwritten : s'.unwritten = s.unwritten + 1) (hchannel : s'.channel = s.channel)
    (hwriter : s'.writer = s.writer) :
    s'.Carrying (reserved ++ [message]) queued written := by
  obtain ⟨hcounter, hcarried, hlost, hroom⟩ := h
  refine ⟨?_, ?_, ?_, ?_⟩
  · have hval : (s.unwritten + 1).val = (s.unwritten.val + 1) % 2 ^ 64 := Fin.val_add _ _
    rw [hunwritten, hwriter, hval, List.length_append, List.length_singleton]
    omega
  · rwa [hwriter, hchannel]
  · rwa [hwriter, hchannel]
  · rwa [hchannel]

theorem Carrying.queues (h : s.Carrying reserved queued written) (message : ServerMessage)
    (hfree : s.channel.length < sessionQueueLen) (hunwritten : s'.unwritten = s.unwritten)
    (hchannel : s'.channel = s.channel ++ [message]) (hwriter : s'.writer = s.writer) :
    s'.Carrying reserved (queued ++ [message]) written := by
  obtain ⟨hcounter, hcarried, hlost, hroom⟩ := h
  refine ⟨?_, ?_, ?_, ?_⟩
  · rwa [hunwritten, hwriter]
  · rw [hwriter, hchannel, ← List.append_assoc]
    exact hcarried.append (List.Sublist.refl _)
  · rw [hwriter, hchannel, List.length_append, List.length_append, List.length_singleton]
    omega
  · rw [hchannel, List.length_append, List.length_singleton]
    exact hfree

theorem Carrying.dispatches (h : s.Carrying reserved queued written)
    (hstep : s.Dispatches core busFree s' events) :
    s'.Carrying (reserved ++ reservedOf events) (queued ++ queuedOf events)
      (written ++ writtenOf events) := by
  have hquiet : s'.unwritten = s.unwritten → s'.channel = s.channel → s'.writer = s.writer →
      s'.Carrying (reserved ++ []) (queued ++ []) (written ++ []) := by
    intro hunwritten hchannel hwriter
    simpa only [List.append_nil] using h.quiet hunwritten hchannel hwriter
  cases hstep with
  | refuses reason pc alive room =>
    show Carrying _ (reserved ++ []) (queued ++ [refusal reason]) (written ++ [])
    rw [List.append_nil, List.append_nil]
    exact h.queues (refusal reason) room rfl rfl rfl
  | sends message afterwards pc alive room =>
    show Carrying _ (reserved ++ []) (queued ++ [message]) (written ++ [])
    rw [List.append_nil, List.append_nil]
    exact h.queues message room rfl rfl rfl
  | reserves message afterwards pc =>
    show Carrying _ (reserved ++ [message]) (queued ++ []) (written ++ [])
    rw [List.append_nil, List.append_nil]
    exact h.reserves message rfl rfl rfl
  | answers id request handle asked pc authorized =>
    rcases authorized with rfl | ⟨-, rfl⟩ <;> exact hquiet rfl rfl rfl
  | _ => exact hquiet rfl rfl rfl

theorem Carrying.forwards (h : s.Carrying reserved queued written) (hstep : s.Forwards s' events) :
    s'.Carrying (reserved ++ reservedOf events) (queued ++ queuedOf events)
      (written ++ writtenOf events) := by
  have hquiet : s'.unwritten = s.unwritten → s'.channel = s.channel → s'.writer = s.writer →
      s'.Carrying (reserved ++ []) (queued ++ []) (written ++ []) := by
    intro hunwritten hchannel hwriter
    simpa only [List.append_nil] using h.quiet hunwritten hchannel hwriter
  cases hstep with
  | sends version item pc alive room =>
    show Carrying _ (reserved ++ []) (queued ++ [.event item.envelope]) (written ++ [])
    rw [List.append_nil, List.append_nil]
    exact h.queues (.event item.envelope) room rfl rfl rfl
  | reserves version item pc =>
    show Carrying _ (reserved ++ [.event item.envelope]) (queued ++ []) (written ++ [])
    rw [List.append_nil, List.append_nil]
    exact h.reserves (.event item.envelope) rfl rfl rfl
  | _ => exact hquiet rfl rfl rfl

theorem Carrying.writes (h : s.Carrying reserved queued written) (hstep : s.Writes s' events) :
    s'.Carrying (reserved ++ reservedOf events) (queued ++ queuedOf events)
      (written ++ writtenOf events) := by
  obtain ⟨hcounter, hcarried, hlost, hroom⟩ := h
  have hquiet : s'.Carrying reserved queued written →
      s'.Carrying (reserved ++ []) (queued ++ []) (written ++ []) := by
    intro h'
    simpa only [List.append_nil] using h'
  cases hstep with
  | stays => exact hquiet ⟨hcounter, hcarried, hlost, hroom⟩
  | takes message rest pc channel =>
    rw [pc] at hcounter hcarried hlost
    rw [channel] at hcarried hlost hroom
    refine hquiet ⟨hcounter, ?_, ?_, Nat.le_of_succ_le hroom⟩
    · simpa [WriterPc.inHand] using hcarried
    · simp only [WriterPc.lost, List.length_cons] at hlost ⊢
      omega
  | closes pc channel alone =>
    rw [pc] at hcounter hcarried hlost
    exact hquiet ⟨hcounter, hcarried, hlost.trans (Nat.le_succ _), hroom⟩
  | writes message pc =>
    rw [pc] at hcounter hcarried hlost
    show Carrying _ (reserved ++ []) (queued ++ []) (written ++ [message])
    rw [List.append_nil, List.append_nil]
    refine ⟨?_, ?_, ?_, hroom⟩
    · rw [List.length_append, List.length_singleton]
      simp only [WriterPc.releases] at hcounter ⊢
      omega
    · simpa [WriterPc.inHand] using hcarried
    · rw [List.length_append, List.length_singleton]
      simp only [WriterPc.lost] at hlost ⊢
      omega
  | fails message pc =>
    rw [pc] at hcounter hcarried hlost
    refine hquiet ⟨hcounter, List.Sublist.trans ?_ hcarried, hlost, hroom⟩
    exact ((List.Sublist.refl written).append (List.nil_sublist _)).append (List.Sublist.refl _)
  | releases pc =>
    rw [pc] at hcounter hcarried hlost
    refine hquiet ⟨?_, hcarried, hlost, hroom⟩
    have hval : (s.unwritten - 1).val = (2 ^ 64 - 1 + s.unwritten.val) % 2 ^ 64 := rfl
    show ((s.unwritten - 1).val + _) % _ = (_ + 0) % _
    rw [hval]
    simp only [WriterPc.releases] at hcounter
    omega
  | drops pc =>
    rw [pc] at hcounter hcarried hlost
    refine hquiet ⟨hcounter, List.Sublist.trans ?_ hcarried, ?_, Nat.zero_le _⟩
    · exact (List.Sublist.refl _).append (List.nil_sublist _)
    · simp only [WriterPc.lost, List.length_nil] at hlost ⊢
      omega
  | notes pc =>
    rw [pc] at hcounter hcarried hlost
    exact hquiet ⟨hcounter, hcarried, hlost, hroom⟩

/-! ## The slots -/

/-- Another place of the dispatcher, with no slot taken. -/
theorem Slots.goto (h : s.Slots reserved queued written) {pc : DispatcherPc}
    (hpc : s'.dispatcher = pc)
    (hforwarder : s'.forwarder = s.forwarder) (hsends : pc.sends ≤ s.dispatcher.sends)
    (hleaks : s.dispatcher.sends + s.dispatcher.leaks ≤ pc.sends + pc.leaks)
    (hcredit : reserved.countP isAnswer ≤ written.countP isAnswer + pc.allowance) :
    s'.Slots reserved queued written := by
  obtain ⟨hanswers, hanswers', hevents, hevents', hrefusals, -⟩ := h
  refine ⟨?_, ?_, ?_, ?_, hrefusals, ?_⟩
  · rw [hpc]
    omega
  · rw [hpc]
    omega
  · rwa [hforwarder]
  · rwa [hforwarder]
  · rwa [hpc]

theorem Slots.answers_of_new (h : s.Slots reserved queued written) (hgreeting : s.Greeting queued)
    (hleft : s.dispatcher.left = none) (hopens : s.dispatcher.opens = false)
    (hsends : s.dispatcher.sends = 0)
    (hdone : s.helloDone = false) : reserved.countP isAnswer = 0 := by
  have hnil : queued = [] := (hgreeting.running hleft hopens).2 hdone
  have hle := h.answers_le
  rw [hnil, hsends, DispatcherPc.leaks, hleft] at hle
  simpa using hle

theorem isAnswer_of_sound {pc : DispatcherPc} {message : ServerMessage} {afterwards : Afterwards}
    {done : Bool} (hpc : pc = .reserving message afterwards ∨ pc = .sending message afterwards)
    (h : pc.Sound done) :
    message.isAnswer = true ∧ message.isEvent = false ∧ message.isRefusal = false := by
  rcases hpc with rfl | rfl <;>
    rcases h with ⟨ack, version, client, rfl, -⟩ | ⟨-, -, response, rfl⟩ <;> exact ⟨rfl, rfl, rfl⟩

theorem Slots.dispatches (h : s.Slots reserved queued written)
    (hcarrying : s.Carrying reserved queued written)
    (hgreeting : s.Greeting queued) (hunrefused : s.Unrefused queued)
    (hstep : s.Dispatches core busFree s' events) :
    s'.Slots (reserved ++ reservedOf events) (queued ++ queuedOf events)
      (written ++ writtenOf events) := by
  have hcredit := h.credit
  have hquiet : ∀ pc pc', s.dispatcher = pc → s'.dispatcher = pc' → s'.forwarder = s.forwarder →
      pc'.sends ≤ pc.sends → pc.sends + pc.leaks ≤ pc'.sends + pc'.leaks →
      pc.allowance ≤ pc'.allowance →
      s'.Slots (reserved ++ []) (queued ++ []) (written ++ []) := by
    rintro pc pc' rfl hpc hforwarder hsends hleaks hallowance
    simpa only [List.append_nil] using h.goto hpc hforwarder hsends hleaks (by omega)
  have hsound := hgreeting.sound
  cases hstep with
  | stays =>
    simpa only [reservedOf, queuedOf, writtenOf, List.filterMap_nil, List.append_nil] using h
  | subscribes pc free => exact hquiet _ .top pc rfl rfl le_rfl le_rfl le_rfl
  | reads pc credit =>
    show Slots _ (reserved ++ []) (queued ++ []) (written ++ [])
    simp only [List.append_nil]
    have hleft : s.dispatcher.left = none := by rw [pc]; rfl
    refine h.goto (show _ = DispatcherPc.reading from rfl) rfl (Nat.zero_le _)
      (by rw [pc]; exact le_rfl) ?_
    cases hdone : s.helloDone with
    | true => exact (hcarrying.answers_lt h (hunrefused (refused_of_left hleft)) (credit hdone)).2
    | false =>
      rw [h.answers_of_new hgreeting hleft (by rw [pc]; rfl) (by rw [pc]; rfl) hdone]
      exact Nat.zero_le _
  | polls pc => exact hquiet _ .top pc rfl rfl le_rfl le_rfl (Nat.le_succ 15)
  | ends pc =>
    rcases pc with pc | pc
    · exact hquiet _ (.returned .ended) pc rfl rfl le_rfl (Nat.zero_le _) le_rfl
    · exact hquiet _ (.returned .ended) pc rfl rfl le_rfl (Nat.zero_le _) (Nat.le_succ 15)
  | declines reason pc =>
    rcases pc with pc | pc
    · exact hquiet _ (.refusing reason) pc rfl rfl le_rfl le_rfl le_rfl
    · exact hquiet _ (.refusing reason) pc rfl rfl le_rfl le_rfl (Nat.le_succ 15)
  | refuses reason pc alive room =>
    show Slots _ (reserved ++ []) (queued ++ [refusal reason]) (written ++ [])
    rw [List.append_nil, List.append_nil]
    obtain ⟨hanswers, hanswers', hevents, hevents', hrefusals, -⟩ := h
    rw [pc] at hanswers hanswers' hcredit
    have hnone : ∀ p : ServerMessage → Bool, p (refusal reason) = false →
        (queued ++ [refusal reason]).countP p = queued.countP p := by
      intro p hp
      rw [List.countP_append, List.countP_singleton, if_neg (by simp [hp]), Nat.add_zero]
    refine ⟨?_, ?_, ?_, ?_, hrefusals, hcredit⟩
    · rwa [hnone isAnswer rfl]
    · rw [hnone isAnswer rfl]
      exact hanswers'.trans (Nat.le_succ _)
    · rwa [hnone isEvent rfl]
    · rwa [hnone isEvent rfl]
  | refusesNobody reason pc dead =>
    exact hquiet _ (.returned .ended) pc rfl rfl le_rfl (Nat.zero_le _) le_rfl
  | greets version client pc =>
    exact hquiet _ (.stamping version client) pc rfl rfl le_rfl le_rfl le_rfl
  | stamps version client pc => exact hquiet _ (.reserving _ _) pc rfl rfl le_rfl le_rfl le_rfl
  | accepts id request pc known =>
    exact hquiet _ (.dispatching id request) pc rfl rfl le_rfl le_rfl le_rfl
  | panics id request pc =>
    exact hquiet _ (.returned .ended) pc rfl rfl le_rfl (Nat.zero_le _) (Nat.le_succ 15)
  | answers id request handle asked pc authorized =>
    rcases authorized with rfl | ⟨-, rfl⟩ <;>
      exact hquiet _ (.reserving _ _) pc rfl rfl le_rfl le_rfl le_rfl
  | reserves message afterwards pc =>
    show Slots _ (reserved ++ [message]) (queued ++ []) (written ++ [])
    rw [List.append_nil, List.append_nil]
    obtain ⟨hanswer, hevent, hrefusal⟩ := isAnswer_of_sound (.inl pc) hsound
    obtain ⟨hanswers, hanswers', hevents, hevents', hrefusals, -⟩ := h
    rw [pc] at hanswers hanswers' hcredit
    refine ⟨?_, ?_, ?_, ?_, ?_, ?_⟩
    · rw [List.countP_append, List.countP_singleton, if_pos hanswer]
      exact Nat.succ_le_succ hanswers
    · rw [List.countP_append, List.countP_singleton, if_pos hanswer]
      exact Nat.succ_le_succ hanswers'
    · rw [List.countP_append, List.countP_singleton, if_neg (by simp [hevent])]
      exact hevents
    · rw [List.countP_append, List.countP_singleton, if_neg (by simp [hevent])]
      exact hevents'
    · rw [List.countP_append, List.countP_singleton, if_neg (by simp [hrefusal])]
      exact hrefusals
    · rw [List.countP_append, List.countP_singleton, if_pos hanswer]
      exact Nat.succ_le_succ hcredit
  | sends message afterwards pc alive room =>
    show Slots _ (reserved ++ []) (queued ++ [message]) (written ++ [])
    rw [List.append_nil, List.append_nil]
    obtain ⟨hanswer, hevent, -⟩ := isAnswer_of_sound (.inr pc) hsound
    obtain ⟨hanswers, hanswers', hevents, hevents', hrefusals, -⟩ := h
    have hpc : afterwards.pc.sends = 0 ∧ afterwards.pc.leaks = 0 ∧
      afterwards.pc.allowance = 16 := by
      cases afterwards <;> exact ⟨rfl, rfl, rfl⟩
    rw [pc] at hanswers hanswers' hcredit
    refine ⟨?_, ?_, ?_, ?_, hrefusals, ?_⟩
    · rw [List.countP_append, List.countP_singleton, if_pos hanswer, hpc.1]
      exact hanswers
    · rw [List.countP_append, List.countP_singleton, if_pos hanswer, hpc.1, hpc.2.1]
      exact hanswers'
    · rw [List.countP_append, List.countP_singleton, if_neg (by simp [hevent])]
      exact hevents
    · rw [List.countP_append, List.countP_singleton, if_neg (by simp [hevent])]
      exact hevents'
    · rwa [hpc.2.2]
  | sendsNobody message afterwards pc dead =>
    exact hquiet _ (.returned .ended) pc rfl rfl (Nat.zero_le _) le_rfl le_rfl
  | opens version client pc => exact hquiet _ .top pc rfl rfl le_rfl le_rfl le_rfl
  | returns cause pc => exact hquiet _ (.leaving cause) pc rfl rfl le_rfl le_rfl le_rfl
  | leaves cause pc free => exact hquiet _ (.over cause) pc rfl rfl le_rfl le_rfl le_rfl

/-- Another place of the forwarder, with no slot taken. -/
theorem Slots.resume (h : s.Slots reserved queued written)
    (hdispatcher : s'.dispatcher = s.dispatcher) (hsends : s'.forwarder.sends ≤ s.forwarder.sends)
    (hleaks : s.forwarder.sends + s.forwarder.leaks ≤ s'.forwarder.sends + s'.forwarder.leaks) :
    s'.Slots reserved queued written := by
  obtain ⟨hanswers, hanswers', hevents, hevents', hrefusals, hcredit⟩ := h
  refine ⟨?_, ?_, ?_, ?_, hrefusals, ?_⟩
  · rwa [hdispatcher]
  · rwa [hdispatcher]
  · omega
  · omega
  · rwa [hdispatcher]

theorem Slots.forwards (h : s.Slots reserved queued written) (hstep : s.Forwards s' events) :
    s'.Slots (reserved ++ reservedOf events) (queued ++ queuedOf events)
      (written ++ writtenOf events) := by
  have hquiet : ∀ pc, s.forwarder = pc → s'.dispatcher = s.dispatcher →
    s'.forwarder.sends ≤ pc.sends →
      pc.sends + pc.leaks ≤ s'.forwarder.sends + s'.forwarder.leaks →
      s'.Slots (reserved ++ []) (queued ++ []) (written ++ []) := by
    rintro pc rfl hdispatcher hsends hleaks
    simpa only [List.append_nil] using h.resume hdispatcher hsends hleaks
  have hevent : ∀ (p : ServerMessage → Bool) (messages : List ServerMessage) (item : Forwarded),
      (messages ++ [ServerMessage.event item.envelope]).countP p =
        messages.countP p + if p (ServerMessage.event item.envelope) then 1 else 0 := by
    intro p messages item
    rw [List.countP_append, List.countP_singleton]
  cases hstep with
  | stays =>
    simpa only [reservedOf, queuedOf, writtenOf, List.filterMap_nil, List.append_nil] using h
  | enters version pc gate => exact hquiet _ pc rfl le_rfl le_rfl
  | turnsBack pc gate closed => exact hquiet _ pc rfl le_rfl (Nat.zero_le _)
  | receives version envelope rest pc queue reaches => exact hquiet _ pc rfl le_rfl le_rfl
  | withholds version envelope rest pc queue hidden => exact hquiet _ rfl rfl le_rfl le_rfl
  | finishes version pc queue left => exact hquiet _ pc rfl le_rfl (Nat.zero_le _)
  | reserves version item pc =>
    show Slots _ (reserved ++ [.event item.envelope]) (queued ++ []) (written ++ [])
    rw [List.append_nil, List.append_nil]
    obtain ⟨hanswers, hanswers', hevents, hevents', hrefusals, hcredit⟩ := h
    rw [pc] at hevents hevents'
    refine ⟨?_, ?_, ?_, ?_, ?_, ?_⟩
    · rwa [hevent]
    · rwa [hevent]
    · rw [hevent]
      exact Nat.succ_le_succ hevents
    · rw [hevent]
      exact Nat.succ_le_succ hevents'
    · rwa [hevent]
    · rwa [hevent]
  | sends version item pc alive room =>
    show Slots _ (reserved ++ []) (queued ++ [.event item.envelope]) (written ++ [])
    rw [List.append_nil, List.append_nil]
    obtain ⟨hanswers, hanswers', hevents, hevents', hrefusals, hcredit⟩ := h
    have hpc : (item.pc version).sends = 0 ∧ (item.pc version).leaks = 0 := by
      cases item <;> exact ⟨rfl, rfl⟩
    rw [pc] at hevents hevents'
    refine ⟨?_, ?_, ?_, ?_, hrefusals, hcredit⟩
    · rwa [hevent]
    · rwa [hevent]
    · rw [hevent, hpc.1]
      exact hevents
    · rw [hevent, hpc.1, hpc.2]
      exact hevents'
  | sendsNobody version item pc dead => exact hquiet _ pc rfl (Nat.zero_le _) le_rfl
  | signals version pc marked reaches => exact hquiet _ pc rfl le_rfl le_rfl
  | resumes version pc unmarked => exact hquiet _ pc rfl le_rfl le_rfl

theorem Slots.writes (h : s.Slots reserved queued written) (hstep : s.Writes s' events) :
    s'.Slots (reserved ++ reservedOf events) (queued ++ queuedOf events)
      (written ++ writtenOf events) := by
  have hsame : s'.dispatcher = s.dispatcher ∧ s'.forwarder = s.forwarder ∧ reservedOf events = [] ∧
      queuedOf events = [] := by
    cases hstep <;> exact ⟨rfl, rfl, rfl, rfl⟩
  obtain ⟨hdispatcher, hforwarder, hreserved, hqueued⟩ := hsame
  obtain ⟨hanswers, hanswers', hevents, hevents', hrefusals, hcredit⟩ := h
  rw [hreserved, hqueued, List.append_nil, List.append_nil]
  refine ⟨?_, ?_, ?_, ?_, hrefusals, ?_⟩
  · rwa [hdispatcher]
  · rwa [hdispatcher]
  · rwa [hforwarder]
  · rwa [hforwarder]
  · rw [hdispatcher, List.countP_append]
    omega

end IpcSession

namespace IpcServer

variable {peer : PeerCredentials} {d d' : IpcServer} {events emitted : List SessionEvent}

/-- **The window** of the session, after `events`. -/
structure Windowed (peer : PeerCredentials) (d : IpcServer) (events : List SessionEvent) :
    Prop where
  ordered : Ordered peer d events
  carrying : d.session.Carrying (reservedOf events) (queuedOf events) (writtenOf events)
  slots : d.session.Slots (reservedOf events) (queuedOf events) (writtenOf events)

theorem step_windowed (h : Windowed peer d events) (hstep : d.Steps d' emitted) :
    Windowed peer d' (events ++ emitted) := by
  obtain ⟨hordered, hcarrying, hslots⟩ := h
  refine ⟨step_ordered hordered hstep, ?_, ?_⟩
  · rw [reservedOf_append, queuedOf_append, writtenOf_append]
    cases hstep with
    | publishes hstep =>
      have hlike := hstep.alike
      have hnone : reservedOf emitted = [] := by cases hstep <;> rfl
      obtain ⟨hqueued, -, hwritten⟩ := queuedOf_publishes hstep
      rw [hnone, hqueued, hwritten, List.append_nil, List.append_nil, List.append_nil]
      exact hcarrying.quiet hlike.unwritten hlike.channel hlike.writer
    | dispatches hstep => exact hcarrying.dispatches hstep
    | forwards hstep => exact hcarrying.forwards hstep
    | writes hstep => exact hcarrying.writes hstep
  · rw [reservedOf_append, queuedOf_append, writtenOf_append]
    cases hstep with
    | publishes hstep =>
      have hlike := hstep.alike
      have hnone : reservedOf emitted = [] := by cases hstep <;> rfl
      obtain ⟨hqueued, -, hwritten⟩ := queuedOf_publishes hstep
      rw [hnone, hqueued, hwritten, List.append_nil, List.append_nil, List.append_nil]
      refine hslots.resume hlike.dispatcher ?_ ?_
      · rw [hlike.forwarder]
      · rw [hlike.forwarder]
    | dispatches hstep =>
      exact hslots.dispatches hcarrying hordered.greeting hordered.unrefused hstep
    | forwards hstep => exact hslots.forwards hstep
    | writes hstep => exact hslots.writes hstep

theorem run_windowed (version : String) (networkIntegration : NetworkIntegration)
    (peer : PeerCredentials) (as : List Action) :
    Windowed peer (Machine.run step (start version networkIntegration peer) as).1
      (Machine.run step (start version networkIntegration peer) as).2 := by
  refine Machine.run_inv (Windowed peer) (fun d _ a h => step_windowed h (d.step_steps a)) _ []
    ⟨ordered_start version networkIntegration peer, ?_, ?_⟩ as
  · exact ⟨rfl, List.Sublist.refl _, Nat.le_refl _, Nat.zero_le _⟩
  · exact ⟨Nat.le_refl _, Nat.le_refl _, Nat.le_refl _, Nat.le_refl _, rfl, Nat.zero_le _⟩

/-! ## The credit of a session -/

/-- **The request credit**, after a run. -/
structure RequestCredit (d : IpcServer) (events : List SessionEvent) : Prop where
  /-- Until a refusal is queued the counter is the number of messages reserved and not written, and
  of the one that is written and not released. -/
  counts : (∀ message ∈ queuedOf events, message.isRefusal = false) →
    d.session.unwritten.val + (writtenOf events).length = (reservedOf events).length +
    d.session.writer.releases
  /-- After the handshake no read begins while that many messages are unwritten. -/
  checked : ∀ a : Action, d.session.helloDone = true → d.session.dispatcher ≠ .reading →
    (d.step a).1.session.dispatcher = .reading →
    (reservedOf events).length < (writtenOf events).length + 16
  /-- What is read finds fewer of the dispatcher's own messages unwritten. -/
  reading : d.session.dispatcher = .reading →
    (reservedOf events).countP isAnswer < (writtenOf events).countP isAnswer + 16
  /-- The responses queued or being written. -/
  bounded : (responsesOf (d.session.writer.inHand ++ d.session.channel)).length ≤ 16

theorem reads_of_step {a : Action} (hnot : d.session.dispatcher ≠ .reading)
    (hreading : (d.step a).1.session.dispatcher = .reading) :
    d.session.dispatcher = .top ∧ (d.session.helloDone = true → d.session.isExhausted = false) := by
  have hstep := d.step_steps a
  generalize d.step a = r at *
  obtain ⟨d', emitted⟩ := r
  dsimp only at hreading hstep
  cases hstep with
  | publishes hstep => exact absurd (hstep.alike.dispatcher.symm.trans hreading) hnot
  | forwards hstep => cases hstep <;> exact absurd hreading hnot
  | writes hstep => cases hstep <;> exact absurd hreading hnot
  | dispatches hstep =>
    cases hstep with
    | stays => exact absurd hreading hnot
    | reads pc credit => exact ⟨pc, credit⟩
    | sends message afterwards pc alive room => cases afterwards <;> cases hreading
    | _ => cases hreading

/-- **The request-credit window.** -/
theorem request_credit (version : String) (networkIntegration : NetworkIntegration)
    (peer : PeerCredentials) (as : List Action) :
    RequestCredit (Machine.run step (start version networkIntegration peer) as).1
      (Machine.run step (start version networkIntegration peer) as).2 := by
  obtain ⟨hordered, hcarrying, hslots⟩ := run_windowed version networkIntegration peer as
  refine ⟨hcarrying.exact hslots, fun a hdone hnot hreading => ?_, fun hreading => ?_, ?_⟩
  · obtain ⟨hpc, hcredit⟩ := reads_of_step hnot hreading
    exact (hcarrying.answers_lt hslots (hordered.unrefused (by rw [hpc]; rfl)) (hcredit hdone)).1
  · have hcredit := hslots.credit
    rw [hreading] at hcredit
    exact Nat.lt_succ_of_le hcredit
  · have hallowance : ∀ pc : DispatcherPc, pc.allowance ≤ 16 := by
      intro pc
      cases pc <;> simp [DispatcherPc.allowance]
    have hle := length_responsesOf_le
      ((Machine.run step (start version networkIntegration peer) as).1.session.writer.inHand ++
        (Machine.run step (start version networkIntegration peer) as).1.session.channel)
    rw [List.countP_append] at hle
    have hcarried := hcarrying.countP_le isAnswer
    have hanswers := hslots.answers
    have hcredit := hslots.credit
    have hpc := hallowance (Machine.run step (start version networkIntegration peer)
      as).1.session.dispatcher
    omega

/-! ## A request read past the window -/

/-- A handshake; the dispatcher goes back to read. -/
def greeted : List Action :=
  [.advance, .advance, .read (.hello 1 ⟨"cli", "1", .cli⟩), .advance, .advance, .advance, .advance,
   .advance, .forward]

/-- An event is published and forwarded. -/
def forwarded : List Action := [.notice .info "", .publish, .forward, .forward, .forward, .forward]

/-- The forwarder fills the window while the dispatcher waits. -/
def filledWindow : List Action := greeted ++ (List.replicate 15 forwarded).flatten

/-- **A request is read past the window**: the check was made before the events were forwarded. And
between a write and its release the counter is one above what is unwritten. -/
theorem read_past_window :
    (¬ ∀ (version : String) (networkIntegration : NetworkIntegration) (peer : PeerCredentials)
     (as : List Action)
        (d : IpcServer) (events : List SessionEvent) (id : ℕ) (request : Request),
      Machine.run step (start version networkIntegration peer) as = (d, events) →
      (∀ message ∈ queuedOf events, message.isRefusal = false) →
      (d.step (.read (.request id request))).1.session.dispatcher = .dispatching id request →
      (reservedOf events).length < (writtenOf events).length + 16) ∧
    ¬ ∀ (version : String) (networkIntegration : NetworkIntegration) (peer : PeerCredentials)
    (as : List Action)
        (d : IpcServer) (events : List SessionEvent),
      Machine.run step (start version networkIntegration peer) as = (d, events) →
      (∀ message ∈ queuedOf events, message.isRefusal = false) →
      d.session.unwritten.val + (writtenOf events).length = (reservedOf events).length := by
  constructor
  · intro h
    have hlt := h "1" .auto ⟨1000, 1000, none⟩ filledWindow _ _ 1 .getState rfl (by decide) rfl
    revert hlt
    decide
  · intro h
    have heq := h "1" .auto ⟨1000, 1000, none⟩ (greeted ++ [.write true, .write true]) _ _ rfl
      (by decide)
    revert heq
    decide

end IpcServer

end ProtonWire
