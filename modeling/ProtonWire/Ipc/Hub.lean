import ProtonWire.Ipc.Progress
import ProtonWire.Lib.Projection

/-!
# The sessions of a server

`crates/ipc/src/bus.rs` and `crates/ipc/src/server/mod.rs`: the accept loop with its slots, any
number of sessions, and the bus that publishes to all of them, as a machine. An action is one atomic
step of one thread; the bus goes through its entries in any order.

* `Hub`, `Hub.step`: the server;
* `Hub.view`: the core and one session of it;
* **`hub_refines_session`**: to every session, a run of the server is a run of the core and that
  session alone.
-/

namespace ProtonWire

/-- `MAX_SESSIONS`. -/
def maxSessions : ℕ := 64

/-- One accepted connection, and whether its slot has been given back. -/
structure SessionWorker where
  session : IpcSession
  released : Bool

/-- The lock of the bus: free, or held by a publication, with the entries it has not come to, and
the one it is about to mark. -/
inductive BusLock where
  | free
  | held (pending : List ℕ) (marking : Option ℕ)

/-- The core, the bus, and the sessions in the order they were accepted. -/
structure Hub where
  core : DaemonCore
  lock : BusLock
  workers : List SessionWorker
  reserved : ℕ
  /-- The accept loop has claimed a slot too many, and not given it back. -/
  refusing : Bool

/-- A step of one thread of a session. -/
inductive SessionAction where
  | advance
  | incident (incident : IpcSession.Incident)
  | read (message : ClientMessage)
  | handled (handle : Except RpcError RequestResult)
  | forward
  | write (ok : Bool)

/-- A step of a session, with what it reads of the core and of the bus. -/
def IpcSession.act (s : IpcSession) (core : DaemonCore) (busFree : Bool) :
    SessionAction → IpcSession × List SessionEvent
  | .advance => s.advance core busFree
  | .incident i => s.onIncident i
  | .read message => match s.dispatcher with
    | .reading => (s.onMessage message, [])
    | _ => (s, [])
  | .handled handle => s.onHandled handle
  | .forward => s.forward
  | .write ok => s.write ok

/-- The step of the single session. -/
def SessionAction.single : SessionAction → IpcServer.Action
  | .advance => .advance
  | .incident i => .incident i
  | .read message => .read message
  | .handled handle => .handled handle
  | .forward => .forward
  | .write ok => .write ok

namespace Hub

/-- An atomic step of one thread. -/
inductive Action where
  | setVpnState (to_ : VpnState)
  | notice (level : NoticeLevel) (message : String)
  | lock
  | visit (k : ℕ)
  | mark
  | unlock
  | accept
  | giveBack
  | session (k : ℕ) (a : SessionAction)
  | reject (k : ℕ)
  | release (k : ℕ)

/-- The server before its first connection. -/
def start (version : String) (networkIntegration : NetworkIntegration) : Hub where
  core := .new version networkIntegration
  lock := .free
  workers := []
  reserved := 0
  refusing := false

variable (peers : ℕ → PeerCredentials) (h : Hub)

/-- The session of a connection; before it is accepted, the one it will begin as. -/
def sessionAt (k : ℕ) : IpcSession :=
  match h.workers[k]? with
  | some worker => worker.session
  | none => .new (peers k)

/-- The session of a connection goes on. -/
def setSession (k : ℕ) (s : IpcSession) : Hub :=
  { h with workers := h.workers.modify k fun worker => { worker with session := s } }

/-- `emit_locked` runs under the lock of the core. -/
def emit (change : DaemonCore → DaemonCore) : Hub :=
  match h.core.emitter with
  | .free => { h with core := change h.core }
  | _ => h

/-- The entries of the bus. -/
def entries : List ℕ :=
  (List.range h.workers.length).filter fun k => match h.workers[k]? with
    | some worker => worker.session.subscribed
    | none => false

/-- `publish` takes the lock of the bus. -/
def takeLock : Hub :=
  match h.core.emitter, h.lock with
  | .publishing _, .free => { h with lock := .held h.entries none }
  | _, _ => h

/-- `publish` comes to an entry: the send never waits, and a receiver that is gone ends the
entry. -/
def visit (k : ℕ) : Hub × List (ℕ × SessionEvent) :=
  match h.core.emitter, h.lock, h.workers[k]? with
  | .publishing envelope, .held pending none, some worker =>
    if k ∈ pending then
      match worker.session.forwarder with
      | .done =>
        ({ h.setSession k { worker.session with subscribed := false } with
        lock := .held (pending.erase k) none }, [])
      | _ =>
        if worker.session.queue.length < sessionQueueLen then
          ({ h.setSession k { worker.session with queue := worker.session.queue ++ [envelope] } with
              lock := .held (pending.erase k) none }, [(k, .accepted envelope)])
        else ({ h with lock := .held (pending.erase k) (some k) }, [(k, .dropped envelope)])
    else (h, [])
  | _, _, _ => (h, [])

/-- The overflow of an entry is marked. -/
def mark : Hub :=
  match h.lock with
  | .held pending (some k) => match h.workers[k]? with
    | some worker => { h.setSession k { worker.session with overflowed := true } with
      lock := .held pending none }
    | none => h
  | _ => h

/-- `publish` has come to every entry; the core's lock is released behind it. -/
def unlock : Hub :=
  match h.lock with
  | .held [] none => { h with lock := .free, core := { h.core with emitter := .free } }
  | _ => h

/-- A connection is accepted; `try_reserve_session`: `fetch_add` first. -/
def accept : Hub :=
  if h.refusing then h
  else if h.reserved < maxSessions then
    { h with
      reserved := h.reserved + 1
      workers := h.workers ++ [⟨.new (peers h.workers.length), false⟩] }
  else { h with reserved := h.reserved + 1, refusing := true }

/-- Whether nobody publishes. -/
def busFree : Bool :=
  match h.lock with
  | .free => true
  | .held _ _ => false

/-- A step of a session's thread. -/
def act (k : ℕ) (a : SessionAction) : Hub × List (ℕ × SessionEvent) :=
  match h.workers[k]? with
  | some worker =>
    if worker.released then (h, [])
    else (h.setSession k (worker.session.act h.core h.busFree a).1,
      (worker.session.act h.core h.busFree a).2.map fun e => (k, e))
  | none => (h, [])

/-- The worker has nothing more to do, its threads have been joined. A dispatcher that panics gives
its slot back without joining them; here it holds the slot until they have ended. -/
def finished (s : IpcSession) : Bool :=
  match s.dispatcher, s.forwarder, s.writer with
  | .over _, .done, .gone => true
  | _, _, _ => false

/-- The drop guard of the worker gives its slot back. -/
def giveUp (k : ℕ) (over_ : IpcSession → Bool) : Hub :=
  match h.workers[k]? with
  | some worker =>
    if worker.released = false ∧ over_ worker.session = true then
      { h with
        reserved := h.reserved - 1
        workers := h.workers.modify k fun worker => { worker with released := true } }
    else h
  | none => h

/-- The worker has not subscribed. -/
def unsubscribed (s : IpcSession) : Bool :=
  match s.dispatcher with
  | .subscribing => true
  | _ => false

/-- A step of one thread. -/
def step (h : Hub) : Action → Hub × List (ℕ × SessionEvent)
  | .setVpnState to_ => (h.emit fun core => core.setVpnState to_, [])
  | .notice level message => (h.emit fun core => core.notice level message, [])
  | .lock => (h.takeLock, [])
  | .visit k => h.visit k
  | .mark => (h.mark, [])
  | .unlock => (h.unlock, [])
  | .accept => (h.accept peers, [])
  | .giveBack => (if h.refusing then { h with reserved := h.reserved - 1, refusing := false }
    else h, [])
  | .session k a => h.act k a
  | .reject k => (h.giveUp k unsubscribed, [])
  | .release k => (h.giveUp k finished, [])

/-! ## One session of the server -/

/-- What the publication has before it at one session. -/
def emitterAt (k : ℕ) : Emitter :=
  match h.lock with
  | .free => h.core.emitter
  | .held pending marking => if marking = some k then .marking else if k ∈ pending then
    h.core.emitter else .free

/-- **The core and one session**, as if there were no other. -/
def view (k : ℕ) : IpcServer where
  core := { h.core with emitter := h.emitterAt k }
  session := h.sessionAt peers k

/-- The events of one session. -/
def reportAt (k : ℕ) : ℕ × SessionEvent → Option SessionEvent
  | (j, e) => if j = k then some e else none

/-! ## What holds of the server -/

/-- The workers that hold a slot. -/
def live (workers : List SessionWorker) : ℕ := workers.countP fun worker => !worker.released

/-- **What holds of the lock** and of the slots. -/
structure Consistent (h : Hub) : Prop where
  unmarked : h.core.emitter ≠ .marking
  publishing : ∀ pending marking, h.lock = .held pending marking →
    ∃ envelope, h.core.emitter = .publishing envelope
  nodup : ∀ pending marking, h.lock = .held pending marking → pending.Nodup
  marking : ∀ pending k, h.lock = .held pending (some k) → k ∉ pending ∧ k < h.workers.length
  pending : ∀ pending marking, h.lock = .held pending marking → ∀ k ∈ pending, ∃ worker,
    h.workers[k]? = some worker ∧ worker.session.subscribed = true
  slots : h.reserved = live h.workers + if h.refusing then 1 else 0
  ceiling : live h.workers ≤ maxSessions

variable {peers} {h}

theorem countP_modify {α : Type*} (p : α → Bool) (f : α → α) {l : List α} {k : ℕ} {a : α}
    (ha : l[k]? = some a) :
    (l.modify k f).countP p + (if p a then 1 else 0) = l.countP p + if p (f a) then 1 else 0 := by
  induction l generalizing k with
  | nil => simp at ha
  | cons b l ih =>
    cases k with
    | zero =>
      rw [List.getElem?_cons_zero, Option.some_inj] at ha
      subst ha
      simp only [List.modify_zero_cons, List.countP_cons]
      omega
    | succ k =>
      rw [List.getElem?_cons_succ] at ha
      have := ih ha
      simp only [List.modify_succ_cons, List.countP_cons]
      omega

theorem live_setSession (k : ℕ) (s : IpcSession) :
    live (h.setSession k s).workers = live h.workers := by
  cases hk : h.workers[k]? with
  | none => rw [setSession, List.modify_eq_self (List.getElem?_eq_none_iff.mp hk)]
  | some worker =>
    have := countP_modify (fun worker : SessionWorker => !worker.released)
      (fun worker => { worker with session := s }) hk
    simp only [live, setSession] at this ⊢
    omega

theorem live_released {k : ℕ} {worker : SessionWorker} (hk : h.workers[k]? = some worker)
    (hheld : worker.released = false) :
    live (h.workers.modify k fun worker => { worker with released := true }) + 1 =
    live h.workers := by
  have := countP_modify (fun worker : SessionWorker => !worker.released)
    (fun worker => { worker with released := true }) hk
  simp only [hheld, Bool.not_false, Bool.not_true, if_true, Bool.false_eq_true, if_false] at this
  simp only [live]
  omega

theorem live_accepted (s : IpcSession) : live (h.workers ++ [⟨s, false⟩]) = live h.workers + 1 := by
  simp [live, List.countP_append]

theorem length_setSession (k : ℕ) (s : IpcSession) :
    (h.setSession k s).workers.length = h.workers.length :=
  List.length_modify _ _ _

theorem getElem?_setSession {k j : ℕ} {s : IpcSession} {worker : SessionWorker}
    (hj : h.workers[j]? = some worker) :
    (h.setSession k s).workers[j]? = some (if k = j then { worker with session := s }
     else worker) := by
  rw [setSession, List.getElem?_modify, hj]
  split <;> rfl

theorem sessionAt_setSession {k : ℕ} {worker : SessionWorker} (hk : h.workers[k]? = some worker)
    (s : IpcSession)
    (j : ℕ) : (h.setSession k s).sessionAt peers j = if k = j then s else h.sessionAt peers j := by
  simp only [sessionAt, setSession, List.getElem?_modify]
  by_cases hkj : k = j
  · subst hkj
    simp [hk]
  · simp only [hkj, if_false]
    cases h.workers[j]? <;> rfl

/-- A session that stays on the bus goes on. -/
theorem Consistent.setSession (hc : h.Consistent) {k : ℕ} {s : IpcSession}
    (hsubscribed : ∀ pending marking worker, h.lock = .held pending marking → k ∈ pending →
      h.workers[k]? = some worker → worker.session.subscribed = true → s.subscribed = true) :
    (h.setSession k s).Consistent where
  unmarked := hc.unmarked
  publishing := hc.publishing
  nodup := hc.nodup
  marking pending j hlock := by
    rw [length_setSession]
    exact hc.marking pending j hlock
  pending pending marking hlock j hj := by
    obtain ⟨worker, hworker, hon⟩ := hc.pending pending marking hlock j hj
    refine ⟨_, getElem?_setSession hworker, ?_⟩
    split
    · next hkj =>
      subst hkj
      exact hsubscribed pending marking worker hlock hj hworker hon
    · exact hon
  slots := by
    rw [live_setSession]
    exact hc.slots
  ceiling := by
    rw [live_setSession]
    exact hc.ceiling

/-- The publication goes on. -/
theorem Consistent.goes (hc : h.Consistent) {pending : List ℕ} {marking marking' : Option ℕ}
    (hlock : h.lock = .held pending marking) {pending' : List ℕ} (hsub : pending'.Sublist pending)
    (hmarking : ∀ k, marking' = some k → k ∉ pending' ∧ k < h.workers.length) :
    Consistent { h with lock := .held pending' marking' } where
  unmarked := hc.unmarked
  publishing := by
    rintro _ _ ⟨⟩
    exact hc.publishing _ _ hlock
  nodup := by
    rintro _ _ ⟨⟩
    exact (hc.nodup _ _ hlock).sublist hsub
  marking := by
    rintro _ k ⟨⟩
    exact hmarking k rfl
  pending := by
    rintro _ _ ⟨⟩ k hk
    exact hc.pending _ _ hlock k (hsub.subset hk)
  slots := hc.slots
  ceiling := hc.ceiling

/-- While nobody publishes, nothing is claimed of the entries. -/
theorem Consistent.of_free (hc : h.Consistent) {h' : Hub} (hlock : h'.lock = .free)
    (hmarked : h'.core.emitter ≠ .marking)
    (hworkers : h'.workers = h.workers) (hreserved : h'.reserved = h.reserved)
    (hrefusing : h'.refusing = h.refusing) :
    h'.Consistent where
  unmarked := hmarked
  publishing _ _ hheld := by simp [hlock] at hheld
  nodup _ _ hheld := by simp [hlock] at hheld
  marking _ _ hheld := by simp [hlock] at hheld
  pending _ _ hheld := by simp [hlock] at hheld
  slots := by rw [hreserved, hworkers, hrefusing, hc.slots]
  ceiling := by rw [hworkers]; exact hc.ceiling

theorem Consistent.emit (hc : h.Consistent) {change : DaemonCore → DaemonCore}
    (hchange : ∀ core, core.emitter = .free → (change core).emitter ≠ .marking) :
    (h.emit change).Consistent := by
  unfold Hub.emit
  split
  · next hfree =>
    refine hc.of_free ?_ (hchange h.core hfree) rfl rfl rfl
    show h.lock = .free
    cases hlock : h.lock with
    | free => rfl
    | held pending marking =>
      obtain ⟨envelope, hpublishing⟩ := hc.publishing pending marking hlock
      simp [hfree] at hpublishing
  · exact hc

theorem mem_entries {k : ℕ} :
    k ∈ h.entries ↔ ∃ worker, h.workers[k]? = some worker ∧ worker.session.subscribed = true := by
  rw [entries, List.mem_filter, List.mem_range]
  constructor
  · rintro ⟨-, hk⟩
    cases hworker : h.workers[k]? with
    | some worker => exact ⟨worker, rfl, by simpa [hworker] using hk⟩
    | none => simp [hworker] at hk
  · rintro ⟨worker, hworker, hon⟩
    refine ⟨?_, by simp [hworker, hon]⟩
    obtain ⟨hlt, -⟩ := List.getElem?_eq_some_iff.mp hworker
    exact hlt

theorem Consistent.takeLock (hc : h.Consistent) : h.takeLock.Consistent := by
  unfold Hub.takeLock
  split
  · next envelope hpublishing hlock =>
    refine { hc with publishing := ?_, nodup := ?_, marking := ?_, pending := ?_ }
    · rintro _ _ ⟨⟩
      exact ⟨envelope, hpublishing⟩
    · rintro _ _ ⟨⟩
      exact List.nodup_range.filter _
    · rintro _ _ ⟨⟩
    · rintro _ _ ⟨⟩ k hk
      exact mem_entries.mp hk
  · exact hc

theorem Consistent.visit (hc : h.Consistent) (k : ℕ) : (h.visit k).1.Consistent := by
  unfold Hub.visit
  split
  · next envelope pending worker hpublishing hlock hworker =>
    split
    · next hmem =>
      have hnot : k ∉ pending.erase k := (hc.nodup _ _ hlock).not_mem_erase
      split
      · refine Consistent.setSession (hc.goes hlock List.erase_sublist (by simp)) ?_
        rintro _ _ _ ⟨⟩ hk
        exact absurd hk hnot
      · split
        · refine Consistent.setSession (hc.goes hlock List.erase_sublist (by simp)) ?_
          rintro _ _ _ ⟨⟩ hk
          exact absurd hk hnot
        · refine hc.goes hlock List.erase_sublist ?_
          rintro _ ⟨⟩
          obtain ⟨hlt, -⟩ := List.getElem?_eq_some_iff.mp hworker
          exact ⟨hnot, hlt⟩
    · exact hc
  · exact hc

theorem Consistent.mark (hc : h.Consistent) : h.mark.Consistent := by
  unfold Hub.mark
  split
  · next pending k hlock =>
    split
    · next worker hworker =>
      refine Consistent.setSession (hc.goes hlock (List.Sublist.refl _) (by simp)) ?_
      rintro _ _ worker' ⟨⟩ hk
      exact absurd hk (hc.marking _ _ hlock).1
    · exact hc
  · exact hc

theorem Consistent.unlock (hc : h.Consistent) : h.unlock.Consistent := by
  unfold Hub.unlock
  split
  · exact hc.of_free rfl (by simp) rfl rfl rfl
  · exact hc

theorem Consistent.accept (hc : h.Consistent) : (h.accept peers).Consistent := by
  have hslots := hc.slots
  have hceiling := hc.ceiling
  unfold Hub.accept
  split
  · exact hc
  · next hrefusing =>
    rw [if_neg hrefusing] at hslots
    split
    · next hroom =>
      refine { hc with marking := ?_, pending := ?_, slots := ?_, ceiling := ?_ }
      · intro pending k hlock
        refine ⟨(hc.marking pending k hlock).1, ?_⟩
        rw [List.length_append]
        exact Nat.lt_add_right _ (hc.marking pending k hlock).2
      · intro pending marking hlock k hk
        obtain ⟨worker, hworker, hon⟩ := hc.pending pending marking hlock k hk
        refine ⟨worker, ?_, hon⟩
        obtain ⟨hlt, -⟩ := List.getElem?_eq_some_iff.mp hworker
        rwa [List.getElem?_append_left hlt]
      · show h.reserved + 1 = _ + if h.refusing then 1 else 0
        rw [live_accepted, if_neg hrefusing]
        omega
      · rw [live_accepted]
        omega
    · refine { hc with slots := ?_ }
      show h.reserved + 1 = live h.workers + 1
      omega

/-- A session leaves the bus, and enters it, under the lock of the bus. -/
theorem subscribed_act {s : IpcSession} {core : DaemonCore} (a : SessionAction)
    (hon : s.subscribed = true) :
    (s.act core false a).1.subscribed = true := by
  have hdispatches : ∀ {s' : IpcSession} {emitted : List SessionEvent},
    s.Dispatches core false s' emitted →
      s'.subscribed = true := by
    intro s' emitted hstep
    cases hstep with
    | leaves cause pc free => cases free
    | _ => first | exact hon | rfl
  cases a with
  | advance => exact hdispatches (s.advance_dispatches core false)
  | incident i => exact hdispatches (s.onIncident_dispatches core false i)
  | handled handle => exact hdispatches (s.onHandled_dispatches core false handle)
  | read message =>
    rw [IpcSession.act]
    split
    · next pc => exact hdispatches (s.onMessage_dispatches core false pc message)
    · exact hon
  | forward =>
    have hstep := s.forward_forwards
    show s.forward.1.subscribed = true
    generalize s.forward.2 = emitted at hstep
    generalize s.forward.1 = s' at hstep ⊢
    cases hstep <;> exact hon
  | write ok =>
    have hstep := s.write_writes ok
    show (s.write ok).1.subscribed = true
    generalize (s.write ok).2 = emitted at hstep
    generalize (s.write ok).1 = s' at hstep ⊢
    cases hstep <;> exact hon

theorem Consistent.act (hc : h.Consistent) (k : ℕ) (a : SessionAction) :
    (h.act k a).1.Consistent := by
  unfold Hub.act
  split
  · next worker hworker =>
    split
    · exact hc
    · refine hc.setSession ?_
      intro pending marking worker' hlock hk hworker' hon
      rw [hworker] at hworker'
      cases hworker'
      have hbusy : h.busFree = false := by
        rw [Hub.busFree, hlock]
      rw [hbusy]
      exact subscribed_act a hon
  · exact hc

theorem Consistent.giveUp (hc : h.Consistent) (k : ℕ) (over_ : IpcSession → Bool) :
    (h.giveUp k over_).Consistent := by
  unfold Hub.giveUp
  split
  · next worker hworker =>
    split
    · next hover =>
      have hcount := live_released hworker hover.1
      have hslots := hc.slots
      have hceiling := hc.ceiling
      refine { hc with marking := ?_, pending := ?_, slots := ?_, ceiling := ?_ }
      · intro pending j hlock
        rw [List.length_modify]
        exact hc.marking pending j hlock
      · intro pending marking hlock j hj
        obtain ⟨worker', hworker', hon⟩ := hc.pending pending marking hlock j hj
        simp only [List.getElem?_modify, hworker']
        refine ⟨_, rfl, ?_⟩
        split <;> exact hon
      · show h.reserved - 1 = live (h.workers.modify k _) + if h.refusing then 1 else 0
        omega
      · show live (h.workers.modify k _) ≤ maxSessions
        omega
    · exact hc
  · exact hc

/-- **A step of any thread.** -/
theorem step_consistent (hc : h.Consistent) (a : Action) : (step peers h a).1.Consistent := by
  cases a with
  | setVpnState to_ =>
    show (h.emit fun core => core.setVpnState to_).Consistent
    refine hc.emit fun core hfree => ?_
    rw [DaemonCore.setVpnState]
    split
    · simp [hfree]
    · simp [DaemonCore.emitLocked]
  | notice level message =>
    show (h.emit fun core => core.notice level message).Consistent
    exact hc.emit fun core _ => by simp [DaemonCore.notice, DaemonCore.emitLocked]
  | lock => exact hc.takeLock
  | visit k => exact hc.visit k
  | mark => exact hc.mark
  | unlock => exact hc.unlock
  | accept => exact hc.accept
  | giveBack =>
    have hslots := hc.slots
    show (if h.refusing then { h with reserved := h.reserved - 1, refusing := false }
      else h).Consistent
    split
    · next hrefusing =>
      refine { hc with slots := ?_ }
      rw [if_pos hrefusing] at hslots
      show h.reserved - 1 = live h.workers + 0
      omega
    · exact hc
  | session k a => exact hc.act k a
  | reject k => exact hc.giveUp k unsubscribed
  | release k => exact hc.giveUp k finished

theorem start_consistent (version : String) (networkIntegration : NetworkIntegration) :
    (start version networkIntegration).Consistent where
  unmarked := by rintro ⟨⟩
  publishing := by rintro _ _ ⟨⟩
  nodup := by rintro _ _ ⟨⟩
  marking := by rintro _ _ ⟨⟩
  pending := by rintro _ _ ⟨⟩
  slots := rfl
  ceiling := Nat.zero_le _

/-! ## A step of the server, to one session -/

/-- To the session, a step of the server is a run of its own. -/
def Looks (peers : ℕ → PeerCredentials) (k : ℕ) (h h' : Hub)
    (events : List (ℕ × SessionEvent)) : Prop :=
  ∃ as, Machine.run IpcServer.step (h.view peers k) as = (h'.view peers k,
    events.filterMap (reportAt k))

/-- Nothing that the session could tell. -/
theorem Looks.stays {k : ℕ} {h' : Hub} {events : List (ℕ × SessionEvent)}
    (hview : h'.view peers k = h.view peers k)
    (hevents : events.filterMap (reportAt k) = []) : Looks peers k h h' events :=
  ⟨[], by rw [Machine.run_nil, hview, hevents]⟩

theorem Looks.steps {k : ℕ} {h' : Hub} {events : List (ℕ × SessionEvent)} (a : IpcServer.Action)
    (hstep : IpcServer.step (h.view peers k) a = (h'.view peers k, events.filterMap (reportAt k))) :
    Looks peers k h h' events :=
  ⟨[a], by rw [Machine.run_cons, hstep, Machine.run_nil, List.append_nil]⟩

theorem reportAt_self {k : ℕ} (events : List SessionEvent) :
    (events.map fun e => (k, e)).filterMap (reportAt k) = events := by
  induction events with
  | nil => rfl
  | cons e events ih =>
    have hhere : reportAt k (k, e) = some e := if_pos rfl
    rw [List.map_cons, List.filterMap_cons, hhere]
    exact congrArg (e :: ·) ih

theorem reportAt_other {j k : ℕ} (hjk : j ≠ k) (events : List SessionEvent) :
    (events.map fun e => (j, e)).filterMap (reportAt k) = [] := by
  induction events with
  | nil => rfl
  | cons e events ih =>
    have helsewhere : reportAt k (j, e) = none := if_neg hjk
    rw [List.map_cons, List.filterMap_cons, helsewhere]
    exact ih

theorem view_of_free (hlock : h.lock = .free) (k : ℕ) :
    h.view peers k = ⟨h.core, h.sessionAt peers k⟩ := by
  rw [view, emitterAt, hlock]

theorem lock_free (hc : h.Consistent) (hfree : h.core.emitter = .free) : h.lock = .free := by
  cases hlock : h.lock with
  | free => rfl
  | held pending marking =>
    obtain ⟨envelope, hpublishing⟩ := hc.publishing pending marking hlock
    simp [hfree] at hpublishing

theorem looks_emit (hc : h.Consistent) (k : ℕ) (a : IpcServer.Action)
    {change : DaemonCore → DaemonCore} (ha : ∀ d : IpcServer, d.step a = (d.emit change, [])) :
    Looks peers k h (h.emit change) [] := by
  unfold Hub.emit
  split
  · next hfree =>
    have hlock := lock_free hc hfree
    refine .steps a ?_
    have hlock' : ({ h with core := change h.core } : Hub).lock = .free := hlock
    rw [ha, view_of_free hlock, view_of_free hlock', IpcServer.emit, hfree]
    rfl
  · exact .stays rfl rfl

theorem looks_takeLock (k : ℕ) : Looks peers k h h.takeLock [] := by
  unfold Hub.takeLock
  split
  · next envelope hpublishing hlock =>
    by_cases hmem : k ∈ h.entries
    · refine .stays ?_ rfl
      rw [view_of_free hlock, view, emitterAt]
      simp only [reduceCtorEq, if_false, if_pos hmem]
      rfl
    · refine .steps .publish ?_
      have hoff : (h.sessionAt peers k).subscribed = false := by
        rw [mem_entries] at hmem
        rw [sessionAt]
        split
        · next worker hworker =>
          by_contra hon
          exact hmem ⟨worker, hworker, by simpa using hon⟩
        · rfl
      rw [view_of_free hlock, IpcServer.step, IpcServer.publish, hpublishing, view, emitterAt]
      simp only [reduceCtorEq, if_false, if_neg hmem, hoff, Bool.false_eq_true]
      rfl
  · exact .stays rfl rfl

theorem view_of_held {h' : Hub} {pending : List ℕ} {marking : Option ℕ} {k : ℕ} {s : IpcSession}
    (emitter : Emitter) (hcore : h'.core = h.core) (hlock : h'.lock = .held pending marking)
    (hsession : h'.sessionAt peers k = s)
    (hemitter : (if marking = some k then .marking else if k ∈ pending then h.core.emitter
      else .free) = emitter) :
    h'.view peers k = ⟨{ h.core with emitter := emitter }, s⟩ := by
  rw [view, emitterAt, hlock, hcore, hsession, ← hemitter]

theorem looks_visit (hc : h.Consistent) (j k : ℕ) :
    Looks peers k h (h.visit j).1 (h.visit j).2 := by
  unfold Hub.visit
  split
  · next envelope pending worker hpublishing hlock hworker =>
    split
    · next hmem =>
      have hnot : j ∉ pending.erase j := (hc.nodup _ _ hlock).not_mem_erase
      obtain ⟨worker', hworker', hon⟩ := hc.pending _ _ hlock j hmem
      rw [hworker] at hworker'
      cases hworker'
      have hsession : ∀ s, (h.setSession j s).sessionAt peers k = if j = k then s
        else h.sessionAt peers k :=
        fun s => sessionAt_setSession hworker s k
      have hview :
        h.view peers k = ⟨{ h.core with emitter := if k ∈ pending then h.core.emitter else .free },
          h.sessionAt peers k⟩ := view_of_held _ rfl hlock rfl (by simp)
      by_cases hjk : j = k
      · -- the entry of this session
        subst hjk
        have hhere : h.sessionAt peers j = worker.session := by rw [sessionAt, hworker]
        rw [if_pos hmem, hpublishing, hhere] at hview
        have hserved : ∀ s : IpcSession, Hub.view peers
            { h.setSession j s with lock := .held (pending.erase j) none } j =
            ⟨{ h.core with emitter := .free }, s⟩ :=
          fun s => view_of_held .free rfl rfl ((hsession s).trans (if_pos rfl)) (by simp [hnot])
        refine .steps .publish ?_
        rw [hview, IpcServer.step]
        cases hforwarder : worker.session.forwarder with
        | done =>
          dsimp only
          rw [hserved]
          simp [IpcServer.publish, hon, hforwarder]
        | _ =>
          dsimp only
          by_cases hroom : worker.session.queue.length < sessionQueueLen
          · rw [if_pos hroom, hserved]
            simp [IpcServer.publish, hon, hforwarder, hroom, reportAt]
          · have hfull : Hub.view peers { h with lock := .held (pending.erase j) (some j) } j =
                ⟨{ h.core with emitter := .marking }, worker.session⟩ :=
                view_of_held .marking rfl rfl hhere (by simp)
            rw [if_neg hroom, hfull]
            simp [IpcServer.publish, hon, hforwarder, hroom, reportAt]
      · have hfree : (if k ∈ pending.erase j then h.core.emitter else .free) =
            if k ∈ pending then h.core.emitter else .free := by
          simp only [List.mem_erase_of_ne (Ne.symm hjk)]
        have hserved : ∀ s : IpcSession, Hub.view peers
            { h.setSession j s with lock := .held (pending.erase j) none } k = h.view peers k := by
          intro s
          rw [hview]
          exact view_of_held _ rfl rfl ((hsession s).trans (if_neg hjk)) (by simp [hfree])
        cases hforwarder : worker.session.forwarder with
        | done => exact .stays (hserved _) rfl
        | _ =>
          dsimp only
          by_cases hroom : worker.session.queue.length < sessionQueueLen
          · rw [if_pos hroom]
            exact .stays (hserved _) (by simp [reportAt, hjk])
          · rw [if_neg hroom]
            refine .stays ?_ (by simp [reportAt, hjk])
            rw [hview]
            exact view_of_held _ rfl rfl rfl (by simp [hfree, hjk])
    · exact .stays rfl rfl
  · exact .stays rfl rfl

theorem looks_mark (hc : h.Consistent) (k : ℕ) : Looks peers k h h.mark [] := by
  unfold Hub.mark
  split
  · next pending j hlock =>
    split
    · next worker hworker =>
      have hsession : ∀ s, (h.setSession j s).sessionAt peers k = if j = k then s
        else h.sessionAt peers k :=
        fun s => sessionAt_setSession hworker s k
      by_cases hjk : j = k
      · subst hjk
        have hhere : h.sessionAt peers j = worker.session := by rw [sessionAt, hworker]
        have hview : h.view peers j = ⟨{ h.core with emitter := .marking }, worker.session⟩ :=
          view_of_held .marking rfl hlock hhere (by simp)
        have hafter :
          Hub.view peers { h.setSession j { worker.session with overflowed := true } with
              lock := .held pending none } j =
            ⟨{ h.core with emitter := .free }, { worker.session with overflowed := true }⟩ :=
          view_of_held .free rfl rfl ((hsession _).trans (if_pos rfl))
            (by simp [(hc.marking _ _ hlock).1])
        refine .steps .mark ?_
        rw [hview, hafter]
        rfl
      · refine .stays ?_ rfl
        have hview :
          h.view peers k =
          ⟨{ h.core with emitter := if k ∈ pending then h.core.emitter else .free },
            h.sessionAt peers k⟩ := view_of_held _ rfl hlock rfl (by simp [hjk])
        rw [hview]
        exact view_of_held _ rfl rfl ((hsession _).trans (if_neg hjk)) (by simp)
    · exact .stays rfl rfl
  · exact .stays rfl rfl

theorem looks_unlock (k : ℕ) : Looks peers k h h.unlock [] := by
  unfold Hub.unlock
  split
  · next hlock =>
    refine .stays ?_ rfl
    rw [view, view, emitterAt, emitterAt, hlock]
    rfl
  · exact .stays rfl rfl

theorem looks_accept (k : ℕ) : Looks peers k h (h.accept peers) [] := by
  unfold Hub.accept
  split
  · exact .stays rfl rfl
  · split
    · refine .stays ?_ rfl
      have hsession : ∀ worker : SessionWorker, worker.session = .new (peers h.workers.length) →
          ({ h with workers := h.workers ++ [worker], reserved := h.reserved + 1 } :
           Hub).sessionAt peers k =
            h.sessionAt peers k := by
        intro worker hnew
        simp only [sessionAt]
        obtain hlt | hge := Nat.lt_or_ge k h.workers.length
        · rw [List.getElem?_append_left hlt]
        · rw [List.getElem?_append_right hge, List.getElem?_eq_none hge]
          cases hk : k - h.workers.length with
          | zero =>
            rw [show k = h.workers.length by omega]
            simpa using hnew
          | succ n => rfl
      rw [view, view, hsession _ rfl]
      rfl
    · exact .stays rfl rfl

theorem looks_giveUp (j k : ℕ) (over_ : IpcSession → Bool) :
    Looks peers k h (h.giveUp j over_) [] := by
  unfold Hub.giveUp
  split
  · split
    · refine .stays ?_ rfl
      have hsession : ({ h with
          reserved := h.reserved - 1
          workers := h.workers.modify j fun worker => { worker with released := true } } :
            Hub).sessionAt peers k =
            h.sessionAt peers k := by
        simp only [sessionAt, List.getElem?_modify]
        cases h.workers[k]? with
        | none => rfl
        | some worker => by_cases hjk : j = k <;> simp [hjk]
      rw [view, view, hsession]
      rfl
    · exact .stays rfl rfl
  · exact .stays rfl rfl

theorem act_core {core core' : DaemonCore} (hversion : core'.version = core.version)
    (hseq : core'.seq = core.seq) (s : IpcSession) (busFree : Bool) (a : SessionAction) :
    s.act core' busFree a = s.act core busFree a := by
  cases a with
  | advance =>
    simp only [IpcSession.act, IpcSession.advance, hversion, DaemonCore.latestEventSeq, hseq]
  | _ => rfl

/-- Only what waits for the bus asks whether it is held. -/
theorem act_of_busy (s : IpcSession) (core : DaemonCore) (a : SessionAction) :
    s.act core false a = (s, []) ∨ s.act core true a = s.act core false a := by
  cases a with
  | advance =>
    simp only [IpcSession.act]
    cases hpc : s.dispatcher with
    | subscribing => exact .inl (by simp [IpcSession.advance, hpc])
    | leaving cause => exact .inl (by simp [IpcSession.advance, hpc])
    | _ => exact .inr (by simp only [IpcSession.advance, hpc])
  | _ => exact .inr rfl

theorem step_single (d : IpcServer) (a : SessionAction) :
    d.step a.single = ({ d with session := (d.session.act d.core d.busFree a).1 },
      (d.session.act d.core d.busFree a).2) := by
  cases a with
  | read message =>
    cases hpc : d.session.dispatcher <;>
      simp [SessionAction.single, IpcServer.step, IpcSession.act, hpc]
  | _ => rfl

theorem looks_act (hc : h.Consistent) (j k : ℕ) (a : SessionAction) :
    Looks peers k h (h.act j a).1 (h.act j a).2 := by
  unfold Hub.act
  split
  · next worker hworker =>
    split
    · exact .stays rfl rfl
    · have hview : ∀ s, (h.setSession j s).view peers k =
          ⟨(h.view peers k).core, if j = k then s else h.sessionAt peers k⟩ := by
        intro s
        rw [view, sessionAt_setSession hworker s k]
        rfl
      by_cases hjk : j = k
      · subst hjk
        have hhere : h.sessionAt peers j = worker.session := by rw [sessionAt, hworker]
        have hcore : ∀ busFree, worker.session.act (h.view peers j).core busFree a =
          worker.session.act h.core busFree a :=
          fun busFree => act_core rfl rfl worker.session busFree a
        have hsingle : (h.view peers j).busFree = h.busFree ∨
            worker.session.act h.core true a = worker.session.act h.core false a →
            Looks peers j h (h.setSession j (worker.session.act h.core h.busFree a).1)
              ((worker.session.act h.core h.busFree a).2.map fun e => (j, e)) := by
          intro hfree
          have hact : worker.session.act h.core (h.view peers j).busFree a =
            worker.session.act h.core h.busFree a := by
            obtain hfree | hfree := hfree
            · rw [hfree]
            · cases (h.view peers j).busFree <;> cases h.busFree <;> simp [hfree]
          refine .steps a.single ?_
          rw [step_single, hview, reportAt_self, if_pos rfl]
          have hsession : (h.view peers j).session = worker.session := hhere
          rw [hsession, hcore, hact]
        cases hlock : h.lock with
        | free =>
          refine hsingle (.inl ?_)
          rw [view_of_free hlock, IpcServer.busFree, Hub.busFree, hlock]
          cases hemitter : h.core.emitter with
          | marking => exact absurd hemitter hc.unmarked
          | _ => rfl
        | held pending marking =>
          have hbusy : h.busFree = false := by rw [Hub.busFree, hlock]
          obtain hstays | hsame := act_of_busy worker.session h.core a
          · rw [hbusy, hstays]
            refine .stays ?_ rfl
            rw [hview, if_pos rfl, view, hhere]
          · exact hsingle (.inr hsame)
      · refine .stays ?_ (reportAt_other hjk _)
        rw [hview, if_neg hjk]
        rfl
  · exact .stays rfl rfl

/-- **A step of the server**, to one session. -/
theorem step_looks (hc : h.Consistent) (k : ℕ) (a : Action) :
    Looks peers k h (step peers h a).1 (step peers h a).2 := by
  cases a with
  | setVpnState to_ => exact looks_emit hc k (.setVpnState to_) fun _ => rfl
  | notice level message => exact looks_emit hc k (.notice level message) fun _ => rfl
  | lock => exact looks_takeLock k
  | visit j => exact looks_visit hc j k
  | mark => exact looks_mark hc k
  | unlock => exact looks_unlock k
  | accept => exact looks_accept k
  | giveBack =>
    refine .stays ?_ rfl
    show (if h.refusing then { h with reserved := h.reserved - 1, refusing := false }
      else h).view peers k = _
    split <;> rfl
  | session j a => exact looks_act hc j k a
  | reject j => exact looks_giveUp j k unsubscribed
  | release j => exact looks_giveUp j k finished

variable (peers)

theorem run_consistent (version : String) (networkIntegration : NetworkIntegration)
    (as : List Action) :
    (Machine.run (step peers) (start version networkIntegration) as).1.Consistent :=
  Machine.run_state_inv Consistent (fun _ a hc => step_consistent hc a) _
    (start_consistent version networkIntegration) as

/-- **Every session of a server is a session alone.** -/
theorem hub_refines_session (version : String) (networkIntegration : NetworkIntegration)
    (as : List Action) (k : ℕ) :
    ∃ bs, Machine.run IpcServer.step (.start version networkIntegration (peers k)) bs =
      ((Machine.run (step peers) (start version networkIntegration) as).1.view peers k,
        (Machine.run (step peers) (start version networkIntegration) as).2.filterMap
        (reportAt k)) := by
  have hlooks : ∀ (h : Hub) (a : Action), h.Consistent →
    ∃ bs, Machine.run IpcServer.step (h.view peers k) bs =
      ((step peers h a).1.view peers k, (step peers h a).2.filterMap (reportAt k)) :=
    fun _ a hc => step_looks hc k a
  exact Machine.exists_run_view (fun _ a hc => step_consistent hc a) hlooks
    (start_consistent version networkIntegration) as

/-- **The slots**, after any run: each worker that has not ended holds one, there are never more
than `maxSessions`, and none is given back twice. -/
theorem hub_slots (version : String) (networkIntegration : NetworkIntegration) (as : List Action) :
    live (Machine.run (step peers) (start version networkIntegration) as).1.workers ≤ maxSessions ∧
      (Machine.run (step peers) (start version networkIntegration) as).1.reserved =
        live (Machine.run (step peers) (start version networkIntegration) as).1.workers +
          if (Machine.run (step peers) (start version networkIntegration) as).1.refusing then
          1 else 0 :=
  ⟨(run_consistent peers version networkIntegration as).ceiling,
   (run_consistent peers version networkIntegration as).slots⟩

end Hub

end ProtonWire
