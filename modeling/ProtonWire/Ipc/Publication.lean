import ProtonWire.Ipc.Hub

/-!
# A publication ends

`EventBus::publish` in `crates/ipc/src/bus.rs` never waits for a session: what it has before it gets
smaller with each of its steps, and nothing that any session does stops the next one.

* `Enrolled`: a worker that has given its slot back is off the bus, so a publication has at most
  `maxSessions` entries;
* `Hub.publicationWeight`: the steps that are left of a publication;
* **`publication_ends`**.
-/

namespace ProtonWire

/-- A session that has not subscribed, or has been left, is off the bus. -/
structure IpcSession.Detached (s : IpcSession) : Prop where
  before : s.dispatcher = .subscribing → s.subscribed = false
  after : ∀ cause, s.dispatcher = .over cause → s.subscribed = false

namespace IpcSession

variable {s s' : IpcSession} {core : DaemonCore} {busFree : Bool} {events : List SessionEvent}

theorem Detached.dispatches (h : s.Detached) (hstep : s.Dispatches core busFree s' events) :
    s'.Detached := by
  cases hstep with
  | stays => exact h
  | leaves cause pc free => exact ⟨by simp, fun _ _ => rfl⟩
  | sends message afterwards pc alive room =>
    cases afterwards <;> exact ⟨by simp [Afterwards.pc], by simp [Afterwards.pc]⟩
  | _ => exact ⟨by simp, by simp⟩

theorem Detached.act (h : s.Detached) (a : SessionAction) : (s.act core busFree a).1.Detached := by
  cases a with
  | advance => exact h.dispatches (s.advance_dispatches core busFree)
  | incident i => exact h.dispatches (s.onIncident_dispatches core busFree i)
  | handled handle => exact h.dispatches (s.onHandled_dispatches core busFree handle)
  | read message =>
    rw [IpcSession.act]
    split
    · next pc => exact h.dispatches (s.onMessage_dispatches core busFree pc message)
    · exact h
  | forward =>
    have hstep := s.forward_forwards
    show s.forward.1.Detached
    generalize s.forward.2 = emitted at hstep
    generalize s.forward.1 = s' at hstep ⊢
    cases hstep <;> exact ⟨h.before, h.after⟩
  | write ok =>
    have hstep := s.write_writes ok
    show (s.write ok).1.Detached
    generalize (s.write ok).2 = emitted at hstep
    generalize (s.write ok).1 = s' at hstep ⊢
    cases hstep <;> exact ⟨h.before, h.after⟩

end IpcSession

namespace Hub

variable {peers : ℕ → PeerCredentials} {h : Hub}

/-- A worker that has given its slot back is off the bus. -/
structure SessionWorker.Enrolled (worker : SessionWorker) : Prop where
  detached : worker.session.Detached
  released : worker.released = true → worker.session.subscribed = false

/-- Every worker. -/
def Enrolled (h : Hub) : Prop := ∀ (k : ℕ) (worker : SessionWorker), h.workers[k]? = some worker →
  SessionWorker.Enrolled worker

theorem Enrolled.modify (he : h.Enrolled) {h' : Hub} {k : ℕ}
    {change : SessionWorker → SessionWorker} (hworkers : h'.workers = h.workers.modify k change)
    (hchange : ∀ worker, h.workers[k]? = some worker → SessionWorker.Enrolled (change worker)) :
    h'.Enrolled := by
  intro j worker hj
  rw [hworkers, List.getElem?_modify] at hj
  cases hworker : h.workers[j]? with
  | none => simp [hworker] at hj
  | some before =>
    rw [hworker, Option.map_eq_map, Option.map_some, Option.some_inj] at hj
    subst hj
    split
    · next hkj =>
      subst hkj
      exact hchange before hworker
    · exact he j before hworker

theorem Enrolled.setSession (he : h.Enrolled) {h' : Hub} {k : ℕ} {s : IpcSession}
    (hworkers : h'.workers = (h.setSession k s).workers)
    (hs : ∀ worker, h.workers[k]? = some worker →
      s.Detached ∧ (worker.released = true → s.subscribed = false)) : h'.Enrolled :=
  he.modify hworkers fun worker hworker => ⟨(hs worker hworker).1, (hs worker hworker).2⟩

theorem Enrolled.visit (he : h.Enrolled) (k : ℕ) : (h.visit k).1.Enrolled := by
  unfold Hub.visit
  split
  · next envelope pending worker hpublishing hlock hworker =>
    have hbefore := he k worker hworker
    split
    · split
      · refine he.setSession rfl fun worker' _ => ⟨⟨fun _ => rfl, fun _ _ => rfl⟩, fun _ => rfl⟩
      · split
        · refine he.setSession rfl fun worker' hworker' => ?_
          rw [hworker] at hworker'
          cases hworker'
          exact ⟨⟨hbefore.detached.before, hbefore.detached.after⟩, hbefore.released⟩
        · exact he
    · exact he
  · exact he

theorem Enrolled.mark (he : h.Enrolled) : h.mark.Enrolled := by
  unfold Hub.mark
  split
  · split
    · next worker hworker =>
      have hbefore := he _ worker hworker
      refine he.setSession rfl fun worker' hworker' => ?_
      rw [hworker] at hworker'
      cases hworker'
      exact ⟨⟨hbefore.detached.before, hbefore.detached.after⟩, hbefore.released⟩
    · exact he
  · exact he

theorem Enrolled.accept (he : h.Enrolled) : (h.accept peers).Enrolled := by
  unfold Hub.accept
  split
  · exact he
  · split
    · intro j worker hj
      obtain hlt | hge := Nat.lt_or_ge j h.workers.length
      · rw [List.getElem?_append_left hlt] at hj
        exact he j worker hj
      · rw [List.getElem?_append_right hge] at hj
        have hnew := List.mem_of_getElem? hj
        rw [List.mem_singleton] at hnew
        subst hnew
        exact ⟨⟨fun _ => rfl, fun _ _ => rfl⟩, fun _ => rfl⟩
    · exact he

theorem Enrolled.act (he : h.Enrolled) (k : ℕ) (a : SessionAction) : (h.act k a).1.Enrolled := by
  unfold Hub.act
  split
  · next worker hworker =>
    split
    · exact he
    · next hheld =>
      refine he.setSession rfl fun worker' hworker' => ?_
      rw [hworker] at hworker'
      cases hworker'
      exact ⟨(he k worker hworker).detached.act a, fun hreleased => absurd hreleased hheld⟩
  · exact he

theorem Enrolled.giveUp (he : h.Enrolled) (k : ℕ) {over_ : IpcSession → Bool}
    (hover : ∀ s : IpcSession, s.Detached → over_ s = true → s.subscribed = false) :
    (h.giveUp k over_).Enrolled := by
  unfold Hub.giveUp
  split
  · next worker hworker =>
    split
    · next hgives =>
      refine he.modify rfl fun worker' hworker' => ?_
      rw [hworker] at hworker'
      cases hworker'
      have hbefore := he k worker hworker
      exact ⟨hbefore.detached, fun _ => hover worker.session hbefore.detached hgives.2⟩
    · exact he
  · exact he

theorem step_enrolled (he : h.Enrolled) (a : Action) : (step peers h a).1.Enrolled := by
  cases a with
  | setVpnState to_ =>
    show (h.emit _).Enrolled
    unfold Hub.emit
    split <;> exact he
  | notice level message =>
    show (h.emit _).Enrolled
    unfold Hub.emit
    split <;> exact he
  | lock =>
    show h.takeLock.Enrolled
    unfold Hub.takeLock
    split <;> exact he
  | visit k => exact he.visit k
  | mark => exact he.mark
  | unlock =>
    show h.unlock.Enrolled
    unfold Hub.unlock
    split <;> exact he
  | accept => exact he.accept
  | giveBack =>
    show Enrolled (if h.refusing then _ else h)
    split <;> exact he
  | session k a => exact he.act k a
  | reject k =>
    refine he.giveUp k fun s hs hover => hs.before ?_
    unfold unsubscribed at hover
    split at hover
    · assumption
    · cases hover
  | release k =>
    refine he.giveUp k fun s hs hover => ?_
    unfold finished at hover
    split at hover
    · next cause hcause _ _ => exact hs.after cause hcause
    · cases hover

variable (peers) in
theorem run_enrolled (version : String) (networkIntegration : NetworkIntegration)
    (as : List Action) :
    (Machine.run (step peers) (start version networkIntegration) as).1.Enrolled :=
  Machine.run_state_inv Enrolled (fun _ a he => step_enrolled he a) _
    (fun k worker hk => by simp [start] at hk) as

/-! ## What is left of a publication -/

/-- **The steps that are left of a publication**, at the most. -/
def publicationWeight : BusLock → ℕ
  | .free => 0
  | .held pending none => 2 * pending.length + 1
  | .held pending (some _) => 2 * pending.length + 2

/-- The steps of `publish` once it has the lock. -/
def Action.publishes : Action → Bool
  | .visit _ | .mark | .unlock => true
  | _ => false

theorem countP_range {α : Type*} (p : α → Bool) (l : List α) :
    (List.range l.length).countP (fun k => (l[k]?).any p) = l.countP p := by
  induction l with
  | nil => rfl
  | cons a l ih =>
    rw [List.length_cons, List.range_succ_eq_map, List.countP_cons, List.countP_map,
      List.countP_cons, ← ih]
    rfl

/-- **A publication has at most `maxSessions` entries.** -/
theorem pending_le (hc : h.Consistent) (he : h.Enrolled) {pending : List ℕ} {marking : Option ℕ}
    (hlock : h.lock = .held pending marking) : pending.length ≤ maxSessions := by
  have hsub : pending ⊆ (List.range h.workers.length).filter
      fun k => (h.workers[k]?).any fun worker => !worker.released := by
    intro k hk
    obtain ⟨worker, hworker, hon⟩ := hc.pending _ _ hlock k hk
    obtain ⟨hlt, -⟩ := List.getElem?_eq_some_iff.mp hworker
    have hheld : worker.released = false := by
      by_contra hreleased
      have := (he k worker hworker).released (by simpa using hreleased)
      simp [hon] at this
    rw [List.mem_filter, List.mem_range]
    exact ⟨hlt, by rw [hworker, Option.any_some, hheld]; rfl⟩
  have hle := (List.subperm_of_subset (hc.nodup _ _ hlock) hsub).length_le
  rw [← List.countP_eq_length_filter, countP_range] at hle
  exact hle.trans hc.ceiling

theorem emit_lock (change : DaemonCore → DaemonCore) : (h.emit change).lock = h.lock := by
  unfold Hub.emit
  split <;> rfl

/-- **Only a step of the publication** changes what is left of it. -/
theorem publication_descends (a : Action) (ha : a ≠ .lock)
    (hchange : (step peers h a).1.lock ≠ h.lock) :
    a.publishes = true ∧ publicationWeight (step peers h a).1.lock < publicationWeight h.lock := by
  cases a with
  | setVpnState to_ => exact absurd (emit_lock _) hchange
  | notice level message => exact absurd (emit_lock _) hchange
  | lock => exact absurd rfl ha
  | visit k =>
    refine ⟨rfl, ?_⟩
    revert hchange
    show (h.visit k).1.lock ≠ h.lock → publicationWeight (h.visit k).1.lock <
      publicationWeight h.lock
    unfold Hub.visit
    split
    · next envelope pending worker hpublishing hlock hworker =>
      intro hchange
      split at hchange
      · next hmem =>
        have hlength := List.length_erase_of_mem hmem
        have hpos := List.length_pos_of_mem hmem
        rw [if_pos hmem, hlock]
        split
        · simp only [publicationWeight]
          omega
        · split <;> simp only [publicationWeight] <;> omega
      · exact absurd rfl hchange
    · exact fun hchange => absurd rfl hchange
  | mark =>
    refine ⟨rfl, ?_⟩
    revert hchange
    show h.mark.lock ≠ h.lock → publicationWeight h.mark.lock < publicationWeight h.lock
    unfold Hub.mark
    split
    · next pending k hlock =>
      split
      · intro _
        rw [hlock]
        simp [publicationWeight]
      · exact fun hchange => absurd rfl hchange
    · exact fun hchange => absurd rfl hchange
  | unlock =>
    refine ⟨rfl, ?_⟩
    revert hchange
    show h.unlock.lock ≠ h.lock → publicationWeight h.unlock.lock < publicationWeight h.lock
    unfold Hub.unlock
    split
    · next hlock =>
      intro _
      rw [hlock]
      simp [publicationWeight]
    · exact fun hchange => absurd rfl hchange
  | accept =>
    refine absurd ?_ hchange
    show (h.accept peers).lock = h.lock
    unfold Hub.accept
    split
    · rfl
    · split <;> rfl
  | giveBack =>
    refine absurd ?_ hchange
    show Hub.lock (if h.refusing then _ else h) = h.lock
    split <;> rfl
  | session k a =>
    refine absurd ?_ hchange
    show (h.act k a).1.lock = h.lock
    unfold Hub.act
    split
    · split <;> rfl
    · rfl
  | reject k | release k =>
    refine absurd ?_ hchange
    show (h.giveUp k _).lock = h.lock
    unfold Hub.giveUp
    split
    · split <;> rfl
    · rfl

/-- **The next step of a publication is always there.** -/
theorem publication_enabled (hc : h.Consistent) (hheld : h.lock ≠ .free) :
    ∃ a : Action, a.publishes = true ∧ (step peers h a).1.lock ≠ h.lock := by
  cases hlock : h.lock with
  | free => exact absurd hlock hheld
  | held pending marking =>
    cases marking with
    | some k =>
      obtain ⟨-, hk⟩ := hc.marking _ _ hlock
      have hworker := List.getElem?_eq_getElem hk
      refine ⟨.mark, rfl, ?_⟩
      show h.mark.lock ≠ _
      simp only [Hub.mark, hlock, hworker]
      simp
    | none =>
      cases pending with
      | nil =>
        refine ⟨.unlock, rfl, ?_⟩
        show h.unlock.lock ≠ _
        simp only [Hub.unlock, hlock]
        simp
      | cons k pending =>
        obtain ⟨envelope, hpublishing⟩ := hc.publishing _ _ hlock
        obtain ⟨worker, hworker, -⟩ := hc.pending _ _ hlock k List.mem_cons_self
        refine ⟨.visit k, rfl, ?_⟩
        show (h.visit k).1.lock ≠ _
        simp only [Hub.visit, hpublishing, hlock, hworker, List.mem_cons_self, if_true]
        split
        · simp
        · split <;> simp

variable (peers)

/-- **A publication ends**: after any run, its next step is there for as long as it holds the lock
of the bus, and until the next one takes it, at most `2 * maxSessions + 2` steps change what is left
of it, whatever the sessions do. -/
theorem publication_ends (version : String) (networkIntegration : NetworkIntegration)
    (as bs : List Action) (hnext : ∀ a ∈ bs, a ≠ .lock) :
    ((Machine.run (step peers) (start version networkIntegration) as).1.lock ≠ .free →
     ∃ a : Action, a.publishes = true ∧
        (step peers (Machine.run (step peers) (start version networkIntegration) as).1 a).1.lock ≠
          (Machine.run (step peers) (start version networkIntegration) as).1.lock) ∧
      Machine.changes (step peers) Hub.lock (Machine.run (step peers)
        (start version networkIntegration) as).1 bs ≤
        2 * maxSessions + 2 := by
  have hconsistent := run_consistent peers version networkIntegration as
  have henrolled := run_enrolled peers version networkIntegration as
  refine ⟨publication_enabled hconsistent, ?_⟩
  have hdescends : ∀ (h : Hub) (a : Action), a ≠ .lock → True → (step peers h a).1.lock ≠ h.lock →
      publicationWeight (step peers h a).1.lock < publicationWeight h.lock :=
    fun h a ha _ hchange => (publication_descends a ha hchange).2
  have hle : Machine.changes (step peers) Hub.lock (Machine.run (step peers)
    (start version networkIntegration) as).1 bs ≤
      publicationWeight (Machine.run (step peers) (start version networkIntegration) as).1.lock :=
    Machine.changes_le (fun _ _ _ _ => trivial) hdescends trivial hnext
  refine hle.trans ?_
  cases hlock : (Machine.run (step peers) (start version networkIntegration) as).1.lock with
  | free => exact Nat.zero_le _
  | held pending marking =>
    have := pending_le hconsistent henrolled hlock
    cases marking <;> simp only [publicationWeight] <;> omega

/-- A session that takes one event while a second connection is accepted. -/
theorem publication_ends_accepted :
    ((Machine.run (step fun _ => ⟨1000, 1000, none⟩) (start "1" .auto)
        [.accept, .session 0 .advance, .notice .info "up", .lock]).1.lock ≠ .free →
        ∃ a : Action, a.publishes = true ∧
        (step (fun _ => ⟨1000, 1000, none⟩)
         (Machine.run (step fun _ => ⟨1000, 1000, none⟩) (start "1" .auto)
          [.accept, .session 0 .advance, .notice .info "up", .lock]).1 a).1.lock ≠
          (Machine.run (step fun _ => ⟨1000, 1000, none⟩) (start "1" .auto)
            [.accept, .session 0 .advance, .notice .info "up", .lock]).1.lock) ∧
      Machine.changes (step fun _ => ⟨1000, 1000, none⟩) Hub.lock
        (Machine.run (step fun _ => ⟨1000, 1000, none⟩) (start "1" .auto)
          [.accept, .session 0 .advance, .notice .info "up", .lock]).1 [.visit 0, .accept,
           .unlock] ≤
        2 * maxSessions + 2 :=
  publication_ends (fun _ => ⟨1000, 1000, none⟩) "1" .auto [.accept, .session 0 .advance,
    .notice .info "up", .lock]
    [.visit 0, .accept, .unlock] (by simp)

end Hub

end ProtonWire
