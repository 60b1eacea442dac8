import ProtonWire.Lane.Channel
import ProtonWire.Lane.Install

/-!
# Pump ordering and convergence

* `Feed.step_cases`: a step is one of the callbacks, of the rest of the lane or of the pump;
* `Feed.Converging`, `converging_step`: what holds along every run;
* **`Feed.pump_converges`**: the states published are in order, nothing is published once the slot
  is taken, and after a quiet cadence the core reads the newest state.
-/

namespace ProtonWire

open CatchUp

/-- The connection has not left its slot. -/
def Connection.Unretired (conn : Connection) : Prop := conn.installer = none ∨ conn.slot = true

namespace Feed

variable {feed : Feed} {k : ℕ}

/-! ## Steps -/

/-- What a step of the callbacks, or a read of the counter, leaves. -/
structure Calls (k : ℕ) (feed : Feed) (r : Feed × List FeedTrace) : Prop where
  lane : r.1.lane = feed.lane
  trace : r.2 = [.called] ∨ r.2 = [] ∧ (r.1 = feed ∨
    (feed.lane.connections k).pc.reconciles = true ∧
    r.1 = { feed with readDrops := some feed.droppedStates })
  channel : (feed.lane.connections k).Unretired → (feed.lane.connections k).Formed → Ready k feed →
    Channel.Produce (feed.channel (feed.lane.connections k)) (r.1.channel (feed.lane.connections k))
  ready : Ready k feed → Ready k r.1

theorem Ready.of_callback (h : Ready k feed) {r : Feed} (hlane : r.lane = feed.lane)
    (hreads : r.readDrops = feed.readDrops) (hdrops : feed.droppedStates ≤ r.droppedStates)
    (hnewest : ∀ s, r.callback.state? = some s → r.states.getLast? = some s) : Ready k r := by
  refine ⟨?_, fun d hd => ?_, ?_, hnewest⟩
  · rw [hlane]
    exact h.pending
  · exact (h.reads d (hreads ▸ hd)).trans hdrops
  · rw [hlane]
    exact h.core

theorem callbackStep_calls (feed : Feed) (k : ℕ) : Calls k feed (feed.callbackStep k) := by
  have hstay : Calls k feed (feed, []) := ⟨rfl, .inr ⟨rfl, .inl rfl⟩, fun _ _ _ => .stay, id⟩
  unfold callbackStep
  cases hcallback : feed.callback with
  | idle => exact hstay
  | send event =>
    dsimp only
    split_ifs with hgone hroom
    · refine ⟨rfl, .inl rfl, fun hopen hformed hready => ?_,
        fun hready => hready.of_callback rfl rfl le_rfl
        (fun _ h => by cases h)⟩
      -- an installed connection that is not live has left its slot
      rcases hopen with hnone | hfull
      · exact absurd hnone hgone.1
      · exact absurd ((hformed.slot hfull).1.symm.trans hgone.2) (by simp)
    · refine ⟨rfl, .inl rfl, fun _ _ hready => ?_, fun hready => hready.of_callback rfl rfl le_rfl
        (fun _ h => by cases h)⟩
      have hitems : (feed.queue ++ [(feed.states.length, event)]).map
        (fun item => (item.1, item.2.state?)) =
          feed.queue.map (fun item => (item.1, item.2.state?)) ++
          [(feed.states.length, event.state?)] := List.map_append
      simp only [channel]
      rw [hitems, ← List.append_assoc]
      cases hstate : event.state? with
      | some s =>
        have hnewest : (feed.channel (feed.lane.connections k)).states.getLast? = some s :=
          hready.newest s (by rw [hcallback]; exact hstate)
        exact Channel.Produce.queue hnewest
      | none =>
        have hother := Channel.Produce.queueOther (c := feed.channel (feed.lane.connections k))
        simp only [channel, hcallback, FeedCallback.state?, hstate] at hother ⊢
        exact hother
    · refine ⟨rfl, .inl rfl, fun _ _ hready => ?_,
        fun hready => hready.of_callback rfl rfl le_rfl ?_⟩
      · simp only [channel, hcallback, FeedCallback.state?]
        exact .stay
      · intro s hs
        exact hready.newest s (by rw [hcallback]; exact hs)
  | full event =>
    cases event with
    | state state =>
      refine ⟨rfl, .inl rfl, fun _ _ hready => ?_,
        fun hready => hready.of_callback rfl rfl (Nat.le_succ _)
        (fun _ h => by cases h)⟩
      exact Channel.Produce.count
    | _ =>
      refine ⟨rfl, .inl rfl, fun _ _ hready => ?_, fun hready => hready.of_callback rfl rfl le_rfl
        (fun _ h => by cases h)⟩
      simp only [channel, hcallback, FeedCallback.state?, EngineEvent.state?]
      exact .stay

theorem onEvent_eq (k : ℕ) (feed : Feed) (event : EngineEvent) :
    feed.step k (.onEvent event) = (feed, []) ∨ feed.callback = .idle ∧ event.state? = none ∧
      feed.step k (.onEvent event) = ({ feed with callback := .send event }, [.called]) := by
  unfold step
  cases hcallback : feed.callback with
  | idle =>
    cases (feed.lane.connections k).live with
    | true =>
      cases event with
      | state s => exact .inl rfl
      | _ => exact .inr ⟨rfl, rfl, rfl⟩
    | false => cases event <;> exact .inl rfl
  | _ => cases event <;> exact .inl rfl

theorem step_cases (k : ℕ) (feed : Feed) (action : Action) :
    (∃ other, (∀ answer, other ≠ .pump k answer) ∧ feed.step k action = feed.laneStep k other) ∨
      Calls k feed (feed.step k action) ∨
      ∃ died criticalEvents, feed.step k action = feed.pumpStep k died criticalEvents := by
  have hstay : Calls k feed (feed, []) := ⟨rfl, .inr ⟨rfl, .inl rfl⟩, fun _ _ _ => .stay, id⟩
  cases action with
  | lane other =>
    cases other with
    | call caller call => exact .inl ⟨_, (fun _ h => by cases h), rfl⟩
    | advance caller answer => exact .inl ⟨_, (fun _ h => by cases h), rfl⟩
    | pump k' answer =>
      by_cases hk : k' = k
      · refine .inr (.inl ?_)
        rw [step, if_pos hk]
        exact hstay
      · refine .inl ⟨.pump k' answer, fun _ heq => hk ?_, if_neg hk⟩
        cases heq
        rfl
  | onStateChanged state =>
    refine .inr (.inl ?_)
    rw [step]
    split
    · refine ⟨rfl, .inl rfl, fun _ _ _ => .store state,
        fun hready => hready.of_callback rfl rfl le_rfl ?_⟩
      intro s hs
      cases hs
      exact List.getLast?_concat
    · exact hstay
  | onEvent event =>
    refine .inr (.inl ?_)
    rcases onEvent_eq k feed event with heq | ⟨hcallback, hnone, heq⟩
    · rw [heq]
      exact hstay
    · rw [heq]
      refine ⟨rfl, .inl rfl, fun _ _ _ => ?_, fun hready => hready.of_callback rfl rfl le_rfl ?_⟩
      · simp only [channel, hcallback, FeedCallback.state?, hnone]
        exact .stay
      · intro s hs
        cases hnone.symm.trans hs
  | callback => exact .inr (.inl (callbackStep_calls feed k))
  | readDrops =>
    refine .inr (.inl ?_)
    rw [step]
    split_ifs with hreads
    · refine ⟨rfl, .inr ⟨rfl, .inr ⟨hreads.1, rfl⟩⟩, fun _ _ _ => .stay, fun hready => ?_⟩
      exact ⟨hready.pending, fun d hd => (Option.some.inj hd).ge, hready.core, hready.newest⟩
    · exact hstay
  | pump died criticalEvents => exact .inr (.inr ⟨died, criticalEvents, rfl⟩)

theorem states_le (k : ℕ) (feed : Feed) (action : Action) :
    feed.states <+: (feed.step k action).1.states := by
  cases action with
  | lane other =>
    cases other with
    | pump k' answer =>
      rw [step]
      split_ifs <;> exact List.prefix_rfl
    | _ => exact List.prefix_rfl
  | onStateChanged state =>
    rw [step]
    split
    · exact List.prefix_append _ _
    · exact List.prefix_rfl
  | onEvent event =>
    rcases onEvent_eq k feed event with heq | ⟨-, -, heq⟩ <;> rw [heq]
  | callback =>
    rw [step]
    unfold callbackStep
    split
    · exact List.prefix_rfl
    · split_ifs <;> exact List.prefix_rfl
    all_goals exact List.prefix_rfl
  | readDrops =>
    rw [step]
    split_ifs <;> exact List.prefix_rfl
  | pump died criticalEvents =>
    rw [step]
    unfold pumpStep
    dsimp only
    split_ifs <;> exact List.prefix_rfl

theorem framed_open {conn conn' : Connection} (h : ConnectionLane.Framed conn conn')
    (hunpumped : conn.installer = none → conn.pump = {} ∧ conn.slot = false ∧ conn.pc = .exited)
    (hopen : conn'.Unretired) :
    conn.Unretired ∧ conn'.pump = conn.pump ∧ (conn.slot = true → conn'.slot = true) ∧
      (conn'.slot = true → conn.slot = true ∨ conn'.pump.last = none) ∧
      (conn'.pc = conn.pc ∨ conn.pc = .exited ∧ conn'.pc = .receive ∨ conn.pc = .exited ∧
       conn'.pc = .exited) := by
  cases h with
  | same | ends => exact ⟨hopen, rfl, id, .inl, .inl rfl⟩
  | starts fresh =>
    obtain ⟨hpump, hslot, hpc⟩ := hunpumped fresh
    exact ⟨.inl fresh, hpump.symm, fun hfull => absurd (hslot.symm.trans hfull) nofun, nofun,
      .inr (.inr ⟨hpc, rfl⟩)⟩
  | installs uid fresh =>
    obtain ⟨hpump, hslot, hpc⟩ := hunpumped fresh
    exact ⟨.inl fresh, hpump.symm, fun _ => rfl, fun _ => .inr rfl, .inr (.inl ⟨hpc, rfl⟩)⟩
  | takes =>
    rcases hopen with hnone | hfull
    · exact ⟨.inl hnone, rfl, fun hfull => absurd ((hunpumped hnone).2.1.symm.trans hfull) nofun,
        nofun, .inl rfl⟩
    · cases hfull

/-- What the rest of the lane does to a connection that has not left its slot. -/
structure Aside (k : ℕ) (feed : Feed) (r : Feed × List FeedTrace) : Prop where
  unretired : (feed.lane.connections k).Unretired
  trace : r.2 = []
  channel : r.1.channel (r.1.lane.connections k) = feed.channel (feed.lane.connections k)
  ready : Ready k feed → Ready k r.1
  pc : (r.1.lane.connections k).pc = (feed.lane.connections k).pc ∨
    (feed.lane.connections k).pc = .exited

theorem lane_step (hsound : feed.lane.Sound) (hfresh : feed.lane.Fresh)
    {other : ConnectionLane.Action} (hother : ∀ answer, other ≠ .pump k answer)
    (hopen : ((feed.laneStep k other).1.lane.connections k).Unretired) :
    Aside k feed (feed.laneStep k other) := by
  obtain ⟨hframed, hvpn⟩ := ConnectionLane.framed_step hsound hfresh (k := k) hother
  obtain ⟨hbefore, hpump, hkept, hfull, hpc⟩ := framed_open hframed (hfresh.unpumped k) hopen
  unfold laneStep
  refine ⟨hbefore, ?_, ?_, fun hready => ⟨?_, hready.reads, ?_, hready.newest⟩, ?_⟩
  · dsimp only [emptied]
    exact if_neg fun h => by cases (hkept h.1).symm.trans h.2
  · have hsame : ((feed.lane.step other).1.connections k).inHand =
      (feed.lane.connections k).inHand ∧
        ((feed.lane.step other).1.connections k).pc.claims = (feed.lane.connections k).pc.claims ∧
        ((feed.lane.step other).1.connections k).pc.probes =
        (feed.lane.connections k).pc.probes := by
      unfold Connection.inHand
      rw [hpump]
      rcases hpc with heq | ⟨hold, hnew⟩ | ⟨hold, hnew⟩
      · rw [heq]
        exact ⟨rfl, rfl, rfl⟩
      all_goals
        rw [hold, hnew]
        exact ⟨rfl, rfl, rfl⟩
    dsimp only [channel]
    rw [hsame.1, hsame.2.1, hsame.2.2, hpump]
  · dsimp only
    rw [hpump]
    intro hsome
    have hreceive := hready.pending hsome
    rcases hpc with heq | ⟨hold, -⟩ | ⟨hold, -⟩
    · exact heq.trans hreceive
    all_goals cases hold.symm.trans hreceive
  · intro hslot v hv
    rcases hfull hslot with hold | hnone
    · rw [hpump] at hv
      exact (hvpn hold).trans (hready.core hold v hv)
    · cases hnone.symm.trans hv
  · exact hpc.imp_right fun h => h.elim And.left And.left

/-! ## The pump's trace -/

/-- When a step of the pump records what. -/
def Recorded (feed : Feed) (before after : Connection) (died : Bool) : FeedTrace → Prop
  | .called => False
  | .published _ _ => after.pump.last ≠ before.pump.last
  | .timedOut => receives before = true ∧ feed.queue = [] ∧ died = false ∧ before.pc ≠ .probe
  | .quiet => before.pc = .probe
  | .taken pump => pump = true ∧ before.slot = true ∧ after.slot = false
  | .terminal => before.pc = .publish

theorem recorded_pump {before after : Connection} {vpn : VpnState} {died : Bool} {e : FeedTrace}
    (he : e ∈ feed.published before after vpn ++ feed.waited before died ++
     emptied before after true ++
      terminal before) : Recorded feed before after died e := by
  rcases List.mem_append.mp he with he | he
  · rcases List.mem_append.mp he with he | he
    · rcases List.mem_append.mp he with he | he
      · unfold published at he
        split_ifs at he with hsame
        · cases he
        · split at he <;> cases List.mem_singleton.mp he <;> exact hsame
      · unfold waited at he
        split_ifs at he with hempty
        · split at he
          · next hpc =>
            cases List.mem_singleton.mp he
            exact hpc
          · next hpc =>
            cases List.mem_singleton.mp he
            exact ⟨hempty.1, hempty.2.1, hempty.2.2, hpc⟩
        · cases he
    · unfold emptied at he
      split_ifs at he with hslot
      · cases List.mem_singleton.mp he
        exact ⟨rfl, hslot⟩
      · cases he
  · unfold terminal at he
    split at he
    · next hpc =>
      cases List.mem_singleton.mp he
      exact hpc
    · cases he

/-- After the wait has found the queue empty, with no callback since: the newest state is shown, or
the quiet cadence is still to look at the drops, or the pump is about to claim its connection. -/
def Quiet (k : ℕ) (feed : Feed) (history : List FeedTrace) (a : ℕ) : Prop :=
  ∀ past since, history = past ++ .timedOut :: since → .called ∉ since → feed.callback = .idle →
    (feed.channel (feed.lane.connections k)).items = [] ∧
      (a = feed.states.length ∨ .quiet ∉ since ∧
        ((feed.lane.connections k).pc = .reconcileQuiet ∧
         (∀ d, feed.readDrops = some d → d = feed.droppedStates) ∨
          (feed.lane.connections k).pc = .claim))

/-- What holds of a connection that has not left its slot: state number `a` is shown. -/
structure Open (k : ℕ) (feed : Feed) (history : List FeedTrace) (a : ℕ) : Prop where
  channel : Channel.Inv mapVpnState (feed.channel (feed.lane.connections k)) a
  ready : Ready k feed
  untaken : ∀ pump, .taken pump ∉ history
  le : ∀ m v, .published m v ∈ history → m ≤ a
  quiet : Quiet k feed history a

/-- What holds along every run. -/
structure Converging (k : ℕ) (feed : Feed) (history : List FeedTrace) : Prop where
  sound : feed.lane.Sound
  fresh : feed.lane.Fresh
  named : ∀ m v, .published m v ∈ history → valueAt mapVpnState feed.states m = some v
  sorted : ((history.filterMap published?).map Prod.fst).Pairwise (· ≤ ·)
  opened : (feed.lane.connections k).Unretired → ∃ a, Open k feed history a
  closed : ∀ (past since : List FeedTrace) (pump : Bool), history = past ++ .taken pump :: since →
    (∀ m v, .published m v ∉ since) ∧ ∀ pump', .taken pump' ∉ since
  terminal : .terminal ∈ history → .taken true ∈ history
  claimed : (feed.lane.connections k).pc = .disconnect ∨ (feed.lane.connections k).pc = .publish →
    .taken true ∈ history

/-! ## One step -/

theorem valueAt_prefix {states states' : List EngineConnectionState} {m : ℕ} {v : VpnState}
    (hpre : states <+: states') (h : valueAt mapVpnState states m = some v) :
    valueAt mapVpnState states' m = some v := by
  obtain ⟨more, rfl⟩ := hpre
  cases m with
  | zero => cases h
  | succ j =>
    obtain ⟨s, hs, -⟩ := Option.map_eq_some_iff.mp h
    have hlt : j < states.length := (List.getElem?_eq_some_iff.mp hs).1
    exact (valueAt_append hlt).trans h

theorem Converging.extend {history : List FeedTrace} {r : Feed × List FeedTrace}
    (h : Converging k feed history)
    (hsound : r.1.lane.Sound) (hfresh : r.1.lane.Fresh) (hpre : feed.states <+: r.1.states)
    (hpublished : ∀ m v, .published m v ∈ r.2 → r.2.filterMap published? = [(m, v)] ∧
      (feed.lane.connections k).Unretired ∧ valueAt mapVpnState r.1.states m = some v ∧
        ∀ a, Open k feed history a → a ≤ m)
    (htaken : ∀ pump, .taken pump ∈ r.2 → (feed.lane.connections k).Unretired ∧ r.2 = [.taken pump])
    (hterminal : .terminal ∈ r.2 → (feed.lane.connections k).pc = .publish)
    (hclaimed : (r.1.lane.connections k).pc = .disconnect ∨ (r.1.lane.connections k).pc = .publish →
      ((feed.lane.connections k).pc = .disconnect ∨ (feed.lane.connections k).pc = .publish) ∨
      .taken true ∈ r.2)
    (hopened : (r.1.lane.connections k).Unretired → ∃ a, Open k r.1 (history ++ r.2) a) :
    Converging k r.1 (history ++ r.2) := by
  have hmem : ∀ m v, (m, v) ∈ history.filterMap published? → .published m v ∈ history :=
    fun m v hm => by
    obtain ⟨e, he, heq⟩ := List.mem_filterMap.mp hm
    cases e with
    | published m' v' =>
      cases heq
      exact he
    | _ => cases heq
  refine ⟨hsound, hfresh, fun m v hm => ?_, ?_, hopened, fun past since pump heq => ?_,
    fun hterm => ?_, fun hpc => ?_⟩
  · rcases List.mem_append.mp hm with hold | hnew
    · exact valueAt_prefix hpre (h.named m v hold)
    · exact (hpublished m v hnew).2.2.1
  · rw [List.filterMap_append, List.map_append]
    by_cases hany : ∃ m v, .published m v ∈ r.2
    · obtain ⟨m, v, hm⟩ := hany
      obtain ⟨hone, hopen, -, hle⟩ := hpublished m v hm
      obtain ⟨a, ha⟩ := h.opened hopen
      rw [hone]
      refine List.pairwise_append.mpr ⟨h.sorted, List.pairwise_singleton _ _, fun i hi j hj => ?_⟩
      obtain ⟨⟨i', v'⟩, hi', rfl⟩ := List.mem_map.mp hi
      rw [List.mem_singleton.mp hj]
      exact (ha.le i' v' (hmem i' v' hi')).trans (hle a ha)
    · have hnone : r.2.filterMap published? = [] := List.filterMap_eq_nil_iff.mpr fun e he => by
        cases e with
        | published m v => exact absurd ⟨m, v, he⟩ hany
        | _ => rfl
      rw [hnone, List.map_nil, List.append_nil]
      exact h.sorted
  · rcases Machine.append_eq_append_cons heq with ⟨mid, hhistory, rfl⟩ | ⟨mid, htrace, -⟩
    · have hretired : ¬ (feed.lane.connections k).Unretired := fun hopen => by
        obtain ⟨a, ha⟩ := h.opened hopen
        exact ha.untaken pump (hhistory ▸ List.mem_append_right _ List.mem_cons_self)
      obtain ⟨hquiet, honce⟩ := h.closed past mid pump hhistory
      refine ⟨fun m v hm => ?_, fun pump' hm => ?_⟩
      · exact (List.mem_append.mp hm).elim (hquiet m v) fun hnew =>
          hretired (hpublished m v hnew).2.1
      · exact (List.mem_append.mp hm).elim (honce pump') fun hnew => hretired (htaken pump' hnew).1
    · have hone := (htaken pump (htrace ▸ List.mem_append_right _ List.mem_cons_self)).2
      rw [hone] at htrace
      obtain ⟨-, hsince⟩ : mid = [] ∧ since = [] := by
        cases mid with
        | nil => exact ⟨rfl, (List.cons.inj htrace).2.symm⟩
        | cons e mid => exact absurd (List.cons.inj htrace).2 (by simp)
      rw [hsince]
      exact ⟨nofun, nofun⟩
  · refine List.mem_append_left _ ?_
    rcases List.mem_append.mp hterm with hold | hnew
    · exact h.terminal hold
    · exact h.claimed (.inr (hterminal hnew))
  · rcases hclaimed hpc with hold | hnew
    · exact List.mem_append_left _ (h.claimed hold)
    · exact List.mem_append_right _ hnew

/-- A step that records nothing, or only that a callback ran, and keeps what is shown. -/
theorem Open.keep {history : List FeedTrace} {a : ℕ} (h : Open k feed history a) {feed' : Feed}
    (hchannel : Channel.Inv mapVpnState (feed'.channel (feed'.lane.connections k)) a)
    (hready : Ready k feed') (hquiet : Quiet k feed' history a) : Open k feed' history a :=
  ⟨hchannel, hready, h.untaken, h.le, hquiet⟩

theorem Converging.lane {history : List FeedTrace} (h : Converging k feed history)
    {other : ConnectionLane.Action} (hother : ∀ answer, other ≠ .pump k answer) :
    Converging k (feed.laneStep k other).1 (history ++ (feed.laneStep k other).2) := by
  obtain ⟨hframed, -⟩ := ConnectionLane.framed_step h.sound h.fresh (k := k) hother
  have htrace : (feed.laneStep k other).2 = [] ∨
      (feed.lane.connections k).slot = true ∧ (feed.laneStep k other).2 = [.taken false] := by
    unfold laneStep
    dsimp only [emptied]
    split_ifs with hslot
    · exact .inr ⟨hslot.1, rfl⟩
    · exact .inl rfl
  refine h.extend (ConnectionLane.sound_step h.sound other)
    (ConnectionLane.fresh_step h.sound h.fresh other)
    List.prefix_rfl (fun m v hm => ?_) (fun pump hm => ?_) (fun hm => ?_) (fun hpc => .inl ?_)
      (fun hopen => ?_)
  · rcases htrace with heq | ⟨-, heq⟩ <;> simp [heq] at hm
  · rcases htrace with heq | ⟨hslot, heq⟩
    · simp [heq] at hm
    · rw [heq, List.mem_singleton] at hm
      exact ⟨.inr hslot, heq.trans (congrArg (fun e => [e]) hm.symm)⟩
  · rcases htrace with heq | ⟨-, heq⟩ <;> simp [heq] at hm
  · change ((feed.lane.step other).1.connections k).pc = _ ∨
      ((feed.lane.step other).1.connections k).pc = _ at hpc
    generalize (feed.lane.step other).1.connections k = conn at hframed hpc
    cases hframed with
    | starts | installs => rcases hpc with hpc | hpc <;> cases hpc
    | _ => exact hpc
  · obtain ⟨hbefore, hnil, hchannel, hready, hpc⟩ := lane_step h.sound h.fresh hother hopen
    obtain ⟨a, ha⟩ := h.opened hbefore
    rw [hnil, List.append_nil]
    refine ⟨a, ha.keep (hchannel ▸ ha.channel)
      (hready ha.ready) fun past since heq hcalled hidle => ?_⟩
    obtain ⟨hitems, hshown⟩ := ha.quiet past since heq hcalled hidle
    refine ⟨hchannel ▸ hitems, hshown.imp_right fun ⟨hquiet, hplace⟩ => ⟨hquiet, ?_⟩⟩
    rcases hpc with hsame | hexited
    · rw [hsame]
      exact hplace
    · rcases hplace with ⟨hat, -⟩ | hat <;> cases hexited.symm.trans hat

/-- A step of the callbacks, or a read of the counter. -/
theorem Converging.calls {history : List FeedTrace} (h : Converging k feed history)
    {r : Feed × List FeedTrace} (hcalls : Calls k feed r) (hpre : feed.states <+: r.1.states) :
    Converging k r.1 (history ++ r.2) := by
  have hmem : ∀ e ∈ r.2, e = .called := fun e he => by
    rcases hcalls.trace with heq | ⟨heq, -⟩
    · rw [heq] at he
      exact List.mem_singleton.mp he
    · rw [heq] at he
      cases he
  refine h.extend (hcalls.lane ▸ h.sound) (hcalls.lane ▸ h.fresh) hpre (fun m v hm => ?_)
    (fun pump hm => ?_)
    (fun hm => ?_) (fun hpc => .inl (hcalls.lane ▸ hpc)) (fun hopen => ?_)
  · cases hmem _ hm
  · cases hmem _ hm
  · cases hmem _ hm
  · rw [hcalls.lane] at hopen
    obtain ⟨a, ha⟩ := h.opened hopen
    obtain ⟨p, hagrees⟩ := h.sound.phase
    have hchannel := (hcalls.channel hopen (hagrees.formed k) ha.ready).inv ha.channel
    rw [← hcalls.lane] at hchannel
    refine ⟨a, hchannel, hcalls.ready ha.ready, fun pump hm => ?_, fun m v hm => ?_, ?_⟩
    · rcases List.mem_append.mp hm with hold | hnew
      · exact ha.untaken pump hold
      · cases hmem _ hnew
    · rcases List.mem_append.mp hm with hold | hnew
      · exact ha.le m v hold
      · cases hmem _ hnew
    · rcases hcalls.trace with heq | ⟨heq, hsame⟩
      · -- a callback ran
        rw [heq]
        intro past since hsplit hcalled
        rcases Machine.append_eq_append_cons hsplit with ⟨mid, -, rfl⟩ | ⟨mid, htail, -⟩
        · exact absurd (List.mem_append_right _ (List.mem_singleton_self _)) hcalled
        · cases mid with
          | nil => cases htail
          | cons e mid => exact absurd (List.cons.inj htail).2 (by simp)
      · rw [heq, List.append_nil]
        rcases hsame with heq' | ⟨-, heq'⟩
        · rw [heq']
          exact ha.quiet
        · rw [heq']
          intro past since hsplit hcalled hidle
          obtain ⟨hitems, hshown⟩ := ha.quiet past since hsplit hcalled hidle
          refine ⟨hitems, hshown.imp_right fun ⟨hquiet, hplace⟩ =>
            ⟨hquiet, hplace.imp_left fun hat => ?_⟩⟩
          exact ⟨hat.1, fun d hd => (Option.some.inj hd).symm⟩

/-! ## The pump -/

theorem pump_places (lane : ConnectionLane) (k : ℕ) (answer : EngineAnswer) :
    (((lane.pumpStep k answer).1.connections k).slot = true → (lane.connections k).slot = true) ∧
      (((lane.pumpStep k answer).1.connections k).pc = .disconnect ∨
          ((lane.pumpStep k answer).1.connections k).pc = .publish →
        ((lane.connections k).pc = .disconnect ∨ (lane.connections k).pc = .publish) ∨
          (lane.connections k).slot = true ∧ ((lane.pumpStep k answer).1.connections k).slot =
          false) := by
  have hcase := ConnectionLane.pumpStep_case lane k answer
  generalize lane.pumpStep k answer = r at hcase
  cases hcase with
  | exited hpc => exact ⟨id, .inl⟩
  | @pumped conn vpn _ hpumped =>
    have hconn : ((lane.setConnection k conn).setVpnState vpn).connections k = conn :=
      Function.update_self _ _ _
    dsimp only
    rw [hconn]
    cases hpumped with
    | loops before after =>
      refine ⟨id, fun hpc => ?_⟩
      rcases hpc with rfl | rfl <;> cases after
    | leaves before slot =>
      refine ⟨fun hfull => absurd (slot.symm.trans hfull) nofun, fun hpc => ?_⟩
      rcases hpc with hpc | hpc <;> cases hpc
    | claims before slot => exact ⟨fun _ => slot, fun _ => .inr ⟨slot, rfl⟩⟩
    | disconnects before => exact ⟨id, fun _ => .inl (.inl before)⟩
    | publishes before => exact ⟨id, fun _ => .inl (.inr before)⟩
  | retires hpc =>
    have hconn : (lane.retireLane k).connections k = { lane.connections k with pc := .exited } := by
      unfold ConnectionLane.retireLane
      split_ifs <;> exact Function.update_self _ _ _
    dsimp only
    rw [hconn]
    exact ⟨id, fun hpc => by rcases hpc with hpc | hpc <;> cases hpc⟩

theorem last_of_empty (lane : ConnectionLane) (k : ℕ) (answer : EngineAnswer)
    (hslot : (lane.connections k).slot = false) :
    ((lane.pumpStep k answer).1.connections k).pump.last = (lane.connections k).pump.last := by
  have hset : ∀ conn : Connection, conn.pump.last = (lane.connections k).pump.last →
      ((lane.setConnection k conn).connections k).pump.last = (lane.connections k).pump.last :=
      fun conn hlast =>
    (congrArg (fun conn => conn.pump.last) (connections_setConnection lane k conn)).trans hlast
  have hempty : ¬ (lane.connections k).slot = true := Bool.eq_false_iff.mp hslot
  unfold ConnectionLane.pumpStep
  cases hpc : (lane.connections k).pc with
  | receive =>
    dsimp only [ConnectionLane.pumpReceive]
    rw [if_neg hempty]
    split <;> exact hset _ rfl
  | reconcileFirst | reconcileAfter | reconcileQuiet =>
    dsimp only [ConnectionLane.pumpReconcile]
    rw [if_neg hempty]
    exact hset _ rfl
  | process event =>
    cases event with
    | state state =>
      dsimp only [ConnectionLane.pumpProcess]
      rw [if_pos hslot]
      split_ifs <;> exact hset _ rfl
    | _ => exact hset _ rfl
  | probe =>
    dsimp only [ConnectionLane.pumpProbe]
    rw [if_neg hempty]
    exact hset _ rfl
  | claim =>
    dsimp only [ConnectionLane.pumpClaim]
    split_ifs
    exact hset _ rfl
  | retireLane =>
    dsimp only [ConnectionLane.retireLane]
    split_ifs <;> exact hset _ rfl
  | exited => rfl
  | _ => exact hset _ rfl

theorem reconcileDrops_seen (pump : Pump) (answer : EngineAnswer) :
    (reconcileDrops pump answer).1 = true ∨ (reconcileDrops pump answer).1 = false ∧
      answer.droppedStates ≤ (reconcileDrops pump answer).2.1.droppedWatermark := by
  have hseen : answer.droppedStates ≤
    (pump.observeDrops answer.droppedStates).droppedWatermark := by
    unfold Pump.observeDrops
    split_ifs with hlt
    · exact le_rfl
    · exact not_lt.mp hlt
  unfold reconcileDrops
  by_cases hfatal : .certificateFatal ∈ answer.criticalEvents
  · rw [if_pos hfatal]
    exact .inl rfl
  · rw [if_neg hfatal]
    refine .inr ?_
    dsimp only
    split_ifs with hunarmed
    · exact ⟨rfl, hseen⟩
    · split
      · rw [(publish_spec _ _).1]
        exact ⟨rfl, hseen⟩
      · exact ⟨rfl, hseen⟩

theorem quiet_reconciles {d : ℕ} (hfull : (feed.lane.connections k).slot = true)
    (hpc : (feed.lane.connections k).pc = .reconcileQuiet) (hread : feed.readDrops = some d)
    (died : Bool) (criticalEvents : List EngineEvent) :
    ((feed.pumpStep k died criticalEvents).1.lane.connections k).pc = .claim ∨
      ((feed.pumpStep k died criticalEvents).1.lane.connections k).pc = .probe ∧
        d ≤ ((feed.pumpStep k died criticalEvents).1.lane.connections k).pump.droppedWatermark := by
  have hcounter : (feed.answer died criticalEvents).droppedStates = d :=
    congrArg (Option.getD · _) hread
  have hconn : ((feed.pumpStep k died criticalEvents).1.lane.connections k) =
      { feed.lane.connections k with
        pc := if (reconcileDrops (feed.lane.connections k).pump (feed.answer died criticalEvents)).1
          then .claim
          else .probe
        pump := (reconcileDrops (feed.lane.connections k).pump
          (feed.answer died criticalEvents)).2.1 } := by
    unfold pumpStep
    rw [if_neg fun h => by cases hread.symm.trans h.2]
    dsimp only [ConnectionLane.pumpStep]
    rw [hpc]
    dsimp only [ConnectionLane.pumpReconcile]
    rw [if_pos hfull]
    exact connections_pumpPublish _ _ _ _
  rw [hconn]
  dsimp only
  rcases reconcileDrops_seen (feed.lane.connections k).pump (feed.answer died criticalEvents) with
    hfatal | ⟨hgoes, hseen⟩
  · rw [hfatal]
    exact .inl rfl
  · rw [hgoes]
    exact .inr ⟨rfl, hcounter ▸ hseen⟩

theorem wait_quiet (hfull : (feed.lane.connections k).slot = true)
    (hreceives : receives (feed.lane.connections k) = true)
    (hpc : (feed.lane.connections k).pc ≠ .probe)
    (hempty : feed.queue = []) (criticalEvents : List EngineEvent) :
    ((feed.pumpStep k false criticalEvents).1.lane.connections k).pc = .reconcileQuiet ∧
      (feed.pumpStep k false criticalEvents).1.readDrops = none ∧
      ((feed.pumpStep k false criticalEvents).1.channel
        ((feed.pumpStep k false criticalEvents).1.lane.connections k)).items = [] := by
  obtain ⟨hat, hnone⟩ : (feed.lane.connections k).pc = .receive ∧
    (feed.lane.connections k).pump.pending = none := by
    unfold receives at hreceives
    rw [hfull, Bool.true_and] at hreceives
    split at hreceives
    · next hpc' => exact ⟨hpc', Option.isNone_iff_eq_none.mp hreceives⟩
    · next hpc' => exact absurd hpc' hpc
    · cases hreceives
  have hgoes : feed.lane.pumpReceive k (feed.answer false criticalEvents).received =
      feed.lane.pumpGoto k .reconcileQuiet := by
    unfold ConnectionLane.pumpReceive answer
    rw [hnone, hempty]
    dsimp only
    rw [if_pos hfull]
    rfl
  have hlane : (feed.lane.pumpStep k (feed.answer false criticalEvents)).1 =
    feed.lane.pumpGoto k .reconcileQuiet := by
    unfold ConnectionLane.pumpStep
    rw [hat]
    exact hgoes
  unfold pumpStep
  rw [if_neg fun h => by rw [hat] at h; cases h.1]
  dsimp only
  rw [hlane, connections_pumpGoto, if_pos hreceives, hempty]
  refine ⟨rfl, rfl, ?_⟩
  simp only [channel, Connection.inHand, hnone]
  rfl

theorem pump_frame (feed : Feed) (k : ℕ) (died : Bool) (criticalEvents : List EngineEvent) :
    (feed.pumpStep k died criticalEvents).1.states = feed.states ∧
      (feed.pumpStep k died criticalEvents).1.callback = feed.callback ∧
      (feed.pumpStep k died criticalEvents).1.droppedStates = feed.droppedStates ∧
      ∀ e ∈ (feed.pumpStep k died criticalEvents).2, Recorded feed (feed.lane.connections k)
        ((feed.pumpStep k died criticalEvents).1.lane.connections k) died e := by
  unfold pumpStep
  dsimp only
  by_cases hblocked : (feed.lane.connections k).pc.reconciles = true ∧ feed.readDrops = none
  · rw [if_pos hblocked]
    exact ⟨rfl, rfl, rfl, nofun⟩
  · rw [if_neg hblocked]
    exact ⟨rfl, rfl, rfl, fun e he => recorded_pump he⟩

theorem filterMap_pump (feed : Feed) (k : ℕ) (died : Bool) (criticalEvents : List EngineEvent) :
    (feed.pumpStep k died criticalEvents).2.filterMap published? =
      (label (feed.pumpStep k died criticalEvents).2).toList := by
  have hone : ∀ (before after : Connection) (vpn : VpnState),
      (feed.published before after vpn).filterMap published? =
      (label (feed.published before after vpn)).toList := by
    intro before after vpn
    unfold published
    split_ifs
    · rfl
    · split <;> rfl
  unfold pumpStep
  dsimp only
  by_cases hblocked : (feed.lane.connections k).pc.reconciles = true ∧ feed.readDrops = none
  · rw [if_pos hblocked]
    rfl
  · rw [if_neg hblocked]
    dsimp only
    rw [label_pump, ← hone, List.append_assoc, List.append_assoc, List.filterMap_append,
      ← List.append_assoc, filterMap_rest, List.append_nil]

theorem label_of_mem {died : Bool} {criticalEvents : List EngineEvent} {m : ℕ} {v : VpnState}
    (hm : .published m v ∈ (feed.pumpStep k died criticalEvents).2) :
    label (feed.pumpStep k died criticalEvents).2 = some (m, v) := by
  have hmem : (m, v) ∈ (feed.pumpStep k died criticalEvents).2.filterMap published? :=
    List.mem_filterMap.mpr ⟨_, hm, rfl⟩
  rw [filterMap_pump] at hmem
  exact Option.mem_toList.mp hmem

/-- After a step of the pump that shows state number `a'`. -/
theorem Quiet.pump {history : List FeedTrace} {a a' : ℕ} {died : Bool}
    {criticalEvents : List EngineEvent}
    (h : Quiet k feed history a) (hfull : (feed.lane.connections k).slot = true)
    (hclaim : (feed.lane.connections k).pc ≠ .claim)
    (hreads : (feed.lane.connections k).pc.reconciles = true → feed.readDrops ≠ none)
    (hitems : ((feed.pumpStep k died criticalEvents).1.channel
      ((feed.pumpStep k died criticalEvents).1.lane.connections k)).items <:+
        (feed.channel (feed.lane.connections k)).items)
    (hinv : Channel.Inv mapVpnState ((feed.pumpStep k died criticalEvents).1.channel
      ((feed.pumpStep k died criticalEvents).1.lane.connections k)) a') (hle : a ≤ a') :
    Quiet k (feed.pumpStep k died criticalEvents).1
      (history ++ (feed.pumpStep k died criticalEvents).2) a' := by
  obtain ⟨hstates, hcallback, hdrops, hrecorded⟩ := pump_frame feed k died criticalEvents
  have hprobe : .quiet ∈ (feed.pumpStep k died criticalEvents).2 →
    (feed.lane.connections k).pc = .probe := fun hm =>
    hrecorded _ hm
  intro past since heq hcalled hidle
  rcases Machine.append_eq_append_cons heq with ⟨mid, hhistory, rfl⟩ | ⟨mid, htrace, -⟩
  · obtain ⟨hempty, hshown⟩ := h past mid hhistory (fun hm => hcalled (List.mem_append_left _ hm))
      (hcallback.symm.trans hidle)
    have hnothing := List.suffix_nil.mp (hempty ▸ hitems)
    refine ⟨hnothing, ?_⟩
    rcases hshown with hall | ⟨hquiet, ⟨hpc, hread⟩ | hpc⟩
    · refine .inl (le_antisymm hinv.le ?_)
      rw [hstates, ← hall]
      exact hle
    · obtain ⟨d, hd⟩ := Option.ne_none_iff_exists'.mp (hreads (by rw [hpc]; rfl))
      rcases quiet_reconciles hfull hpc hd died criticalEvents with hfatal | ⟨hprobes, hseen⟩
      · refine .inr ⟨fun hm => ?_, .inr hfatal⟩
        rcases List.mem_append.mp hm with hold | hnew
        · exact hquiet hold
        · cases hpc.symm.trans (hprobe hnew)
      · -- nothing is on its way, and the drops are seen
        refine .inl (hinv.caught_up hnothing ?_ ?_ (.inr ?_))
        · dsimp only [channel]
          rw [hidle]
          rfl
        · dsimp only [channel]
          rw [hdrops, ← hread d hd]
          exact hseen
        · dsimp only [channel]
          rw [hprobes]
          rfl
    · exact absurd hpc hclaim
  · obtain ⟨hreceives, hqueue, rfl, hpc⟩ :=
      hrecorded _ (htrace ▸ List.mem_append_right _ List.mem_cons_self)
    obtain ⟨hgoes, hunread, hnothing⟩ := wait_quiet hfull hreceives hpc hqueue criticalEvents
    refine ⟨hnothing, .inr ⟨fun hm => hpc (hprobe ?_), .inl ⟨hgoes, fun d hd => ?_⟩⟩⟩
    · rw [htrace]
      exact List.mem_append_right _ (List.mem_cons_of_mem _ hm)
    · cases hunread.symm.trans hd

/-- A step of the pump over a full slot that does not claim its connection. -/
theorem Open.pump {history : List FeedTrace} {a : ℕ} {died : Bool}
    {criticalEvents : List EngineEvent}
    (h : Open k feed history a) (hfull : (feed.lane.connections k).slot = true)
    (hclaim : (feed.lane.connections k).pc ≠ .claim)
    (hreads : (feed.lane.connections k).pc.reconciles = true → feed.readDrops ≠ none)
    (hpumps : Pumps k feed (feed.pumpStep k died criticalEvents)) :
    ∃ a', Open k (feed.pumpStep k died criticalEvents).1
      (history ++ (feed.pumpStep k died criticalEvents).2) a' ∧
      ∀ m v, .published m v ∈ (feed.pumpStep k died criticalEvents).2 →
        a ≤ m ∧ valueAt mapVpnState (feed.pumpStep k died criticalEvents).1.states m = some v := by
  obtain ⟨a', hle, hinv, hlabel⟩ := hpumps.channel.inv h.channel
  refine ⟨a', ⟨hinv, hpumps.ready, fun pump hm => ?_, fun m v hm => ?_,
    h.quiet.pump hfull hclaim hreads hpumps.channel.frame.2 hinv hle⟩, fun m v hm => ?_⟩
  · rcases List.mem_append.mp hm with hold | hnew
    · exact h.untaken pump hold
    · obtain ⟨-, -, hempty⟩ := (pump_frame feed k died criticalEvents).2.2.2 _ hnew
      cases hpumps.slot.symm.trans hempty
  · rcases List.mem_append.mp hm with hold | hnew
    · exact (h.le m v hold).trans hle
    · exact (hlabel m v (label_of_mem hnew)).2.1
  · obtain ⟨ham, -, hvalue⟩ := hlabel m v (label_of_mem hm)
    exact ⟨ham, hvalue⟩

theorem claim_step (hfull : (feed.lane.connections k).slot = true)
    (hpc : (feed.lane.connections k).pc = .claim)
    (died : Bool) (criticalEvents : List EngineEvent) :
    ((feed.pumpStep k died criticalEvents).1.lane.connections k) =
        { feed.lane.connections k with slot := false, pc := .disconnect } ∧
      (feed.pumpStep k died criticalEvents).2 = [.taken true] := by
  have hlane : (feed.lane.pumpStep k (feed.answer died criticalEvents)).1 =
      feed.lane.setConnection k { feed.lane.connections k with
      slot := false, pc := .disconnect } := by
    unfold ConnectionLane.pumpStep ConnectionLane.pumpClaim
    rw [hpc]
    exact if_pos hfull
  unfold pumpStep
  rw [if_neg fun h => by rw [hpc] at h; cases h.1]
  dsimp only
  rw [hlane, connections_setConnection]
  refine ⟨rfl, ?_⟩
  unfold published waited emptied terminal receives
  rw [hpc, hfull]
  simp

theorem Converging.pump {history : List FeedTrace} (h : Converging k feed history) (died : Bool)
    (criticalEvents : List EngineEvent) :
    Converging k (feed.pumpStep k died criticalEvents).1
      (history ++ (feed.pumpStep k died criticalEvents).2) := by
  by_cases hblocked : (feed.lane.connections k).pc.reconciles = true ∧ feed.readDrops = none
  · have hstays : feed.pumpStep k died criticalEvents = (feed, []) := if_pos hblocked
    rw [hstays, List.append_nil]
    exact h
  have hlane : (feed.pumpStep k died criticalEvents).1.lane =
      (feed.lane.step (.pump k (feed.answer died criticalEvents))).1 := by
    unfold pumpStep
    rw [if_neg hblocked]
    rfl
  obtain ⟨hstates, -, -, hrecorded⟩ := pump_frame feed k died criticalEvents
  obtain ⟨hfills, hplaces⟩ := pump_places feed.lane k (feed.answer died criticalEvents)
  obtain ⟨p, hagrees⟩ := h.sound.phase
  have hsound := ConnectionLane.sound_step h.sound (.pump k (feed.answer died criticalEvents))
  have hfresh := ConnectionLane.fresh_step h.sound h.fresh
    (.pump k (feed.answer died criticalEvents))
  have hconn : (feed.pumpStep k died criticalEvents).1.lane.connections k =
      (feed.lane.pumpStep k (feed.answer died criticalEvents)).1.connections k := by
    rw [hlane]
    rfl
  rw [← hconn] at hfills hplaces
  rw [← hlane] at hsound hfresh
  have hterminal : .terminal ∈ (feed.pumpStep k died criticalEvents).2 →
    (feed.lane.connections k).pc = .publish :=
    fun hm => hrecorded _ hm
  by_cases hfull : (feed.lane.connections k).slot = true
  · by_cases hclaim : (feed.lane.connections k).pc = .claim
    · -- the pump takes its connection
      obtain ⟨hafter, htrace⟩ := claim_step hfull hclaim died criticalEvents
      have hmem : ∀ e ∈ (feed.pumpStep k died criticalEvents).2, e = .taken true := fun e he => by
        rw [htrace] at he
        exact List.mem_singleton.mp he
      refine h.extend hsound hfresh (hstates ▸ List.prefix_rfl) (fun m v hm => ?_)
        (fun pump hm => ?_) hterminal
        (fun _ => .inr ?_) (fun hopen => ?_)
      · cases hmem _ hm
      · exact ⟨.inr hfull, htrace.trans (congrArg (fun e => [e]) (hmem _ hm).symm)⟩
      · rw [htrace]
        exact List.mem_singleton_self _
      · rw [hafter] at hopen
        rcases hopen with hnone | hslot
        · cases (h.fresh.unpumped k hnone).2.1.symm.trans hfull
        · cases hslot
    · obtain ⟨a, ha⟩ := h.opened (.inr hfull)
      rcases (pump_step ha.ready hfull ((hagrees.formed k).slot hfull).2 died
        criticalEvents).resolve_left hclaim with
        hstays | hpumps
      · rw [hstays, List.append_nil]
        exact h
      · have hreads : (feed.lane.connections k).pc.reconciles = true → feed.readDrops ≠ none :=
          fun hpc hnone =>
          hblocked ⟨hpc, hnone⟩
        have hopened : ∀ a, Open k feed history a → _ := fun a ha =>
          ha.pump hfull hclaim hreads hpumps
        obtain ⟨a', hopen', hvalues⟩ := hopened a ha
        refine h.extend hsound hfresh (hstates ▸ List.prefix_rfl)
          (fun m v hm => ⟨?_, .inr hfull, (hvalues m v hm).2, ?_⟩)
          (fun pump hm => ?_) hterminal (fun hpc => .inl ?_) (fun _ => ⟨a', hopen'⟩)
        · rw [filterMap_pump, label_of_mem hm]
          rfl
        · intro b hb
          obtain ⟨-, -, hvalues'⟩ := hopened b hb
          exact (hvalues' m v hm).1
        · obtain ⟨-, -, hempty⟩ := hrecorded _ hm
          cases hpumps.slot.symm.trans hempty
        · refine (hplaces hpc).resolve_right fun hempty => ?_
          cases hpumps.slot.symm.trans hempty.2
  · have hempty : (feed.lane.connections k).slot = false := Bool.eq_false_iff.mpr hfull
    have hlast : ((feed.pumpStep k died criticalEvents).1.lane.connections k).pump.last =
        (feed.lane.connections k).pump.last := by
      rw [hconn]
      exact last_of_empty feed.lane k _ hempty
    refine h.extend hsound hfresh (hstates ▸ List.prefix_rfl)
      (fun m v hm => absurd hlast (hrecorded _ hm))
      (fun pump hm => ?_) hterminal (fun hpc => .inl ?_) (fun hopen => ?_)
    · exact absurd (hrecorded _ hm).2.1 hfull
    · exact (hplaces hpc).resolve_right fun hslot => hfull hslot.1
    · rcases hopen with hnone | hslot
      · -- a connection that is not yet installed is not pumped
        rw [hconn] at hnone
        have hbefore := hnone
        rw [(ConnectionLane.installer_pump _).1] at hbefore
        obtain ⟨hpump, -, hpc⟩ := h.fresh.unpumped k hbefore
        obtain ⟨a, ha⟩ := h.opened (.inl hbefore)
        have hexits : feed.pumpStep k died criticalEvents =
          ({ feed with readDrops := none }, []) := by
          unfold pumpStep
          rw [if_neg hblocked]
          have hstays : feed.lane.pumpStep k (feed.answer died criticalEvents) =
            (feed.lane, []) := by
            unfold ConnectionLane.pumpStep
            rw [hpc]
          dsimp only
          rw [hstays]
          unfold published waited emptied Feed.terminal receives
          rw [hpc, hempty]
          simp
        rw [hexits, List.append_nil]
        refine ⟨a, ha.channel, ⟨ha.ready.pending, nofun, ha.ready.core, ha.ready.newest⟩,
          ha.untaken, ha.le, ?_⟩
        intro past since heq hcalled hidle
        obtain ⟨hitems, hshown⟩ := ha.quiet past since heq hcalled hidle
        refine ⟨hitems, hshown.imp_right fun ⟨hquiet, hplace⟩ => ⟨hquiet, ?_⟩⟩
        rcases hplace with ⟨hat, -⟩ | hat <;> cases hpc.symm.trans hat
      · exact absurd (hfills hslot) hfull

/-- **Every step keeps what holds along a run.** -/
theorem converging_step {history : List FeedTrace} (h : Converging k feed history)
    (action : Action) :
    Converging k (feed.step k action).1 (history ++ (feed.step k action).2) := by
  rcases step_cases k feed action with ⟨other, hother, heq⟩ | hcalls | ⟨died, criticalEvents, heq⟩
  · rw [heq]
    exact h.lane hother
  · exact h.calls hcalls (states_le k feed action)
  · rw [heq]
    exact h.pump died criticalEvents

theorem converging_new (k capacity : ℕ) : Converging k (new capacity) [] := by
  refine ⟨ConnectionLane.sound_new, ConnectionLane.fresh_new, nofun, .nil,
    fun _ => ⟨0, Channel.inv_new mapVpnState,
    ⟨nofun, nofun, nofun, nofun⟩, nofun, nofun, fun past since heq =>
    ?_⟩, fun past since pump heq => ?_, nofun, ?_⟩
  · exact absurd heq (by simp)
  · exact absurd heq (by simp)
  · rintro (h | h) <;> cases h

/-! ## Runs -/

/-- A run of the lane with the feed of connection `k`. -/
def run (k capacity : ℕ) (actions : List Action) : Feed × List FeedTrace :=
  Machine.run (step k) (new capacity) actions

theorem converging_run (k capacity : ℕ) (actions : List Action) :
    Converging k (run k capacity actions).1 (run k capacity actions).2 := by
  have := Machine.run_inv (Converging k) (fun _ _ action h => converging_step h action)
    (new capacity) []
    (converging_new k capacity) actions
  rwa [List.nil_append] at this

/-- **Pump ordering and convergence.** In any interleaving of the engine's callbacks with the pump
of connection `k` and the rest of the lane, over a queue of any capacity: each state the pump
publishes is one that was stored, as the core reads it, and none is older than one before; once the
slot is taken no state of the engine is published, and the terminal state only by the pump that took
it; and after a wait that found the queue empty and the zero-time probe of its quiet cadence, with
no callback since, the core reads the newest state as long as the slot is full. -/
theorem pump_converges (k capacity : ℕ) (actions : List Action) :
    let feed := (run k capacity actions).1
    let history := (run k capacity actions).2
    ((history.filterMap published?).map Prod.fst).Pairwise (· ≤ ·) ∧
      (∀ m v, .published m v ∈ history → ∃ s, 0 < m ∧ feed.states[m - 1]? = some s ∧
       v = mapVpnState s) ∧
      (∀ (past since : List FeedTrace) (pump : Bool), history = past ++ .taken pump :: since →
        (∀ m v, .published m v ∉ since) ∧ (.terminal ∈ history → pump = true)) ∧
      (.terminal ∈ history → .taken true ∈ history) ∧
      ∀ past mid since : List FeedTrace, history = past ++ .timedOut :: (mid ++ .quiet :: since) →
        .called ∉ mid →
        .called ∉ since → feed.callback = .idle → (feed.lane.connections k).slot = true →
        ∀ s, feed.states.getLast? = some s → feed.lane.vpnState = mapVpnState s := by
  intro feed history
  have h : Converging k feed history := converging_run k capacity actions
  refine ⟨h.sorted, fun m v hm => ?_, fun past since pump heq =>
    ⟨(h.closed past since pump heq).1, fun hterm => ?_⟩,
    h.terminal, fun past mid since heq hmid hsince hidle hfull s hs => ?_⟩
  · have hvalue := h.named m v hm
    cases m with
    | zero => cases hvalue
    | succ j =>
      obtain ⟨s, hs, hv⟩ := Option.map_eq_some_iff.mp hvalue
      exact ⟨s, Nat.succ_pos j, hs, hv.symm⟩
  · -- the slot is taken once
    obtain ⟨past', since', htaken⟩ := List.append_of_mem (h.terminal hterm)
    cases pump with
    | true => rfl
    | false =>
      rcases Machine.append_eq_append_cons (htaken.symm.trans heq) with
        ⟨mid, hpast, -⟩ | ⟨mid, hlater, -⟩
      · have hsince : since = mid ++ .taken true :: since' := by
          rw [heq, hpast, List.append_assoc] at htaken
          exact (List.cons.inj (List.append_cancel_left htaken)).2
        refine absurd ?_ ((h.closed past since false heq).2 true)
        rw [hsince]
        exact List.mem_append_right _ List.mem_cons_self
      · have hmem : FeedTrace.taken false ∈ FeedTrace.taken true :: since' := by
          rw [hlater]
          exact List.mem_append_right _ List.mem_cons_self
        refine absurd ?_ ((h.closed past' since' true htaken).2 false)
        exact (List.mem_cons.mp hmem).resolve_left (by simp)
  · obtain ⟨a, ha⟩ := h.opened (.inr hfull)
    have hcalled : FeedTrace.called ∉ mid ++ .quiet :: since := by
      simp [hmid, hsince]
    obtain ⟨-, hshown⟩ := ha.quiet past _ heq hcalled hidle
    have hall := hshown.resolve_right fun h => h.1 (List.mem_append_right _ List.mem_cons_self)
    have hlast : (feed.lane.connections k).pump.last = some (mapVpnState s) := by
      have hvalue := ha.channel.shown
      rw [hall] at hvalue
      exact hvalue.trans ((valueAt_length mapVpnState feed.states).trans (by rw [hs]; rfl))
    exact ha.ready.core hfull _ hlast

/-- A connection whose engine dies: its pump takes the slot, disconnects it and publishes the
terminal state. -/
def engineDies : List Action :=
  [.lane (.call 0 (.connect 501)), .lane (.advance 0 (.ok ())), .lane (.advance 0 (.ok ())),
   .lane (.advance 0 (.ok ())), .lane (.advance 0 (.ok ())), .pump true [], .pump true [],
   .pump true [], .pump true []]

/-- What is published after the slot is taken. -/
theorem terminal_after_taken :
    ¬ ∀ (k capacity : ℕ) (actions : List Action) (past since : List FeedTrace) (pump : Bool),
      (run k capacity actions).2 = past ++ .taken pump :: since →
        (∀ m v, .published m v ∉ since) ∧ .terminal ∉ since := by
  intro h
  have htrace : (run 0 1 engineDies).2 = [] ++ .taken true :: [.terminal] := rfl
  exact (h 0 1 engineDies [] [.terminal] true htrace).2 (List.mem_singleton_self _)

end Feed

end ProtonWire
