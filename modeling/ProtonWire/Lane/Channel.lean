import ProtonWire.Lane.Feed
import ProtonWire.Lane.Phase
import ProtonWire.Lib.CatchUp

/-!
# The feed as a lossy queue

* `Feed.channel`: a feed and its connection's pump as a queue whose consumer catches up;
* `Feed.Ready`: what holds of a feed beside its numbers;
* **`Feed.pump_step`**: over a full slot a step of the pump is one of that consumer, or claims the
  connection.
-/

namespace ProtonWire

open CatchUp

def EngineEvent.state? : EngineEvent → Option EngineConnectionState
  | .state s => some s
  | _ => none

/-- The event in the hand of a pump. -/
def Connection.inHand (conn : Connection) : Option EngineEvent :=
  match conn.pc with
  | .reconcileFirst event | .process event => some event
  | _ => conn.pump.pending

def PumpPc.claims : PumpPc → Bool
  | claim => true
  | _ => false

def PumpPc.probes : PumpPc → Bool
  | probe => true
  | _ => false

def FeedCallback.state? : FeedCallback → Option EngineConnectionState
  | send event | full event => event.state?
  | idle => none

namespace Feed

/-- The feed and a connection's pump as a lossy queue whose consumer catches up. A pump that is
about to claim its connection shows nothing any more. -/
def channel (feed : Feed) (conn : Connection) : Channel EngineConnectionState VpnState where
  states := feed.states
  items := conn.inHand.toList.map (fun event => (feed.hand, event.state?)) ++
    feed.queue.map fun item => (item.1, item.2.state?)
  inFlight := feed.callback.state?.isSome
  drops := feed.droppedStates
  watermark := conn.pump.droppedWatermark
  armed := conn.pump.backlog || conn.pc.claims
  settled := conn.pc.probes
  shown := conn.pump.last

/-! ## The pump's functions -/

/-- A pump publishes what it does not show. -/
theorem publish_spec (pump : Pump) (state : EngineConnectionState) :
    (pump.publish state).1 = { pump with last := some (mapVpnState state) } ∧
      (some (mapVpnState state) = pump.last ∧ (pump.publish state).2 = none ∨
        ∃ v, some (mapVpnState state) = some v ∧ (pump.publish state).2 = some v) := by
  unfold Pump.publish
  by_cases h : pump.last = some (mapVpnState state)
  · rw [if_neg (not_not.mpr h), ← h]
    exact ⟨rfl, .inl ⟨rfl, rfl⟩⟩
  · rw [if_pos h]
    exact ⟨rfl, .inr ⟨_, rfl, rfl⟩⟩

theorem reconcileDrops_spec (pump : Pump) (answer : EngineAnswer)
    (c : Channel EngineConnectionState VpnState)
    (hfatal : .certificateFatal ∉ answer.criticalEvents)
    (hwatermark : c.watermark = pump.droppedWatermark)
    (harmed : c.armed = pump.backlog) (hshown : c.shown = pump.last)
    (hlatest : c.states.getLast? = answer.latestState) :
    (reconcileDrops pump answer).1 = false ∧ (reconcileDrops pump answer).2.1.pending =
    pump.pending ∧
      (Channel.catchUp mapVpnState (c.observe answer.droppedStates)) =
        { c with
          watermark := (reconcileDrops pump answer).2.1.droppedWatermark
          armed := (reconcileDrops pump answer).2.1.backlog
          shown := (reconcileDrops pump answer).2.1.last } ∧
      ((reconcileDrops pump answer).2.1.last = pump.last ∧ (reconcileDrops pump answer).2.2 = none ∨
        ∃ v, (reconcileDrops pump answer).2.1.last = some v ∧
          (reconcileDrops pump answer).2.2 = some v) := by
  obtain ⟨states, items, inFlight, drops, watermark, armed, settled, shown⟩ := c
  cases hwatermark
  cases harmed
  cases hshown
  -- the counter first
  have hobserve : ∀ pump' : Pump, pump' = pump.observeDrops answer.droppedStates →
    pump'.last = pump.last ∧
      pump'.pending = pump.pending ∧ Channel.observe
        (⟨states, items, inFlight, drops, pump.droppedWatermark,
        pump.backlog, settled, pump.last⟩ :
        Channel EngineConnectionState VpnState) answer.droppedStates =
        ⟨states, items, inFlight, drops, pump'.droppedWatermark, pump'.backlog, settled,
         pump'.last⟩ := by
    rintro pump' rfl
    unfold Pump.observeDrops Channel.observe
    dsimp only
    split_ifs <;> exact ⟨rfl, rfl, rfl⟩
  obtain ⟨hlast, hpending, heq⟩ := hobserve _ rfl
  rw [heq]
  unfold reconcileDrops Channel.catchUp
  rw [if_neg hfatal]
  dsimp only at hlatest ⊢
  by_cases hbacklog : (pump.observeDrops answer.droppedStates).backlog = false
  · simp [hlast, hpending, hbacklog]
  · -- then the latest state
    rw [if_neg hbacklog, if_pos (by simpa using hbacklog), hlatest]
    cases answer.latestState with
    | none => simp [hlast, hpending]
    | some state =>
      obtain ⟨hpump, hpublished⟩ := publish_spec (pump.observeDrops answer.droppedStates) state
      dsimp only
      rw [hpump]
      exact ⟨rfl, hpending, rfl, hlast ▸ hpublished⟩

/-! ## The pump -/

/-- What a trace records as published. -/
def published? : FeedTrace → Option (ℕ × VpnState)
  | .published index state => some (index, state)
  | _ => none

/-- What a step published. -/
def label (trace : List FeedTrace) : Option (ℕ × VpnState) := (trace.filterMap published?).head?

variable {feed : Feed} {k : ℕ}

theorem filterMap_rest (feed : Feed) (before after : Connection) (died pump : Bool) :
    (feed.waited before died ++ emptied before after pump ++ terminal before).filterMap
    published? = [] := by
  rw [List.filterMap_append, List.filterMap_append]
  unfold waited emptied terminal
  split_ifs <;> (repeat' split) <;> rfl

theorem label_pump (feed : Feed) (before after : Connection) (vpn : VpnState) (died pump : Bool) :
    label (feed.published before after vpn ++ feed.waited before died ++
      emptied before after pump ++ terminal before) =
      label (feed.published before after vpn) := by
  unfold label
  rw [List.append_assoc, List.append_assoc, List.filterMap_append, ← List.append_assoc,
    filterMap_rest, List.append_nil]

/-- The number of what a step of the pump publishes. -/
def index (feed : Feed) (conn : Connection) : ℕ :=
  match conn.pc with
  | .process _ => feed.hand
  | _ => feed.states.length

theorem label_published {before after : Connection} {vpn : VpnState}
    (hvpn : after.pump.last ≠ before.pump.last → after.pump.last = some vpn) :
    label (feed.published before after vpn) =
      Channel.showing before.pump.last after.pump.last (feed.index before) := by
  unfold published Channel.showing
  split_ifs with hsame
  · rfl
  · rw [hvpn hsame]
    unfold index
    cases before.pc <;> rfl

/-- What holds of the feed beside its numbers. -/
structure Ready (k : ℕ) (feed : Feed) : Prop where
  pending : (feed.lane.connections k).pump.pending ≠ none → (feed.lane.connections k).pc = .receive
  reads : ∀ d, feed.readDrops = some d → d ≤ feed.droppedStates
  core : (feed.lane.connections k).slot = true → ∀ v, (feed.lane.connections k).pump.last = some v →
    feed.lane.vpnState = v
  newest : ∀ s, feed.callback.state? = some s → feed.states.getLast? = some s

/-- What a step of the pump leaves: the connection in its slot, a step of the lossy queue, and the
rest of the invariant. -/
structure Pumps (k : ℕ) (feed : Feed) (r : Feed × List FeedTrace) : Prop where
  slot : (r.1.lane.connections k).slot = true
  channel : Channel.Consume mapVpnState (feed.channel (feed.lane.connections k))
    (r.1.channel (r.1.lane.connections k)) (label r.2)
  ready : Ready k r.1

/-- A step of the pump that changes its place and its locals, and sets the core to what it shows. -/
theorem pumps_of {conn : Connection} {lane : ConnectionLane} {died : Bool}
    {criticalEvents : List EngineEvent} (hready : Ready k feed) (hslot : conn.slot = true)
    (henabled : ¬ ((feed.lane.connections k).pc.reconciles = true ∧ feed.readDrops = none))
    (hlane : (feed.lane.pumpStep k (feed.answer died criticalEvents)).1 = lane)
    (hconn : lane.connections k = conn) (hpending : conn.pump.pending ≠ none → conn.pc = .receive)
    (hvpn : conn.pump.last = (feed.lane.connections k).pump.last ∧
     lane.vpnState = feed.lane.vpnState ∨
      conn.pump.last = some lane.vpnState)
    (hfull : (feed.lane.connections k).slot = true)
    (hchannel : Channel.Consume mapVpnState (feed.channel (feed.lane.connections k))
      ({ feed with
          queue := if receives (feed.lane.connections k) then feed.queue.tail else feed.queue
          hand := if receives (feed.lane.connections k) then
            (feed.queue.head?.map Prod.fst).getD feed.hand else feed.hand
        }.channel conn)
      (Channel.showing (feed.lane.connections k).pump.last conn.pump.last
       (feed.index (feed.lane.connections k)))) :
    Pumps k feed (feed.pumpStep k died criticalEvents) := by
  unfold pumpStep
  rw [if_neg henabled]
  dsimp only
  rw [hlane, hconn]
  have hlast : conn.pump.last ≠ (feed.lane.connections k).pump.last →
    conn.pump.last = some lane.vpnState := fun hne =>
    hvpn.resolve_left fun hsame => hne hsame.1
  refine ⟨(congrArg Connection.slot hconn).trans hslot, ?_, ?_, ?_, ?_, ?_⟩
  · rw [label_pump, label_published hlast]
    dsimp only
    rw [hconn]
    exact hchannel
  · dsimp only
    rw [hconn]
    exact hpending
  · exact nofun
  · dsimp only
    rw [hconn]
    intro _ v hv
    rcases hvpn with ⟨hsame, hcore⟩ | hshown
    · rw [hcore]
      exact hready.core hfull v (hsame.symm.trans hv)
    · exact Option.some.inj (hshown.symm.trans hv)
  · exact hready.newest

theorem connections_pumpGoto (w : ConnectionLane) (k : ℕ) (pc : PumpPc) :
    (w.pumpGoto k pc).connections k = { w.connections k with pc := pc } :=
    Function.update_self _ _ _

theorem connections_pumpPublish (w : ConnectionLane) (k : ℕ) (pc : PumpPc)
    (published : Pump × Option VpnState) :
    (w.pumpPublish k pc published).connections k =
    { w.connections k with pc := pc, pump := published.1 } :=
  Function.update_self _ _ _

theorem connections_setConnection (w : ConnectionLane) (k : ℕ) (conn : Connection) :
    (w.setConnection k conn).connections k = conn := Function.update_self _ _ _

theorem reconciles_spec (feed : Feed) {conn : Connection} (h : conn.pc.reconciles = true) :
    receives conn = false ∧ conn.pc.claims = false ∧ feed.index conn = feed.states.length := by
  obtain ⟨installer, slot, live, pc, pump⟩ := conn
  cases pc with
  | reconcileFirst | reconcileAfter | reconcileQuiet => exact ⟨Bool.and_false slot, rfl, rfl⟩
  | _ => cases h

/-- `reconcile_drops` under a full slot: the drops arm the pump, or it is about to claim its
connection. -/
theorem pump_reconciles {next : PumpPc} (hready : Ready k feed)
    (hfull : (feed.lane.connections k).slot = true)
    (hpc : (feed.lane.connections k).pc.reconciles = true) (hread : feed.readDrops ≠ none)
    (died : Bool) (criticalEvents : List EngineEvent)
    (hstep : ∀ answer, feed.lane.pumpStep k answer = (feed.lane.pumpReconcile k answer next, []))
    (hhand : ∀ pump : Pump, pump.pending = none →
      ({ feed.lane.connections k with pc := next, pump := pump } : Connection).inHand =
      (feed.lane.connections k).inHand)
    (hnext : next.claims = false) : Pumps k feed (feed.pumpStep k died criticalEvents) := by
  obtain ⟨d, hd⟩ := Option.ne_none_iff_exists'.mp hread
  have hpending : (feed.lane.connections k).pump.pending = none := by
    by_contra hsome
    rw [hready.pending hsome] at hpc
    cases hpc
  obtain ⟨hreceives, hclaims, hindex⟩ := reconciles_spec feed hpc
  have hlane : (feed.lane.pumpStep k (feed.answer died criticalEvents)).1 =
      feed.lane.pumpPublish k
        (if (reconcileDrops (feed.lane.connections k).pump (feed.answer died criticalEvents)).1 then
         .claim else next)
        (reconcileDrops (feed.lane.connections k).pump (feed.answer died criticalEvents)).2 := by
    rw [hstep]
    unfold ConnectionLane.pumpReconcile
    rw [if_pos hfull]
  by_cases hfatal : .certificateFatal ∈ criticalEvents
  · -- a fatal event
    have hfirst : reconcileDrops (feed.lane.connections k).pump (feed.answer died criticalEvents) =
        (true, (feed.lane.connections k).pump, none) := if_pos hfatal
    rw [hfirst, if_pos rfl] at hlane
    refine pumps_of hready ?_ (fun h => hread h.2) hlane (connections_pumpPublish _ _ _ _)
      (fun h => absurd hpending h) (.inl ⟨rfl, rfl⟩) hfull ?_
    · exact hfull
    · have hnone : ({ feed.lane.connections k with pc := PumpPc.claim } : Connection).inHand =
        none := hpending
      unfold channel Channel.showing
      rw [hreceives, if_pos rfl]
      simp only [Bool.false_eq_true, if_false]
      rw [hnone, PumpPc.claims, Bool.or_true]
      exact .abandon (List.suffix_append _ _)
  · obtain ⟨hgoes, hkept, hcatch, hpublished⟩ := reconcileDrops_spec (feed.lane.connections k).pump
      (feed.answer died criticalEvents) (feed.channel (feed.lane.connections k)) hfatal rfl
      (by unfold channel; rw [hclaims, Bool.or_false]) rfl rfl
    rw [hgoes, if_neg Bool.false_ne_true] at hlane
    refine pumps_of hready ?_ (fun h => hread h.2) hlane (connections_pumpPublish _ _ _ _)
      (fun h => absurd (hkept.trans hpending) h) ?_ hfull ?_
    · exact hfull
    · rcases hpublished with ⟨hlast, hnone⟩ | ⟨v, hlast, hsome⟩
      · exact .inl ⟨hlast, congrArg (Option.getD · feed.lane.vpnState) hnone⟩
      · exact .inr
          (hlast.trans (congrArg some (congrArg (Option.getD · feed.lane.vpnState) hsome).symm))
    · have hseen : d ≤ (feed.channel (feed.lane.connections k)).drops := hready.reads d hd
      have hcounter : (feed.answer died criticalEvents).droppedStates = d := by
        unfold answer
        rw [hd]
        rfl
      rw [hcounter] at hcatch
      have hlook := Channel.Consume.reconcile (f := mapVpnState) d hseen next.probes
      rw [hcatch] at hlook
      have hitems := hhand _ (hkept.trans hpending)
      rw [hreceives, hindex]
      unfold channel at hlook ⊢
      simp only [Bool.false_eq_true, if_false]
      rw [hitems, hnext, Bool.or_false]
      exact hlook

theorem pump_processes {event : EngineEvent} (hready : Ready k feed)
    (hfull : (feed.lane.connections k).slot = true)
    (hpc : (feed.lane.connections k).pc = .process event) (died : Bool)
    (criticalEvents : List EngineEvent) :
    Pumps k feed (feed.pumpStep k died criticalEvents) := by
  have hpending : (feed.lane.connections k).pump.pending = none := by
    by_contra hsome
    cases hpc.symm.trans (hready.pending hsome)
  have henabled : ¬ ((feed.lane.connections k).pc.reconciles = true ∧ feed.readDrops = none) := by
    rw [hpc]
    exact fun h => nomatch h.1
  have hreceives : receives (feed.lane.connections k) = false := by
    unfold receives
    rw [hpc]
    exact Bool.and_false _
  have hindex : feed.index (feed.lane.connections k) = feed.hand := by
    unfold index
    rw [hpc]
  have hlane : (feed.lane.pumpStep k (feed.answer died criticalEvents)).1 =
    feed.lane.pumpProcess k event := by
    unfold ConnectionLane.pumpStep
    rw [hpc]
  have hhand : (feed.lane.connections k).inHand = some event := by
    unfold Connection.inHand
    rw [hpc]
  -- the event leaves the hand
  have hitems : (feed.channel (feed.lane.connections k)).items =
      (feed.hand, event.state?) :: feed.queue.map fun item => (item.1, item.2.state?) := by
    unfold channel
    rw [hhand]
    rfl
  have hclaims : (feed.lane.connections k).pc.claims = false := by rw [hpc]; rfl
  have hshowing : Channel.showing (feed.lane.connections k).pump.last
    (feed.lane.connections k).pump.last
      (feed.index (feed.lane.connections k)) = none := if_pos rfl
  have hskips : ∀ pc : PumpPc, feed.lane.pumpProcess k event = feed.lane.pumpGoto k pc →
      ({ feed.lane.connections k with pc := pc } : Connection).inHand = none → pc.claims = false →
      pc.probes = false →
      (event.state? = none ∨ (feed.lane.connections k).pump.backlog = true) →
      Pumps k feed (feed.pumpStep k died criticalEvents) := by
    intro pc hgoto hnone hclaims' hprobes hstale
    refine pumps_of hready ?_ henabled (hlane.trans hgoto) (connections_pumpGoto _ _ _)
      (fun h => absurd hpending h)
      (.inl ⟨rfl, rfl⟩) hfull ?_
    · exact hfull
    · have hskip := Channel.Consume.skip (f := mapVpnState) hitems (hstale.imp id fun hbacklog => by
        unfold channel
        rw [hbacklog]
        rfl)
      rw [hshowing, hreceives]
      simp only [channel, hclaims, hclaims', hnone, hprobes, Bool.or_false, Bool.false_eq_true,
        if_false] at hskip ⊢
      exact hskip
  have hreceive : ({ feed.lane.connections k with pc := PumpPc.receive } : Connection).inHand =
    none := hpending
  have hafter : ({ feed.lane.connections k with pc := PumpPc.reconcileAfter } : Connection).inHand =
    none := hpending
  cases event with
  | state s =>
    by_cases hbacklog : (feed.lane.connections k).pump.backlog = true
    · exact hskips .receive (if_pos hbacklog) hreceive rfl rfl (.inr hbacklog)
    · have hgoto : feed.lane.pumpProcess k (.state s) =
          feed.lane.pumpPublish k .reconcileAfter ((feed.lane.connections k).pump.publish s) := by
        unfold ConnectionLane.pumpProcess
        dsimp only
        rw [if_neg hbacklog, if_neg (by rw [hfull]; nofun)]
      obtain ⟨hpump, hpublished⟩ := publish_spec (feed.lane.connections k).pump s
      have hlast : ((feed.lane.connections k).pump.publish s).1.last = some (mapVpnState s) := by
        rw [hpump]
      refine pumps_of hready ?_ henabled (hlane.trans hgoto) (connections_pumpPublish _ _ _ _)
        (fun h => absurd hpending ?_) ?_ hfull ?_
      · exact hfull
      · rw [hpump] at h
        exact h
      · rcases hpublished with ⟨hsame, hnone⟩ | ⟨v, hv, hsome⟩
        · exact .inl ⟨hlast.trans hsame, congrArg (Option.getD · feed.lane.vpnState) hnone⟩
        · refine .inr (hlast.trans (hv.trans (congrArg some ?_)))
          exact (congrArg (Option.getD · feed.lane.vpnState) hsome).symm
      · have hunarmed : (feed.channel (feed.lane.connections k)).armed = false := by
          unfold channel
          rw [hpc, Bool.eq_false_iff.mpr hbacklog]
          rfl
        have hdeliver := Channel.Consume.deliver (f := mapVpnState) hitems hunarmed
        have hafter' : ({ feed.lane.connections k with
            pc := PumpPc.reconcileAfter, pump := ((feed.lane.connections k).pump.publish s).1 } :
              Connection).inHand =
              none := by
          rw [hpump]
          exact hpending
        rw [hreceives, hindex, hlast]
        rw [hpump] at hafter' ⊢
        have hgoes : PumpPc.reconcileAfter.claims = false := rfl
        simp only [channel, hclaims, hgoes, hafter', Bool.or_false, Bool.false_eq_true, if_false]
          at hdeliver ⊢
        exact hdeliver
  | certificateFatal =>
    refine pumps_of hready ?_ henabled (hlane.trans rfl) (connections_pumpGoto _ _ .claim)
      (fun h => absurd hpending h)
      (.inl ⟨rfl, rfl⟩) hfull ?_
    · exact hfull
    · have hsuffix : (feed.queue.map fun item => (item.1, item.2.state?)) <:+
          (feed.channel (feed.lane.connections k)).items := hitems ▸ List.suffix_cons _ _
      have hclaim : ({ feed.lane.connections k with pc := PumpPc.claim } : Connection).inHand =
        none := hpending
      have habandon := Channel.Consume.abandon (f := mapVpnState) hsuffix
      rw [hshowing, hreceives]
      simp only [channel, hclaim, PumpPc.claims, Bool.or_true, Bool.false_eq_true, if_false]
        at habandon ⊢
      exact habandon
  | _ => exact hskips .reconcileAfter rfl hafter rfl rfl (.inl rfl)

theorem channel_received (conn conn' : Connection) {event : EngineEvent} {i : ℕ}
    {rest : List (ℕ × EngineEvent)}
    (hqueue : feed.queue = (i, event) :: rest) (hbefore : conn.inHand = none)
    (hafter : conn'.inHand = some event)
    (hpump : conn'.pump.droppedWatermark = conn.pump.droppedWatermark ∧
     conn'.pump.backlog = conn.pump.backlog ∧
      conn'.pump.last = conn.pump.last) (hclaims : conn'.pc.claims = conn.pc.claims) :
    ({ feed with
       queue := feed.queue.tail
       hand := (feed.queue.head?.map Prod.fst).getD feed.hand } :
      Feed).channel
      conn' = { feed.channel conn with settled := conn'.pc.probes } := by
  unfold channel
  rw [hqueue, hbefore, hafter, hpump.1, hpump.2.1, hpump.2.2, hclaims]
  rfl

theorem pump_receives (hready : Ready k feed) (hfull : (feed.lane.connections k).slot = true)
    (hpc : (feed.lane.connections k).pc = .receive) (died : Bool)
    (criticalEvents : List EngineEvent) :
    Pumps k feed (feed.pumpStep k died criticalEvents) := by
  have henabled : ¬ ((feed.lane.connections k).pc.reconciles = true ∧ feed.readDrops = none) := by
    rw [hpc]
    exact fun h => by cases h.1
  have hlane : (feed.lane.pumpStep k (feed.answer died criticalEvents)).1 =
      feed.lane.pumpReceive k (feed.answer died criticalEvents).received := by
    unfold ConnectionLane.pumpStep
    rw [hpc]
  have hinHand : (feed.lane.connections k).inHand = (feed.lane.connections k).pump.pending := by
    unfold Connection.inHand
    rw [hpc]
  have hshowing : Channel.showing (feed.lane.connections k).pump.last
    (feed.lane.connections k).pump.last
      (feed.index (feed.lane.connections k)) = none := if_pos rfl
  cases hpending : (feed.lane.connections k).pump.pending with
  | some event =>
    have hreceives : receives (feed.lane.connections k) = false := by
      unfold receives
      rw [hpc, hpending]
      exact Bool.and_false _
    have hgoto : feed.lane.pumpReceive k (feed.answer died criticalEvents).received =
        feed.lane.setConnection k { feed.lane.connections k with
          pc := .reconcileFirst event, pump :=
            { (feed.lane.connections k).pump with pending := none } } := by
      unfold ConnectionLane.pumpReceive
      rw [hpending]
    refine pumps_of hready ?_ henabled (hlane.trans hgoto) (connections_setConnection _ _ _)
      (fun h => absurd rfl h)
      (.inl ⟨rfl, rfl⟩) hfull ?_
    · exact hfull
    · rw [hpending] at hinHand
      rw [hshowing, hreceives]
      simp only [channel, hinHand, hpc, Bool.false_eq_true, if_false]
      exact .stay
  | none =>
    have hreceives : receives (feed.lane.connections k) = true := by
      unfold receives
      rw [hpc, hpending, hfull]
      rfl
    rw [hpending] at hinHand
    have hgoes : ∀ pc : PumpPc, feed.lane.pumpReceive k (feed.answer died criticalEvents).received =
        feed.lane.pumpGoto k pc →
        Channel.Consume mapVpnState (feed.channel (feed.lane.connections k))
          ({ feed with
             queue := feed.queue.tail
             hand := (feed.queue.head?.map Prod.fst).getD feed.hand }.channel
            { feed.lane.connections k with pc := pc }) none →
            Pumps k feed (feed.pumpStep k died criticalEvents) := by
      intro pc hgoto hchannel
      refine pumps_of hready ?_ henabled (hlane.trans hgoto) (connections_pumpGoto _ _ _)
        (fun h => absurd hpending h)
        (.inl ⟨rfl, rfl⟩) hfull ?_
      · exact hfull
      · rw [hshowing, hreceives, if_pos rfl, if_pos rfl]
        exact hchannel
    have hgot : ∀ event, feed.lane.pumpReceive k (.event event) = feed.lane.pumpGoto k
      (.reconcileFirst event) := by
      intro event
      unfold ConnectionLane.pumpReceive
      rw [hpending]
      exact if_pos hfull
    have htimedOut : feed.lane.pumpReceive k .timeout = feed.lane.pumpGoto k .reconcileQuiet := by
      unfold ConnectionLane.pumpReceive
      rw [hpending]
      exact if_pos hfull
    have hdied : feed.lane.pumpReceive k .disconnected = feed.lane.pumpGoto k .claim := by
      unfold ConnectionLane.pumpReceive
      rw [hpending]
      exact if_pos hfull
    cases hqueue : feed.queue with
    | cons item rest =>
      obtain ⟨i, event⟩ := item
      refine hgoes (.reconcileFirst event) ?_ ?_
      · have hanswer : (feed.answer died criticalEvents).received = .event event := by
          unfold answer
          rw [hqueue]
        rw [hanswer, hgot]
      · rw [channel_received (feed.lane.connections k)
          { feed.lane.connections k with pc := .reconcileFirst event }
          hqueue hinHand rfl ⟨rfl, rfl, rfl⟩ (by rw [hpc]; rfl)]
        exact .unsettle
    | nil =>
      have hclaim : ({ feed.lane.connections k with pc := PumpPc.claim } : Connection).inHand =
        none := hpending
      have hquiet : ({ feed.lane.connections k with pc := PumpPc.reconcileQuiet } :
        Connection).inHand = none := hpending
      cases died with
      | true =>
        refine hgoes .claim ?_ ?_
        · have hanswer : (feed.answer true criticalEvents).received = .disconnected := by
            unfold answer
            rw [hqueue]
            rfl
          rw [hanswer, hdied]
        · have habandon := Channel.Consume.abandon (f := mapVpnState)
            (c := feed.channel (feed.lane.connections k))
            List.suffix_rfl
          simp only [channel, hinHand, hclaim, hqueue, PumpPc.claims, Bool.or_true] at habandon ⊢
          exact habandon
      | false =>
        refine hgoes .reconcileQuiet ?_ ?_
        · have hanswer : (feed.answer false criticalEvents).received = .timeout := by
            unfold answer
            rw [hqueue]
            rfl
          rw [hanswer, htimedOut]
        · simp only [channel, hinHand, hquiet, hqueue, hpc]
          exact .stay

theorem pump_probes (hready : Ready k feed) (hfull : (feed.lane.connections k).slot = true)
    (hpc : (feed.lane.connections k).pc = .probe) (died : Bool)
    (criticalEvents : List EngineEvent) :
    Pumps k feed (feed.pumpStep k died criticalEvents) := by
  have hpending : (feed.lane.connections k).pump.pending = none := by
    by_contra hsome
    cases hpc.symm.trans (hready.pending hsome)
  have henabled : ¬ ((feed.lane.connections k).pc.reconciles = true ∧ feed.readDrops = none) := by
    rw [hpc]
    exact fun h => by cases h.1
  have hlane : (feed.lane.pumpStep k (feed.answer died criticalEvents)).1 =
      feed.lane.pumpProbe k (feed.answer died criticalEvents).tryReceived := by
    unfold ConnectionLane.pumpStep
    rw [hpc]
  have hinHand : (feed.lane.connections k).inHand = none := by
    unfold Connection.inHand
    rw [hpc]
    exact hpending
  have hreceives : receives (feed.lane.connections k) = true := by
    unfold receives
    rw [hpc, hfull]
    rfl
  have hshowing : Channel.showing (feed.lane.connections k).pump.last
    (feed.lane.connections k).pump.last
      (feed.index (feed.lane.connections k)) = none := if_pos rfl
  have hgoes : ∀ pump : Pump, feed.lane.pumpProbe k (feed.answer died criticalEvents).tryReceived =
      feed.lane.setConnection k { feed.lane.connections k with pc := .receive, pump := pump } →
      pump.last = (feed.lane.connections k).pump.last →
      Channel.Consume mapVpnState (feed.channel (feed.lane.connections k))
        ({ feed with
           queue := feed.queue.tail
           hand := (feed.queue.head?.map Prod.fst).getD feed.hand }.channel
          { feed.lane.connections k with pc := .receive, pump := pump }) none →
      Pumps k feed (feed.pumpStep k died criticalEvents) := by
    intro pump hgoto hlast hchannel
    refine pumps_of hready ?_ henabled (hlane.trans hgoto) (connections_setConnection _ _ _)
      (fun _ => rfl)
      (.inl ⟨hlast, rfl⟩) hfull ?_
    · exact hfull
    · dsimp only
      rw [hlast, hshowing, hreceives, if_pos rfl, if_pos rfl]
      exact hchannel
  have hfound : ∀ event, feed.lane.pumpProbe k (.event event) = feed.lane.setConnection k
      { feed.lane.connections k with
        pc := .receive, pump := { (feed.lane.connections k).pump with pending := some event } } :=
    fun event => if_pos hfull
  have hempty : feed.lane.pumpProbe k .empty = feed.lane.setConnection k
    { feed.lane.connections k with
      pc := .receive
      pump := { (feed.lane.connections k).pump with backlog := false } } :=
        if_pos hfull
  have hdied : feed.lane.pumpProbe k .disconnected = feed.lane.pumpGoto k .receive := if_pos hfull
  cases hqueue : feed.queue with
  | cons item rest =>
    obtain ⟨i, event⟩ := item
    refine hgoes { (feed.lane.connections k).pump with pending := some event } ?_ rfl ?_
    · have hanswer : (feed.answer died criticalEvents).tryReceived = .event event := by
        unfold answer
        rw [hqueue]
      rw [hanswer, hfound]
    · rw [channel_received (feed.lane.connections k) { feed.lane.connections k with
        pc := .receive, pump := { (feed.lane.connections k).pump with pending := some event } }
        hqueue hinHand rfl ⟨rfl, rfl, rfl⟩ (by rw [hpc]; rfl)]
      exact .unsettle
  | nil =>
    cases died with
    | true =>
      refine hgoes (feed.lane.connections k).pump ?_ rfl ?_
      · have hanswer : (feed.answer true criticalEvents).tryReceived = .disconnected := by
          unfold answer
          rw [hqueue]
          rfl
        rw [hanswer, hdied]
        rfl
      · have hreceive : ({ feed.lane.connections k with pc := PumpPc.receive } :
          Connection).inHand = none := hpending
        have hunsettle := Channel.Consume.unsettle (f := mapVpnState)
          (c := feed.channel (feed.lane.connections k))
        simp only [channel, hinHand, hreceive, hqueue, hpc, PumpPc.claims, Bool.or_false]
          at hunsettle ⊢
        exact hunsettle
    | false =>
      refine hgoes { (feed.lane.connections k).pump with backlog := false } ?_ rfl ?_
      · have hanswer : (feed.answer false criticalEvents).tryReceived = .empty := by
          unfold answer
          rw [hqueue]
          rfl
        rw [hanswer, hempty]
      · have hreceive : ({ feed.lane.connections k with
            pc := PumpPc.receive, pump :=
              { (feed.lane.connections k).pump with backlog := false } } :
              Connection).inHand = none := hpending
        have hitems : (feed.channel (feed.lane.connections k)).items = [] := by
          unfold channel
          rw [hinHand, hqueue]
          rfl
        have hsettled : (feed.channel (feed.lane.connections k)).settled = true := by
          unfold channel
          rw [hpc]
          rfl
        have hdisarm := Channel.Consume.disarm (f := mapVpnState) hitems hsettled
        simp only [channel, hinHand, hreceive, hqueue, hpc, PumpPc.claims, Bool.or_false]
          at hdisarm ⊢
        exact hdisarm

/-- **A step of the pump over a full slot** is one of the lossy queue, or the claim of the
connection. -/
theorem pump_step (hready : Ready k feed) (hfull : (feed.lane.connections k).slot = true)
    (hloop : (feed.lane.connections k).pc.looping = true) (died : Bool)
    (criticalEvents : List EngineEvent) :
    (feed.lane.connections k).pc = .claim ∨ (feed.pumpStep k died criticalEvents = (feed, [])) ∨
      Pumps k feed (feed.pumpStep k died criticalEvents) := by
  have hreconciles : ∀ next : PumpPc, (feed.lane.connections k).pc.reconciles = true →
      (∀ answer, feed.lane.pumpStep k answer = (feed.lane.pumpReconcile k answer next, [])) →
      (∀ pump : Pump, pump.pending = none →
        ({ feed.lane.connections k with pc := next, pump := pump } : Connection).inHand =
          (feed.lane.connections k).inHand) → next.claims = false →
      (feed.pumpStep k died criticalEvents = (feed, [])) ∨
      Pumps k feed (feed.pumpStep k died criticalEvents) := by
    intro next hpc hstep hhand hnext
    by_cases hread : feed.readDrops = none
    · exact .inl (if_pos ⟨hpc, hread⟩)
    · exact .inr (pump_reconciles hready hfull hpc hread died criticalEvents hstep hhand hnext)
  have hnone : (feed.lane.connections k).pc ≠ .receive →
    (feed.lane.connections k).pump.pending = none := fun hne => by
    by_contra hsome
    exact hne (hready.pending hsome)
  cases hpc : (feed.lane.connections k).pc with
  | receive => exact .inr (.inr (pump_receives hready hfull hpc died criticalEvents))
  | process event => exact .inr (.inr (pump_processes hready hfull hpc died criticalEvents))
  | probe => exact .inr (.inr (pump_probes hready hfull hpc died criticalEvents))
  | claim => exact .inl rfl
  | reconcileFirst event =>
    refine .inr (hreconciles (.process event) (by rw [hpc]; rfl) (fun answer => ?_)
      (fun pump _ => ?_) rfl)
    · unfold ConnectionLane.pumpStep
      rw [hpc]
    · unfold Connection.inHand
      rw [hpc]
  | reconcileAfter =>
    refine .inr (hreconciles .receive (by rw [hpc]; rfl) (fun answer => ?_)
      (fun pump hpending => ?_) rfl)
    · unfold ConnectionLane.pumpStep
      rw [hpc]
    · unfold Connection.inHand
      rw [hpc]
      exact hpending.trans (hnone (by rw [hpc]; nofun)).symm
  | reconcileQuiet =>
    refine .inr (hreconciles .probe (by rw [hpc]; rfl) (fun answer => ?_)
      (fun pump hpending => ?_) rfl)
    · unfold ConnectionLane.pumpStep
      rw [hpc]
    · unfold Connection.inHand
      rw [hpc]
      exact hpending.trans (hnone (by rw [hpc]; nofun)).symm
  | disconnect | publish | retireLane | exited =>
    rw [hpc] at hloop
    cases hloop

end Feed

end ProtonWire
