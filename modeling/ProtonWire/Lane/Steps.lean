import ProtonWire.Lane.Phase

/-!
# One step of the lane

* `EntryCase`: what the first section of a call can do, with the phase it leaves;
* `pumpStep_case`: a step of a pump is one of those of `PumpCase`;
* `StepCase`, `step_case`: every step, with the phase it leaves;
* **`sound_step`**: every step keeps the invariant.
-/

namespace ProtonWire

/-- The call is past the store to `draining`. -/
def CallPc.drains : CallPc → Bool
  | drainLoop | clearDrain => true
  | retire .drain _ | publishDisconnecting .drain _ _ | tear .drain _ _ | join .drain _ => true
  | _ => false

/-- The user a call acts for. -/
def LaneCall.uid : LaneCall → Option ℕ
  | connect uid | disconnect uid => some uid
  | drain => none

namespace ConnectionLane

/-- A drain under way has set `draining`. -/
def Armed (w : ConnectionLane) : Prop := ∀ c, (w.callers c).drains = true → w.draining = true

/-- The invariant of every run. -/
structure Sound (w : ConnectionLane) : Prop where
  phase : ∃ p, w.Agrees p
  armed : w.Armed

section
variable {w : ConnectionLane} {p : Phase} {c k : ℕ}

/-! ## Entries -/

/-- What the first section of a call does, from one phase to the next. `waits` is a turn of drain's
loop. -/
inductive EntryCase (w : ConnectionLane) (c : ℕ) (call : LaneCall) :
    Phase → ConnectionLane × List LaneEvent → Phase → Prop where
  | refused {p : Phase} (error : LaneError) (uid : call.uid ≠ none) :
      EntryCase w c call p (w.ret c call (.error error)) p
  | waits {p : Phase} (drain : call = .drain) : EntryCase w c call p (w, []) p
  | takes (k : ℕ) (owner : call.uid = none ∨ w.state.owner = call.uid)
      (draining : call.uid = none ∨ w.draining = false) :
      EntryCase w c call (.up k) ({ w with state := call.window.laneState }.goto c (.retire call k),
        [.retired c call w.state.owner k]) (.busy c)
  | opens (uid : ℕ) (connect : call = .connect uid) (draining : w.draining = false) :
      EntryCase w c call .free
        ({ w with state := Window.reconnecting.laneState }.goto c (.recheck uid false),
         []) (.busy c)
  | empty (uid : call = .drain ∨ w.draining = false) :
    EntryCase w c call .free (w.ret c call (.ok ())) .free

theorem gateOwner_ok {current : Option ℕ} {requester : ℕ}
    (h : gateOwner current requester = .ok ()) :
    current = none ∨ current = some requester := by
  cases current with
  | none => exact Or.inl rfl
  | some owner =>
    unfold gateOwner at h
    dsimp only at h
    split_ifs at h with hne
    exact Or.inr (by rw [not_not.mp hne])

theorem Agrees.free_of_flags (h : w.Agrees p) (ha : w.Armed) (hdraining : w.draining = false)
    (hre : w.state.reconnecting = false) (hdis : w.state.disconnecting = false)
    (hactive : w.state.active = none) :
    p = .free := by
  refine h.free hactive ?_
  unfold drainWaits
  rw [hre, hdis, Bool.or_false, Bool.or_false, Bool.eq_false_iff]
  intro hdrain
  -- the window of a drain is that of a call past its store
  have hstate := h.state
  cases p with
  | free => rw [hstate] at hdrain; cases hdrain
  | up => rw [hstate] at hdrain; cases hdrain
  | busy c =>
    obtain ⟨win, hwin⟩ := Option.ne_none_iff_exists'.mp ((h.calls c).mpr rfl)
    rw [hstate, laneState_busy, hwin] at hdrain
    have harmed : (w.callers c).drains = true := by
      cases hpc : w.callers c with
      | retire call | publishDisconnecting call | tear call | join call =>
        rw [hpc] at hwin
        cases call with
        | drain => rfl
        | _ => cases hwin; cases hdrain
      | clearDrain => rfl
      | _ => rw [hpc] at hwin; cases hwin <;> cases hdrain
    rw [ha c harmed] at hdraining
    cases hdraining

theorem Agrees.state_up (h : w.Agrees (.up k)) :
    w.state = { active := some k, owner := (w.connections k).installer } := h.state

theorem connectEntry_case (h : w.Agrees p) (ha : w.Armed) (c uid : ℕ) :
    ∃ p', EntryCase w c (.connect uid) p (w.connectEntry c uid) p' := by
  unfold connectEntry
  split
  · exact ⟨p, .refused _ nofun⟩
  · next hgate =>
    split_ifs with hdraining hre hdis
    · exact ⟨p, .refused _ nofun⟩
    · exact ⟨p, .refused _ nofun⟩
    · exact ⟨p, .refused _ nofun⟩
    · rw [Bool.not_eq_true] at hdraining hre hdis
      dsimp only
      split
      · next k hactive =>
        obtain ⟨rfl, howner⟩ := h.of_active hactive
        have hinstalled := (h.held k rfl).2.2
        have hsome : w.state.owner = some uid := (gateOwner_ok hgate).resolve_left fun hnone =>
          hinstalled (howner.symm.trans hnone)
        have hstate : ({ w.state with reconnecting := true, active := none, owner := none } :
          LaneState) =
            (LaneCall.connect uid).window.laneState := by rw [h.state_up]; rfl
        rw [hstate]
        exact ⟨_, .takes k (Or.inr hsome) (Or.inr hdraining)⟩
      · next hactive =>
        obtain rfl := h.free_of_flags ha hdraining hre hdis hactive
        have hstate : ({ w.state with reconnecting := true, active := none, owner := none } :
          LaneState) =
            Window.reconnecting.laneState := by rw [h.state]; rfl
        rw [hstate]
        exact ⟨_, .opens uid rfl hdraining⟩

theorem disconnectEntry_case (h : w.Agrees p) (ha : w.Armed) (c uid : ℕ) :
    ∃ p', EntryCase w c (.disconnect uid) p (w.disconnectEntry c uid) p' := by
  unfold disconnectEntry
  split
  · exact ⟨p, .refused _ nofun⟩
  · next hadmitted =>
    unfold disconnectRefusal at hadmitted
    split_ifs at hadmitted with hdraining hre hdis
    rw [Bool.not_eq_true] at hdraining hre hdis
    split
    · exact ⟨p, .refused _ nofun⟩
    · next hgate =>
      split
      · next k hactive =>
        obtain ⟨rfl, howner⟩ := h.of_active hactive
        have hinstalled := (h.held k rfl).2.2
        have hsome : w.state.owner = some uid := (gateOwner_ok hgate).resolve_left fun hnone =>
          hinstalled (howner.symm.trans hnone)
        have hstate : ({ w.state with active := none, disconnecting := true, owner := none } :
          LaneState) =
            (LaneCall.disconnect uid).window.laneState := by rw [h.state_up]; rfl
        rw [hstate]
        exact ⟨_, .takes k (Or.inr hsome) (Or.inr hdraining)⟩
      · next hactive =>
        obtain rfl := h.free_of_flags ha hdraining hre hdis hactive
        have hstate : ({ w.state with owner := none } : LaneState) = w.state := by rw [h.state]; rfl
        rw [hstate]
        exact ⟨_, .empty (Or.inr hdraining)⟩

theorem drainTurn_case (h : w.Agrees p) (c : ℕ) :
    ∃ p', EntryCase w c .drain p (w.drainTurn c) p' := by
  unfold drainTurn
  split_ifs with hwaits
  · exact ⟨p, .waits rfl⟩
  · rw [Bool.not_eq_true] at hwaits
    split
    · next k hactive =>
      obtain ⟨rfl, -⟩ := h.of_active hactive
      have hstate : ({ w.state with active := none, drainInProgress := true, owner := none } :
        LaneState) =
          LaneCall.drain.window.laneState := by rw [h.state_up]; rfl
      rw [hstate]
      exact ⟨_, .takes k (Or.inl rfl) (Or.inl rfl)⟩
    · next hactive =>
      obtain rfl := h.free hactive hwaits
      have hstate : ({ w.state with owner := none } : LaneState) = w.state := by rw [h.state]; rfl
      rw [hstate]
      exact ⟨_, .empty (Or.inl rfl)⟩

/-- An entry leaves the phase it says. -/
theorem Agrees.entry {call : LaneCall} {pc₀ : CallPc} {r : ConnectionLane × List LaneEvent}
    {p' : Phase} (h : w.Agrees p) (hpc : w.callers c = pc₀) (hout : pc₀.window = none)
    (hcase : EntryCase w c call p r p') :
    r.1.Agrees p' := by
  cases hcase with
  | refused => exact h.goto_outside hpc hout rfl
  | waits => exact h
  | takes k =>
    obtain ⟨hlast, hattached, -⟩ := h.held k rfl
    refine h.arm nofun rfl (fun k' hk' => ?_) fun k' hk' => h.done k' hk'
    cases hk'
    exact ⟨hlast, hattached.slot, fun hexited => absurd hexited hattached.pc⟩
  | opens uid => exact h.arm nofun rfl (fun _ => nofun) fun k _ => h.done k nofun
  | empty => exact h.goto_outside hpc hout rfl

/-- What a call does outside its window: it is made, waits, sets `draining`, or takes its first
section. -/
inductive OutsideCase (w : ConnectionLane) (c : ℕ) :
    Phase → ConnectionLane × List LaneEvent → Phase → Prop where
  | idle {p : Phase} : OutsideCase w c p (w, []) p
  | calls {p : Phase} (call : LaneCall) : OutsideCase w c p (w.goto c (.entry call), []) p
  | arms {p : Phase} : OutsideCase w c p ({ w with draining := true }.goto c .drainLoop, []) p
  | entry {p p' : Phase} {r : ConnectionLane × List LaneEvent} (call : LaneCall)
      (armed : call = .drain → w.draining = true) (case : EntryCase w c call p r p') :
      OutsideCase w c p r p'

/-- No connection changes and nothing is published. -/
theorem OutsideCase.frame {r : ConnectionLane × List LaneEvent} {p' : Phase}
    (h : OutsideCase w c p r p') :
    r.1.connections = w.connections ∧ r.1.started = w.started ∧ r.1.vpnState = w.vpnState := by
  cases h with
  | idle | calls | arms => exact ⟨rfl, rfl, rfl⟩
  | entry call _ hcase => cases hcase <;> exact ⟨rfl, rfl, rfl⟩

theorem advance_outside (h : w.Agrees p) (ha : w.Armed) (hout : (w.callers c).window = none)
    (answer : Except String Unit) : ∃ p', OutsideCase w c p (w.advance c answer) p' := by
  unfold advance
  cases hpc : w.callers c with
  | idle => exact ⟨p, .idle⟩
  | entry call =>
    cases call with
    | connect uid =>
      obtain ⟨p', hcase⟩ := connectEntry_case h ha c uid
      exact ⟨p', .entry (.connect uid) nofun hcase⟩
    | disconnect uid =>
      obtain ⟨p', hcase⟩ := disconnectEntry_case h ha c uid
      exact ⟨p', .entry (.disconnect uid) nofun hcase⟩
    | drain => exact ⟨p, .arms⟩
  | drainLoop =>
    obtain ⟨p', hcase⟩ := drainTurn_case h c
    exact ⟨p', .entry .drain (fun _ => ha c (by rw [hpc]; rfl)) hcase⟩
  | _ =>
    rw [hpc] at hout
    cases hout

theorem Agrees.outside {r : ConnectionLane × List LaneEvent} {p' : Phase} (h : w.Agrees p)
    (hout : (w.callers c).window = none) (hcase : OutsideCase w c p r p') : r.1.Agrees p' := by
  cases hcase with
  | idle => exact h
  | calls => exact h.goto_outside rfl hout rfl
  | arms =>
    have hdraining : Agrees { w with draining := true } p := h.congr rfl rfl rfl rfl
    exact hdraining.goto_outside rfl hout rfl
  | entry call _ hcase => exact h.entry rfl hout hcase

/-! ## Inside a window -/

/-- The phase a step of a call in its window leaves. -/
def phaseAfter (w : ConnectionLane) (c : ℕ) : CallPc → Phase
  | .recheck _ _ => if w.draining then .free else .busy c
  | .failClear _ _ | .clearDisconnecting _ | .clearDrain => .free
  | .install _ lane => .up lane
  | _ => .busy c

theorem Agrees.fits_of_lane {pc₀ : CallPc} (h : w.Agrees p) (hpc : w.callers c = pc₀)
    (hin : pc₀.window ≠ none)
    (hk : pc₀.lane = some k) : k + 1 = w.started ∧ pc₀.Fits (w.connections k) := by
  obtain rfl := h.busy hpc hin
  have := h.held k (by rw [lane_busy, hpc, hk])
  rwa [fits_busy, hpc] at this

theorem Agrees.done_of_lane_none {pc₀ : CallPc} (h : w.Agrees p) (hpc : w.callers c = pc₀)
    (hin : pc₀.window ≠ none) (hk : pc₀.lane = none) (k : ℕ) : (w.connections k).Done := by
  obtain rfl := h.busy hpc hin
  refine h.done k ?_
  rw [lane_busy, hpc, hk]
  exact nofun

theorem Agrees.state_window {pc₀ : CallPc} {win : Window} (h : w.Agrees p) (hpc : w.callers c = pc₀)
    (hwin : pc₀.window = some win) : w.state = win.laneState := by
  obtain rfl := h.busy hpc (by rw [hwin]; exact nofun)
  rw [h.state, laneState_busy, hpc, hwin]
  rfl

theorem Agrees.takeSlot {call : LaneCall} (h : w.Agrees p) (hpc : w.callers c = .retire call k) :
    (w.takeSlot c call k).Agrees (.busy c) := by
  obtain ⟨-, hslot, hexited⟩ := h.fits_of_lane hpc nofun rfl
  have hformed := h.formed k
  have hconn : ({ w.connections k with slot := false } : Connection).Formed :=
    ⟨nofun, hformed.disconnect, hformed.publish, hformed.retireLane⟩
  -- a full slot holds a live connection; an empty one was claimed by the pump
  have hfits : ∀ pc : CallPc, (pc = .tear call k (w.connections k).slot ∨
      pc = .publishDisconnecting call k (w.connections k).slot) →
      pc.Fits { w.connections k with slot := false } := by
    intro pc hpc'
    cases hfull : (w.connections k).slot with
    | true =>
      have hlive := hformed.slot hfull
      rw [hfull] at hpc'
      rcases hpc' with rfl | rfl <;> exact ⟨rfl, hlive.1, Or.inl hlive.2⟩
    | false =>
      have hloop : (w.connections k).pc.looping = false := by
        rw [Bool.eq_false_iff]
        intro hloop
        exact absurd (hfull.symm.trans (hslot hloop)) nofun
      have hclaimed : (w.connections k).live = true → (w.connections k).pc = .disconnect := by
        intro hlive
        cases hpump : (w.connections k).pc with
        | disconnect => rfl
        | publish => exact absurd (hlive.symm.trans (hformed.publish hpump)) nofun
        | retireLane => exact absurd (hlive.symm.trans (hformed.retireLane hpump)) nofun
        | exited => exact absurd (hlive.symm.trans (hexited hpump)) nofun
        | _ => rw [hpump] at hloop; cases hloop
      rw [hfull] at hpc'
      rcases hpc' with rfl | rfl <;> exact ⟨rfl, hloop, hclaimed⟩
  cases call with
  | drain =>
    exact h.inside_same w.vpnState hpc nofun rfl rfl rfl (hfits _ (Or.inl rfl)) hconn
  | connect uid =>
    exact h.inside_same w.vpnState hpc nofun rfl rfl rfl (hfits _ (Or.inr rfl)) hconn
  | disconnect uid =>
    exact h.inside_same w.vpnState hpc nofun rfl rfl rfl (hfits _ (Or.inr rfl)) hconn

theorem Agrees.tearDown {call : LaneCall} {retired : Bool} (h : w.Agrees p)
    (hpc : w.callers c = .tear call k retired) :
    (w.tearDown c call k retired).1.Agrees (.busy c) := by
  obtain ⟨-, hfits⟩ := h.fits_of_lane hpc nofun rfl
  have hformed := h.formed k
  unfold ConnectionLane.tearDown
  cases retired with
  | true =>
    obtain ⟨hslot, -, hpump⟩ := hfits
    refine h.inside_same w.vpnState hpc nofun rfl rfl rfl ⟨hslot, nofun⟩
      ⟨fun hfull => ?_, fun hd => ?_, fun _ => rfl,
      fun _ => rfl⟩
    · exact absurd (hslot.symm.trans hfull) nofun
    · -- the pump has not claimed what the call took
      rw [show (w.connections k).pc = .disconnect from hd] at hpump
      rcases hpump with hpump | hpump <;> cases hpump
  | false =>
    obtain ⟨hslot, -, hlive⟩ := hfits
    have hnext : (((w.setConnection k (w.connections k)).setVpnState w.vpnState).goto c
      (.join call k)).Agrees
        (.busy c) := h.inside_same _ hpc nofun rfl rfl rfl ⟨hslot, hlive⟩ hformed
    rwa [setConnection_self] at hnext

/-- The pump has exited, so nothing of the connection is left. -/
theorem Agrees.joinPump {call : LaneCall} (h : w.Agrees p) (hpc : w.callers c = .join call k) :
    (w.joinPump c call k).Agrees (.busy c) := by
  obtain rfl := h.busy hpc nofun
  obtain ⟨-, hslot, hlive⟩ := h.fits_of_lane hpc nofun rfl
  unfold ConnectionLane.joinPump
  split
  · next hexited =>
    have hdone : (w.connections k).Done := by
      refine ⟨?_, hslot, hexited⟩
      rw [Bool.eq_false_iff]
      intro hl
      exact absurd (hexited.symm.trans (hlive hl)) nofun
    have hlane : (afterJoin call).lane = none := by cases call <;> rfl
    refine h.inside hpc nofun (by cases call <;> rfl) rfl rfl (fun k' hk' => ?_)
      (fun k' _ => ?_) h.formed
    · rw [hlane] at hk'
      cases hk'
    · by_cases hk : k' = k
      · rwa [hk]
      · refine h.done k' fun heq => hk ?_
        rw [lane_busy, hpc] at heq
        exact (Option.some.inj heq).symm
  · exact h

theorem Agrees.recheck {uid : ℕ} {superseded : Bool} (h : w.Agrees p)
    (hpc : w.callers c = .recheck uid superseded) :
    (w.connectRecheck c uid).1.Agrees (if w.draining then .free else .busy c) := by
  have hstate := h.state_window hpc rfl
  unfold connectRecheck
  split_ifs
  · have hclosed : ({ w.state with reconnecting := false } : LaneState) = {} := by rw [hstate]; rfl
    rw [hclosed]
    exact h.close hpc nofun rfl
  · have hsame : ({ w.state with owner := none } : LaneState) = w.state := by rw [hstate]; rfl
    rw [hsame]
    exact h.inside_none w.vpnState hpc nofun rfl rfl rfl

/-- The engine starts a connection: no other is left. -/
theorem Agrees.engineConnect {uid : ℕ} (h : w.Agrees p) (hpc : w.callers c = .engine uid)
    (answer : Except String Unit) : (w.engineConnect c uid answer).1.Agrees (.busy c) := by
  have hdone := h.done_of_lane_none hpc nofun rfl
  cases answer with
  | error error => exact h.inside_none w.vpnState hpc nofun rfl rfl rfl
  | ok =>
    have hconn : ∀ k', Function.update w.connections w.started ({ live := true } : Connection) k' =
        if k' = w.started then { live := true } else w.connections k' := fun k' =>
      Function.update_apply _ _ _ _
    refine h.inside hpc nofun rfl rfl rfl (fun k hk => ?_) (fun k hk => ?_) fun k => ?_
    · cases hk
      refine ⟨rfl, ?_⟩
      dsimp only
      rw [hconn, if_pos rfl]
      exact ⟨rfl, rfl, rfl⟩
    · dsimp only
      rw [hconn, if_neg fun heq => hk (by rw [heq]; rfl)]
      exact hdone k
    · dsimp only
      rw [hconn]
      split_ifs
      · exact ⟨nofun, nofun, nofun, nofun⟩
      · exact h.formed k

theorem Agrees.install {uid : ℕ} (h : w.Agrees p) (hpc : w.callers c = .install uid k) :
    (w.install c uid k).1.Agrees (.up k) := by
  obtain rfl := h.busy hpc nofun
  obtain ⟨hlast, -, hlive, -⟩ := h.fits_of_lane hpc nofun rfl
  have hstate := h.state_window hpc rfl
  have hcallers : ∀ c', (w.install c uid k).1.callers c' = if c' = c then .idle
    else w.callers c' := fun c' =>
    Function.update_apply _ _ _ _
  have hconns : ∀ k', (w.install c uid k).1.connections k' = if k' = k then
      { w.connections k with installer := some uid, slot := true, pc := .receive, pump := {} }
      else w.connections k' := fun k' => Function.update_apply _ _ _ _
  refine ⟨fun c' => ?_, ?_, fun k' hk' => ?_, fun k' hk' => ?_, fun k' => ?_⟩
  · rw [hcallers]
    split_ifs with hc
    · exact ⟨fun hwin => absurd rfl hwin, nofun⟩
    · refine ⟨fun hwin => ?_, nofun⟩
      have := (h.calls c').mp hwin
      cases this
      exact absurd rfl hc
  · rw [laneState_up, hconns, if_pos rfl]
    show ({ w.state with active := some k, owner := some uid, reconnecting := false } : LaneState) =
      _
    rw [hstate]
    rfl
  · cases hk'
    rw [hconns, if_pos rfl]
    exact ⟨hlast, ⟨fun _ => rfl, nofun⟩, nofun⟩
  · have hne : k' ≠ k := by
      rintro rfl
      exact hk' rfl
    rw [hconns, if_neg hne]
    refine h.done k' fun heq => hne ?_
    rw [lane_busy, hpc] at heq
    exact (Option.some.inj heq).symm
  · rw [hconns]
    split_ifs
    · exact ⟨fun _ => ⟨hlive, rfl⟩, nofun, nofun, nofun⟩
    · exact h.formed k'

/-- **A step of a call in its window**, with the phase it leaves. -/
theorem Agrees.work {pc₀ : CallPc} (h : w.Agrees p) (hpc : w.callers c = pc₀)
    (hin : pc₀.window ≠ none)
    (answer : Except String Unit) : (w.advance c answer).1.Agrees (w.phaseAfter c pc₀) := by
  unfold advance
  rw [hpc]
  cases pc₀ with
  | idle | entry | drainLoop => exact absurd rfl hin
  | retire call k => exact h.takeSlot hpc
  | publishDisconnecting call k retired =>
    have hfits : (CallPc.tear call k retired).Fits (w.connections k) := by
      cases retired <;> exact (h.fits_of_lane hpc hin rfl).2
    have hnext : (((w.setConnection k (w.connections k)).setVpnState .disconnecting).goto c
        (.tear call k retired)).Agrees (.busy c) :=
        h.inside_same _ hpc hin rfl rfl rfl hfits (h.formed k)
    rwa [setConnection_self] at hnext
  | tear call k retired => exact h.tearDown hpc
  | join call k => exact h.joinPump hpc
  | recheck uid superseded => exact h.recheck hpc
  | engine uid => exact h.engineConnect hpc answer
  | failPublish uid error => exact h.inside_none .disconnected hpc hin rfl rfl rfl
  | failClear uid error =>
    have hclosed : ({ w.state with reconnecting := false } : LaneState) = {} := by
      rw [h.state_window hpc rfl]
      rfl
    rw [hclosed]
    exact h.close hpc hin rfl
  | install uid k => exact h.install hpc
  | publishDisconnected uid => exact h.inside_none .disconnected hpc hin rfl rfl rfl
  | clearDisconnecting uid =>
    have hclosed : ({ w.state with disconnecting := false } : LaneState) = {} := by
      rw [h.state_window hpc rfl]
      rfl
    rw [hclosed]
    exact h.close hpc hin rfl
  | clearDrain =>
    have hclosed : ({ w.state with drainInProgress := false } : LaneState) = {} := by
      rw [h.state_window hpc rfl]
      rfl
    rw [hclosed]
    exact h.close hpc hin rfl

/-! ## Pumps -/

theorem ne_publish_of_looping {pc : PumpPc} (h : pc.looping = true) : pc ≠ .publish := by
  rintro rfl
  cases h

theorem pumpCase_silent {conn : Connection} (hpumped : Pumped (w.connections k) conn)
    (hlive : conn.live = (w.connections k).live) (hpc : (w.connections k).pc ≠ .publish) :
    PumpCase w k (w.setConnection k conn, []) :=
  .pumped w.vpnState hpumped (fun h => absurd h hpc) (fun _ => Or.inl rfl) (Or.inl ⟨rfl, hlive⟩)

theorem pumpCase_loops {pc : PumpPc} {pump : Pump} (before : (w.connections k).pc.looping = true)
    (after : pc.looping = true) :
    PumpCase w k (w.setConnection k { w.connections k with pc := pc, pump := pump }, []) :=
  pumpCase_silent (.loops before after) rfl (ne_publish_of_looping before)

theorem pumpCase_leaves (before : (w.connections k).pc.looping = true)
    (empty : ¬ (w.connections k).slot = true) :
    PumpCase w k (w.pumpGoto k .exited, []) :=
  pumpCase_silent (.leaves before (Bool.eq_false_iff.mpr empty)) rfl (ne_publish_of_looping before)

theorem pumpCase_publish {pc : PumpPc} {published : Pump × Option VpnState}
    (before : (w.connections k).pc.looping = true) (after : pc.looping = true)
    (full : (w.connections k).slot = true) : PumpCase w k (w.pumpPublish k pc published, []) :=
  .pumped _ (.loops before after) (fun h => absurd h (ne_publish_of_looping before))
  (fun _ => Or.inr ⟨full, full⟩)
    (Or.inl ⟨rfl, rfl⟩)

theorem pumpReconcile_case (before : (w.connections k).pc.looping = true) (answer : EngineAnswer)
    {next : PumpPc}
    (after : next.looping = true) : PumpCase w k (w.pumpReconcile k answer next, []) := by
  unfold pumpReconcile
  split_ifs with hfull
  · refine pumpCase_publish before ?_ hfull
    split_ifs
    · rfl
    · exact after
  · exact pumpCase_loops before after

/-- **What a step of a pump can do.** -/
theorem pumpStep_case (w : ConnectionLane) (k : ℕ) (answer : EngineAnswer) :
    PumpCase w k (w.pumpStep k answer) := by
  have hpc : ∀ {pc : PumpPc}, (w.connections k).pc = pc → pc.looping = true →
      (w.connections k).pc.looping = true := fun hpc hloop => hpc ▸ hloop
  unfold pumpStep
  split
  · next h =>
    unfold pumpReceive
    split
    · exact pumpCase_loops (hpc h rfl) rfl
    · split_ifs with hfull
      · split <;> exact pumpCase_loops (hpc h rfl) rfl
      · exact pumpCase_leaves (hpc h rfl) hfull
  · next h => exact pumpReconcile_case (hpc h rfl) answer rfl
  · next event h =>
    unfold pumpProcess
    split
    · split_ifs with hbacklog hempty
      · exact pumpCase_loops (hpc h rfl) rfl
      · exact pumpCase_loops (hpc h rfl) rfl
      · exact pumpCase_publish (hpc h rfl) rfl (by simpa using hempty)
    · exact pumpCase_loops (hpc h rfl) rfl
    · exact pumpCase_loops (hpc h rfl) rfl
  · next h => exact pumpReconcile_case (hpc h rfl) answer rfl
  · next h => exact pumpReconcile_case (hpc h rfl) answer rfl
  · next h =>
    unfold pumpProbe
    split_ifs
    · split <;> exact pumpCase_loops (hpc h rfl) rfl
    · exact pumpCase_loops (hpc h rfl) rfl
  · next h =>
    unfold pumpClaim
    split_ifs with hfull
    · exact pumpCase_silent (.claims (hpc h rfl) hfull) rfl (ne_publish_of_looping (hpc h rfl))
    · exact pumpCase_leaves (hpc h rfl) hfull
  · next h =>
    refine .pumped w.vpnState (.disconnects h) (fun hp => ?_) (fun _ => Or.inl rfl)
      (Or.inr ⟨rfl, h⟩)
    exact absurd (h.symm.trans hp) nofun
  · next h =>
    exact .pumped .disconnected (.publishes h) (fun _ => rfl) (fun hne => absurd h hne)
      (Or.inl ⟨rfl, rfl⟩)
  · next h => exact .retires h
  · next h => exact .exited h

/-- The phase a step of a pump leaves. -/
def phaseAfterPump (w : ConnectionLane) (k : ℕ) (p : Phase) : Phase :=
  match (w.connections k).pc with
  | .retireLane => if p = .up k then .free else p
  | _ => p

theorem Pumped.phaseAfterPump {conn : Connection} (h : Pumped (w.connections k) conn) :
    w.phaseAfterPump k p = p := by
  unfold ConnectionLane.phaseAfterPump
  split
  · next hpc => cases h <;> simp_all [PumpPc.looping]
  · rfl

/-- `retire_lane` frees the lane if it is ours, and otherwise leaves it to the call that took it. -/
theorem Agrees.retireLane (h : w.Agrees p) (hpc : (w.connections k).pc = .retireLane) :
    (w.retireLane k).Agrees (if p = .up k then .free else p) := by
  have hformed := h.formed k
  have hlane := h.lane_of_pc (k := k) (by rw [hpc]; exact nofun)
  have hslot : (w.connections k).slot = false := by
    rw [Bool.eq_false_iff]
    intro hfull
    have := (hformed.slot hfull).2
    rw [hpc] at this
    cases this
  have hdone : ({ w.connections k with pc := .exited } : Connection).Done :=
    ⟨hformed.retireLane hpc, hslot, rfl⟩
  have hconn : ({ w.connections k with pc := .exited } : Connection).Formed :=
    ⟨fun hfull => absurd (hslot.symm.trans hfull) nofun, nofun, nofun, nofun⟩
  unfold ConnectionLane.retireLane
  cases p with
  | free => cases hlane
  | up k' =>
    cases hlane
    rw [if_pos rfl, if_pos (by rw [h.state_up])]
    have hconns : ∀ k', (w.setConnection k { w.connections k with pc := .exited }).connections k' =
        if k' = k then { w.connections k with pc := .exited } else w.connections k' := fun k' =>
      connections_set w k k' _
    refine ⟨fun c => ?_, ?_, nofun, fun k' _ => ?_, fun k' => ?_⟩
    · exact ⟨fun hwin => absurd ((h.calls c).mp hwin) nofun, nofun⟩
    · show ({ w.state with active := none, owner := none } : LaneState) = {}
      rw [h.state_up]
    · refine (hconns k').symm ▸ ?_
      split_ifs with hk
      · exact hdone
      · exact h.done k' fun heq => hk (Option.some.inj heq).symm
    · refine (hconns k').symm ▸ ?_
      split_ifs
      · exact hconn
      · exact h.formed k'
  | busy c =>
    have hactive : w.state.active ≠ some k := fun hactive => absurd (h.of_active hactive).1 nofun
    rw [if_neg hactive, if_neg nofun]
    refine h.setConnection hconn rfl (fun _ => ?_) fun hne => absurd hlane hne
    have hfits := (h.held k hlane).2
    rw [fits_busy] at hfits ⊢
    cases hcall : w.callers c with
    | retire => exact ⟨nofun, fun _ => hdone.live⟩
    | publishDisconnecting _ _ retired | tear _ _ retired =>
      rw [hcall] at hfits
      cases retired with
      | true => exact ⟨hfits.1, hfits.2.1, Or.inr rfl⟩
      | false => exact ⟨hfits.1, rfl, fun hlive => absurd (hlive.symm.trans hdone.live) nofun⟩
    | join => exact ⟨hslot, fun hlive => absurd (hlive.symm.trans hdone.live) nofun⟩
    | install =>
      rw [hcall] at hfits
      exact absurd (hpc.symm.trans hfits.2.2) nofun
    | _ => trivial

/-- **A step of a pump**, with the phase it leaves. -/
theorem Agrees.pump (h : w.Agrees p) (answer : EngineAnswer) :
    (w.pumpStep k answer).1.Agrees (w.phaseAfterPump k p) := by
  have hcase := pumpStep_case w k answer
  generalize w.pumpStep k answer = r at hcase
  cases hcase with
  | exited hpc =>
    unfold phaseAfterPump
    rw [hpc]
    exact h
  | pumped vpn hpumped =>
    rw [hpumped.phaseAfterPump]
    exact (h.pumped hpumped).congr rfl rfl rfl rfl
  | retires hpc =>
    unfold phaseAfterPump
    rw [hpc]
    exact h.retireLane hpc

/-! ## Every step -/

theorem Armed.goto {w' : ConnectionLane} {pc : CallPc} (ha : w.Armed)
    (hcallers : w'.callers = w.callers)
    (hkeep : w.draining = true → w'.draining = true) (hpc : pc.drains = true → w'.draining = true) :
    (w'.goto c pc).Armed := by
  intro c' hdrains
  rw [callers_goto, hcallers] at hdrains
  split_ifs at hdrains
  · exact hpc hdrains
  · exact hkeep (ha c' hdrains)

theorem Armed.outside {p' : Phase} {r : ConnectionLane × List LaneEvent} (ha : w.Armed)
    (hcase : OutsideCase w c p r p') : r.1.Armed := by
  cases hcase with
  | idle => exact ha
  | calls => exact ha.goto rfl id nofun
  | arms => exact ha.goto rfl (fun _ => rfl) fun _ => rfl
  | entry call hcall hcase =>
    cases hcase with
    | refused | opens | empty => exact ha.goto rfl id nofun
    | waits => exact ha
    | takes k =>
      refine ha.goto rfl id fun hdrains => hcall ?_
      cases call <;> first | rfl | cases hdrains

theorem Armed.work (ha : w.Armed) (hin : (w.callers c).window ≠ none)
    (answer : Except String Unit) :
    (w.advance c answer).1.Armed := by
  -- the call goes on for the same call
  have hsame : ∀ {w' : ConnectionLane} {pc₀ pc : CallPc}, w.callers c = pc₀ →
    w'.callers = w.callers →
      w'.draining = w.draining → (pc.drains = true → pc₀.drains = true) → (w'.goto c pc).Armed :=
    fun hpc hcallers hdraining hdrains => ha.goto hcallers (fun hd => hdraining.trans hd) fun hd =>
      hdraining.trans (ha c (hpc ▸ hdrains hd))
  unfold advance
  cases hpc : w.callers c with
  | idle | entry | drainLoop =>
    rw [hpc] at hin
    exact absurd rfl hin
  | retire call k => cases call <;> exact hsame hpc rfl rfl id
  | publishDisconnecting call k retired => cases call <;> exact hsame hpc rfl rfl id
  | tear call k retired =>
    dsimp only
    unfold ConnectionLane.tearDown
    split_ifs <;> cases call <;> exact hsame hpc rfl rfl id
  | join call k =>
    dsimp only
    unfold ConnectionLane.joinPump
    split
    · cases call <;> exact hsame hpc rfl rfl id
    · exact ha
  | recheck uid superseded =>
    dsimp only
    unfold connectRecheck
    split_ifs <;> exact hsame hpc rfl rfl nofun
  | engine uid => cases answer <;> exact hsame hpc rfl rfl nofun
  | failPublish | failClear | install | publishDisconnected | clearDisconnecting | clearDrain =>
    exact hsame hpc rfl rfl nofun

theorem pumpStep_frame (w : ConnectionLane) (k : ℕ) (answer : EngineAnswer) :
    (w.pumpStep k answer).1.callers = w.callers ∧
    (w.pumpStep k answer).1.draining = w.draining := by
  have hcase := pumpStep_case w k answer
  generalize w.pumpStep k answer = r at hcase
  cases hcase with
  | exited | pumped => exact ⟨rfl, rfl⟩
  | retires =>
    unfold ConnectionLane.retireLane
    split_ifs <;> exact ⟨rfl, rfl⟩

/-- **What a step does**, from one phase to the next. -/
inductive StepCase (w : ConnectionLane) (p : Phase) :
    Action → ConnectionLane × List LaneEvent → Phase → Prop where
  | stays (c : ℕ) (call : LaneCall) : StepCase w p (.call c call) (w, []) p
  | outside {a : Action} {r : ConnectionLane × List LaneEvent} {p' : Phase} (c : ℕ)
      (out : (w.callers c).window = none) (case : OutsideCase w c p r p') : StepCase w p a r p'
  | work (c : ℕ) (answer : Except String Unit) (window : (w.callers c).window ≠ none) :
      StepCase w p (.advance c answer) (w.advance c answer) (w.phaseAfter c (w.callers c))
  | pump (k : ℕ) (answer : EngineAnswer) :
      StepCase w p (.pump k answer) (w.pumpStep k answer) (w.phaseAfterPump k p)

theorem step_case (h : w.Agrees p) (ha : w.Armed) (a : Action) :
    ∃ p', StepCase w p a (w.step a) p' := by
  cases a with
  | call c call =>
    unfold step
    dsimp only
    split
    · next hpc => exact ⟨p, .outside c (by rw [hpc]; rfl) (.calls call)⟩
    · exact ⟨p, .stays c call⟩
  | advance c answer =>
    by_cases hwin : (w.callers c).window = none
    · obtain ⟨p', hcase⟩ := advance_outside h ha hwin answer
      exact ⟨p', .outside c hwin hcase⟩
    · exact ⟨_, .work c answer hwin⟩
  | pump k answer => exact ⟨_, .pump k answer⟩

theorem Agrees.step {a : Action} {r : ConnectionLane × List LaneEvent} {p' : Phase} (h : w.Agrees p)
    (hcase : StepCase w p a r p') : r.1.Agrees p' := by
  cases hcase with
  | stays => exact h
  | outside c hout hcase => exact h.outside hout hcase
  | work c answer hin => exact h.work rfl hin answer
  | pump k answer => exact h.pump answer

theorem Armed.step {a : Action} {r : ConnectionLane × List LaneEvent} {p' : Phase} (ha : w.Armed)
    (hcase : StepCase w p a r p') : r.1.Armed := by
  cases hcase with
  | stays => exact ha
  | outside c hout hcase => exact ha.outside hcase
  | work c answer hin => exact ha.work hin answer
  | pump k answer =>
    obtain ⟨hcallers, hdraining⟩ := pumpStep_frame w k answer
    intro c hc
    rw [hcallers] at hc
    rw [hdraining]
    exact ha c hc

/-- **One step keeps the invariant.** -/
theorem sound_step (h : w.Sound) (a : Action) : (w.step a).1.Sound := by
  obtain ⟨⟨p, hp⟩, ha⟩ := h
  obtain ⟨p', hcase⟩ := step_case hp ha a
  exact ⟨⟨p', hp.step hcase⟩, ha.step hcase⟩

theorem sound_new : ConnectionLane.new.Sound where
  phase := ⟨.free, fun _ => ⟨fun h => absurd rfl h, nofun⟩, rfl, nofun, fun _ _ => ⟨rfl, rfl, rfl⟩,
    fun _ => ⟨nofun, nofun, nofun, nofun⟩⟩
  armed _ := nofun

end

end ConnectionLane

end ProtonWire
