import ProtonWire.Lane.Model

/-!
# The phases of the lane

The lane is free, up, or busy with the one call that armed a window. The phase decides what the
lane's lock protects, and which connection is not done.

* `Phase`, `ConnectionLane.Agrees`: the invariant;
* `PumpCase`: what a step of a pump can do;
* `Agrees.pumped`: a pump keeps the phase until it retires the lane.
-/

namespace ProtonWire

/-! ## Windows and lanes -/

/-- The three windows. -/
inductive Window where
  | reconnecting
  | disconnecting
  | drainInProgress
  deriving DecidableEq

/-- The window a call arms. -/
def LaneCall.window : LaneCall → Window
  | connect _ => .reconnecting
  | disconnect _ => .disconnecting
  | drain => .drainInProgress

/-- The lane's state while a window is armed: nothing is active, nobody owns it. -/
def Window.laneState (window : Window) : LaneState where
  reconnecting := decide (window = .reconnecting)
  disconnecting := decide (window = .disconnecting)
  drainInProgress := decide (window = .drainInProgress)

namespace CallPc

/-- The window a call holds. -/
def window : CallPc → Option Window
  | retire call _ | publishDisconnecting call _ _ | tear call _ _ | join call _ => some call.window
  | recheck _ _ | engine _ | failPublish _ _ | failClear _ _ | install _ _ => some .reconnecting
  | publishDisconnected _ | clearDisconnecting _ => some .disconnecting
  | clearDrain => some .drainInProgress
  | idle | entry _ | drainLoop => none

/-- The connection a call tears down or installs. -/
def lane : CallPc → Option ℕ
  | retire _ lane | publishDisconnecting _ lane _ | tear _ lane _ | join _ lane | install _ lane =>
    some lane
  | _ => none

end CallPc

namespace PumpPc

/-- The pump has not claimed its connection. -/
def looping : PumpPc → Bool
  | disconnect | publish | retireLane | exited => false
  | _ => true

end PumpPc

/-! ## Connections -/

namespace Connection

/-- A slot holds a live connection, whose pump has not claimed it; a pump that claimed its
connection disconnects it before it goes on. -/
structure Formed (conn : Connection) : Prop where
  slot : conn.slot = true → conn.live = true ∧ conn.pc.looping = true
  disconnect : conn.pc = .disconnect → conn.live = true
  publish : conn.pc = .publish → conn.live = false
  retireLane : conn.pc = .retireLane → conn.live = false

/-- Nothing of the connection is left. -/
structure Done (conn : Connection) : Prop where
  live : conn.live = false
  slot : conn.slot = false
  pc : conn.pc = .exited

/-- The pump runs, and only the pump empties the slot. -/
structure Attached (conn : Connection) : Prop where
  slot : conn.pc.looping = true → conn.slot = true
  pc : conn.pc ≠ .exited

end Connection

/-- What a call knows about the connection it tears down or installs. -/
def CallPc.Fits (conn : Connection) : CallPc → Prop
  | .retire _ _ => (conn.pc.looping = true → conn.slot = true) ∧
    (conn.pc = .exited → conn.live = false)
  | .publishDisconnecting _ _ true | .tear _ _ true =>
    conn.slot = false ∧ conn.live = true ∧ (conn.pc.looping = true ∨ conn.pc = .exited)
  | .publishDisconnecting _ _ false | .tear _ _ false =>
    conn.slot = false ∧ conn.pc.looping = false ∧ (conn.live = true → conn.pc = .disconnect)
  | .join _ _ => conn.slot = false ∧ (conn.live = true → conn.pc = .disconnect)
  | .install _ _ => conn.slot = false ∧ conn.live = true ∧ conn.pc = .exited
  | _ => True

/-! ## Phases -/

/-- What the lane is at. -/
inductive Phase where
  | free
  | up (lane : ℕ)
  | busy (caller : ℕ)
  deriving DecidableEq

namespace ConnectionLane

/-- The lane's state in a phase. -/
def laneState (w : ConnectionLane) : Phase → LaneState
  | .free => {}
  | .up lane => { active := some lane, owner := (w.connections lane).installer }
  | .busy c => ((w.callers c).window.map Window.laneState).getD {}

/-- The connection that is not done. -/
def lane (w : ConnectionLane) : Phase → Option ℕ
  | .free => none
  | .up lane => some lane
  | .busy c => (w.callers c).lane

/-- What holds of that connection. -/
def Fits (w : ConnectionLane) (conn : Connection) : Phase → Prop
  | .free => True
  | .up _ => conn.Attached ∧ conn.installer ≠ none
  | .busy c => (w.callers c).Fits conn

/-- The world is in a phase. -/
structure Agrees (w : ConnectionLane) (p : Phase) : Prop where
  calls : ∀ c, (w.callers c).window ≠ none ↔ p = .busy c
  state : w.state = w.laneState p
  held : ∀ k, w.lane p = some k → k + 1 = w.started ∧ w.Fits (w.connections k) p
  done : ∀ k, w.lane p ≠ some k → (w.connections k).Done
  formed : ∀ k, (w.connections k).Formed

section
variable {w : ConnectionLane} {p : Phase} {c k : ℕ} {pc pc₀ : CallPc} {conn : Connection}

theorem laneState_busy :
    w.laneState (.busy c) = ((w.callers c).window.map Window.laneState).getD {} := rfl

theorem laneState_up :
    w.laneState (.up k) = { active := some k, owner := (w.connections k).installer } := rfl

theorem lane_busy : w.lane (.busy c) = (w.callers c).lane := rfl

theorem fits_busy : w.Fits conn (.busy c) ↔ (w.callers c).Fits conn := Iff.rfl

/-! ## Consequences -/

theorem Agrees.lane_of_live (h : w.Agrees p) (hlive : (w.connections k).live = true) :
    w.lane p = some k := by
  by_contra hne
  have := (h.done k hne).live
  rw [hlive] at this
  cases this

theorem Agrees.lane_of_pc (h : w.Agrees p) (hpc : (w.connections k).pc ≠ .exited) :
    w.lane p = some k := by
  by_contra hne
  exact hpc (h.done k hne).pc

/-- A call in its window is what the lane is busy with. -/
theorem Agrees.busy (h : w.Agrees p) (hpc : w.callers c = pc₀) (hwin : pc₀.window ≠ none) :
    p = .busy c :=
  (h.calls c).mp (hpc ▸ hwin)

theorem Agrees.of_active (h : w.Agrees p) (hactive : w.state.active = some k) :
    p = .up k ∧ w.state.owner = (w.connections k).installer := by
  have hstate := h.state
  cases p with
  | free =>
    rw [hstate] at hactive
    cases hactive
  | up k' =>
    rw [hstate] at hactive ⊢
    cases hactive
    exact ⟨rfl, rfl⟩
  | busy c =>
    rw [hstate, laneState_busy] at hactive
    cases hwin : (w.callers c).window <;> rw [hwin] at hactive <;> cases hactive

theorem Agrees.owner_none (h : w.Agrees p) (hactive : w.state.active = none) :
    w.state.owner = none := by
  have hstate := h.state
  cases p with
  | free => rw [hstate]; rfl
  | up k =>
    rw [hstate] at hactive
    cases hactive
  | busy c =>
    rw [hstate, laneState_busy]
    cases (w.callers c).window <;> rfl

/-- With no window armed and nothing active the lane is free. -/
theorem Agrees.free (h : w.Agrees p) (hactive : w.state.active = none)
    (hwaits : drainWaits w.state = false) :
    p = .free := by
  have hstate := h.state
  cases p with
  | free => rfl
  | up k =>
    rw [hstate] at hactive
    cases hactive
  | busy c =>
    exfalso
    obtain ⟨win, hwin⟩ := Option.ne_none_iff_exists'.mp ((h.calls c).mpr rfl)
    rw [hstate, laneState_busy, hwin] at hwaits
    cases win <;> cases hwaits

end

/-! ## Calls -/

theorem callers_goto (w : ConnectionLane) (c c' : ℕ) (pc : CallPc) :
    (w.goto c pc).callers c' = if c' = c then pc else w.callers c' := by
  unfold goto
  exact Function.update_apply _ _ _ _

theorem connections_set (w : ConnectionLane) (k k' : ℕ) (conn : Connection) :
    (w.setConnection k conn).connections k' = if k' = k then conn else w.connections k' := by
  unfold setConnection
  exact Function.update_apply _ _ _ _

theorem setConnection_self (w : ConnectionLane) (k : ℕ) :
    w.setConnection k (w.connections k) = w := by
  unfold setConnection
  rw [Function.update_eq_self]

section
variable {w : ConnectionLane} {p : Phase} {c k : ℕ} {pc pc₀ : CallPc} {conn : Connection}

/-- A phase only looks at the lane's state, the connections and the calls. -/
theorem Agrees.congr {w' : ConnectionLane} (h : w.Agrees p) (hstate : w'.state = w.state)
    (hcalls : w'.callers = w.callers) (hconns : w'.connections = w.connections)
    (hstarted : w'.started = w.started) :
    w'.Agrees p := by
  obtain ⟨state, draining, vpn, connections, started, callers⟩ := w'
  cases hstate
  cases hcalls
  cases hconns
  cases hstarted
  exact ⟨h.calls, h.state, h.held, h.done, h.formed⟩

theorem Agrees.goto_outside (h : w.Agrees p) (hpc : w.callers c = pc₀) (hout : pc₀.window = none)
    (hout' : pc.window = none) : (w.goto c pc).Agrees p := by
  have hne : p ≠ .busy c := fun hp => (h.calls c).mpr hp (hpc ▸ hout)
  have hother : ∀ c', p = .busy c' → (w.goto c pc).callers c' = w.callers c' := fun c' hp => by
    rw [callers_goto, if_neg]
    rintro rfl
    exact hne hp
  have hlane : (w.goto c pc).lane p = w.lane p := by
    cases p with
    | free | up => rfl
    | busy c' => exact congrArg CallPc.lane (hother c' rfl)
  refine ⟨fun c' => ?_, ?_, fun k hk => ?_, fun k hk => h.done k (hlane ▸ hk), h.formed⟩
  · rw [callers_goto]
    split_ifs with hc
    · rw [hc]
      exact ⟨fun hwin => absurd hout' hwin, fun hp => absurd hp hne⟩
    · exact h.calls c'
  · refine h.state.trans ?_
    cases p with
    | free | up => rfl
    | busy c' => rw [laneState_busy, laneState_busy, hother c' rfl]
  · obtain ⟨hlast, hfits⟩ := h.held k (hlane ▸ hk)
    refine ⟨hlast, ?_⟩
    cases p with
    | free => trivial
    | up => exact hfits
    | busy c' =>
      rw [fits_busy, hother c' rfl]
      exact hfits

theorem Agrees.inside {w' : ConnectionLane} (h : w.Agrees p) (hpc : w.callers c = pc₀)
    (hin : pc₀.window ≠ none) (hwin : pc.window = pc₀.window) (hstate : w'.state = w.state)
    (hcallers : w'.callers = w.callers)
    (hheld : ∀ k, pc.lane = some k → k + 1 = w'.started ∧ pc.Fits (w'.connections k))
    (hdone : ∀ k, pc.lane ≠ some k → (w'.connections k).Done)
    (hformed : ∀ k, (w'.connections k).Formed) :
    (w'.goto c pc).Agrees (.busy c) := by
  obtain rfl := h.busy hpc hin
  have hself : (w'.goto c pc).callers c = pc := by rw [callers_goto, if_pos rfl]
  refine ⟨fun c' => ?_, ?_, fun k hk => ?_, fun k hk => hdone k ?_, hformed⟩
  · rw [callers_goto, hcallers]
    split_ifs with hc
    · rw [hwin, hc]
      exact ⟨fun _ => rfl, fun _ => hin⟩
    · exact h.calls c'
  · refine (hstate.trans h.state).trans ?_
    rw [laneState_busy, laneState_busy, hself, hwin, hpc]
  · rw [lane_busy, hself] at hk
    rw [fits_busy, hself]
    exact hheld k hk
  · rwa [lane_busy, hself] at hk

theorem Agrees.inside_same (h : w.Agrees p) (vpn : VpnState) (hpc : w.callers c = pc₀)
    (hin : pc₀.window ≠ none) (hwin : pc.window = pc₀.window) (hk : pc₀.lane = some k)
    (hk' : pc.lane = some k) (hfits : pc.Fits conn) (hformed : conn.Formed) :
    (((w.setConnection k conn).setVpnState vpn).goto c pc).Agrees (.busy c) := by
  obtain rfl := h.busy hpc hin
  have hlane : w.lane (.busy c) = some k := by rw [lane_busy, hpc, hk]
  refine h.inside hpc hin hwin rfl rfl (fun k' hlane' => ?_)
    (fun k' hne => ?_) fun k' => ?_
  · rw [hk'] at hlane'
    cases hlane'
    refine ⟨(h.held k hlane).1, ?_⟩
    rwa [show ((w.setConnection k conn).setVpnState vpn).connections k = conn
      from Function.update_self ..]
  · have hkk : k' ≠ k := by
      rintro rfl
      exact hne hk'
    rw [show ((w.setConnection k conn).setVpnState vpn).connections k' = w.connections k' from
      Function.update_of_ne hkk ..]
    exact h.done k' fun heq => hkk (Option.some.inj (heq.symm.trans hlane))
  · rw [show ((w.setConnection k conn).setVpnState vpn).connections k' =
      if k' = k then conn else w.connections k' from connections_set w k k' conn]
    split_ifs
    · exact hformed
    · exact h.formed k'

theorem Agrees.inside_none (h : w.Agrees p) (vpn : VpnState) (hpc : w.callers c = pc₀)
    (hin : pc₀.window ≠ none) (hwin : pc.window = pc₀.window) (hk : pc₀.lane = none)
    (hk' : pc.lane = none) :
    ((w.setVpnState vpn).goto c pc).Agrees (.busy c) := by
  obtain rfl := h.busy hpc hin
  refine h.inside hpc hin hwin rfl rfl (fun k hlane => ?_) (fun k _ => h.done k ?_) h.formed
  · rw [hk'] at hlane
    cases hlane
  · rw [lane_busy, hpc, hk]
    exact nofun

theorem Agrees.arm (h : w.Agrees p)
    (hfree : ∀ c', p ≠ .busy c') {win : Window} (hwin : pc.window = some win)
    (hheld : ∀ k, pc.lane = some k → k + 1 = w.started ∧ pc.Fits (w.connections k))
    (hdone : ∀ k, pc.lane ≠ some k → (w.connections k).Done) :
    ({ w with state := win.laneState }.goto c pc).Agrees (.busy c) := by
  have hself : ({ w with state := win.laneState }.goto c pc).callers c = pc := by
    rw [callers_goto, if_pos rfl]
  refine ⟨fun c' => ?_, ?_, fun k hk => ?_, fun k hk => hdone k ?_, h.formed⟩
  · rw [callers_goto]
    split_ifs with hc
    · rw [hwin, hc]
      simp
    · refine ⟨fun hwin' => absurd ((h.calls c').mp hwin') (hfree c'), fun hbusy => ?_⟩
      cases hbusy
      exact absurd rfl hc
  · rw [laneState_busy, hself, hwin]
    rfl
  · rw [lane_busy, hself] at hk
    rw [fits_busy, hself]
    exact hheld k hk
  · rwa [lane_busy, hself] at hk

/-- A call that holds no connection closes its window, and the lane is free. -/
theorem Agrees.close (h : w.Agrees p) (hpc : w.callers c = pc₀) (hin : pc₀.window ≠ none)
    (hlane : pc₀.lane = none) : ({ w with state := {} }.goto c .idle).Agrees .free := by
  obtain rfl := h.busy hpc hin
  refine ⟨fun c' => ?_, rfl, nofun, fun k _ => h.done k ?_, h.formed⟩
  · rw [callers_goto]
    split_ifs with hc
    · exact ⟨fun hwin => absurd rfl hwin, fun hp => by cases hp⟩
    · refine ⟨fun hwin => ?_, fun hp => by cases hp⟩
      have := (h.calls c').mp hwin
      cases this
      exact absurd rfl hc
  · rw [lane_busy, hpc, hlane]
    exact nofun

/-! ## Pumps -/

/-- A connection changes, and what the lane and the calls know about it still holds. -/
theorem Agrees.setConnection (h : w.Agrees p) (hformed : conn.Formed)
    (hinstaller : conn.installer = (w.connections k).installer)
    (hheld : w.lane p = some k → w.Fits conn p) (hdone : w.lane p ≠ some k → conn.Done) :
    (w.setConnection k conn).Agrees p := by
  refine ⟨h.calls, ?_, fun k' hk' => ?_, fun k' hk' => ?_, fun k' => ?_⟩
  · refine h.state.trans ?_
    cases p with
    | free | busy => rfl
    | up k' =>
      rw [laneState_up, laneState_up, connections_set]
      split_ifs with hk
      · rw [hinstaller, hk]
      · rfl
  · refine ⟨(h.held k' hk').1, ?_⟩
    rw [connections_set]
    split_ifs with hk
    · exact hheld (hk ▸ hk')
    · exact (h.held k' hk').2
  · rw [connections_set]
    split_ifs with hk
    · exact hdone (hk ▸ hk')
    · exact h.done k' hk'
  · rw [connections_set]
    split_ifs
    · exact hformed
    · exact h.formed k'

/-- How a pump changes its connection, up to the end of its loop and short of `retire_lane`. -/
inductive Pumped (conn : Connection) : Connection → Prop where
  | loops {pc : PumpPc} {pump : Pump} (before : conn.pc.looping = true)
    (after : pc.looping = true) :
      Pumped conn { conn with pc := pc, pump := pump }
  | leaves (before : conn.pc.looping = true) (slot : conn.slot = false) :
      Pumped conn { conn with pc := .exited }
  | claims (before : conn.pc.looping = true) (slot : conn.slot = true) :
      Pumped conn { conn with slot := false, pc := .disconnect }
  | disconnects (before : conn.pc = .disconnect) :
    Pumped conn { conn with live := false, pc := .publish }
  | publishes (before : conn.pc = .publish) : Pumped conn { conn with pc := .retireLane }

/-- What a step of a pump can do. It publishes a state of the engine only while its slot is full. -/
inductive PumpCase (w : ConnectionLane) (k : ℕ) : ConnectionLane × List LaneEvent → Prop where
  | exited (pc : (w.connections k).pc = .exited) : PumpCase w k (w, [])
  | pumped {conn : Connection} (vpn : VpnState) {events : List LaneEvent}
    (pumped : Pumped (w.connections k) conn)
      (terminal : (w.connections k).pc = .publish → vpn = .disconnected)
      (published : (w.connections k).pc ≠ .publish → vpn = w.vpnState ∨
        (w.connections k).slot = true ∧ conn.slot = true)
      (events_eq : events = [] ∧ conn.live = (w.connections k).live ∨
        events = [.disconnected k] ∧ (w.connections k).pc = .disconnect) :
      PumpCase w k ((w.setConnection k conn).setVpnState vpn, events)
  | retires (pc : (w.connections k).pc = .retireLane) : PumpCase w k (w.retireLane k, [])

theorem Pumped.before_ne {conn conn' : Connection} (h : Pumped conn conn') : conn.pc ≠ .exited := by
  intro hpc
  cases h with
  | loops before | leaves before | claims before =>
    rw [hpc] at before
    cases before
  | disconnects before | publishes before =>
    rw [hpc] at before
    cases before

theorem Pumped.formed {conn conn' : Connection} (h : Pumped conn conn') (hf : conn.Formed) :
    conn'.Formed := by
  -- a full slot is that of a looping pump
  have hslot : conn.pc.looping = false → conn.slot = true → False := fun hpc hslot => by
    rw [(hf.slot hslot).2] at hpc
    cases hpc
  cases h with
  | @loops pc pump before after =>
    have hne : pc ≠ .disconnect ∧ pc ≠ .publish ∧ pc ≠ .retireLane := by
      refine ⟨?_, ?_, ?_⟩ <;> rintro rfl <;> cases after
    exact ⟨fun hfull => ⟨(hf.slot hfull).1, after⟩, fun hpc => absurd hpc hne.1,
      fun hpc => absurd hpc hne.2.1, fun hpc => absurd hpc hne.2.2⟩
  | leaves before slot =>
    exact ⟨fun hfull => absurd (slot.symm.trans hfull) nofun, nofun, nofun, nofun⟩
  | claims before slot => exact ⟨nofun, fun _ => (hf.slot slot).1, nofun, nofun⟩
  | disconnects before =>
    exact ⟨fun hfull => (hslot (by rw [before]; rfl) hfull).elim, nofun, fun _ => rfl, nofun⟩
  | publishes before =>
    exact ⟨fun hfull => (hslot (by rw [before]; rfl) hfull).elim, nofun, nofun,
      fun _ => hf.publish before⟩

theorem Pumped.attached {conn conn' : Connection} (h : Pumped conn conn') (ha : conn.Attached) :
    conn'.Attached := by
  cases h with
  | @loops pc pump before after =>
    refine ⟨fun _ => ha.slot before, ?_⟩
    rintro rfl
    cases after
  | leaves before slot =>
    rw [ha.slot before] at slot
    cases slot
  | claims | disconnects | publishes => exact ⟨nofun, nofun⟩

theorem Pumped.fits {conn conn' : Connection} (h : Pumped conn conn') (hf : pc.Fits conn) :
    pc.Fits conn' := by
  obtain ⟨installer, slot, live, pumpPc, pump⟩ := conn
  cases pc with
  | retire =>
    obtain ⟨hslot, hexited⟩ := hf
    cases h with
    | @loops pc' _ before after =>
      refine ⟨fun _ => hslot before, ?_⟩
      rintro rfl
      cases after
    | leaves before empty => exact absurd (empty.symm.trans (hslot before)) nofun
    | claims | disconnects | publishes => exact ⟨nofun, nofun⟩
  | publishDisconnecting _ _ retired | tear _ _ retired =>
    cases retired with
    | true =>
      obtain ⟨hslot, hlive, hpc⟩ := hf
      cases h with
      | loops before after => exact ⟨hslot, hlive, Or.inl after⟩
      | leaves before empty => exact ⟨hslot, hlive, Or.inr rfl⟩
      | claims before full => exact absurd (hslot.symm.trans full) nofun
      | disconnects before | publishes before =>
        cases before
        rcases hpc with hpc | hpc <;> cases hpc
    | false =>
      obtain ⟨hslot, hpc, hlive⟩ := hf
      cases h with
      | loops before | leaves before | claims before => exact absurd (hpc.symm.trans before) nofun
      | disconnects before => exact ⟨hslot, rfl, nofun⟩
      | publishes before =>
        cases before
        exact ⟨hslot, rfl, fun hl => absurd (hlive hl) nofun⟩
  | join =>
    obtain ⟨hslot, hlive⟩ := hf
    cases h with
    | loops before | leaves before =>
      refine ⟨hslot, fun hl => ?_⟩
      cases hlive hl
      cases before
    | claims before full => exact absurd (hslot.symm.trans full) nofun
    | disconnects => exact ⟨hslot, nofun⟩
    | publishes before =>
      cases before
      exact ⟨hslot, fun hl => absurd (hlive hl) nofun⟩
  | install => exact absurd hf.2.2 h.before_ne
  | _ => trivial

/-- A pump's change of its connection keeps the phase. -/
theorem Agrees.pumped (h : w.Agrees p) (hpumped : Pumped (w.connections k) conn) :
    (w.setConnection k conn).Agrees p := by
  have hlane := h.lane_of_pc hpumped.before_ne
  refine h.setConnection (hpumped.formed (h.formed k)) ?_ (fun _ => ?_) fun hne => absurd hlane hne
  · cases hpumped <;> rfl
  · have hfits := (h.held k hlane).2
    cases p with
    | free => trivial
    | up =>
      refine ⟨hpumped.attached hfits.1, ?_⟩
      cases hpumped <;> exact hfits.2
    | busy c => exact hpumped.fits hfits

end

end ConnectionLane

end ProtonWire
