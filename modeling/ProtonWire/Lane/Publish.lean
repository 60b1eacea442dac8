import ProtonWire.Lane.Ownership

/-!
# The published state

Whoever empties a slot owns the terminal state of its connection: the pump publishes `Disconnected`
before it retires the lane, `disconnect` after its join, `connect` when the engine fails. Two steps
take that ownership and publish nothing.

* `Strands`: those steps, when the published state is not `Disconnected`;
* `Settles`, `Published`: what the runs without such a step keep;
* **`published_at_rest`**: at rest the core reads `Disconnected` exactly when no step stranded it.
-/

namespace ProtonWire

namespace ConnectionLane

/-- No lane is active, and no call and no pump is under way. -/
structure AtRest (w : ConnectionLane) : Prop where
  active : w.state.active = none
  calls : ∀ c, w.callers c = .idle
  pumps : ∀ k, (w.connections k).pc = .exited

/-- A drain takes a connection out of its slot, or a connect that superseded a lane finds `draining`
set at its second check, while the core reads anything but `Disconnected`. -/
def Strands (w : ConnectionLane) : Action → Prop
  | .advance c _ => w.vpnState ≠ .disconnected ∧
    ((∃ k, w.callers c = .retire .drain k ∧ (w.connections k).slot = true) ∨
      ∃ uid, w.callers c = .recheck uid true ∧ w.draining = true)
  | _ => False

/-- What the core reads when the call in its window is at a place. -/
def Settles (w : ConnectionLane) : CallPc → Prop
  | .retire .drain k => (w.connections k).pc = .retireLane ∨ (w.connections k).pc = .exited →
    w.vpnState = .disconnected
  | .publishDisconnecting .drain _ _ => False
  | .tear .drain _ true => w.vpnState = .disconnected
  | .tear .drain k false | .join .drain k =>
    (w.connections k).pc ≠ .disconnect → (w.connections k).pc ≠ .publish →
    w.vpnState = .disconnected
  | .recheck _ false | .failClear _ _ | .clearDisconnecting _ | .clearDrain =>
    w.vpnState = .disconnected
  | _ => True

/-- What the core reads in a phase. -/
def Published (w : ConnectionLane) : Phase → Prop
  | .free => w.vpnState = .disconnected
  | .up k => (w.connections k).pc = .retireLane → w.vpnState = .disconnected
  | .busy c => w.Settles (w.callers c)

section
variable {w : ConnectionLane} {p : Phase} {c k : ℕ}

theorem published_busy : w.Published (.busy c) ↔ w.Settles (w.callers c) := Iff.rfl

/-! ## Calls -/

theorem published_goto {pc : CallPc} (h : w.Settles pc) : (w.goto c pc).Published (.busy c) := by
  rw [published_busy, callers_goto, if_pos rfl]
  exact h

theorem settles_congr {w' : ConnectionLane} (hconns : w'.connections = w.connections)
    (hvpn : w'.vpnState = w.vpnState) {pc : CallPc} : w'.Settles pc ↔ w.Settles pc := by
  unfold Settles
  rw [hconns, hvpn]

theorem published_outside {r : ConnectionLane × List LaneEvent} {p' : Phase} (h : w.Agrees p)
    (hp : w.Published p) (hout : (w.callers c).window = none) (hcase : OutsideCase w c p r p') :
    r.1.Published p' := by
  -- a call outside its window is not the one the lane is busy with
  have hkeep : ∀ (w' : ConnectionLane) (pc : CallPc), w'.connections = w.connections →
      w'.vpnState = w.vpnState → w'.callers = w.callers → (w'.goto c pc).Published p := by
    intro w' pc hconns hvpn hcallers
    cases p with
    | free => exact hvpn.trans hp
    | up k =>
      intro hpc
      rw [show (w'.goto c pc).connections = w.connections from hconns] at hpc
      exact hvpn.trans (hp hpc)
    | busy c' =>
      have hne : c' ≠ c := by
        rintro rfl
        exact (h.calls c').mpr rfl hout
      rw [published_busy, callers_goto, if_neg hne, hcallers]
      exact (settles_congr hconns hvpn).mpr hp
  cases hcase with
  | idle => exact hp
  | calls | arms => exact hkeep _ _ rfl rfl rfl
  | entry call _ hcase =>
    cases hcase with
    | refused | empty => exact hkeep _ _ rfl rfl rfl
    | waits => exact hp
    | takes k =>
      refine published_goto ?_
      cases call with
      | drain =>
        rintro (hretire | hexited)
        · exact hp hretire
        · exact absurd hexited (h.held k rfl).2.1.pc
      | _ => trivial
    | opens => exact published_goto hp

theorem published_work (h : w.Agrees p) (hp : w.Published p) (hin : (w.callers c).window ≠ none)
    (answer : Except String Unit) (hno : ¬ w.Strands (.advance c answer)) :
    (w.advance c answer).1.Published (w.phaseAfter c (w.callers c)) := by
  obtain rfl := h.busy rfl hin
  have hsettles : w.Settles (w.callers c) := hp
  unfold advance
  cases hpc : w.callers c with
  | idle | entry | drainLoop =>
    rw [hpc] at hin
    exact absurd rfl hin
  | retire call k =>
    cases call with
    | connect | disconnect => exact published_goto trivial
    | drain =>
      refine published_goto ?_
      rw [hpc] at hsettles
      cases hfull : (w.connections k).slot with
      | true =>
        by_contra hstranded
        exact hno ⟨hstranded, Or.inl ⟨k, hpc, hfull⟩⟩
      | false =>
        obtain ⟨hslot, -⟩ := (h.fits_of_lane hpc nofun rfl).2
        intro hne hne'
        rw [connections_set, if_pos rfl] at hne hne'
        refine hsettles ?_
        cases hpump : (w.connections k).pc with
        | disconnect => exact absurd hpump hne
        | publish => exact absurd hpump hne'
        | retireLane => exact Or.inl rfl
        | exited => exact Or.inr rfl
        | _ =>
          rw [hpump] at hslot
          exact absurd (hfull.symm.trans (hslot rfl)) nofun
  | publishDisconnecting call k retired =>
    rw [hpc] at hsettles
    cases call with
    | drain => exact hsettles.elim
    | _ => exact published_goto trivial
  | tear call k retired =>
    rw [hpc] at hsettles
    dsimp only
    unfold tearDown
    cases call with
    | connect | disconnect => split_ifs <;> exact published_goto trivial
    | drain =>
      cases retired with
      | true => exact published_goto fun _ _ => hsettles
      | false => exact published_goto hsettles
  | join call k =>
    rw [hpc] at hsettles
    dsimp only
    unfold joinPump
    split
    · next hexited =>
      cases call with
      | connect | disconnect => exact published_goto trivial
      | drain =>
        exact published_goto (hsettles (by rw [hexited]; exact nofun)
          (by rw [hexited]; exact nofun))
    · exact hp
  | recheck uid superseded =>
    rw [hpc] at hsettles
    dsimp only
    unfold connectRecheck phaseAfter
    split_ifs with hdraining
    · cases superseded with
      | false => exact hsettles
      | true =>
        by_contra hstranded
        exact hno ⟨hstranded, Or.inr ⟨uid, hpc, hdraining⟩⟩
    · exact published_goto trivial
  | engine uid => cases answer <;> exact published_goto trivial
  | failPublish uid error => exact published_goto rfl
  | publishDisconnected uid => exact published_goto rfl
  | failClear uid error | clearDisconnecting uid | clearDrain =>
    rw [hpc] at hsettles
    exact hsettles
  | install uid k =>
    intro hretire
    rw [show (w.install c uid k).1.connections k = _ from Function.update_self ..] at hretire
    cases hretire

/-! ## Pumps -/

theorem Pumped.before_retireLane {conn conn' : Connection} (h : Pumped conn conn')
    (hpc : conn'.pc = .retireLane) :
    conn.pc = .publish := by
  cases h with
  | @loops pc _ _ after =>
    rw [show pc = .retireLane from hpc] at after
    cases after
  | publishes before => exact before
  | leaves | claims | disconnects => cases hpc

theorem Pumped.before_exited {conn conn' : Connection} (h : Pumped conn conn')
    (hpc : conn'.pc = .exited) :
    conn.pc.looping = true ∧ conn.slot = false := by
  cases h with
  | @loops pc _ _ after =>
    rw [show pc = .exited from hpc] at after
    cases after
  | leaves before slot => exact ⟨before, slot⟩
  | claims | disconnects | publishes => cases hpc

theorem Pumped.before_settled {conn conn' : Connection} (h : Pumped conn conn')
    (hne : conn'.pc ≠ .disconnect)
    (hne' : conn'.pc ≠ .publish) : conn.pc.looping = true ∨ conn.pc = .publish := by
  cases h with
  | loops before | leaves before => exact Or.inl before
  | claims => exact absurd rfl hne
  | disconnects => exact absurd rfl hne'
  | publishes before => exact Or.inr before

theorem published_pumped {conn : Connection} {vpn : VpnState} (h : w.Agrees p) (hp : w.Published p)
    (hpumped : Pumped (w.connections k) conn)
    (hterminal : (w.connections k).pc = .publish → vpn = .disconnected)
    (hstates : (w.connections k).pc ≠ .publish → vpn = w.vpnState ∨
      (w.connections k).slot = true ∧ conn.slot = true) :
    ((w.setConnection k conn).setVpnState vpn).Published p := by
  have hlane := h.lane_of_pc hpumped.before_ne
  have hconn : ((w.setConnection k conn).setVpnState vpn).connections k = conn :=
    Function.update_self ..
  have hretire : conn.pc = .retireLane → vpn = .disconnected := fun hpc =>
    hterminal (hpumped.before_retireLane hpc)
  -- with the slot empty the core reads what it read
  have hempty : (w.connections k).slot = false → (w.connections k).pc ≠ .publish →
    vpn = w.vpnState := by
    intro hslot hne
    exact (hstates hne).resolve_right fun hfull => absurd (hslot.symm.trans hfull.1) nofun
  have hfits := (h.held k hlane).2
  cases p with
  | free => cases hlane
  | up k' =>
    cases hlane
    intro hpc
    rw [hconn] at hpc
    exact hretire hpc
  | busy c =>
    rw [published_busy] at hp ⊢
    rw [fits_busy] at hfits
    rw [lane_busy] at hlane
    rw [show ((w.setConnection k conn).setVpnState vpn).callers = w.callers from rfl]
    cases hpc : w.callers c with
    | retire call k' =>
      rw [hpc] at hlane hfits
      cases hlane
      cases call with
      | connect | disconnect => trivial
      | drain =>
        intro hend
        rw [hconn] at hend
        refine hend.elim hretire fun hexited => ?_
        obtain ⟨hloop, hslot⟩ := hpumped.before_exited hexited
        exact absurd (hslot.symm.trans (hfits.1 hloop)) nofun
    | publishDisconnecting call k' retired =>
      rw [hpc] at hp
      cases call with
      | drain => exact hp
      | _ => trivial
    | tear call k' retired =>
      rw [hpc] at hlane hfits hp
      cases hlane
      cases call with
      | connect | disconnect => trivial
      | drain =>
        cases retired with
        | true =>
          obtain ⟨hslot, -, hpump⟩ := hfits
          have hne : (w.connections k).pc ≠ .publish := by
            intro hpublish
            rw [hpublish] at hpump
            rcases hpump with hpump | hpump <;> cases hpump
          exact (hempty hslot hne).trans hp
        | false =>
          obtain ⟨-, hpump, -⟩ := hfits
          intro hne hne'
          rw [hconn] at hne hne'
          rcases hpumped.before_settled hne hne' with hloop | hpublish
          · exact absurd (hpump.symm.trans hloop) nofun
          · exact hterminal hpublish
    | join call k' =>
      rw [hpc] at hlane hfits hp
      cases hlane
      cases call with
      | connect | disconnect => trivial
      | drain =>
        obtain ⟨hslot, -⟩ := hfits
        intro hne hne'
        rw [hconn] at hne hne'
        rcases hpumped.before_settled hne hne' with hloop | hpublish
        · have hpublish := ne_publish_of_looping hloop
          refine (hempty hslot hpublish).trans (hp ?_ hpublish)
          intro hdisconnect
          rw [hdisconnect] at hloop
          cases hloop
        · exact hterminal hpublish
    | recheck | failClear | clearDisconnecting | clearDrain =>
      rw [hpc] at hlane
      cases hlane
    | _ => trivial

theorem published_retires (h : w.Agrees p) (hp : w.Published p)
    (hpc : (w.connections k).pc = .retireLane) :
    (w.retireLane k).Published (if p = .up k then .free else p) := by
  have hlane := h.lane_of_pc (k := k) (by rw [hpc]; exact nofun)
  have hvpn : (w.retireLane k).vpnState = w.vpnState := by
    unfold ConnectionLane.retireLane
    split_ifs <;> rfl
  cases p with
  | free => cases hlane
  | up k' =>
    cases hlane
    rw [if_pos rfl]
    exact hvpn.trans (hp hpc)
  | busy c =>
    have hcallers : (w.retireLane k).callers = w.callers := by
      unfold ConnectionLane.retireLane
      split_ifs <;> rfl
    rw [if_neg nofun, published_busy, hcallers]
    rw [published_busy] at hp
    rw [lane_busy] at hlane
    -- the pump published before it came here
    cases hcall : w.callers c with
    | retire call k' =>
      rw [hcall] at hlane hp
      cases hlane
      cases call with
      | drain => exact fun _ => hvpn.trans (hp (Or.inl hpc))
      | _ => trivial
    | publishDisconnecting call k' retired =>
      rw [hcall] at hp
      cases call with
      | drain => exact hp
      | _ => trivial
    | tear call k' retired =>
      rw [hcall] at hlane hp
      cases hlane
      cases call with
      | connect | disconnect => trivial
      | drain =>
        cases retired with
        | true => exact hvpn.trans hp
        | false =>
          exact fun _ _ => hvpn.trans (hp (by rw [hpc]; exact nofun) (by rw [hpc]; exact nofun))
    | join call k' =>
      rw [hcall] at hlane hp
      cases hlane
      cases call with
      | drain =>
        exact fun _ _ => hvpn.trans (hp (by rw [hpc]; exact nofun) (by rw [hpc]; exact nofun))
      | _ => trivial
    | recheck | failClear | clearDisconnecting | clearDrain =>
      rw [hcall] at hlane
      cases hlane
    | _ => trivial

theorem published_pump (h : w.Agrees p) (hp : w.Published p) (answer : EngineAnswer) :
    (w.pumpStep k answer).1.Published (w.phaseAfterPump k p) := by
  have hcase := pumpStep_case w k answer
  generalize w.pumpStep k answer = r at hcase
  cases hcase with
  | exited hpc =>
    unfold phaseAfterPump
    rw [hpc]
    exact hp
  | pumped vpn hpumped hterminal hstates =>
    rw [hpumped.phaseAfterPump]
    exact published_pumped h hp hpumped hterminal hstates
  | retires hpc =>
    unfold phaseAfterPump
    rw [hpc]
    exact published_retires h hp hpc

/-- **A step that does not strand the published state keeps it settled.** -/
theorem published_step {a : Action} {r : ConnectionLane × List LaneEvent} {p' : Phase}
    (h : w.Agrees p) (hp : w.Published p) (hno : ¬ w.Strands a) (hcase : StepCase w p a r p') :
    r.1.Published p' := by
  cases hcase with
  | stays => exact hp
  | outside c hout hcase => exact published_outside h hp hout hcase
  | work c answer hin => exact published_work h hp hin answer hno
  | pump k answer => exact published_pump h hp answer

/-! ## Runs that strand it -/

/-- The lane drains with every slot empty, and no pump has claimed its connection: nobody is left to
publish. -/
structure Stranded (w : ConnectionLane) (p : Phase) : Prop where
  draining : w.draining = true
  vpnState : w.vpnState ≠ .disconnected
  slots : ∀ k, (w.connections k).slot = false
  pumps : ∀ k, (w.connections k).pc.looping = true ∨ (w.connections k).pc = .exited
  phase : p = .free ∨ ∃ c, p = .busy c ∧ (w.callers c).drains = true

theorem stranded_outside {r : ConnectionLane × List LaneEvent} {p' : Phase} (h : w.Agrees p)
    (hs : w.Stranded p) (hout : (w.callers c).window = none) (hcase : OutsideCase w c p r p') :
    r.1.Stranded p' := by
  -- the other calls move, the drain that ends stays where it is
  have hphase : ∀ (w' : ConnectionLane) (pc : CallPc), w'.callers = w.callers →
      p = .free ∨ ∃ c', p = .busy c' ∧ ((w'.goto c pc).callers c').drains = true := by
    intro w' pc hcallers
    refine hs.phase.imp_right ?_
    rintro ⟨c', rfl, hdrains⟩
    refine ⟨c', rfl, ?_⟩
    have hne : c' ≠ c := by
      rintro rfl
      exact (h.calls c').mpr rfl hout
    rwa [callers_goto, if_neg hne, hcallers]
  cases hcase with
  | idle => exact hs
  | calls => exact ⟨hs.draining, hs.vpnState, hs.slots, hs.pumps, hphase w _ rfl⟩
  | arms => exact ⟨rfl, hs.vpnState, hs.slots, hs.pumps, hphase _ _ rfl⟩
  | entry call _ hcase =>
    cases hcase with
    | refused | empty => exact ⟨hs.draining, hs.vpnState, hs.slots, hs.pumps, hphase w _ rfl⟩
    | waits => exact hs
    | takes k => rcases hs.phase with hphase | ⟨_, hphase, -⟩ <;> cases hphase
    | opens _ _ hnot => exact absurd (hnot.symm.trans hs.draining) nofun

/-- The drain that ends goes on, and changes no pump. -/
theorem Stranded.goto {w' : ConnectionLane} {pc : CallPc} (hs : w.Stranded p)
    (hdraining : w'.draining = w.draining) (hvpn : w'.vpnState ≠ .disconnected)
    (hconns : ∀ k, ((w'.connections k).slot = true → (w.connections k).slot = true) ∧
      (w'.connections k).pc = (w.connections k).pc) (hpc : pc.drains = true) :
    (w'.goto c pc).Stranded (.busy c) where
  draining := hdraining.trans hs.draining
  vpnState := hvpn
  slots k := by
    rw [Bool.eq_false_iff]
    intro hfull
    exact absurd ((hs.slots k).symm.trans ((hconns k).1 hfull)) nofun
  pumps k := by
    show (w'.connections k).pc.looping = true ∨ (w'.connections k).pc = .exited
    rw [(hconns k).2]
    exact hs.pumps k
  phase := Or.inr ⟨c, rfl, by rwa [callers_goto, if_pos rfl]⟩

theorem stranded_work (h : w.Agrees p) (hs : w.Stranded p) (hin : (w.callers c).window ≠ none)
    (answer : Except String Unit) :
    (w.advance c answer).1.Stranded (w.phaseAfter c (w.callers c)) := by
  obtain rfl := h.busy rfl hin
  obtain ⟨_, hphase, hdrains⟩ := hs.phase.resolve_left nofun
  cases hphase
  have hsame : ∀ k, ((w.connections k).slot = true → (w.connections k).slot = true) ∧
      (w.connections k).pc = (w.connections k).pc := fun k => ⟨id, rfl⟩
  have hset : ∀ (k : ℕ) (conn : Connection), (conn.slot = true → (w.connections k).slot = true) →
      conn.pc = (w.connections k).pc → ∀ k',
      (((w.setConnection k conn).connections k').slot = true →
        (w.connections k').slot = true) ∧ ((w.setConnection k conn).connections k').pc =
        (w.connections k').pc := by
    intro k conn hslot hpc k'
    rw [connections_set]
    split_ifs with hk
    · rw [hk]
      exact ⟨hslot, hpc⟩
    · exact ⟨id, rfl⟩
  unfold advance
  cases hpc : w.callers c with
  | idle | entry | drainLoop =>
    rw [hpc] at hin
    exact absurd rfl hin
  | clearDrain => exact ⟨hs.draining, hs.vpnState, hs.slots, hs.pumps, Or.inl rfl⟩
  | retire call k =>
    rw [hpc] at hdrains
    cases call with
    | connect | disconnect => cases hdrains
    | drain => exact hs.goto rfl hs.vpnState (hset k _ nofun rfl) rfl
  | publishDisconnecting call k retired =>
    rw [hpc] at hdrains
    cases call with
    | connect | disconnect => cases hdrains
    | drain => exact hs.goto rfl nofun hsame rfl
  | tear call k retired =>
    rw [hpc] at hdrains
    cases call with
    | connect | disconnect => cases hdrains
    | drain =>
      dsimp only
      unfold tearDown
      split_ifs
      · exact hs.goto rfl hs.vpnState (hset k _ id rfl) rfl
      · exact hs.goto rfl hs.vpnState hsame rfl
  | join call k =>
    rw [hpc] at hdrains
    cases call with
    | connect | disconnect => cases hdrains
    | drain =>
      dsimp only
      unfold joinPump
      split
      · exact hs.goto rfl hs.vpnState hsame rfl
      · exact hs
  | recheck | engine | failPublish | failClear | install | publishDisconnected | clearDisconnecting =>
    rw [hpc] at hdrains
    cases hdrains

theorem stranded_pump (hs : w.Stranded p) (answer : EngineAnswer) :
    (w.pumpStep k answer).1.Stranded (w.phaseAfterPump k p) := by
  have hslot := hs.slots k
  have hcase := pumpStep_case w k answer
  generalize w.pumpStep k answer = r at hcase
  cases hcase with
  | exited hpc =>
    unfold phaseAfterPump
    rw [hpc]
    exact hs
  | retires hpc => rcases hs.pumps k with hpump | hpump <;> rw [hpc] at hpump <;> cases hpump
  | @pumped conn vpn _ hpumped _ hstates =>
    have hloop := (hs.pumps k).resolve_right hpumped.before_ne
    have hvpn : vpn = w.vpnState := (hstates (ne_publish_of_looping hloop)).resolve_right
      fun hfull =>
      absurd (hslot.symm.trans hfull.1) nofun
    have hconn : conn.slot = false ∧ (conn.pc.looping = true ∨ conn.pc = .exited) := by
      cases hpumped with
      | loops _ after => exact ⟨hslot, Or.inl after⟩
      | leaves => exact ⟨hslot, Or.inr rfl⟩
      | claims _ full => exact absurd (hslot.symm.trans full) nofun
      | disconnects before | publishes before =>
        rw [before] at hloop
        cases hloop
    rw [hpumped.phaseAfterPump]
    refine ⟨hs.draining, by rw [hvpn]; exact hs.vpnState, fun k' => ?_, fun k' => ?_, hs.phase⟩
    · show ((w.setConnection k conn).connections k').slot = false
      rw [connections_set]
      split_ifs
      · exact hconn.1
      · exact hs.slots k'
    · show ((w.setConnection k conn).connections k').pc.looping = true ∨
        ((w.setConnection k conn).connections k').pc = .exited
      rw [connections_set]
      split_ifs
      · exact hconn.2
      · exact hs.pumps k'

/-- **A stranded state stays stranded.** -/
theorem stranded_step {a : Action} {r : ConnectionLane × List LaneEvent} {p' : Phase}
    (h : w.Agrees p) (hs : w.Stranded p) (hcase : StepCase w p a r p') : r.1.Stranded p' := by
  cases hcase with
  | stays => exact hs
  | outside c hout hcase => exact stranded_outside h hs hout hcase
  | work c answer hin => exact stranded_work h hs hin answer
  | pump k answer => exact stranded_pump hs answer

/-- **A step that strands the published state leaves it stranded.** -/
theorem stranded_of_strands (h : w.Agrees p) (ha : w.Armed) {a : Action} (hstrands : w.Strands a) :
    ∃ p', (w.step a).1.Agrees p' ∧ (w.step a).1.Stranded p' := by
  cases a with
  | call | pump => exact hstrands.elim
  | advance c answer =>
    obtain ⟨hvpn, ⟨k, hpc, hfull⟩ | ⟨uid, hpc, hdraining⟩⟩ := hstrands
    · have hdraining : w.draining = true := ha c (by rw [hpc]; rfl)
      have hstep : (w.step (.advance c answer)).1 = w.takeSlot c .drain k := by
        simp only [step, advance, hpc]
      rw [hstep]
      refine ⟨.busy c, h.takeSlot hpc, hdraining, hvpn, fun k' => ?_, fun k' => ?_,
        Or.inr ⟨c, rfl, ?_⟩⟩
      · show ((w.setConnection k _).connections k').slot = false
        rw [connections_set]
        split_ifs with hk
        · rfl
        · refine (h.done k' fun hlane => hk ?_).slot
          obtain rfl := h.busy hpc nofun
          rw [lane_busy, hpc] at hlane
          exact (Option.some.inj hlane).symm
      · show ((w.setConnection k _).connections k').pc.looping = true ∨
          ((w.setConnection k _).connections k').pc = .exited
        rw [connections_set]
        split_ifs with hk
        · exact Or.inl ((h.formed k).slot hfull).2
        · refine Or.inr (h.done k' fun hlane => hk ?_).pc
          obtain rfl := h.busy hpc nofun
          rw [lane_busy, hpc] at hlane
          exact (Option.some.inj hlane).symm
      · unfold takeSlot
        rw [callers_goto, if_pos rfl]
        rfl
    · have hagrees := h.recheck hpc
      rw [if_pos hdraining] at hagrees
      have hstep : (w.step (.advance c answer)).1 = (w.connectRecheck c uid).1 := by
        simp only [step, advance, hpc]
      rw [hstep]
      have hdone := hagrees.done
      have hsame : (w.connectRecheck c uid).1.draining = true ∧
          (w.connectRecheck c uid).1.vpnState ≠ .disconnected := by
        unfold connectRecheck
        rw [if_pos hdraining]
        exact ⟨hdraining, hvpn⟩
      exact ⟨.free, hagrees, hsame.1, hsame.2, fun k => (hdone k nofun).slot,
        fun k => Or.inr (hdone k nofun).pc,
        Or.inl rfl⟩

/-! ## Every run -/

theorem AtRest.free (hrest : w.AtRest) (h : w.Agrees p) : p = .free := by
  cases p with
  | free => rfl
  | up k =>
    have := hrest.active
    rw [h.state] at this
    cases this
  | busy c =>
    have hwin := (h.calls c).mpr rfl
    rw [hrest.calls c] at hwin
    exact absurd rfl hwin

theorem published_run (actions : List Action)
    (hno : ∀ as₁ a as₂, actions = as₁ ++ a :: as₂ → ¬ (run as₁).1.Strands a) :
    (run actions).1.Armed ∧ ∃ p, (run actions).1.Agrees p ∧ (run actions).1.Published p := by
  refine Machine.run_inv_of_steps (fun w a => ¬ Strands w a)
    (fun w _ => Armed w ∧ ∃ p, Agrees w p ∧ Published w p)
    (fun w h a hno hw => ?_) new ?_ actions hno
  · obtain ⟨ha, p, hp, hpub⟩ := hw
    obtain ⟨p', hcase⟩ := step_case hp ha a
    exact ⟨ha.step hcase, p', hp.step hcase, published_step hp hpub hno hcase⟩
  · obtain ⟨⟨p, hp⟩, ha⟩ := sound_new
    exact ⟨ha, .free, AtRest.free ⟨rfl, fun _ => rfl, fun _ => rfl⟩ hp ▸ hp, rfl⟩

theorem stranded_run (h : w.Agrees p) (ha : w.Armed) (hs : w.Stranded p) (actions : List Action) :
    (Machine.run step w actions).1.vpnState ≠ .disconnected := by
  have hrun := Machine.run_state_inv (fun w => Armed w ∧ ∃ p, Agrees w p ∧ Stranded w p)
    (fun w a hw => by
    obtain ⟨ha, p, hp, hs⟩ := hw
    obtain ⟨p', hcase⟩ := step_case hp ha a
    exact ⟨ha.step hcase, p', hp.step hcase, stranded_step hp hs hcase⟩) w ⟨ha, p, h, hs⟩ actions
  obtain ⟨-, p', -, hs'⟩ := hrun
  exact hs'.vpnState

/-- **At rest the core reads `Disconnected` exactly when no step of the run stranded it**: no drain
took a connection out of its slot, and no connect that superseded a lane found `draining` set at its
second check, while the core read anything else. -/
theorem published_at_rest (actions : List Action) (hrest : (run actions).1.AtRest) :
    (run actions).1.vpnState = .disconnected ↔
      ∀ as₁ a as₂, actions = as₁ ++ a :: as₂ → ¬ (run as₁).1.Strands a := by
  constructor
  · rintro hvpn as₁ a as₂ rfl hstrands
    obtain ⟨⟨⟨p, hp⟩, ha⟩, -⟩ := sound_accounted_run as₁
    obtain ⟨p', hcase⟩ := step_case hp ha a
    obtain ⟨p'', hp'', hs⟩ := stranded_of_strands hp ha hstrands
    have hsplit : (run (as₁ ++ a :: as₂)).1 = (Machine.run step (step (run as₁).1 a).1 as₂).1 := by
      unfold run
      rw [Machine.run_append, Machine.run_cons]
    rw [hsplit] at hvpn
    exact stranded_run hp'' (ha.step hcase) hs as₂ hvpn
  · intro hno
    obtain ⟨-, p, hp, hpub⟩ := published_run actions hno
    obtain rfl := hrest.free hp
    exact hpub

end

/-- User 7 connects, the engine reports `Connected`, and user 7 disconnects. -/
def disconnectedRun : List Action :=
  [.call 0 (.connect 7), .advance 0 (.ok ()), .advance 0 (.ok ()), .advance 0 (.ok ()),
   .advance 0 (.ok ()), .pump 0 (reports .connected), .pump 0 (reports .connected),
   .pump 0 (reports .connected), .call 0 (.disconnect 7), .advance 0 (.ok ()), .advance 0 (.ok ()),
   .advance 0 (.ok ()), .advance 0 (.ok ()), .pump 0 (reports .connected),
   .pump 0 (reports .connected), .advance 0 (.ok ()), .advance 0 (.ok ()), .advance 0 (.ok ())]

theorem atRest_of_two {w : ConnectionLane} (hactive : w.state.active = none)
    (hcalls : w.callers 0 = .idle ∧ w.callers 1 = .idle ∧ ∀ c, w.callers (c + 2) = .idle)
    (hpumps : (w.connections 0).pc = .exited ∧ ∀ k, (w.connections (k + 1)).pc = .exited) :
    w.AtRest where
  active := hactive
  calls
    | 0 => hcalls.1
    | 1 => hcalls.2.1
    | c + 2 => hcalls.2.2 c
  pumps
    | 0 => hpumps.1
    | k + 1 => hpumps.2 k

theorem published_at_rest_disconnectedRun :
    (run disconnectedRun).1.vpnState = .disconnected ∧
      ∀ as₁ a as₂, disconnectedRun = as₁ ++ a :: as₂ → ¬ (run as₁).1.Strands a :=
  ⟨rfl, (published_at_rest disconnectedRun
    (atRest_of_two rfl ⟨rfl, rfl, fun _ => rfl⟩ ⟨rfl, fun _ => rfl⟩)).mp rfl⟩

/-- User 7 connects, the engine reports `Connected`, user 7 connects again, and the daemon drains
before the second check. -/
def refusedRun : List Action :=
  [.call 0 (.connect 7), .advance 0 (.ok ()), .advance 0 (.ok ()), .advance 0 (.ok ()),
   .advance 0 (.ok ()), .pump 0 (reports .connected), .pump 0 (reports .connected),
   .pump 0 (reports .connected), .call 0 (.connect 7), .advance 0 (.ok ()), .advance 0 (.ok ()),
   .advance 0 (.ok ()), .advance 0 (.ok ()), .pump 0 (reports .connected),
   .pump 0 (reports .connected), .advance 0 (.ok ()), .call 1 .drain, .advance 1 (.ok ()),
   .advance 0 (.ok ()), .advance 1 (.ok ())]

/-- **Both steps strand the core at rest**: after a drain it reads `Connected`, and after a connect
that a drain refused midway it reads `Disconnecting`. -/
theorem stranded_at_rest :
    ((run drainedRun).1.AtRest ∧ (run drainedRun).1.vpnState = .connected) ∧
      (run refusedRun).1.AtRest ∧ (run refusedRun).1.vpnState = .disconnecting :=
  ⟨⟨atRest_of_two rfl ⟨rfl, rfl, fun _ => rfl⟩ ⟨rfl, fun _ => rfl⟩, rfl⟩,
    atRest_of_two rfl ⟨rfl, rfl, fun _ => rfl⟩ ⟨rfl, fun _ => rfl⟩, rfl⟩

end ConnectionLane

end ProtonWire
