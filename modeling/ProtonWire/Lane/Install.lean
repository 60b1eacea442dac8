import ProtonWire.Lane.Ownership

/-!
# One connection among the others

What the calls and the other pumps do to a connection.

* `Fresh`: a connection is installed once, and not pumped before;
* `Framed`, **`framed_step`**: a step that is not the connection's pump's own leaves the connection,
  takes its slot, ends it or installs it, and publishes nothing while the slot is full.
-/

namespace ProtonWire.ConnectionLane

/-- A call installs what it has just started, and what is not installed has not been pumped. -/
structure Fresh (w : ConnectionLane) : Prop where
  unstarted : ∀ k, w.started ≤ k → (w.connections k).installer = none
  unpumped : ∀ k, (w.connections k).installer = none →
    (w.connections k).pump = {} ∧ (w.connections k).slot = false ∧ (w.connections k).pc = .exited
  install : ∀ c uid k, w.callers c = .install uid k → (w.connections k).installer = none

/-- What others do to a connection. -/
inductive Framed (conn : Connection) : Connection → Prop where
  | same : Framed conn conn
  | starts (fresh : conn.installer = none) : Framed conn { live := true }
  | installs (uid : ℕ) (fresh : conn.installer = none) :
    Framed conn { conn with installer := some uid, slot := true, pc := .receive, pump := {} }
  | takes : Framed conn { conn with slot := false }
  | ends : Framed conn { conn with live := false }

section
variable {w : ConnectionLane} {p : Phase} {c k : ℕ}

/-! ## Calls -/

theorem framed_work (hf : w.Fresh) (c k : ℕ) (answer : Except String Unit)
    (hin : (w.callers c).window ≠ none) :
    Framed (w.connections k) ((w.advance c answer).1.connections k) := by
  have hset : ∀ (k' : ℕ) (conn : Connection), Framed (w.connections k') conn →
      Framed (w.connections k) ((w.setConnection k' conn).connections k) :=
      fun k' conn hframed => by
    rw [connections_set]
    split_ifs with hk
    · rwa [hk]
    · exact .same
  unfold advance
  cases hpc : w.callers c with
  | idle | entry | drainLoop =>
    rw [hpc] at hin
    exact absurd rfl hin
  | retire call lane => exact hset lane _ .takes
  | tear call lane retired =>
    dsimp only
    unfold tearDown
    split_ifs
    · exact hset lane _ .ends
    · exact .same
  | join call lane =>
    dsimp only
    unfold joinPump
    split <;> exact .same
  | recheck uid superseded =>
    dsimp only
    unfold connectRecheck
    split_ifs <;> exact .same
  | engine uid =>
    cases answer with
    | error => exact .same
    | ok => exact hset w.started _ (.starts (hf.unstarted w.started le_rfl))
  | install uid lane => exact hset lane _ (.installs uid (hf.install c uid lane hpc))
  | publishDisconnecting | failPublish | failClear | publishDisconnected | clearDisconnecting | clearDrain =>
    exact .same

theorem vpnState_work (h : w.Agrees p) (hfull : (w.connections k).slot = true)
    (answer : Except String Unit)
    (hin : (w.callers c).window ≠ none) : (w.advance c answer).1.vpnState = w.vpnState := by
  obtain rfl := h.busy rfl hin
  -- the call tears the connection down, and is still to take its slot
  have hlane : (w.callers c).lane = some k := h.lane_of_live ((h.formed k).slot hfull).1
  have hfits : (w.callers c).Fits (w.connections k) := (h.held k hlane).2
  unfold advance
  cases hpc : w.callers c with
  | publishDisconnecting call lane retired =>
    rw [hpc] at hfits
    cases retired <;> exact absurd (hfull.symm.trans hfits.1) nofun
  | failPublish | publishDisconnected =>
    rw [hpc] at hlane
    cases hlane
  | retire call lane => rfl
  | tear call lane retired =>
    dsimp only
    unfold tearDown
    split_ifs <;> rfl
  | join call lane =>
    dsimp only
    unfold joinPump
    split <;> rfl
  | recheck uid superseded =>
    dsimp only
    unfold connectRecheck
    split_ifs <;> rfl
  | engine uid => cases answer <;> rfl
  | idle | entry | drainLoop => exact absurd (by rw [hpc]; rfl) hin
  | install | failClear | clearDisconnecting | clearDrain => rfl

/-! ## Other pumps -/

theorem framed_pump {k' : ℕ} (h : w.Agrees p) (answer : EngineAnswer) (hne : k' ≠ k) :
    (w.pumpStep k' answer).1.connections k = w.connections k ∧
      ((w.connections k).slot = true → (w.pumpStep k' answer).1.vpnState = w.vpnState) := by
  have hdone : (w.connections k).slot = true → (w.connections k').pc = .exited := fun hfull => by
    by_contra hrunning
    have hlane := h.lane_of_live ((h.formed k).slot hfull).1
    exact hne (Option.some.inj ((h.lane_of_pc hrunning).symm.trans hlane))
  have hcase := pumpStep_case w k' answer
  generalize w.pumpStep k' answer = r at hcase
  cases hcase with
  | exited => exact ⟨rfl, fun _ => rfl⟩
  | pumped vpn hpumped =>
    refine ⟨?_, fun hfull => absurd (hdone hfull) hpumped.before_ne⟩
    change (w.setConnection k' _).connections k = _
    rw [connections_set, if_neg (Ne.symm hne)]
  | retires hpc =>
    refine ⟨?_, fun hfull => absurd (hpc.symm.trans (hdone hfull)) nofun⟩
    unfold ConnectionLane.retireLane
    split_ifs <;> exact Function.update_of_ne (Ne.symm hne) _ _

/-- **What others do to a connection**: nothing is published while its slot is full. -/
theorem framed_step (hs : w.Sound) (hf : w.Fresh) {a : Action}
    (hother : ∀ answer, a ≠ .pump k answer) :
    Framed (w.connections k) ((w.step a).1.connections k) ∧
      ((w.connections k).slot = true → (w.step a).1.vpnState = w.vpnState) := by
  obtain ⟨⟨p, h⟩, ha⟩ := hs
  obtain ⟨p', hcase⟩ := step_case h ha a
  generalize w.step a = r at hcase
  cases hcase with
  | stays => exact ⟨.same, fun _ => rfl⟩
  | outside c hout hcase =>
    obtain ⟨hconns, -, hvpn⟩ := hcase.frame
    rw [hconns]
    exact ⟨.same, fun _ => hvpn⟩
  | work c answer hin =>
    exact ⟨framed_work hf c k answer hin, fun hfull => vpnState_work h hfull answer hin⟩
  | pump k' answer =>
    have hne : k' ≠ k := by
      rintro rfl
      exact hother answer rfl
    obtain ⟨hconn, hvpn⟩ := framed_pump h answer hne
    rw [hconn]
    exact ⟨.same, hvpn⟩

/-! ## Every step -/

theorem Framed.installer_none {conn conn' : Connection} (h : Framed conn conn')
    (hnone : conn'.installer = none) :
    conn.installer = none := by
  cases h with
  | same | takes | ends => exact hnone
  | starts fresh => exact fresh
  | installs => cases hnone

theorem Framed.unpumped {conn conn' : Connection} (h : Framed conn conn')
    (hnone : conn'.installer = none)
    (hbefore : conn.pump = {} ∧ conn.slot = false ∧ conn.pc = .exited) :
    conn'.pump = {} ∧ conn'.slot = false ∧ conn'.pc = .exited := by
  cases h with
  | same | ends => exact hbefore
  | takes => exact ⟨hbefore.1, rfl, hbefore.2.2⟩
  | starts => exact ⟨rfl, rfl, rfl⟩
  | installs => cases hnone

theorem install_work {uid : ℕ} (answer : Except String Unit) (hin : (w.callers c).window ≠ none)
    (hcall : (w.advance c answer).1.callers c = .install uid k) :
    ((w.advance c answer).1.connections k).installer = none := by
  have hgoto : ∀ (w' : ConnectionLane) (pc : CallPc), (w'.goto c pc).callers c = pc :=
    fun w' pc => by
    rw [callers_goto, if_pos rfl]
  unfold advance at hcall ⊢
  cases hpc : w.callers c with
  | idle | entry | drainLoop => exact absurd (by rw [hpc]; rfl) hin
  | retire call lane =>
    rw [hpc] at hcall
    cases call <;> cases (hgoto _ _).symm.trans hcall
  | tear call lane retired =>
    rw [hpc] at hcall
    dsimp only at hcall
    unfold tearDown at hcall
    split_ifs at hcall <;> cases (hgoto _ _).symm.trans hcall
  | join call lane =>
    rw [hpc] at hcall
    dsimp only at hcall
    unfold joinPump at hcall
    split at hcall
    · cases call <;> cases (hgoto _ _).symm.trans hcall
    · cases hpc.symm.trans hcall
  | recheck uid' superseded =>
    rw [hpc] at hcall
    dsimp only at hcall
    unfold connectRecheck at hcall
    split_ifs at hcall <;> cases (hgoto _ _).symm.trans hcall
  | engine uid' =>
    rw [hpc] at hcall
    cases answer with
    | error => cases (hgoto _ _).symm.trans hcall
    | ok =>
      cases (hgoto _ _).symm.trans hcall
      have hconn : (w.engineConnect c uid (.ok ())).1.connections w.started = { live := true } :=
        Function.update_self _ _ _
      exact congrArg Connection.installer hconn
  | publishDisconnecting | failPublish | failClear | publishDisconnected | clearDisconnecting | clearDrain | install =>
    rw [hpc] at hcall
    cases (hgoto _ _).symm.trans hcall

theorem installer_work (h : w.Agrees p) (answer : Except String Unit)
    (hin : (w.callers c).window ≠ none) :
    ((w.advance c answer).1.connections k).installer = (w.connections k).installer ∨
      k < (w.advance c answer).1.started := by
  have hset : ∀ (k' : ℕ) (conn : Connection), conn.installer = (w.connections k').installer →
      ((w.setConnection k' conn).connections k).installer = (w.connections k).installer :=
      fun k' conn hsame => by
    rw [connections_set]
    split_ifs with hk
    · rw [hk, hsame]
    · rfl
  unfold advance
  cases hpc : w.callers c with
  | idle | entry | drainLoop => exact absurd (by rw [hpc]; rfl) hin
  | retire call lane => exact .inl (hset lane { w.connections lane with slot := false } rfl)
  | tear call lane retired =>
    dsimp only
    unfold tearDown
    split_ifs
    · exact .inl (hset lane { w.connections lane with live := false } rfl)
    · exact .inl rfl
  | join call lane =>
    dsimp only
    unfold joinPump
    split <;> exact .inl rfl
  | recheck uid superseded =>
    dsimp only
    unfold connectRecheck
    split_ifs <;> exact .inl rfl
  | engine uid =>
    cases answer with
    | error => exact .inl rfl
    | ok =>
      by_cases hk : k = w.started
      · rw [hk]
        exact .inr (Nat.lt_succ_self w.started)
      · have hconn : (w.engineConnect c uid (.ok ())).1.connections k = w.connections k :=
          Function.update_of_ne hk _ _
        exact .inl (congrArg Connection.installer hconn)
  | install uid lane =>
    have hlast := (h.fits_of_lane hpc nofun rfl).1
    by_cases hk : k = lane
    · subst hk
      exact .inr (Nat.lt_of_succ_le hlast.le)
    · have hconn : (w.install c uid lane).1.connections k = w.connections k :=
        Function.update_of_ne hk _ _
      exact .inl (congrArg Connection.installer hconn)
  | publishDisconnecting | failPublish | failClear | publishDisconnected | clearDisconnecting | clearDrain =>
    exact .inl rfl

theorem installer_pump {k' : ℕ} (answer : EngineAnswer) :
    ((w.pumpStep k' answer).1.connections k).installer = (w.connections k).installer ∧
      (w.pumpStep k' answer).1.started = w.started := by
  have hset : ∀ conn : Connection, conn.installer = (w.connections k').installer →
      ((w.setConnection k' conn).connections k).installer = (w.connections k).installer :=
      fun conn hsame => by
    rw [connections_set]
    split_ifs with hk
    · rw [hk, hsame]
    · rfl
  have hcase := pumpStep_case w k' answer
  generalize w.pumpStep k' answer = r at hcase
  cases hcase with
  | exited => exact ⟨rfl, rfl⟩
  | @pumped conn vpn _ hpumped =>
    have hsame : conn.installer = (w.connections k').installer := by cases hpumped <;> rfl
    exact ⟨hset conn hsame, rfl⟩
  | retires =>
    unfold ConnectionLane.retireLane
    split_ifs <;> exact ⟨hset { w.connections k' with pc := .exited } rfl, rfl⟩

/-- A pump that runs has an installed connection. -/
theorem Fresh.pump (hf : w.Fresh) {k' : ℕ} (answer : EngineAnswer)
    (hnone : ((w.pumpStep k' answer).1.connections k).installer = none) :
    (w.pumpStep k' answer).1.connections k = w.connections k := by
  rw [(installer_pump answer).1] at hnone
  have hexited := (hf.unpumped k hnone).2.2
  have hcase := pumpStep_case w k' answer
  generalize w.pumpStep k' answer = r at hcase
  cases hcase with
  | exited => rfl
  | pumped vpn hpumped =>
    refine Function.update_of_ne ?_ _ _
    rintro rfl
    exact hpumped.before_ne hexited
  | retires hpc =>
    have hne : k ≠ k' := by
      rintro rfl
      cases hpc.symm.trans hexited
    unfold ConnectionLane.retireLane
    split_ifs <;> exact Function.update_of_ne hne _ _

/-- **Every step installs a fresh connection, or none.** -/
theorem fresh_step (hs : w.Sound) (hf : w.Fresh) (a : Action) : (w.step a).1.Fresh := by
  obtain ⟨⟨p, h⟩, ha⟩ := hs
  obtain ⟨p', hcase⟩ := step_case h ha a
  generalize w.step a = r at hcase
  cases hcase with
  | stays => exact hf
  | outside c hout hcase =>
    obtain ⟨hconns, hstarted, -⟩ := hcase.frame
    have hcallers : ∀ c' uid k, r.1.callers c' = .install uid k →
      w.callers c' = .install uid k := by
      intro c' uid k hcall
      have hgoto : ∀ pc : CallPc, pc ≠ .install uid k →
        Function.update w.callers c pc c' = .install uid k →
          w.callers c' = .install uid k := by
        intro pc hpc hcall
        rw [Function.update_apply] at hcall
        split_ifs at hcall
        · exact absurd hcall hpc
        · exact hcall
      cases hcase with
      | idle => exact hcall
      | calls call => exact hgoto (.entry call) nofun hcall
      | arms => exact hgoto .drainLoop nofun hcall
      | entry call _ hcase =>
        cases hcase with
        | waits => exact hcall
        | refused | empty => exact hgoto .idle nofun hcall
        | takes k' => exact hgoto (.retire call k') nofun hcall
        | opens uid' => exact hgoto (.recheck uid' false) nofun hcall
    refine ⟨fun k hk => ?_, fun k hnone => ?_, fun c' uid k hcall => ?_⟩
    · rw [hconns]
      exact hf.unstarted k (hstarted ▸ hk)
    · rw [hconns] at hnone ⊢
      exact hf.unpumped k hnone
    · rw [hconns]
      exact hf.install c' uid k (hcallers c' uid k hcall)
  | work c answer hin =>
    refine ⟨fun k hk => ?_, fun k hnone => ?_, fun c' uid k hcall => ?_⟩
    · rcases installer_work h answer hin (k := k) with hsame | hlt
      · rw [hsame]
        refine hf.unstarted k (le_trans ?_ hk)
        exact (tears_work hin answer).mono
      · exact absurd hk (not_le.mpr hlt)
    · have hframed := framed_work hf c k answer hin
      exact hframed.unpumped hnone (hf.unpumped k (hframed.installer_none hnone))
    · -- the call that installs is the one that is in its window
      have hbusy : w.phaseAfter c (w.callers c) = .busy c' :=
        ((h.work rfl hin answer).calls c').mp (by rw [hcall]; nofun)
      have hc : c' = c := by
        unfold phaseAfter at hbusy
        split at hbusy
        · split_ifs at hbusy
          cases hbusy
          rfl
        · cases hbusy
        · cases hbusy
        · cases hbusy
        · cases hbusy
        · cases hbusy
          rfl
      rw [hc] at hcall
      exact install_work answer hin hcall
  | pump k' answer =>
    refine ⟨fun k hk => ?_, fun k hnone => ?_, fun c' uid k hcall => ?_⟩
    · rw [(installer_pump answer).1]
      exact hf.unstarted k ((installer_pump (k := k) answer).2 ▸ hk)
    · rw [hf.pump answer hnone]
      rw [(installer_pump answer).1] at hnone
      exact hf.unpumped k hnone
    · rw [(installer_pump answer).1]
      rw [(pumpStep_frame w k' answer).1] at hcall
      exact hf.install c' uid k hcall

theorem fresh_new : ConnectionLane.new.Fresh :=
  ⟨fun _ _ => rfl, fun _ _ => ⟨rfl, rfl, rfl⟩, nofun⟩

end

end ProtonWire.ConnectionLane
