import ProtonWire.Lane.Steps

/-!
# One connection, one owner

* `Emits`: what a step that emits an event has done;
* **`single_connection_single_owner`**: at most one connection is live, it is its owner's, and only
  its owner or a drain retires it;
* **`drain_is_final`**: once a drain has returned nothing is live and nothing starts.
-/

namespace ProtonWire

/-- The event starts or installs a connection. -/
def LaneEvent.starts : LaneEvent → Bool
  | started _ _ | installed _ _ _ => true
  | _ => false

namespace ConnectionLane

section
variable {w : ConnectionLane} {p : Phase} {c k : ℕ}

/-! ## Liveness of connections -/

/-- A connection stays live until its disconnect completes, and is live when it is started. -/
structure Tears (w : ConnectionLane) (r : ConnectionLane × List LaneEvent) : Prop where
  live : ∀ k, (w.connections k).live = true → (r.1.connections k).live = true ∨
    .disconnected k ∈ r.2
  started : ∀ k, k < r.1.started → k < w.started ∨ (r.1.connections k).live = true
  mono : w.started ≤ r.1.started

theorem tears_of_live {r : ConnectionLane × List LaneEvent} (hstarted : r.1.started = w.started)
    (hlive : ∀ k, (r.1.connections k).live = (w.connections k).live) : Tears w r :=
  ⟨fun k hk => Or.inl ((hlive k).trans hk), fun _ hk => Or.inl (hstarted ▸ hk), hstarted.ge⟩

/-- One connection changes, and completes its disconnect if it is no longer live. -/
theorem tears_of_set {w' : ConnectionLane} {conn : Connection} {events : List LaneEvent}
    (hstarted : w'.started = w.started)
    (hconns : w'.connections = Function.update w.connections k conn)
    (hlive : conn.live = (w.connections k).live ∨ .disconnected k ∈ events) :
    Tears w (w', events) := by
  refine ⟨fun k' hk' => ?_, fun k' hk' => Or.inl (hstarted ▸ hk'), hstarted.ge⟩
  dsimp only
  rw [hconns, Function.update_apply]
  split_ifs with hk
  · rw [hk] at hk' ⊢
    exact hlive.imp_left fun heq => heq.trans hk'
  · exact Or.inl hk'

theorem tears_work (hin : (w.callers c).window ≠ none) (answer : Except String Unit) :
    Tears w (w.advance c answer) := by
  unfold advance
  cases hpc : w.callers c with
  | idle | entry | drainLoop =>
    rw [hpc] at hin
    exact absurd rfl hin
  | retire call k => exact tears_of_set rfl rfl (Or.inl rfl)
  | tear call k retired =>
    dsimp only
    unfold tearDown
    split_ifs
    · exact tears_of_set rfl rfl (Or.inr List.mem_cons_self)
    · exact tears_of_live rfl fun _ => rfl
  | join call k =>
    dsimp only
    unfold joinPump
    split <;> exact tears_of_live rfl fun _ => rfl
  | recheck uid superseded =>
    dsimp only
    unfold connectRecheck
    split_ifs <;> exact tears_of_live rfl fun _ => rfl
  | engine uid =>
    cases answer with
    | error => exact tears_of_live rfl fun _ => rfl
    | ok =>
      have hconns : ∀ k, ((w.engineConnect c uid (.ok ())).1.connections k) =
          if k = w.started then { live := true } else w.connections k := fun k =>
        Function.update_apply _ _ _ _
      refine ⟨fun k hk => Or.inl ?_, fun k hk => ?_, Nat.le_succ _⟩
      · dsimp only
        rw [hconns]
        split_ifs
        · rfl
        · exact hk
      · rcases Nat.lt_succ_iff_lt_or_eq.mp hk with hlt | rfl
        · exact Or.inl hlt
        · refine Or.inr ?_
          dsimp only
          rw [hconns, if_pos rfl]
  | install uid k => exact tears_of_set rfl rfl (Or.inl rfl)
  | publishDisconnecting | failPublish | failClear | publishDisconnected | clearDisconnecting | clearDrain =>
    exact tears_of_live rfl fun _ => rfl

theorem tears_pump (k : ℕ) (answer : EngineAnswer) : Tears w (w.pumpStep k answer) := by
  have hcase := pumpStep_case w k answer
  generalize w.pumpStep k answer = r at hcase
  cases hcase with
  | exited => exact tears_of_live rfl fun _ => rfl
  | pumped vpn hpumped _ _ hevents =>
    refine tears_of_set rfl rfl ?_
    rcases hevents with ⟨-, hlive⟩ | ⟨rfl, -⟩
    · exact Or.inl hlive
    · exact Or.inr List.mem_cons_self
  | retires =>
    unfold ConnectionLane.retireLane
    split_ifs <;> exact tears_of_set rfl rfl (Or.inl rfl)

theorem tears_step {a : Action} {r : ConnectionLane × List LaneEvent} {p' : Phase}
    (hcase : StepCase w p a r p') : Tears w r := by
  cases hcase with
  | stays => exact tears_of_live rfl fun _ => rfl
  | outside c hout hcase =>
    obtain ⟨hconns, hstarted, -⟩ := hcase.frame
    exact tears_of_live hstarted fun k => by rw [hconns]
  | work c answer hin => exact tears_work hin answer
  | pump k answer => exact tears_pump k answer

/-- Every connection started so far is live or has completed its disconnect. -/
structure Accounted (w : ConnectionLane) (h : List LaneEvent) : Prop where
  torn : ∀ k, k < w.started → (w.connections k).live = true ∨ .disconnected k ∈ h
  counted : ∀ c k, .started c k ∈ h → k < w.started

/-! ## Events -/

/-- What a step that emits an event has done. -/
def Emits (w : ConnectionLane) (r : ConnectionLane × List LaneEvent) : LaneEvent → Prop
  | .retired _ call owner _ => owner = w.state.owner ∧ (call.uid = none ∨ owner = call.uid)
  | .started _ k => r.1.started = w.started + 1 ∧ k = w.started ∧ ∀ k', (w.connections k').Done
  | .returned c .drain result =>
    r.2 = [.returned c .drain result] ∧ r.1.draining = true ∧ r.1.Agrees .free
  | _ => True

theorem emits_outside {r : ConnectionLane × List LaneEvent} {p' : Phase} (h : w.Agrees p)
    (hout : (w.callers c).window = none) (hcase : OutsideCase w c p r p') :
    ∀ e ∈ r.2, Emits w r e := by
  have hagrees := h.outside hout hcase
  cases hcase with
  | idle | calls | arms => exact nofun
  | entry call harmed hcase =>
    cases hcase with
    | refused error uid =>
      intro e he
      rw [List.mem_singleton.mp he]
      cases call with
      | drain => exact absurd rfl uid
      | _ => trivial
    | waits | opens => exact nofun
    | takes k howner =>
      intro e he
      rw [List.mem_singleton.mp he]
      exact ⟨rfl, howner⟩
    | empty =>
      intro e he
      rw [List.mem_singleton.mp he]
      cases call with
      | drain => exact ⟨rfl, harmed rfl, hagrees⟩
      | _ => trivial

theorem emits_work (h : w.Agrees p) (ha : w.Armed) (hin : (w.callers c).window ≠ none)
    (answer : Except String Unit) :
    ∀ e ∈ (w.advance c answer).2, Emits w (w.advance c answer) e := by
  have hagrees := h.work rfl hin answer
  have hdone := h.done_of_lane_none rfl hin
  revert hagrees
  unfold advance
  cases hpc : w.callers c with
  | idle | entry | drainLoop =>
    rw [hpc] at hin
    exact absurd rfl hin
  | retire | publishDisconnecting | join | failPublish | publishDisconnected => exact fun _ => nofun
  | tear call k retired =>
    intro _
    dsimp only
    unfold tearDown
    split_ifs
    · intro e he
      rw [List.mem_singleton.mp he]
      trivial
    · exact nofun
  | recheck uid superseded =>
    intro _
    dsimp only
    unfold connectRecheck
    split_ifs
    · intro e he
      rw [List.mem_singleton.mp he]
      trivial
    · exact nofun
  | engine uid =>
    intro _
    rw [hpc] at hdone
    cases answer with
    | error => exact nofun
    | ok =>
      intro e he
      rw [List.mem_singleton.mp he]
      exact ⟨rfl, rfl, hdone rfl⟩
  | install uid k =>
    intro _ e he
    simp only [install, List.mem_cons, List.not_mem_nil, or_false] at he
    rcases he with rfl | rfl <;> trivial
  | failClear | clearDisconnecting =>
    intro _ e he
    rw [List.mem_singleton.mp he]
    trivial
  | clearDrain =>
    intro hagrees e he
    rw [List.mem_singleton.mp he]
    exact ⟨rfl, ha c (by rw [hpc]; rfl), hagrees⟩

theorem emits_step {a : Action} {r : ConnectionLane × List LaneEvent} {p' : Phase} (h : w.Agrees p)
    (ha : w.Armed) (hcase : StepCase w p a r p') : ∀ e ∈ r.2, Emits w r e := by
  cases hcase with
  | stays => exact nofun
  | outside c hout hcase => exact emits_outside h hout hcase
  | work c answer hin => exact emits_work h ha hin answer
  | pump k answer =>
    have hcase := pumpStep_case w k answer
    generalize w.pumpStep k answer = r at hcase
    cases hcase with
    | exited | retires => exact nofun
    | pumped vpn hpumped _ _ hevents =>
      rcases hevents with ⟨rfl, -⟩ | ⟨rfl, -⟩
      · exact nofun
      · intro e he
        rw [List.mem_singleton.mp he]
        trivial

/-- **What a step of a run that emits an event has done.** -/
theorem Sound.emits (hs : w.Sound) {a : Action} {e : LaneEvent} (he : e ∈ (w.step a).2) :
    Emits w (w.step a) e := by
  obtain ⟨⟨p, hp⟩, ha⟩ := hs
  obtain ⟨p', hcase⟩ := step_case hp ha a
  exact emits_step hp ha hcase e he

theorem accounted_step {h : List LaneEvent} (hs : w.Sound) (hacc : w.Accounted h) (a : Action) :
    (w.step a).1.Accounted (h ++ (w.step a).2) := by
  have ht : Tears w (w.step a) := by
    obtain ⟨⟨p, hp⟩, ha⟩ := hs
    obtain ⟨p', hcase⟩ := step_case hp ha a
    exact tears_step hcase
  refine ⟨fun k hk => ?_, fun c k hmem => ?_⟩
  · rcases ht.started k hk with hold | hnew
    · rcases hacc.torn k hold with hlive | hmem
      · exact (ht.live k hlive).imp_right (List.mem_append_right _)
      · exact Or.inr (List.mem_append_left _ hmem)
    · exact Or.inl hnew
  · rcases List.mem_append.mp hmem with hold | hnew
    · exact (hacc.counted c k hold).trans_le ht.mono
    · obtain ⟨hnext, rfl, -⟩ := hs.emits hnew
      rw [hnext]
      exact Nat.lt_succ_self _

/-! ## After a drain -/

theorem drained_step (hdraining : w.draining = true) (h : w.Agrees .free) (ha : w.Armed)
    (a : Action) :
    (w.step a).1.draining = true ∧ (w.step a).1.Agrees .free ∧
    ∀ e ∈ (w.step a).2, e.starts = false := by
  obtain ⟨p', hcase⟩ := step_case h ha a
  have hagrees := h.step hcase
  generalize w.step a = r at hcase hagrees
  cases hcase with
  | stays => exact ⟨hdraining, h, nofun⟩
  | outside c hout hcase =>
    cases hcase with
    | idle | calls => exact ⟨hdraining, hagrees, nofun⟩
    | arms => exact ⟨rfl, hagrees, nofun⟩
    | entry call harmed hcase =>
      cases hcase with
      | refused | empty =>
        refine ⟨hdraining, hagrees, fun e he => ?_⟩
        rw [List.mem_singleton.mp he]
        rfl
      | waits => exact ⟨hdraining, hagrees, nofun⟩
      | opens _ _ hnot => exact absurd (hnot.symm.trans hdraining) nofun
  | work c answer hin => exact absurd ((h.calls c).mp hin) nofun
  | pump k answer =>
    have hstay : w.pumpStep k answer = (w, []) := by simp only [pumpStep, (h.done k nofun).pc]
    rw [hstay]
    exact ⟨hdraining, h, nofun⟩

theorem drained_run (hdraining : w.draining = true) (h : w.Agrees .free) (ha : w.Armed)
    (actions : List Action) :
    (Machine.run step w actions).1.Agrees .free ∧ ∀ e ∈ (Machine.run step w actions).2,
    e.starts = false := by
  have hrun := Machine.run_inv (fun w h =>
    (ConnectionLane.draining w = true ∧ Agrees w .free ∧ Armed w) ∧
      ∀ e ∈ h, LaneEvent.starts e = false)
    (fun w h a hw => by
      obtain ⟨⟨hd, hf, ha⟩, hh⟩ := hw
      obtain ⟨hd', hf', he⟩ := drained_step hd hf ha a
      refine ⟨⟨hd', hf', (sound_step ⟨⟨_, hf⟩, ha⟩ a).armed⟩, fun e hmem => ?_⟩
      exact (List.mem_append.mp hmem).elim (hh e) (he e)) w [] ⟨⟨hdraining, h, ha⟩, nofun⟩ actions
  rw [List.nil_append] at hrun
  exact ⟨hrun.1.2.1, hrun.2⟩

/-! ## Every run -/

theorem sound_accounted_run (actions : List Action) :
    (run actions).1.Sound ∧ (run actions).1.Accounted (run actions).2 := by
  have := Machine.run_inv (fun w h => Sound w ∧ Accounted w h)
    (fun w h a hw => ⟨sound_step hw.1 a, accounted_step hw.1 hw.2 a⟩) new []
    ⟨sound_new, nofun, nofun⟩ actions
  rwa [List.nil_append] at this

/-- **One connection, one owner**, in any interleaving of the calls and the pumps. The live
connection is the last one started, and one is started only after the disconnect of every earlier
one completed; a recorded owner has an active lane, which it installed; and a call that retires the
active lane is a drain or acts for the recorded owner. -/
theorem single_connection_single_owner (actions : List Action) :
    (∀ k k', ((run actions).1.connections k).live = true →
      ((run actions).1.connections k').live = true → k = k') ∧
    (∀ pre c k post, (run actions).2 = pre ++ .started c k :: post →
      ∀ k' < k, .disconnected k' ∈ pre) ∧
    (∀ uid, (run actions).1.state.owner = some uid → ∃ k, (run actions).1.state.active = some k ∧
      ((run actions).1.connections k).installer = some uid) ∧
    ∀ c call owner k, .retired c call owner k ∈ (run actions).2 →
      call = .drain ∨ ∃ uid, owner = some uid ∧ (call = .connect uid ∨ call = .disconnect uid) := by
  obtain ⟨⟨⟨p, hp⟩, -⟩, -⟩ := sound_accounted_run actions
  refine ⟨fun k k' hk hk' => ?_, fun pre c k post heq k' hlt => ?_, fun uid howner => ?_,
    fun c call owner k hmem => ?_⟩
  · exact Option.some.inj ((hp.lane_of_live hk).symm.trans (hp.lane_of_live hk'))
  · -- at the step that starts it every connection is done, each one started before accounted for
    obtain ⟨as₁, a, as₂, u, v, rfl, hevents, rfl, -⟩ :=
      Machine.exists_step_of_eq_append _ _ _ _ _ heq
    obtain ⟨hs, hacc⟩ := sound_accounted_run as₁
    have hstarted : LaneEvent.started c k ∈ (step (run as₁).1 a).2 := by simp [run, hevents]
    obtain ⟨-, rfl, hdone⟩ := hs.emits hstarted
    refine List.mem_append_left _ ((hacc.torn k' hlt).resolve_left fun hlive => ?_)
    exact absurd (hlive.symm.trans (hdone k').live) nofun
  · cases hactive : (run actions).1.state.active with
    | none =>
      rw [hp.owner_none hactive] at howner
      cases howner
    | some k => exact ⟨k, rfl, (hp.of_active hactive).2.symm.trans howner⟩
  · obtain ⟨pre, post, heq⟩ := List.append_of_mem hmem
    obtain ⟨as₁, a, as₂, u, v, rfl, hevents, -, -⟩ := Machine.exists_step_of_eq_append _ _ _ _ _ heq
    obtain ⟨hs, -⟩ := sound_accounted_run as₁
    have hmem : LaneEvent.retired c call owner k ∈ (step (run as₁).1 a).2 := by simp [run, hevents]
    obtain ⟨-, howner⟩ := hs.emits hmem
    cases call with
    | drain => exact Or.inl rfl
    | connect uid => exact Or.inr ⟨uid, howner.resolve_left nofun, Or.inl rfl⟩
    | disconnect uid => exact Or.inr ⟨uid, howner.resolve_left nofun, Or.inr rfl⟩

/-- **A drain is final**: once one has returned no connection is live, every connection ever started
had completed its disconnect by then, and nothing is started or installed afterwards. -/
theorem drain_is_final (actions : List Action) (pre post : List LaneEvent) (c : ℕ)
    (result : Except LaneError Unit)
    (h : (run actions).2 = pre ++ .returned c .drain result :: post) :
    (∀ k, ((run actions).1.connections k).live = false) ∧
      (∀ c' k, .started c' k ∈ (run actions).2 → .disconnected k ∈ pre) ∧
      ∀ e ∈ post, e.starts = false := by
  obtain ⟨as₁, a, as₂, u, v, rfl, hevents, rfl, rfl⟩ := Machine.exists_step_of_eq_append _ _ _ _ _ h
  obtain ⟨hs, -⟩ := sound_accounted_run as₁
  obtain ⟨-, hacc⟩ := sound_accounted_run (as₁ ++ [a])
  -- the return is the only event of its step, and leaves the lane drained and free
  have hmem : LaneEvent.returned c .drain result ∈ (step (run as₁).1 a).2 := by simp [run, hevents]
  obtain ⟨hsingle, hdraining, hfree⟩ := hs.emits hmem
  have hall : u ++ LaneEvent.returned c .drain result :: v = [.returned c .drain result] :=
    hevents.symm.trans hsingle
  obtain ⟨rfl, hv⟩ : u = [] ∧ v = [] := by
    cases u with
    | nil => exact ⟨rfl, (List.cons.inj hall).2⟩
    | cons e u => exact absurd (List.cons.inj hall).2 (by simp)
  obtain ⟨hafter, hquiet⟩ := drained_run hdraining hfree (sound_step hs a).armed as₂
  have hsplit : run (as₁ ++ a :: as₂) = ((Machine.run step (step (run as₁).1 a).1 as₂).1,
      (run as₁).2 ++ ((step (run as₁).1 a).2 ++
       (Machine.run step (step (run as₁).1 a).1 as₂).2)) := by
    unfold run
    rw [Machine.run_append, Machine.run_cons]
  have hsnoc : run (as₁ ++ [a]) = ((step (run as₁).1 a).1, (run as₁).2 ++ (step (run as₁).1 a).2) :=
    Machine.run_snoc _ _ _
  rw [hsnoc, hsingle] at hacc
  refine ⟨fun k => ?_, fun c' k hmem => ?_, fun e he => ?_⟩
  · rw [hsplit]
    exact (hafter.done k nofun).live
  · have hstarted : .started c' k ∈ (run as₁).2 := by
      rw [hsplit, hsingle] at hmem
      simp only [List.mem_append, List.mem_singleton, reduceCtorEq, false_or] at hmem
      exact hmem.resolve_right fun hlate => absurd (hquiet _ hlate) nofun
    have hk := hacc.counted c' k (List.mem_append_left _ hstarted)
    have hmem' := (hacc.torn k hk).resolve_left fun hlive =>
      absurd (hlive.symm.trans (hfree.done k nofun).live) nofun
    simpa [run] using hmem'
  · rw [hv, List.nil_append] at he
    exact hquiet e he

end

/-- The engine reports a state. -/
def reports (state : EngineConnectionState) : EngineAnswer :=
  ⟨.event (.state state), .empty, [], 0, some state⟩

/-- User 7 connects, the engine reports `Connected`, and the daemon drains. -/
def drainedRun : List Action :=
  [.call 0 (.connect 7), .advance 0 (.ok ()), .advance 0 (.ok ()), .advance 0 (.ok ()),
   .advance 0 (.ok ()), .pump 0 (reports .connected), .pump 0 (reports .connected),
   .pump 0 (reports .connected), .call 1 .drain, .advance 1 (.ok ()), .advance 1 (.ok ()),
   .advance 1 (.ok ()), .advance 1 (.ok ()), .pump 0 (reports .connected),
   .pump 0 (reports .connected), .advance 1 (.ok ()), .advance 1 (.ok ())]

theorem drain_is_final_drainedRun :
    (run drainedRun).2 = [.started 0 0, .installed 0 7 0, .returned 0 (.connect 7) (.ok ()),
        .retired 1 .drain (some 7) 0, .disconnected 0, .returned 1 .drain (.ok ())] ∧
      ∀ k, ((run drainedRun).1.connections k).live = false :=
  ⟨rfl, (drain_is_final drainedRun [.started 0 0, .installed 0 7 0,
    .returned 0 (.connect 7) (.ok ()),
    .retired 1 .drain (some 7) 0, .disconnected 0] [] 1 (.ok ()) rfl).1⟩

end ConnectionLane

end ProtonWire
