import ProtonWire.Engine.Epochs

/-!
# Ledger honesty

* `Confirmed`: a report of the last state callback, which entered after the latest update;
* **`ledger_honest`**: the applied set is one, and the table lists what it does not confirm.
-/

namespace ProtonWire.Engine.ForwardingLane

variable {π : Type}

/-- A set is the agent report of the last state callback that did its ledger step, and that
callback's snapshot was taken after the latest update. -/
def Confirmed (history : List (Trace π)) (report : EngineAgentSettings) : Prop :=
  ∃ past mid since : List (Trace π), history = past ++
    .entered :: (mid ++ .reported (some report) :: since) ∧
    .entered ∉ mid ∧ .advanced ∉ mid ∧ .advanced ∉ since ∧ ∀ other, .reported other ∉ since

variable {lane lane' : ForwardingLane π} {history trace : List (Trace π)}

theorem confirmed_step (hepochs : Epochs lane history) (h : StepCase lane lane' trace)
    (hconfirmed : ∀ report, lane.ledger.applied = some report → Confirmed history report)
    {report : EngineAgentSettings} (happlied : lane'.ledger.applied = some report) :
    Confirmed (history ++ trace) report := by
  rcases h.applied_cases happlied with ⟨rfl, hcurrent⟩ | ⟨hbefore, hadvanced, hstale⟩
  · have hentered := hepochs.entered _ hcurrent
    rw [← hepochs.updates] at hentered
    obtain ⟨past, mid, rfl, hmid, hquiet⟩ := hentered.quiet
    exact ⟨past, mid,
      [], by rw [List.append_assoc, List.cons_append], hmid, hquiet, by simp, by simp⟩
  · obtain ⟨past, mid, since, rfl, hmid, hquiet, hsince, hlast⟩ := hconfirmed report hbefore
    refine ⟨past, mid, since ++ trace, by simp, hmid, hquiet, ?_, fun other hmem => ?_⟩
    · exact fun hmem => (List.mem_append.mp hmem).elim hsince hadvanced
    · rcases List.mem_append.mp hmem with hold | hnew
      · exact hlast other hold
      · -- a stale report finds nothing applied
        obtain ⟨epoch, hepoch, hne⟩ := hstale other hnew
        rw [hepochs.stale epoch hepoch hne] at hbefore
        cases hbefore

/-- How an honest ledger stands to its history. -/
structure Honest (lane : ForwardingLane π) (history : List (Trace π)) : Prop where
  applied : ∀ report, lane.ledger.applied = some report → Confirmed history report
  /-- The table lists what is requested and not confirmed by the applied set. -/
  listed : ∀ d, d ∈ lane.ledger.divergences ↔
    lane.ledger.requested.value d.setting = some d.requested ∧
    lane.ledger.confirmed d.setting = d.applied ∧ d.applied ≠ some d.requested
  once : (lane.ledger.divergences.map FeatureDivergence.setting).Nodup

/-- **The ledger is honest**, along every run. -/
theorem ledger_honest (π : Type) (capacity : ℕ) (requested : EngineAgentSettings)
    (actions : List (Action π)) :
    Honest (Machine.run step (ForwardingLane.new π capacity requested) actions).1
      (Machine.run step (ForwardingLane.new π capacity requested) actions).2 := by
  have hrun := Machine.run_inv
    (fun lane history => Epochs lane history ∧ ∀ report, lane.ledger.applied = some report →
     Confirmed history report)
    (fun lane history action hinv => by
      have h := stepCase_step lane action
      exact ⟨hinv.1.step h, fun report happlied => confirmed_step hinv.1 h hinv.2 happlied⟩)
    (ForwardingLane.new π capacity requested) [] ⟨epochs_new π capacity requested, nofun⟩ actions
  exact ⟨hrun.2, FeatureReconciliation.mem_divergences_iff _,
    FeatureReconciliation.divergences_nodup _⟩

end ProtonWire.Engine.ForwardingLane
