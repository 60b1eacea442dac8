import ProtonWire.Selection.Select

/-!
# What the hard filters read

* `SameFilters`, `SameFacts`: requests and contexts the hard filters cannot tell apart;
* **`filterCandidates_congr`**: the hard filters read the target, the constraints, the tier and,
  where the request uses them, the port-forwarding facts;
* `leavesCandidate_of_select`: a selection passed the hard filters.
-/

namespace ProtonWire

open Fallible

/-- Two requests with the same target and the same constraints. -/
structure SameFilters (request request' : SelectionRequest) : Prop where
  target : request'.target = request.target
  constraints : request'.constraints = request.constraints

/-- Two contexts with the same tier, and the same port-forwarding facts where the request uses
them. -/
structure SameFacts (request : SelectionRequest) (context context' : SelectionContext) : Prop where
  tier : context'.accountTier = context.accountTier
  portForwarding : needsPortForwardingComposition request = true →
    context'.portForwardingEntitled = context.portForwardingEntitled ∧
      context'.portForwardingCapable = context.portForwardingCapable

section
variable {request request' : SelectionRequest} {context context' : SelectionContext}

theorem validateRequest_congr (hr : SameFilters request request')
    (hc : SameFacts request context context') :
    validateRequest request' context' = validateRequest request context := by
  have hneeds : needsPortForwardingComposition request' =
    needsPortForwardingComposition request := by
    unfold needsPortForwardingComposition
    rw [hr.constraints]
  have huncomposed : (needsPortForwardingComposition request && uncomposed context') =
      (needsPortForwardingComposition request && uncomposed context) := by
    cases hpf : needsPortForwardingComposition request with
    | false => rfl
    | true =>
      obtain ⟨hentitled, hcapable⟩ := hc.portForwarding hpf
      unfold uncomposed
      rw [hentitled, hcapable]
  unfold validateRequest validateRequestCountries
  rw [hneeds, huncomposed, hr.target, hr.constraints]

theorem requiredFeaturesStage_congr (hc : SameFacts request context context') (s : LogicalServer) :
    requiredFeaturesStage s request.constraints context' =
    requiredFeaturesStage s request.constraints context := by
  have hholds : ∀ feature ∈ request.constraints.requiredFeatures,
      featureHolds s feature context' = featureHolds s feature context := by
    intro feature hfeature
    cases feature with
    | portForwarding =>
      have hneeds : needsPortForwardingComposition request = true :=
        List.any_eq_true.mpr ⟨_, List.mem_append_left _ hfeature, rfl⟩
      obtain ⟨hentitled, hcapable⟩ := hc.portForwarding hneeds
      unfold featureHolds pfHoldsFor
      dsimp only
      rw [hentitled, hcapable]
    | _ => rfl
  unfold requiredFeaturesStage
  congr 1
  rw [Bool.eq_iff_iff, List.any_eq_true, List.any_eq_true]
  exact exists_congr fun feature => and_congr_right fun hfeature => by rw [hholds feature hfeature]

theorem eliminatingStage_congr (hr : SameFilters request request')
    (hc : SameFacts request context context') (s : LogicalServer) :
    eliminatingStage s request' context' = eliminatingStage s request context := by
  have htier : accountTierStage s context' = accountTierStage s context := by
    unfold accountTierStage
    rw [hc.tier]
  unfold eliminatingStage
  rw [hr.target, hr.constraints, htier, requiredFeaturesStage_congr hc]

theorem filterLoop_congr (hr : SameFilters request request')
    (hc : SameFacts request context context')
    (l : List LogicalServer) (counts : List ℕ) (kept : List LogicalServer) :
    filterLoop request' context' l counts kept = filterLoop request context l counts kept := by
  induction l generalizing counts kept with
  | nil => rfl
  | cons s l ih =>
    unfold filterLoop
    rw [eliminatingStage_congr hr hc]
    simp only [ih]

/-- The hard filters read the target, the constraints, the tier and the port-forwarding facts. -/
theorem filterCandidates_congr (hr : SameFilters request request')
    (hc : SameFacts request context context') (catalog : CatalogDocument) :
    filterCandidates catalog request' context' = filterCandidates catalog request context := by
  have hrefusal : exactRefusal catalog request' context' =
    exactRefusal catalog request context := by
    unfold exactRefusal
    rw [hr.target]
    simp only [eliminatingStage_congr hr hc]
  unfold filterCandidates
  rw [validateRequest_congr hr hc, filterLoop_congr hr hc, hrefusal, hr.target]

end

/-- The hard filters leave a candidate. -/
def LeavesCandidate (catalog : CatalogDocument) (request : SelectionRequest)
    (context : SelectionContext) : Prop :=
  ∃ survivors report, filterCandidates catalog request context = .ok (survivors, report) ∧
    survivors ≠ []

theorem leavesCandidate_of_select {catalog : CatalogDocument}
    (hl : ∀ s ∈ catalog.logicalServers, s.InDomain)
    {request : SelectionRequest} {context : SelectionContext} {outcome : SelectionOutcome}
    (h : select catalog request context = .ok outcome) :
    LeavesCandidate catalog request context := by
  obtain ⟨hv, ranked, -, hperm, hend⟩ :=
    rankSurvivors_of_select request context hl h (fun fault hf => by cases hf)
  have hne : survivors request context catalog.logicalServers ≠ [] := by
    intro hnil
    have hranked : ranked = [] := by
      unfold rankable at hperm
      rw [hnil] at hperm
      exact List.map_eq_nil_iff.mp (List.perm_nil.mp hperm)
    rw [hranked] at hend
    cases hend
  have hkept : (survivors request context catalog.logicalServers).isEmpty = false :=
    Bool.eq_false_iff.mpr fun hempty => hne (List.isEmpty_iff.mp hempty)
  refine ⟨_, hardReport request context catalog.logicalServers, ?_, hne⟩
  rw [filterCandidates_eq request context catalog hl hv, hkept, Bool.and_false]
  rfl

end ProtonWire
