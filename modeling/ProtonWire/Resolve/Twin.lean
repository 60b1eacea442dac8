import ProtonWire.Resolve.Winner

/-!
# The availability twin

`group_availability` evaluates a group as `resolve` does, with its own composition: no ranking
override, no port-forwarding facts, and the gates in another order.

* `composeRequest_plain`: the request of a group without modifiers;
* `groupAvailability_document`: the twin over a catalog;
* **`groupAvailability_iff`**: a group is available exactly when `resolve` passes its gates and its
  hard filters leave a candidate;
* `available_of_resolve`: what resolves is available.
-/

namespace ProtonWire

open Fallible

/-! ## A group without modifiers -/

section
variable {config : SystemConfig} {catalog : CatalogDocument} {entitlements : Option VpnEntitlements}
  {location : Option String} {entry : GroupEntry}

theorem mergeGroupModifiers_plain (groupId : String) (request : SelectionRequest) :
    mergeGroupModifiers groupId request {} = .ok request := by
  unfold mergeGroupModifiers
  simp

theorem configuredRegionalDefault_of_regional (hentry : entry ∈ registry)
    (hregional : entry.entitlement = .paidLocationSelection) :
    configuredRegionalDefault config entry.id =
      if config.regionalDefaultRanking ≠ .protonScore then some config.regionalDefaultRanking.asStr
      else none := by
  unfold configuredRegionalDefault
  rw [group_id hentry]
  simp [hregional]

theorem configuredRegionalDefault_of_not_regional (hentry : entry ∈ registry)
    (hregional : entry.entitlement ≠ .paidLocationSelection) :
    configuredRegionalDefault config entry.id = none := by
  unfold configuredRegionalDefault
  rw [group_id hentry]
  simp [hregional]

theorem groupPolicy_configured (config : SystemConfig) (hentry : entry ∈ registry)
    (weights : WeightedSignals) :
    ∃ policy provenance,
      groupPolicy entry (configuredRegionalDefault config entry.id) weights =
      .ok (policy, provenance) ∧
        (entry.entitlement ≠ .paidLocationSelection →
         policy = toSelectionPolicy entry.rankingPolicy weights) := by
  by_cases hregional : entry.entitlement = .paidLocationSelection
  · obtain ⟨horigin, hallowed⟩ := registry_regional hentry hregional
    rw [configuredRegionalDefault_of_regional hentry hregional]
    unfold groupPolicy
    rw [horigin, hallowed]
    cases config.regionalDefaultRanking <;> exact ⟨_, _, rfl, fun hne => absurd hregional hne⟩
  · rw [configuredRegionalDefault_of_not_regional hentry hregional]
    exact ⟨_, _, rfl, fun _ => rfl⟩

/-- A group without modifiers composes its own definition, under the configured ranking. -/
theorem groupRequest_plain (hentry : entry ∈ registry) {target : Target} {constraints : Constraints}
    {policy : RankingPolicy} {policyProvenance : PolicyProvenance} {request : SelectionRequest}
    {provenance : Option GroupProvenance}
    (hselector : groupSelector entry ⟨none, config.physicalCountry, location⟩ =
     .ok (target, constraints))
    (hpolicy : groupPolicy entry (configuredRegionalDefault config entry.id) config.weights =
      .ok (policy, policyProvenance)) :
    groupRequest config entitlements location entry.id {} = .ok (request, provenance) ↔
      (entry.entitlement = .paidLocationSelection → isPaid entitlements = true) ∧
        request = ⟨target, policy, constraints⟩ ∧
        provenance = some ⟨entry.id, entry.origin.asStr, policyProvenance.asStr⟩ := by
  have hresolved : resolveGroup entry.id (configuredRegionalDefault config entry.id)
      ⟨none, config.physicalCountry, location⟩ config.weights =
        .ok ⟨entry, ⟨target, policy, constraints⟩, policyProvenance⟩ :=
    resolveGroup_ok.mpr ⟨group_id hentry, hpolicy, hselector⟩
  rw [groupRequest_ok]
  constructor
  · rintro ⟨resolved, hresolved', hgate, hmerge, rfl⟩
    cases hresolved.symm.trans hresolved'
    rw [mergeGroupModifiers_plain] at hmerge
    cases hmerge
    exact ⟨hgate, rfl, rfl⟩
  · rintro ⟨hgate, rfl, rfl⟩
    exact ⟨_, hresolved, hgate, mergeGroupModifiers_plain _ _, rfl⟩

/-- A group without modifiers passes every gate: the gateway and the location gates are not for
groups. -/
theorem composeRequest_plain (hentry : entry ∈ registry) {target : Target}
    {constraints : Constraints}
    {policy : RankingPolicy} {policyProvenance : PolicyProvenance} {request : SelectionRequest}
    {provenance : Option GroupProvenance}
    (hselector : groupSelector entry ⟨none, config.physicalCountry, location⟩ =
     .ok (target, constraints))
    (hpolicy : groupPolicy entry (configuredRegionalDefault config entry.id) config.weights =
      .ok (policy, policyProvenance)) :
    composeRequest config catalog entitlements location (.group entry.id)
    {} = .ok (request, provenance) ↔
      (entry.entitlement = .paidLocationSelection → isPaid entitlements = true) ∧
        request = unionConfiguredSecureCoreExclusions ⟨target, policy, constraints⟩ config ∧
        provenance = some ⟨entry.id, entry.origin.asStr, policyProvenance.asStr⟩ ∧
        unmetCapability entitlements request catalog = none ∧
        (policy = .random → isPaid entitlements = true) := by
  rw [composeRequest_ok]
  constructor
  · rintro ⟨⟨raw, hraw, rfl⟩, -, hcapability, hrandom, -⟩
    obtain ⟨hgate, rfl, rfl⟩ := (groupRequest_plain hentry hselector hpolicy).mp hraw
    rw [unionConfigured_policy] at hrandom
    exact ⟨hgate, rfl, rfl, hcapability, hrandom⟩
  · rintro ⟨hgate, rfl, rfl, hcapability, hrandom⟩
    refine ⟨⟨_, (groupRequest_plain hentry hselector hpolicy).mpr ⟨hgate, rfl, rfl⟩, rfl⟩, nofun,
      hcapability, ?_,
      nofun⟩
    rw [unionConfigured_policy]
    exact hrandom

end

/-! ## The twin -/

theorem unionConfigured_sameFilters {request request' : SelectionRequest}
    (hr : SameFilters request request') (config : SystemConfig) :
    SameFilters (unionConfiguredSecureCoreExclusions request config)
      (unionConfiguredSecureCoreExclusions request' config) := by
  refine ⟨by rw [unionConfigured_target, unionConfigured_target, hr.target], ?_⟩
  unfold unionConfiguredSecureCoreExclusions
  rw [hr.target, hr.constraints]
  split_ifs
  · rfl
  · exact hr.constraints

theorem unmetCapability_congr {request request' : SelectionRequest}
    (hr : SameFilters request request')
    (entitlements : Option VpnEntitlements) (catalog : CatalogDocument) :
    unmetCapability entitlements request' catalog =
    unmetCapability entitlements request catalog := by
  unfold unmetCapability
  rw [hr.target, hr.constraints]

theorem unionConfigured_features (request : SelectionRequest) (config : SystemConfig) :
    (unionConfiguredSecureCoreExclusions request config).constraints.requiredFeatures =
        request.constraints.requiredFeatures ∧
      (unionConfiguredSecureCoreExclusions request config).constraints.optionalFeatures =
        request.constraints.optionalFeatures := by
  unfold unionConfiguredSecureCoreExclusions
  split_ifs <;> exact ⟨rfl, rfl⟩

/-- The answer is that the group is available. -/
def IsAvailable (answer : Except RpcFault GroupAvailability) : Prop :=
  ∃ availability, answer = .ok availability ∧ availability.available = true

theorem isAvailable_ok {availability : GroupAvailability} :
    IsAvailable (.ok availability) ↔ availability.available = true := by
  constructor
  · rintro ⟨_, heq, h⟩
    cases heq
    exact h
  · exact fun h => ⟨availability, rfl, h⟩

theorem not_isAvailable_unavailable {reason : String} :
    ¬ IsAvailable (.ok (unavailable reason)) := by
  rw [isAvailable_ok]
  exact nofun

section
variable {config : SystemConfig} {catalog : CatalogDocument} {entitlements : Option VpnEntitlements}
  {request : SelectionRequest} {context : SelectionContext}

theorem filterAvailability_iff :
    IsAvailable (filterAvailability catalog request context) ↔
    LeavesCandidate catalog request context := by
  unfold filterAvailability LeavesCandidate
  cases hfilter : filterCandidates catalog request context with
  | ok result =>
    obtain ⟨survivors, report⟩ := result
    dsimp only
    rw [isAvailable_ok]
    cases survivors with
    | nil => exact ⟨nofun, fun ⟨_, _, heq, hne⟩ => by cases heq; exact absurd rfl hne⟩
    | cons s survivors => exact ⟨fun _ => ⟨_, _, rfl, nofun⟩, fun _ => rfl⟩
  | error fault =>
    refine iff_of_false ?_ (by rintro ⟨_, _, heq, -⟩; cases heq)
    cases fault with
    | panic message => exact fun ⟨_, heq, _⟩ => by cases heq
    | refused error => cases error <;> exact not_isAvailable_unavailable

theorem requestAvailability_iff :
    IsAvailable (requestAvailability config catalog entitlements request) ↔
      unmetCapability entitlements (unionConfiguredSecureCoreExclusions request config)
        catalog = none ∧
        (request.policy = .random → isPaid entitlements = true) ∧
        LeavesCandidate catalog (unionConfiguredSecureCoreExclusions request config)
          { accountTier := accountTier entitlements } := by
  unfold requestAvailability
  dsimp only
  cases hunmet : unmetCapability entitlements (unionConfiguredSecureCoreExclusions request config)
    catalog with
  | some unmet =>
    obtain ⟨capability, allowance⟩ := unmet
    refine iff_of_false ?_ (by rintro ⟨heq, -⟩; cases heq)
    cases allowance <;> exact not_isAvailable_unavailable
  | none =>
    dsimp only
    by_cases hrandom : randomRequiresBackendAuthority
      (unionConfiguredSecureCoreExclusions request config)
        entitlements = true
    · rw [if_pos hrandom]
      refine iff_of_false not_isAvailable_unavailable ?_
      rintro ⟨-, hpaid, -⟩
      unfold randomRequiresBackendAuthority at hrandom
      simp only [unionConfigured_policy, Bool.and_eq_true, beq_iff_eq] at hrandom
      rw [hpaid hrandom.1] at hrandom
      cases hrandom.2
    · rw [if_neg hrandom, filterAvailability_iff]
      have hpaid : request.policy = .random → isPaid entitlements = true := by
        unfold randomRequiresBackendAuthority at hrandom
        simpa using hrandom
      exact ⟨fun h => ⟨rfl, hpaid, h⟩, fun h => h.2.2⟩

end

theorem leavesCandidate_twin {request request' : SelectionRequest}
    (entitlements : Option VpnEntitlements)
    (document : CatalogDocument) (hr : SameFilters request request')
    (hfeatures : request.constraints.requiredFeatures = [] ∧
     request.constraints.optionalFeatures = []) :
    LeavesCandidate document request' (composeContext entitlements) ↔
      LeavesCandidate document request { accountTier := accountTier entitlements } := by
  have hneeds : needsPortForwardingComposition request = false := by
    unfold needsPortForwardingComposition
    rw [hfeatures.1, hfeatures.2]
    rfl
  have hc : SameFacts request { accountTier := accountTier entitlements }
    (composeContext entitlements) :=
    ⟨rfl, fun h => by rw [hneeds] at h; cases h⟩
  unfold LeavesCandidate
  rw [filterCandidates_congr hr hc]

section
variable {config : SystemConfig} {document : CatalogDocument}
    {entitlements : Option VpnEntitlements}
  {location : Option String} {entry : GroupEntry} {target : Target} {constraints : Constraints}

theorem groupAvailability_of_selector (hentry : entry ∈ registry)
    (hselector : groupSelector entry ⟨none, config.physicalCountry, location⟩ =
     .ok (target, constraints)) :
    IsAvailable (groupAvailability config (some document) entry entitlements location) ↔
      (entry.entitlement = .paidLocationSelection → isPaid entitlements = true) ∧
        IsAvailable (requestAvailability config document entitlements
          ⟨target, toSelectionPolicy entry.rankingPolicy config.weights, constraints⟩) := by
  have hresolved : resolveGroup entry.id none ⟨none, config.physicalCountry, location⟩
    config.weights =
      .ok ⟨entry, ⟨target, toSelectionPolicy entry.rankingPolicy config.weights, constraints⟩,
        .catalogDefault⟩ :=
    resolveGroup_ok.mpr ⟨group_id hentry, rfl, hselector⟩
  unfold groupAvailability
  dsimp only
  rw [hresolved]
  by_cases hregional : entry.entitlement = .paidLocationSelection
  · -- The twin splits a plan that is not paid in two reasons.
    cases entitlements with
    | none =>
      rw [if_neg (by simp), if_pos ⟨hregional, rfl⟩]
      exact iff_of_false not_isAvailable_unavailable fun h => by cases h.1 hregional
    | some snapshot =>
      rw [Option.map_some]
      cases hpaid : snapshot.planTier == some PlanTier.paid with
      | false =>
        rw [if_pos ⟨hregional, rfl⟩]
        refine iff_of_false not_isAvailable_unavailable fun h => ?_
        cases hpaid.symm.trans (h.1 hregional)
      | true =>
        rw [if_neg (by simp), if_neg (by simp)]
        exact ⟨fun h => ⟨fun _ => hpaid, h⟩, fun h => h.2⟩
  · rw [if_neg (fun h => hregional h.1), if_neg (fun h => hregional h.1)]
    exact ⟨fun h => ⟨fun hr => absurd hr hregional, h⟩, fun h => h.2⟩

end

theorem groupAvailability_document (config : SystemConfig) (document : CatalogDocument)
    (entitlements : Option VpnEntitlements) (location : Option String) {entry : GroupEntry}
    (hentry : entry ∈ registry) :
    IsAvailable (groupAvailability config (some document) entry entitlements location) ↔
      ∃ request provenance,
        composeRequest config document entitlements location (.group entry.id)
        {} = .ok (request, provenance) ∧
          LeavesCandidate document request (composeContext entitlements) := by
  obtain ⟨target, constraints, hselector, hrequired, hoptional⟩ :=
    groupSelector_total hentry ⟨none, config.physicalCountry, location⟩
  obtain ⟨policy, policyProvenance, hpolicy, hplain⟩ :=
    groupPolicy_configured config hentry config.weights
  have hr : SameFilters ⟨target, toSelectionPolicy entry.rankingPolicy config.weights, constraints⟩
      ⟨target, policy, constraints⟩ := ⟨rfl, rfl⟩
  have hunion := unionConfigured_sameFilters hr config
  have hunmet := unmetCapability_congr hunion entitlements document
  have hleaves := leavesCandidate_twin entitlements document hunion (by
    rw [(unionConfigured_features _ config).1, (unionConfigured_features _ config).2]
    exact ⟨hrequired, hoptional⟩)
  rw [groupAvailability_of_selector hentry hselector, requestAvailability_iff]
  constructor
  · rintro ⟨hgate, hcapability, hrandom, hleft⟩
    refine ⟨_, _, (composeRequest_plain hentry hselector hpolicy).mpr
      ⟨hgate, rfl, rfl, hunmet.trans hcapability, fun hpolicy => ?_⟩, hleaves.mpr hleft⟩
    -- A configured ranking can differ from the twin's only where the plan is already paid.
    by_cases hregional : entry.entitlement = .paidLocationSelection
    · exact hgate hregional
    · exact hrandom ((hplain hregional).symm.trans hpolicy)
  · rintro ⟨request, provenance, hcompose, hleft⟩
    obtain ⟨hgate, rfl, -, hcapability, hrandom⟩ :=
      (composeRequest_plain hentry hselector hpolicy).mp hcompose
    refine ⟨hgate, hunmet.symm.trans hcapability, fun hpolicy => ?_, hleaves.mp hleft⟩
    by_cases hregional : entry.entitlement = .paidLocationSelection
    · exact hgate hregional
    · exact hrandom ((hplain hregional).trans hpolicy)

/-- What resolves is available, over the catalog it was resolved with. -/
theorem available_of_resolve {J : Serde} {config : SystemConfig} {reads : RequestReads}
    {entry : GroupEntry}
    {entitlements : Option VpnEntitlements} {resolution : Resolution} (hentry : entry ∈ registry)
    (hread : reads.entitlements = .ok entitlements)
    (h : resolveSelection J config reads (.group entry.id) {} = .ok resolution) :
    IsAvailable (groupAvailability config (some resolution.loaded.document) entry entitlements
      reads.location) := by
  have hresolved := resolveSelection_ok hread h
  exact (groupAvailability_document config _ entitlements reads.location hentry).mpr
    ⟨_, _, composeRequest_ok.mpr hresolved.gated, hresolved.leavesCandidate⟩

/-- **The availability of a group agrees with `resolve`**: a group is available exactly when its
request without modifiers passes every gate, over the same reads, and the hard filters leave a
candidate of it. -/
theorem groupAvailability_iff (config : SystemConfig) (catalog : Option CatalogDocument)
    (entitlements : Option VpnEntitlements) (location : Option String) {entry : GroupEntry}
    (hentry : entry ∈ registry) :
    IsAvailable (groupAvailability config catalog entry entitlements location) ↔
      ∃ document ∈ catalog, ∃ request provenance,
        composeRequest config document entitlements location (.group entry.id)
        {} = .ok (request, provenance) ∧
          LeavesCandidate document request (composeContext entitlements) := by
  cases catalog with
  | none => exact iff_of_false not_isAvailable_unavailable (by rintro ⟨_, hmem, -⟩; cases hmem)
  | some document =>
    rw [groupAvailability_document config document entitlements location hentry]
    constructor
    · exact fun h => ⟨document, rfl, h⟩
    · rintro ⟨_, hdocument, h⟩
      cases hdocument
      exact h

/-- The configuration that ranks the regional groups by latency. -/
def latencyConfig : SystemConfig := { defaultConfig with regionalDefaultRanking := .latency }

/-- A paid plan has an American server in a regional group, under a ranking the twin does not
compose. -/
theorem groupAvailability_iff_regional :
    IsAvailable (groupAvailability latencyConfig (some streamingDoc)
        (.regional "protonwire:fastest-north-america" "north-america")
        (some (.ofTier .active (some 2))) none) ∧
      ∃ document ∈ some streamingDoc, ∃ request provenance,
        composeRequest latencyConfig document (some (.ofTier .active (some 2))) none
            (.group "protonwire:fastest-north-america") {} = .ok (request, provenance) ∧
          LeavesCandidate document request (composeContext (some (.ofTier .active (some 2)))) := by
  have havailable : IsAvailable (groupAvailability latencyConfig (some streamingDoc)
      (.regional "protonwire:fastest-north-america" "north-america")
      (some (.ofTier .active (some 2))) none) :=
    ⟨_, rfl, rfl⟩
  exact ⟨havailable, (groupAvailability_iff latencyConfig (some streamingDoc)
    (some (.ofTier .active (some 2)))
    none (by decide)).mp havailable⟩

end ProtonWire
