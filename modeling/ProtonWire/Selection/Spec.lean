import ProtonWire.Selection.Rank

/-!
# What a request asks for

Every constraint as a predicate of its own, stated on the catalog entry and not on the pipeline, and
the pipeline's stages against them.

* `Violates`: the entry violates the constraint a stage stands for;
* `chainOrder`: the order in which the code evaluates the hard filters;
* **`eliminatingStage_eq`**: the eliminating stage of an entry inside the recorded domains is the
  first of the chain that it violates, and no arm that cannot happen is reached.
-/

namespace ProtonWire

/-! ## Constraints -/

/-- Equal up to ASCII case. -/
def SameFold (value : Option String) (name : String) : Prop :=
  ∃ v ∈ value, asciiLower v = asciiLower name

instance (value : Option String) (name : String) : Decidable (SameFold value name) :=
  inferInstanceAs (Decidable (∃ v ∈ value, asciiLower v = asciiLower name))

/-- A Standard server: no gateway, no route, no Secure Core bit. -/
def StandardServer (s : LogicalServer) : Prop :=
  s.gatewayName = none ∧ s.entryCountry = s.exitCountry ∧ s.features.secureCore = false

/-- A Secure Core server: no gateway, and a route or the Secure Core bit. -/
def SecureCoreServer (s : LogicalServer) : Prop :=
  s.gatewayName = none ∧ (s.entryCountry ≠ s.exitCountry ∨ s.features.secureCore = true)

instance (s : LogicalServer) : Decidable (StandardServer s) :=
  inferInstanceAs (Decidable
    (s.gatewayName = none ∧ s.entryCountry = s.exitCountry ∧ s.features.secureCore = false))

instance (s : LogicalServer) : Decidable (SecureCoreServer s) :=
  inferInstanceAs (Decidable
    (s.gatewayName = none ∧ (s.entryCountry ≠ s.exitCountry ∨ s.features.secureCore = true)))

/-- The entry has the connection type of the target. -/
def Target.RightType (s : LogicalServer) : Target → Prop
  | server _ => True
  | gateway _ => True
  | secureCore _ _ => SecureCoreServer s
  | _ => StandardServer s

/-- The entry is where, or what, the target asks for. -/
def Target.RightPlace (s : LogicalServer) : Target → Prop
  | fastest => True
  | country code => s.exitCountry = code
  | countries codes => s.exitCountry ∈ codes
  | state name => SameFold s.state name
  | city name => SameFold s.city name
  | server name => s.name = name
  | gateway name => s.gatewayName = some name
  | secureCore entryCountry exitCountry =>
    (∀ wanted ∈ exitCountry, s.exitCountry = wanted) ∧
      (∀ wanted ∈ entryCountry, s.entryCountry = wanted) ∧ s.entryCountry ≠ s.exitCountry

instance (s : LogicalServer) (t : Target) : Decidable (t.RightType s) :=
  match t with
  | .fastest | .country _ | .countries _ | .state _ | .city _ =>
    inferInstanceAs (Decidable (StandardServer s))
  | .server _ | .gateway _ => inferInstanceAs (Decidable True)
  | .secureCore _ _ => inferInstanceAs (Decidable (SecureCoreServer s))

instance (s : LogicalServer) (t : Target) : Decidable (t.RightPlace s) :=
  match t with
  | .fastest => inferInstanceAs (Decidable True)
  | .country code => inferInstanceAs (Decidable (s.exitCountry = code))
  | .countries codes => inferInstanceAs (Decidable (s.exitCountry ∈ codes))
  | .state name => inferInstanceAs (Decidable (SameFold s.state name))
  | .city name => inferInstanceAs (Decidable (SameFold s.city name))
  | .server name => inferInstanceAs (Decidable (s.name = name))
  | .gateway name => inferInstanceAs (Decidable (s.gatewayName = some name))
  | .secureCore entryCountry exitCountry => inferInstanceAs (Decidable
      ((∀ wanted ∈ exitCountry, s.exitCountry = wanted) ∧
        (∀ wanted ∈ entryCountry, s.entryCountry = wanted) ∧ s.entryCountry ≠ s.exitCountry))

/-- The entry holds a feature; port forwarding needs the entitlement and the capability. -/
def HasFeature (s : LogicalServer) (context : SelectionContext) : FeatureConstraint → Prop
  | .portForwarding => context.portForwardingEntitled = some true ∧
      ∃ capable ∈ context.portForwardingCapable, s.id ∈ capable
  | feature => catalogFeatureHolds s feature = true

instance (s : LogicalServer) (context : SelectionContext) (feature : FeatureConstraint) :
    Decidable (HasFeature s context feature) :=
  match feature with
  | .portForwarding => inferInstanceAs (Decidable (context.portForwardingEntitled = some true ∧
      ∃ capable ∈ context.portForwardingCapable, s.id ∈ capable))
  | .p2p => inferInstanceAs (Decidable (catalogFeatureHolds s .p2p = true))
  | .tor => inferInstanceAs (Decidable (catalogFeatureHolds s .tor = true))
  | .secureCore => inferInstanceAs (Decidable (catalogFeatureHolds s .secureCore = true))
  | .streaming => inferInstanceAs (Decidable (catalogFeatureHolds s .streaming = true))
  | .ipv6 => inferInstanceAs (Decidable (catalogFeatureHolds s .ipv6 = true))

/-- The physical server exposes a protocol. -/
def Exposes (p : PhysicalServer) (required : ProtocolConstraint) : Prop :=
  ∃ map ∈ p.entryPerProtocol, (required.endpoint map).isSome = true

instance (p : PhysicalServer) (required : ProtocolConstraint) : Decidable (Exposes p required) :=
  inferInstanceAs (Decidable (∃ map ∈ p.entryPerProtocol, (required.endpoint map).isSome = true))

/-- The policy weights load. -/
def RankingPolicy.WeighsLoad : RankingPolicy → Prop
  | lowestLoad => True
  | balanced weights => positiveWeight weights.load = true
  | _ => False

/-- The policy weights latency. -/
def RankingPolicy.WeighsLatency : RankingPolicy → Prop
  | latency => True
  | balanced weights => positiveWeight weights.latency = true
  | _ => False

instance (policy : RankingPolicy) : Decidable policy.WeighsLoad :=
  match policy with
  | .lowestLoad => inferInstanceAs (Decidable True)
  | .balanced weights => inferInstanceAs (Decidable (positiveWeight weights.load = true))
  | .official | .latency | .random => inferInstanceAs (Decidable False)

instance (policy : RankingPolicy) : Decidable policy.WeighsLatency :=
  match policy with
  | .latency => inferInstanceAs (Decidable True)
  | .balanced weights => inferInstanceAs (Decidable (positiveWeight weights.latency = true))
  | .official | .lowestLoad | .random => inferInstanceAs (Decidable False)

/-- The entry violates the constraint a stage stands for. -/
def Violates (request : SelectionRequest) (context : SelectionContext) (s : LogicalServer) :
    FilterStage → Prop
  | .accountTier => ∃ accountTier ∈ context.accountTier, accountTier < s.tier
  | .unknownStatus => s.status = none
  | .offline => s.status = some 0
  | .allPhysicalsOffline => s.status = some 1 ∧ ∀ p ∈ s.servers, p.status ≠ 1
  | .absentFromCatalog => False
  | .serverType => ¬ request.target.RightType s
  | .targetGeography => ¬ request.target.RightPlace s
  | .physicalCountryExclusion => request.constraints.excludePhysicalCountry = true ∧
      request.constraints.physicalCountry = some s.exitCountry
  | .excludedCountry => s.exitCountry ∈ request.constraints.excludedCountries
  | .excludedEntryCountry => s.entryCountry ∈ request.constraints.excludedEntryCountries
  | .excludedExitCountry => s.exitCountry ∈ request.constraints.excludedExitCountries
  | .excludedState => ∃ name ∈ request.constraints.excludedStates, SameFold s.state name
  | .excludedCity => ∃ name ∈ request.constraints.excludedCities, SameFold s.city name
  | .excludedServer => s.name ∈ request.constraints.excludedServers
  | .requiredFeatures => ∃ feature ∈ request.constraints.requiredFeatures,
      ¬ HasFeature s context feature
  | .protocolCompatibility => ∃ required ∈ request.constraints.requiredProtocol,
      ∀ p ∈ s.servers, p.status = 1 → ¬ Exposes p required
  | .loadNotExposed => request.policy.WeighsLoad ∧ s.load = none
  | .noLatencyObservation => request.policy.WeighsLatency ∧ context.latency.get s.id = none

instance (request : SelectionRequest) (context : SelectionContext) (s : LogicalServer)
    (stage : FilterStage) : Decidable (Violates request context s stage) :=
  match stage with
  | .accountTier =>
    inferInstanceAs (Decidable (∃ accountTier ∈ context.accountTier, accountTier < s.tier))
  | .unknownStatus => inferInstanceAs (Decidable (s.status = none))
  | .offline => inferInstanceAs (Decidable (s.status = some 0))
  | .allPhysicalsOffline =>
    inferInstanceAs (Decidable (s.status = some 1 ∧ ∀ p ∈ s.servers, p.status ≠ 1))
  | .absentFromCatalog => inferInstanceAs (Decidable False)
  | .serverType => inferInstanceAs (Decidable (¬ request.target.RightType s))
  | .targetGeography => inferInstanceAs (Decidable (¬ request.target.RightPlace s))
  | .physicalCountryExclusion => inferInstanceAs (Decidable
      (request.constraints.excludePhysicalCountry = true ∧
        request.constraints.physicalCountry = some s.exitCountry))
  | .excludedCountry =>
    inferInstanceAs (Decidable (s.exitCountry ∈ request.constraints.excludedCountries))
  | .excludedEntryCountry =>
    inferInstanceAs (Decidable (s.entryCountry ∈ request.constraints.excludedEntryCountries))
  | .excludedExitCountry =>
    inferInstanceAs (Decidable (s.exitCountry ∈ request.constraints.excludedExitCountries))
  | .excludedState =>
    inferInstanceAs (Decidable (∃ name ∈ request.constraints.excludedStates, SameFold s.state name))
  | .excludedCity =>
    inferInstanceAs (Decidable (∃ name ∈ request.constraints.excludedCities, SameFold s.city name))
  | .excludedServer => inferInstanceAs (Decidable (s.name ∈ request.constraints.excludedServers))
  | .requiredFeatures => inferInstanceAs
    (Decidable (∃ feature ∈ request.constraints.requiredFeatures,
      ¬ HasFeature s context feature))
  | .protocolCompatibility => inferInstanceAs
    (Decidable (∃ required ∈ request.constraints.requiredProtocol,
      ∀ p ∈ s.servers, p.status = 1 → ¬ Exposes p required))
  | .loadNotExposed => inferInstanceAs (Decidable (request.policy.WeighsLoad ∧ s.load = none))
  | .noLatencyObservation =>
    inferInstanceAs (Decidable (request.policy.WeighsLatency ∧ context.latency.get s.id = none))

/-! ## First violations -/

section
variable (request : SelectionRequest) (context : SelectionContext) (s : LogicalServer)

/-- The first stage of an order whose constraint the entry violates. -/
def firstViolated (order : List FilterStage) : Option FilterStage :=
  order.find? fun stage => decide (Violates request context s stage)

theorem firstViolated_cons (stage : FilterStage) (order : List FilterStage) :
    firstViolated request context s (stage :: order) =
      if Violates request context s stage then some stage
        else firstViolated request context s order := by
  unfold firstViolated
  rw [List.find?_cons]
  by_cases h : Violates request context s stage
  · simp [h]
  · simp [h]

@[simp] theorem firstViolated_nil : firstViolated request context s [] = none := rfl

theorem firstViolated_append (order order' : List FilterStage) :
    firstViolated request context s (order ++ order') =
      (firstViolated request context s order).or (firstViolated request context s order') :=
  List.find?_append

theorem firstViolated_eq_none {order : List FilterStage} :
    firstViolated request context s order = none ↔
      ∀ stage ∈ order, ¬ Violates request context s stage := by
  simp [firstViolated, List.find?_eq_none]

theorem firstViolated_single {b : Bool} {stage : FilterStage}
    (h : b = true ↔ Violates request context s stage) :
    thenSome b stage = firstViolated request context s [stage] := by
  rw [firstViolated_cons, firstViolated_nil, thenSome]
  exact if_congr h rfl rfl

theorem orElse_firstViolated (order order' : List FilterStage) :
    orElse (.ok (firstViolated request context s order))
    (.ok (firstViolated request context s order')) =
      .ok (firstViolated request context s (order ++ order')) := by
  rw [firstViolated_append]
  cases firstViolated request context s order with
  | none => rfl
  | some stage => rfl

end

/-! ## The stages of the code -/

/-- The stages up to the country exclusion, as the chain evaluates them. -/
def gateStages : List FilterStage :=
  [.accountTier, .unknownStatus, .offline, .allPhysicalsOffline, .serverType, .targetGeography,
    .physicalCountryExclusion, .excludedCountry]

/-- The exclusions by state, city and name. -/
def placeStages : List FilterStage := [.excludedState, .excludedCity, .excludedServer]

/-- The exclusions of a route's ends. -/
def routeStages : List FilterStage := [.excludedEntryCountry, .excludedExitCountry]

/-- The capability stages. -/
def capabilityStages : List FilterStage := [.requiredFeatures, .protocolCompatibility]

/-- The policy's data stages. -/
def dataStages : List FilterStage := [.loadNotExposed, .noLatencyObservation]

/-- The order in which the code evaluates the hard filters. -/
def chainOrder : List FilterStage := gateStages ++
    (placeStages ++ (routeStages ++ capabilityStages))

section
variable (request : SelectionRequest) (context : SelectionContext) (s : LogicalServer)

theorem accountTierStage_eq :
    accountTierStage s context = firstViolated request context s [.accountTier] := by
  refine firstViolated_single request context s ?_
  simp [Violates, Option.any_eq_true]

theorem isOnline_iff (p : PhysicalServer) : p.isOnline = true ↔ p.status = 1 := by
  simp [PhysicalServer.isOnline]

theorem onlineStage_eq (h : s.InDomain) :
    onlineStage s =
      .ok (firstViolated request context s [.unknownStatus, .offline, .allPhysicalsOffline]) := by
  simp only [firstViolated_cons, firstViolated_nil, Violates]
  unfold onlineStage
  rcases h.status with hs | hs | hs
  · simp [hs]
  · simp [hs]
  · simp only [hs, isOnline_iff, List.any_eq_true, reduceCtorEq, if_false, true_and]
    by_cases hp : ∃ p ∈ s.servers, p.status = 1
    · have hsome : ¬ ∀ p ∈ s.servers, p.status ≠ 1 := by simpa using hp
      rw [if_pos hp, if_neg (by simp), if_neg hsome]
    · have hnone : ∀ p ∈ s.servers, p.status ≠ 1 := by simpa using hp
      rw [if_neg hp, if_neg (by simp), if_pos hnone]

theorem eqFold_iff (value : Option String) (name : String) :
    eqFold value name = true ↔ SameFold value name := by
  simp [eqFold, SameFold, Option.any_eq_true]

theorem isStandardFleet_iff : isStandardFleet s = true ↔ StandardServer s := by
  simp [isStandardFleet, StandardServer, LogicalServer.isGateway, LogicalServer.isSecureCoreRoute,
    and_assoc]

theorem isSecureCoreFleet_iff : isSecureCoreFleet s = true ↔ SecureCoreServer s := by
  simp [isSecureCoreFleet, SecureCoreServer, LogicalServer.isGateway,
    LogicalServer.isSecureCoreRoute]

/-- A stage that checks the type, then the place. -/
theorem typed_stage (fleet miss : Bool) (hfleet : fleet = true ↔ request.target.RightType s)
    (hmiss : miss = true ↔ ¬ request.target.RightPlace s) :
    (if !fleet then (.ok (some .serverType) : Except Fault (Option FilterStage))
      else .ok (thenSome miss .targetGeography)) =
      .ok (firstViolated request context s [.serverType, .targetGeography]) := by
  simp only [firstViolated_cons, firstViolated_nil, Violates, thenSome, ← hfleet, ← hmiss]
  cases fleet <;> cases miss <;> rfl

theorem secureCore_miss_iff (entryCountry exitCountry : Option String) :
    ((exitCountry.any fun wanted => s.exitCountry != wanted) ||
        (entryCountry.any fun wanted => s.entryCountry != wanted) || !s.isSecureCoreRoute) = true ↔
      ¬ (Target.secureCore entryCountry exitCountry).RightPlace s := by
  unfold Target.RightPlace LogicalServer.isSecureCoreRoute
  cases entryCountry <;> cases exitCountry <;> simp <;> tauto

theorem targetStage_eq :
    targetStage s request.target =
      .ok (firstViolated request context s [.serverType, .targetGeography]) := by
  have hstandard := isStandardFleet_iff s
  obtain ⟨target, policy, constraints⟩ := request
  cases target with
  | fastest =>
    exact typed_stage ⟨.fastest, policy, constraints⟩ context s _ false hstandard
      (by simp [Target.RightPlace])
  | country code =>
    exact typed_stage ⟨.country code, policy, constraints⟩ context s _ _ hstandard
      (by simp [Target.RightPlace])
  | countries codes =>
    exact typed_stage ⟨.countries codes, policy, constraints⟩ context s _ _ hstandard
      (by simp [Target.RightPlace])
  | state name =>
    exact typed_stage ⟨.state name, policy, constraints⟩ context s _ _ hstandard
      (by simp [Target.RightPlace, ← eqFold_iff])
  | city name =>
    exact typed_stage ⟨.city name, policy, constraints⟩ context s _ _ hstandard
      (by simp [Target.RightPlace, ← eqFold_iff])
  | server name =>
    exact typed_stage ⟨.server name, policy, constraints⟩ context s true _
      (by simp [Target.RightType])
      (by simp [Target.RightPlace, Target.matchesExact])
  | gateway name =>
    exact typed_stage ⟨.gateway name, policy, constraints⟩ context s true _
      (by simp [Target.RightType])
      (by simp [Target.RightPlace, Target.matchesExact])
  | secureCore entryCountry exitCountry =>
    exact typed_stage ⟨.secureCore entryCountry exitCountry, policy, constraints⟩ context s _ _
      (isSecureCoreFleet_iff s) (secureCore_miss_iff s entryCountry exitCountry)

theorem physicalCountryStage_eq : physicalCountryStage s request.constraints =
    firstViolated request context s [.physicalCountryExclusion] := by
  rw [firstViolated_cons, firstViolated_nil]
  unfold physicalCountryStage
  by_cases hx : request.constraints.excludePhysicalCountry = true
  · cases hp : request.constraints.physicalCountry with
    | none => simp [Violates, hp]
    | some country =>
      by_cases h : country = s.exitCountry
      · simp [Violates, hx, hp, h]
      · simp [Violates, hx, hp, h]
  · simp [Violates, hx]

theorem exclusionStage_eq : exclusionStage s request.constraints =
    firstViolated request context s
      [.excludedCountry, .excludedState, .excludedCity, .excludedServer] := by
  simp only [firstViolated_cons, firstViolated_nil]
  unfold exclusionStage
  refine if_congr ?_ rfl (if_congr ?_ rfl (if_congr ?_ rfl (if_congr ?_ rfl rfl)))
  · simp [Violates]
  · simp [Violates, eqFold_iff]
  · simp [Violates, eqFold_iff]
  · simp [Violates]

theorem secureCoreExclusionStage_eq : secureCoreExclusionStage s request.constraints =
    firstViolated request context s routeStages := by
  simp only [routeStages, firstViolated_cons, firstViolated_nil]
  unfold secureCoreExclusionStage
  refine if_congr ?_ rfl (if_congr ?_ rfl rfl)
  · simp [Violates]
  · simp [Violates]

theorem featureHolds_iff (feature : FeatureConstraint) :
    featureHolds s feature context = true ↔ HasFeature s context feature := by
  cases feature with
  | portForwarding =>
    simp only [featureHolds, pfHoldsFor, HasFeature, Bool.and_eq_true, Option.any_eq_true,
      List.contains_iff_mem]
    cases context.portForwardingEntitled with
    | none => simp
    | some entitled => simp
  | _ => rfl

theorem requiredFeaturesStage_eq : requiredFeaturesStage s request.constraints context =
    firstViolated request context s [.requiredFeatures] := by
  refine firstViolated_single request context s ?_
  simp [Violates, ← featureHolds_iff]

theorem protocolHolds_iff (required : ProtocolConstraint) :
    protocolHolds s required = true ↔ ∃ p ∈ s.servers, p.status = 1 ∧ Exposes p required := by
  simp [protocolHolds, isOnline_iff, Exposes, Option.any_eq_true]

theorem protocolStage_eq : protocolStage s request.constraints =
    firstViolated request context s [.protocolCompatibility] := by
  refine firstViolated_single request context s ?_
  simp only [Violates, Option.any_eq_true, Bool.not_eq_true', ← Bool.not_eq_true, protocolHolds_iff]
  simp

/-- **The eliminating stage is the first of the chain that the entry violates.** -/
theorem eliminatingStage_eq (h : s.InDomain) :
    eliminatingStage s request context = .ok (firstViolated request context s chainOrder) := by
  unfold eliminatingStage
  rw [accountTierStage_eq request, onlineStage_eq request context s h,
    targetStage_eq request context, physicalCountryStage_eq request context,
    exclusionStage_eq request context, secureCoreExclusionStage_eq request context,
    requiredFeaturesStage_eq request, protocolStage_eq request context]
  simp only [orElse_firstViolated]
  rfl

end

end ProtonWire
