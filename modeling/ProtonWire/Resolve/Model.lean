import ProtonWire.Resolve.Vocabulary

/-!
# Resolving a request

`apps/daemon/src/selection.rs`: `SelectionEngine::resolve` and its availability twin
`group_availability`.

* `validateBoundary`: the refusals before anything is read;
* `gatewayGate`, `groupLocationGate`, `capabilityGate`, `randomGate`, `locationGate`: the
  entitlement gates;
* `composeRequest`: the gates in their order, up to the resolved request;
* `resolveSelection`, `resolve`: the whole request, and its answer;
* `groupAvailability`: the twin.
-/

namespace ProtonWire

/-! ## The boundary -/

/-- A country the wire carries. -/
def boundaryCountry (field code : String) : Except RpcFault Unit :=
  match validateCountry code with
  | .ok _ => .ok ()
  | .error _ => refuse .invalidParams (field ++ " `" ++ code ++
      "` is not a canonical uppercase ISO 3166-1 alpha-2 code — non-canonical input refuses typed, " ++
      "never approximated")

/-- The countries of one field, in order. -/
def boundaryCountries (field : String) : List String → Except RpcFault Unit
  | [] => .ok ()
  | code :: codes => do
    boundaryCountry field code
    boundaryCountries field codes

/-- The countries of the target; the two sides of a route differ. -/
def boundaryTarget : ConnectTarget → Except RpcFault Unit
  | .country country => boundaryCountry "target country" country
  | .secureCore entryCountry exitCountry => do
    boundaryCountries "target entry country" entryCountry.toList
    boundaryCountries "target exit country" exitCountry.toList
    match entryCountry, exitCountry with
    | some entry, some exit_ =>
      if entry = exit_ then
        refuse .invalidParams ("a Secure Core route's entry and exit countries must differ — `" ++
          entry ++
          "→" ++ exit_ ++ "` is not a route (FR-23F)")
      else .ok ()
    | _, _ => .ok ()
  | _ => .ok ()

/-- The refusals before anything is read. -/
def validateBoundary (target : ConnectTarget) (modifiers : SelectionModifiers) :
    Except RpcFault Unit := do
  if target = .random ∧ modifiers.by_.isSome then
    refuse .invalidParams
      ("`--by` does not apply to the random target — random IS the ranking (a free " ++
      "plan's random selection is backend-authorized, FR-23G)")
  else
    boundaryTarget target
    boundaryCountries "--exclude-country" modifiers.excludedCountries
    boundaryCountries "--exclude-entry-country" modifiers.excludedEntryCountries
    boundaryCountries "--exclude-exit-country" modifiers.excludedExitCountries
    boundaryCountries "physical-country" modifiers.physicalCountry.toList

/-! ## The request -/

/-- `merge_group_modifiers`: the unions of a group's constraints and the user's; a conflicting
protocol is refused. -/
def mergeGroupModifiers (groupId : String) (request : SelectionRequest)
    (modifiers : SelectionModifiers) :
    Except RpcFault SelectionRequest :=
  let requiredProtocol := modifiers.requiredProtocol.map wireProtocol
  let c := request.constraints
  let merged : SelectionRequest := { request with constraints := { c with
    excludedCountries := c.excludedCountries ++ modifiers.excludedCountries
    excludedStates := c.excludedStates ++ modifiers.excludedStates
    excludedCities := c.excludedCities ++ modifiers.excludedCities
    excludedServers := c.excludedServers ++ modifiers.excludedServers
    excludedEntryCountries := c.excludedEntryCountries ++ modifiers.excludedEntryCountries
    excludedExitCountries := c.excludedExitCountries ++ modifiers.excludedExitCountries
    requiredFeatures := c.requiredFeatures ++ modifiers.requiredFeatures.map wireFeature
    optionalFeatures := c.optionalFeatures ++ modifiers.optionalFeatures.map wireFeature
    requiredProtocol := c.requiredProtocol.or requiredProtocol } }
  match c.requiredProtocol, requiredProtocol with
  | some declared, some requested =>
    if declared ≠ requested then
      refuse .invalidParams ("group `" ++ groupId ++ "` declares the `" ++ protocolToken declared ++
        "` protocol override but the request requires `" ++ protocolToken requested ++
        "` — a group's " ++
        "declared protocol is its official semantics (FR-23P); pass the matching protocol or select the " ++
        "target directly")
    else .ok merged
  | _, _ => .ok merged

/-- The policy of a direct target: the mode named, or the target's own. -/
def directPolicy (target : ConnectTarget) (by_ : Option String)
    (balancedWeights : WeightedSignals) :
    Except RpcFault RankingPolicy :=
  match by_ with
  | some mode =>
    match RankingPolicy.parse mode with
    | .ok (.balanced _) => .ok (.balanced balancedWeights)
    | .ok policy => .ok policy
    | .error error => .error (.refused (selectionErrorToRpc error))
  | none => .ok (if target = .random then .random else .official)

/-- The core target of a direct target, and the features it injects. -/
def directTarget : ConnectTarget → Except RpcFault (Target × List FeatureConstraint)
  | .fastest => .ok (.fastest, [])
  | .random => .ok (.fastest, [])
  | .country country => .ok (.country country, [])
  | .state stateOrRegion => .ok (.state stateOrRegion, [])
  | .city city => .ok (.city city, [])
  | .server server => .ok (.server server, [])
  | .gateway gateway => .ok (.gateway gateway, [])
  | .special .p2p => .ok (.fastest, [.p2p])
  | .special .tor => .ok (.fastest, [.tor])
  | .secureCore entryCountry exitCountry => .ok (.secureCore entryCountry exitCountry, [])
  | .group _ => .error (.panic "the group arm resolves through the registry before this mapping")
  | .profile profile => refuse .notImplemented ("profile targets land in milestone 6 (profile `" ++
    profile ++
      "` cannot be resolved by the selection surface)")

/-- `direct_request`. -/
def directRequest (target : ConnectTarget) (modifiers : SelectionModifiers)
    (balancedWeights : WeightedSignals) :
    Except RpcFault SelectionRequest := do
  let policy ← directPolicy target modifiers.by_ balancedWeights
  let (coreTarget, extraRequired) ← directTarget target
  return ⟨coreTarget, policy,
    { excludedCountries := modifiers.excludedCountries
      excludedStates := modifiers.excludedStates
      excludedCities := modifiers.excludedCities
      excludedServers := modifiers.excludedServers
      excludedEntryCountries := modifiers.excludedEntryCountries
      excludedExitCountries := modifiers.excludedExitCountries
      requiredFeatures := modifiers.requiredFeatures.map wireFeature ++ extraRequired
      optionalFeatures := modifiers.optionalFeatures.map wireFeature
      requiredProtocol := modifiers.requiredProtocol.map wireProtocol }⟩

/-- The configured default ranking, for a regional group only. -/
def configuredRegionalDefault (config : SystemConfig) (groupId : String) : Option String :=
  if config.regionalDefaultRanking ≠ .protonScore ∧
      (group groupId).any (fun entry => entry.entitlement = .paidLocationSelection) then
    some config.regionalDefaultRanking.asStr
  else none

/-! ## The gates -/

/-- The target names a gateway, directly or as an exact server. -/
def targetNamesGateway (target : ConnectTarget) (catalog : CatalogDocument) : Bool :=
  match target with
  | .gateway _ => true
  | .server server => catalog.logicalServers.any fun logical => logical.name == server &&
    logical.isGateway
  | _ => false

/-- Gateways need the business entitlement. -/
def gatewayGate (entitlements : Option VpnEntitlements) (target : ConnectTarget)
    (catalog : CatalogDocument) :
    Except RpcFault Unit :=
  if targetNamesGateway target catalog &&
  !(entitlements.bind VpnEntitlements.isBusiness).getD false then
    refuse .entitlementMissing
      ("gateway targets require a Proton Business (organization) entitlement — " ++
      "this account is not entitled to dedicated servers")
  else .ok ()

/-- The regional groups need a paid plan. -/
def groupLocationGate (entitlements : Option VpnEntitlements) (entry : GroupEntry) :
    Except RpcFault Unit :=
  if entry.entitlement = .paidLocationSelection ∧ isPaid entitlements = false then
    refuse .entitlementMissing
      ("regional location selection requires a paid plan — this account's plan " ++
      "does not include choosing a location")
  else .ok ()

/-- The capabilities a request names need the plan's allowance. -/
def capabilityGate (entitlements : Option VpnEntitlements) (request : SelectionRequest)
    (catalog : CatalogDocument) : Except RpcFault Unit :=
  match unmetCapability entitlements request catalog with
  | some (capability, _) => refuse .entitlementMissing (capability ++
      " selection requires a paid plan — this account's plan does not include the " ++ capability ++
      " capability")
  | none => .ok ()

/-- Local random needs a paid plan. -/
def randomGate (entitlements : Option VpnEntitlements) (request : SelectionRequest) :
    Except RpcFault Unit :=
  if randomRequiresBackendAuthority request entitlements then
    refuse .notImplemented
      ("random selection for a non-paid plan is backend-authorized (FR-23G — the " ++
      "registry's proton-backend-when-required authority); the backend change-server path lands with the " ++
      "session lane — local random serves paid plans")
  else .ok ()

/-- The target names a location. -/
def namesLocation : ConnectTarget → Bool
  | .country _ => true
  | .state _ => true
  | .city _ => true
  | .server _ => true
  | _ => false

/-- Naming a location needs a paid plan. -/
def locationGate (entitlements : Option VpnEntitlements) (target : ConnectTarget) :
    Except RpcFault Unit :=
  if namesLocation target && !isPaid entitlements then
    refuse .entitlementMissing
      ("location selection requires a paid plan — a free plan selects the fastest " ++
      "eligible server and backend-authorized random changes only (FR-23G)")
  else .ok ()

/-! ## The resolved request -/

/-- The token of a policy's provenance. -/
def PolicyProvenance.asStr : PolicyProvenance → String
  | catalogDefault => "catalog-default"
  | declaredOverride => "declared-override"

/-- The group arm: the registry's definition, its gate, and the user's modifiers. -/
def groupRequest (config : SystemConfig) (entitlements : Option VpnEntitlements)
    (location : Option String) (groupId : String) (modifiers : SelectionModifiers) :
    Except RpcFault (SelectionRequest × Option GroupProvenance) := do
  let resolved ← orGroupRefuse (resolveGroup groupId
    (modifiers.by_.or (configuredRegionalDefault config groupId))
    ⟨modifiers.physicalCountry, config.physicalCountry, location⟩ config.weights)
  groupLocationGate entitlements resolved.group
  let request ← mergeGroupModifiers groupId resolved.request modifiers
  return (request, some ⟨groupId, resolved.group.origin.asStr, resolved.policyProvenance.asStr⟩)

/-- The arm of the target. -/
def targetRequest (config : SystemConfig) (entitlements : Option VpnEntitlements)
    (location : Option String) (target : ConnectTarget) (modifiers : SelectionModifiers) :
    Except RpcFault (SelectionRequest × Option GroupProvenance) :=
  match target with
  | .group groupId => groupRequest config entitlements location groupId modifiers
  | direct => do return (← directRequest direct modifiers config.weights, none)

/-- The resolved request, past every gate. -/
def composeRequest (config : SystemConfig) (catalog : CatalogDocument)
    (entitlements : Option VpnEntitlements)
    (location : Option String) (target : ConnectTarget) (modifiers : SelectionModifiers) :
    Except RpcFault (SelectionRequest × Option GroupProvenance) := do
  gatewayGate entitlements target catalog
  let (request, provenance) ← targetRequest config entitlements location target modifiers
  let request := unionConfiguredSecureCoreExclusions request config
  capabilityGate entitlements request catalog
  randomGate entitlements request
  locationGate entitlements target
  return (request, provenance)

/-- The context of the hard filters. -/
def composeContext (entitlements : Option VpnEntitlements) : SelectionContext where
  accountTier := accountTier entitlements
  portForwardingEntitled := pfEntitlement entitlements
  portForwardingCapable := (pfEntitlement entitlements).map fun _ => []

/-! ## Ranking -/

/-- The hard-filtered candidates in official order, capped. -/
def probeShortlist (config : SystemConfig) (catalog : CatalogDocument) (request : SelectionRequest)
    (context : SelectionContext) : Except RpcFault (List String) :=
  match filterCandidates catalog { request with policy := .official } context with
  | .error (.refused _) => .ok []
  | .error (.panic message) => .error (.panic message)
  | .ok (survivors, _) => do
    let ordered ← orExplain selectionErrorToRpc
      (StableSort.sortBy officialCmp (survivors.map RankedCandidate.catalogOnly))
    return (ordered.take config.maxCandidates).map fun candidate => candidate.server.id

/-- The ranking consumes latency observations. -/
def latencyWeighted : RankingPolicy → Bool
  | .latency => true
  | .balanced weights => positiveWeight weights.latency
  | _ => false

/-- The observations of the probe round, when the policy consumes them. -/
def probedContext (config : SystemConfig) (catalog : CatalogDocument) (reads : RequestReads)
    (request : SelectionRequest) (context : SelectionContext) : Except RpcFault SelectionContext :=
  if latencyWeighted request.policy then do
    let shortlist ← probeShortlist config catalog request context
    return { context with latency := reads.probe shortlist }
  else .ok context

/-- The context of the ranking: the observations, and the entropy of the random policy. -/
def rankingContext (config : SystemConfig) (catalog : CatalogDocument) (reads : RequestReads)
    (request : SelectionRequest) (context : SelectionContext) :
    Except RpcFault SelectionContext := do
  let context ← probedContext config catalog reads request context
  if request.policy = .random then do
    let entropy ← orRefuse reads.entropy
    return { context with randomEntropy := some entropy }
  else return context

/-- A resolved selection: the catalog, the request and the context it ran under, its outcome and
winner. -/
structure Resolution where
  loaded : LoadedCatalog
  request : SelectionRequest
  provenance : Option GroupProvenance
  context : SelectionContext
  physicalCountry : Option PhysicalCountryValue
  outcome : SelectionOutcome
  winner : RankedCandidate

/-- The whole request, up to its rendering. -/
def resolveSelection (J : Serde) (config : SystemConfig) (reads : RequestReads)
    (target : ConnectTarget) (modifiers : SelectionModifiers) : Except RpcFault Resolution := do
  validateBoundary target modifiers
  match ← orRefuse (cachedCatalog J reads.catalog) with
  | none =>
    refuse .noEligibleServer
      ("no server catalog is cached yet — run `protonwire servers refresh` " ++
      "first (selection reads the cache; it never fetches)")
  | some loaded =>
    let entitlements ← orRefuse reads.entitlements
    let (request, provenance) ←
      composeRequest config loaded.document entitlements reads.location target modifiers
    let physicalCountry :=
      if request.constraints.excludePhysicalCountry || modifiers.physicalCountry.isSome then
        physicalCountryOver modifiers.physicalCountry config.physicalCountry reads.location
      else none
    let context ← rankingContext config loaded.document reads request (composeContext entitlements)
    let outcome ←
      orExplain (selectionErrorToRpcExplained · request) (select loaded.document request context)
    match outcome.ranked.head? with
    | none => refuse .internal "selection returned no winner"
    | some winner => return ⟨loaded, request, provenance, context, physicalCountry, outcome, winner⟩

/-! ## The answer -/

/-- The selector of a direct target. -/
def directSelector (target : ConnectTarget) (policy : RankingPolicy) : ResolvedSelector :=
  let rendered : String × Option String := match target with
    | .fastest => ("fastest", none)
    | .random => ("random", none)
    | .country country => ("country", some country)
    | .state stateOrRegion => ("state", some stateOrRegion)
    | .city city => ("city", some city)
    | .server server => ("server", some server)
    | .gateway gateway => ("gateway", some gateway)
    | .special .p2p => ("p2p", none)
    | .special .tor => ("tor", none)
    | .secureCore entryCountry exitCountry =>
      ("secure-core", some (entryCountry.getD "fastest" ++ "->" ++ exitCountry.getD "fastest"))
    | .group groupId => ("group", some groupId)
    | .profile profile => ("profile", some profile)
  ⟨rendered.1, rendered.2, policyToken policy⟩

/-- The tokens of the resolved features, each once, in order. -/
def requestedFeatures (c : Constraints) : List String :=
  (c.requiredFeatures ++ c.optionalFeatures).foldl
    (fun seen feature => if seen.contains (featureToken feature) then seen
     else seen ++ [featureToken feature]) []

/-- `Duration::as_millis`, as a `u64`. -/
def Duration.asMillis (d : Duration) : ℕ := (d.secs * 1000 + d.nanos / 1000000) % 2 ^ 64

/-- The signals of the winner. -/
def winnerSignals (signals : ScoringSignals) : WinnerSignals where
  provenance := if signals.weighted.isSome then "weighted-breakdown"
    else if signals.latency.isSome then "probe-observed" else "catalog-only"
  protonScore := signals.protonScore
  load := signals.load
  latencyMs := signals.latency.map Duration.asMillis
  weighted := signals.weighted.map fun b =>
    ⟨b.loadTerm, b.latencyTerm, b.stabilityTerm, b.featureMatchTerm, b.historyTerm, b.total⟩

/-- The answer of a resolved selection. -/
def Resolution.render (resolution : Resolution) (target : ConnectTarget)
    (modifiers : SelectionModifiers) :
    SelectionResult where
  catalog := ⟨resolution.loaded.etag, some resolution.loaded.fetchedUnix,
    resolution.provenance.map fun _ => catalogRevision⟩
  group := resolution.provenance
  selector := match resolution.provenance with
    | some provenance => ⟨"group", some provenance.groupId, policyToken resolution.request.policy⟩
    | none => directSelector target resolution.request.policy
  hardFilters := ⟨resolution.outcome.report.considered, resolution.outcome.report.survivors,
    stageReports resolution.outcome.report⟩
  physicalCountry := resolution.physicalCountry
  winner :=
    let server := resolution.winner.server
    ⟨server.id, server.name, server.entryCountry, server.exitCountry, server.city, server.tier,
      winnerSignals resolution.winner.signals⟩
  requestedFeatures := requestedFeatures resolution.request.constraints
  featureDifference := (modifiers.optionalFeatures.filter fun feature =>
    !featureHolds resolution.winner.server (wireFeature feature) resolution.context).map
      SelectionFeature.asStr

/-- `SelectionEngine::resolve`. -/
def resolve (J : Serde) (config : SystemConfig) (reads : RequestReads) (target : ConnectTarget)
    (modifiers : SelectionModifiers) : Except RpcFault SelectionResult := do
  return (← resolveSelection J config reads target modifiers).render target modifiers

/-! ## Availability -/

/-- Unavailable, with a reason. -/
def unavailable (reason : String) : GroupAvailability := ⟨false, some reason⟩

/-- The reason of an empty pass: the last stage that eliminated a candidate. -/
def emptyReason (report : EliminationReport) : String :=
  if report.lastEliminating = some .accountTier then "account-tier"
  else if report.lastEliminating = some .protocolCompatibility then "protocol-unavailable"
  else "no-eligible-server"

/-- The hard filters of an availability, and what their outcome means. -/
def filterAvailability (catalog : CatalogDocument) (request : SelectionRequest)
    (context : SelectionContext) :
    Except RpcFault GroupAvailability :=
  match filterCandidates catalog request context with
  | .ok (survivors, report) =>
    .ok (if survivors.isEmpty then unavailable (emptyReason report) else ⟨true, none⟩)
  | .error (.refused .physicalCountryRequired) => .ok (unavailable "physical-country-required")
  | .error (.refused .requiresEntitlementComposition) =>
    .ok (unavailable "entitlement-composition-missing")
  | .error (.refused _) => .ok (unavailable "no-eligible-server")
  | .error (.panic message) => .error (.panic message)

/-- The availability of a resolved group request. -/
def requestAvailability (config : SystemConfig) (catalog : CatalogDocument)
    (entitlements : Option VpnEntitlements) (request : SelectionRequest) :
    Except RpcFault GroupAvailability :=
  let request := unionConfiguredSecureCoreExclusions request config
  match unmetCapability entitlements request catalog with
  | some (_, some _) => .ok (unavailable "entitlement")
  | some (_, none) => .ok (unavailable "entitlement-composition-missing")
  | none =>
    if randomRequiresBackendAuthority request entitlements then
    .ok (unavailable "backend-selection-required")
    else filterAvailability catalog request { accountTier := accountTier entitlements }

/-- `group_availability`. -/
def groupAvailability (config : SystemConfig) (catalog : Option CatalogDocument)
    (entry : GroupEntry) (entitlements : Option VpnEntitlements) (location : Option String) :
    Except RpcFault GroupAvailability :=
  match catalog with
  | none => .ok (unavailable "no-catalog")
  | some catalog =>
    let paid := entitlements.map fun snapshot => snapshot.planTier == some .paid
    if entry.entitlement = .paidLocationSelection ∧ paid = some false then
    .ok (unavailable "entitlement")
    else if entry.entitlement = .paidLocationSelection ∧ paid = none then
      .ok (unavailable "entitlement-composition-missing")
    else
      match resolveGroup entry.id none ⟨none, config.physicalCountry, location⟩ config.weights with
      | .ok resolved => requestAvailability config catalog entitlements resolved.request
      | .error (.refused _) => .ok (unavailable "no-eligible-server")
      | .error (.panic message) => .error (.panic message)

end ProtonWire
