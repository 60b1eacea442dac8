import ProtonWire.Selection.Model

/-!
# The hard filters

`crates/core/src/selection.rs`, from `validate_country` to `filter_candidates`: request validation,
one function per stage, the `or_else` chain of `eliminatingStage`, and the pass over the catalog.
-/

namespace ProtonWire

/-! ## Targets -/

namespace Target

/-- The target names specific logicals. -/
def isExact : Target → Bool
  | server _ => true
  | gateway _ => true
  | _ => false

/-- The exact name. -/
def exactName : Target → Option String
  | server name => some name
  | gateway name => some name
  | _ => none

/-- The one predicate of exact matching. -/
def matchesExact (t : Target) (s : LogicalServer) : Bool :=
  match t with
  | server name => s.name == name
  | gateway name => s.gatewayName == some name
  | _ => false

/-- The routed Secure Core target. -/
def isSecureCore : Target → Bool
  | secureCore _ _ => true
  | _ => false

end Target

/-! ## Request validation -/

/-- ISO 3166-1 alpha-2, uppercase. -/
def validateCountry (code : String) : Except Fault Unit :=
  if code.utf8ByteSize = 2 ∧ code.toList.all Char.isUpper then .ok ()
  else .error (.refused (.invalidCountry code))

/-- Validates every country of a list, in order. -/
def validateCountries : List String → Except Fault Unit
  | [] => .ok ()
  | code :: codes => do
    validateCountry code
    validateCountries codes

/-- The countries a target names, and the two sides of a route. -/
def validateTarget : Target → Except Fault Unit
  | .country code => validateCountry code
  | .countries codes => validateCountries codes
  | .secureCore entryCountry exitCountry => do
    validateCountries entryCountry.toList
    validateCountries exitCountry.toList
    match entryCountry, exitCountry with
    | some entry, some exit_ =>
      if entry = exit_ then .error (.refused (.secureCoreEntryEqualsExit entry)) else .ok ()
    | _, _ => .ok ()
  | _ => .ok ()

/-- Validates every country input of the request. -/
def validateRequestCountries (request : SelectionRequest) : Except Fault Unit := do
  validateTarget request.target
  validateCountries request.constraints.excludedCountries
  validateCountries request.constraints.excludedEntryCountries
  validateCountries request.constraints.excludedExitCountries
  validateCountries request.constraints.physicalCountry.toList

/-- Port forwarding appears in the required or optional set. -/
def needsPortForwardingComposition (request : SelectionRequest) : Bool :=
  (request.constraints.requiredFeatures ++ request.constraints.optionalFeatures).any
    (· == .portForwarding)

/-- The entitlement or the capability source is missing. -/
def uncomposed (context : SelectionContext) : Bool :=
  context.portForwardingEntitled.isNone ||
    (context.portForwardingEntitled == some true && context.portForwardingCapable.isNone)

/-- The refusals before any candidate work. -/
def validateRequest (request : SelectionRequest) (context : SelectionContext) :
    Except Fault Unit := do
  validateRequestCountries request
  if !request.target.isSecureCore && (!request.constraints.excludedEntryCountries.isEmpty ||
      !request.constraints.excludedExitCountries.isEmpty) then
    .error (.refused .secureCoreOnlyConstraints)
  else if !request.target.isExact && !request.target.isSecureCore &&
      request.constraints.requiredFeatures.contains .secureCore then
    .error (.refused .standardFleetFeatureContradiction)
  else if request.constraints.excludePhysicalCountry &&
  request.constraints.physicalCountry.isNone then
    .error (.refused .physicalCountryRequired)
  else if needsPortForwardingComposition request && uncomposed context then
    .error (.refused .requiresEntitlementComposition)
  else .ok ()

/-! ## Stages -/

/-- The characters with ASCII letters in lower case. -/
def asciiLower (s : String) : List Char := s.toList.map Char.toLower

/-- ASCII-case-insensitive equality. -/
def eqFold (value : Option String) (wanted : String) : Bool :=
  value.any fun v => asciiLower v == asciiLower wanted

/-- The Standard fleet. -/
def isStandardFleet (s : LogicalServer) : Bool :=
  !s.isGateway && !s.isSecureCoreRoute && !s.features.secureCore

/-- The Secure Core fleet. -/
def isSecureCoreFleet (s : LogicalServer) : Bool :=
  !s.isGateway && (s.isSecureCoreRoute || s.features.secureCore)

/-- `bool::then_some`. -/
def thenSome (b : Bool) (stage : FilterStage) : Option FilterStage := if b then some stage else none

/-- The account-entitlement stage. -/
def accountTierStage (s : LogicalServer) (context : SelectionContext) : Option FilterStage :=
  thenSome (context.accountTier.any fun accountTier => s.tier > accountTier) .accountTier

/-- The online-state stage. -/
def onlineStage (s : LogicalServer) : Except Fault (Option FilterStage) :=
  match s.status with
  | none => .ok (some .unknownStatus)
  | some 0 => .ok (some .offline)
  | some 1 => .ok (if s.servers.any PhysicalServer.isOnline then none
    else some .allPhysicalsOffline)
  | some _ => .error (.panic "logical Status outside the recorded 0/1 domain")

/-- The geography and type stage of a Standard-fleet target. -/
def standardStage (s : LogicalServer) (target : Target) : Except Fault (Option FilterStage) :=
  if !isStandardFleet s then .ok (some .serverType)
  else match target with
    | .fastest => .ok none
    | .country code => .ok (thenSome (s.exitCountry != code) .targetGeography)
    | .countries codes => .ok (thenSome (!codes.contains s.exitCountry) .targetGeography)
    | .state name => .ok (thenSome (!eqFold s.state name) .targetGeography)
    | .city name => .ok (thenSome (!eqFold s.city name) .targetGeography)
    | .server _ | .gateway _ | .secureCore _ _ =>
      .error (.panic "routed or exact targets never reach the Standard geography stage")

/-- The geography and type stage of the routed Secure Core target. -/
def secureCoreStage (s : LogicalServer) (target : Target) : Except Fault (Option FilterStage) :=
  if !isSecureCoreFleet s then .ok (some .serverType)
  else match target with
    | .secureCore entryCountry exitCountry =>
      let exitMiss := exitCountry.any fun wanted => s.exitCountry != wanted
      let entryMiss := entryCountry.any fun wanted => s.entryCountry != wanted
      .ok (thenSome (exitMiss || entryMiss || !s.isSecureCoreRoute) .targetGeography)
    | _ => .error (.panic "the caller routed a Secure Core target here")

/-- The target stage. -/
def targetStage (s : LogicalServer) (target : Target) : Except Fault (Option FilterStage) :=
  if target.isExact then .ok (thenSome (!target.matchesExact s) .targetGeography)
  else match target with
    | .secureCore _ _ => secureCoreStage s target
    | _ => standardStage s target

/-- The physical-country exclusion stage. -/
def physicalCountryStage (s : LogicalServer) (c : Constraints) : Option FilterStage :=
  if c.excludePhysicalCountry then
    (c.physicalCountry.filter (· = s.exitCountry)).map fun _ => .physicalCountryExclusion
  else none

/-- The explicit user exclusions. -/
def exclusionStage (s : LogicalServer) (c : Constraints) : Option FilterStage :=
  if c.excludedCountries.contains s.exitCountry then some .excludedCountry
  else if c.excludedStates.any fun name => eqFold s.state name then some .excludedState
  else if c.excludedCities.any fun name => eqFold s.city name then some .excludedCity
  else if c.excludedServers.contains s.name then some .excludedServer
  else none

/-- The Secure Core routing exclusions. -/
def secureCoreExclusionStage (s : LogicalServer) (c : Constraints) : Option FilterStage :=
  if c.excludedEntryCountries.contains s.entryCountry then some .excludedEntryCountry
  else if c.excludedExitCountries.contains s.exitCountry then some .excludedExitCountry
  else none

/-- A catalog-exposed feature bit. -/
def catalogFeatureHolds (s : LogicalServer) : FeatureConstraint → Bool
  | .p2p => s.features.p2p
  | .tor => s.features.tor
  | .secureCore => s.features.secureCore
  | .streaming => s.features.streaming
  | .ipv6 => s.features.ipv6
  | .portForwarding => false

/-- Port forwarding: entitled, and named by the capability source. -/
def pfHoldsFor (s : LogicalServer) (context : SelectionContext) : Bool :=
  context.portForwardingEntitled.getD false &&
    context.portForwardingCapable.any fun capable => capable.contains s.id

/-- A feature constraint holds for a server under a context. -/
def featureHolds (s : LogicalServer) (feature : FeatureConstraint)
    (context : SelectionContext) : Bool :=
  match feature with
  | .portForwarding => pfHoldsFor s context
  | other => catalogFeatureHolds s other

/-- The required-features stage. -/
def requiredFeaturesStage (s : LogicalServer) (c : Constraints) (context : SelectionContext) :
    Option FilterStage :=
  thenSome (c.requiredFeatures.any fun feature => !featureHolds s feature context) .requiredFeatures

/-- The endpoint a protocol needs. -/
def ProtocolConstraint.endpoint (map : EntryPerProtocol) : ProtocolConstraint →
    Option ProtocolEndpoint
  | wireguardUdp => map.wireguardUdp
  | wireguardTcp => map.wireguardTcp
  | stealth => map.wireguardTls

/-- An online physical exposes the required protocol. -/
def protocolHolds (s : LogicalServer) (required : ProtocolConstraint) : Bool :=
  (s.servers.filter PhysicalServer.isOnline).any fun p =>
    p.entryPerProtocol.any fun map => (required.endpoint map).isSome

/-- The protocol-compatibility stage. -/
def protocolStage (s : LogicalServer) (c : Constraints) : Option FilterStage :=
  thenSome (c.requiredProtocol.any fun required => !protocolHolds s required) .protocolCompatibility

/-! ## The pipeline -/

/-- `Option::or_else`: the first stage that eliminates, or the next one. -/
def orElse (first next : Except Fault (Option FilterStage)) : Except Fault (Option FilterStage) :=
  match first with
  | .ok none => next
  | other => other

/-- The first stage that eliminates this candidate, in the order of the chain. -/
def eliminatingStage (s : LogicalServer) (request : SelectionRequest) (context : SelectionContext) :
    Except Fault (Option FilterStage) :=
  orElse (.ok (accountTierStage s context)) <|
  orElse (onlineStage s) <|
  orElse (targetStage s request.target) <|
  orElse (.ok (physicalCountryStage s request.constraints)) <|
  orElse (.ok (exclusionStage s request.constraints)) <|
  orElse (.ok (secureCoreExclusionStage s request.constraints)) <|
  orElse (.ok (requiredFeaturesStage s request.constraints context))
    (.ok (protocolStage s request.constraints))

/-- `counts[index] += 1`. -/
def bump (counts : List ℕ) (index : ℕ) : Except Fault (List ℕ) :=
  if index < counts.length then .ok (counts.modify index (· + 1))
  else .error (.panic "index out of bounds")

/-- The pass over the catalog: the counts per stage and the survivors. -/
def filterLoop (request : SelectionRequest) (context : SelectionContext) :
    List LogicalServer → List ℕ → List LogicalServer → Except Fault (List ℕ × List LogicalServer)
  | [], counts, survivors => .ok (counts, survivors)
  | s :: rest, counts, survivors => do
    match ← eliminatingStage s request context with
    | some stage => filterLoop request context rest (← bump counts (← stage.ordinal)) survivors
    | none => filterLoop request context rest counts (survivors ++ [s])

/-- The stage that refuses an exact target: that of the first match, or absence. -/
def exactRefusal (catalog : CatalogDocument) (request : SelectionRequest)
    (context : SelectionContext) :
    Except Fault FilterStage :=
  match catalog.logicalServers.find? request.target.matchesExact with
  | none => .ok .absentFromCatalog
  | some matched => do return (← eliminatingStage matched request context).getD .absentFromCatalog

/-- Runs the hard filters over the whole catalog. -/
def filterCandidates (catalog : CatalogDocument) (request : SelectionRequest)
    (context : SelectionContext) : Except Fault (List LogicalServer × EliminationReport) := do
  validateRequest request context
  let (counts, survivors) ← filterLoop request context catalog.logicalServers
    (List.replicate FilterStage.stages.length 0) []
  if request.target.isExact && survivors.isEmpty then
    .error (.refused (.exactServerUnavailable (request.target.exactName.getD "")
      (← exactRefusal catalog request context)))
  else
    .ok (survivors,
      { considered := catalog.logicalServers.length
        survivors := survivors.length
        stages := FilterStage.stages.zip counts })

end ProtonWire
