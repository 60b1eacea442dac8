import ProtonWire.Entitlement.Model
import ProtonWire.Groups.Registry
import ProtonWire.Selection.Rank

/-!
# The selection surface: facts and mappings

`apps/daemon/src/selection.rs`: what a request reads, the entitlement facts, and the mappings
between the wire and the core. What one request reads is a value, `RequestReads`: the cached
catalog, the composed entitlement snapshot, the cached location, the answer of the probe round over
a shortlist and the entropy. A `RpcFault` is a typed refusal or a panic.

* `unmetCapability`, `randomRequiresBackendAuthority`: the facts behind two of the gates;
* `selectionErrorToRpcExplained`: the core's refusals in the RPC taxonomy.
-/

namespace ProtonWire

/-! ## Configuration and reads -/

/-- The ranking of the regional groups. -/
inductive RegionalRanking where
  | protonScore
  | balanced
  | load
  | latency
  deriving DecidableEq

/-- The configuration token. -/
def RegionalRanking.asStr : RegionalRanking → String
  | protonScore => "proton-score"
  | balanced => "balanced"
  | load => "load"
  | latency => "latency"

/-- The configured weights; the schema has no `history`. -/
structure BalancedWeights where
  load : Binary32
  latency : Binary32
  stability : Binary32
  featureMatch : Binary32

/-- The configuration that selection reads: `server_selection` and `connection_groups`. -/
structure SystemConfig where
  maxCandidates : ℕ
  balancedWeights : BalancedWeights
  excludedEntryCountries : List String
  excludedExitCountries : List String
  physicalCountry : Option String
  regionalDefaultRanking : RegionalRanking

/-- A loaded catalog and its revision. -/
structure LoadedCatalog where
  etag : Option String
  fetchedUnix : ℕ
  document : CatalogDocument

/-- A typed refusal, or a panic with its message. -/
inductive RpcFault where
  | refused (error : RpcError)
  | panic (message : String)

/-- What one request reads. -/
structure RequestReads where
  catalog : Except CatalogCacheError (Option CachedCatalog)
  entitlements : Except RpcError (Option VpnEntitlements)
  location : Option String
  probe : List String → LatencyTable
  entropy : Except RpcError UInt64

/-- Refuse with a code and a message. -/
def refuse {α : Type} (code : RpcErrorCode) (message : String) : Except RpcFault α :=
  .error (.refused (.new code message))

/-- A refusal of a read. -/
def orRefuse {α : Type} : Except RpcError α → Except RpcFault α
  | .ok a => .ok a
  | .error error => .error (.refused error)

/-- The strict catalog read. -/
def cachedCatalog (J : Serde) (read : Except CatalogCacheError (Option CachedCatalog)) :
    Except RpcError (Option LoadedCatalog) :=
  match read with
  | .ok (some cached) =>
    match CatalogDocument.fromBytes J cached.body.toUTF8 with
    | .ok document => .ok (some ⟨cached.etag, cached.fetchedUnix, document⟩)
    | .error error => .error (.new .internal
        ("the cached catalog body no longer parses against the live model: " ++ error.display))
  | .ok none => .ok none
  | .error error =>
    .error (.new .configInvalid ("cached catalog failed the strict load: " ++ error.display))

/-- The weights a balanced policy runs under. -/
def SystemConfig.weights (config : SystemConfig) : WeightedSignals :=
  ⟨config.balancedWeights.load, config.balancedWeights.latency, config.balancedWeights.stability,
    config.balancedWeights.featureMatch, .zero⟩

/-- The sources of the physical country, and which one won. -/
def physicalCountryOver (explicitRequest config cachedLocation : Option String) :
    Option PhysicalCountryValue :=
  match explicitRequest, config with
  | some country, _ => some ⟨country, .explicitRequest⟩
  | none, some country => some ⟨country, .config⟩
  | none, none => cachedLocation.map fun country => ⟨country, .cachedLocation⟩

/-! ## Entitlement facts -/

/-- The recorded paid classification of a composed plan. -/
def isPaid (entitlements : Option VpnEntitlements) : Bool :=
  entitlements.bind VpnEntitlements.planTier == some .paid

/-- The account tier, saturated into the catalog's `i8`. -/
def accountTier (entitlements : Option VpnEntitlements) : Option ℤ :=
  (entitlements.bind VpnEntitlements.maxTier).map fun tier =>
  (BitVec.ofInt 8 (min tier i8Max)).toInt

/-- The port-forwarding fact. -/
def pfEntitlement (entitlements : Option VpnEntitlements) : Option Bool :=
  entitlements.map fun snapshot => snapshot.planTier == some .paid

/-- The capabilities of the logicals an exact server name matches: Secure Core, P2P, Tor. -/
def exactCapabilities (target : Target) (catalog : CatalogDocument) : Bool × Bool × Bool :=
  match target with
  | .server name =>
    let named := catalog.logicalServers.filter fun logical => logical.name == name
    (named.any fun logical => logical.isSecureCoreRoute || logical.features.secureCore,
      named.any fun logical => logical.features.p2p, named.any fun logical => logical.features.tor)
  | _ => (false, false, false)

/-- The required or the optional features name it. -/
def Constraints.names (c : Constraints) (feature : FeatureConstraint) : Bool :=
  c.requiredFeatures.contains feature || c.optionalFeatures.contains feature

/-- The first plan-gated capability that a request names and the plan lacks, with its allowance. -/
def unmetCapability (entitlements : Option VpnEntitlements) (request : SelectionRequest)
    (catalog : CatalogDocument) : Option (String × Option Bool) :=
  let allowances := entitlements.map VpnEntitlements.features
  let exact := exactCapabilities request.target catalog
  let candidates : List (Bool × String × Option Bool) :=
    [(request.target.isSecureCore || request.constraints.names .secureCore || exact.1,
      "secure-core",
        allowances.bind FeatureAllowances.secureCore),
      (request.constraints.names .p2p || exact.2.1, "p2p", allowances.bind FeatureAllowances.p2p),
      (request.constraints.names .tor || exact.2.2, "tor", allowances.bind FeatureAllowances.tor)]
  candidates.findSome? fun (named, capability, allowance) =>
    if named && allowance != some true then some (capability, allowance) else none

/-- Random selection is the backend's for a plan that is not paid. -/
def randomRequiresBackendAuthority (request : SelectionRequest)
    (entitlements : Option VpnEntitlements) : Bool :=
  request.policy == .random && !isPaid entitlements

/-- Add the configured countries that a list does not have yet. -/
def unionCountries (configured sink : List String) : List String :=
  configured.foldl (fun sink country => if sink.contains country then sink
    else sink ++ [country]) sink

/-- The configured Secure Core exclusions, on a routed request. -/
def unionConfiguredSecureCoreExclusions (request : SelectionRequest) (config : SystemConfig) :
    SelectionRequest :=
  if request.target.isSecureCore then
    { request with constraints := { request.constraints with
        excludedEntryCountries :=
          unionCountries config.excludedEntryCountries request.constraints.excludedEntryCountries
        excludedExitCountries :=
          unionCountries config.excludedExitCountries request.constraints.excludedExitCountries } }
  else request

/-! ## The wire vocabulary -/

/-- A wire feature in the core's vocabulary. -/
def wireFeature : SelectionFeature → FeatureConstraint
  | .p2p => .p2p
  | .tor => .tor
  | .secureCore => .secureCore
  | .streaming => .streaming
  | .ipv6 => .ipv6
  | .portForwarding => .portForwarding

/-- The stable token of a core feature. -/
def featureToken : FeatureConstraint → String
  | .p2p => "p2p"
  | .tor => "tor"
  | .secureCore => "secure-core"
  | .streaming => "streaming"
  | .ipv6 => "ipv6"
  | .portForwarding => "port-forwarding"

/-- A wire protocol in the core's vocabulary. -/
def wireProtocol : SelectionProtocol → ProtocolConstraint
  | .wireguardUdp => .wireguardUdp
  | .wireguardTcp => .wireguardTcp
  | .stealth => .stealth

/-- The stable token of a core protocol. -/
def protocolToken : ProtocolConstraint → String
  | .wireguardUdp => "wireguard-udp"
  | .wireguardTcp => "wireguard-tcp"
  | .stealth => "stealth"

/-- The stable token of a policy. -/
def policyToken : RankingPolicy → String
  | .official => "official"
  | .balanced _ => "balanced"
  | .lowestLoad => "load"
  | .latency => "latency"
  | .random => "random"

/-- The stages that eliminated a candidate. -/
def stageReports (report : EliminationReport) : List StageReport :=
  (report.stages.filter fun (_, eliminated) => eliminated > 0).map fun (stage, eliminated) =>
    ⟨stage.label, eliminated⟩

/-- The elimination report as a refusal's details. -/
def reportDetails (report : EliminationReport) : Option ErrorDetails :=
  some (.report ⟨report.considered, report.survivors, stageReports report⟩)

/-- The core's refusals in the RPC taxonomy. -/
def selectionErrorToRpc (error : SelectionError) : RpcError :=
  match error with
  | .constraintsNotSatisfied report =>
    ⟨.noEligibleServer, "no eligible server: " ++ report.display, reportDetails report⟩
  | .exactServerUnavailable name stage =>
    ⟨.noEligibleServer, "exact server `" ++ name ++ "` is not selectable (" ++ stage.label ++
      "): exact requests never fall back to another server", some (.exactServer stage.label name)⟩
  | .officialScoreUnavailable _ _ => .new .noEligibleServer error.display
  | .latencyDataUnavailable _ => .new .noEligibleServer error.display
  | .physicalCountryRequired => .new .invalidParams error.display
  | .requiresEntitlementComposition => .new .entitlementMissing (error.display ++
      ": the entitlement adapter is not installed (the session lane wires it); the seam refuses typed " ++
      "rather than guessing")
  | .randomEntropyRequired =>
    .new .internal "the daemon failed to supply the random policy's entropy"
  | _ => .new .invalidParams error.display

/-- Why a port-forwarding constraint eliminates every candidate. -/
def pfExplanation : String :=
  "; the port-forwarding constraint eliminated every candidate because no per-server port-forwarding " ++
    "capability source exists yet (M6's NAT-PMP lane supplies it — the composition is honestly empty, " ++
    "never fabricated)"

/-- `selectionErrorToRpc` with the resolved request's context. -/
def selectionErrorToRpcExplained (error : SelectionError) (request : SelectionRequest) : RpcError :=
  match error with
  | .constraintsNotSatisfied report =>
    let pfText := if request.constraints.names .portForwarding then pfExplanation else ""
    if report.lastEliminating = some .protocolCompatibility then
      ⟨.protocolUnavailable, "no eligible server speaks the required protocol: " ++ report.display,
        reportDetails report⟩
    else if request.target.isSecureCore then
      ⟨.secureCoreUnavailable, "no Secure Core route satisfies the request: " ++
       report.display ++ pfText,
        reportDetails report⟩
    else ⟨.noEligibleServer, "no eligible server: " ++ report.display ++ pfText,
      reportDetails report⟩
  | other => selectionErrorToRpc other

/-- A core result in the RPC taxonomy. -/
def orExplain {α : Type} (explain : SelectionError → RpcError) : Except Fault α → Except RpcFault α
  | .ok a => .ok a
  | .error (.refused error) => .error (.refused (explain error))
  | .error (.panic message) => .error (.panic message)

/-- A group resolution in the RPC taxonomy. -/
def orGroupRefuse {α : Type} : Except GroupFault α → Except RpcFault α
  | .ok a => .ok a
  | .error (.refused error) => refuse .invalidParams error.display
  | .error (.panic message) => .error (.panic message)

end ProtonWire
