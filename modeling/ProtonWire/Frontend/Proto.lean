import ProtonWire.Lib.Binary32

/-!
# The wire vocabulary

`crates/frontend-api/src/proto.rs` and `state.rs`: what a client sends to the selection surface and
what it gets back.

* `ConnectTarget`, `SelectionModifiers`: the request;
* `SelectionResult`, `GroupAvailability`: the answers;
* `RpcError`: the refusal, with its structured details;
* `VpnState`: the published connection state.
-/

namespace ProtonWire

/-! ## Requests -/

/-- Special server classes addressed without a name. -/
inductive SpecialClass where
  | p2p
  | tor
  deriving DecidableEq

/-- The connection target grammar. -/
inductive ConnectTarget where
  | fastest
  | random
  | country (country : String)
  | state (stateOrRegion : String)
  | city (city : String)
  | server (server : String)
  | special (class_ : SpecialClass)
  | gateway (gateway : String)
  | secureCore (entryCountry exitCountry : Option String)
  | group (groupId : String)
  | profile (profile : String)
  deriving DecidableEq

/-- A feature as a selection constraint. -/
inductive SelectionFeature where
  | p2p
  | tor
  | secureCore
  | streaming
  | ipv6
  | portForwarding
  deriving DecidableEq

/-- The stable token. -/
def SelectionFeature.asStr : SelectionFeature → String
  | p2p => "p2p"
  | tor => "tor"
  | secureCore => "secure-core"
  | streaming => "streaming"
  | ipv6 => "ipv6"
  | portForwarding => "port-forwarding"

/-- A required protocol as a selection constraint. -/
inductive SelectionProtocol where
  | wireguardUdp
  | wireguardTcp
  | stealth
  deriving DecidableEq

/-- The selection-plane modifiers. -/
structure SelectionModifiers where
  by_ : Option String := none
  physicalCountry : Option String := none
  excludedCountries : List String := []
  excludedStates : List String := []
  excludedCities : List String := []
  excludedServers : List String := []
  excludedEntryCountries : List String := []
  excludedExitCountries : List String := []
  requiredFeatures : List SelectionFeature := []
  optionalFeatures : List SelectionFeature := []
  requiredProtocol : Option SelectionProtocol := none

/-! ## Answers -/

/-- Which source supplied the physical country. -/
inductive PhysicalCountrySource where
  | explicitRequest
  | config
  | cachedLocation
  deriving DecidableEq

/-- The resolved physical country with its source. -/
structure PhysicalCountryValue where
  country : String
  source : PhysicalCountrySource

/-- Where the catalog came from. -/
structure SelectionCatalogProvenance where
  serverCatalogEtag : Option String
  serverCatalogFetchedUnix : Option ℕ
  groupCatalogRevision : Option String

/-- Where a group's definition and policy came from. -/
structure GroupProvenance where
  groupId : String
  origin : String
  policyProvenance : String

/-- What was resolved, rendered. -/
structure ResolvedSelector where
  target : String
  detail : Option String
  policy : String

/-- One stage of the elimination report. -/
structure StageReport where
  stage : String
  eliminated : ℕ

/-- The hard filters' account. -/
structure HardFiltersReport where
  considered : ℕ
  survivors : ℕ
  stages : List StageReport

/-- The decomposition of a weighted score. -/
structure WeightedBreakdownWire where
  loadTerm : Binary32
  latencyTerm : Binary32
  stabilityTerm : Binary32
  featureMatchTerm : Binary32
  historyTerm : Binary32
  total : Binary32

/-- The signals behind the winner. -/
structure WinnerSignals where
  provenance : String
  protonScore : Option Binary32
  load : Option ℤ
  latencyMs : Option ℕ
  weighted : Option WeightedBreakdownWire

/-- The winner. -/
structure SelectedServer where
  id : String
  name : String
  entryCountry : String
  exitCountry : String
  city : Option String
  tier : ℤ
  signals : WinnerSignals

/-- The selection surface's answer. -/
structure SelectionResult where
  catalog : SelectionCatalogProvenance
  group : Option GroupProvenance
  selector : ResolvedSelector
  hardFilters : HardFiltersReport
  physicalCountry : Option PhysicalCountryValue
  winner : SelectedServer
  requestedFeatures : List String
  featureDifference : List String

/-- One group's availability. -/
structure GroupAvailability where
  available : Bool
  reason : Option String

/-! ## Refusals -/

/-- The codes of the refusals modelled here. -/
inductive RpcErrorCode where
  | notImplemented
  | invalidParams
  | permissionDenied
  | entitlementMissing
  | noEligibleServer
  | networkUnavailable
  | configInvalid
  | secureCoreUnavailable
  | protocolUnavailable
  | internal
  deriving DecidableEq

/-- The structured details a refusal may carry. -/
inductive ErrorDetails where
  | report (report : HardFiltersReport)
  | exactServer (stage server : String)

/-- A structured error. -/
structure RpcError where
  code : RpcErrorCode
  message : String
  details : Option ErrorDetails

/-- `RpcError::new`: no details. -/
def RpcError.new (code : RpcErrorCode) (message : String) : RpcError := ⟨code, message, none⟩

/-! ## The published state -/

/-- The VPN connection state. -/
inductive VpnState where
  | disconnected
  | connecting
  | connected
  | disconnecting
  deriving DecidableEq

end ProtonWire
