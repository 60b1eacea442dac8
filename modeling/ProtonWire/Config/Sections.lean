import ProtonWire.Resolve.Vocabulary

/-!
# The sections of the configuration document

`crates/store/src/config/sections.rs`: the sections and the vocabularies of the system document,
with the defaults of every field. A field of a closed vocabulary is an inductive type; `u32` and
`u64` fields are natural numbers, as the document carries them, and `f32` weights are binary32
values.
-/

namespace ProtonWire

namespace Config

/-! ## Vocabularies -/

inductive NetworkIntegrationMode where
  | auto
  | native
  | networkManager
  | networkd
  deriving DecidableEq

inductive WritableSessionStore where
  | auto
  | keyring
  | tpm2
  | encryptedLocal
  | none
  deriving DecidableEq

/-- The document spelling. -/
def WritableSessionStore.asStr : WritableSessionStore → String
  | auto => "auto"
  | keyring => "keyring"
  | tpm2 => "tpm2"
  | encryptedLocal => "encrypted-local"
  | none => "none"

inductive CredentialInputSource where
  | interactive
  | systemd
  deriving DecidableEq

inductive ProbeTransport where
  | tcpUdp
  | icmp
  deriving DecidableEq

inductive RegionTaxonomy where
  | unm49SixContinentView
  deriving DecidableEq

inductive ProtocolMode where
  | smart
  | wireguardUdp
  | wireguardTcp
  | stealth
  deriving DecidableEq

inductive Ipv6Mode where
  | auto
  | enabled
  | disabled
  deriving DecidableEq

inductive KillSwitchMode where
  | off
  | on
  | permanent
  deriving DecidableEq

inductive SplitTunnelMode where
  | off
  | exclude
  | include
  deriving DecidableEq

inductive NetShieldLevel where
  | off
  | malware
  | adsTrackersMalware
  | adultAdsTrackersMalware
  deriving DecidableEq

inductive NatMode where
  | strict
  | moderate
  deriving DecidableEq

inductive DnsMode where
  | proton
  | custom
  | system
  | none
  deriving DecidableEq

inductive DnsPolicy where
  | throughVpn
  | bypassVpn
  | systemDefault
  deriving DecidableEq

inductive DnsLeakProtection where
  | strict
  | off
  deriving DecidableEq

inductive LanPolicy where
  | allow
  | block
  deriving DecidableEq

inductive SplitRuleAction where
  | bypass
  | vpn
  deriving DecidableEq

inductive ConnectionType where
  | standard
  | secureCore
  | p2p
  | tor
  | gateway
  deriving DecidableEq

inductive ProfileRanking where
  | official
  | balanced
  | load
  | latency
  deriving DecidableEq

/-! ## Sections -/

@[ext] structure DaemonSection where
  socketPath : Option String := .none
  socketGroup : Option String := some "protonwire"
  interfaceName : String := "protonwire0"
  logLevel : String := "info"
  networkIntegration : NetworkIntegrationMode := .auto

@[ext] structure AccountSection where
  writableSessionStore : WritableSessionStore := .auto
  writableStorePriority : List WritableSessionStore := [.keyring, .tpm2, .encryptedLocal]
  credentialInputSource : CredentialInputSource := .interactive
  importProvisionedSession : Bool := false
  allowPasswordStorage : Bool := false
  preferTokenStorage : Bool := true
  encryptedLocalFallback : Bool := false
  systemdCredentialNames : List (String × String) :=
    [("password", "protonwire-password"), ("session", "protonwire-session"),
     ("username", "protonwire-username")]

@[ext] structure MetadataCacheSection where
  refreshIntervalHours : ℕ := 3
  maxPositiveJitterMinutes : ℕ := 10
  conditionalRequests : Bool := true
  emergencyMaxAgeHours : ℕ := 24

@[ext] structure LatencyProbeSection where
  enabled : Bool := true
  maxCandidates : ℕ := 20
  timeoutMs : ℕ := 750
  roundDeadlineMs : ℕ := 8000
  parallelism : ℕ := 4
  resultMinAgeMinutes : ℕ := 15
  backgroundScan : Bool := false
  transport : ProbeTransport := .tcpUdp

/-- The default weights: 0.40, 0.40, 0.15 and 0.05. -/
def defaultWeights : BalancedWeights :=
  ⟨.ratio 40 100, .ratio 40 100, .ratio 15 100, .ratio 5 100⟩

@[ext] structure SecureCoreSection where
  enabledByDefault : Bool := false
  preferredEntryCountries : List String := []
  excludedEntryCountries : List String := []
  excludedExitCountries : List String := []

@[ext] structure ServerSelectionSection where
  metadataCache : MetadataCacheSection := {}
  latencyProbe : LatencyProbeSection := {}
  balancedWeights : BalancedWeights := defaultWeights
  secureCore : SecureCoreSection := {}
  entitlementFetchBudgetMs : ℕ := 6000

@[ext] structure ConnectionGroupsSection where
  physicalCountry : Option String := .none
  regionTaxonomy : RegionTaxonomy := .unm49SixContinentView
  regionalDefaultRanking : RegionalRanking := .protonScore

@[ext] structure ProtunSection where
  mtu : String := "auto"
  sniStrategy : String := "random"

@[ext] structure Ipv6Section where
  mode : Ipv6Mode := .auto

@[ext] structure ConnectionSection where
  default : String := "fastest"
  protocol : ProtocolMode := .smart
  protun : ProtunSection := {}
  ipv6 : Ipv6Section := {}

@[ext] structure FeaturesSection where
  secureCore : Bool := false
  killSwitch : KillSwitchMode := .on
  splitTunnel : SplitTunnelMode := .off
  netshield : NetShieldLevel := .adsTrackersMalware
  portForwarding : Bool := false
  nat : NatMode := .strict
  vpnAccelerator : Bool := true

@[ext] structure DnsSection where
  mode : DnsMode := .proton
  customServers : List String := []
  policy : DnsPolicy := .throughVpn
  leakProtection : DnsLeakProtection := .strict
  externallyManagedResolvers : List String := []

@[ext] structure LanSection where
  policy : LanPolicy := .allow
  allowedCidrs : List String := ["10.0.0.0/8", "172.16.0.0/12", "192.168.0.0/16", "fd00::/8",
    "fe80::/10"]

@[ext] structure SplitTunnelDomainRule where
  domain : String := ""
  action : SplitRuleAction := .bypass
  ttlPolicy : String := "respect_dns_ttl"

@[ext] structure SplitTunnelDomains where
  enabled : Bool := true
  resolverObservation : Bool := true
  refreshOnTtl : Bool := true
  rules : List SplitTunnelDomainRule := []

@[ext] structure SplitTunnelSection where
  mode : SplitTunnelMode := .off
  attachExistingProcesses : Bool := false
  domains : SplitTunnelDomains := {}

@[ext] structure AutoConnectRetry where
  maxAttempts : ℕ := 0
  initialDelaySeconds : ℕ := 2
  maxDelaySeconds : ℕ := 300
  jitter : Bool := true

@[ext] structure AutoConnectSection where
  enabled : Bool := false
  target : String := "fastest"
  retry : AutoConnectRetry := {}

@[ext] structure ProfileSelection where
  mode : String := "fastest"
  by_ : ProfileRanking := .official
  excludeCountries : List String := []
  require : List String := []

@[ext] structure ProfileDefault where
  connectionType : ConnectionType := .standard
  protocol : ProtocolMode := .smart
  selection : ProfileSelection := {}

@[ext] structure ProfilesSection where
  default : ProfileDefault := {}

/-- `EXPECTED_SCHEMA_VERSION`. -/
def expectedSchemaVersion : ℕ := 2

/-- The root system configuration document. -/
@[ext] structure SystemConfig where
  schemaVersion : ℕ := expectedSchemaVersion
  daemon : DaemonSection := {}
  account : AccountSection := {}
  serverSelection : ServerSelectionSection := {}
  connectionGroups : ConnectionGroupsSection := {}
  connection : ConnectionSection := {}
  features : FeaturesSection := {}
  dns : DnsSection := {}
  lan : LanSection := {}
  splitTunnel : SplitTunnelSection := {}
  autoConnect : AutoConnectSection := {}
  profiles : ProfilesSection := {}

end Config

end ProtonWire
