import ProtonWire.Config.Sections
import ProtonWire.Lib.Rounding
import ProtonWire.Store.FsTrust
import ProtonWire.Store.Yaml

/-!
# The system configuration document

`crates/store/src/config/mod.rs`: the fields of the document and who may set them, the cross-field
rules, and the two loads. Reading a file is an answer of the system; the YAML deserializer is a
parameter behind the policy of `from_slice`.

* `Field`, `SystemConfig.get`: the rows of `authority_report`, and the value each names;
* `SystemConfig.violations`, `SystemConfig.validate`: the cross-field rules;
* `SystemConfig.loadInner`: the load behind `load` and `load_strict`;
* **`SystemConfig.ext_get`**: the report covers the document: its rows determine every field;
* **`violations_of_loadInner`**: a loaded document has passed the rules, the built-in defaults too.
-/

namespace ProtonWire

namespace Config

attribute [ext] BalancedWeights

/-! ## Fields -/

/-- Who may set a field. -/
inductive Authority where
  | system
  | perUser
  deriving DecidableEq

/-- The fields of the document, and those of the elements of its one list of structures. -/
inductive Field where
  | schemaVersion
  | daemonSocketPath
  | daemonSocketGroup
  | daemonInterfaceName
  | daemonLogLevel
  | daemonNetworkIntegration
  | accountWritableSessionStore
  | accountWritableStorePriority
  | accountCredentialInputSource
  | accountImportProvisionedSession
  | accountAllowPasswordStorage
  | accountPreferTokenStorage
  | accountEncryptedLocalFallback
  | accountSystemdCredentialNames
  | serverSelectionMetadataCacheRefreshIntervalHours
  | serverSelectionMetadataCacheMaxPositiveJitterMinutes
  | serverSelectionMetadataCacheConditionalRequests
  | serverSelectionMetadataCacheEmergencyMaxAgeHours
  | serverSelectionLatencyProbeEnabled
  | serverSelectionLatencyProbeMaxCandidates
  | serverSelectionLatencyProbeTimeoutMs
  | serverSelectionLatencyProbeRoundDeadlineMs
  | serverSelectionEntitlementFetchBudgetMs
  | serverSelectionLatencyProbeParallelism
  | serverSelectionLatencyProbeResultMinAgeMinutes
  | serverSelectionLatencyProbeBackgroundScan
  | serverSelectionLatencyProbeTransport
  | serverSelectionBalancedWeightsLoad
  | serverSelectionBalancedWeightsLatency
  | serverSelectionBalancedWeightsStability
  | serverSelectionBalancedWeightsFeatureMatch
  | serverSelectionSecureCoreEnabledByDefault
  | serverSelectionSecureCorePreferredEntryCountries
  | serverSelectionSecureCoreExcludedEntryCountries
  | serverSelectionSecureCoreExcludedExitCountries
  | connectionGroupsPhysicalCountry
  | connectionGroupsRegionTaxonomy
  | connectionGroupsRegionalDefaultRanking
  | connectionDefault
  | connectionProtocol
  | connectionProtunMtu
  | connectionProtunSniStrategy
  | connectionIpv6Mode
  | dnsMode
  | dnsCustomServers
  | dnsPolicy
  | dnsLeakProtection
  | dnsExternallyManagedResolvers
  | lanPolicy
  | lanAllowedCidrs
  | splitTunnelMode
  | splitTunnelAttachExistingProcesses
  | splitTunnelDomainsEnabled
  | splitTunnelDomainsResolverObservation
  | splitTunnelDomainsRefreshOnTtl
  | splitTunnelDomainsRules
  | splitTunnelDomainsRulesDomain
  | splitTunnelDomainsRulesAction
  | splitTunnelDomainsRulesTtlPolicy
  | autoConnectEnabled
  | autoConnectTarget
  | autoConnectRetryMaxAttempts
  | autoConnectRetryInitialDelaySeconds
  | autoConnectRetryMaxDelaySeconds
  | autoConnectRetryJitter
  | featuresSecureCore
  | featuresKillSwitch
  | featuresSplitTunnel
  | featuresNetshield
  | featuresPortForwarding
  | featuresNat
  | featuresVpnAccelerator
  | profilesDefaultConnectionType
  | profilesDefaultProtocol
  | profilesDefaultSelectionMode
  | profilesDefaultSelectionBy
  | profilesDefaultSelectionExcludeCountries
  | profilesDefaultSelectionRequire
  deriving DecidableEq

/-- The type of a field. -/
def Field.Value : Field → Type
  | .schemaVersion | .serverSelectionMetadataCacheRefreshIntervalHours
  | .serverSelectionMetadataCacheMaxPositiveJitterMinutes | .serverSelectionMetadataCacheEmergencyMaxAgeHours
  | .serverSelectionLatencyProbeMaxCandidates | .serverSelectionLatencyProbeTimeoutMs
  | .serverSelectionLatencyProbeRoundDeadlineMs | .serverSelectionEntitlementFetchBudgetMs
  | .serverSelectionLatencyProbeParallelism | .serverSelectionLatencyProbeResultMinAgeMinutes
  | .autoConnectRetryMaxAttempts | .autoConnectRetryInitialDelaySeconds | .autoConnectRetryMaxDelaySeconds => ℕ
  | .daemonSocketPath | .daemonSocketGroup | .connectionGroupsPhysicalCountry => Option String
  | .daemonInterfaceName | .daemonLogLevel | .connectionDefault | .connectionProtunMtu
  | .connectionProtunSniStrategy | .autoConnectTarget | .profilesDefaultSelectionMode => String
  | .daemonNetworkIntegration => NetworkIntegrationMode
  | .accountWritableSessionStore => WritableSessionStore
  | .accountWritableStorePriority => List WritableSessionStore
  | .accountCredentialInputSource => CredentialInputSource
  | .accountImportProvisionedSession | .accountAllowPasswordStorage | .accountPreferTokenStorage
  | .accountEncryptedLocalFallback | .serverSelectionMetadataCacheConditionalRequests
  | .serverSelectionLatencyProbeEnabled | .serverSelectionLatencyProbeBackgroundScan
  | .serverSelectionSecureCoreEnabledByDefault | .splitTunnelAttachExistingProcesses
  | .splitTunnelDomainsEnabled | .splitTunnelDomainsResolverObservation | .splitTunnelDomainsRefreshOnTtl
  | .autoConnectEnabled | .autoConnectRetryJitter | .featuresSecureCore | .featuresPortForwarding
  | .featuresVpnAccelerator => Bool
  | .accountSystemdCredentialNames => List (String × String)
  | .serverSelectionLatencyProbeTransport => ProbeTransport
  | .serverSelectionBalancedWeightsLoad | .serverSelectionBalancedWeightsLatency
  | .serverSelectionBalancedWeightsStability | .serverSelectionBalancedWeightsFeatureMatch =>
    Binary32
  | .serverSelectionSecureCorePreferredEntryCountries | .serverSelectionSecureCoreExcludedEntryCountries
  | .serverSelectionSecureCoreExcludedExitCountries | .dnsCustomServers | .dnsExternallyManagedResolvers
  | .lanAllowedCidrs | .splitTunnelDomainsRulesDomain | .splitTunnelDomainsRulesTtlPolicy
  | .profilesDefaultSelectionExcludeCountries | .profilesDefaultSelectionRequire => List String
  | .connectionGroupsRegionTaxonomy => RegionTaxonomy
  | .connectionGroupsRegionalDefaultRanking => RegionalRanking
  | .connectionProtocol | .profilesDefaultProtocol => ProtocolMode
  | .connectionIpv6Mode => Ipv6Mode
  | .dnsMode => DnsMode
  | .dnsPolicy => DnsPolicy
  | .dnsLeakProtection => DnsLeakProtection
  | .lanPolicy => LanPolicy
  | .splitTunnelMode | .featuresSplitTunnel => SplitTunnelMode
  | .splitTunnelDomainsRules => List SplitTunnelDomainRule
  | .splitTunnelDomainsRulesAction => List SplitRuleAction
  | .featuresKillSwitch => KillSwitchMode
  | .featuresNetshield => NetShieldLevel
  | .featuresNat => NatMode
  | .profilesDefaultConnectionType => ConnectionType
  | .profilesDefaultSelectionBy => ProfileRanking

/-- The path of a field in the document, and who may set it. -/
def Field.row : Field → String × Authority
  | .schemaVersion => ("schema_version", .system)
  | .daemonSocketPath => ("daemon.socket_path", .system)
  | .daemonSocketGroup => ("daemon.socket_group", .system)
  | .daemonInterfaceName => ("daemon.interface_name", .system)
  | .daemonLogLevel => ("daemon.log_level", .system)
  | .daemonNetworkIntegration => ("daemon.network_integration", .system)
  | .accountWritableSessionStore => ("account.writable_session_store", .system)
  | .accountWritableStorePriority => ("account.writable_store_priority", .system)
  | .accountCredentialInputSource => ("account.credential_input_source", .system)
  | .accountImportProvisionedSession => ("account.import_provisioned_session", .system)
  | .accountAllowPasswordStorage => ("account.allow_password_storage", .system)
  | .accountPreferTokenStorage => ("account.prefer_token_storage", .system)
  | .accountEncryptedLocalFallback => ("account.encrypted_local_fallback", .system)
  | .accountSystemdCredentialNames => ("account.systemd_credential_names", .system)
  | .serverSelectionMetadataCacheRefreshIntervalHours =>
    ("server_selection.metadata_cache.refresh_interval_hours", .system)
  | .serverSelectionMetadataCacheMaxPositiveJitterMinutes =>
    ("server_selection.metadata_cache.max_positive_jitter_minutes", .system)
  | .serverSelectionMetadataCacheConditionalRequests =>
    ("server_selection.metadata_cache.conditional_requests", .system)
  | .serverSelectionMetadataCacheEmergencyMaxAgeHours =>
    ("server_selection.metadata_cache.emergency_max_age_hours", .system)
  | .serverSelectionLatencyProbeEnabled => ("server_selection.latency_probe.enabled", .system)
  | .serverSelectionLatencyProbeMaxCandidates =>
    ("server_selection.latency_probe.max_candidates", .system)
  | .serverSelectionLatencyProbeTimeoutMs => ("server_selection.latency_probe.timeout_ms", .system)
  | .serverSelectionLatencyProbeRoundDeadlineMs =>
    ("server_selection.latency_probe.round_deadline_ms", .system)
  | .serverSelectionEntitlementFetchBudgetMs =>
    ("server_selection.entitlement_fetch_budget_ms", .system)
  | .serverSelectionLatencyProbeParallelism =>
    ("server_selection.latency_probe.parallelism", .system)
  | .serverSelectionLatencyProbeResultMinAgeMinutes =>
    ("server_selection.latency_probe.result_min_age_minutes", .system)
  | .serverSelectionLatencyProbeBackgroundScan =>
    ("server_selection.latency_probe.background_scan", .system)
  | .serverSelectionLatencyProbeTransport => ("server_selection.latency_probe.transport", .system)
  | .serverSelectionBalancedWeightsLoad => ("server_selection.balanced_weights.load", .system)
  | .serverSelectionBalancedWeightsLatency => ("server_selection.balanced_weights.latency", .system)
  | .serverSelectionBalancedWeightsStability =>
    ("server_selection.balanced_weights.stability", .system)
  | .serverSelectionBalancedWeightsFeatureMatch =>
    ("server_selection.balanced_weights.feature_match", .system)
  | .serverSelectionSecureCoreEnabledByDefault =>
    ("server_selection.secure_core.enabled_by_default", .system)
  | .serverSelectionSecureCorePreferredEntryCountries =>
    ("server_selection.secure_core.preferred_entry_countries", .system)
  | .serverSelectionSecureCoreExcludedEntryCountries =>
    ("server_selection.secure_core.excluded_entry_countries", .system)
  | .serverSelectionSecureCoreExcludedExitCountries =>
    ("server_selection.secure_core.excluded_exit_countries", .system)
  | .connectionGroupsPhysicalCountry => ("connection_groups.physical_country", .system)
  | .connectionGroupsRegionTaxonomy => ("connection_groups.region_taxonomy", .system)
  | .connectionGroupsRegionalDefaultRanking =>
    ("connection_groups.regional_default_ranking", .system)
  | .connectionDefault => ("connection.default", .system)
  | .connectionProtocol => ("connection.protocol", .system)
  | .connectionProtunMtu => ("connection.protun.mtu", .system)
  | .connectionProtunSniStrategy => ("connection.protun.sni_strategy", .system)
  | .connectionIpv6Mode => ("connection.ipv6.mode", .system)
  | .dnsMode => ("dns.mode", .system)
  | .dnsCustomServers => ("dns.custom_servers", .system)
  | .dnsPolicy => ("dns.policy", .system)
  | .dnsLeakProtection => ("dns.leak_protection", .system)
  | .dnsExternallyManagedResolvers => ("dns.externally_managed_resolvers", .system)
  | .lanPolicy => ("lan.policy", .system)
  | .lanAllowedCidrs => ("lan.allowed_cidrs", .system)
  | .splitTunnelMode => ("split_tunnel.mode", .system)
  | .splitTunnelAttachExistingProcesses => ("split_tunnel.attach_existing_processes", .system)
  | .splitTunnelDomainsEnabled => ("split_tunnel.domains.enabled", .system)
  | .splitTunnelDomainsResolverObservation => ("split_tunnel.domains.resolver_observation", .system)
  | .splitTunnelDomainsRefreshOnTtl => ("split_tunnel.domains.refresh_on_ttl", .system)
  | .splitTunnelDomainsRules => ("split_tunnel.domains.rules", .system)
  | .splitTunnelDomainsRulesDomain => ("split_tunnel.domains.rules[].domain", .system)
  | .splitTunnelDomainsRulesAction => ("split_tunnel.domains.rules[].action", .system)
  | .splitTunnelDomainsRulesTtlPolicy => ("split_tunnel.domains.rules[].ttl_policy", .system)
  | .autoConnectEnabled => ("auto_connect.enabled", .system)
  | .autoConnectTarget => ("auto_connect.target", .system)
  | .autoConnectRetryMaxAttempts => ("auto_connect.retry.max_attempts", .system)
  | .autoConnectRetryInitialDelaySeconds => ("auto_connect.retry.initial_delay_seconds", .system)
  | .autoConnectRetryMaxDelaySeconds => ("auto_connect.retry.max_delay_seconds", .system)
  | .autoConnectRetryJitter => ("auto_connect.retry.jitter", .system)
  | .featuresSecureCore => ("features.secure_core", .perUser)
  | .featuresKillSwitch => ("features.kill_switch", .perUser)
  | .featuresSplitTunnel => ("features.split_tunnel", .perUser)
  | .featuresNetshield => ("features.netshield", .perUser)
  | .featuresPortForwarding => ("features.port_forwarding", .perUser)
  | .featuresNat => ("features.nat", .perUser)
  | .featuresVpnAccelerator => ("features.vpn_accelerator", .perUser)
  | .profilesDefaultConnectionType => ("profiles.default.connection_type", .perUser)
  | .profilesDefaultProtocol => ("profiles.default.protocol", .perUser)
  | .profilesDefaultSelectionMode => ("profiles.default.selection.mode", .perUser)
  | .profilesDefaultSelectionBy => ("profiles.default.selection.by", .perUser)
  | .profilesDefaultSelectionExcludeCountries =>
    ("profiles.default.selection.exclude_countries", .perUser)
  | .profilesDefaultSelectionRequire => ("profiles.default.selection.require", .perUser)

/-- The fields in the order of the report. -/
def Field.all : List Field :=
  [.schemaVersion, .daemonSocketPath, .daemonSocketGroup, .daemonInterfaceName, .daemonLogLevel,
   .daemonNetworkIntegration, .accountWritableSessionStore, .accountWritableStorePriority,
   .accountCredentialInputSource, .accountImportProvisionedSession, .accountAllowPasswordStorage,
   .accountPreferTokenStorage, .accountEncryptedLocalFallback, .accountSystemdCredentialNames,
   .serverSelectionMetadataCacheRefreshIntervalHours,
   .serverSelectionMetadataCacheMaxPositiveJitterMinutes,
   .serverSelectionMetadataCacheConditionalRequests,
   .serverSelectionMetadataCacheEmergencyMaxAgeHours, .serverSelectionLatencyProbeEnabled,
   .serverSelectionLatencyProbeMaxCandidates, .serverSelectionLatencyProbeTimeoutMs,
   .serverSelectionLatencyProbeRoundDeadlineMs, .serverSelectionEntitlementFetchBudgetMs,
   .serverSelectionLatencyProbeParallelism, .serverSelectionLatencyProbeResultMinAgeMinutes,
   .serverSelectionLatencyProbeBackgroundScan, .serverSelectionLatencyProbeTransport,
   .serverSelectionBalancedWeightsLoad, .serverSelectionBalancedWeightsLatency,
   .serverSelectionBalancedWeightsStability, .serverSelectionBalancedWeightsFeatureMatch,
   .serverSelectionSecureCoreEnabledByDefault, .serverSelectionSecureCorePreferredEntryCountries,
   .serverSelectionSecureCoreExcludedEntryCountries,
   .serverSelectionSecureCoreExcludedExitCountries, .connectionGroupsPhysicalCountry,
   .connectionGroupsRegionTaxonomy, .connectionGroupsRegionalDefaultRanking, .connectionDefault,
   .connectionProtocol, .connectionProtunMtu, .connectionProtunSniStrategy, .connectionIpv6Mode,
   .dnsMode, .dnsCustomServers, .dnsPolicy, .dnsLeakProtection, .dnsExternallyManagedResolvers,
   .lanPolicy, .lanAllowedCidrs, .splitTunnelMode, .splitTunnelAttachExistingProcesses,
   .splitTunnelDomainsEnabled, .splitTunnelDomainsResolverObservation,
   .splitTunnelDomainsRefreshOnTtl, .splitTunnelDomainsRules, .splitTunnelDomainsRulesDomain,
   .splitTunnelDomainsRulesAction, .splitTunnelDomainsRulesTtlPolicy, .autoConnectEnabled,
   .autoConnectTarget, .autoConnectRetryMaxAttempts, .autoConnectRetryInitialDelaySeconds,
   .autoConnectRetryMaxDelaySeconds, .autoConnectRetryJitter, .featuresSecureCore,
   .featuresKillSwitch, .featuresSplitTunnel, .featuresNetshield, .featuresPortForwarding,
   .featuresNat, .featuresVpnAccelerator, .profilesDefaultConnectionType, .profilesDefaultProtocol,
   .profilesDefaultSelectionMode, .profilesDefaultSelectionBy,
   .profilesDefaultSelectionExcludeCountries, .profilesDefaultSelectionRequire]

/-- The value of a field. -/
def SystemConfig.get (c : SystemConfig) : (f : Field) → f.Value
  | .schemaVersion => c.schemaVersion
  | .daemonSocketPath => c.daemon.socketPath
  | .daemonSocketGroup => c.daemon.socketGroup
  | .daemonInterfaceName => c.daemon.interfaceName
  | .daemonLogLevel => c.daemon.logLevel
  | .daemonNetworkIntegration => c.daemon.networkIntegration
  | .accountWritableSessionStore => c.account.writableSessionStore
  | .accountWritableStorePriority => c.account.writableStorePriority
  | .accountCredentialInputSource => c.account.credentialInputSource
  | .accountImportProvisionedSession => c.account.importProvisionedSession
  | .accountAllowPasswordStorage => c.account.allowPasswordStorage
  | .accountPreferTokenStorage => c.account.preferTokenStorage
  | .accountEncryptedLocalFallback => c.account.encryptedLocalFallback
  | .accountSystemdCredentialNames => c.account.systemdCredentialNames
  | .serverSelectionMetadataCacheRefreshIntervalHours =>
    c.serverSelection.metadataCache.refreshIntervalHours
  | .serverSelectionMetadataCacheMaxPositiveJitterMinutes =>
    c.serverSelection.metadataCache.maxPositiveJitterMinutes
  | .serverSelectionMetadataCacheConditionalRequests =>
    c.serverSelection.metadataCache.conditionalRequests
  | .serverSelectionMetadataCacheEmergencyMaxAgeHours =>
    c.serverSelection.metadataCache.emergencyMaxAgeHours
  | .serverSelectionLatencyProbeEnabled => c.serverSelection.latencyProbe.enabled
  | .serverSelectionLatencyProbeMaxCandidates => c.serverSelection.latencyProbe.maxCandidates
  | .serverSelectionLatencyProbeTimeoutMs => c.serverSelection.latencyProbe.timeoutMs
  | .serverSelectionLatencyProbeRoundDeadlineMs => c.serverSelection.latencyProbe.roundDeadlineMs
  | .serverSelectionEntitlementFetchBudgetMs => c.serverSelection.entitlementFetchBudgetMs
  | .serverSelectionLatencyProbeParallelism => c.serverSelection.latencyProbe.parallelism
  | .serverSelectionLatencyProbeResultMinAgeMinutes =>
    c.serverSelection.latencyProbe.resultMinAgeMinutes
  | .serverSelectionLatencyProbeBackgroundScan => c.serverSelection.latencyProbe.backgroundScan
  | .serverSelectionLatencyProbeTransport => c.serverSelection.latencyProbe.transport
  | .serverSelectionBalancedWeightsLoad => c.serverSelection.balancedWeights.load
  | .serverSelectionBalancedWeightsLatency => c.serverSelection.balancedWeights.latency
  | .serverSelectionBalancedWeightsStability => c.serverSelection.balancedWeights.stability
  | .serverSelectionBalancedWeightsFeatureMatch => c.serverSelection.balancedWeights.featureMatch
  | .serverSelectionSecureCoreEnabledByDefault => c.serverSelection.secureCore.enabledByDefault
  | .serverSelectionSecureCorePreferredEntryCountries =>
    c.serverSelection.secureCore.preferredEntryCountries
  | .serverSelectionSecureCoreExcludedEntryCountries =>
    c.serverSelection.secureCore.excludedEntryCountries
  | .serverSelectionSecureCoreExcludedExitCountries =>
    c.serverSelection.secureCore.excludedExitCountries
  | .connectionGroupsPhysicalCountry => c.connectionGroups.physicalCountry
  | .connectionGroupsRegionTaxonomy => c.connectionGroups.regionTaxonomy
  | .connectionGroupsRegionalDefaultRanking => c.connectionGroups.regionalDefaultRanking
  | .connectionDefault => c.connection.default
  | .connectionProtocol => c.connection.protocol
  | .connectionProtunMtu => c.connection.protun.mtu
  | .connectionProtunSniStrategy => c.connection.protun.sniStrategy
  | .connectionIpv6Mode => c.connection.ipv6.mode
  | .dnsMode => c.dns.mode
  | .dnsCustomServers => c.dns.customServers
  | .dnsPolicy => c.dns.policy
  | .dnsLeakProtection => c.dns.leakProtection
  | .dnsExternallyManagedResolvers => c.dns.externallyManagedResolvers
  | .lanPolicy => c.lan.policy
  | .lanAllowedCidrs => c.lan.allowedCidrs
  | .splitTunnelMode => c.splitTunnel.mode
  | .splitTunnelAttachExistingProcesses => c.splitTunnel.attachExistingProcesses
  | .splitTunnelDomainsEnabled => c.splitTunnel.domains.enabled
  | .splitTunnelDomainsResolverObservation => c.splitTunnel.domains.resolverObservation
  | .splitTunnelDomainsRefreshOnTtl => c.splitTunnel.domains.refreshOnTtl
  | .splitTunnelDomainsRules => c.splitTunnel.domains.rules
  | .splitTunnelDomainsRulesDomain => c.splitTunnel.domains.rules.map fun rule => rule.domain
  | .splitTunnelDomainsRulesAction => c.splitTunnel.domains.rules.map fun rule => rule.action
  | .splitTunnelDomainsRulesTtlPolicy => c.splitTunnel.domains.rules.map fun rule => rule.ttlPolicy
  | .autoConnectEnabled => c.autoConnect.enabled
  | .autoConnectTarget => c.autoConnect.target
  | .autoConnectRetryMaxAttempts => c.autoConnect.retry.maxAttempts
  | .autoConnectRetryInitialDelaySeconds => c.autoConnect.retry.initialDelaySeconds
  | .autoConnectRetryMaxDelaySeconds => c.autoConnect.retry.maxDelaySeconds
  | .autoConnectRetryJitter => c.autoConnect.retry.jitter
  | .featuresSecureCore => c.features.secureCore
  | .featuresKillSwitch => c.features.killSwitch
  | .featuresSplitTunnel => c.features.splitTunnel
  | .featuresNetshield => c.features.netshield
  | .featuresPortForwarding => c.features.portForwarding
  | .featuresNat => c.features.nat
  | .featuresVpnAccelerator => c.features.vpnAccelerator
  | .profilesDefaultConnectionType => c.profiles.default.connectionType
  | .profilesDefaultProtocol => c.profiles.default.protocol
  | .profilesDefaultSelectionMode => c.profiles.default.selection.mode
  | .profilesDefaultSelectionBy => c.profiles.default.selection.by_
  | .profilesDefaultSelectionExcludeCountries => c.profiles.default.selection.excludeCountries
  | .profilesDefaultSelectionRequire => c.profiles.default.selection.require

/-- `authority_report`. -/
def authorityReport : List (String × Authority) := Field.all.map Field.row

/-! ## The cross-field rules -/

/-- One violation, if there is one. -/
def violation (broken : Prop) [Decidable broken] (message : String) : List String :=
  if broken then [message] else []

/-- The floor, the ceiling and the message of a budget under the request deadline. -/
def ipcBudgetViolation (field : String) (value : ℕ) (purpose : String) : List String :=
  violation (¬ (250 ≤ value ∧ value ≤ 9500))
    (field ++ " must be between 250 and 9500 (found " ++ toString value ++ ") — " ++ purpose ++
      " under the 10 s IPC request deadline")

/-- The weights in the order in which they are summed. -/
def weightValues (weights : BalancedWeights) : List Binary32 :=
  [weights.load, weights.latency, weights.stability, weights.featureMatch]

/-- `iter().sum::<f32>()`: the sum starts at `-0`. -/
def weightSum (weights : BalancedWeights) : Binary32 :=
  (weightValues weights).foldl Binary32.add (.ofLow true 0)

/-- The weights are finite, not negative, and sum to one. -/
def WeightsRule (weights : BalancedWeights) : Prop :=
  (∀ w ∈ weightValues weights, w.isFinite = true) ∧
  (∀ w ∈ weightValues weights, w.lt .zero = false) ∧
    (Binary32.ratio 1 1000).lt ((weightSum weights).sub .one).abs = false

instance (weights : BalancedWeights) : Decidable (WeightsRule weights) :=
  inferInstanceAs (Decidable (_ ∧ _ ∧ _))

/-- The store is a concrete one. -/
def WritableSessionStore.isConcrete : WritableSessionStore → Bool
  | keyring | tpm2 | encryptedLocal => true
  | auto | none => false

/-- `str::parse::<u16>`: decimal digits, behind a plus sign or not. -/
def parseU16 (text : String) : Option ℕ :=
  let digits := if text.toList.head? = some '+' then text.toList.tail else text.toList
  if digits ≠ [] ∧ digits.all Char.isDigit = true ∧ Nat.ofDigitChars 10 digits 0 < 2 ^ 16 then
    some (Nat.ofDigitChars 10 digits 0)
  else none

/-- `auto`, or a number that can be a tunnel's. -/
def mtuValid (mtu : String) : Bool := mtu == "auto" || (parseU16 mtu).any fun value =>
    128 ≤ value && value ≤ 9000

/-- The prefixes of the default target. -/
def defaultPrefixes : List String := ["fastest", "random", "last", "group:", "profile:"]

/-- Every violated rule, in document order. -/
def SystemConfig.violations (c : SystemConfig) : List String :=
  violation (c.schemaVersion ≠ expectedSchemaVersion)
      ("schema_version must be " ++ toString expectedSchemaVersion ++ " (found " ++
       toString c.schemaVersion ++ ")") ++
  violation (c.serverSelection.metadataCache.refreshIntervalHours < 3)
      ("server_selection.metadata_cache.refresh_interval_hours must be at least 3 (found " ++
        toString c.serverSelection.metadataCache.refreshIntervalHours ++ ")") ++
  violation (60 < c.serverSelection.metadataCache.maxPositiveJitterMinutes)
      ("server_selection.metadata_cache.max_positive_jitter_minutes must be at most 60 (found " ++
        toString c.serverSelection.metadataCache.maxPositiveJitterMinutes ++ ")") ++
  violation (¬ WeightsRule c.serverSelection.balancedWeights)
      ("server_selection.balanced_weights must be finite, non-negative, and sum to 1.0 (found " ++
        (weightSum c.serverSelection.balancedWeights).displayFixed 4 ++ ")") ++
  violation (c.serverSelection.latencyProbe.backgroundScan = true)
      "server_selection.latency_probe.background_scan is forbidden by contract" ++
  violation (¬ (1 ≤ c.serverSelection.latencyProbe.parallelism ∧
    c.serverSelection.latencyProbe.parallelism ≤ 64))
      ("server_selection.latency_probe.parallelism must be between 1 and 64 (found " ++
        toString c.serverSelection.latencyProbe.parallelism ++ ") — the worker window bound") ++
  ipcBudgetViolation "server_selection.latency_probe.round_deadline_ms"
    c.serverSelection.latencyProbe.roundDeadlineMs
      "the whole probe round must finish" ++
  ipcBudgetViolation "server_selection.entitlement_fetch_budget_ms"
    c.serverSelection.entitlementFetchBudgetMs
      "the entitlement composition must stay" ++
  violation (c.features.portForwarding = true ∧ c.features.nat = .moderate)
      "features.port_forwarding is incompatible with features.nat=moderate" ++
  violation (c.dns.mode = .custom ∧ c.dns.customServers = [])
      "dns.mode=custom requires at least one dns.custom_servers entry" ++
  violation ((c.dns.policy = .bypassVpn ∨ c.dns.policy = .systemDefault) ∧
    c.dns.leakProtection ≠ .off)
      ("dns.policy=bypass-vpn and dns.policy=system-default are leak exceptions requiring " ++
        "dns.leak_protection=off (FR-49)") ++
  violation (c.account.writableStorePriority.any (fun store => !store.isConcrete) = true)
      ("account.writable_store_priority entries must be concrete stores (`keyring`, `tpm2`, `encrypted-local`), " ++
        "not `auto` or `none` (found " ++
        ", ".intercalate (c.account.writableStorePriority.map WritableSessionStore.asStr) ++ ")") ++
  (c.splitTunnel.domains.rules.zipIdx.flatMap fun (rule, index) =>
    violation (rule.ttlPolicy ≠ "respect_dns_ttl")
      ("split_tunnel.domains.rules[" ++ toString index ++
       "].ttl_policy must be `respect_dns_ttl` (found `" ++
        rule.ttlPolicy ++ "`)")) ++
  violation (mtuValid c.connection.protun.mtu = false)
      ("connection.protun.mtu must be `auto` or an integer between 128 and 9000 (found `" ++
        c.connection.protun.mtu ++ "`)") ++
  violation (defaultPrefixes.any (fun start =>
    start.toList.isPrefixOf c.connection.default.toList) = false)
      ("connection.default must be one of `fastest`, `random`, `last`, `group:<namespaced-id>`, `profile:<name>` " ++
        "(found `" ++ c.connection.default ++ "`)")

/-! ## Loading -/

/-- `YamlError`: the checks of `from_slice`, and those behind them. -/
inductive SliceError where
  | tooLarge (bytes : ℕ)
  | utf8
  | text (error : Yaml.YamlError)

/-- `yaml::from_slice`. -/
def fromSlice {T : Type} (parse : List Char → Except String T) (input : ByteArray) :
    Except SliceError T :=
  if input.size > Yaml.maxYamlBytes then .error (.tooLarge input.size)
  else match String.fromUTF8? input with
    | none => .error .utf8
    | some text => (Yaml.fromStr parse text.toList).mapError .text

/-- Configuration loading failures. -/
inductive ConfigLoadError where
  | yaml (error : SliceError)
  | io (path : List UInt8) (source : FsTrust.IoError)
  | untrustedPath (error : FsTrust.FsTrustError)
  | validation (violations : List String)

/-- `validate`. -/
def SystemConfig.validate (c : SystemConfig) : Except ConfigLoadError Unit :=
  if c.violations = [] then .ok () else .error (.validation c.violations)

/-- A load's document, and whether it is the built-in one. -/
structure LoadedSystemConfig where
  config : SystemConfig
  usedDefaults : Bool

/-- What a process sees of the files: the answers of `lstat`, component by component, and of a
read. -/
structure FileReads where
  lstat : ℕ → FsTrust.Path → Except FsTrust.IoError FsTrust.Metadata
  read : List UInt8 → Except FsTrust.IoError ByteArray

/-- The strict walk, where a trust root asks for it. -/
def walk (files : FileReads) (path : List UInt8) : Option FsTrust.Path → Except ConfigLoadError Unit
  | none => .ok ()
  | some trustRoot =>
    (FsTrust.verifyTrustedPath files.lstat (.ofBytes path) trustRoot .allow).mapError
    ConfigLoadError.untrustedPath

/-- The load behind `load` and `load_strict`. -/
def SystemConfig.loadInner (parse : List Char → Except String SystemConfig) (files : FileReads)
    (path : List UInt8)
    (trustRoot : Option FsTrust.Path) : Except ConfigLoadError LoadedSystemConfig := do
  walk files path trustRoot
  match files.read path with
  | .error source =>
    if source = .errno .notFound then
      SystemConfig.validate {}
      return ⟨{}, true⟩
    else .error (.io path source)
  | .ok bytes =>
    let config ← (fromSlice parse bytes).mapError ConfigLoadError.yaml
    config.validate
    return ⟨config, false⟩

/-! ## The report covers the document -/

/-- **The rows of the report determine the document.** -/
theorem SystemConfig.ext_get {c c' : SystemConfig} (h : ∀ f, c.get f = c'.get f) : c = c' :=
  SystemConfig.ext
    (h .schemaVersion)
    (DaemonSection.ext
      (h .daemonSocketPath) (h .daemonSocketGroup) (h .daemonInterfaceName) (h .daemonLogLevel)
      (h .daemonNetworkIntegration))
    (AccountSection.ext
      (h .accountWritableSessionStore) (h .accountWritableStorePriority)
      (h .accountCredentialInputSource)
      (h .accountImportProvisionedSession) (h .accountAllowPasswordStorage)
      (h .accountPreferTokenStorage)
      (h .accountEncryptedLocalFallback) (h .accountSystemdCredentialNames))
    (ServerSelectionSection.ext
      (MetadataCacheSection.ext
        (h .serverSelectionMetadataCacheRefreshIntervalHours)
        (h .serverSelectionMetadataCacheMaxPositiveJitterMinutes)
        (h .serverSelectionMetadataCacheConditionalRequests)
        (h .serverSelectionMetadataCacheEmergencyMaxAgeHours))
      (LatencyProbeSection.ext
        (h .serverSelectionLatencyProbeEnabled) (h .serverSelectionLatencyProbeMaxCandidates)
        (h .serverSelectionLatencyProbeTimeoutMs) (h .serverSelectionLatencyProbeRoundDeadlineMs)
        (h .serverSelectionLatencyProbeParallelism)
        (h .serverSelectionLatencyProbeResultMinAgeMinutes)
        (h .serverSelectionLatencyProbeBackgroundScan) (h .serverSelectionLatencyProbeTransport))
      (BalancedWeights.ext
        (h .serverSelectionBalancedWeightsLoad) (h .serverSelectionBalancedWeightsLatency)
        (h .serverSelectionBalancedWeightsStability)
        (h .serverSelectionBalancedWeightsFeatureMatch))
      (SecureCoreSection.ext
        (h .serverSelectionSecureCoreEnabledByDefault)
        (h .serverSelectionSecureCorePreferredEntryCountries)
        (h .serverSelectionSecureCoreExcludedEntryCountries)
        (h .serverSelectionSecureCoreExcludedExitCountries))
      (h .serverSelectionEntitlementFetchBudgetMs))
    (ConnectionGroupsSection.ext
      (h .connectionGroupsPhysicalCountry) (h .connectionGroupsRegionTaxonomy)
      (h .connectionGroupsRegionalDefaultRanking))
    (ConnectionSection.ext
      (h .connectionDefault) (h .connectionProtocol)
      (ProtunSection.ext
        (h .connectionProtunMtu) (h .connectionProtunSniStrategy))
      (Ipv6Section.ext
        (h .connectionIpv6Mode)))
    (FeaturesSection.ext
      (h .featuresSecureCore) (h .featuresKillSwitch) (h .featuresSplitTunnel)
      (h .featuresNetshield)
      (h .featuresPortForwarding) (h .featuresNat) (h .featuresVpnAccelerator))
    (DnsSection.ext
      (h .dnsMode) (h .dnsCustomServers) (h .dnsPolicy) (h .dnsLeakProtection)
      (h .dnsExternallyManagedResolvers))
    (LanSection.ext
      (h .lanPolicy) (h .lanAllowedCidrs))
    (SplitTunnelSection.ext
      (h .splitTunnelMode) (h .splitTunnelAttachExistingProcesses)
      (SplitTunnelDomains.ext
        (h .splitTunnelDomainsEnabled) (h .splitTunnelDomainsResolverObservation)
        (h .splitTunnelDomainsRefreshOnTtl)
        (h .splitTunnelDomainsRules)))
    (AutoConnectSection.ext
      (h .autoConnectEnabled) (h .autoConnectTarget)
      (AutoConnectRetry.ext
        (h .autoConnectRetryMaxAttempts) (h .autoConnectRetryInitialDelaySeconds)
        (h .autoConnectRetryMaxDelaySeconds) (h .autoConnectRetryJitter)))
    (ProfilesSection.ext
      (ProfileDefault.ext
        (h .profilesDefaultConnectionType) (h .profilesDefaultProtocol)
        (ProfileSelection.ext
          (h .profilesDefaultSelectionMode) (h .profilesDefaultSelectionBy)
          (h .profilesDefaultSelectionExcludeCountries) (h .profilesDefaultSelectionRequire))))

/-- Every field has one row. -/
theorem mem_all (f : Field) : f ∈ Field.all := by
  cases f <;> decide

/-- No path is listed twice. -/
theorem nodup_paths : (authorityReport.map Prod.fst).Nodup := by
  decide

/-! ## What a load returns -/

theorem SystemConfig.validate_eq_ok {c : SystemConfig} :
    c.validate = .ok () ↔ c.violations = [] := by
  unfold validate
  split_ifs with h <;> simp [h]

theorem violations_default : ({} : SystemConfig).violations = [] := by
  decide +kernel

theorem loadInner_missing : SystemConfig.loadInner (fun _ => .error "no document")
    ⟨fun _ _ => .error .other, fun _ => .error (.errno .notFound)⟩ [] none = .ok ⟨{}, true⟩ := by
  unfold SystemConfig.loadInner
  dsimp only [walk, bind, Except.bind]
  rw [if_pos rfl, SystemConfig.validate_eq_ok.mpr violations_default]
  rfl

/-- **A loaded document has passed the rules**, on either load. -/
theorem violations_of_loadInner {parse : List Char → Except String SystemConfig} {files : FileReads}
    {path : List UInt8} {trustRoot : Option FsTrust.Path} {loaded : LoadedSystemConfig}
    (h : SystemConfig.loadInner parse files path trustRoot = .ok loaded) :
    loaded.config.violations = [] := by
  unfold SystemConfig.loadInner at h
  obtain ⟨_, -, h⟩ := Fallible.bind_eq_ok.mp h
  cases hread : files.read path with
  | error source =>
    rw [hread] at h
    dsimp only at h
    split_ifs at h
    obtain ⟨_, -, h⟩ := Fallible.bind_eq_ok.mp h
    cases h
    exact violations_default
  | ok bytes =>
    rw [hread] at h
    obtain ⟨config, -, h⟩ := Fallible.bind_eq_ok.mp h
    obtain ⟨_, hvalid, h⟩ := Fallible.bind_eq_ok.mp h
    cases h
    exact SystemConfig.validate_eq_ok.mp hvalid

theorem violations_features {c : SystemConfig} (h : c.violations = []) (features : FeaturesSection)
    (profiles : ProfilesSection) :
    ({ c with features, profiles } : SystemConfig).violations =
      violation (features.portForwarding = true ∧ features.nat = .moderate)
        "features.port_forwarding is incompatible with features.nat=moderate" := by
  unfold SystemConfig.violations at h ⊢
  simp only [List.append_eq_nil_iff] at h
  obtain ⟨⟨⟨⟨⟨⟨⟨⟨⟨⟨⟨⟨⟨⟨h₁, h₂⟩, h₃⟩, h₄⟩, h₅⟩, h₆⟩, h₇⟩, h₈⟩, -⟩, h₉⟩, h₁₀⟩, h₁₁⟩, h₁₂⟩,
    h₁₃⟩, h₁₄⟩ := h
  dsimp only
  rw [h₁, h₂, h₃, h₄, h₅, h₆, h₇, h₈, h₉, h₁₀, h₁₁, h₁₂, h₁₃, h₁₄]
  simp only [List.nil_append, List.append_nil]

end Config

end ProtonWire
