import ProtonWire.Lib.Fallible
import ProtonWire.Selection.Display

/-!
# The connection groups

`crates/core/src/groups.rs` and its generated `registry.rs`: the built-in groups, the regional
taxonomy and the resolution of a group onto the selection vocabulary. The fields of an entry that
only a listing shows are left out.

* `registry`, `group`, `regionCountries`: the frozen catalog;
* `resolveGroup`: a group as a selection request;
* `resolveGroup_ok`, `registry_location`, `groupSelector_total`: what a group resolves to.
-/

namespace ProtonWire

/-! ## The vocabulary -/

/-- Which ecosystem a group's behavior reproduces. -/
inductive GroupOrigin where
  | proton
  | protonwire
  deriving DecidableEq

/-- The stable token. -/
def GroupOrigin.asStr : GroupOrigin → String
  | proton => "proton"
  | protonwire => "protonwire"

/-- What entitlement a group's selection needs. -/
inductive GroupEntitlement where
  | planDependent
  | targetAndFeatureDependent
  | paidLocationSelection
  deriving DecidableEq

/-- A group's declared ranking policy. -/
inductive GroupRankingPolicy where
  | protonScore
  | balanced
  | load
  | latency
  | randomCountryThenServer
  deriving DecidableEq

/-- The stable token. -/
def GroupRankingPolicy.asStr : GroupRankingPolicy → String
  | protonScore => "proton-score"
  | balanced => "balanced"
  | load => "load"
  | latency => "latency"
  | randomCountryThenServer => "random-country-then-server"

/-- Parses the vocabulary. -/
def GroupRankingPolicy.parse (token : String) : Option GroupRankingPolicy :=
  if token = "proton-score" then some protonScore
  else if token = "balanced" then some balanced
  else if token = "load" then some load
  else if token = "latency" then some latency
  else if token = "random-country-then-server" then some randomCountryThenServer
  else none

/-- A group's target selector. -/
inductive GroupTarget where
  | fastest (excludePhysicalCountry : Bool)
  | fastestInCountry (country : String)
  | fastestInRegion (region : String)
  | random
  | secureCore (entryCountry exitCountry : String)
  deriving DecidableEq

/-- One built-in connection group. -/
structure GroupEntry where
  id : String
  origin : GroupOrigin
  entitlement : GroupEntitlement
  target : GroupTarget
  rankingPolicy : GroupRankingPolicy
  allowedRankingOverrides : List GroupRankingPolicy
  protocolOverride : Option ProtocolConstraint
  deriving DecidableEq

/-! ## The registry -/

/-- An official group: its ranking overrides are forbidden. -/
def GroupEntry.official (id : String) (entitlement : GroupEntitlement) (target : GroupTarget)
    (rankingPolicy : GroupRankingPolicy) (protocolOverride : Option ProtocolConstraint) :
    GroupEntry :=
  ⟨id, .proton, entitlement, target, rankingPolicy, [], protocolOverride⟩

/-- A regional group. -/
def GroupEntry.regional (id region : String) : GroupEntry :=
  ⟨id, .protonwire, .paidLocationSelection, .fastestInRegion region, .protonScore,
    [.balanced, .load, .latency], none⟩

/-- `REGISTRY`. -/
def registry : List GroupEntry :=
  [.official "proton:fastest-country" .planDependent (.fastest false) .protonScore none,
    .official "proton:fastest-excluding-my-country" .planDependent (.fastest true)
      .protonScore none,
    .official "proton:random-country" .planDependent .random .randomCountryThenServer none,
    .official "proton:streaming-us" .targetAndFeatureDependent (.fastestInCountry "US") .protonScore
      (some .wireguardUdp),
    .official "proton:gaming" .targetAndFeatureDependent (.fastest false) .protonScore none,
    .official "proton:anti-censorship" .targetAndFeatureDependent (.fastest true) .protonScore
      (some .stealth),
    .official "proton:max-security" .targetAndFeatureDependent (.secureCore "fastest" "fastest")
      .protonScore
      none,
    .official "proton:work-school" .targetAndFeatureDependent (.fastest false) .protonScore
      (some .stealth),
    .regional "protonwire:fastest-africa" "africa",
    .regional "protonwire:fastest-asia" "asia",
    .regional "protonwire:fastest-europe" "europe",
    .regional "protonwire:fastest-north-america" "north-america",
    .regional "protonwire:fastest-south-america" "south-america",
    .regional "protonwire:fastest-oceania" "oceania"]

/-- `CATALOG_REVISION`. -/
def catalogRevision : String := "2026-08-14"

/-- The names of `REGIONS`. -/
def regions : List String := ["africa", "asia", "europe", "north-america", "oceania",
    "south-america"]

/-- `COUNTRY_REGIONS`: the one primary region of a country. -/
def countryRegions : List (String × String) :=
  [("AD", "europe"), ("AE", "asia"), ("AF", "asia"), ("AG", "north-america"),
   ("AI", "north-america"),
    ("AL", "europe"), ("AM", "asia"), ("AO", "africa"), ("AR", "south-america"), ("AS", "oceania"),
    ("AT", "europe"), ("AU", "oceania"), ("AW", "north-america"), ("AX", "europe"), ("AZ", "asia"),
    ("BA", "europe"), ("BB", "north-america"), ("BD", "asia"), ("BE", "europe"), ("BF", "africa"),
    ("BG", "europe"), ("BH", "asia"), ("BI", "africa"), ("BJ", "africa"), ("BL", "north-america"),
    ("BM", "north-america"), ("BN", "asia"), ("BO", "south-america"), ("BQ", "north-america"),
    ("BR", "south-america"), ("BS", "north-america"), ("BT", "asia"), ("BV", "south-america"),
    ("BW", "africa"), ("BY", "europe"), ("BZ", "north-america"), ("CA", "north-america"),
    ("CC", "oceania"), ("CD", "africa"), ("CF", "africa"), ("CG", "africa"), ("CH", "europe"),
    ("CI", "africa"), ("CK", "oceania"), ("CL", "south-america"), ("CM", "africa"), ("CN", "asia"),
    ("CO", "south-america"), ("CR", "north-america"), ("CU", "north-america"), ("CV", "africa"),
    ("CW", "north-america"), ("CX", "oceania"), ("CY", "asia"), ("CZ", "europe"), ("DE", "europe"),
    ("DJ", "africa"), ("DK", "europe"), ("DM", "north-america"), ("DO", "north-america"),
    ("DZ", "africa"),
    ("EC", "south-america"), ("EE", "europe"), ("EG", "africa"), ("EH", "africa"), ("ER", "africa"),
    ("ES", "europe"), ("ET", "africa"), ("FI", "europe"), ("FJ", "oceania"),
    ("FK", "south-america"),
    ("FM", "oceania"), ("FO", "europe"), ("FR", "europe"), ("GA", "africa"), ("GB", "europe"),
    ("GD", "north-america"), ("GE", "asia"), ("GF", "south-america"), ("GG", "europe"),
    ("GH", "africa"),
    ("GI", "europe"), ("GL", "north-america"), ("GM", "africa"), ("GN", "africa"),
    ("GP", "north-america"),
    ("GQ", "africa"), ("GR", "europe"), ("GS", "south-america"), ("GT", "north-america"),
    ("GU", "oceania"), ("GW", "africa"), ("GY", "south-america"), ("HK", "asia"), ("HM", "oceania"),
    ("HN", "north-america"), ("HR", "europe"), ("HT", "north-america"), ("HU", "europe"),
    ("ID", "asia"),
    ("IE", "europe"), ("IL", "asia"), ("IM", "europe"), ("IN", "asia"), ("IO", "africa"),
    ("IQ", "asia"),
    ("IR", "asia"), ("IS", "europe"), ("IT", "europe"), ("JE", "europe"), ("JM", "north-america"),
    ("JO", "asia"), ("JP", "asia"), ("KE", "africa"), ("KG", "asia"), ("KH", "asia"),
    ("KI", "oceania"),
    ("KM", "africa"), ("KN", "north-america"), ("KP", "asia"), ("KR", "asia"), ("KW", "asia"),
    ("KY", "north-america"), ("KZ", "asia"), ("LA", "asia"), ("LB", "asia"),
    ("LC", "north-america"),
    ("LI", "europe"), ("LK", "asia"), ("LR", "africa"), ("LS", "africa"), ("LT", "europe"),
    ("LU", "europe"), ("LV", "europe"), ("LY", "africa"), ("MA", "africa"), ("MC", "europe"),
    ("MD", "europe"), ("ME", "europe"), ("MF", "north-america"), ("MG", "africa"),
    ("MH", "oceania"),
    ("MK", "europe"), ("ML", "africa"), ("MM", "asia"), ("MN", "asia"), ("MO", "asia"),
    ("MP", "oceania"),
    ("MQ", "north-america"), ("MR", "africa"), ("MS", "north-america"), ("MT", "europe"),
    ("MU", "africa"),
    ("MV", "asia"), ("MW", "africa"), ("MX", "north-america"), ("MY", "asia"), ("MZ", "africa"),
    ("NA", "africa"), ("NC", "oceania"), ("NE", "africa"), ("NF", "oceania"), ("NG", "africa"),
    ("NI", "north-america"), ("NL", "europe"), ("NO", "europe"), ("NP", "asia"), ("NR", "oceania"),
    ("NU", "oceania"), ("NZ", "oceania"), ("OM", "asia"), ("PA", "north-america"),
    ("PE", "south-america"),
    ("PF", "oceania"), ("PG", "oceania"), ("PH", "asia"), ("PK", "asia"), ("PL", "europe"),
    ("PM", "north-america"), ("PN", "oceania"), ("PR", "north-america"), ("PS", "asia"),
    ("PT", "europe"),
    ("PW", "oceania"), ("PY", "south-america"), ("QA", "asia"), ("RE", "africa"), ("RO", "europe"),
    ("RS", "europe"), ("RU", "europe"), ("RW", "africa"), ("SA", "asia"), ("SB", "oceania"),
    ("SC", "africa"), ("SD", "africa"), ("SE", "europe"), ("SG", "asia"), ("SH", "africa"),
    ("SI", "europe"), ("SJ", "europe"), ("SK", "europe"), ("SL", "africa"), ("SM", "europe"),
    ("SN", "africa"), ("SO", "africa"), ("SR", "south-america"), ("SS", "africa"), ("ST", "africa"),
    ("SV", "north-america"), ("SX", "north-america"), ("SY", "asia"), ("SZ", "africa"),
    ("TC", "north-america"), ("TD", "africa"), ("TF", "africa"), ("TG", "africa"), ("TH", "asia"),
    ("TJ", "asia"), ("TK", "oceania"), ("TL", "asia"), ("TM", "asia"), ("TN", "africa"),
    ("TO", "oceania"),
    ("TR", "asia"), ("TT", "north-america"), ("TV", "oceania"), ("TZ", "africa"), ("UA", "europe"),
    ("UG", "africa"), ("UM", "oceania"), ("US", "north-america"), ("UY", "south-america"),
    ("UZ", "asia"),
    ("VA", "europe"), ("VC", "north-america"), ("VE", "south-america"), ("VG", "north-america"),
    ("VI", "north-america"), ("VN", "asia"), ("VU", "oceania"), ("WF", "oceania"),
    ("WS", "oceania"),
    ("YE", "asia"), ("YT", "africa"), ("ZA", "africa"), ("ZM", "africa"), ("ZW", "africa")]

/-- Looks one group up by its id. -/
def group (id : String) : Option GroupEntry := registry.find? fun entry => entry.id = id

/-- The member countries of a primary region. -/
def regionCountries (region : String) : Option (List String) :=
  if region ∈ regions then
  some ((countryRegions.filter fun member => member.2 = region).map Prod.fst) else none

/-! ## Resolution -/

/-- The three sources of the physical country. -/
structure PhysicalCountrySources where
  explicitRequest : Option String
  config : Option String
  cachedLocation : Option String

/-- The first source that is set. -/
def PhysicalCountrySources.resolve (sources : PhysicalCountrySources) : Option String :=
  (sources.explicitRequest.or sources.config).or sources.cachedLocation

/-- Group resolution failures. -/
inductive GroupError where
  | unknownGroup (id : String)
  | unsupportedRankingSignal (key : String)
  | rankingOverrideForbidden (id requested : String)
  | rankingOverrideNotDeclared (id requested declared : String)
  deriving DecidableEq

/-- The `Display` of a group error. -/
def GroupError.display : GroupError → String
  | unknownGroup id =>
      "unknown group `" ++ id ++
      "`: not part of the canonical catalog — stable ids are the `proton:*` " ++
        "official sets and the `protonwire:fastest-*` regional sets"
  | unsupportedRankingSignal key =>
      "unsupported ranking signal `" ++ key ++
        "`: FR-19 forbids speed/throughput ranking in every input schema"
  | rankingOverrideForbidden id requested =>
      "ranking override `" ++ requested ++ "` forbidden on `" ++ id ++
      "`: official proton groups " ++
        "reproduce pinned official semantics — official group ranking overrides are forbidden (FR-23P)"
  | rankingOverrideNotDeclared id requested declared =>
      "ranking override `" ++ requested ++ "` is not declared by `" ++ id ++ "` (declared: " ++
      declared ++ ")"

/-- How a resolved group's policy came to be. -/
inductive PolicyProvenance where
  | catalogDefault
  | declaredOverride
  deriving DecidableEq

/-- A group resolved onto the selection vocabulary. -/
structure ResolvedGroup where
  group : GroupEntry
  request : SelectionRequest
  policyProvenance : PolicyProvenance

/-- A refusal of the resolver, or a panic. -/
inductive GroupFault where
  | refused (error : GroupError)
  | panic (message : String)

/-- The executable form of a declared policy. -/
def toSelectionPolicy (policy : GroupRankingPolicy) (weights : WeightedSignals) : RankingPolicy :=
  match policy with
  | .protonScore => .official
  | .balanced => .balanced weights
  | .load => .lowestLoad
  | .randomCountryThenServer => .random
  | .latency => .latency

/-- One side of a declared route: `fastest` is any country. -/
def routedSide (token : String) : Option String := if token ≠ "fastest" then some token else none

/-- The declared overrides, for a refusal. -/
def declaredOverrides (entry : GroupEntry) : String :=
  if entry.allowedRankingOverrides = [] then "none"
  else ", ".intercalate (entry.allowedRankingOverrides.map GroupRankingPolicy.asStr)

/-- The policy of a group under an optional override. -/
def groupPolicy (entry : GroupEntry) (rankingOverride : Option String) (weights : WeightedSignals) :
    Except GroupError (RankingPolicy × PolicyProvenance) :=
  match rankingOverride with
  | none => .ok (toSelectionPolicy entry.rankingPolicy weights, .catalogDefault)
  | some mode =>
    if mode ∈ forbiddenRankingSignals then .error (.unsupportedRankingSignal mode)
    else if entry.origin = .proton then .error (.rankingOverrideForbidden entry.id mode)
    else match GroupRankingPolicy.parse mode with
      | none => .error (.rankingOverrideNotDeclared entry.id mode (declaredOverrides entry))
      | some requested =>
        if requested ∈ entry.allowedRankingOverrides then
          .ok (toSelectionPolicy requested weights, .declaredOverride)
        else .error (.rankingOverrideNotDeclared entry.id mode (declaredOverrides entry))

/-- The target and the constraints of a group. -/
def groupSelector (entry : GroupEntry) (physical : PhysicalCountrySources) :
    Except GroupFault (Target × Constraints) :=
  let constraints : Constraints := { requiredProtocol := entry.protocolOverride }
  match entry.target with
  | .fastest excludePhysicalCountry =>
    .ok (.fastest, { constraints with
      excludePhysicalCountry
      physicalCountry := if excludePhysicalCountry then physical.resolve else none })
  | .fastestInCountry country => .ok (.country country, constraints)
  | .fastestInRegion region =>
    match regionCountries region with
    | some countries => .ok (.countries countries, constraints)
    | none =>
      .error (.panic ("registry guarantees membership for declared region `" ++ region ++ "`"))
  | .random => .ok (.fastest, constraints)
  | .secureCore entryCountry exitCountry =>
    .ok (.secureCore (routedSide entryCountry) (routedSide exitCountry), constraints)

/-- `resolve_group`. -/
def resolveGroup (id : String) (rankingOverride : Option String) (physical : PhysicalCountrySources)
    (balancedWeights : WeightedSignals) : Except GroupFault ResolvedGroup :=
  match group id with
  | none => .error (.refused (.unknownGroup id))
  | some entry =>
    match groupPolicy entry rankingOverride balancedWeights with
    | .error error => .error (.refused error)
    | .ok (policy, policyProvenance) => do
      let (target, constraints) ← groupSelector entry physical
      return ⟨entry, ⟨target, policy, constraints⟩, policyProvenance⟩

/-! ## What a group resolves to -/

/-- The steps of a resolution. -/
theorem resolveGroup_ok {id : String} {rankingOverride : Option String}
    {physical : PhysicalCountrySources} {weights : WeightedSignals} {resolved : ResolvedGroup} :
    resolveGroup id rankingOverride physical weights = .ok resolved ↔
      group id = some resolved.group ∧
        groupPolicy resolved.group rankingOverride weights =
          .ok (resolved.request.policy, resolved.policyProvenance) ∧
        groupSelector resolved.group physical = .ok (resolved.request.target,
          resolved.request.constraints) := by
  unfold resolveGroup
  constructor
  · intro h
    cases hgroup : group id with
    | none =>
      rw [hgroup] at h
      cases h
    | some entry =>
      rw [hgroup] at h
      dsimp only at h
      cases hpolicy : groupPolicy entry rankingOverride weights with
      | error error =>
        rw [hpolicy] at h
        cases h
      | ok policy =>
        rw [hpolicy] at h
        obtain ⟨selector, hselector, h⟩ := Fallible.bind_eq_ok.mp h
        cases h
        exact ⟨rfl, hpolicy, hselector⟩
  · rintro ⟨hgroup, hpolicy, hselector⟩
    rw [hgroup]
    dsimp only
    rw [hpolicy]
    dsimp only
    rw [hselector]
    rfl

theorem mem_registry_of_group {id : String} {entry : GroupEntry} (h : group id = some entry) :
    entry ∈ registry ∧ entry.id = id := by
  have hid := List.find?_some h
  exact ⟨List.mem_of_find?_eq_some h, of_decide_eq_true hid⟩

theorem group_id {entry : GroupEntry} (h : entry ∈ registry) : group entry.id = some entry := by
  revert entry
  decide

/-- The selector names a location. -/
def GroupTarget.isLocation : GroupTarget → Bool
  | fastestInCountry _ => true
  | fastestInRegion _ => true
  | _ => false

theorem registry_location {entry : GroupEntry} (h : entry ∈ registry)
    (hlocation : entry.target.isLocation = true) :
    entry.id = "proton:streaming-us" ∨ entry.entitlement = .paidLocationSelection := by
  revert entry
  decide

theorem registry_region {entry : GroupEntry} (h : entry ∈ registry) {region : String}
    (hregion : entry.target = .fastestInRegion region) : region ∈ regions := by
  have hall : ∀ entry ∈ registry, ∀ region ∈ (match entry.target with
      | .fastestInRegion region => some region
      | _ => none), region ∈ regions := by decide
  exact hall entry h region (by rw [hregion]; rfl)

theorem registry_regional {entry : GroupEntry} (h : entry ∈ registry)
    (hregional : entry.entitlement = .paidLocationSelection) :
    entry.origin = .protonwire ∧ entry.allowedRankingOverrides = [.balanced, .load, .latency] := by
  revert entry
  decide

/-- Every group of the registry has a selector, and its constraints name no feature. -/
theorem groupSelector_total {entry : GroupEntry} (h : entry ∈ registry)
    (physical : PhysicalCountrySources) :
    ∃ target constraints, groupSelector entry physical = .ok (target, constraints) ∧
      constraints.requiredFeatures = [] ∧ constraints.optionalFeatures = [] := by
  unfold groupSelector
  cases htarget : entry.target with
  | fastestInRegion region =>
    have hcountries : regionCountries region =
        some ((countryRegions.filter fun member => member.2 = region).map Prod.fst) :=
      if_pos (registry_region h htarget)
    dsimp only
    rw [hcountries]
    exact ⟨_, _, rfl, rfl, rfl⟩
  | _ => exact ⟨_, _, rfl, rfl, rfl⟩

end ProtonWire
