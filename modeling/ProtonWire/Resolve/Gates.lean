import ProtonWire.Resolve.Model
import ProtonWire.Selection.Select

/-!
# What a resolved request passed

* `composeRequest_ok`, `resolveSelection_ok`: the steps behind an answer;
* `Gated.core`: where a core target comes from;
* `location_composed`: when a location is composed;
* **`location_needs_paid_plan`**: which targets keep a location from a plan that is not paid.
-/

namespace ProtonWire

open Fallible

/-! ## The steps behind an answer -/

section
variable {config : SystemConfig} {catalog : CatalogDocument} {entitlements : Option VpnEntitlements}
  {location : Option String} {target : ConnectTarget} {modifiers : SelectionModifiers}
  {request : SelectionRequest} {provenance : Option GroupProvenance}

/-- The gates of a composed request. -/
structure Gated (config : SystemConfig) (catalog : CatalogDocument)
    (entitlements : Option VpnEntitlements)
    (location : Option String) (target : ConnectTarget) (modifiers : SelectionModifiers)
    (request : SelectionRequest) (provenance : Option GroupProvenance) : Prop where
  composed : ∃ raw, targetRequest config entitlements location target modifiers =
    .ok (raw, provenance) ∧
    request = unionConfiguredSecureCoreExclusions raw config
  gateway : targetNamesGateway target catalog = true →
    entitlements.bind VpnEntitlements.isBusiness = some true
  capability : unmetCapability entitlements request catalog = none
  random : request.policy = .random → isPaid entitlements = true
  location : namesLocation target = true → isPaid entitlements = true

theorem gate_ok {c : Prop} [Decidable c] {code : RpcErrorCode} {message : String} :
    (if c then refuse code message else .ok () : Except RpcFault Unit) = .ok () ↔ ¬ c := by
  split_ifs with hc
  · exact ⟨nofun, fun hn => absurd hc hn⟩
  · exact ⟨fun _ => hc, fun _ => rfl⟩

theorem gatewayGate_ok :
    gatewayGate entitlements target catalog = .ok () ↔
      (targetNamesGateway target catalog = true → entitlements.bind VpnEntitlements.isBusiness =
       some true) := by
  unfold gatewayGate
  rw [gate_ok]
  cases targetNamesGateway target catalog
  · simp
  · cases entitlements.bind VpnEntitlements.isBusiness with
    | none => simp
    | some business => cases business <;> simp

theorem capabilityGate_ok :
    capabilityGate entitlements request catalog = .ok () ↔
    unmetCapability entitlements request catalog = none := by
  unfold capabilityGate
  cases unmetCapability entitlements request catalog with
  | none => exact ⟨fun _ => rfl, fun _ => rfl⟩
  | some unmet => exact ⟨nofun, nofun⟩

theorem randomGate_ok :
    randomGate entitlements request = .ok () ↔
    (request.policy = .random → isPaid entitlements = true) := by
  unfold randomGate randomRequiresBackendAuthority
  rw [gate_ok]
  cases isPaid entitlements <;> simp

theorem groupLocationGate_ok {entry : GroupEntry} :
    groupLocationGate entitlements entry = .ok () ↔
      (entry.entitlement = .paidLocationSelection → isPaid entitlements = true) := by
  unfold groupLocationGate
  rw [gate_ok]
  cases isPaid entitlements <;> simp

theorem locationGate_ok :
    locationGate entitlements target = .ok () ↔
    (namesLocation target = true → isPaid entitlements = true) := by
  unfold locationGate
  rw [gate_ok]
  cases namesLocation target <;> cases isPaid entitlements <;> simp

/-- A request is composed exactly when it passes every gate. -/
theorem composeRequest_ok :
    composeRequest config catalog entitlements location target modifiers =
    .ok (request, provenance) ↔
      Gated config catalog entitlements location target modifiers request provenance := by
  unfold composeRequest
  constructor
  · intro h
    obtain ⟨_, hgateway, h⟩ := bind_eq_ok.mp h
    obtain ⟨⟨raw, prov⟩, hraw, h⟩ := bind_eq_ok.mp h
    obtain ⟨_, hcapability, h⟩ := bind_eq_ok.mp h
    obtain ⟨_, hrandom, h⟩ := bind_eq_ok.mp h
    obtain ⟨_, hlocation, h⟩ := bind_eq_ok.mp h
    cases h
    exact ⟨⟨raw, hraw, rfl⟩, gatewayGate_ok.mp hgateway, capabilityGate_ok.mp hcapability,
      randomGate_ok.mp hrandom, locationGate_ok.mp hlocation⟩
  · rintro ⟨⟨raw, hraw, rfl⟩, hgateway, hcapability, hrandom, hlocation⟩
    rw [gatewayGate_ok.mpr hgateway, hraw]
    refine bind_eq_ok.mpr ⟨(), rfl, bind_eq_ok.mpr ⟨(raw, provenance), rfl, ?_⟩⟩
    dsimp only
    rw [capabilityGate_ok.mpr hcapability, randomGate_ok.mpr hrandom, locationGate_ok.mpr hlocation]
    rfl

end

theorem orRefuse_ok {α : Type} {x : Except RpcError α} {a : α} :
    orRefuse x = .ok a ↔ x = .ok a := by
  cases x <;> simp [orRefuse]

theorem orExplain_ok {α : Type} {explain : SelectionError → RpcError} {x : Except Fault α} {a : α} :
    orExplain explain x = .ok a ↔ x = .ok a := by
  cases x with
  | ok a => simp [orExplain]
  | error fault => cases fault <;> simp [orExplain]

theorem orGroupRefuse_ok {α : Type} {x : Except GroupFault α} {a : α} :
    orGroupRefuse x = .ok a ↔ x = .ok a := by
  cases x with
  | ok a => simp [orGroupRefuse]
  | error fault => cases fault <;> simp [orGroupRefuse, refuse]

section
variable {J : Serde} {config : SystemConfig} {reads : RequestReads} {target : ConnectTarget}
  {modifiers : SelectionModifiers} {resolution : Resolution}

/-- The steps behind a resolved selection. -/
structure Resolved (J : Serde) (config : SystemConfig) (reads : RequestReads)
    (target : ConnectTarget)
    (modifiers : SelectionModifiers) (entitlements : Option VpnEntitlements)
    (resolution : Resolution) : Prop where
  catalog : cachedCatalog J reads.catalog = .ok (some resolution.loaded)
  gated : Gated config resolution.loaded.document entitlements reads.location target modifiers
    resolution.request
    resolution.provenance
  context : rankingContext config resolution.loaded.document reads resolution.request
    (composeContext entitlements) = .ok resolution.context
  selected : select resolution.loaded.document resolution.request resolution.context =
    .ok resolution.outcome
  winner : resolution.outcome.ranked.head? = some resolution.winner

theorem resolveSelection_ok {entitlements : Option VpnEntitlements}
    (hread : reads.entitlements = .ok entitlements)
    (h : resolveSelection J config reads target modifiers = .ok resolution) :
    Resolved J config reads target modifiers entitlements resolution := by
  unfold resolveSelection at h
  obtain ⟨-, -, h⟩ := bind_eq_ok.mp h
  obtain ⟨loaded?, hcatalog, h⟩ := bind_eq_ok.mp h
  cases loaded? with
  | none => cases h
  | some loaded =>
    obtain ⟨entitlements', hent, h⟩ := bind_eq_ok.mp h
    obtain ⟨⟨request, provenance⟩, hrequest, h⟩ := bind_eq_ok.mp h
    obtain ⟨context, hcontext, h⟩ := bind_eq_ok.mp h
    obtain ⟨outcome, houtcome, h⟩ := bind_eq_ok.mp h
    cases hwinner : outcome.ranked.head? with
    | none =>
      rw [hwinner] at h
      cases h
    | some winner =>
      rw [hwinner] at h
      cases h
      cases hread.symm.trans (orRefuse_ok.mp hent)
      exact ⟨orRefuse_ok.mp hcatalog, composeRequest_ok.mp hrequest, hcontext,
        orExplain_ok.mp houtcome, hwinner⟩

/-- An answer renders a resolved selection. -/
theorem resolve_ok {result : SelectionResult} :
    resolve J config reads target modifiers = .ok result ↔
      ∃ resolution, resolveSelection J config reads target modifiers = .ok resolution ∧
        result = resolution.render target modifiers := by
  unfold resolve
  constructor
  · intro h
    obtain ⟨resolution, hresolution, h⟩ := bind_eq_ok.mp h
    cases h
    exact ⟨resolution, hresolution, rfl⟩
  · rintro ⟨resolution, hresolution, rfl⟩
    rw [hresolution]
    rfl

end

/-! ## The arms -/

section
variable {config : SystemConfig} {entitlements : Option VpnEntitlements} {location : Option String}
  {target : ConnectTarget} {modifiers : SelectionModifiers} {request : SelectionRequest}
  {provenance : Option GroupProvenance}

@[simp] theorem unionConfigured_target (request : SelectionRequest) (config : SystemConfig) :
    (unionConfiguredSecureCoreExclusions request config).target = request.target := by
  unfold unionConfiguredSecureCoreExclusions
  split_ifs <;> rfl

@[simp] theorem unionConfigured_policy (request : SelectionRequest) (config : SystemConfig) :
    (unionConfiguredSecureCoreExclusions request config).policy = request.policy := by
  unfold unionConfiguredSecureCoreExclusions
  split_ifs <;> rfl

theorem mergeGroupModifiers_target {groupId : String} {merged : SelectionRequest}
    (h : mergeGroupModifiers groupId request modifiers = .ok merged) :
    merged.target = request.target := by
  unfold mergeGroupModifiers at h
  dsimp only at h
  split at h
  · split_ifs at h
    · cases h
    · cases h
      rfl
  · cases h
    rfl

/-- The steps of the group arm. -/
theorem groupRequest_ok {groupId : String} :
    groupRequest config entitlements location groupId modifiers = .ok (request, provenance) ↔
      ∃ resolved, resolveGroup groupId (modifiers.by_.or (configuredRegionalDefault config groupId))
          ⟨modifiers.physicalCountry, config.physicalCountry, location⟩ config.weights =
          .ok resolved ∧
        (resolved.group.entitlement = .paidLocationSelection → isPaid entitlements = true) ∧
        mergeGroupModifiers groupId resolved.request modifiers = .ok request ∧
        provenance = some ⟨groupId, resolved.group.origin.asStr,
          resolved.policyProvenance.asStr⟩ := by
  unfold groupRequest
  constructor
  · intro h
    obtain ⟨resolved, hresolved, h⟩ := bind_eq_ok.mp h
    obtain ⟨_, hgate, h⟩ := bind_eq_ok.mp h
    obtain ⟨merged, hmerged, h⟩ := bind_eq_ok.mp h
    cases h
    exact ⟨resolved, orGroupRefuse_ok.mp hresolved, groupLocationGate_ok.mp hgate, hmerged, rfl⟩
  · rintro ⟨resolved, hresolved, hgate, hmerged, rfl⟩
    refine bind_eq_ok.mpr ⟨resolved, orGroupRefuse_ok.mpr hresolved, ?_⟩
    refine bind_eq_ok.mpr ⟨(), groupLocationGate_ok.mpr hgate, ?_⟩
    exact bind_eq_ok.mpr ⟨request, hmerged, rfl⟩

theorem directRequest_target (h : directRequest target modifiers config.weights = .ok request) :
    ∃ extra, directTarget target = .ok (request.target, extra) := by
  unfold directRequest at h
  obtain ⟨policy, -, h⟩ := bind_eq_ok.mp h
  obtain ⟨⟨coreTarget, extra⟩, htarget, h⟩ := bind_eq_ok.mp h
  cases h
  exact ⟨extra, htarget⟩

theorem targetRequest_cases
    (h : targetRequest config entitlements location target modifiers = .ok (request, provenance)) :
    (∃ groupId, target = .group groupId ∧
        groupRequest config entitlements location groupId modifiers = .ok (request, provenance)) ∨
      directRequest target modifiers config.weights = .ok request := by
  cases target with
  | group groupId => exact Or.inl ⟨groupId, rfl, h⟩
  | _ =>
    obtain ⟨request', hrequest, h⟩ := bind_eq_ok.mp h
    cases h
    exact Or.inr hrequest

/-- Where the core target of a composed request comes from: the selector of a group past its gate,
or the direct target itself. -/
theorem Gated.core {catalog : CatalogDocument}
    (hg : Gated config catalog entitlements location target modifiers request provenance) :
    (∃ groupId entry physical constraints, target = .group groupId ∧ group groupId = some entry ∧
        (entry.entitlement = .paidLocationSelection → isPaid entitlements = true) ∧
        groupSelector entry physical = .ok (request.target, constraints)) ∨
      ∃ extra, directTarget target = .ok (request.target, extra) := by
  obtain ⟨raw, hraw, rfl⟩ := hg.composed
  rw [unionConfigured_target]
  rcases targetRequest_cases hraw with ⟨groupId, rfl, hgroup⟩ | hdirect
  · obtain ⟨resolved, hresolved, hgate, hmerge, -⟩ := groupRequest_ok.mp hgroup
    obtain ⟨hentry, -, hselector⟩ := resolveGroup_ok.mp hresolved
    rw [mergeGroupModifiers_target hmerge]
    exact Or.inl ⟨groupId, resolved.group, _, _, rfl, hentry, hgate, hselector⟩
  · exact Or.inr (directRequest_target hdirect)

end

/-! ## Locations -/

/-- The core target is a location. -/
def Target.isLocation : Target → Bool
  | country _ => true
  | countries _ => true
  | state _ => true
  | city _ => true
  | server _ => true
  | _ => false

section
variable {config : SystemConfig} {entitlements : Option VpnEntitlements} {location : Option String}
  {target : ConnectTarget} {modifiers : SelectionModifiers} {request : SelectionRequest}
  {provenance : Option GroupProvenance}

theorem groupSelector_location {entry : GroupEntry} {physical : PhysicalCountrySources}
    {core : Target}
    {constraints : Constraints} (h : groupSelector entry physical = .ok (core, constraints))
    (hlocation : core.isLocation = true) : entry.target.isLocation = true := by
  unfold groupSelector at h
  cases htarget : entry.target with
  | fastestInCountry country => rfl
  | fastestInRegion region => rfl
  | _ =>
    rw [htarget] at h
    cases h
    cases hlocation

theorem directTarget_location {core : Target} {extra : List FeatureConstraint}
    (h : directTarget target = .ok (core, extra)) (hlocation : core.isLocation = true) :
    namesLocation target = true := by
  cases target with
  | country country => rfl
  | state stateOrRegion => rfl
  | city city => rfl
  | server server => rfl
  | special class_ => cases class_ <;> cases h <;> cases hlocation
  | fastest | random | gateway | secureCore =>
    cases h
    cases hlocation
  | group | profile => cases h

theorem location_composed {catalog : CatalogDocument}
    (hg : Gated config catalog entitlements location target modifiers request provenance)
    (hlocation : request.target.isLocation = true) :
    isPaid entitlements = true ∨ target = .group "proton:streaming-us" := by
  rcases hg.core with ⟨groupId, entry, physical, constraints, rfl, hentry, hgate,
    hselector⟩ | ⟨extra, hdirect⟩
  · obtain ⟨hmem, hid⟩ := mem_registry_of_group hentry
    rcases registry_location hmem (groupSelector_location hselector hlocation) with
      hstreaming | hpaid
    · exact Or.inr (by rw [← hid, hstreaming])
    · exact Or.inl (hgate hpaid)
  · exact Or.inl (hg.location (directTarget_location hdirect hlocation))

theorem isPaid_eq_true :
    isPaid entitlements = true ↔ entitlements.bind VpnEntitlements.planTier = some .paid := by
  unfold isPaid
  exact beq_iff_eq

end

/-! ## Concrete requests -/

/-- The codec on one body. -/
def bodySerde (body : String) (doc : CatalogDocument) : Serde :=
  ⟨fun bytes => if bytes = body.toUTF8 then .ok doc else .error "expected value",
    fun cached => cached.body.utf8ByteSize⟩

theorem cachedCatalog_bodySerde {body : String} {doc : CatalogDocument} (etag : Option String)
    (fetchedUnix : ℕ) (hsize : body.toUTF8.size ≤ maxCatalogBytes) (hcode : doc.code = 1000)
    (hlogical : doc.logicalServers.length ≤ maxLogicalServers)
    (hphysical : doc.physicalCount ≤ maxPhysicalServersTotal)
    (hdomains : validateValueDomains doc = .ok ()) :
    cachedCatalog (bodySerde body doc) (.ok (some ⟨1, etag, fetchedUnix, body⟩)) =
      .ok (some ⟨etag, fetchedUnix, doc⟩) := by
  have hparse : CatalogDocument.fromBytes (bodySerde body doc) body.toUTF8 = .ok doc := by
    unfold CatalogDocument.fromBytes bodySerde
    dsimp only
    rw [if_neg (not_lt.mpr hsize), if_pos rfl]
    dsimp only
    rw [if_neg (not_not.mpr hcode), if_neg (by omega), hdomains]
  unfold cachedCatalog
  dsimp only
  rw [hparse]

/-- An online American server of the free tier, with WireGuard over UDP. -/
def streamingServer : LogicalServer where
  id := "id-US#1"
  name := "US#1"
  city := none
  state := none
  entryCountry := "US"
  exitCountry := "US"
  tier := 0
  features := ⟨0⟩
  status := some 1
  load := some 20
  score := some .one
  gatewayName := none
  servers := [⟨1, some ⟨some ⟨"192.0.2.10", some [51820]⟩, none, none⟩⟩]

def streamingDoc : CatalogDocument := ⟨1000, some "", [streamingServer]⟩

def streamingBody : String :=
  "\x7b\"Code\":1000,\"Error\":\"\",\"StatusID\":\"s\",\"LogicalServers\":[\x7b\"ID\":\"id-US#1\"," ++
    "\"Name\":\"US#1\",\"EntryCountry\":\"US\",\"ExitCountry\":\"US\",\"Tier\":0,\"Features\":0,\"Status\":1," ++
    "\"Load\":20,\"Score\":1,\"Servers\":[\x7b\"Domain\":\"node.example\",\"Status\":1," ++
    "\"EntryPerProtocol\":\x7b\"WireGuardUDP\":\x7b\"IPv4\":\"192.0.2.10\",\"Ports\":[51820]\x7d\x7d\x7d]\x7d]\x7d"

/-- The default configuration. -/
def defaultConfig : SystemConfig :=
  ⟨20, ⟨.ratio 40 100, .ratio 40 100, .ratio 15 100, .ratio 5 100⟩, [], [], none, .protonScore⟩

/-- The reads of a request over the streaming catalog. -/
def streamingReads (entitlements : Option VpnEntitlements) : RequestReads :=
  ⟨.ok (some ⟨1, none, 1771000000, streamingBody⟩), .ok entitlements, none, fun _ => ⟨[]⟩, .ok 7⟩

theorem streamingReads_catalog (entitlements : Option VpnEntitlements) :
    cachedCatalog (bodySerde streamingBody streamingDoc) (streamingReads entitlements).catalog =
      .ok (some ⟨none, 1771000000, streamingDoc⟩) :=
  cachedCatalog_bodySerde none 1771000000 (by decide +kernel) rfl (by decide) (by decide) rfl

theorem streaming_resolves :
    ∃ resolution, resolveSelection (bodySerde streamingBody streamingDoc) defaultConfig
        (streamingReads (some (.ofTier .active (some 0)))) (.group "proton:streaming-us")
        {} = .ok resolution ∧
      resolution.request.target = .country "US" := by
  unfold resolveSelection
  rw [streamingReads_catalog]
  exact ⟨_, rfl, rfl⟩

/-! ## The paid location -/

/-- **A plan that is not paid is refused every location, unless it asks for the streaming group.**
The group's definition names a country, and its entitlement class is not the one the gate reads. -/
theorem location_needs_paid_plan (target : ConnectTarget) :
    (∀ J config reads modifiers entitlements result, reads.entitlements = .ok entitlements →
        entitlements.bind VpnEntitlements.planTier ≠ some .paid →
        resolve J config reads target modifiers = .ok result →
        ∃ resolution, resolveSelection J config reads target modifiers = .ok resolution ∧
          result = resolution.render target modifiers ∧
          resolution.request.target.isLocation = false) ↔
      target ≠ .group "proton:streaming-us" := by
  constructor
  · rintro h rfl
    obtain ⟨resolution, hresolution, htarget⟩ := streaming_resolves
    have hok := resolve_ok.mpr ⟨resolution, hresolution, rfl⟩
    obtain ⟨resolution', hresolution', -, hlocation⟩ := h _ _ _ _ _ _ rfl (by decide) hok
    cases hresolution.symm.trans hresolution'
    rw [htarget] at hlocation
    cases hlocation
  · intro htarget J config reads modifiers entitlements result hread hplan hok
    obtain ⟨resolution, hresolution, hrender⟩ := resolve_ok.mp hok
    refine ⟨resolution, hresolution, hrender, Bool.eq_false_iff.mpr fun hlocation => ?_⟩
    rcases location_composed (resolveSelection_ok hread hresolution).gated hlocation with
      hpaid | hstreaming
    · exact hplan (isPaid_eq_true.mp hpaid)
    · exact htarget hstreaming

/-- The streaming group gives a country to a free plan. -/
theorem streaming_group_gives_location :
    (streamingReads (some (.ofTier .active (some 0)))).entitlements =
    .ok (some (.ofTier .active (some 0))) ∧
      (VpnEntitlements.ofTier .active (some 0)).planTier = some .free ∧
      ∃ resolution, resolveSelection (bodySerde streamingBody streamingDoc) defaultConfig
          (streamingReads (some (.ofTier .active (some 0)))) (.group "proton:streaming-us")
          {} = .ok resolution ∧
        resolve (bodySerde streamingBody streamingDoc) defaultConfig
          (streamingReads (some (.ofTier .active (some 0)))) (.group "proton:streaming-us") {} =
            .ok (resolution.render (.group "proton:streaming-us") {}) ∧
        resolution.request.target = .country "US" := by
  obtain ⟨resolution, hresolution, htarget⟩ := streaming_resolves
  exact ⟨rfl, rfl, resolution, hresolution, resolve_ok.mpr ⟨resolution, hresolution, rfl⟩, htarget⟩

end ProtonWire
