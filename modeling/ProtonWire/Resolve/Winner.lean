import ProtonWire.Resolve.Gates
import ProtonWire.Entitlement.Wire
import ProtonWire.Selection.Frame

/-!
# The capabilities behind a winner

* `Resolved.admissible`: a winner is an admissible entry of the catalog it was resolved over;
* `Resolved.leavesCandidate`: its request passed the hard filters;
* `unmetCapability_none`: what the capability gate leaves;
* **`winner_is_entitled`**: a winner and its request are covered by the snapshot, however they are
  spelled.
-/

namespace ProtonWire

open Fallible

/-! ## The winner -/

theorem cachedCatalog_inDomain {J : Serde} {read : Except CatalogCacheError (Option CachedCatalog)}
    {loaded : LoadedCatalog} (h : cachedCatalog J read = .ok (some loaded)) :
    ∀ s ∈ loaded.document.logicalServers, s.InDomain := by
  unfold cachedCatalog at h
  split at h
  · split at h
    · next hparse =>
      cases h
      exact CatalogDocument.fromBytes_inDomain hparse
    · cases h
  · cases h
  · cases h

theorem rankingContext_sameFacts {config : SystemConfig} {catalog : CatalogDocument}
    {reads : RequestReads} {request : SelectionRequest} {context context' : SelectionContext}
    (h : rankingContext config catalog reads request context = .ok context') :
    SameFacts request context context' := by
  unfold rankingContext at h
  obtain ⟨probed, hprobed, h⟩ := bind_eq_ok.mp h
  have hfacts : SameFacts request context probed := by
    unfold probedContext at hprobed
    split_ifs at hprobed
    · obtain ⟨shortlist, -, hprobed⟩ := bind_eq_ok.mp hprobed
      cases hprobed
      exact ⟨rfl, fun _ => ⟨rfl, rfl⟩⟩
    · cases hprobed
      exact ⟨rfl, fun _ => ⟨rfl, rfl⟩⟩
  split_ifs at h
  · obtain ⟨entropy, -, h⟩ := bind_eq_ok.mp h
    cases h
    exact ⟨hfacts.tier, hfacts.portForwarding⟩
  · cases h
    exact hfacts

section
variable {J : Serde} {config : SystemConfig} {reads : RequestReads} {target : ConnectTarget}
  {modifiers : SelectionModifiers} {entitlements : Option VpnEntitlements} {resolution : Resolution}

/-- A winner is an admissible entry of its catalog. -/
theorem Resolved.admissible (h : Resolved J config reads target modifiers entitlements resolution) :
    resolution.winner.server ∈ resolution.loaded.document.logicalServers ∧
      Admissible resolution.request resolution.context resolution.winner.server := by
  have hl := cachedCatalog_inDomain h.catalog
  obtain ⟨hv, hperm, -⟩ := select_ok hl h.selected
  have hranked : resolution.winner.server ∈ resolution.outcome.ranked.map RankedCandidate.server :=
    List.mem_map_of_mem (List.mem_of_mem_head? h.winner)
  have hkept := hperm.mem_iff.mp hranked
  rw [rankable_eq_filter] at hkept
  obtain ⟨hmem, hstages⟩ := List.mem_filter.mp hkept
  exact ⟨hmem, (admissible_iff (hl _ hmem) hv).mpr (of_decide_eq_true hstages)⟩

theorem Resolved.leavesCandidate (h : Resolved J config reads target modifiers entitlements
    resolution) :
    LeavesCandidate resolution.loaded.document resolution.request
      (composeContext entitlements) := by
  have hleaves := leavesCandidate_of_select (cachedCatalog_inDomain h.catalog) h.selected
  unfold LeavesCandidate at hleaves
  rw [filterCandidates_congr ⟨rfl, rfl⟩ (rankingContext_sameFacts h.context)] at hleaves
  exact hleaves

end

/-! ## The capability gate -/

section
variable {entitlements : Option VpnEntitlements} {request : SelectionRequest}
    {catalog : CatalogDocument}

/-- The plan allows a capability. -/
def Allows (entitlements : Option VpnEntitlements)
    (allowance : FeatureAllowances → Option Bool) : Prop :=
  (entitlements.map VpnEntitlements.features).bind allowance = some true

theorem unmetCapability_none (h : unmetCapability entitlements request catalog = none) :
    ((request.target.isSecureCore || request.constraints.names .secureCore ||
        (exactCapabilities request.target catalog).1) = true →
        Allows entitlements FeatureAllowances.secureCore) ∧
      ((request.constraints.names .p2p || (exactCapabilities request.target catalog).2.1) = true →
        Allows entitlements FeatureAllowances.p2p) ∧
      ((request.constraints.names .tor || (exactCapabilities request.target catalog).2.2) = true →
        Allows entitlements FeatureAllowances.tor) := by
  unfold unmetCapability at h
  have hmet := List.findSome?_eq_none_iff.mp h
  have hallowed : ∀ (named : Bool) (capability : String) (allowance : Option Bool),
      (if named && allowance != some true then some (capability, allowance) else none) = none →
      named = true → allowance = some true := by
    intro named capability allowance hnone hnamed
    subst hnamed
    simpa using hnone
  have hrest := List.forall_mem_cons.mp (List.forall_mem_cons.mp hmet).2
  exact ⟨hallowed _ _ _ (hmet _ List.mem_cons_self), hallowed _ _ _ hrest.1,
    hallowed _ _ _ (hrest.2 _ List.mem_cons_self)⟩

theorem exactCapabilities_of_mem {name : String} {s : LogicalServer}
    (hs : s ∈ catalog.logicalServers) (hname : s.name = name) :
    ((s.isSecureCoreRoute || s.features.secureCore) = true →
     (exactCapabilities (.server name) catalog).1 = true) ∧
      (s.features.p2p = true → (exactCapabilities (.server name) catalog).2.1 = true) ∧
      (s.features.tor = true → (exactCapabilities (.server name) catalog).2.2 = true) := by
  have hnamed : s ∈ catalog.logicalServers.filter fun logical => logical.name == name :=
    List.mem_filter.mpr ⟨hs, beq_iff_eq.mpr hname⟩
  exact ⟨fun h => List.any_eq_true.mpr ⟨s, hnamed, h⟩, fun h => List.any_eq_true.mpr ⟨s, hnamed, h⟩,
    fun h => List.any_eq_true.mpr ⟨s, hnamed, h⟩⟩

end

/-! ## The wire target behind a core target -/

section
variable {config : SystemConfig} {catalog : CatalogDocument} {entitlements : Option VpnEntitlements}
  {location : Option String} {target : ConnectTarget} {modifiers : SelectionModifiers}
  {request : SelectionRequest} {provenance : Option GroupProvenance}

/-- The core target is an exact server or a gateway. -/
def Target.isNamed : Target → Bool
  | server _ => true
  | gateway _ => true
  | _ => false

theorem groupSelector_isNamed {entry : GroupEntry} {physical : PhysicalCountrySources}
    {core : Target}
    {constraints : Constraints} (h : groupSelector entry physical = .ok (core, constraints)) :
    core.isNamed = false := by
  unfold groupSelector at h
  cases htarget : entry.target with
  | fastestInRegion region =>
    rw [htarget] at h
    dsimp only at h
    split at h
    · cases h
      rfl
    · cases h
  | _ =>
    rw [htarget] at h
    cases h
    rfl

/-- An exact server or a gateway is the direct target itself. -/
theorem Gated.direct (hg : Gated config catalog entitlements location target modifiers request
    provenance)
    (hnamed : request.target.isNamed = true) :
    ∃ extra, directTarget target = .ok (request.target, extra) := by
  refine hg.core.resolve_left ?_
  rintro ⟨groupId, entry, physical, constraints, -, -, -, hselector⟩
  rw [groupSelector_isNamed hselector] at hnamed
  cases hnamed

theorem directTarget_server {name : String} {extra : List FeatureConstraint}
    (h : directTarget target = .ok (.server name, extra)) : target = .server name := by
  cases target with
  | server =>
    cases h
    rfl
  | special class_ => cases class_ <;> cases h
  | _ => cases h

theorem directTarget_gateway {name : String} {extra : List FeatureConstraint}
    (h : directTarget target = .ok (.gateway name, extra)) : target = .gateway name := by
  cases target with
  | gateway =>
    cases h
    rfl
  | special class_ => cases class_ <;> cases h
  | _ => cases h

end

/-! ## Entitled winners -/

/-- The snapshot covers a winner and the request it was resolved for. -/
structure Entitled (entitlements : Option VpnEntitlements) (target : ConnectTarget)
    (request : SelectionRequest) (winner : LogicalServer) : Prop where
  gateway : winner.isGateway = true → entitlements.bind VpnEntitlements.isBusiness = some true
  fleet : (∀ name, target ≠ .gateway name) →
    (winner.isSecureCoreRoute || winner.features.secureCore) = true →
    Allows entitlements FeatureAllowances.secureCore
  exactP2p : ∀ name, target = .server name → winner.features.p2p = true →
    Allows entitlements FeatureAllowances.p2p
  exactTor : ∀ name, target = .server name → winner.features.tor = true →
    Allows entitlements FeatureAllowances.tor
  p2p : request.constraints.names .p2p = true → Allows entitlements FeatureAllowances.p2p
  tor : request.constraints.names .tor = true → Allows entitlements FeatureAllowances.tor
  secureCore : request.constraints.names .secureCore = true →
    Allows entitlements FeatureAllowances.secureCore
  random : request.policy = .random → entitlements.bind VpnEntitlements.planTier = some .paid
  tier : ∀ tier ∈ entitlements.bind VpnEntitlements.maxTier, winner.tier ≤ tier

theorem StandardServer.plain {s : LogicalServer} (h : StandardServer s) :
    s.isGateway = false ∧ (s.isSecureCoreRoute || s.features.secureCore) = false := by
  obtain ⟨hgateway, hroute, hbit⟩ := h
  unfold LogicalServer.isGateway LogicalServer.isSecureCoreRoute
  simp [hgateway, hroute, hbit]

section
variable {J : Serde} {config : SystemConfig} {reads : RequestReads} {target : ConnectTarget}
  {modifiers : SelectionModifiers} {entitlements : Option VpnEntitlements} {resolution : Resolution}

theorem Resolved.winner_cases (h : Resolved J config reads target modifiers entitlements
    resolution) :
    (∃ name, target = .server name ∧ resolution.request.target = .server name ∧
        resolution.winner.server.name = name) ∨
      (∃ name, target = .gateway name) ∨
      resolution.winner.server.isGateway = false ∧
        ((resolution.winner.server.isSecureCoreRoute ||
          resolution.winner.server.features.secureCore) = true →
          resolution.request.target.isSecureCore = true) := by
  obtain ⟨-, hadm⟩ := h.admissible
  have hfleet := hadm.fleet
  have hplace := hadm.place
  cases hcore : resolution.request.target with
  | server name =>
    obtain ⟨extra, hdirect⟩ := h.gated.direct (by rw [hcore]; rfl)
    rw [hcore] at hdirect hplace
    exact Or.inl ⟨name, directTarget_server hdirect, rfl, hplace⟩
  | gateway name =>
    obtain ⟨extra, hdirect⟩ := h.gated.direct (by rw [hcore]; rfl)
    rw [hcore] at hdirect
    exact Or.inr (Or.inl ⟨name, directTarget_gateway hdirect⟩)
  | secureCore entryCountry exitCountry =>
    rw [hcore] at hfleet
    refine Or.inr (Or.inr ⟨?_, fun _ => rfl⟩)
    unfold LogicalServer.isGateway
    rw [hfleet.1]
    rfl
  | _ =>
    rw [hcore] at hfleet
    obtain ⟨hgateway, hplain⟩ := StandardServer.plain hfleet
    exact Or.inr (Or.inr ⟨hgateway, fun hroute => by rw [hplain] at hroute; cases hroute⟩)

theorem Resolved.gateway (h : Resolved J config reads target modifiers entitlements resolution)
    (hgateway : resolution.winner.server.isGateway = true) :
    entitlements.bind VpnEntitlements.isBusiness = some true := by
  obtain ⟨hmem, -⟩ := h.admissible
  refine h.gated.gateway ?_
  rcases h.winner_cases with ⟨name, rfl, -, hname⟩ | ⟨name, rfl⟩ | ⟨hnone, -⟩
  · refine List.any_eq_true.mpr ⟨_, hmem, ?_⟩
    rw [hname, hgateway, beq_self_eq_true]
    rfl
  · rfl
  · rw [hnone] at hgateway
    cases hgateway

theorem Resolved.fleet (h : Resolved J config reads target modifiers entitlements resolution)
    (htarget : ∀ name, target ≠ .gateway name)
    (hroute : (resolution.winner.server.isSecureCoreRoute ||
      resolution.winner.server.features.secureCore) = true) :
    Allows entitlements FeatureAllowances.secureCore := by
  obtain ⟨hmem, -⟩ := h.admissible
  refine (unmetCapability_none h.gated.capability).1 ?_
  rcases h.winner_cases with ⟨name, -, hcore, hname⟩ | ⟨name, hgateway⟩ | ⟨-, hfleet⟩
  · rw [hcore, (exactCapabilities_of_mem hmem hname).1 hroute, Bool.or_true]
  · exact absurd hgateway (htarget name)
  · rw [hfleet hroute, Bool.true_or, Bool.true_or]

/-- An exact target resolves to itself. -/
theorem Resolved.exact {name : String}
    (h : Resolved J config reads (.server name) modifiers entitlements resolution) :
    resolution.request.target = .server name ∧ resolution.winner.server.name = name := by
  obtain ⟨extra, htarget⟩ := h.gated.core.resolve_left
    (by rintro ⟨_, _, _, _, hgroup, -⟩; cases hgroup)
  have hpair : (Target.server name, ([] : List FeatureConstraint)) =
    (resolution.request.target, extra) :=
    Except.ok.inj htarget
  have hcore : resolution.request.target = .server name := (Prod.mk.inj hpair).1.symm
  have hplace := h.admissible.2.place
  rw [hcore] at hplace
  exact ⟨hcore, hplace⟩

theorem accountTier_eq {tier : ℤ} (h : 0 ≤ tier) :
    (BitVec.ofInt 8 (min tier i8Max)).toInt = min tier i8Max := by
  have hle : min tier i8Max ≤ 127 := min_le_right _ _
  have hnonneg : 0 ≤ min tier i8Max := le_min h (by decide)
  rw [BitVec.toInt_ofInt]
  exact Int.bmod_eq_of_le (by omega) (by omega)

theorem Resolved.tier (h : Resolved J config reads target modifiers entitlements resolution)
    {tier : ℤ} (htier : tier ∈ entitlements.bind VpnEntitlements.maxTier) (hnonneg : 0 ≤ tier) :
    resolution.winner.server.tier ≤ tier := by
  obtain ⟨-, hadm⟩ := h.admissible
  have hcontext : resolution.context.accountTier = accountTier entitlements :=
    (rankingContext_sameFacts h.context).tier
  have haccount : accountTier entitlements = some (min tier i8Max) := by
    unfold accountTier
    rw [Option.mem_def.mp htier, Option.map_some, accountTier_eq hnonneg]
  calc resolution.winner.server.tier ≤ min tier i8Max := hadm.tier _ (by rw [hcontext, haccount]; rfl)
    _ ≤ tier := min_le_left _ _

end

/-- **A resolved winner and its request are covered by the snapshot**, a snapshot being a document
the account service sent. -/
theorem winner_is_entitled {J : Serde} {R : JsonReader} {config : SystemConfig}
    {reads : RequestReads} {target : ConnectTarget} {modifiers : SelectionModifiers}
    {entitlements : Option VpnEntitlements}
    {result : SelectionResult} (hread : reads.entitlements = .ok entitlements)
    (hwire : ∀ snapshot ∈ entitlements, ∃ body, VpnEntitlements.fromWireBytes R body = .ok snapshot)
    (h : resolve J config reads target modifiers = .ok result) :
    ∃ resolution, resolveSelection J config reads target modifiers = .ok resolution ∧
      result = resolution.render target modifiers ∧
      Entitled entitlements target resolution.request resolution.winner.server := by
  obtain ⟨resolution, hresolution, hrender⟩ := resolve_ok.mp h
  have hresolved := resolveSelection_ok hread hresolution
  obtain ⟨hmem, -⟩ := hresolved.admissible
  obtain ⟨hcore, hp2p, htor⟩ := unmetCapability_none hresolved.gated.capability
  refine ⟨resolution, hresolution, hrender, hresolved.gateway, hresolved.fleet, ?_, ?_, ?_, ?_,
    ?_, ?_, ?_⟩
  · rintro name rfl hbit
    obtain ⟨htarget, hname⟩ := hresolved.exact
    refine hp2p ?_
    rw [htarget, (exactCapabilities_of_mem hmem hname).2.1 hbit, Bool.or_true]
  · rintro name rfl hbit
    obtain ⟨htarget, hname⟩ := hresolved.exact
    refine htor ?_
    rw [htarget, (exactCapabilities_of_mem hmem hname).2.2 hbit, Bool.or_true]
  · exact fun hnames => hp2p (by rw [hnames, Bool.true_or])
  · exact fun hnames => htor (by rw [hnames, Bool.true_or])
  · exact fun hnames => hcore (by rw [hnames, Bool.or_true, Bool.true_or])
  · exact fun hrandom => isPaid_eq_true.mp (hresolved.gated.random hrandom)
  · intro tier htier
    obtain ⟨snapshot, hsnapshot, hmax⟩ := Option.bind_eq_some_iff.mp htier
    obtain ⟨body, hbody⟩ := hwire snapshot hsnapshot
    exact hresolved.tier htier ((fromWireBytes_classified hbody).tier tier hmax)

/-- A document of a paid plan. -/
def paidBody : String :=
  "\x7b\"Code\":1000,\"VPN\":\x7b\"Status\":1,\"MaxTier\":2,\"MaxConnect\":1\x7d,\"Subscribed\":0," ++
    "\"Services\":0,\"Delinquent\":0\x7d"

/-- The reader on the document of the paid plan. -/
def paidReader : JsonReader where
  fromSlice bytes := if bytes = paidBody.toUTF8 then
      .ok (.object [("Code", .number (some 1000)),
        ("VPN", .object [("Status", .number (some 1)), ("MaxTier", .number (some 2)),
          ("MaxConnect", .number (some 1))]),
        ("Subscribed", .number (some 0)), ("Services", .number (some 0)),
        ("Delinquent", .number (some 0))])
    else .error "expected value"
  debug text := "\"" ++ text ++ "\""

theorem paidBody_parses :
    VpnEntitlements.fromWireBytes paidReader paidBody.toUTF8 = .ok (.ofTier .active (some 2)) := by
  unfold VpnEntitlements.fromWireBytes paidReader
  dsimp only
  rw [if_pos rfl]
  rfl

theorem winner_is_entitled_paid :
    ∃ result, resolve (bodySerde streamingBody streamingDoc) defaultConfig
        (streamingReads (some (.ofTier .active (some 2)))) (.server "US#1") {} = .ok result ∧
      result.winner.name = "US#1" ∧
      ∃ resolution : Resolution, result = resolution.render (.server "US#1") {} ∧
        Entitled (some (.ofTier .active (some 2))) (.server "US#1") resolution.request
          resolution.winner.server := by
  obtain ⟨resolution, hresolution, hname⟩ :
      ∃ resolution, resolveSelection (bodySerde streamingBody streamingDoc) defaultConfig
          (streamingReads (some (.ofTier .active (some 2)))) (.server "US#1") {} = .ok resolution ∧
        resolution.winner.server.name = "US#1" := by
    unfold resolveSelection
    rw [streamingReads_catalog]
    exact ⟨_, rfl, rfl⟩
  have hok := resolve_ok.mpr ⟨resolution, hresolution, rfl⟩
  refine ⟨_, hok, hname, ?_⟩
  obtain ⟨resolution', -, hrender, hentitled⟩ := winner_is_entitled rfl
    (fun snapshot hsnapshot => ⟨paidBody.toUTF8, by cases hsnapshot; exact paidBody_parses⟩) hok
  exact ⟨resolution', hrender, hentitled⟩

end ProtonWire
