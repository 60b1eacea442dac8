import ProtonWire.Resolve.Gates

/-!
# Modifiers only narrow

* `Constraints.Keeps`: every constraint of one request is in another;
* `Narrows`: the same target, ranking and physical country, and more constraints;
* `Narrows.filter`: a narrower request leaves no further survivor;
* `finalRequest`: the request of `resolve`, past the boundary and every gate;
* `Extends`: modifiers that add exclusions, features or a protocol to others;
* **`modifiers_narrow`**: what is added narrows the survivors or is refused, a protocol in conflict
  with the group's is refused, and no constraint of the user, the group or the configuration is
  dropped.
-/

namespace ProtonWire

open Fallible

/-! ## Constraints -/

/-- Every constraint of `c` is one of `c'`. -/
structure Constraints.Keeps (c c' : Constraints) : Prop where
  countries : c.excludedCountries ⊆ c'.excludedCountries
  states : c.excludedStates ⊆ c'.excludedStates
  cities : c.excludedCities ⊆ c'.excludedCities
  servers : c.excludedServers ⊆ c'.excludedServers
  entryCountries : c.excludedEntryCountries ⊆ c'.excludedEntryCountries
  exitCountries : c.excludedExitCountries ⊆ c'.excludedExitCountries
  physicalCountry : c.excludePhysicalCountry = true →
    c'.excludePhysicalCountry = true ∧ c'.physicalCountry = c.physicalCountry
  requiredFeatures : c.requiredFeatures ⊆ c'.requiredFeatures
  optionalFeatures : c.optionalFeatures ⊆ c'.optionalFeatures
  requiredProtocol : ∀ required ∈ c.requiredProtocol, required ∈ c'.requiredProtocol

theorem Constraints.Keeps.refl (c : Constraints) : c.Keeps c where
  countries := List.Subset.refl _
  states := List.Subset.refl _
  cities := List.Subset.refl _
  servers := List.Subset.refl _
  entryCountries := List.Subset.refl _
  exitCountries := List.Subset.refl _
  physicalCountry h := ⟨h, rfl⟩
  requiredFeatures := List.Subset.refl _
  optionalFeatures := List.Subset.refl _
  requiredProtocol _ h := h

theorem Constraints.Keeps.trans {a b c : Constraints} (hab : a.Keeps b) (hbc : b.Keeps c) :
    a.Keeps c where
  countries := List.Subset.trans hab.countries hbc.countries
  states := List.Subset.trans hab.states hbc.states
  cities := List.Subset.trans hab.cities hbc.cities
  servers := List.Subset.trans hab.servers hbc.servers
  entryCountries := List.Subset.trans hab.entryCountries hbc.entryCountries
  exitCountries := List.Subset.trans hab.exitCountries hbc.exitCountries
  physicalCountry h := by
    obtain ⟨hb, hplace⟩ := hab.physicalCountry h
    obtain ⟨hc, hplace'⟩ := hbc.physicalCountry hb
    exact ⟨hc, hplace'.trans hplace⟩
  requiredFeatures := List.Subset.trans hab.requiredFeatures hbc.requiredFeatures
  optionalFeatures := List.Subset.trans hab.optionalFeatures hbc.optionalFeatures
  requiredProtocol p h := hbc.requiredProtocol p (hab.requiredProtocol p h)

/-- `request'` has the target, the ranking and the physical country of `request`, and keeps its
constraints. -/
structure Narrows (request request' : SelectionRequest) : Prop where
  target : request'.target = request.target
  policy : request'.policy = request.policy
  excludes : request'.constraints.excludePhysicalCountry =
    request.constraints.excludePhysicalCountry
  physicalCountry : request'.constraints.physicalCountry = request.constraints.physicalCountry
  keeps : request.constraints.Keeps request'.constraints

/-! ## The hard filters -/

theorem validateCountries_ok {codes : List String} :
    validateCountries codes = .ok () ↔ ∀ code ∈ codes, validateCountry code = .ok () := by
  induction codes with
  | nil => simp [validateCountries]
  | cons code codes ih =>
    rw [List.forall_mem_cons, ← ih, validateCountries]
    constructor
    · intro h
      obtain ⟨_, hcode, hcodes⟩ := bind_eq_ok.mp h
      exact ⟨hcode, hcodes⟩
    · rintro ⟨hcode, hcodes⟩
      exact bind_eq_ok.mpr ⟨(), hcode, hcodes⟩

theorem validateCountries_of_subset {codes codes' : List String} (hsub : codes ⊆ codes')
    (h : validateCountries codes' = .ok ()) : validateCountries codes = .ok () :=
  validateCountries_ok.mpr fun code hmem => validateCountries_ok.mp h code (hsub hmem)

section
variable {request request' : SelectionRequest} {context : SelectionContext}

theorem Narrows.valid_countries (hn : Narrows request request')
    (h : validateRequestCountries request' = .ok ()) :
    validateRequestCountries request = .ok () := by
  unfold validateRequestCountries at h ⊢
  obtain ⟨_, htarget, h⟩ := bind_eq_ok.mp h
  obtain ⟨_, hcountries, h⟩ := bind_eq_ok.mp h
  obtain ⟨_, hentry, h⟩ := bind_eq_ok.mp h
  obtain ⟨_, hexit, hphysical⟩ := bind_eq_ok.mp h
  rw [hn.target] at htarget
  rw [hn.physicalCountry] at hphysical
  refine bind_eq_ok.mpr ⟨(), htarget, ?_⟩
  refine bind_eq_ok.mpr ⟨(), validateCountries_of_subset hn.keeps.countries hcountries, ?_⟩
  refine bind_eq_ok.mpr ⟨(), validateCountries_of_subset hn.keeps.entryCountries hentry, ?_⟩
  exact bind_eq_ok.mpr ⟨(), validateCountries_of_subset hn.keeps.exitCountries hexit, hphysical⟩

theorem isEmpty_of_subset {α : Type} {l l' : List α} (hsub : l ⊆ l') (h : l'.isEmpty = true) :
    l.isEmpty = true := by
  rw [List.isEmpty_iff] at h ⊢
  subst h
  exact List.subset_nil.mp hsub

/-- A valid request was valid before it was narrowed. -/
theorem Narrows.valid (hn : Narrows request request')
    (h : validateRequest request' context = .ok ()) :
    validateRequest request context = .ok () := by
  unfold validateRequest at h ⊢
  obtain ⟨_, hcountries, h⟩ := bind_eq_ok.mp h
  refine bind_eq_ok.mpr ⟨(), hn.valid_countries hcountries, ?_⟩
  split_ifs at h with hroute hfleet hphysical hcompose
  rw [if_neg, if_neg, if_neg, if_neg]
  · -- port forwarding
    intro hneeds
    refine hcompose ?_
    rw [Bool.and_eq_true] at hneeds ⊢
    refine ⟨?_, hneeds.2⟩
    unfold needsPortForwardingComposition at hneeds ⊢
    obtain ⟨feature, hmem, hfeature⟩ := List.any_eq_true.mp hneeds.1
    refine List.any_eq_true.mpr ⟨feature, ?_, hfeature⟩
    rcases List.mem_append.mp hmem with hmem | hmem
    · exact List.mem_append.mpr (.inl (hn.keeps.requiredFeatures hmem))
    · exact List.mem_append.mpr (.inr (hn.keeps.optionalFeatures hmem))
  · rwa [← hn.excludes, ← hn.physicalCountry]
  · intro hsc
    refine hfleet ?_
    rw [hn.target]
    simp only [Bool.and_eq_true, List.contains_iff_mem] at hsc ⊢
    exact ⟨hsc.1, hn.keeps.requiredFeatures hsc.2⟩
  · intro hsc
    refine hroute ?_
    rw [hn.target]
    simp only [Bool.and_eq_true, Bool.or_eq_true, Bool.not_eq_true'] at hsc ⊢
    refine ⟨hsc.1, hsc.2.imp (fun hne => ?_) fun hne => ?_⟩
    · rw [← Bool.not_eq_true] at hne ⊢
      exact fun hempty => hne (isEmpty_of_subset hn.keeps.entryCountries hempty)
    · rw [← Bool.not_eq_true] at hne ⊢
      exact fun hempty => hne (isEmpty_of_subset hn.keeps.exitCountries hempty)

/-- What a request violates, a narrower one violates. -/
theorem Narrows.violates (hn : Narrows request request') {s : LogicalServer} {stage : FilterStage}
    (h : Violates request context s stage) : Violates request' context s stage := by
  cases stage with
  | accountTier => exact h
  | unknownStatus => exact h
  | offline => exact h
  | allPhysicalsOffline => exact h
  | absentFromCatalog => exact h
  | serverType =>
    unfold Violates at h ⊢
    rwa [hn.target]
  | targetGeography =>
    unfold Violates at h ⊢
    rwa [hn.target]
  | physicalCountryExclusion =>
    unfold Violates at h ⊢
    rwa [hn.excludes, hn.physicalCountry]
  | excludedCountry => exact hn.keeps.countries h
  | excludedEntryCountry => exact hn.keeps.entryCountries h
  | excludedExitCountry => exact hn.keeps.exitCountries h
  | excludedState =>
    obtain ⟨name, hname, hsame⟩ := h
    exact ⟨name, hn.keeps.states hname, hsame⟩
  | excludedCity =>
    obtain ⟨name, hname, hsame⟩ := h
    exact ⟨name, hn.keeps.cities hname, hsame⟩
  | excludedServer => exact hn.keeps.servers h
  | requiredFeatures =>
    obtain ⟨feature, hmem, hmissing⟩ := h
    exact ⟨feature, hn.keeps.requiredFeatures hmem, hmissing⟩
  | protocolCompatibility =>
    obtain ⟨required, hmem, hnone⟩ := h
    exact ⟨required, hn.keeps.requiredProtocol required hmem, hnone⟩
  | loadNotExposed =>
    unfold Violates at h ⊢
    rwa [hn.policy]
  | noLatencyObservation =>
    unfold Violates at h ⊢
    rwa [hn.policy]

theorem Narrows.survivors_sublist (hn : Narrows request request') (l : List LogicalServer) :
    (survivors request' context l).Sublist (survivors request context l) := by
  unfold survivors
  refine List.monotone_filter_right l fun s h => ?_
  rw [decide_eq_true_eq] at h ⊢
  unfold hardStage at h ⊢
  rw [firstViolated_eq_none] at h ⊢
  exact fun stage hmem hviolates => h stage hmem (hn.violates hviolates)

/-- **A narrower request leaves no further survivor.** -/
theorem Narrows.filter (hn : Narrows request request') {doc : CatalogDocument}
    (hl : ∀ s ∈ doc.logicalServers, s.InDomain) {kept' : List LogicalServer}
    {report' : EliminationReport}
    (h : filterCandidates doc request' context = .ok (kept', report')) :
    ∃ kept report, filterCandidates doc request context = .ok (kept, report) ∧
      kept'.Sublist kept := by
  have hv : validateRequest request' context = .ok () := by
    obtain ⟨_, hv, -⟩ := bind_eq_ok.mp h
    exact hv
  have hsub : (survivors request' context doc.logicalServers).Sublist
      (survivors request context doc.logicalServers) := hn.survivors_sublist doc.logicalServers
  rw [filterCandidates_eq request' context doc hl hv, hn.target] at h
  rw [filterCandidates_eq request context doc hl (hn.valid hv)]
  split_ifs at h with hempty'
  cases h
  have hempty : ¬ (request.target.isExact &&
      (survivors request context doc.logicalServers).isEmpty) = true := by
    intro hempty
    rw [Bool.and_eq_true] at hempty
    exact hempty'
      (by rw [Bool.and_eq_true]; exact ⟨hempty.1, isEmpty_of_subset hsub.subset hempty.2⟩)
  rw [if_neg hempty]
  exact ⟨_, _, rfl, hsub⟩

end

/-! ## The final request -/

/-- The request that `resolve` runs: past the boundary and every gate. -/
def finalRequest (config : SystemConfig) (catalog : CatalogDocument)
    (entitlements : Option VpnEntitlements)
    (location : Option String) (target : ConnectTarget) (modifiers : SelectionModifiers) :
    Except RpcFault SelectionRequest := do
  validateBoundary target modifiers
  return (← composeRequest config catalog entitlements location target modifiers).1

/-- The modifiers `modifiers'` add exclusions, features or a protocol to `modifiers`. -/
structure Extends (modifiers modifiers' : SelectionModifiers) : Prop where
  by_ : modifiers'.by_ = modifiers.by_
  physicalCountry : modifiers'.physicalCountry = modifiers.physicalCountry
  countries : modifiers.excludedCountries ⊆ modifiers'.excludedCountries
  states : modifiers.excludedStates ⊆ modifiers'.excludedStates
  cities : modifiers.excludedCities ⊆ modifiers'.excludedCities
  servers : modifiers.excludedServers ⊆ modifiers'.excludedServers
  entryCountries : modifiers.excludedEntryCountries ⊆ modifiers'.excludedEntryCountries
  exitCountries : modifiers.excludedExitCountries ⊆ modifiers'.excludedExitCountries
  requiredFeatures : modifiers.requiredFeatures ⊆ modifiers'.requiredFeatures
  optionalFeatures : modifiers.optionalFeatures ⊆ modifiers'.optionalFeatures
  requiredProtocol : ∀ required ∈ modifiers.requiredProtocol, required ∈ modifiers'.requiredProtocol

section
variable {config : SystemConfig} {catalog : CatalogDocument} {entitlements : Option VpnEntitlements}
  {location : Option String} {target : ConnectTarget} {modifiers modifiers' : SelectionModifiers}
  {request request' : SelectionRequest}

theorem finalRequest_ok :
    finalRequest config catalog entitlements location target modifiers = .ok request ↔
      validateBoundary target modifiers = .ok () ∧ ∃ provenance,
        Gated config catalog entitlements location target modifiers request provenance := by
  unfold finalRequest
  constructor
  · intro h
    obtain ⟨_, hboundary, h⟩ := bind_eq_ok.mp h
    obtain ⟨⟨request, provenance⟩, hcompose, h⟩ := bind_eq_ok.mp h
    cases h
    exact ⟨hboundary, provenance, composeRequest_ok.mp hcompose⟩
  · rintro ⟨hboundary, provenance, hgated⟩
    exact bind_eq_ok.mpr ⟨(), hboundary,
      bind_eq_ok.mpr ⟨(request, provenance), composeRequest_ok.mpr hgated, rfl⟩⟩

/-- `resolve` runs the final request. -/
theorem finalRequest_of_resolve {J : Serde} {reads : RequestReads} {resolution : Resolution}
    (hread : reads.entitlements = .ok entitlements)
    (h : resolveSelection J config reads target modifiers = .ok resolution) :
    finalRequest config resolution.loaded.document entitlements reads.location target modifiers =
      .ok resolution.request := by
  refine finalRequest_ok.mpr ⟨?_, resolution.provenance, (resolveSelection_ok hread h).gated⟩
  obtain ⟨_, hboundary, -⟩ := bind_eq_ok.mp h
  exact hboundary

/-! ## Two sets of modifiers -/

theorem boundaryCountries_of_subset {field : String} {codes codes' : List String}
    (hsub : codes ⊆ codes')
    (h : boundaryCountries field codes' = .ok ()) : boundaryCountries field codes = .ok () := by
  have hok : ∀ codes : List String,
      boundaryCountries field codes = .ok () ↔ ∀ code ∈ codes, boundaryCountry field code =
      .ok () := by
    intro codes
    induction codes with
    | nil => simp [boundaryCountries]
    | cons code codes ih =>
      rw [List.forall_mem_cons, ← ih, boundaryCountries]
      constructor
      · intro h
        obtain ⟨_, hcode, hcodes⟩ := bind_eq_ok.mp h
        exact ⟨hcode, hcodes⟩
      · rintro ⟨hcode, hcodes⟩
        exact bind_eq_ok.mpr ⟨(), hcode, hcodes⟩
  exact (hok codes).mpr fun code hmem => (hok codes').mp h code (hsub hmem)

theorem Extends.boundary (he : Extends modifiers modifiers')
    (h : validateBoundary target modifiers' = .ok ()) :
    validateBoundary target modifiers = .ok () := by
  unfold validateBoundary at h ⊢
  rw [he.by_, he.physicalCountry] at h
  split_ifs at h with hrandom
  · cases h
  · rw [if_neg hrandom]
    obtain ⟨_, htarget, h⟩ := bind_eq_ok.mp h
    obtain ⟨_, hcountries, h⟩ := bind_eq_ok.mp h
    obtain ⟨_, hentry, h⟩ := bind_eq_ok.mp h
    obtain ⟨_, hexit, hphysical⟩ := bind_eq_ok.mp h
    refine bind_eq_ok.mpr ⟨(), htarget, ?_⟩
    refine bind_eq_ok.mpr ⟨(), boundaryCountries_of_subset he.countries hcountries, ?_⟩
    refine bind_eq_ok.mpr ⟨(), boundaryCountries_of_subset he.entryCountries hentry, ?_⟩
    exact bind_eq_ok.mpr ⟨(), boundaryCountries_of_subset he.exitCountries hexit, hphysical⟩

/-- The steps of a merge. -/
theorem mergeGroupModifiers_ok {groupId : String} {merged : SelectionRequest} :
    mergeGroupModifiers groupId request modifiers = .ok merged ↔
      (∀ declared ∈ request.constraints.requiredProtocol, ∀ requested ∈ modifiers.requiredProtocol,
        declared = wireProtocol requested) ∧
      merged = { request with constraints := { request.constraints with
        excludedCountries := request.constraints.excludedCountries ++ modifiers.excludedCountries
        excludedStates := request.constraints.excludedStates ++ modifiers.excludedStates
        excludedCities := request.constraints.excludedCities ++ modifiers.excludedCities
        excludedServers := request.constraints.excludedServers ++ modifiers.excludedServers
        excludedEntryCountries := request.constraints.excludedEntryCountries ++
          modifiers.excludedEntryCountries
        excludedExitCountries := request.constraints.excludedExitCountries ++
          modifiers.excludedExitCountries
        requiredFeatures := request.constraints.requiredFeatures ++
          modifiers.requiredFeatures.map wireFeature
        optionalFeatures := request.constraints.optionalFeatures ++
          modifiers.optionalFeatures.map wireFeature
        requiredProtocol :=
          request.constraints.requiredProtocol.or
            (modifiers.requiredProtocol.map wireProtocol) } } := by
  unfold mergeGroupModifiers
  dsimp only
  cases hdeclared : request.constraints.requiredProtocol with
  | none =>
    dsimp only
    rw [Except.ok.injEq, eq_comm]
    simp
  | some declared =>
    cases hrequested : modifiers.requiredProtocol with
    | none =>
      dsimp only [Option.map_none]
      rw [Except.ok.injEq, eq_comm]
      simp
    | some requested =>
      dsimp only [Option.map_some]
      by_cases heq : declared = wireProtocol requested
      · rw [if_neg (not_not.mpr heq), Except.ok.injEq, eq_comm]
        simp [heq]
      · rw [if_pos heq]
        simp [heq, refuse]

theorem mergeGroupModifiers_keeps {groupId : String} {merged : SelectionRequest}
    (h : mergeGroupModifiers groupId request modifiers = .ok merged) :
    request.constraints.Keeps merged.constraints := by
  obtain ⟨-, rfl⟩ := mergeGroupModifiers_ok.mp h
  exact {
    countries := List.subset_append_left _ _
    states := List.subset_append_left _ _
    cities := List.subset_append_left _ _
    servers := List.subset_append_left _ _
    entryCountries := List.subset_append_left _ _
    exitCountries := List.subset_append_left _ _
    physicalCountry := fun hexcludes => ⟨hexcludes, rfl⟩
    requiredFeatures := List.subset_append_left _ _
    optionalFeatures := List.subset_append_left _ _
    requiredProtocol := fun required hrequired => by
      rw [Option.mem_def] at hrequired ⊢
      rw [hrequired, Option.some_or] }

/-- What the modifiers ask for. -/
def userConstraints (modifiers : SelectionModifiers) : Constraints where
  excludedCountries := modifiers.excludedCountries
  excludedStates := modifiers.excludedStates
  excludedCities := modifiers.excludedCities
  excludedServers := modifiers.excludedServers
  excludedEntryCountries := modifiers.excludedEntryCountries
  excludedExitCountries := modifiers.excludedExitCountries
  requiredFeatures := modifiers.requiredFeatures.map wireFeature
  optionalFeatures := modifiers.optionalFeatures.map wireFeature
  requiredProtocol := modifiers.requiredProtocol.map wireProtocol

theorem mergeGroupModifiers_keeps_user {groupId : String} {merged : SelectionRequest}
    (h : mergeGroupModifiers groupId request modifiers = .ok merged) :
    (userConstraints modifiers).Keeps merged.constraints := by
  obtain ⟨hagree, rfl⟩ := mergeGroupModifiers_ok.mp h
  exact {
    countries := List.subset_append_right _ _
    states := List.subset_append_right _ _
    cities := List.subset_append_right _ _
    servers := List.subset_append_right _ _
    entryCountries := List.subset_append_right _ _
    exitCountries := List.subset_append_right _ _
    physicalCountry := fun hexcludes => by cases hexcludes
    requiredFeatures := List.subset_append_right _ _
    optionalFeatures := List.subset_append_right _ _
    requiredProtocol := fun required hrequired => by
      obtain ⟨requested, hrequested, rfl⟩ := Option.mem_map.mp hrequired
      cases hdeclared : request.constraints.requiredProtocol with
      | none =>
        exact Option.mem_map_of_mem wireProtocol hrequested
      | some declared =>
        exact congrArg some (hagree declared hdeclared requested hrequested) }

theorem append_subset_append {α : Type} (l : List α) {a b : List α} (h : a ⊆ b) : l ++ a ⊆ l ++ b :=
  List.append_subset.mpr ⟨List.subset_append_left _ _, List.subset_append_of_subset_right _ h⟩

theorem Extends.merge (he : Extends modifiers modifiers') {groupId : String}
    (h : mergeGroupModifiers groupId request modifiers' = .ok request') :
    ∃ merged, mergeGroupModifiers groupId request modifiers = .ok merged ∧
      Narrows merged request' := by
  obtain ⟨hagree, rfl⟩ := mergeGroupModifiers_ok.mp h
  refine ⟨_, mergeGroupModifiers_ok.mpr ⟨fun declared hdeclared requested hrequested =>
    hagree declared hdeclared requested (he.requiredProtocol requested hrequested), rfl⟩, ?_⟩
  refine ⟨rfl, rfl, rfl, rfl, ?_⟩
  exact {
    countries := append_subset_append _ he.countries
    states := append_subset_append _ he.states
    cities := append_subset_append _ he.cities
    servers := append_subset_append _ he.servers
    entryCountries := append_subset_append _ he.entryCountries
    exitCountries := append_subset_append _ he.exitCountries
    physicalCountry := fun hexcludes => ⟨hexcludes, rfl⟩
    requiredFeatures := append_subset_append _ (List.map_subset wireFeature he.requiredFeatures)
    optionalFeatures := append_subset_append _ (List.map_subset wireFeature he.optionalFeatures)
    requiredProtocol := fun required hrequired => by
      cases hdeclared : request.constraints.requiredProtocol with
      | none =>
        rw [hdeclared, Option.none_or] at hrequired
        obtain ⟨requested, hrequested, rfl⟩ := Option.mem_map.mp hrequired
        exact Option.mem_map_of_mem wireProtocol (he.requiredProtocol requested hrequested)
      | some declared =>
        rw [hdeclared, Option.some_or] at hrequired
        exact hrequired }

/-- The steps of a direct request. -/
theorem directRequest_ok {weights : WeightedSignals} :
    directRequest target modifiers weights = .ok request ↔
      ∃ extra, directPolicy target modifiers.by_ weights = .ok request.policy ∧
        directTarget target = .ok (request.target, extra) ∧
        request.constraints = { userConstraints modifiers with
          requiredFeatures := modifiers.requiredFeatures.map wireFeature ++ extra } := by
  unfold directRequest
  constructor
  · intro h
    obtain ⟨policy, hpolicy, h⟩ := bind_eq_ok.mp h
    obtain ⟨⟨coreTarget, extra⟩, htarget, h⟩ := bind_eq_ok.mp h
    cases h
    exact ⟨extra, hpolicy, htarget, rfl⟩
  · rintro ⟨extra, hpolicy, htarget, hconstraints⟩
    refine bind_eq_ok.mpr ⟨request.policy, hpolicy,
      bind_eq_ok.mpr ⟨(request.target, extra), htarget, ?_⟩⟩
    obtain ⟨coreTarget, policy, constraints⟩ := request
    dsimp only at hconstraints
    rw [hconstraints]
    rfl

theorem Extends.direct (he : Extends modifiers modifiers') {weights : WeightedSignals}
    (h : directRequest target modifiers' weights = .ok request') :
    ∃ request, directRequest target modifiers weights = .ok request ∧ Narrows request request' := by
  obtain ⟨extra, hpolicy, htarget, hconstraints⟩ := directRequest_ok.mp h
  rw [he.by_] at hpolicy
  refine ⟨⟨request'.target, request'.policy, { userConstraints modifiers with
    requiredFeatures := modifiers.requiredFeatures.map wireFeature ++ extra }⟩,
    directRequest_ok.mpr ⟨extra, hpolicy, htarget, rfl⟩, ?_⟩
  refine ⟨rfl, rfl, by rw [hconstraints]; rfl, by rw [hconstraints]; rfl, ?_⟩
  rw [hconstraints]
  exact {
    countries := he.countries
    states := he.states
    cities := he.cities
    servers := he.servers
    entryCountries := he.entryCountries
    exitCountries := he.exitCountries
    physicalCountry := fun hexcludes => by cases hexcludes
    requiredFeatures := List.append_subset.mpr
      ⟨List.subset_append_of_subset_left _ (List.map_subset wireFeature he.requiredFeatures),
        List.subset_append_right _ _⟩
    optionalFeatures := List.map_subset wireFeature he.optionalFeatures
    requiredProtocol := fun required hrequired => by
      obtain ⟨requested, hrequested, rfl⟩ := Option.mem_map.mp hrequired
      exact Option.mem_map_of_mem wireProtocol (he.requiredProtocol requested hrequested) }

theorem directRequest_keeps_user {weights : WeightedSignals}
    (h : directRequest target modifiers weights = .ok request) :
    (userConstraints modifiers).Keeps request.constraints := by
  obtain ⟨extra, -, -, hconstraints⟩ := directRequest_ok.mp h
  rw [hconstraints]
  exact { Constraints.Keeps.refl (userConstraints modifiers) with
    requiredFeatures := List.subset_append_left _ _ }

theorem mem_unionCountries {configured sink : List String} {country : String} :
    country ∈ unionCountries configured sink ↔ country ∈ sink ∨ country ∈ configured := by
  unfold unionCountries
  induction configured generalizing sink with
  | nil => simp
  | cons c configured ih =>
    rw [List.foldl_cons, ih]
    by_cases hc : c ∈ sink
    · rw [if_pos (List.contains_iff_mem.mpr hc), List.mem_cons]
      constructor
      · rintro (h | h)
        · exact .inl h
        · exact .inr (.inr h)
      · rintro (h | rfl | h)
        · exact .inl h
        · exact .inl hc
        · exact .inr h
    · rw [if_neg fun h => hc (List.contains_iff_mem.mp h)]
      simp [or_assoc]

theorem unionCountries_mono {configured sink sink' : List String} (h : sink ⊆ sink') :
    unionCountries configured sink ⊆ unionCountries configured sink' := by
  intro country hmem
  exact mem_unionCountries.mpr ((mem_unionCountries.mp hmem).imp_left fun hs => h hs)

theorem Narrows.unionConfigured (hn : Narrows request request') (config : SystemConfig) :
    Narrows (unionConfiguredSecureCoreExclusions request config)
      (unionConfiguredSecureCoreExclusions request' config) := by
  unfold unionConfiguredSecureCoreExclusions
  have hiff : request'.target.isSecureCore = true ↔ request.target.isSecureCore = true := by
    rw [hn.target]
  by_cases hsc : request.target.isSecureCore = true
  · rw [if_pos hsc, if_pos (hiff.mpr hsc)]
    refine ⟨hn.target, hn.policy, hn.excludes, hn.physicalCountry, ?_⟩
    exact { hn.keeps with
      entryCountries := unionCountries_mono hn.keeps.entryCountries
      exitCountries := unionCountries_mono hn.keeps.exitCountries }
  · rw [if_neg hsc, if_neg fun h => hsc (hiff.mp h)]
    exact hn

/-- The configured exclusions keep the others, and are kept on a route. -/
theorem unionConfigured_keeps (request : SelectionRequest) (config : SystemConfig) :
    request.constraints.Keeps (unionConfiguredSecureCoreExclusions request config).constraints ∧
      (request.target.isSecureCore = true →
        config.excludedEntryCountries ⊆
            (unionConfiguredSecureCoreExclusions request
             config).constraints.excludedEntryCountries ∧
          config.excludedExitCountries ⊆
            (unionConfiguredSecureCoreExclusions request
             config).constraints.excludedExitCountries) := by
  unfold unionConfiguredSecureCoreExclusions
  by_cases hsc : request.target.isSecureCore = true
  · rw [if_pos hsc]
    refine ⟨{ Constraints.Keeps.refl request.constraints with
      entryCountries := fun c hc => mem_unionCountries.mpr (.inl hc)
      exitCountries := fun c hc => mem_unionCountries.mpr (.inl hc) }, fun _ => ⟨?_, ?_⟩⟩
    · exact fun c hc => mem_unionCountries.mpr (.inr hc)
    · exact fun c hc => mem_unionCountries.mpr (.inr hc)
  · rw [if_neg hsc]
    exact ⟨Constraints.Keeps.refl _, fun h => absurd h hsc⟩

theorem Narrows.names (hn : Narrows request request') {feature : FeatureConstraint}
    (h : request.constraints.names feature = true) : request'.constraints.names feature = true := by
  unfold Constraints.names at h ⊢
  rw [Bool.or_eq_true, List.contains_iff_mem, List.contains_iff_mem] at h ⊢
  exact h.imp (fun hm => hn.keeps.requiredFeatures hm) fun hm => hn.keeps.optionalFeatures hm

/-- A capability that a request names and the plan lacks is one that a narrower request names. -/
theorem Narrows.unmet (hn : Narrows request request')
    (h : unmetCapability entitlements request' catalog = none) :
    unmetCapability entitlements request catalog = none := by
  unfold unmetCapability at h ⊢
  rw [List.findSome?_eq_none_iff] at h ⊢
  rw [hn.target] at h
  have hmono : ∀ (named named' : Bool) (capability : String) (allowance : Option Bool),
      (named = true → named' = true) →
      (if named' && allowance != some true then some (capability, allowance) else none) = none →
      (if named && allowance != some true then some (capability, allowance) else none) = none := by
    intro named named' capability allowance himp hnone
    cases named with
    | false => rfl
    | true => rwa [himp rfl] at hnone
  have h2 := List.forall_mem_cons.mp (List.forall_mem_cons.mp h).2
  refine List.forall_mem_cons.mpr ⟨hmono _ _ _ _ ?_ (h _ List.mem_cons_self),
    List.forall_mem_cons.mpr
    ⟨hmono _ _ _ _ ?_ h2.1, List.forall_mem_cons.mpr
     ⟨hmono _ _ _ _ ?_ (h2.2 _ List.mem_cons_self), ?_⟩⟩⟩
  · simp only [Bool.or_eq_true]
    exact fun hor => hor.imp_left fun hor => hor.imp_right hn.names
  · simp only [Bool.or_eq_true]
    exact fun hor => hor.imp_left hn.names
  · simp only [Bool.or_eq_true]
    exact fun hor => hor.imp_left hn.names
  · exact fun a ha => absurd ha List.not_mem_nil

/-- What is resolved from more modifiers narrows what is resolved from fewer. -/
theorem Extends.arm (he : Extends modifiers modifiers') {provenance : Option GroupProvenance}
    (h : targetRequest config entitlements location target modifiers' = .ok (request',
      provenance)) :
    ∃ request, targetRequest config entitlements location target modifiers =
      .ok (request, provenance) ∧
      Narrows request request' := by
  cases target with
  | group groupId =>
    obtain ⟨resolved, hresolved, hgate, hmerge, hprov⟩ := groupRequest_ok.mp h
    rw [he.by_, he.physicalCountry] at hresolved
    obtain ⟨merged, hmerged, hn⟩ := he.merge hmerge
    exact ⟨merged, groupRequest_ok.mpr ⟨resolved, hresolved, hgate, hmerged, hprov⟩, hn⟩
  | _ =>
    obtain ⟨direct, hdirect, h⟩ := bind_eq_ok.mp h
    cases h
    obtain ⟨request, hrequest, hn⟩ := he.direct hdirect
    exact ⟨request, bind_eq_ok.mpr ⟨request, hrequest, rfl⟩, hn⟩

theorem Extends.final (he : Extends modifiers modifiers')
    (h : finalRequest config catalog entitlements location target modifiers' = .ok request') :
    ∃ request, finalRequest config catalog entitlements location target modifiers = .ok request ∧
      Narrows request request' := by
  obtain ⟨hboundary, provenance, hgated⟩ := finalRequest_ok.mp h
  obtain ⟨raw', hraw', rfl⟩ := hgated.composed
  obtain ⟨raw, hraw, hn⟩ := he.arm hraw'
  have hunion := hn.unionConfigured config
  refine ⟨unionConfiguredSecureCoreExclusions raw config,
    finalRequest_ok.mpr ⟨he.boundary hboundary, provenance, ?_⟩,
    hunion⟩
  refine ⟨⟨raw, hraw, rfl⟩, hgated.gateway, hunion.unmet hgated.capability, fun hrandom => ?_,
    hgated.location⟩
  exact hgated.random (by rw [hunion.policy]; exact hrandom)

/-! ## What the final request keeps -/

theorem finalRequest_keeps_user (h : finalRequest config catalog entitlements location target
    modifiers = .ok request) :
    (userConstraints modifiers).Keeps request.constraints := by
  obtain ⟨-, provenance, hgated⟩ := finalRequest_ok.mp h
  obtain ⟨raw, hraw, rfl⟩ := hgated.composed
  refine Constraints.Keeps.trans ?_ (unionConfigured_keeps raw config).1
  rcases targetRequest_cases hraw with ⟨groupId, rfl, hgroup⟩ | hdirect
  · obtain ⟨resolved, -, -, hmerge, -⟩ := groupRequest_ok.mp hgroup
    exact mergeGroupModifiers_keeps_user hmerge
  · exact directRequest_keeps_user hdirect

theorem finalRequest_keeps_direct {core : Target} {extra : List FeatureConstraint}
    (hdirect : directTarget target = .ok (core, extra))
    (h : finalRequest config catalog entitlements location target modifiers = .ok request) :
    request.target = core ∧ extra ⊆ request.constraints.requiredFeatures := by
  obtain ⟨-, provenance, hgated⟩ := finalRequest_ok.mp h
  obtain ⟨raw, hraw, rfl⟩ := hgated.composed
  rw [unionConfigured_target]
  rcases targetRequest_cases hraw with ⟨groupId, rfl, -⟩ | hrequest
  · cases hdirect
  · obtain ⟨extra', -, htarget, hconstraints⟩ := directRequest_ok.mp hrequest
    rw [hdirect] at htarget
    cases htarget
    refine ⟨rfl, List.Subset.trans ?_ (unionConfigured_keeps raw config).1.requiredFeatures⟩
    rw [hconstraints]
    exact List.subset_append_right _ _

theorem finalRequest_keeps_group {groupId : String} {resolved : ResolvedGroup}
    (hresolved : resolveGroup groupId (modifiers.by_.or (configuredRegionalDefault config groupId))
      ⟨modifiers.physicalCountry, config.physicalCountry, location⟩ config.weights = .ok resolved)
    (h : finalRequest config catalog entitlements location (.group groupId) modifiers =
     .ok request) :
    request.target = resolved.request.target ∧
    resolved.request.constraints.Keeps request.constraints := by
  obtain ⟨-, provenance, hgated⟩ := finalRequest_ok.mp h
  obtain ⟨raw, hraw, rfl⟩ := hgated.composed
  obtain ⟨resolved', hresolved', -, hmerge, -⟩ := groupRequest_ok.mp hraw
  rw [hresolved] at hresolved'
  cases hresolved'
  rw [unionConfigured_target]
  exact ⟨mergeGroupModifiers_target hmerge,
    (mergeGroupModifiers_keeps hmerge).trans (unionConfigured_keeps raw config).1⟩

theorem finalRequest_keeps_config
    (h : finalRequest config catalog entitlements location target modifiers = .ok request)
    (hroute : request.target.isSecureCore = true) :
    config.excludedEntryCountries ⊆ request.constraints.excludedEntryCountries ∧
      config.excludedExitCountries ⊆ request.constraints.excludedExitCountries := by
  obtain ⟨-, provenance, hgated⟩ := finalRequest_ok.mp h
  obtain ⟨raw, -, rfl⟩ := hgated.composed
  rw [unionConfigured_target] at hroute
  exact (unionConfigured_keeps raw config).2 hroute

/-! ## A protocol in conflict -/

/-- A panic. -/
def RpcFault.IsPanic : RpcFault → Prop
  | refused _ => False
  | panic _ => True

theorem avoids_refuse {α : Type} (code : RpcErrorCode) (message : String) :
    Avoids RpcFault.IsPanic (refuse code message : Except RpcFault α) := avoids_error id

theorem avoids_gate {c : Prop} [Decidable c] {code : RpcErrorCode} {message : String} :
    Avoids RpcFault.IsPanic (if c then refuse code message else .ok () : Except RpcFault Unit) := by
  split_ifs
  · exact avoids_refuse _ _
  · exact avoids_ok _

theorem avoids_boundaryCountry (field code : String) :
    Avoids RpcFault.IsPanic (boundaryCountry field code) := by
  unfold boundaryCountry
  cases validateCountry code with
  | ok _ => exact avoids_ok _
  | error _ => exact avoids_refuse _ _

theorem avoids_boundaryCountries (field : String) (codes : List String) :
    Avoids RpcFault.IsPanic (boundaryCountries field codes) := by
  induction codes with
  | nil => exact avoids_ok _
  | cons code codes ih => exact avoids_bind (avoids_boundaryCountry field code) fun _ _ => ih

theorem avoids_resolveGroup (id : String) (rankingOverride : Option String)
    (physical : PhysicalCountrySources) (weights : WeightedSignals) :
    Avoids RpcFault.IsPanic (orGroupRefuse (resolveGroup id rankingOverride physical weights)) := by
  unfold resolveGroup
  cases hgroup : group id with
  | none => exact avoids_refuse _ _
  | some entry =>
    dsimp only
    cases groupPolicy entry rankingOverride weights with
    | error error => exact avoids_refuse _ _
    | ok policy =>
      obtain ⟨target, constraints, hselector, -⟩ :=
        groupSelector_total (mem_registry_of_group hgroup).1 physical
      dsimp only
      rw [hselector]
      exact avoids_ok _

theorem avoids_mergeGroupModifiers (groupId : String) (request : SelectionRequest)
    (modifiers : SelectionModifiers) :
    Avoids RpcFault.IsPanic (mergeGroupModifiers groupId request modifiers) := by
  unfold mergeGroupModifiers
  dsimp only
  split
  · split_ifs
    · exact avoids_refuse _ _
    · exact avoids_ok _
  · exact avoids_ok _

theorem avoids_finalRequest_group (groupId : String) :
    Avoids RpcFault.IsPanic (finalRequest config catalog entitlements location (.group groupId)
      modifiers) := by
  unfold finalRequest
  refine avoids_bind ?_ fun _ _ => avoids_bind ?_ fun _ _ => avoids_ok _
  · unfold validateBoundary
    rw [if_neg (by simp)]
    refine avoids_bind (avoids_ok _) fun _ _ => ?_
    refine avoids_bind (avoids_boundaryCountries _ _) fun _ _ => ?_
    refine avoids_bind (avoids_boundaryCountries _ _) fun _ _ => ?_
    exact avoids_bind (avoids_boundaryCountries _ _) fun _ _ => avoids_boundaryCountries _ _
  · unfold composeRequest
    refine avoids_bind avoids_gate fun _ _ => avoids_bind ?_ fun composed _ => ?_
    · refine avoids_bind (avoids_resolveGroup _ _ _ _) fun _ _ => ?_
      refine avoids_bind avoids_gate fun _ _ => ?_
      exact avoids_bind (avoids_mergeGroupModifiers _ _ _) fun _ _ => avoids_ok _
    · obtain ⟨request, provenance⟩ := composed
      refine avoids_bind ?_ fun _ _ => avoids_bind avoids_gate fun _ _ =>
        avoids_bind avoids_gate fun _ _ => avoids_ok _
      unfold capabilityGate
      cases unmetCapability entitlements (unionConfiguredSecureCoreExclusions request config)
        catalog with
      | none => exact avoids_ok _
      | some unmet => exact avoids_refuse _ _

theorem groupSelector_protocol {entry : GroupEntry} {physical : PhysicalCountrySources}
    {core : Target}
    {constraints : Constraints} (h : groupSelector entry physical = .ok (core, constraints)) :
    constraints.requiredProtocol = entry.protocolOverride := by
  unfold groupSelector at h
  dsimp only at h
  cases htarget : entry.target with
  | fastestInRegion region =>
    rw [htarget] at h
    dsimp only at h
    cases hcountries : regionCountries region with
    | none =>
      rw [hcountries] at h
      cases h
    | some countries =>
      rw [hcountries] at h
      cases h
      rfl
  | _ =>
    rw [htarget] at h
    cases h
    rfl

theorem protocol_conflict_refused {groupId : String} {entry : GroupEntry}
    (hentry : group groupId = some entry)
    {declared : ProtocolConstraint} (hdeclared : entry.protocolOverride = some declared)
    {requested : SelectionProtocol} (hrequested : modifiers.requiredProtocol = some requested)
    (hconflict : declared ≠ wireProtocol requested) :
    ∃ error, finalRequest config catalog entitlements location (.group groupId) modifiers =
      .error (.refused error) := by
  cases hfinal : finalRequest config catalog entitlements location (.group groupId) modifiers with
  | ok request =>
    obtain ⟨-, provenance, hgated⟩ := finalRequest_ok.mp hfinal
    obtain ⟨raw, hraw, -⟩ := hgated.composed
    obtain ⟨resolved, hresolved, -, hmerge, -⟩ := groupRequest_ok.mp hraw
    obtain ⟨hgroup, -, hselector⟩ := resolveGroup_ok.mp hresolved
    rw [hentry] at hgroup
    cases hgroup
    have hprotocol := groupSelector_protocol hselector
    have hagree := (mergeGroupModifiers_ok.mp hmerge).1 declared (by rw [hprotocol, hdeclared]; rfl)
    exact absurd (hagree requested hrequested) hconflict
  | error fault =>
    cases fault with
    | refused error => exact ⟨error, rfl⟩
    | panic message => exact absurd trivial (avoids_finalRequest_group groupId _ hfinal)

end

/-- The request of some modifiers, and the survivors of its hard filters. -/
def Survive (config : SystemConfig) (catalog : CatalogDocument)
    (entitlements : Option VpnEntitlements)
    (location : Option String) (context : SelectionContext) (target : ConnectTarget)
    (modifiers : SelectionModifiers) (kept : List LogicalServer) : Prop :=
  ∃ request report, finalRequest config catalog entitlements location target modifiers =
    .ok request ∧
    filterCandidates catalog request context = .ok (kept, report)

/-- **Modifiers only narrow**: what is added to them leaves no further survivor or is refused, a
protocol in conflict with the group's is refused, and no constraint is dropped. -/
theorem modifiers_narrow (J : Serde) (body : ByteArray) (catalog : CatalogDocument)
    (config : SystemConfig)
    (entitlements : Option VpnEntitlements) (location : Option String) (context : SelectionContext)
    (target : ConnectTarget) (modifiers modifiers' : SelectionModifiers)
    (hcatalog : CatalogDocument.fromBytes J body = .ok catalog)
    (he : Extends modifiers modifiers') :
    (∀ kept', Survive config catalog entitlements location context target modifiers' kept' →
      ∃ kept, Survive config catalog entitlements location context target modifiers kept ∧
        kept'.Sublist kept) ∧
    (∀ groupId entry declared requested, target = .group groupId → group groupId = some entry →
      entry.protocolOverride = some declared → modifiers.requiredProtocol = some requested →
      declared ≠ wireProtocol requested →
      ∃ error, finalRequest config catalog entitlements location target modifiers =
        .error (.refused error)) ∧
    ∀ request, finalRequest config catalog entitlements location target modifiers = .ok request →
      (userConstraints modifiers).Keeps request.constraints ∧
      (∀ core extra, directTarget target = .ok (core, extra) →
        request.target = core ∧ extra ⊆ request.constraints.requiredFeatures) ∧
      (∀ groupId resolved, target = .group groupId →
        resolveGroup groupId (modifiers.by_.or (configuredRegionalDefault config groupId))
          ⟨modifiers.physicalCountry, config.physicalCountry, location⟩ config.weights =
          .ok resolved →
        request.target = resolved.request.target ∧
        resolved.request.constraints.Keeps request.constraints) ∧
      (request.target.isSecureCore = true →
        config.excludedEntryCountries ⊆ request.constraints.excludedEntryCountries ∧
          config.excludedExitCountries ⊆ request.constraints.excludedExitCountries) := by
  refine ⟨?_, ?_, fun request hrequest => ⟨finalRequest_keeps_user hrequest, ?_, ?_, ?_⟩⟩
  · rintro kept' ⟨request', report', hrequest', hkept'⟩
    obtain ⟨request, hrequest, hn⟩ := he.final hrequest'
    obtain ⟨kept, report, hkept, hsub⟩ :=
      hn.filter (CatalogDocument.fromBytes_inDomain hcatalog) hkept'
    exact ⟨kept, ⟨request, report, hrequest, hkept⟩, hsub⟩
  · rintro groupId entry declared requested rfl hentry hdeclared hrequested hconflict
    exact protocol_conflict_refused hentry hdeclared hrequested hconflict
  · exact fun core extra hdirect => finalRequest_keeps_direct hdirect hrequest
  · rintro groupId resolved rfl hresolved
    exact finalRequest_keeps_group hresolved hrequest
  · exact finalRequest_keeps_config hrequest

/-- Without Zurich, nothing is left that was not left before. -/
theorem modifiers_narrow_zurich :
    ∃ request report kept, finalRequest defaultConfig (catalogOf swissRows) none none .fastest
        { excludedStates := ["zh"] } = .ok request ∧
      filterCandidates (catalogOf swissRows) request {} = .ok (kept, report) ∧
      kept.map LogicalServer.id = ["b"] ∧
      ∃ kept₀, Survive defaultConfig (catalogOf swissRows) none none {} .fastest {} kept₀ ∧
        kept.Sublist kept₀ := by
  have he : Extends {} { excludedStates := ["zh"] } := by
    constructor <;> simp
  obtain ⟨request, report, kept, hrequest, hkept, hids⟩ : ∃ request report kept,
      finalRequest defaultConfig (catalogOf swissRows) none none .fastest
        { excludedStates := ["zh"] } = .ok request ∧
        filterCandidates (catalogOf swissRows) request {} = .ok (kept, report) ∧
        kept.map LogicalServer.id = ["b"] := ⟨_, _, _, rfl, rfl, rfl⟩
  exact ⟨request, report, kept, hrequest, hkept, hids,
    (modifiers_narrow _ _ _ defaultConfig none none {} .fastest {}
     { excludedStates := ["zh"] } swissRows_accepted
      he).1 kept ⟨request, report, hrequest, hkept⟩⟩

end ProtonWire
