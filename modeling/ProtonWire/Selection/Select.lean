import ProtonWire.Selection.Ranking

/-!
# `select` returns exactly the admissible entries

* `select_eq`: `select` on a valid request, in terms of the survivors;
* `select_ok`, `select_unsatisfied`: what its two reporting results carry;
* `Admissible`: an entry satisfies every constraint of the request;
* **`select_exact`**: on an accepted catalog `select` never panics, and ranks the admissible
  entries, each as often as the catalog lists it.
-/

namespace ProtonWire

open Fallible StableSort

/-! ## Refusals before any candidate work -/

theorem avoids_validateCountry (code : String) :
    Avoids Fault.IsUnexpected (validateCountry code) := by
  unfold validateCountry
  split_ifs
  · exact avoids_ok _
  · exact avoids_error id

theorem avoids_validateCountries (codes : List String) :
    Avoids Fault.IsUnexpected (validateCountries codes) := by
  induction codes with
  | nil => exact avoids_ok _
  | cons code codes ih => exact avoids_bind (avoids_validateCountry code) fun _ _ => ih

theorem avoids_validateTarget (target : Target) :
    Avoids Fault.IsUnexpected (validateTarget target) := by
  cases target with
  | country code => exact avoids_validateCountry code
  | countries codes => exact avoids_validateCountries codes
  | secureCore entryCountry exitCountry =>
    refine avoids_bind (avoids_validateCountries _) fun _ _ => ?_
    refine avoids_bind (avoids_validateCountries _) fun _ _ => ?_
    cases entryCountry with
    | none => exact avoids_ok _
    | some entry =>
      cases exitCountry with
      | none => exact avoids_ok _
      | some exit_ =>
        dsimp only
        split_ifs
        · exact avoids_error id
        · exact avoids_ok _
  | _ => exact avoids_ok _

theorem avoids_validateRequest (request : SelectionRequest) (context : SelectionContext) :
    Avoids Fault.IsUnexpected (validateRequest request context) := by
  refine avoids_bind ?_ fun _ _ => ?_
  · refine avoids_bind (avoids_validateTarget _) fun _ _ => ?_
    refine avoids_bind (avoids_validateCountries _) fun _ _ => ?_
    refine avoids_bind (avoids_validateCountries _) fun _ _ => ?_
    exact avoids_bind (avoids_validateCountries _) fun _ _ => avoids_validateCountries _
  · split_ifs
    all_goals first | exact avoids_ok _ | exact avoids_error id

/-- A valid request without a Secure Core target excludes no entry or exit country. -/
theorem routeFree_of_validateRequest {request : SelectionRequest} {context : SelectionContext}
    (hv : validateRequest request context = .ok ())
    (htarget : request.target.isSecureCore = false) :
    request.constraints.excludedEntryCountries = [] ∧
    request.constraints.excludedExitCountries = [] := by
  obtain ⟨_, -, h⟩ := bind_eq_ok.mp hv
  split_ifs at h with hroute
  simpa [htarget] using hroute

/-! ## The survivors and their ranking -/

section
variable (request : SelectionRequest) (context : SelectionContext)

/-- The survivors that the policy can rank. -/
def rankable (l : List LogicalServer) : List LogicalServer :=
  eligible request context (survivors request context l)

/-- The report after the policy's charges. -/
def finalReport (l : List LogicalServer) : EliminationReport where
  considered := l.length
  survivors := (rankable request context l).length
  stages := FilterStage.stages.map fun stage =>
    (stage, hardCount request context l stage + dataCount request context
     (survivors request context l) stage)

/-- The ranking step of `select`. -/
def rankSurvivors (l : List LogicalServer) :
    Except Fault (List RankedCandidate × EliminationReport) :=
  if request.target.isExact && (survivors request context l).length == 1 &&
  request.policy == .official then
    .ok ((survivors request context l).map RankedCandidate.catalogOnly,
      hardReport request context l)
  else rankCandidates (survivors request context l) request context (hardReport request context l)

/-- The end of `select`: an empty ranking is refused. -/
def conclude (result : List RankedCandidate × EliminationReport) : Except Fault SelectionOutcome :=
  if result.1.isEmpty then .error (.refused (.constraintsNotSatisfied result.2))
  else .ok ⟨result.1, result.2⟩

theorem select_eq (doc : CatalogDocument) (hl : ∀ s ∈ doc.logicalServers, s.InDomain)
    (hv : validateRequest request context = .ok ()) :
    select doc request context =
      if request.target.isExact && (survivors request context doc.logicalServers).isEmpty then
        .error (.refused (.exactServerUnavailable (request.target.exactName.getD "")
          (refusalStage request context doc.logicalServers)))
      else rankSurvivors request context doc.logicalServers >>= conclude := by
  unfold select
  rw [filterCandidates_eq request context doc hl hv]
  by_cases hexact : (request.target.isExact &&
    (survivors request context doc.logicalServers).isEmpty) = true
  · rw [if_pos hexact, if_pos hexact]
    rfl
  · rw [if_neg hexact, if_neg hexact]
    unfold rankSurvivors
    by_cases hfast : (request.target.isExact &&
      (survivors request context doc.logicalServers).length == 1 &&
        request.policy == .official) = true
    · rw [if_pos hfast]
      exact if_pos hfast
    · rw [if_neg hfast]
      exact if_neg hfast

theorem select_of_invalid (doc : CatalogDocument) {fault : Fault}
    (hv : validateRequest request context = .error fault) :
    select doc request context = .error fault := by
  unfold select filterCandidates
  rw [hv]
  rfl

theorem rankSurvivors_spec (l : List LogicalServer) :
    RanksEligible request context (survivors request context l) l.length
      (hardCount request context l)
      (rankSurvivors request context l) := by
  unfold rankSurvivors
  split_ifs with h
  · have hpolicy : request.policy = .official := by
      simp only [Bool.and_eq_true, beq_iff_eq] at h
      exact h.2
    refine ranksEligible_free (by simp [hpolicy, RankingPolicy.WeighsLoad])
      (by simp [hpolicy, RankingPolicy.WeighsLatency]) ?_
    rw [map_server_catalogOnly]
  · exact rankCandidates_spec request context _ _ _

/-- How `select` gets to its answer on a valid request that is not an exact refusal. -/
theorem rankSurvivors_of_select {doc : CatalogDocument} (hl : ∀ s ∈ doc.logicalServers, s.InDomain)
    {result : Except Fault SelectionOutcome} (h : select doc request context = result)
    (hresult : ∀ fault, result = .error fault → fault.IsUnexpected) :
    validateRequest request context = .ok () ∧
      ∃ ranked, rankSurvivors request context doc.logicalServers =
          .ok (ranked, finalReport request context doc.logicalServers) ∧
        (ranked.map RankedCandidate.server).Perm (rankable request context doc.logicalServers) ∧
        result = conclude (ranked, finalReport request context doc.logicalServers) := by
  cases hv : validateRequest request context with
  | error fault =>
    rw [select_of_invalid request context doc hv] at h
    exact absurd (hresult fault h.symm) (avoids_validateRequest request context fault hv)
  | ok _ =>
    refine ⟨rfl, ?_⟩
    rw [select_eq request context doc hl hv] at h
    split_ifs at h
    · exact absurd (hresult _ h.symm) id
    · obtain ⟨havoids, hok⟩ := rankSurvivors_spec request context doc.logicalServers
      cases hrank : rankSurvivors request context doc.logicalServers with
      | error fault =>
        rw [hrank] at h
        exact absurd (hresult fault h.symm) (havoids fault hrank)
      | ok pair =>
        obtain ⟨ranked, report⟩ := pair
        obtain ⟨hperm, hreport⟩ := hok ranked report hrank
        rw [hrank, hreport] at h
        exact ⟨ranked, by rw [hreport]; rfl, hperm, h.symm⟩

variable {request context}

theorem select_not_panic {doc : CatalogDocument} (hl : ∀ s ∈ doc.logicalServers, s.InDomain)
    (message : String) : select doc request context ≠ .error (.panic message) := by
  intro h
  obtain ⟨-, ranked, -, -, hend⟩ := rankSurvivors_of_select request context hl h
    (fun fault hf => by cases hf; trivial)
  unfold conclude at hend
  split_ifs at hend
  cases hend

theorem select_ok {doc : CatalogDocument} (hl : ∀ s ∈ doc.logicalServers, s.InDomain)
    {outcome : SelectionOutcome} (h : select doc request context = .ok outcome) :
    validateRequest request context = .ok () ∧
      (outcome.ranked.map RankedCandidate.server).Perm
      (rankable request context doc.logicalServers) ∧
      outcome.report = finalReport request context doc.logicalServers := by
  obtain ⟨hv, ranked, -, hperm, hend⟩ := rankSurvivors_of_select request context hl h
    (fun fault hf => by cases hf)
  unfold conclude at hend
  split_ifs at hend
  cases hend
  exact ⟨hv, hperm, rfl⟩

theorem select_unsatisfied {doc : CatalogDocument} (hl : ∀ s ∈ doc.logicalServers, s.InDomain)
    {report : EliminationReport}
    (h : select doc request context = .error (.refused (.constraintsNotSatisfied report))) :
    validateRequest request context = .ok () ∧ rankable request context doc.logicalServers = [] ∧
      report = finalReport request context doc.logicalServers := by
  obtain ⟨hv, ranked, -, hperm, hend⟩ := rankSurvivors_of_select request context hl h
    (fun fault hf => by cases hf; trivial)
  unfold conclude at hend
  split_ifs at hend with hempty
  cases hend
  have hnil : ranked = [] := List.isEmpty_iff.mp hempty
  rw [hnil] at hperm
  exact ⟨hv, List.nil_perm.mp hperm, rfl⟩

end

/-! ## Admissible entries -/

/-- The entry satisfies every constraint of the request, each stated on its own. -/
structure Admissible (request : SelectionRequest) (context : SelectionContext) (s : LogicalServer) :
    Prop where
  tier : ∀ accountTier ∈ context.accountTier, s.tier ≤ accountTier
  status : s.status = some 1
  online : ∃ p ∈ s.servers, p.status = 1
  fleet : request.target.RightType s
  place : request.target.RightPlace s
  physicalCountry : request.constraints.excludePhysicalCountry = true →
    request.constraints.physicalCountry ≠ some s.exitCountry
  country : s.exitCountry ∉ request.constraints.excludedCountries
  state : ∀ name ∈ request.constraints.excludedStates, ¬ SameFold s.state name
  city : ∀ name ∈ request.constraints.excludedCities, ¬ SameFold s.city name
  server : s.name ∉ request.constraints.excludedServers
  route : request.target.isSecureCore = true →
    s.entryCountry ∉ request.constraints.excludedEntryCountries ∧
      s.exitCountry ∉ request.constraints.excludedExitCountries
  features : ∀ feature ∈ request.constraints.requiredFeatures, HasFeature s context feature
  protocol : ∀ required ∈ request.constraints.requiredProtocol,
    ∃ p ∈ s.servers, p.status = 1 ∧ Exposes p required
  load : request.policy.WeighsLoad → s.load ≠ none
  latency : request.policy.WeighsLatency → context.latency.get s.id ≠ none

section
variable {request : SelectionRequest} {context : SelectionContext} {s : LogicalServer}

theorem Admissible.not_violates (h : Admissible request context s)
    (hv : validateRequest request context = .ok ()) (stage : FilterStage) :
    ¬ Violates request context s stage := by
  -- the two ends of a route: a request without a Secure Core target excludes neither
  have hroute : s.entryCountry ∉ request.constraints.excludedEntryCountries ∧
      s.exitCountry ∉ request.constraints.excludedExitCountries := by
    cases htarget : request.target.isSecureCore with
    | true => exact h.route htarget
    | false =>
      obtain ⟨hentry, hexit⟩ := routeFree_of_validateRequest hv htarget
      simp [hentry, hexit]
  cases stage with
  | accountTier =>
    rintro ⟨accountTier, hmem, hlt⟩
    exact absurd (h.tier accountTier hmem) (not_le.mpr hlt)
  | unknownStatus => simp [Violates, h.status]
  | offline => simp [Violates, h.status]
  | allPhysicalsOffline =>
    obtain ⟨p, hp, honline⟩ := h.online
    exact fun hall => hall.2 p hp honline
  | absentFromCatalog => exact id
  | serverType => exact not_not.mpr h.fleet
  | targetGeography => exact not_not.mpr h.place
  | physicalCountryExclusion => exact fun hx => h.physicalCountry hx.1 hx.2
  | excludedCountry => exact h.country
  | excludedEntryCountry => exact hroute.1
  | excludedExitCountry => exact hroute.2
  | excludedState =>
    rintro ⟨name, hname, hsame⟩
    exact h.state name hname hsame
  | excludedCity =>
    rintro ⟨name, hname, hsame⟩
    exact h.city name hname hsame
  | excludedServer => exact h.server
  | requiredFeatures =>
    rintro ⟨feature, hmem, hmissing⟩
    exact hmissing (h.features feature hmem)
  | protocolCompatibility =>
    rintro ⟨required, hmem, hnone⟩
    obtain ⟨p, hp, honline, hexposes⟩ := h.protocol required hmem
    exact hnone p hp honline hexposes
  | loadNotExposed => exact fun hx => h.load hx.1 hx.2
  | noLatencyObservation => exact fun hx => h.latency hx.1 hx.2

theorem admissible_of_not_violates (hd : s.InDomain)
    (h : ∀ stage, ¬ Violates request context s stage) : Admissible request context s where
  tier accountTier hmem := not_lt.mp fun hlt => h .accountTier ⟨accountTier, hmem, hlt⟩
  status := (hd.status.resolve_left (h .unknownStatus)).resolve_left (h .offline)
  online := by
    have hstatus := (hd.status.resolve_left (h .unknownStatus)).resolve_left (h .offline)
    by_contra hnone
    exact h .allPhysicalsOffline ⟨hstatus, fun p hp honline => hnone ⟨p, hp, honline⟩⟩
  fleet := not_not.mp (h .serverType)
  place := not_not.mp (h .targetGeography)
  physicalCountry hx hcountry := h .physicalCountryExclusion ⟨hx, hcountry⟩
  country := h .excludedCountry
  state name hname hsame := h .excludedState ⟨name, hname, hsame⟩
  city name hname hsame := h .excludedCity ⟨name, hname, hsame⟩
  server := h .excludedServer
  route _ := ⟨h .excludedEntryCountry, h .excludedExitCountry⟩
  features feature hmem := by
    by_contra hmissing
    exact h .requiredFeatures ⟨feature, hmem, hmissing⟩
  protocol required hmem := by
    by_contra hnone
    exact h .protocolCompatibility ⟨required, hmem, fun p hp honline hexposes =>
      hnone ⟨p, hp, honline, hexposes⟩⟩
  load hweighs hnone := h .loadNotExposed ⟨hweighs, hnone⟩
  latency hweighs hnone := h .noLatencyObservation ⟨hweighs, hnone⟩

/-- An entry the pipeline keeps violates no constraint, and conversely. -/
theorem kept_iff_not_violates :
    hardStage request context s = none ∧ dataStage request context s = none ↔
      ∀ stage, ¬ Violates request context s stage := by
  unfold hardStage dataStage
  rw [firstViolated_eq_none, firstViolated_eq_none]
  constructor
  · rintro ⟨hhard, hdata⟩ stage
    cases stage with
    | absentFromCatalog => exact id
    | loadNotExposed => exact hdata _ (by decide)
    | noLatencyObservation => exact hdata _ (by decide)
    | _ => exact hhard _ (by decide)
  · exact fun h => ⟨fun stage _ => h stage, fun stage _ => h stage⟩

theorem admissible_iff (hd : s.InDomain) (hv : validateRequest request context = .ok ()) :
    Admissible request context s ↔ hardStage request context s = none ∧
    dataStage request context s = none := by
  rw [kept_iff_not_violates]
  exact ⟨fun h => h.not_violates hv, admissible_of_not_violates hd⟩

end

theorem rankable_eq_filter (request : SelectionRequest) (context : SelectionContext)
    (l : List LogicalServer) :
    rankable request context l =
      l.filter fun s => hardStage request context s = none ∧
      dataStage request context s = none := by
  unfold rankable eligible survivors
  rw [List.filter_filter]
  refine List.filter_congr fun s _ => ?_
  rw [Bool.decide_and, Bool.and_comm]

open Classical in
/-- **`select` never panics on an accepted catalog, and ranks exactly its admissible entries.** -/
theorem select_exact (J : Serde) (body : ByteArray) (doc : CatalogDocument)
    (request : SelectionRequest)
    (context : SelectionContext) (h : CatalogDocument.fromBytes J body = .ok doc) :
    (∀ message, select doc request context ≠ .error (.panic message)) ∧
      ∀ outcome, select doc request context = .ok outcome →
        (outcome.ranked.map RankedCandidate.server).Perm
          (doc.logicalServers.filter fun s => Admissible request context s) := by
  have hl := CatalogDocument.fromBytes_inDomain h
  refine ⟨select_not_panic hl, fun outcome hok => ?_⟩
  obtain ⟨hv, hperm, -⟩ := select_ok hl hok
  have hfilter : (doc.logicalServers.filter fun s => Admissible request context s) =
      rankable request context doc.logicalServers := by
    rw [rankable_eq_filter]
    refine List.filter_congr fun s hs => ?_
    exact decide_eq_decide.mpr (admissible_iff (hl s hs) hv)
  rw [hfilter]
  exact hperm

/-- An online and an offline server of one country. -/
def swissRows : List CatalogRow :=
  [⟨"a", "CH#1", "CH", "CH", "ZH", false⟩, ⟨"b", "CH#2", "CH", "CH", "GE", true⟩]

theorem swissRows_accepted :
    CatalogDocument.fromBytes (serdeOf [swissRows])
      (bodyOf swissRows) = .ok (catalogOf swissRows) :=
  fromBytes_bodyOf (List.find?_cons_of_pos (by simp)) (by decide +kernel) (by decide)
  (by decide) rfl

/-- The least loaded Swiss server. -/
def swissRequest : SelectionRequest := ⟨.country "CH", .lowestLoad, {}⟩

open Classical in
theorem select_exact_swiss :
    ∃ outcome, select (catalogOf swissRows) swissRequest {} = .ok outcome ∧
      (outcome.ranked.map RankedCandidate.server).map LogicalServer.id = ["b"] ∧
      (outcome.ranked.map RankedCandidate.server).Perm
        ((catalogOf swissRows).logicalServers.filter fun s => Admissible swissRequest {} s) := by
  obtain ⟨outcome, hok, hids⟩ : ∃ outcome, select (catalogOf swissRows) swissRequest {} =
    .ok outcome ∧
      (outcome.ranked.map RankedCandidate.server).map LogicalServer.id = ["b"] := ⟨_, rfl, rfl⟩
  exact ⟨outcome, hok, hids,
    (select_exact _ _ _ swissRequest {} swissRows_accepted).2 outcome hok⟩

end ProtonWire
