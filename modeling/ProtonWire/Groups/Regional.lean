import ProtonWire.Groups.Registry
import ProtonWire.Selection.Order

/-!
# The regional groups partition one ranking

`crates/core/src/groups.rs`: `country_region` and `select_group`, the composed entry point of a
group.

* `countryRegion_eq_some_iff`: a country belongs to one region at most, and the region lists it;
* `survivors_countries`: narrowing the target from everywhere to some countries filters the
  survivors;
* `select_countries`: and, under a policy that sorts, filters the ranking;
* **`regional_groups_partition`**: under such a policy the six regional groups split the ranking of
  the whole Standard fleet by region, in its order, and leave out the servers of unmapped countries
  only.
-/

namespace ProtonWire

open StableSort

/-! ## Source -/

/-- The one primary region a country belongs to. -/
def countryRegion (iso : String) : Option String :=
  (countryRegions.find? fun member => member.1 = iso).map Prod.snd

/-- Resolution refused, or selection did. -/
inductive GroupSelectionError where
  | group (fault : GroupFault)
  | selection (fault : Fault)

/-- Resolves a group and selects in it. -/
def selectGroup (catalog : CatalogDocument) (id : String) (rankingOverride : Option String)
    (physical : PhysicalCountrySources) (balancedWeights : WeightedSignals)
    (context : SelectionContext) :
    Except GroupSelectionError SelectionOutcome :=
  match resolveGroup id rankingOverride physical balancedWeights with
  | .error fault => .error (.group fault)
  | .ok resolved =>
    match select catalog resolved.request context with
    | .error fault => .error (.selection fault)
    | .ok outcome => .ok outcome

/-- What an answer ranks: nothing, if it refuses. -/
def ranking {ε : Type} : Except ε SelectionOutcome → List RankedCandidate
  | .ok outcome => outcome.ranked
  | .error _ => []

/-! ## Regions -/

theorem nodup_countryRegions : (countryRegions.map Prod.fst).Nodup := by
  have hchain : (countryRegions.map Prod.fst).IsChain (· < ·) := by decide +kernel
  have hpairwise : (countryRegions.map Prod.fst).Pairwise
    (· < ·) := List.isChain_iff_pairwise.mp hchain
  exact hpairwise.imp ne_of_lt

theorem countryRegion_eq_some_iff {iso region : String} :
    countryRegion iso = some region ↔ (iso, region) ∈ countryRegions := by
  unfold countryRegion
  constructor
  · intro h
    obtain ⟨member, hfind, rfl⟩ := Option.map_eq_some_iff.mp h
    have hiso : member.1 = iso := of_decide_eq_true (List.find?_some hfind :)
    rw [← hiso]
    exact List.mem_of_find?_eq_some hfind
  · intro hmem
    cases hfind : countryRegions.find? fun member => member.1 = iso with
    | none => exact absurd (List.find?_eq_none.mp hfind _ hmem) (by simp)
    | some member =>
      have hiso : member.1 = iso := of_decide_eq_true (List.find?_some hfind :)
      have hmember := List.mem_of_find?_eq_some hfind
      have hsame : member = (iso, region) :=
        List.inj_on_of_nodup_map nodup_countryRegions hmember hmem hiso
      rw [hsame]
      rfl

theorem region_mem_regions {iso region : String} (h : countryRegion iso = some region) :
    region ∈ regions := by
  have hall : ∀ member ∈ countryRegions, member.2 ∈ regions := by decide +kernel
  exact hall _ (countryRegion_eq_some_iff.mp h)

theorem mem_regionCountries {region iso : String} {countries : List String}
    (h : regionCountries region = some countries) :
    iso ∈ countries ↔ countryRegion iso = some region := by
  unfold regionCountries at h
  split_ifs at h
  cases h
  rw [countryRegion_eq_some_iff, List.mem_map]
  constructor
  · rintro ⟨member, hmember, rfl⟩
    obtain ⟨hmem, hregion⟩ := List.mem_filter.mp hmember
    rw [← of_decide_eq_true hregion]
    exact hmem
  · exact fun hmem => ⟨_, List.mem_filter.mpr ⟨hmem, decide_eq_true rfl⟩, rfl⟩

/-! ## Narrowing the place -/

section
variable {policy : RankingPolicy} {constraints : Constraints} {context : SelectionContext}
    {codes : List String}

/-- The place of a target is one of the hard filters: an entry passes those of some countries if it
passes those of every country, and lies in one of them. -/
theorem hardStage_countries (s : LogicalServer) :
    hardStage ⟨.countries codes, policy, constraints⟩ context s = none ↔
      hardStage ⟨.fastest, policy, constraints⟩ context s = none ∧ s.exitCountry ∈ codes := by
  unfold hardStage
  rw [firstViolated_eq_none, firstViolated_eq_none]
  constructor
  · intro h
    refine ⟨fun stage hstage => ?_, not_not.mp (h .targetGeography (by decide))⟩
    cases stage with
    | targetGeography => exact not_not.mpr trivial
    | _ => exact h _ hstage
  · rintro ⟨h, hplace⟩ stage hstage
    cases stage with
    | targetGeography => exact not_not.mpr hplace
    | _ => exact h _ hstage

theorem survivors_countries (l : List LogicalServer) :
    survivors ⟨.countries codes, policy, constraints⟩ context l =
      (survivors ⟨.fastest, policy, constraints⟩ context l).filter fun s =>
      s.exitCountry ∈ codes := by
  unfold survivors
  rw [List.filter_filter]
  refine List.filter_congr fun s _ => ?_
  rw [← Bool.decide_and, decide_eq_decide, hardStage_countries, and_comm]

theorem validateRequest_countries (hcodes : validateCountries codes = .ok ()) :
    validateRequest ⟨.countries codes, policy, constraints⟩ context =
      validateRequest ⟨.fastest, policy, constraints⟩ context := by
  unfold validateRequest validateRequestCountries
  dsimp only [validateTarget]
  rw [hcodes]
  rfl

end

/-! ## The ranking of a sorting policy -/

section
variable {request : SelectionRequest} {context : SelectionContext} {l : List LogicalServer}

/-- The candidate a sorting policy makes of a survivor, if it has the data. -/
def candidateOf (policy : RankingPolicy) (context : SelectionContext) (s : LogicalServer) :
    Option RankedCandidate :=
  match policy with
  | .latency => observe context s
  | .lowestLoad => loaded s
  | _ => some (.catalogOnly s)

theorem server_candidateOf {policy : RankingPolicy} {s : LogicalServer} {c : RankedCandidate}
    (h : candidateOf policy context s = some c) : c.server = s := by
  unfold candidateOf at h
  split at h
  · exact server_observe h
  · exact server_loaded h
  · cases h
    rfl

/-- A sorting policy refuses the survivors: one of them has no score, or nothing was observed. -/
def Refuses (policy : RankingPolicy) (context : SelectionContext) (l : List LogicalServer) : Prop :=
  (policy = .official ∧ ∃ s ∈ l, s.score = none) ∨
  (policy = .latency ∧ context.latency.isEmpty = true)

/-- **The ranking of a sorting policy**, where the target is no exact server. -/
theorem rankSurvivors_of_sorts (request : SelectionRequest) (context : SelectionContext)
    (l : List LogicalServer)
    (hsorts : request.policy.Sorts) (hexact : request.target.isExact = false) :
    (Refuses request.policy context (survivors request context l) →
        ∃ fault, rankSurvivors request context l = .error fault) ∧
      (¬ Refuses request.policy context (survivors request context l) →
        ∃ report, rankSurvivors request context l = .ok (sortKey (rankKey request.policy)
          ((survivors request context l).filterMap (candidateOf request.policy context)),
          report)) := by
  have hrank : rankSurvivors request context l =
      rankCandidates (survivors request context l) request context
        (hardReport request context l) := by
    unfold rankSurvivors
    rw [hexact]
    rfl
  rw [hrank]
  unfold rankCandidates Refuses
  rcases hsorts with hpolicy | hpolicy | hpolicy
  · have hlacking : (0 < (survivors request context l).countP fun s => s.score.isNone) ↔
        ∃ s ∈ survivors request context l, s.score = none := by
      simp [List.countP_pos_iff]
    simp only [hpolicy, rankOfficial_eq]
    constructor
    · rintro (⟨-, h⟩ | ⟨h, -⟩)
      · rw [if_pos (hlacking.mpr h)]
        exact ⟨_, rfl⟩
      · cases h
    · intro h
      rw [if_neg fun hpos => h (.inl ⟨trivial, hlacking.mp hpos⟩)]
      refine ⟨hardReport request context l, ?_⟩
      unfold candidateOf
      rw [List.filterMap_eq_map']
      rfl
  · simp only [hpolicy]
    have heq := rankLowestLatency_eq request context hpolicy (survivors request context l)
    constructor
    · rintro (⟨h, -⟩ | ⟨-, h⟩)
      · cases h
      · exact ⟨_, (heq _ _).trans (if_pos h)⟩
    · intro h
      exact ⟨_, (heq _ _).trans (if_neg fun hempty => h (.inr ⟨trivial, hempty⟩))⟩
  · simp only [hpolicy]
    constructor
    · rintro (⟨h, -⟩ | ⟨h, -⟩) <;> cases h
    · exact fun _ => ⟨_, rankLowestLoad_eq request context hpolicy _ _ _⟩

end

theorem ranking_conclude (result : List RankedCandidate × EliminationReport) :
    ranking (conclude result) = result.1 ∧
      ∀ fault, conclude result = .error fault →
        ∃ report, fault = .refused (.constraintsNotSatisfied report) := by
  unfold conclude
  split_ifs with hempty
  · refine ⟨(List.isEmpty_iff.mp hempty).symm, fun fault h => ?_⟩
    cases h
    exact ⟨_, rfl⟩
  · exact ⟨rfl, fun fault h => by cases h⟩

/-- **Narrowing the place filters the ranking** of a policy that sorts, and refuses for no other
reason than that nothing is left. -/
theorem select_countries {doc : CatalogDocument} (hl : ∀ s ∈ doc.logicalServers, s.InDomain)
    {policy : RankingPolicy} (hsorts : policy.Sorts) {constraints : Constraints}
    {context : SelectionContext}
    {codes : List String} (hcodes : validateCountries codes = .ok ()) {full : SelectionOutcome}
    (hfull : select doc ⟨.fastest, policy, constraints⟩ context = .ok full) :
    ranking (select doc ⟨.countries codes, policy, constraints⟩ context) =
        full.ranked.filter (fun c => c.server.exitCountry ∈ codes) ∧
      ∀ fault, select doc ⟨.countries codes, policy, constraints⟩ context = .error fault →
        ∃ report, fault = .refused (.constraintsNotSatisfied report) := by
  obtain ⟨hv, ranked, hranked, -, hend⟩ :=
    rankSurvivors_of_select _ _ hl hfull (fun fault hf => by cases hf)
  have hranking : full.ranked = ranked := by
    have := (ranking_conclude (ranked, finalReport ⟨.fastest, policy, constraints⟩
      context doc.logicalServers)).1
    rwa [← hend] at this
  obtain ⟨hrefused, hsorted⟩ := rankSurvivors_of_sorts ⟨.fastest, policy, constraints⟩ context
    doc.logicalServers hsorts rfl
  have hanswers : ¬ Refuses policy context
    (survivors ⟨.fastest, policy, constraints⟩ context doc.logicalServers) := by
    intro hrefuses
    obtain ⟨fault, hfault⟩ := hrefused hrefuses
    rw [hranked] at hfault
    cases hfault
  obtain ⟨report, hsorted⟩ := hsorted hanswers
  rw [hranked] at hsorted
  have hkeys : ranked = sortKey (rankKey policy)
      ((survivors ⟨.fastest, policy, constraints⟩ context doc.logicalServers).filterMap
       (candidateOf policy context)) :=
    congrArg Prod.fst (Except.ok.inj hsorted)
  -- the survivors of the narrowed request are among those of the whole fleet, so that it is not
  -- refused either
  have hanswers' : ¬ Refuses policy context
      (survivors ⟨.countries codes, policy, constraints⟩ context doc.logicalServers) := by
    rintro (⟨hpolicy, s, hs, hscore⟩ | hlatency)
    · rw [survivors_countries] at hs
      exact hanswers (.inl ⟨hpolicy, s, (List.mem_filter.mp hs).1, hscore⟩)
    · exact hanswers (.inr hlatency)
  obtain ⟨report', hsorted'⟩ :=
    (rankSurvivors_of_sorts ⟨.countries codes, policy, constraints⟩ context
    doc.logicalServers hsorts rfl).2 hanswers'
  have hselect : select doc ⟨.countries codes, policy, constraints⟩ context =
    conclude (sortKey (rankKey policy)
      ((survivors ⟨.countries codes, policy, constraints⟩ context doc.logicalServers).filterMap
        (candidateOf policy context)), report') := by
    rw [select_eq _ _ doc hl ((validateRequest_countries hcodes).trans hv)]
    rw [show rankSurvivors ⟨.countries codes, policy, constraints⟩ context doc.logicalServers = _
      from hsorted']
    rfl
  rw [hselect]
  refine ⟨?_, (ranking_conclude _).2⟩
  rw [(ranking_conclude _).1, hranking, hkeys, filter_sortKey, survivors_countries,
    List.filterMap_filter, List.filter_filterMap]
  dsimp only
  congr 2
  funext s
  cases hc : candidateOf policy context s with
  | none => simp
  | some c => simp [Option.filter, server_candidateOf hc]

/-! ## The six groups -/

/-- The region of a selector. -/
def GroupTarget.region : GroupTarget → Option String
  | fastestInRegion region => some region
  | _ => none

/-- The regional groups. -/
def regionalGroups : List GroupEntry := registry.filter fun entry => entry.target.region.isSome

theorem regionalGroups_form {entry : GroupEntry} (h : entry ∈ regionalGroups) :
    ∃ region, regionCountries region ≠ none ∧ entry = .regional entry.id region := by
  have hall : ∀ entry ∈ regionalGroups, ∃ region ∈ regions, entry = .regional entry.id region := by
    decide
  obtain ⟨region, hregion, hform⟩ := hall entry h
  refine ⟨region, ?_, hform⟩
  unfold regionCountries
  rw [if_pos hregion]
  exact Option.some_ne_none _

theorem groupPolicy_congr {entry entry' : GroupEntry} {mode : Option String}
    {weights : WeightedSignals}
    {result : RankingPolicy × PolicyProvenance} (h : groupPolicy entry mode weights = .ok result)
    (horigin : entry'.origin = entry.origin) (hranking : entry'.rankingPolicy = entry.rankingPolicy)
    (hoverrides : entry'.allowedRankingOverrides = entry.allowedRankingOverrides) :
    groupPolicy entry' mode weights = .ok result := by
  unfold groupPolicy at h ⊢
  rw [hranking, horigin, hoverrides]
  cases mode with
  | none => exact h
  | some mode =>
    dsimp only at h ⊢
    split_ifs at h ⊢
    cases hparse : GroupRankingPolicy.parse mode with
    | none =>
      rw [hparse] at h
      cases h
    | some requested =>
      rw [hparse] at h
      dsimp only at h ⊢
      split_ifs at h ⊢
      exact h

theorem validateCountries_region {region : String} {codes : List String}
    (h : regionCountries region = some codes) :
    validateCountries codes = .ok () := by
  have hall : ∀ member ∈ countryRegions, validateCountry member.1 = .ok () := by decide +kernel
  have hcodes : ∀ code ∈ codes, validateCountry code = .ok () := fun code hcode =>
    hall _ (countryRegion_eq_some_iff.mp ((mem_regionCountries h).mp hcode))
  clear h
  induction codes with
  | nil => rfl
  | cons code codes ih =>
    unfold validateCountries
    rw [hcodes code List.mem_cons_self]
    exact ih fun code hcode => hcodes code (List.mem_cons_of_mem _ hcode)

theorem selectGroup_regional {entry : GroupEntry} (hentry : entry ∈ regionalGroups)
    (catalog : CatalogDocument)
    {mode : Option String} (physical : PhysicalCountrySources) {weights : WeightedSignals}
    (context : SelectionContext) {id region : String} {result : RankingPolicy × PolicyProvenance}
    (hpolicy : groupPolicy (.regional id region) mode weights = .ok result) :
    ∃ own codes, entry.target.region = some own ∧ regionCountries own = some codes ∧
      selectGroup catalog entry.id mode physical weights context =
        match select catalog ⟨.countries codes, result.1, {}⟩ context with
        | .error fault => .error (.selection fault)
        | .ok outcome => .ok outcome := by
  obtain ⟨own, hown, hform⟩ := regionalGroups_form hentry
  obtain ⟨codes, hcodes⟩ := Option.ne_none_iff_exists'.mp hown
  have hresolved : resolveGroup entry.id mode physical weights =
      .ok ⟨entry, ⟨.countries codes, result.1, {}⟩, result.2⟩ := by
    rw [resolveGroup_ok]
    refine ⟨group_id (List.mem_filter.mp hentry).1, ?_, ?_⟩
    · have hown : groupPolicy (.regional entry.id own) mode weights = .ok result :=
        groupPolicy_congr hpolicy rfl rfl rfl
      rwa [← hform] at hown
    · rw [hform]
      unfold groupSelector
      dsimp only [GroupEntry.regional]
      rw [hcodes]
  refine ⟨own, codes, by rw [hform]; rfl, hcodes, ?_⟩
  unfold selectGroup
  rw [hresolved]

theorem flatMap_filter_perm {α κ : Type} [DecidableEq κ] (f : α → κ) (l : List α) {ks : List κ}
    (hks : ks.Nodup) {p : α → Bool} (hp : ∀ a, p a = true ↔ f a ∈ ks) :
    (ks.flatMap fun k => l.filter fun a => f a = k).Perm (l.filter p) := by
  induction ks generalizing p with
  | nil =>
    have hnone : l.filter p = [] := List.filter_eq_nil_iff.mpr fun a _ ha =>
      List.not_mem_nil ((hp a).mp ha)
    rw [hnone]
    exact .nil
  | cons k ks ih =>
    obtain ⟨hk, hks⟩ := List.nodup_cons.mp hks
    have hsplit := List.filter_append_perm (fun a => decide (f a = k)) (l.filter p)
    rw [List.filter_filter, List.filter_filter] at hsplit
    refine List.Perm.trans ?_ hsplit
    rw [List.flatMap_cons]
    have hhead : (l.filter fun a => decide (f a = k) && p a) = l.filter fun a => f a = k := by
      refine List.filter_congr fun a _ => ?_
      by_cases ha : f a = k
      · simp [ha, (hp a).mpr (ha ▸ List.mem_cons_self)]
      · simp [ha]
    have hrest : ∀ a, ((!decide (f a = k)) && p a) = true ↔ f a ∈ ks := by
      intro a
      rw [Bool.and_eq_true, hp, List.mem_cons]
      by_cases ha : f a = k
      · simp [ha, hk]
      · simp [ha]
    rw [hhead]
    exact (ih hks hrest).append_left _

/-- **The regional groups partition one ranking.** Under a policy that sorts, where the whole
Standard fleet is ranked, each regional group ranks its servers of its region in that order, or
refuses because there are none; and together the groups rank each server of a mapped country
once. -/
theorem regional_groups_partition (J : Serde) (body : ByteArray) (doc : CatalogDocument)
    (h : CatalogDocument.fromBytes J body = .ok doc) (mode : Option String)
    (physical : PhysicalCountrySources)
    (weights : WeightedSignals) (context : SelectionContext) {entry₀ : GroupEntry}
    (hentry₀ : entry₀ ∈ regionalGroups)
    {resolved : ResolvedGroup} (hresolved : resolveGroup entry₀.id mode physical weights =
     .ok resolved)
    (hsorts : resolved.request.policy.Sorts) {full : SelectionOutcome}
    (hfull : select doc ⟨.fastest, resolved.request.policy, {}⟩ context = .ok full) :
    (∀ entry ∈ regionalGroups,
        ranking (selectGroup doc entry.id mode physical weights context) =
            full.ranked.filter (fun c => countryRegion c.server.exitCountry = entry.target.region) ∧
          ∀ error, selectGroup doc entry.id mode physical weights context = .error error →
            ∃ report, error = .selection (.refused (.constraintsNotSatisfied report))) ∧
      (regionalGroups.flatMap fun entry =>
       ranking (selectGroup doc entry.id mode physical weights context)).Perm
        (full.ranked.filter fun c => (countryRegion c.server.exitCountry).isSome) := by
  have hl := CatalogDocument.fromBytes_inDomain h
  obtain ⟨hgroup, hpolicy, -⟩ := resolveGroup_ok.mp hresolved
  rw [group_id (List.mem_filter.mp hentry₀).1] at hgroup
  obtain ⟨region₀, -, hform₀⟩ := regionalGroups_form hentry₀
  rw [← Option.some_inj.mp hgroup, hform₀] at hpolicy
  have hparts : ∀ entry ∈ regionalGroups,
      ranking (selectGroup doc entry.id mode physical weights context) =
          full.ranked.filter (fun c => countryRegion c.server.exitCountry = entry.target.region) ∧
        ∀ error, selectGroup doc entry.id mode physical weights context = .error error →
          ∃ report, error = .selection (.refused (.constraintsNotSatisfied report)) := by
    intro entry hentry
    obtain ⟨own, codes, hown, hcodes, hselect⟩ :=
      selectGroup_regional hentry doc physical context hpolicy
    obtain ⟨hranking, hrefusal⟩ := select_countries hl hsorts
      (validateCountries_region hcodes) hfull
    have hfilter : full.ranked.filter (fun c => c.server.exitCountry ∈ codes) =
        full.ranked.filter fun c => countryRegion c.server.exitCountry = entry.target.region := by
      refine List.filter_congr fun c _ => ?_
      rw [decide_eq_decide, hown, mem_regionCountries hcodes]
    rw [hselect, ← hfilter, ← hranking]
    cases hanswer : select doc ⟨.countries codes, resolved.request.policy, {}⟩ context with
    | ok outcome => exact ⟨rfl, fun error herror => by cases herror⟩
    | error fault =>
      refine ⟨rfl, fun error herror => ?_⟩
      obtain ⟨report, hreport⟩ := hrefusal fault hanswer
      cases herror
      exact ⟨report, by rw [hreport]⟩
  refine ⟨hparts, ?_⟩
  -- the parts by region, and the regions are those of the groups
  have hflat : (regionalGroups.flatMap fun entry =>
    ranking (selectGroup doc entry.id mode physical weights context)) =
      (regionalGroups.map fun entry => entry.target.region).flatMap fun region =>
        full.ranked.filter fun c => countryRegion c.server.exitCountry = region := by
    rw [List.flatMap_map]
    exact List.flatMap_congr fun entry hentry => (hparts entry hentry).1
  rw [hflat]
  refine flatMap_filter_perm _ _ (by decide) fun c => ?_
  constructor
  · intro hsome
    obtain ⟨region, hregion⟩ := Option.isSome_iff_exists.mp hsome
    have hall : ∀ region ∈ regions, some region ∈ regionalGroups.map fun entry =>
      entry.target.region := by decide
    rw [hregion]
    exact hall _ (region_mem_regions hregion)
  · have hall : ∀ region ∈ regionalGroups.map fun entry =>
      entry.target.region, region.isSome = true := by decide
    exact hall _

/-- A European server, two of North America and one of an unmapped country. -/
def worldRows : List CatalogRow :=
  [⟨"a", "CH#1", "CH", "CH", "ZH", true⟩, ⟨"b", "US#1", "US", "US", "NY", true⟩,
   ⟨"c", "CA#1", "CA", "CA", "ON", true⟩, ⟨"d", "XK#1", "XK", "XK", "PR", true⟩]

theorem worldRows_accepted :
    CatalogDocument.fromBytes (serdeOf [worldRows])
      (bodyOf worldRows) = .ok (catalogOf worldRows) :=
  fromBytes_bodyOf (List.find?_cons_of_pos (by simp)) (by decide +kernel) (by decide)
  (by decide) rfl

theorem regional_groups_partition_world :
    ∃ full, select (catalogOf worldRows) ⟨.fastest, .lowestLoad, {}⟩ {} = .ok full ∧
      full.ranked.map (fun c => c.server.id) = ["a", "b", "c", "d"] ∧
      (regionalGroups.flatMap fun entry =>
       ranking (selectGroup (catalogOf worldRows) entry.id (some "load")
        ⟨none, none, none⟩ ⟨.zero, .zero, .zero, .zero, .zero⟩ {})).Perm
        (full.ranked.filter fun c => (countryRegion c.server.exitCountry).isSome) := by
  obtain ⟨full, hfull, hids⟩ : ∃ full, select (catalogOf worldRows) ⟨.fastest, .lowestLoad, {}⟩
    {} = .ok full ∧
      full.ranked.map (fun c => c.server.id) = ["a", "b", "c", "d"] := ⟨_, rfl, rfl⟩
  have hresolved : resolveGroup "protonwire:fastest-oceania" (some "load") ⟨none, none, none⟩
      ⟨.zero, .zero, .zero, .zero, .zero⟩ = .ok ⟨.regional "protonwire:fastest-oceania" "oceania",
        ⟨.countries ((countryRegions.filter fun member => member.2 = "oceania").map Prod.fst),
         .lowestLoad, {}⟩,
        .declaredOverride⟩ := rfl
  have hentry : GroupEntry.regional "protonwire:fastest-oceania" "oceania" ∈ regionalGroups := by
    decide
  exact ⟨full, hfull, hids, (regional_groups_partition (serdeOf [worldRows]) (bodyOf worldRows)
    (catalogOf worldRows)
    worldRows_accepted (some "load") ⟨none, none, none⟩ ⟨.zero, .zero, .zero, .zero, .zero⟩
      {} hentry hresolved
    (.inr (.inr rfl)) hfull).2⟩

end ProtonWire
