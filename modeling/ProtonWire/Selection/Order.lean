import ProtonWire.Selection.Report

/-!
# The order of the catalog

The parser does not reject two entries with one id or one name. What `select` returns under a
sorting policy still depends on the order of the catalog only where such entries meet: candidates
with one key keep their catalog order, and an exact refusal describes the first entry of the name.

* `rankSurvivors_sorts`: every order of a catalog is refused alike, or sorts the same candidates;
* `SameResult`: two results up to these two freedoms;
* **`select_sameResult`**: two orders of one catalog give the same result.
-/

namespace ProtonWire

open StableSort

/-- The policies that sort. -/
def RankingPolicy.Sorts (policy : RankingPolicy) : Prop :=
  policy = .official ∨ policy = .latency ∨ policy = .lowestLoad

section
variable (request : SelectionRequest) (context : SelectionContext)

/-! ## Permuted catalogs -/

section
variable {l l' : List LogicalServer} (h : l.Perm l')

include h

theorem survivors_perm : (survivors request context l).Perm (survivors request context l') :=
  h.filter _

theorem finalReport_perm : finalReport request context l = finalReport request context l' := by
  have hrankable : (rankable request context l).Perm (rankable request context l') :=
    (survivors_perm request context h).filter _
  rw [finalReport_eq, finalReport_eq, h.length_eq, hrankable.length_eq]
  simp only [h.countP_eq]

end

/-! ## The ranking -/

/-- A policy without data stages charges nothing more. -/
theorem hardReport_eq_finalReport (hload : ¬ request.policy.WeighsLoad)
    (hlatency : ¬ request.policy.WeighsLatency) (l : List LogicalServer) :
    hardReport request context l = finalReport request context l := by
  obtain ⟨heligible, hcount⟩ :=
    eligible_of_free request context hload hlatency (survivors request context l)
  unfold hardReport finalReport rankable
  simp only [heligible, hcount, Nat.add_zero]

/-- The ranking of every order of the catalog: refused alike, or the sorted candidates of one
rule. -/
def SortsAlike (l : List LogicalServer) : Prop :=
  (∃ fault, ∀ l' : List LogicalServer, l.Perm l' →
   rankSurvivors request context l' = .error fault) ∨
    ∃ rank : LogicalServer → Option RankedCandidate, ∀ l' : List LogicalServer, l.Perm l' →
      rankSurvivors request context l' =
        .ok (sortKey (rankKey request.policy) ((survivors request context l').filterMap rank),
          finalReport request context l')

theorem sortsAlike_official (hpolicy : request.policy = .official) (l : List LogicalServer) :
    SortsAlike request context l := by
  have hfree := hardReport_eq_finalReport request context
    (by simp [hpolicy, RankingPolicy.WeighsLoad]) (by simp [hpolicy, RankingPolicy.WeighsLatency])
  have hrank : rankKey request.policy = rankKey .official := by rw [hpolicy]
  -- whether the single match of an exact target is returned unranked depends on a length alone
  by_cases hfast : request.target.isExact = true ∧ (survivors request context l).length = 1
  · refine Or.inr ⟨fun s => some (RankedCandidate.catalogOnly s), fun l' hl' => ?_⟩
    have hlen : (survivors request context l').length = 1 := by
      rw [← (survivors_perm request context hl').length_eq, hfast.2]
    unfold rankSurvivors
    rw [if_pos (by simp [hfast.1, hlen, hpolicy]), hfree]
    obtain ⟨s, hs⟩ := List.length_eq_one_iff.mp hlen
    rw [hs]
    rfl
  · have hslow : ∀ l' : List LogicalServer, l.Perm l' → rankSurvivors request context l' =
        rankCandidates (survivors request context l') request context
          (hardReport request context l') := by
      intro l' hl'
      unfold rankSurvivors
      rw [if_neg]
      rw [(survivors_perm request context hl').length_eq] at hfast
      simpa [hpolicy] using hfast
    unfold rankCandidates at hslow
    simp only [hpolicy, rankOfficial_eq] at hslow
    by_cases hlacking : 0 < (survivors request context l).countP fun s => s.score.isNone
    · refine Or.inl ⟨.refused (.officialScoreUnavailable ((survivors request context l).countP
        fun s => s.score.isNone) (survivors request context l).length), fun l' hl' => ?_⟩
      have hsurvivors := survivors_perm request context hl'
      rw [hslow l' hl', ← hsurvivors.countP_eq, ← hsurvivors.length_eq, if_pos hlacking]
      rfl
    · refine Or.inr ⟨fun s => some (RankedCandidate.catalogOnly s), fun l' hl' => ?_⟩
      have hsurvivors := survivors_perm request context hl'
      rw [hslow l' hl', ← hsurvivors.countP_eq, if_neg hlacking, hfree, hrank,
        List.filterMap_eq_map']
      rfl

theorem rankSurvivors_of_ne_official (hpolicy : request.policy ≠ .official)
    (l : List LogicalServer) :
    rankSurvivors request context l =
      rankCandidates (survivors request context l) request context
        (hardReport request context l) := by
  unfold rankSurvivors
  exact if_neg (by simp [hpolicy])

theorem rankSurvivors_sorts (hpolicy : request.policy.Sorts) (l : List LogicalServer) :
    SortsAlike request context l := by
  rcases hpolicy with hpolicy | hpolicy | hpolicy
  · exact sortsAlike_official request context hpolicy l
  · have hrank := rankSurvivors_of_ne_official request context (by simp [hpolicy])
    unfold rankCandidates at hrank
    simp only [hpolicy] at hrank
    by_cases hempty : context.latency.isEmpty = true
    · refine Or.inl ⟨.refused (.latencyDataUnavailable .one), fun l' _ => ?_⟩
      rw [hrank]
      exact (rankLowestLatency_eq request context hpolicy _ _ _).trans (if_pos hempty)
    · refine Or.inr ⟨observe context, fun l' _ => ?_⟩
      rw [hrank, hpolicy]
      exact (rankLowestLatency_eq request context hpolicy _ _ _).trans (if_neg hempty)
  · have hrank := rankSurvivors_of_ne_official request context (by simp [hpolicy])
    unfold rankCandidates at hrank
    simp only [hpolicy] at hrank
    refine Or.inr ⟨loaded, fun l' _ => ?_⟩
    rw [hrank, hpolicy]
    exact rankLowestLoad_eq request context hpolicy _ _ _

/-! ## Results -/

/-- An entry the exact target names is eliminated at `stage`; or no entry has the name. -/
def DescribesMatch (l : List LogicalServer) (stage : FilterStage) : Prop :=
  (∃ s ∈ l, request.target.matchesExact s = true ∧
      eliminatingStage s request context = .ok (some stage)) ∨
    ((∀ s ∈ l, request.target.matchesExact s = false) ∧ stage = .absentFromCatalog)

/-- Two results over orders of `l`: the same refusal, except that an exact refusal may describe
another entry of the name; or the same report and the same candidates, sorted by the key of the
policy, in one sequence except that candidates with one key may be exchanged. -/
inductive SameResult (l : List LogicalServer) :
    Except Fault SelectionOutcome → Except Fault SelectionOutcome → Prop where
  | ranked {ranked₁ ranked₂ : List RankedCandidate} (report : EliminationReport)
      (perm : ranked₁.Perm ranked₂)
      (keys : ranked₁.map (rankKey request.policy) = ranked₂.map (rankKey request.policy))
      (sorted₁ : ranked₁.Pairwise fun a b => rankKey request.policy a ≤ rankKey request.policy b)
      (sorted₂ : ranked₂.Pairwise fun a b => rankKey request.policy a ≤ rankKey request.policy b)
      (same : (∀ a ∈ ranked₁, ∀ b ∈ ranked₁, rankKey request.policy a =
        rankKey request.policy b → a = b) →
        ranked₁ = ranked₂) :
      SameResult l (.ok ⟨ranked₁, report⟩) (.ok ⟨ranked₂, report⟩)
  | refused (fault : Fault) : SameResult l (.error fault) (.error fault)
  | exact (name : String) {stage₁ stage₂ : FilterStage}
      (describes₁ : DescribesMatch request context l stage₁)
      (describes₂ : DescribesMatch request context l stage₂)
      (same : (∀ s ∈ l, ∀ t ∈ l, request.target.matchesExact s = true →
        request.target.matchesExact t = true →
          eliminatingStage s request context = eliminatingStage t request context) →
          stage₁ = stage₂) :
      SameResult l (.error (.refused (.exactServerUnavailable name stage₁)))
        (.error (.refused (.exactServerUnavailable name stage₂)))

theorem describesMatch_refusalStage {l : List LogicalServer} (hl : ∀ s ∈ l, s.InDomain)
    (hnone : survivors request context l = []) :
    DescribesMatch request context l (refusalStage request context l) := by
  unfold refusalStage
  cases hfind : l.find? request.target.matchesExact with
  | none =>
    refine Or.inr ⟨fun s hs => ?_, rfl⟩
    simpa using List.find?_eq_none.mp hfind s hs
  | some s =>
    have hs := List.mem_of_find?_eq_some hfind
    -- an entry of the name survives, or has a stage
    cases hstage : hardStage request context s with
    | none =>
      have hmem : s ∈ survivors request context l := List.mem_filter.mpr ⟨hs, decide_eq_true hstage⟩
      rw [hnone] at hmem
      cases hmem
    | some stage =>
      refine Or.inl ⟨s, hs, List.find?_some hfind, ?_⟩
      dsimp only
      rw [eliminatingStage_eq request context s (hl s hs), hstage]
      exact congrArg Except.ok hstage

variable {request context}

theorem DescribesMatch.perm {l l' : List LogicalServer} (h : l'.Perm l) {stage : FilterStage}
    (hd : DescribesMatch request context l' stage) : DescribesMatch request context l stage := by
  rcases hd with ⟨s, hs, hmatch, hstage⟩ | ⟨hnone, habsent⟩
  · exact Or.inl ⟨s, h.mem_iff.mp hs, hmatch, hstage⟩
  · exact Or.inr ⟨fun s hs => hnone s (h.mem_iff.mpr hs), habsent⟩

theorem DescribesMatch.unique {l : List LogicalServer} {stage₁ stage₂ : FilterStage}
    (h₁ : DescribesMatch request context l stage₁) (h₂ : DescribesMatch request context l stage₂)
    (hsame : ∀ s ∈ l, ∀ t ∈ l, request.target.matchesExact s = true →
     request.target.matchesExact t = true →
      eliminatingStage s request context = eliminatingStage t request context) :
      stage₁ = stage₂ := by
  rcases h₁ with ⟨s, hs, hmatch, hstage⟩ | ⟨hnone, rfl⟩
  · rcases h₂ with ⟨t, ht, hmatch', hstage'⟩ | ⟨hnone, -⟩
    · have heq := hsame s hs t ht hmatch hmatch'
      rw [hstage, hstage'] at heq
      cases heq
      rfl
    · rw [hnone s hs] at hmatch
      cases hmatch
  · rcases h₂ with ⟨t, ht, hmatch, -⟩ | ⟨-, rfl⟩
    · rw [hnone t ht] at hmatch
      cases hmatch
    · rfl

/-- Two orders of the candidates of one rule conclude alike. -/
theorem sameResult_conclude (rank : LogicalServer → Option RankedCandidate)
    (report : EliminationReport)
    (l : List LogicalServer) {k₁ k₂ : List LogicalServer} (h : k₁.Perm k₂) :
    SameResult request context l
      (conclude (sortKey (rankKey request.policy) (k₁.filterMap rank), report))
      (conclude (sortKey (rankKey request.policy) (k₂.filterMap rank), report)) := by
  have hcandidates := h.filterMap rank
  have hsorted : (sortKey (rankKey request.policy) (k₁.filterMap rank)).Perm
      (sortKey (rankKey request.policy) (k₂.filterMap rank)) :=
    (sortKey_perm _ _).trans (hcandidates.trans (sortKey_perm _ _).symm)
  unfold conclude
  dsimp only
  by_cases hempty : (sortKey (rankKey request.policy) (k₁.filterMap rank)).isEmpty = true
  · have hnil := List.isEmpty_iff.mp hempty
    have hnil₂ := List.nil_perm.mp (hnil ▸ hsorted)
    rw [hnil, hnil₂]
    exact .refused _
  · have hempty₂ : ¬ (sortKey (rankKey request.policy) (k₂.filterMap rank)).isEmpty = true := by
      intro h₂
      rw [List.isEmpty_iff.mp h₂, List.perm_nil] at hsorted
      exact hempty (List.isEmpty_iff.mpr hsorted)
    rw [if_neg hempty, if_neg hempty₂]
    refine .ranked report hsorted (map_sortKey_eq_of_perm _ hcandidates) (pairwise_sortKey _ _)
      (pairwise_sortKey _ _) fun hinj => sortKey_eq_of_perm _ hcandidates fun a ha b hb => ?_
    exact hinj a (mem_sortKey.mpr ha) b (mem_sortKey.mpr hb)

end

/-- **Two orders of one catalog give the same result**, up to the order of candidates that share a
key and the entry that an exact refusal describes. -/
theorem select_sameResult (J : Serde) (body₁ body₂ : ByteArray) (doc₁ doc₂ : CatalogDocument)
    (request : SelectionRequest) (context : SelectionContext)
    (h₁ : CatalogDocument.fromBytes J body₁ = .ok doc₁)
    (h₂ : CatalogDocument.fromBytes J body₂ = .ok doc₂)
    (hperm : doc₁.logicalServers.Perm doc₂.logicalServers) (hpolicy : request.policy.Sorts) :
    SameResult request context doc₁.logicalServers (select doc₁ request context)
      (select doc₂ request context) := by
  have hl₁ := CatalogDocument.fromBytes_inDomain h₁
  have hl₂ := CatalogDocument.fromBytes_inDomain h₂
  cases hv : validateRequest request context with
  | error fault =>
    rw [select_of_invalid request context doc₁ hv, select_of_invalid request context doc₂ hv]
    exact .refused fault
  | ok _ =>
    have hsurvivors := survivors_perm request context hperm
    rw [select_eq request context doc₁ hl₁ hv, select_eq request context doc₂ hl₂ hv]
    have hempty : (survivors request context doc₁.logicalServers).isEmpty =
        (survivors request context doc₂.logicalServers).isEmpty := by
      rw [Bool.eq_iff_iff, List.isEmpty_iff_length_eq_zero, List.isEmpty_iff_length_eq_zero,
        hsurvivors.length_eq]
    rw [← hempty]
    by_cases hexact : (request.target.isExact &&
        (survivors request context doc₁.logicalServers).isEmpty) = true
    · rw [if_pos hexact, if_pos hexact]
      rw [Bool.and_eq_true] at hexact
      have hnone₁ := List.isEmpty_iff.mp hexact.2
      have hnone₂ := List.isEmpty_iff.mp (hempty ▸ hexact.2)
      have hd₁ := describesMatch_refusalStage request context hl₁ hnone₁
      have hd₂ := (describesMatch_refusalStage request context hl₂ hnone₂).perm hperm.symm
      exact .exact _ hd₁ hd₂ (hd₁.unique hd₂)
    · rw [if_neg hexact, if_neg hexact]
      rcases rankSurvivors_sorts request context hpolicy doc₁.logicalServers with
        ⟨fault, hrank⟩ | ⟨rank, hrank⟩
      · rw [hrank _ (.refl _), hrank _ hperm]
        exact .refused fault
      · rw [hrank _ (.refl _), hrank _ hperm, ← finalReport_perm request context hperm]
        exact sameResult_conclude rank _ _ hsurvivors

/-- Two servers that share an id, in both orders. -/
def twinRows (first second : String) : List CatalogRow :=
  [⟨"a", first, "CH", "CH", "ZH", true⟩, ⟨"a", second, "CH", "CH", "ZH", true⟩]

/-- The codec on both orders. -/
def twinSerde : Serde := serdeOf [twinRows "CH#1" "CH#2", twinRows "CH#2" "CH#1"]

theorem twinRows_accepted : CatalogDocument.fromBytes twinSerde (bodyOf (twinRows "CH#1" "CH#2")) =
    .ok (catalogOf (twinRows "CH#1" "CH#2")) :=
  fromBytes_bodyOf (List.find?_cons_of_pos (by simp)) (by decide +kernel) (by decide)
  (by decide) rfl

theorem twinRows_swapped_accepted :
    CatalogDocument.fromBytes twinSerde (bodyOf (twinRows "CH#2" "CH#1")) =
      .ok (catalogOf (twinRows "CH#2" "CH#1")) := by
  -- the bodies differ in the digit of the first name
  have hbyte : (bodyOf (twinRows "CH#1" "CH#2")).data[67]! ≠
    (bodyOf (twinRows "CH#2" "CH#1")).data[67]! := by
    decide +kernel
  have hne : bodyOf (twinRows "CH#1" "CH#2") ≠ bodyOf (twinRows "CH#2" "CH#1") := fun h =>
    hbyte (by rw [h])
  have hfind : ([twinRows "CH#1" "CH#2", twinRows "CH#2" "CH#1"].find? fun rows =>
      bodyOf rows = bodyOf (twinRows "CH#2" "CH#1")) = some (twinRows "CH#2" "CH#1") := by
    rw [List.find?_cons_of_neg (by simpa using hne)]
    exact List.find?_cons_of_pos (by simp)
  exact fromBytes_bodyOf hfind (by decide +kernel) (by decide) (by decide) rfl

theorem twinRows_perm : (catalogOf (twinRows "CH#1" "CH#2")).logicalServers.Perm
    (catalogOf (twinRows "CH#2" "CH#1")).logicalServers := .swap _ _ _

theorem select_sameResult_twins :
    SameResult swissRequest {} (catalogOf (twinRows "CH#1" "CH#2")).logicalServers
      (select (catalogOf (twinRows "CH#1" "CH#2")) swissRequest {})
      (select (catalogOf (twinRows "CH#2" "CH#1")) swissRequest {}) :=
  select_sameResult twinSerde _ _ _ _ swissRequest {} twinRows_accepted twinRows_swapped_accepted
    twinRows_perm (Or.inr (Or.inr rfl))

/-- Two servers with one id and one load come out in the order of the catalog. -/
theorem select_twins_in_catalog_order :
    CatalogDocument.fromBytes twinSerde (bodyOf (twinRows "CH#1" "CH#2")) =
        .ok (catalogOf (twinRows "CH#1" "CH#2")) ∧
      CatalogDocument.fromBytes twinSerde (bodyOf (twinRows "CH#2" "CH#1")) =
        .ok (catalogOf (twinRows "CH#2" "CH#1")) ∧
      (catalogOf (twinRows "CH#1" "CH#2")).logicalServers.Perm
        (catalogOf (twinRows "CH#2" "CH#1")).logicalServers ∧
      swissRequest.policy = .lowestLoad ∧
      select (catalogOf (twinRows "CH#1" "CH#2")) swissRequest {} ≠
        select (catalogOf (twinRows "CH#2" "CH#1")) swissRequest {} := by
  refine ⟨twinRows_accepted, twinRows_swapped_accepted, twinRows_perm, rfl, fun h => ?_⟩
  have hnames := congrArg (fun result : Except Fault SelectionOutcome =>
    result.toOption.map fun outcome => outcome.ranked.map fun c => c.server.name) h
  exact absurd hnames (by decide)

end ProtonWire
