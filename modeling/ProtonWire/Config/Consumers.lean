import ProtonWire.Config.Document
import ProtonWire.Resolve.Narrowing
import ProtonWire.Scheduler.Policy

/-!
# What a loaded document is good for

The document is checked once, where it is loaded; its readers check again what they are given: the
scheduler its interval and its jitter (`from_metadata_cache`), the balanced policy its weights and
each total it computes.

* `WeightsRule.within`: weights that pass the rule are below four;
* `isFinite_total`: and then no weighted total overflows;
* **`loaded_config_accepted`**: no reader refuses what a loaded document says.
-/

namespace ProtonWire

open Binary32 Fallible StableSort

namespace Config

/-! ## Readers -/

/-- `SchedulerConfig::from_metadata_cache`. -/
def fromMetadataCache (cache : MetadataCacheSection) : Except SchedulerError SchedulerConfig :=
  SchedulerConfig.new (cache.refreshIntervalHours * 3600) (cache.maxPositiveJitterMinutes * 60)
    cache.conditionalRequests

/-- What selection reads of the document. -/
def SystemConfig.selection (c : SystemConfig) : ProtonWire.SystemConfig where
  maxCandidates := c.serverSelection.latencyProbe.maxCandidates
  balancedWeights := c.serverSelection.balancedWeights
  excludedEntryCountries := c.serverSelection.secureCore.excludedEntryCountries
  excludedExitCountries := c.serverSelection.secureCore.excludedExitCountries
  physicalCountry := c.connectionGroups.physicalCountry
  regionalDefaultRanking := c.connectionGroups.regionalDefaultRanking

/-! ## Weights -/

section
variable {weights : BalancedWeights}

theorem WeightsRule.nonneg (h : WeightsRule weights) : ∀ w ∈ weightValues weights, Nonneg w := by
  intro w hw
  have hfinite := h.1 w hw
  have hnotneg := h.2.1 w hw
  refine ⟨(isFinite_iff.mp hfinite).le, fun hsign => ?_⟩
  unfold lt position at hnotneg
  rw [not_isNaN hfinite, hsign] at hnotneg
  have hzero : Binary32.zero.sign = false ∧ Binary32.zero.low = 0 ∧
    Binary32.zero.isNaN = false := by decide
  rw [hzero.1, hzero.2.1, hzero.2.2] at hnotneg
  simp only [Bool.not_false, Bool.true_and, if_true, Bool.false_eq_true, if_false,
    decide_eq_false_iff_not] at hnotneg
  omega

theorem within_one : Within 150 Binary32.one := by
  constructor <;> decide

/-- A weight of four or more is not made up for by the others. -/
theorem WeightsRule.within (h : WeightsRule weights) :
    ∀ w ∈ weightValues weights, Within 151 w := by
  intro w hw
  by_contra hlarge
  have hreach : powLow 151 ≤ w.low := by
    by_contra hbelow
    exact hlarge (within_of_low_le (by decide) (by decide) (not_le.mp hbelow).le)
  obtain ⟨hnonneg, hsum⟩ := (nonneg_zero true).foldl_add h.nonneg (by decide) (by decide)
    (.inr ⟨w, hw, hreach⟩)
  obtain ⟨hgap, hinf⟩ := hnonneg.le_low_sub within_one (by decide) (by decide) hsum
  have hapart : (Binary32.ratio 1 1000).lt ((weightSum weights).sub .one).abs = true := by
    have habs : Nonneg ((weightSum weights).sub .one).abs := nonneg_ofLow hinf
    have hthousandth : Nonneg (Binary32.ratio 1 1000) := nonneg_roundRatio _ _
    rw [hthousandth.lt_eq habs, low_abs, decide_eq_true_eq]
    exact lt_of_lt_of_le (by decide) hgap
  rw [h.2.2] at hapart
  cases hapart

end

/-! ## Totals -/

section
variable {context : SelectionContext} {s : LogicalServer}

/-- What a `Duration` can be: its seconds are a `u64`. -/
def InRange (latency : LatencyTable) : Prop := ∀ entry ∈ latency.entries, entry.2.secs < 2 ^ 64

theorem nonneg_ofInt (n : ℕ) : Nonneg (Binary32.ofInt n) := by
  unfold Binary32.ofInt
  rw [decide_eq_false (by omega)]
  exact nonneg_roundRatio _ _

/-- A quotient of values that are not negative is none, unless both are zeros. -/
theorem nonneg_div {x y : Binary32} (hx : x.sign = false) (hy : y.sign = false)
    (hxf : x.isFinite = true)
    (hyf : y.isFinite = true) (hpos : 0 < y.magnitude) : Nonneg (x.div y) := by
  have hne : y.low ≠ 0 := fun hzero => by rw [magnitude_of_low_eq_zero hzero] at hpos; omega
  unfold Binary32.div
  rw [Binary32.not_isNaN hxf, Binary32.not_isNaN hyf, not_isInfinite hxf, not_isInfinite hyf,
    if_neg hne, hx, hy]
  exact nonneg_roundRatio _ _

theorem sign_ofInt (n : ℕ) : (Binary32.ofInt n).sign = false := by
  unfold Binary32.ofInt
  rw [decide_eq_false (by omega)]
  unfold roundRatio
  exact sign_ofLow false (lt_of_le_of_lt (Nat.min_le_left _ _) infLow_lt)

theorem asSecsF32_bounds {d : Duration} (h : d.secs < 2 ^ 64) :
    Nonneg d.asSecsF32 ∧ d.asSecsF32.isFinite = true := by
  have hsecs : Within 213 (Binary32.ofInt d.secs) := within_ofInt (e := 64) (by omega) (by decide)
  have hnanos : Within 179 (Binary32.ofInt d.nanos) := by
    have := d.nanos_lt
    exact within_ofInt (e := 30) (by omega) (by decide)
  have hbillion : Within 179 (Binary32.ofInt 1000000000) := within_ofInt (e := 30) (by decide)
    (by decide)
  have hreach : 2 ^ 178 ≤ (Binary32.ofInt 1000000000).magnitude := le_magnitude_ofInt (e := 29)
    (by decide) (by decide)
  have hpos : 0 < (Binary32.ofInt 1000000000).magnitude := lt_of_lt_of_le (by decide) hreach
  have hfraction : Within 213 ((Binary32.ofInt d.nanos).div (.ofInt 1000000000)) := by
    refine (Within.div (e := 150) hnanos.1 hbillion.1 hpos ?_ (by decide) (by decide)).mono
      (by decide)
    calc (Binary32.ofInt d.nanos).magnitude * 2 ^ 149 ≤ 2 ^ 179 * 2 ^ 149 := Nat.mul_le_mul_right _ hnanos.2
      _ = 2 ^ 178 * 2 ^ 150 := by norm_num
      _ ≤ _ := Nat.mul_le_mul_right _ hreach
  have hquotient := nonneg_div (sign_ofInt d.nanos) (sign_ofInt 1000000000) hnanos.1 hbillion.1 hpos
  exact ⟨((nonneg_ofInt _).add hquotient).1, (hsecs.add hfraction (by decide) (by decide)).1⟩

theorem magnitude_pos {x : Binary32} (h : positiveWeight x = true) (hx : Nonneg x) :
    0 < x.magnitude := by
  have hzero : Nonneg Binary32.zero := nonneg_zero false
  unfold positiveWeight at h
  rw [hzero.lt_eq hx, decide_eq_true_eq] at h
  unfold magnitude
  split_ifs with hexp
  · -- a subnormal value is its fraction
    unfold exponent at hexp
    unfold fraction
    omega
  · exact Nat.mul_pos (by omega) (Nat.two_pow_pos _)

theorem within_loadShare (hs : s.InDomain) :
    Within 150 ((Binary32.ofInt (s.load.getD 0)).div (.ofInt 100)) := by
  have hload : 0 ≤ s.load.getD 0 ∧ s.load.getD 0 ≤ 100 := by
    cases hvalue : s.load with
    | none => exact ⟨le_refl _, by decide⟩
    | some load => exact hs.load load hvalue
  have hdividend : Within 156 (Binary32.ofInt (s.load.getD 0)) := within_ofInt (e := 7) (by omega)
    (by decide)
  have hdivisor : Within 156 (Binary32.ofInt 100) := within_ofInt (e := 7) (by decide) (by decide)
  have hreach : 2 ^ 155 ≤ (Binary32.ofInt 100).magnitude := le_magnitude_ofInt (e := 6) (by decide)
    (by decide)
  refine Within.div hdividend.1 hdivisor.1 (lt_of_lt_of_le (by decide) hreach) ?_ (by decide)
    (by decide)
  calc (Binary32.ofInt (s.load.getD 0)).magnitude * 2 ^ 149 ≤ 2 ^ 156 * 2 ^ 149 := Nat.mul_le_mul_right _ hdividend.2
    _ = 2 ^ 155 * 2 ^ 150 := by norm_num
    _ ≤ _ := Nat.mul_le_mul_right _ hreach

theorem within_optionalMatchRatio (s : LogicalServer) (context : SelectionContext)
    {optional : List FeatureConstraint}
    (h : optional.length < 2 ^ 64) : Within 213 (optionalMatchRatio s optional context) := by
  unfold optionalMatchRatio
  split_ifs with hempty
  · have hone : Within 150 Binary32.one := by
      constructor <;> decide
    exact hone.mono (by decide)
  have hlength : 0 < optional.length := List.length_pos_iff.mpr (by simpa using hempty)
  have hcount := List.countP_le_length (p := fun feature => featureHolds s feature context)
    (l := optional)
  have hdividend :
    Within 213 (Binary32.ofInt (optional.countP fun feature => featureHolds s feature context)) :=
    within_ofInt (e := 64) (by omega) (by decide)
  have hdivisor : Within 213 (Binary32.ofInt optional.length) := within_ofInt (e := 64) (by omega)
    (by decide)
  have hreach : 2 ^ 149 ≤ (Binary32.ofInt optional.length).magnitude :=
    le_magnitude_ofInt (e := 0) (by omega) (by decide)
  refine Within.div hdividend.1 hdivisor.1 (lt_of_lt_of_le (by decide) hreach) ?_ (by decide)
    (by decide)
  rw [Nat.mul_comm]
  exact Nat.mul_le_mul hreach hdividend.2

theorem maxLatency_spec (pool : List LogicalServer) (h : InRange context.latency) :
    Nonneg (maxLatency pool context) ∧ (maxLatency pool context).isFinite = true ∧
      ∀ s ∈ pool, ∀ latency, context.latency.get s.id = some latency →
        latency.asSecsF32.low ≤ (maxLatency pool context).low := by
  have hobserved : ∀ s latency, context.latency.get s = some latency → latency.secs < 2 ^ 64 := by
    intro s latency hget
    obtain ⟨before, after, heq, -⟩ := List.lookup_eq_some_iff.mp hget
    exact h (s, latency) (by rw [heq]; exact List.mem_append_right _ List.mem_cons_self)
  have hall : ∀ w ∈ (pool.filterMap fun s => context.latency.get s.id).map Duration.asSecsF32,
      Nonneg w ∧ w.isFinite = true := by
    intro w hw
    obtain ⟨latency, hlatency, rfl⟩ := List.mem_map.mp hw
    obtain ⟨s, -, hget⟩ := List.mem_filterMap.mp hlatency
    exact asSecsF32_bounds (hobserved s.id latency hget)
  obtain ⟨hmem, hgreatest⟩ := (nonneg_zero false).foldl_max fun w hw => (hall w hw).1
  have hbounds : Nonneg (maxLatency pool context) ∧ (maxLatency pool context).isFinite = true := by
    rcases List.mem_cons.mp hmem with heq | hmem
    · unfold maxLatency
      unfold Binary32.zero
      rw [heq]
      exact ⟨nonneg_zero false, by decide⟩
    · exact hall _ hmem
  refine ⟨hbounds.1, hbounds.2, fun s hs latency hget => hgreatest _ (List.mem_cons_of_mem _ ?_)⟩
  exact List.mem_map_of_mem (List.mem_filterMap.mpr ⟨s, hs, hget⟩)

/-- **No weighted total overflows**: no weight is above four, and no signal above the number of
features asked for. -/
theorem isFinite_total {config : ProtonWire.SystemConfig} {request : SelectionRequest}
    {pool : List LogicalServer}
    (hweights : WeightsRule config.balancedWeights) (hs : s.InDomain) (hpool : s ∈ pool)
    (hlatency : InRange context.latency)
    (hoptional : request.constraints.optionalFeatures.length < 2 ^ 64) :
    (weightedBreakdown config.weights request context (maxLatency pool context) s).total.isFinite =
    true := by
  have hwithin := hweights.within
  have hload : Within 151 config.weights.load :=
    hwithin _ (by simp [weightValues, SystemConfig.weights])
  have hprobed : Within 151 config.weights.latency :=
    hwithin _ (by simp [weightValues, SystemConfig.weights])
  have hfeature : Within 151 config.weights.featureMatch :=
    hwithin _ (by simp [weightValues, SystemConfig.weights])
  obtain ⟨hlongest, hfinite, hgreatest⟩ := maxLatency_spec pool hlatency
  have hzero : ∀ e, Within e Binary32.zero := fun e => within_zero
  -- the three terms
  have hloadTerm : Within 216 (weightedBreakdown config.weights request context
    (maxLatency pool context) s).loadTerm := by
    unfold weightedBreakdown
    dsimp only
    split_ifs
    · exact (hload.mul (within_loadShare hs) (by decide) (by decide)).mono (by decide)
    · exact hzero _
  have hlatencyTerm :
      Within 216 (weightedBreakdown config.weights request context (maxLatency pool context)
        s).latencyTerm := by
    unfold weightedBreakdown
    dsimp only
    split
    · next latency _ hget =>
      split_ifs with hpositive
      · obtain ⟨before, after, heq, -⟩ := List.lookup_eq_some_iff.mp hget
        have hsecs := hlatency (s.id, latency)
          (by rw [heq]; exact List.mem_append_right _ List.mem_cons_self)
        have hshare : Within 149 (latency.asSecsF32.div (maxLatency pool context)) :=
          Within.div (asSecsF32_bounds hsecs).2 hfinite (magnitude_pos hpositive hlongest)
            (Nat.mul_le_mul_right _ (magnitude_mono (hgreatest s hpool latency hget))) (by decide)
            (by decide)
        exact (hprobed.mul hshare (by decide) (by decide)).mono (by decide)
      · exact hzero _
    · exact hzero _
  have hone : Within 213 Binary32.one := within_one.mono (by decide)
  have hfeatureTerm :
      Within 216 (weightedBreakdown config.weights request context (maxLatency pool context)
        s).featureMatchTerm := by
    have hmissed := hone.sub (within_optionalMatchRatio s context hoptional) (by decide) (by decide)
    unfold weightedBreakdown
    dsimp only
    exact (hfeature.mul hmissed (by decide) (by decide)).mono (by decide)
  have hsum := (hloadTerm.add hlatencyTerm (by decide) (by decide)).add (hzero _) (by decide)
    (by decide)
  exact ((hsum.add (hfeatureTerm.mono (by decide)) (by decide) (by decide)).add (hzero _)
    (by decide) (by decide)).1

end

/-! ## The balanced policy -/

section
variable {config : ProtonWire.SystemConfig} {request : SelectionRequest}
    {context : SelectionContext}

theorem isValid_weights (h : WeightsRule config.balancedWeights) :
    config.weights.isValid = true := by
  have hweight : ∀ w ∈ weightValues config.balancedWeights, (w.isFinite && Binary32.zero.le w) =
    true := by
    intro w hw
    have hnonneg := h.nonneg w hw
    have hzero : Nonneg Binary32.zero := nonneg_zero false
    rw [h.1 w hw, Bool.true_and]
    unfold le
    rw [hzero.not_isNaN, hnonneg.not_isNaN, hzero.position, hnonneg.position]
    have hlow : Binary32.zero.low = 0 := by decide
    simp [hlow]
  have hzero : (Binary32.zero.isFinite && Binary32.zero.le Binary32.zero) = true := by decide
  unfold WeightedSignals.isValid
  rw [List.all_eq_true]
  intro w hw
  unfold SystemConfig.weights at hw
  simp only [List.mem_cons, List.not_mem_nil, or_false] at hw
  rcases hw with rfl | rfl | rfl | rfl | rfl
  · exact hweight _ (by simp [weightValues])
  · exact hweight _ (by simp [weightValues])
  · exact hweight _ (by simp [weightValues])
  · exact hweight _ (by simp [weightValues])
  · exact hzero

theorem rankBalanced_ok {l : List LogicalServer} (considered : ℕ) (f : FilterStage → ℕ)
    (hweights : WeightsRule config.balancedWeights)
    (hpolicy : request.policy = .balanced config.weights)
    (hl : ∀ s ∈ l, s.InDomain) (hlatency : InRange context.latency)
    (hoptional : request.constraints.optionalFeatures.length < 2 ^ 64)
    (hsome : eligible request context l ≠ []) :
    ∃ result, rankBalanced l config.weights request context
      ⟨considered, l.length, FilterStage.stages.map fun st => (st, f st)⟩ = .ok result := by
  obtain ⟨s, hs⟩ := List.exists_mem_of_ne_nil _ hsome
  have hdata : dataStage request context s = none := by
    have hkept := (List.mem_filter.mp hs).2
    exact of_decide_eq_true hkept
  have hobserved : ¬ (positiveWeight config.weights.latency && context.latency.isEmpty) = true := by
    rw [Bool.and_eq_true]
    rintro ⟨hpositive, hempty⟩
    rw [dataStage_balanced request context hpolicy s, hpositive] at hdata
    have hnone : context.latency.get s.id = none := by
      unfold LatencyTable.get
      rw [List.isEmpty_iff.mp hempty]
      rfl
    rw [hnone] at hdata
    split_ifs at hdata
    exact absurd rfl ‹_›
  have hpool := balancedPool_eq request context hpolicy l [] 0 0
  rw [List.nil_append, Nat.zero_add, Nat.zero_add] at hpool
  obtain ⟨report, hload, hreport⟩ := bind_eq_ok.mp (charge_balanced request context l considered f)
  obtain ⟨ranked, hranked⟩ : ∃ ranked, (eligible request context l).mapM
    (balancedCandidate config.weights request
      context (maxLatency (eligible request context l) context)) = .ok ranked := by
    refine mapM_ok fun s hs => ?_
    unfold balancedCandidate
    dsimp only
    rw [if_pos (isFinite_total hweights (hl s (List.mem_filter.mp hs).1) hs hlatency hoptional)]
    exact ⟨_, rfl⟩
  have hweighted : ∀ c ∈ ranked, c.signals.weighted.isSome = true := fun c hc => by
    obtain ⟨s, -, hs⟩ := mem_of_mapM_eq_ok hranked hc
    exact (balancedCandidate_eq_ok request context hs).2
  have hsort : sortBy balancedCmp ranked =
    .ok (sortKey (rankKey (.balanced config.weights)) ranked) :=
    sortBy_eq_sortKey _ fun a ha b hb => balancedCmp_eq config.weights (hweighted a ha)
      (hweighted b hb)
  unfold rankBalanced
  rw [isValid_weights hweights, if_neg (by decide), if_neg hobserved, hpool]
  exact ⟨(sortKey (rankKey (.balanced config.weights)) ranked, _),
    bind_eq_ok.mpr ⟨report, hload, bind_eq_ok.mpr
    ⟨_, hreport, bind_eq_ok.mpr ⟨ranked, hranked, bind_eq_ok.mpr ⟨_, hsort, rfl⟩⟩⟩⟩⟩

end

/-! ## Balanced requests -/

section
variable {config : ProtonWire.SystemConfig} {catalog : CatalogDocument}
    {entitlements : Option VpnEntitlements}
  {location : Option String} {target : ConnectTarget} {modifiers : SelectionModifiers}
  {request : SelectionRequest}
  {provenance : Option GroupProvenance} {weights : WeightedSignals}

theorem groupPolicy_balanced {entry : GroupEntry} {mode : Option String} {given : WeightedSignals}
    {kind : PolicyProvenance} (h : groupPolicy entry mode given = .ok (.balanced weights, kind)) :
    weights = given := by
  have hpolicy : ∀ policy, toSelectionPolicy policy given = .balanced weights →
    weights = given := by
    intro policy hpolicy
    cases policy with
    | balanced =>
      cases hpolicy
      rfl
    | protonScore => cases hpolicy
    | load => cases hpolicy
    | randomCountryThenServer => cases hpolicy
    | latency => cases hpolicy
  unfold groupPolicy at h
  split at h
  · rw [Except.ok.injEq, Prod.mk.injEq] at h
    exact hpolicy _ h.1
  · split_ifs at h
    split at h
    · cases h
    · split_ifs at h
      rw [Except.ok.injEq, Prod.mk.injEq] at h
      exact hpolicy _ h.1

theorem groupSelector_optional {entry : GroupEntry} {physical : PhysicalCountrySources}
    {core : Target}
    {constraints : Constraints} (h : groupSelector entry physical = .ok (core, constraints)) :
    constraints.optionalFeatures = [] := by
  unfold groupSelector at h
  dsimp only at h
  split at h
  · cases h
    rfl
  · cases h
    rfl
  · split at h
    · cases h
      rfl
    · cases h
  · cases h
    rfl
  · cases h
    rfl

theorem directPolicy_balanced {mode : Option String} {given : WeightedSignals}
    (h : directPolicy target mode given = .ok (.balanced weights)) : weights = given := by
  unfold directPolicy at h
  split at h
  · split at h
    · cases h
      rfl
    · next hother hparse =>
      cases h
      exact absurd rfl (hother weights)
    · cases h
  · split_ifs at h <;> cases h

/-- **A balanced request has the document's weights, and the user's optional features only.** -/
theorem balanced_of_composeRequest
    (h : composeRequest config catalog entitlements location target modifiers =
     .ok (request, provenance))
    (hpolicy : request.policy = .balanced weights) :
    weights = config.weights ∧ request.constraints.optionalFeatures =
    modifiers.optionalFeatures.map wireFeature := by
  obtain ⟨raw, hraw, rfl⟩ := (composeRequest_ok.mp h).composed
  have hunion : (unionConfiguredSecureCoreExclusions raw config).policy = raw.policy ∧
      (unionConfiguredSecureCoreExclusions raw config).constraints.optionalFeatures =
      raw.constraints.optionalFeatures := by
    unfold unionConfiguredSecureCoreExclusions
    split_ifs <;> exact ⟨rfl, rfl⟩
  rw [hunion.1] at hpolicy
  rw [hunion.2]
  have hdirect : ∀ direct, directRequest direct modifiers config.weights = .ok raw →
      weights = config.weights ∧ raw.constraints.optionalFeatures =
      modifiers.optionalFeatures.map wireFeature := by
    intro direct hrequest
    obtain ⟨extra, hmode, -, hconstraints⟩ := directRequest_ok.mp hrequest
    rw [hpolicy] at hmode
    exact ⟨directPolicy_balanced hmode, by rw [hconstraints]; rfl⟩
  unfold targetRequest at hraw
  split at hraw
  · obtain ⟨resolved, hresolved, hraw⟩ := bind_eq_ok.mp hraw
    obtain ⟨_, -, hraw⟩ := bind_eq_ok.mp hraw
    obtain ⟨merged, hmerged, hraw⟩ := bind_eq_ok.mp hraw
    cases hraw
    obtain ⟨-, hmode, hselector⟩ := resolveGroup_ok.mp (orGroupRefuse_ok.mp hresolved)
    obtain ⟨-, rfl⟩ := mergeGroupModifiers_ok.mp hmerged
    dsimp only at hpolicy ⊢
    rw [hpolicy] at hmode
    rw [groupSelector_optional hselector, List.nil_append]
    exact ⟨groupPolicy_balanced hmode, rfl⟩
  · obtain ⟨direct, hrequest, hraw⟩ := bind_eq_ok.mp hraw
    cases hraw
    exact hdirect _ hrequest

end

/-! ## A loaded document -/

theorem rules_of_violations {c : SystemConfig} (h : c.violations = []) :
    3 ≤ c.serverSelection.metadataCache.refreshIntervalHours ∧
      c.serverSelection.metadataCache.maxPositiveJitterMinutes ≤ 60 ∧
      WeightsRule c.serverSelection.balancedWeights := by
  have hrule : ∀ broken : Prop, ∀ [Decidable broken] (message : String), violation broken message =
    [] → ¬ broken := by
    intro broken _ message hnil hbroken
    unfold violation at hnil
    rw [if_pos hbroken] at hnil
    cases hnil
  unfold SystemConfig.violations at h
  simp only [List.append_eq_nil_iff] at h
  obtain ⟨⟨⟨⟨⟨⟨⟨⟨⟨⟨⟨⟨⟨⟨-, hinterval⟩, hjitter⟩,
    hweights⟩, -⟩, -⟩, -⟩, -⟩, -⟩, -⟩, -⟩, -⟩, -⟩, -⟩, -⟩ := h
  exact ⟨not_lt.mp (hrule _ _ hinterval), not_lt.mp (hrule _ _ hjitter),
    not_not.mp (hrule _ _ hweights)⟩

/-- **The readers of a loaded document accept what it says**: the scheduler its interval and its
jitter, and the balanced policy its weights: a balanced request is answered exactly if it is valid
and an entry is admissible. -/
theorem loaded_config_accepted {parse : List Char → Except String SystemConfig} {files : FileReads}
    {path : List UInt8} {trustRoot : Option FsTrust.Path} {loaded : LoadedSystemConfig}
    (h : SystemConfig.loadInner parse files path trustRoot = .ok loaded) :
    (∃ policy, fromMetadataCache loaded.config.serverSelection.metadataCache = .ok policy) ∧
      ∀ (J : Serde) (body : ByteArray) (catalog : CatalogDocument),
        CatalogDocument.fromBytes J body = .ok catalog →
        ∀ entitlements location target modifiers request provenance weights,
          composeRequest loaded.config.selection catalog entitlements location target modifiers =
            .ok (request, provenance) →
          request.policy = .balanced weights → modifiers.optionalFeatures.length < 2 ^ 64 →
          ∀ context, InRange context.latency →
            ((∃ outcome, select catalog request context = .ok outcome) ↔
              validateRequest request context = .ok () ∧
                ∃ s ∈ catalog.logicalServers, Admissible request context s) := by
  obtain ⟨hinterval, hjitter, hweights⟩ := rules_of_violations (violations_of_loadInner h)
  refine ⟨?_, ?_⟩
  · unfold fromMetadataCache SchedulerConfig.new
    rw [dif_neg, dif_neg]
    · exact ⟨_, rfl⟩
    · unfold U64.max
      omega
    · unfold freshnessFloorSeconds
      omega
  · intro J body catalog hbody entitlements location target modifiers request provenance weights
      hcompose hpolicy
      hcount context hlatency
    have hl := CatalogDocument.fromBytes_inDomain hbody
    obtain ⟨rfl, hoptional⟩ := balanced_of_composeRequest hcompose hpolicy
    have hadmissible : validateRequest request context = .ok () →
        (rankable request context catalog.logicalServers ≠ [] ↔
          ∃ s ∈ catalog.logicalServers, Admissible request context s) := by
      intro hv
      rw [rankable_eq_filter, ne_eq, List.filter_eq_nil_iff]
      push Not
      refine exists_congr fun s => and_congr_right fun hs => ?_
      rw [decide_eq_true_eq, admissible_iff (hl s hs) hv]
    constructor
    · rintro ⟨outcome, hok⟩
      obtain ⟨hv, ranked, -, hperm, hend⟩ :=
        rankSurvivors_of_select request context hl hok fun fault hf => by cases hf
      refine ⟨hv, (hadmissible hv).mp fun hnil => ?_⟩
      rw [hnil, List.perm_nil, List.map_eq_nil_iff] at hperm
      subst hperm
      cases hend
    · rintro ⟨hv, hsome⟩
      have hrankable := (hadmissible hv).mpr hsome
      have hsurvivors : survivors request context catalog.logicalServers ≠ [] := fun hnil =>
        hrankable (by
        unfold rankable
        rw [hnil]
        rfl)
      have hdomain : ∀ s ∈ survivors request context catalog.logicalServers, s.InDomain :=
        fun s hs => hl s (List.mem_filter.mp hs).1
      obtain ⟨result, hranked⟩ := rankBalanced_ok catalog.logicalServers.length
        (hardCount request context catalog.logicalServers) hweights hpolicy hdomain hlatency
        (by rw [hoptional, List.length_map]; exact hcount) hrankable
      rw [select_eq request context catalog hl hv, if_neg (by simp [hsurvivors])]
      have hrank : rankSurvivors request context catalog.logicalServers = .ok result := by
        unfold rankSurvivors rankCandidates
        rw [hpolicy, if_neg (by simp)]
        exact hranked
      have hperm := (rankSurvivors_spec request context catalog.logicalServers).2 result.1
        result.2 hrank
      rw [hrank]
      refine ⟨⟨result.1, result.2⟩, ?_⟩
      show conclude result = _
      unfold conclude
      rw [if_neg]
      intro hempty
      rw [List.isEmpty_iff.mp hempty] at hperm
      exact hrankable (List.nil_perm.mp hperm.1)

/-- The fastest server by the balanced policy. -/
def balancedRequest : SelectionRequest :=
  ⟨.fastest, .balanced (SystemConfig.selection {}).weights, {}⟩

/-- An observation of the online server. -/
def balancedContext : SelectionContext where
  latency := ⟨[("b", ⟨0, 20000000, by decide⟩)]⟩

theorem loaded_config_accepted_default :
    ∃ outcome, select (catalogOf swissRows) balancedRequest balancedContext = .ok outcome := by
  have hvalid : validateRequest balancedRequest balancedContext = .ok () := by decide
  have hdomain : ∀ s ∈ (catalogOf swissRows).logicalServers, s.InDomain :=
    CatalogDocument.fromBytes_inDomain swissRows_accepted
  have hobserved : InRange balancedContext.latency := by
    intro entry hentry
    rw [List.mem_singleton.mp hentry]
    decide
  refine ((loaded_config_accepted loadInner_missing).2 _ _ _ swissRows_accepted none none .fastest
    { by_ := some "balanced" } balancedRequest none _ rfl rfl (by decide)
    balancedContext hobserved).mpr ⟨hvalid, ?_⟩
  obtain ⟨s, hs, hkept⟩ : ∃ s ∈ (catalogOf swissRows).logicalServers,
      hardStage balancedRequest balancedContext s = none ∧
      dataStage balancedRequest balancedContext s = none := by decide
  exact ⟨s, hs, (admissible_iff (hdomain s hs) hvalid).mpr hkept⟩

end Config

end ProtonWire
