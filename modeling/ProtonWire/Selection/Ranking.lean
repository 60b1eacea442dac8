import ProtonWire.Selection.Pipeline

/-!
# The policies

Every policy ranks the survivors that carry the data it weights, charges the others to its data
stages, and never panics.

* `rankKey`: the key each sorting policy orders by;
* `rankOfficial_eq`, `rankLowestLatency_eq`, `rankLowestLoad_eq`: these policies are stable sorts by
  their key;
* `RanksEligible`: what a policy owes; **`rankCandidates_spec`**: every policy keeps it.
-/

namespace ProtonWire

open Fallible StableSort

/-! ## Data stages -/

section
variable (request : SelectionRequest) (context : SelectionContext)

/-- The survivors with the data the policy weights. -/
def eligible (l : List LogicalServer) : List LogicalServer :=
  l.filter fun s => dataStage request context s = none

/-- How many survivors a data stage eliminates. -/
def dataCount (l : List LogicalServer) (stage : FilterStage) : ℕ :=
  l.countP fun s => dataStage request context s = some stage

theorem dataStage_eq (s : LogicalServer) :
    dataStage request context s =
      if request.policy.WeighsLoad ∧ s.load = none then some .loadNotExposed
      else if request.policy.WeighsLatency ∧ context.latency.get s.id = none then
        some .noLatencyObservation
      else none := by
  unfold dataStage dataStages
  rw [firstViolated_cons, firstViolated_cons, firstViolated_nil]
  exact if_congr Iff.rfl rfl (if_congr Iff.rfl rfl rfl)

/-- The policy weights neither load nor latency. -/
theorem eligible_of_free (hload : ¬ request.policy.WeighsLoad)
    (hlatency : ¬ request.policy.WeighsLatency) (l : List LogicalServer) :
    eligible request context l = l ∧ ∀ stage, dataCount request context l stage = 0 := by
  have hnone : ∀ s, dataStage request context s = none := by
    intro s
    rw [dataStage_eq, if_neg fun h => hload h.1, if_neg fun h => hlatency h.1]
  constructor
  · simp [eligible, hnone]
  · simp [dataCount, hnone]

/-- The policy has one data stage. -/
theorem eligible_of_single {p : LogicalServer → Bool} {stage : FilterStage}
    (h : ∀ s, dataStage request context s = if p s then some stage else none)
    (l : List LogicalServer) (f : FilterStage → ℕ) :
    eligible request context l = l.filter (fun s => !p s) ∧
      Function.update f stage (f stage + l.countP p) = fun st =>
      f st + dataCount request context l st := by
  constructor
  · refine List.filter_congr fun s _ => ?_
    rw [h]
    cases p s <;> simp
  · funext st
    have hcount : dataCount request context l st = if st = stage then l.countP p else 0 := by
      by_cases hst : st = stage
      · rw [if_pos hst]
        refine List.countP_congr fun s _ => ?_
        rw [h, hst]
        cases p s <;> simp
      · rw [if_neg hst]
        refine List.countP_eq_zero.mpr fun s _ => ?_
        rw [h]
        cases p s <;> simp [Ne.symm hst]
    rw [hcount]
    by_cases hst : st = stage
    · subst hst
      simp
    · rw [Function.update_of_ne hst, if_neg hst]
      rfl

theorem length_eligible_single {p : LogicalServer → Bool} (l : List LogicalServer) :
    (l.filter fun s => !p s).length = l.length - l.countP p := by
  have h := List.length_eq_countP_add_countP p (l := l)
  rw [← List.countP_eq_length_filter]
  have hnot : (l.countP fun s => !p s) = l.countP fun s => ¬ p s = true :=
    List.countP_congr fun s _ => by simp
  omega

theorem mem_dataStages {s : LogicalServer} {stage : FilterStage}
    (h : dataStage request context s = some stage) : stage ∈ dataStages := by
  unfold dataStage firstViolated at h
  exact List.mem_of_find?_eq_some h

/-- A survivor has the data, lacks a load, or lacks an observation. -/
theorem length_eligible (l : List LogicalServer) :
    (eligible request context l).length + (dataCount request context l .loadNotExposed +
      dataCount request context l .noLatencyObservation) = l.length := by
  induction l with
  | nil => rfl
  | cons s l ih =>
    unfold eligible dataCount at ih ⊢
    rw [List.countP_cons, List.countP_cons, List.filter_cons, List.length_cons]
    cases hs : dataStage request context s with
    | none =>
      simp only [decide_true, if_true, List.length_cons, reduceCtorEq, decide_false,
        Bool.false_eq_true, if_false]
      omega
    | some stage =>
      have hmem := mem_dataStages request context hs
      simp only [dataStages, List.mem_cons, List.not_mem_nil, or_false] at hmem
      rcases hmem with rfl | rfl
      · simp
        omega
      · simp
        omega

theorem dataCount_of_not_mem {stage : FilterStage} (h : stage ∉ dataStages)
    (l : List LogicalServer) :
    dataCount request context l stage = 0 := by
  refine List.countP_eq_zero.mpr fun s _ hs => h ?_
  exact mem_dataStages request context (of_decide_eq_true hs)

/-- Charging the one data stage of the policy for everything it eliminates. -/
theorem charge_single {p : LogicalServer → Bool} {stage : FilterStage}
    (h : ∀ s, dataStage request context s = if p s then some stage else none)
    (l : List LogicalServer) (considered : ℕ) (f : FilterStage → ℕ) :
    EliminationReport.charge ⟨considered, l.length, FilterStage.stages.map fun st =>
      (st, f st)⟩ stage
        (l.countP p) =
      .ok ⟨considered, (eligible request context l).length, FilterStage.stages.map fun st =>
        (st, f st + dataCount request context l st)⟩ := by
  obtain ⟨heligible, hcount⟩ := eligible_of_single request context h l f
  rw [charge_eq _ _ _ _ _ List.countP_le_length, hcount, heligible, length_eligible_single]

end

/-! ## Ranked candidates -/

theorem partitionRanked_eq (rank : LogicalServer → Option RankedCandidate) (l : List LogicalServer)
    (ranked : List RankedCandidate) (missing : ℕ) :
    partitionRanked rank l ranked missing =
      (ranked ++ l.filterMap rank, missing + l.countP fun s => (rank s).isNone) := by
  induction l generalizing ranked missing with
  | nil => simp [partitionRanked]
  | cons s l ih =>
    unfold partitionRanked
    cases hs : rank s with
    | none =>
      dsimp only
      rw [ih]
      simp [hs]
      omega
    | some candidate =>
      dsimp only
      rw [ih]
      simp [hs]

theorem map_server_filterMap {rank : LogicalServer → Option RankedCandidate}
    (h : ∀ s c, rank s = some c → c.server = s) (l : List LogicalServer) :
    (l.filterMap rank).map RankedCandidate.server = l.filter fun s => !(rank s).isNone := by
  induction l with
  | nil => rfl
  | cons s l ih =>
    cases hs : rank s with
    | none => simp [hs, ih]
    | some c => simp [hs, ih, h s c hs]

theorem map_server_catalogOnly (l : List LogicalServer) :
    (l.map RankedCandidate.catalogOnly).map RankedCandidate.server = l := by
  rw [List.map_map]
  exact List.map_id l

/-! ## Keys -/

/-- The key a policy sorts by; the random policy does not sort. -/
def rankKey (policy : RankingPolicy) (c : RankedCandidate) : ℤ ×ₗ ℤ ×ₗ String :=
  match policy with
  | .official => toLex ((c.server.score.getD .maxFinite).totalKey,
      toLex (c.server.load.getD i8Max, c.server.id))
  | .latency => toLex (((c.signals.latency.map Duration.secs).getD 0 : ℕ),
      toLex (((c.signals.latency.map Duration.nanos).getD 0 : ℕ), c.server.id))
  | .lowestLoad => toLex (c.server.load.getD i8Max, toLex (0, c.server.id))
  | .balanced _ => toLex ((c.signals.weighted.map fun w => w.total.totalKey).getD 0,
      toLex (0, c.server.id))
  | .random => toLex (0, toLex (0, ""))

theorem officialCmp_eq (a b : RankedCandidate) :
    officialCmp a b = .ok (compare (rankKey .official a) (rankKey .official b)) := by
  unfold officialCmp rankKey
  rw [compare_toLex, compare_toLex]
  rfl

theorem loadCmp_eq (a b : RankedCandidate) :
    loadCmp a b = .ok (compare (rankKey .lowestLoad a) (rankKey .lowestLoad b)) := by
  unfold loadCmp rankKey
  rw [compare_toLex, compare_toLex, compare_eq_iff_eq.mpr rfl]
  rfl

theorem compare_natCast (a b : ℕ) : compare (a : ℤ) (b : ℤ) = compare a b := by
  rcases lt_trichotomy a b with h | h | h
  · rw [compare_lt_iff_lt.mpr h, compare_lt_iff_lt.mpr (by exact_mod_cast h)]
  · subst h
    rw [compare_eq_iff_eq.mpr rfl, compare_eq_iff_eq.mpr rfl]
  · rw [compare_gt_iff_gt.mpr h, compare_gt_iff_gt.mpr (by exact_mod_cast h)]

theorem latencyCmp_eq {a b : RankedCandidate} (ha : a.signals.latency.isSome = true)
    (hb : b.signals.latency.isSome = true) :
    latencyCmp a b = .ok (compare (rankKey .latency a) (rankKey .latency b)) := by
  obtain ⟨aRtt, ha⟩ := Option.isSome_iff_exists.mp ha
  obtain ⟨bRtt, hb⟩ := Option.isSome_iff_exists.mp hb
  unfold latencyCmp rankKey
  rw [ha, hb, compare_toLex, compare_toLex]
  simp only [Option.map_some, Option.getD_some, compare_natCast, Duration.cmp]
  cases compare aRtt.secs bRtt.secs <;> rfl

theorem balancedCmp_eq {a b : RankedCandidate} (weights : WeightedSignals)
    (ha : a.signals.weighted.isSome = true) (hb : b.signals.weighted.isSome = true) :
    balancedCmp a b = .ok (compare (rankKey (.balanced weights) a)
      (rankKey (.balanced weights) b)) := by
  obtain ⟨aTotal, ha⟩ := Option.isSome_iff_exists.mp ha
  obtain ⟨bTotal, hb⟩ := Option.isSome_iff_exists.mp hb
  unfold balancedCmp rankKey
  rw [ha, hb, compare_toLex, compare_toLex, compare_eq_iff_eq.mpr (rfl : (0 : ℤ) = 0)]
  rfl

/-! ## What a policy owes -/

section
variable (request : SelectionRequest) (context : SelectionContext)

/-- What a policy owes: no unexpected fault, and a success ranks the survivors with the data it
weights and charges the others. -/
def RanksEligible (l : List LogicalServer) (considered : ℕ) (f : FilterStage → ℕ)
    (result : Except Fault (List RankedCandidate × EliminationReport)) : Prop :=
  Avoids Fault.IsUnexpected result ∧
    ∀ ranked report, result = .ok (ranked, report) →
      (ranked.map RankedCandidate.server).Perm (eligible request context l) ∧
        report = ⟨considered, (eligible request context l).length, FilterStage.stages.map fun st =>
          (st, f st + dataCount request context l st)⟩

variable {request context} {l : List LogicalServer} {considered : ℕ} {f : FilterStage → ℕ}

theorem ranksEligible_error {fault : Fault} (h : ¬ fault.IsUnexpected) :
    RanksEligible request context l considered f (.error fault) :=
  ⟨avoids_error h, fun _ _ h => by cases h⟩

theorem ranksEligible_ok {ranked : List RankedCandidate} {report : EliminationReport}
    (hperm : (ranked.map RankedCandidate.server).Perm (eligible request context l))
    (hreport : report = ⟨considered, (eligible request context l).length,
      FilterStage.stages.map fun st =>
      (st, f st + dataCount request context l st)⟩) :
    RanksEligible request context l considered f (.ok (ranked, report)) :=
  ⟨avoids_ok _, fun _ _ h => by cases h; exact ⟨hperm, hreport⟩⟩

end

/-! ## The sorting policies -/

section
variable (request : SelectionRequest) (context : SelectionContext)

theorem rankOfficial_eq (l : List LogicalServer) :
    rankOfficial l =
      if 0 < l.countP (fun s => s.score.isNone) then
        .error (.refused (.officialScoreUnavailable (l.countP fun s => s.score.isNone) l.length))
      else .ok (sortKey (rankKey .official) (l.map RankedCandidate.catalogOnly)) := by
  unfold rankOfficial
  refine if_congr Iff.rfl rfl ?_
  exact sortBy_eq_sortKey _ fun a _ b _ => officialCmp_eq a b

/-- The observed survivors. -/
def observe (s : LogicalServer) : Option RankedCandidate :=
  (context.latency.get s.id).map (RankedCandidate.observed s)

theorem isNone_observe (s : LogicalServer) :
    (observe context s).isNone = (context.latency.get s.id).isNone := by
  cases h : context.latency.get s.id <;> simp [observe, h]

theorem dataStage_latency (hpolicy : request.policy = .latency) (s : LogicalServer) :
    dataStage request context s =
      if (observe context s).isNone then some .noLatencyObservation else none := by
  rw [dataStage_eq, hpolicy, isNone_observe]
  simp [RankingPolicy.WeighsLoad, RankingPolicy.WeighsLatency]

theorem rankLowestLatency_eq (hpolicy : request.policy = .latency) (l : List LogicalServer)
    (considered : ℕ) (f : FilterStage → ℕ) :
    rankLowestLatency l context ⟨considered, l.length, FilterStage.stages.map fun st =>
      (st, f st)⟩ =
      if context.latency.isEmpty then .error (.refused (.latencyDataUnavailable .one))
      else .ok (sortKey (rankKey .latency) (l.filterMap (observe context)),
        ⟨considered, (eligible request context l).length, FilterStage.stages.map fun st =>
          (st, f st + dataCount request context l st)⟩) := by
  unfold rankLowestLatency
  refine if_congr Iff.rfl rfl ?_
  have hpart := partitionRanked_eq (observe context) l [] 0
  rw [List.nil_append, Nat.zero_add] at hpart
  have hcharge := charge_single request context (dataStage_latency request context hpolicy)
    l considered f
  have hsort : sortBy latencyCmp (l.filterMap (observe context)) =
      .ok (sortKey (rankKey .latency) (l.filterMap (observe context))) := by
    have hsome : ∀ c ∈ l.filterMap (observe context), c.signals.latency.isSome = true := by
      intro c hc
      obtain ⟨s, -, hs⟩ := List.mem_filterMap.mp hc
      obtain ⟨rtt, -, rfl⟩ := Option.map_eq_some_iff.mp hs
      rfl
    exact sortBy_eq_sortKey _ fun a ha b hb => latencyCmp_eq (hsome a ha) (hsome b hb)
  unfold observe at hpart hcharge hsort ⊢
  rw [hpart]
  dsimp only
  rw [hcharge]
  dsimp only [bind, Except.bind]
  rw [hsort]
  rfl

/-- The survivors with a load. -/
def loaded (s : LogicalServer) : Option RankedCandidate :=
  s.load.map fun _ => RankedCandidate.catalogOnly s

theorem dataStage_lowestLoad (hpolicy : request.policy = .lowestLoad) (s : LogicalServer) :
    dataStage request context s = if (loaded s).isNone then some .loadNotExposed else none := by
  rw [dataStage_eq, hpolicy]
  cases h : s.load <;> simp [loaded, h, RankingPolicy.WeighsLoad, RankingPolicy.WeighsLatency]

theorem rankLowestLoad_eq (hpolicy : request.policy = .lowestLoad) (l : List LogicalServer)
    (considered : ℕ) (f : FilterStage → ℕ) :
    rankLowestLoad l ⟨considered, l.length, FilterStage.stages.map fun st => (st, f st)⟩ =
      .ok (sortKey (rankKey .lowestLoad) (l.filterMap loaded),
        ⟨considered, (eligible request context l).length, FilterStage.stages.map fun st =>
          (st, f st + dataCount request context l st)⟩) := by
  have hpart := partitionRanked_eq loaded l [] 0
  rw [List.nil_append, Nat.zero_add] at hpart
  have hcharge := charge_single request context (dataStage_lowestLoad request context hpolicy)
    l considered f
  have hsort : sortBy loadCmp (l.filterMap loaded) =
      .ok (sortKey (rankKey .lowestLoad) (l.filterMap loaded)) :=
    sortBy_eq_sortKey _ fun a _ b _ => loadCmp_eq a b
  unfold loaded at hpart hcharge hsort ⊢
  unfold rankLowestLoad
  rw [hpart]
  dsimp only
  rw [hcharge]
  dsimp only [bind, Except.bind]
  rw [hsort]
  rfl

/-! ## The balanced policy -/

theorem dataStage_balanced {weights : WeightedSignals}
    (hpolicy : request.policy = .balanced weights) (s : LogicalServer) :
    dataStage request context s =
      if positiveWeight weights.load && s.load.isNone then some .loadNotExposed
      else if positiveWeight weights.latency && (context.latency.get s.id).isNone then
        some .noLatencyObservation
      else none := by
  rw [dataStage_eq, hpolicy]
  refine if_congr ?_ rfl (if_congr ?_ rfl rfl)
  · simp [RankingPolicy.WeighsLoad]
  · simp [RankingPolicy.WeighsLatency]

theorem balancedPool_eq {weights : WeightedSignals} (hpolicy : request.policy = .balanced weights)
    (l pool : List LogicalServer) (noLoad noLatency : ℕ) :
    balancedPool weights context l pool noLoad noLatency =
      (pool ++ eligible request context l, noLoad + dataCount request context l .loadNotExposed,
        noLatency + dataCount request context l .noLatencyObservation) := by
  induction l generalizing pool noLoad noLatency with
  | nil => simp [balancedPool, eligible, dataCount]
  | cons s l ih =>
    have hs := dataStage_balanced request context hpolicy s
    unfold balancedPool
    by_cases hload : (positiveWeight weights.load && s.load.isNone) = true
    · rw [if_pos hload] at hs ⊢
      rw [ih]
      simp [eligible, dataCount, hs]
      omega
    · rw [if_neg hload] at hs ⊢
      by_cases hlatency : (positiveWeight weights.latency &&
        (context.latency.get s.id).isNone) = true
      · rw [if_pos hlatency] at hs ⊢
        rw [ih]
        simp [eligible, dataCount, hs]
        omega
      · rw [if_neg hlatency] at hs ⊢
        rw [ih]
        simp [eligible, dataCount, hs]

/-- The two charges of the balanced policy. -/
theorem charge_balanced (l : List LogicalServer) (considered : ℕ) (f : FilterStage → ℕ) :
    (EliminationReport.charge ⟨considered, l.length, FilterStage.stages.map fun st => (st, f st)⟩
        .loadNotExposed (dataCount request context l .loadNotExposed) >>= fun report =>
      report.charge .noLatencyObservation (dataCount request context l .noLatencyObservation)) =
      .ok ⟨considered, (eligible request context l).length, FilterStage.stages.map fun st =>
        (st, f st + dataCount request context l st)⟩ := by
  have hlen := length_eligible request context l
  rw [charge_eq _ _ _ _ _ (by omega)]
  show EliminationReport.charge _ _ _ = _
  rw [charge_eq _ _ _ _ _ (by omega)]
  refine congrArg Except.ok ?_
  rw [EliminationReport.mk.injEq]
  refine ⟨rfl, by omega, List.map_congr_left fun st _ => ?_⟩
  by_cases hlatency : st = .noLatencyObservation
  · subst hlatency
    simp
  · rw [Function.update_of_ne hlatency]
    by_cases hload : st = .loadNotExposed
    · subst hload
      simp
    · rw [Function.update_of_ne hload, dataCount_of_not_mem request context
        (by simp [dataStages, *])]
      rfl

theorem balancedCandidate_eq_ok {weights : WeightedSignals} {longest : Binary32} {s : LogicalServer}
    {c : RankedCandidate} (h : balancedCandidate weights request context longest s = .ok c) :
    c.server = s ∧ c.signals.weighted.isSome = true := by
  unfold balancedCandidate at h
  dsimp only at h
  split_ifs at h
  cases h
  exact ⟨rfl, rfl⟩

theorem avoids_balancedCandidate (weights : WeightedSignals) (longest : Binary32)
    (s : LogicalServer) :
    Avoids Fault.IsUnexpected (balancedCandidate weights request context longest s) := by
  unfold balancedCandidate
  dsimp only
  split_ifs
  · exact avoids_ok _
  · exact avoids_error id

theorem rankBalanced_spec {weights : WeightedSignals} (hpolicy : request.policy = .balanced weights)
    (l : List LogicalServer) (considered : ℕ) (f : FilterStage → ℕ) :
    RanksEligible request context l considered f (rankBalanced l weights request context
      ⟨considered, l.length, FilterStage.stages.map fun st => (st, f st)⟩) := by
  have hpool := balancedPool_eq request context hpolicy l [] 0 0
  rw [List.nil_append, Nat.zero_add, Nat.zero_add] at hpool
  obtain ⟨report₁, hload, hlatency⟩ := bind_eq_ok.mp
    (charge_balanced request context l considered f)
  have hsort : ∀ ranked, (eligible request context l).mapM
    (balancedCandidate weights request context
      (maxLatency (eligible request context l) context)) = .ok ranked →
      sortBy balancedCmp ranked = .ok (sortKey (rankKey (.balanced weights)) ranked) := by
    intro ranked hranked
    have hsome : ∀ c ∈ ranked, c.signals.weighted.isSome = true := fun c hc => by
      obtain ⟨s, -, hs⟩ := mem_of_mapM_eq_ok hranked hc
      exact (balancedCandidate_eq_ok request context hs).2
    exact sortBy_eq_sortKey _ fun a ha b hb => balancedCmp_eq weights (hsome a ha) (hsome b hb)
  unfold rankBalanced
  split_ifs
  · exact ranksEligible_error id
  · exact ranksEligible_error id
  · rw [hpool]
    dsimp only
    rw [hload]
    dsimp only [bind, Except.bind]
    rw [hlatency]
    dsimp only
    constructor
    · refine avoids_bind (avoids_mapM _ fun s _ =>
        avoids_balancedCandidate request context _ _ s) ?_
      intro ranked hranked
      rw [hsort ranked hranked]
      exact avoids_ok _
    · intro ranked report h
      obtain ⟨rows, hrows, h⟩ := bind_eq_ok.mp h
      rw [hsort rows hrows] at h
      cases h
      have hmap : rows.map RankedCandidate.server = eligible request context l := by
        have hall := (mapM_eq_ok hrows).imp fun s c hs =>
          (balancedCandidate_eq_ok request context hs).1.symm
        exact (List.forall₂_eq_eq_eq ▸ List.forall₂_map_right_iff.mpr hall :
          eligible request context l = rows.map RankedCandidate.server).symm
      exact ⟨hmap ▸ (sortKey_perm _ rows).map _, rfl⟩

end

/-! ## The random policy -/

theorem SeededDraw.below_lt (rng : SeededDraw) (bound : ℕ) (h : 0 < bound) :
    (rng.below bound).1 < bound := Nat.mod_lt _ h

theorem fisherYates_ok {α : Type} (items : Array α) (rng : SeededDraw) :
    ∃ items' rng', fisherYates items rng = .ok (items', rng') ∧ items'.Perm items :=
  FisherYates.shuffle_ok SeededDraw.below_lt items rng

theorem pushCountry_perm (country : String) (s : LogicalServer)
    (groups : List (String × List LogicalServer)) :
    ((pushCountry country s groups).flatMap Prod.snd).Perm (groups.flatMap Prod.snd ++ [s]) := by
  induction groups with
  | nil => exact .refl _
  | cons group rest ih =>
    obtain ⟨c, servers⟩ := group
    unfold pushCountry
    cases compare country c with
    | lt => exact (List.perm_append_singleton s _).symm
    | eq =>
      simp only [List.flatMap_cons, List.append_assoc]
      exact List.perm_append_comm.append_left servers
    | gt =>
      simp only [List.flatMap_cons, List.append_assoc]
      exact ih.append_left servers

theorem groupByCountry_perm (l : List LogicalServer) :
    ((groupByCountry l).flatMap Prod.snd).Perm l := by
  suffices h : ∀ groups : List (String × List LogicalServer),
      ((l.foldl (fun groups s => pushCountry s.exitCountry s groups) groups).flatMap Prod.snd).Perm
        (groups.flatMap Prod.snd ++ l) from h []
  induction l with
  | nil => intro groups; simp
  | cons s l ih =>
    intro groups
    refine (ih _).trans (((pushCountry_perm s.exitCountry s groups).append_right l).trans ?_)
    simp

theorem shuffleCountries_ok (groups : List (String × List LogicalServer)) (rng : SeededDraw) :
    ∃ ranked, shuffleCountries groups rng = .ok ranked ∧
      (ranked.map RankedCandidate.server).Perm (groups.flatMap Prod.snd) := by
  induction groups generalizing rng with
  | nil => exact ⟨[], rfl, .refl _⟩
  | cons group rest ih =>
    obtain ⟨c, servers⟩ := group
    obtain ⟨shuffled, rng', hshuffle, hperm⟩ := fisherYates_ok servers.toArray rng
    obtain ⟨ranked, hrest, hranked⟩ := ih rng'
    refine ⟨shuffled.toList.map RankedCandidate.catalogOnly ++ ranked, ?_, ?_⟩
    · unfold shuffleCountries
      rw [hshuffle]
      dsimp only [bind, Except.bind]
      rw [hrest]
      rfl
    · rw [List.map_append, map_server_catalogOnly, List.flatMap_cons]
      exact hperm.toList.append hranked

theorem rankRandom_ok (l : List LogicalServer) (entropy : UInt64) :
    ∃ ranked, rankRandom l entropy = .ok ranked ∧ (ranked.map RankedCandidate.server).Perm l := by
  obtain ⟨countries, rng, hshuffle, hperm⟩ := fisherYates_ok (groupByCountry l).toArray ⟨entropy⟩
  obtain ⟨ranked, hranked, hservers⟩ := shuffleCountries_ok countries.toList rng
  refine ⟨ranked, ?_, hservers.trans ((hperm.toList.flatMap_right _).trans (groupByCountry_perm l))⟩
  unfold rankRandom
  rw [hshuffle]
  exact hranked

/-! ## Every policy -/

section
variable {request : SelectionRequest} {context : SelectionContext} {l : List LogicalServer}
  {considered : ℕ} {f : FilterStage → ℕ}

/-- A policy without data stages leaves the report as it is. -/
theorem ranksEligible_free (hload : ¬ request.policy.WeighsLoad)
    (hlatency : ¬ request.policy.WeighsLatency)
    {ranked : List RankedCandidate} (hperm : (ranked.map RankedCandidate.server).Perm l) :
    RanksEligible request context l considered f
      (.ok (ranked, ⟨considered, l.length, FilterStage.stages.map fun st => (st, f st)⟩)) := by
  obtain ⟨heligible, hcount⟩ := eligible_of_free request context hload hlatency l
  refine ranksEligible_ok (by rw [heligible]; exact hperm) ?_
  simp only [heligible, hcount, Nat.add_zero]

theorem server_observe {s : LogicalServer} {c : RankedCandidate} (h : observe context s = some c) :
    c.server = s := by
  obtain ⟨rtt, -, rfl⟩ := Option.map_eq_some_iff.mp h
  rfl

theorem server_loaded {s : LogicalServer} {c : RankedCandidate} (h : loaded s = some c) :
    c.server = s := by
  obtain ⟨load, -, rfl⟩ := Option.map_eq_some_iff.mp h
  rfl

/-- Sorting what one data stage keeps. -/
theorem ranksEligible_sorted {rank : LogicalServer → Option RankedCandidate} {stage : FilterStage}
    (hserver : ∀ s c, rank s = some c → c.server = s)
    (hstage : ∀ s, dataStage request context s = if (rank s).isNone then some stage else none)
    (policy : RankingPolicy) :
    RanksEligible request context l considered f (.ok (sortKey (rankKey policy) (l.filterMap rank),
      ⟨considered, (eligible request context l).length, FilterStage.stages.map fun st =>
        (st, f st + dataCount request context l st)⟩)) := by
  refine ranksEligible_ok ?_ rfl
  rw [(eligible_of_single request context hstage l f).1, ← map_server_filterMap hserver]
  exact (sortKey_perm _ _).map _

/-- **Every policy** ranks the survivors with the data it weights, charges the others to its data
stages, and never panics. -/
theorem rankCandidates_spec (request : SelectionRequest) (context : SelectionContext)
    (l : List LogicalServer) (considered : ℕ) (f : FilterStage → ℕ) :
    RanksEligible request context l considered f (rankCandidates l request context
      ⟨considered, l.length, FilterStage.stages.map fun st => (st, f st)⟩) := by
  unfold rankCandidates
  cases hpolicy : request.policy with
  | official =>
    dsimp only
    rw [rankOfficial_eq]
    by_cases hlacking : 0 < l.countP fun s => s.score.isNone
    · rw [if_pos hlacking]
      exact ranksEligible_error id
    · rw [if_neg hlacking]
      refine ranksEligible_free (by simp [hpolicy, RankingPolicy.WeighsLoad])
        (by simp [hpolicy, RankingPolicy.WeighsLatency]) ?_
      have hperm := (sortKey_perm (rankKey .official) (l.map RankedCandidate.catalogOnly)).map
        RankedCandidate.server
      rwa [map_server_catalogOnly] at hperm
  | latency =>
    dsimp only
    rw [rankLowestLatency_eq request context hpolicy]
    by_cases hempty : context.latency.isEmpty = true
    · rw [if_pos hempty]
      exact ranksEligible_error id
    · rw [if_neg hempty]
      exact ranksEligible_sorted (fun _ _ => server_observe)
        (dataStage_latency request context hpolicy) _
  | lowestLoad =>
    dsimp only
    rw [rankLowestLoad_eq request context hpolicy]
    exact ranksEligible_sorted (fun _ _ => server_loaded)
      (dataStage_lowestLoad request context hpolicy) _
  | balanced weights => exact rankBalanced_spec request context hpolicy l considered f
  | random =>
    cases context.randomEntropy with
    | none => exact ranksEligible_error id
    | some entropy =>
      obtain ⟨ranked, hranked, hperm⟩ := rankRandom_ok l entropy
      dsimp only
      rw [hranked]
      exact ranksEligible_free (by simp [hpolicy, RankingPolicy.WeighsLoad])
        (by simp [hpolicy, RankingPolicy.WeighsLatency]) hperm

end

end ProtonWire
