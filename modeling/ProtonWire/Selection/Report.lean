import ProtonWire.Selection.Select

/-!
# The elimination report

The stage table lists the exclusions of a route's ends before those by state, city and server name;
the chain evaluates them after. An entry that only these exclusions eliminate, and both kinds of
them, is charged to another stage than the table's first.

* `Accounts`: what the report of a run owes, each entry charged to the first stage of the table that
  it violates;
* `Shadowed`: an entry on which the two orders disagree;
* **`report_accounts_iff`**: the report that `select` carries keeps its accounts exactly when no
  entry of the catalog is shadowed.
-/

namespace ProtonWire

/-! ## Counting by stage -/

theorem countP_lt_countP {α : Type} {p q : α → Bool} {l : List α}
    (h : ∀ a ∈ l, p a = true → q a = true)
    {a : α} (ha : a ∈ l) (hq : q a = true) (hp : ¬ p a = true) : l.countP p < l.countP q := by
  induction l with
  | nil => cases ha
  | cons b l ih =>
    have htail : ∀ c ∈ l, p c = true → q c = true := fun c hc => h c (List.mem_cons_of_mem _ hc)
    rw [List.countP_cons, List.countP_cons]
    rcases List.mem_cons.mp ha with rfl | ha
    · have := List.countP_mono_left htail
      rw [if_neg hp, if_pos hq]
      omega
    · have := ih htail ha
      by_cases hb : p b = true
      · rw [if_pos hb, if_pos (h b List.mem_cons_self hb)]
        omega
      · rw [if_neg hb]
        omega

theorem sum_stage_indicator (stage : FilterStage) :
    (FilterStage.stages.map fun st => if stage = st then 1 else 0).sum = 1 := by
  cases stage <;> rfl

theorem sum_countP_stages (f : LogicalServer → Option FilterStage) (l : List LogicalServer) :
    (l.filter fun s => f s = none).length +
      (FilterStage.stages.map fun stage => l.countP fun s => f s = some stage).sum = l.length := by
  induction l with
  | nil => simp
  | cons s l ih =>
    have hsum : (FilterStage.stages.map fun stage => (s :: l).countP fun s =>
      f s = some stage).sum =
        (FilterStage.stages.map fun stage => l.countP fun s => f s = some stage).sum +
          (FilterStage.stages.map fun stage => if f s = some stage then 1 else 0).sum := by
      rw [← List.sum_map_add]
      refine congrArg List.sum (List.map_congr_left fun stage _ => ?_)
      rw [List.countP_cons]
      simp only [decide_eq_true_eq]
    rw [hsum, List.filter_cons, List.length_cons]
    cases hs : f s with
    | none =>
      simp only [decide_true, if_true, List.length_cons, reduceCtorEq, if_false]
      simp only [List.map_const', List.sum_replicate, smul_zero]
      omega
    | some stage =>
      simp only [reduceCtorEq, decide_false, Bool.false_eq_true, if_false, Option.some.injEq,
        sum_stage_indicator]
      omega

/-! ## The two orders -/

section
variable (request : SelectionRequest) (context : SelectionContext) (s : LogicalServer)

/-- The stage the code charges an entry to: a hard filter, or a data stage of the policy. -/
def chargedStage : Option FilterStage :=
  (hardStage request context s).or (dataStage request context s)

/-- The first stage of the table that the entry violates. -/
def tableStage : Option FilterStage := firstViolated request context s FilterStage.stages

/-- The entry passes every stage up to the country exclusion, and violates both an exclusion by
state, city or name and an exclusion of an end of the route. -/
structure Shadowed : Prop where
  gates : ∀ stage ∈ gateStages, ¬ Violates request context s stage
  place : ∃ stage ∈ placeStages, Violates request context s stage
  route : ∃ stage ∈ routeStages, Violates request context s stage

theorem chargedStage_eq : chargedStage request context s =
    (firstViolated request context s gateStages).or
    ((firstViolated request context s placeStages).or
      ((firstViolated request context s routeStages).or
        (firstViolated request context s (capabilityStages ++ dataStages)))) := by
  unfold chargedStage hardStage dataStage chainOrder
  simp only [firstViolated_append, Option.or_assoc]

theorem tableStage_eq : tableStage request context s =
    (firstViolated request context s gateStages).or
    ((firstViolated request context s routeStages).or
      ((firstViolated request context s placeStages).or
        (firstViolated request context s (capabilityStages ++ dataStages)))) := by
  have habsent : ∀ order, firstViolated request context s (.absentFromCatalog :: order) =
      firstViolated request context s order := fun order => by
    rw [firstViolated_cons]
    exact if_neg id
  simp only [← firstViolated_append]
  show firstViolated request context s ([.accountTier, .unknownStatus, .offline,
    .allPhysicalsOffline] ++
    .absentFromCatalog :: _) = _
  rw [firstViolated_append, habsent, ← firstViolated_append]
  rfl

variable {request context s}

theorem firstViolated_eq_some {order : List FilterStage} {stage : FilterStage}
    (h : firstViolated request context s order = some stage) :
    stage ∈ order ∧ Violates request context s stage := by
  unfold firstViolated at h
  have hviolates := List.find?_some h
  exact ⟨List.mem_of_find?_eq_some h, of_decide_eq_true hviolates⟩

theorem exists_firstViolated {order : List FilterStage}
    (h : ∃ stage ∈ order, Violates request context s stage) :
    ∃ stage ∈ order, firstViolated request context s order = some stage := by
  obtain ⟨violated, hmem, hviolates⟩ := h
  cases hfirst : firstViolated request context s order with
  | none =>
    exact absurd hviolates ((firstViolated_eq_none request context s).mp hfirst violated hmem)
  | some stage => exact ⟨stage, (firstViolated_eq_some hfirst).1, rfl⟩

theorem chargedStage_eq_tableStage (h : ¬ Shadowed request context s) :
    chargedStage request context s = tableStage request context s := by
  rw [chargedStage_eq, tableStage_eq]
  cases hg : firstViolated request context s gateStages with
  | some stage => rfl
  | none =>
    rw [Option.none_or, Option.none_or]
    cases hp : firstViolated request context s placeStages with
    | none => rw [Option.none_or, Option.none_or]
    | some place =>
      cases hr : firstViolated request context s routeStages with
      | none => rfl
      | some route =>
        exact absurd ⟨(firstViolated_eq_none request context s).mp hg,
          ⟨place, firstViolated_eq_some hp⟩, ⟨route, firstViolated_eq_some hr⟩⟩ h

theorem Shadowed.charged (h : Shadowed request context s) :
    ∃ stage ∈ placeStages, chargedStage request context s = some stage := by
  obtain ⟨stage, hmem, hfirst⟩ := exists_firstViolated h.place
  refine ⟨stage, hmem, ?_⟩
  rw [chargedStage_eq, (firstViolated_eq_none request context s).mpr h.gates, hfirst]
  rfl

theorem Shadowed.tabled (h : Shadowed request context s) :
    ∃ stage ∈ routeStages, tableStage request context s = some stage := by
  obtain ⟨stage, hmem, hfirst⟩ := exists_firstViolated h.route
  refine ⟨stage, hmem, ?_⟩
  rw [tableStage_eq, (firstViolated_eq_none request context s).mpr h.gates, hfirst]
  rfl

/-- The code never charges a shadowed entry to an end of its route. -/
theorem Shadowed.charged_ne (h : Shadowed request context s) {stage : FilterStage}
    (hstage : stage ∈ routeStages) : chargedStage request context s ≠ some stage := by
  obtain ⟨charged, hplace, hcharged⟩ := h.charged
  rw [hcharged]
  rintro ⟨⟩
  revert hplace hstage
  cases stage <;> decide

end

/-! ## Accounts -/

section
variable (request : SelectionRequest) (context : SelectionContext)

/-- What the report of a run over `l` with `ranked` results owes. -/
structure Accounts (l : List LogicalServer) (ranked : ℕ) (report : EliminationReport) : Prop where
  considered : report.considered = l.length
  survivors : report.survivors = ranked
  sum : report.considered = report.survivors + (report.stages.map Prod.snd).sum
  stages : report.stages = FilterStage.stages.map fun stage =>
    (stage, l.countP fun s => tableStage request context s = some stage)

theorem hardCount_add_dataCount (l : List LogicalServer) (stage : FilterStage) :
    hardCount request context l stage + dataCount request context
      (survivors request context l) stage =
      l.countP fun s => chargedStage request context s = some stage := by
  unfold hardCount dataCount survivors chargedStage
  induction l with
  | nil => rfl
  | cons s l ih =>
    rw [List.countP_cons, List.countP_cons, List.filter_cons, ← ih]
    cases hardStage request context s with
    | none =>
      by_cases hdata : dataStage request context s = some stage
      · simp [hdata]
        omega
      · simp [hdata]
    | some stage' =>
      simp
      omega

theorem rankable_eq_chargedStage (l : List LogicalServer) :
    rankable request context l = l.filter fun s => chargedStage request context s = none := by
  rw [rankable_eq_filter]
  refine List.filter_congr fun s _ => ?_
  exact decide_eq_decide.mpr Option.or_eq_none_iff.symm

/-- The final report charges each entry to its stage of the chain. -/
theorem finalReport_eq (l : List LogicalServer) :
    finalReport request context l = ⟨l.length, (rankable request context l).length,
      FilterStage.stages.map fun stage =>
        (stage, l.countP fun s => chargedStage request context s = some stage)⟩ := by
  unfold finalReport
  simp only [hardCount_add_dataCount]

theorem finalReport_accounts_iff (l : List LogicalServer) :
    Accounts request context l (rankable request context l).length (finalReport request context l) ↔
      ∀ s ∈ l, ¬ Shadowed request context s := by
  rw [finalReport_eq]
  constructor
  · intro h s hs hshadowed
    obtain ⟨stage, hstage, htable⟩ := hshadowed.tabled
    have hcount := List.map_inj_left.mp h.stages stage (mem_stages stage)
    -- the table's stage counts this entry on top of all that the chain counts there
    have hlt : (l.countP fun s => chargedStage request context s = some stage) <
        l.countP fun s => tableStage request context s = some stage := by
      refine countP_lt_countP (fun s' _ hcharged => ?_) hs (decide_eq_true htable) ?_
      · have hcharged := of_decide_eq_true hcharged
        refine decide_eq_true ?_
        rw [← chargedStage_eq_tableStage fun h' => h'.charged_ne hstage hcharged]
        exact hcharged
      · exact fun hcharged => hshadowed.charged_ne hstage (of_decide_eq_true hcharged)
    exact absurd (congrArg Prod.snd hcount) (ne_of_lt hlt)
  · intro h
    refine ⟨rfl, rfl, ?_, ?_⟩
    · have hsum := sum_countP_stages (chargedStage request context) l
      rw [← rankable_eq_chargedStage] at hsum
      rw [List.map_map]
      exact hsum.symm
    · refine List.map_congr_left fun stage _ => ?_
      refine congrArg (Prod.mk stage) (List.countP_congr fun s hs => ?_)
      rw [chargedStage_eq_tableStage (h s hs)]

end

/-- The report a result carries, with the length of its ranking. -/
def carriedReport : Except Fault SelectionOutcome → Option (EliminationReport × ℕ)
  | .ok outcome => some (outcome.report, outcome.ranked.length)
  | .error (.refused (.constraintsNotSatisfied report)) => some (report, 0)
  | .error _ => none

theorem carriedReport_eq_some {request : SelectionRequest} {context : SelectionContext}
    {doc : CatalogDocument} (hl : ∀ s ∈ doc.logicalServers, s.InDomain) {report : EliminationReport}
    {ranked : ℕ} (h : carriedReport (select doc request context) = some (report, ranked)) :
    report = finalReport request context doc.logicalServers ∧
      ranked = (rankable request context doc.logicalServers).length := by
  unfold carriedReport at h
  split at h
  · next outcome hok =>
    cases h
    obtain ⟨-, hperm, hreport⟩ := select_ok hl hok
    exact ⟨hreport, by rw [← hperm.length_eq, List.length_map]⟩
  · next herror =>
    cases h
    obtain ⟨-, hnone, hreport⟩ := select_unsatisfied hl herror
    exact ⟨hreport, by rw [hnone]; rfl⟩
  · cases h

/-- **The report keeps its accounts exactly when no entry is shadowed**, and no charge
underflows. -/
theorem report_accounts_iff (J : Serde) (body : ByteArray) (doc : CatalogDocument)
    (request : SelectionRequest) (context : SelectionContext)
    (h : CatalogDocument.fromBytes J body = .ok doc) :
    (∀ message, select doc request context ≠ .error (.panic message)) ∧
      ∀ report ranked, carriedReport (select doc request context) = some (report, ranked) →
        (Accounts request context doc.logicalServers ranked report ↔
          ∀ s ∈ doc.logicalServers, ¬ Shadowed request context s) := by
  have hl := CatalogDocument.fromBytes_inDomain h
  refine ⟨select_not_panic hl, fun report ranked hcarried => ?_⟩
  obtain ⟨rfl, rfl⟩ := carriedReport_eq_some hl hcarried
  exact finalReport_accounts_iff request context doc.logicalServers

/-- Two Secure Core routes out of Sweden. -/
def routeRows : List CatalogRow :=
  [⟨"a", "SE-CH#1", "SE", "CH", "ZH", true⟩, ⟨"b", "SE-US#1", "SE", "US", "CA", true⟩]

theorem routeRows_accepted :
    CatalogDocument.fromBytes (serdeOf [routeRows])
      (bodyOf routeRows) = .ok (catalogOf routeRows) :=
  fromBytes_bodyOf (List.find?_cons_of_pos (by simp)) (by decide +kernel) (by decide)
  (by decide) rfl

/-- The least loaded route, outside some states and entry countries. -/
def routeRequest (states entries : List String) : SelectionRequest :=
  ⟨.secureCore none none, .lowestLoad,
    { excludedStates := states, excludedEntryCountries := entries }⟩

theorem report_accounts_iff_zurich :
    ∃ report, carriedReport (select (catalogOf routeRows) (routeRequest ["zh"] []) {}) =
      some (report, 1) ∧
      Accounts (routeRequest ["zh"] []) {} (catalogOf routeRows).logicalServers 1 report := by
  have hfree : ∀ s ∈ (catalogOf routeRows).logicalServers,
    ¬ Shadowed (routeRequest ["zh"] []) {} s :=
    fun s _ hs => by simpa [routeStages, Violates, routeRequest] using hs.route
  obtain ⟨report, hcarried⟩ : ∃ report,
      carriedReport (select (catalogOf routeRows) (routeRequest ["zh"] []) {}) =
      some (report, 1) := ⟨_, rfl⟩
  exact ⟨report, hcarried,
    ((report_accounts_iff _ _ _ (routeRequest ["zh"] []) {} routeRows_accepted).2
    report 1 hcarried).mpr hfree⟩

/-- Both routes enter through Sweden and one also exits in an excluded state: the chain charges it
to the state, the table to the entry country. -/
theorem report_mischarges_sweden :
    CatalogDocument.fromBytes (serdeOf [routeRows]) (bodyOf routeRows) = .ok (catalogOf routeRows) ∧
      ∃ report, carriedReport (select (catalogOf routeRows) (routeRequest ["ZH"] ["SE"]) {}) =
          some (report, 0) ∧
        ¬ Accounts (routeRequest ["ZH"] ["SE"]) {}
          (catalogOf routeRows).logicalServers 0 report := by
  refine ⟨routeRows_accepted, _, rfl, fun h => ?_⟩
  exact absurd h.stages (by decide)

end ProtonWire
