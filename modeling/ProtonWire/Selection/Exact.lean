import ProtonWire.Selection.Select

/-!
# Exact targets

What `select` answers to a request for one server or one gateway.

* `EliminatedAt`: the stage that eliminates an entry, a hard filter or a data stage of the policy;
* `ExactAnswer`: only entries of the name are ranked, and where each of them is eliminated the
  refusal names the target and a stage that eliminates one of them;
* **`select_exactAnswer_iff`**: `select` answers so exactly if, where each matching entry is
  eliminated, each is eliminated by a hard filter;
* **`unobserved_exact_server`**: an exact server without an observation is refused without its name.
-/

namespace ProtonWire

open Fallible StableSort

/-! ## Answers -/

section
variable (request : SelectionRequest) (context : SelectionContext)

/-- The entry is eliminated at a stage: the first hard filter it violates, or else the first data
stage of the policy. -/
def EliminatedAt (s : LogicalServer) (stage : FilterStage) : Prop :=
  hardStage request context s = some stage ∨
    hardStage request context s = none ∧ dataStage request context s = some stage

/-- Nothing of the request is refused before the catalog is looked at. -/
structure ValidRequest : Prop where
  constraints : validateRequest request context = .ok ()
  weights : ∀ weights, request.policy = .balanced weights → weights.isValid = true

/-- What the result of an exact request says. -/
structure ExactAnswer (l : List LogicalServer) (result : Except Fault SelectionOutcome) : Prop where
  ranked : ∀ outcome, result = .ok outcome →
    ∀ c ∈ outcome.ranked, request.target.RightPlace c.server
  refused : ValidRequest request context → (∃ s ∈ l, request.target.RightPlace s) →
    (∀ s ∈ l, request.target.RightPlace s → ∃ stage, EliminatedAt request context s stage) →
    ∃ stage, result =
      .error (.refused (.exactServerUnavailable (request.target.exactName.getD "") stage)) ∧
      ∃ s ∈ l, request.target.RightPlace s ∧ EliminatedAt request context s stage

/-- Where each matching entry is eliminated, each is eliminated by a hard filter. -/
def RefusedByFilters (l : List LogicalServer) : Prop :=
  ValidRequest request context →
    (∀ s ∈ l, request.target.RightPlace s → ∃ stage, EliminatedAt request context s stage) →
    ∀ s ∈ l, request.target.RightPlace s → hardStage request context s ≠ none

end

/-! ## The refusal of an exact target -/

/-- The refusal of an exact target. -/
def Fault.IsExactRefusal (fault : Fault) : Prop :=
  ∃ name stage, fault = .refused (.exactServerUnavailable name stage)

theorem avoids_insertBy {α : Type} {bad : Fault → Prop} {cmp : α → α → Except Fault Ordering}
    (h : ∀ a b, Avoids bad (cmp a b)) (a : α) (l : List α) : Avoids bad (insertBy cmp a l) := by
  induction l with
  | nil => exact avoids_ok _
  | cons b l ih =>
    unfold insertBy
    refine avoids_bind (h a b) fun ordering _ => ?_
    cases ordering with
    | gt => exact avoids_bind ih fun _ _ => avoids_ok _
    | lt => exact avoids_ok _
    | eq => exact avoids_ok _

theorem avoids_sortBy {α : Type} {bad : Fault → Prop} {cmp : α → α → Except Fault Ordering}
    (h : ∀ a b, Avoids bad (cmp a b)) (l : List α) : Avoids bad (sortBy cmp l) := by
  induction l with
  | nil => exact avoids_ok _
  | cons a l ih =>
    unfold sortBy
    exact avoids_bind ih fun sorted _ => avoids_insertBy h a sorted

section
variable {request : SelectionRequest} {context : SelectionContext}

theorem not_isExactRefusal_panic (message : String) : ¬ (Fault.panic message).IsExactRefusal := by
  rintro ⟨name, stage, h⟩
  cases h

theorem avoids_charge (report : EliminationReport) (stage : FilterStage) (count : ℕ) :
    Avoids Fault.IsExactRefusal (report.charge stage count) := by
  unfold EliminationReport.charge
  split_ifs
  · exact avoids_ok _
  · exact avoids_error (not_isExactRefusal_panic _)
  · exact avoids_ok _

theorem avoids_balancedCmp (a b : RankedCandidate) :
    Avoids Fault.IsExactRefusal (balancedCmp a b) := by
  unfold balancedCmp
  split
  · exact avoids_ok _
  · exact avoids_error (not_isExactRefusal_panic _)

theorem avoids_rankSurvivors (l : List LogicalServer) :
    Avoids Fault.IsExactRefusal (rankSurvivors request context l) := by
  unfold rankSurvivors
  split_ifs
  · exact avoids_ok _
  unfold rankCandidates hardReport
  cases hpolicy : request.policy with
  | official =>
    dsimp only
    rw [rankOfficial_eq]
    split_ifs
    · exact avoids_error (by rintro ⟨name, stage, h⟩; cases h)
    · exact avoids_ok _
  | latency =>
    dsimp only
    rw [rankLowestLatency_eq request context hpolicy]
    split_ifs
    · exact avoids_error (by rintro ⟨name, stage, h⟩; cases h)
    · exact avoids_ok _
  | lowestLoad =>
    dsimp only
    rw [rankLowestLoad_eq request context hpolicy]
    exact avoids_ok _
  | balanced weights =>
    dsimp only
    unfold rankBalanced
    split_ifs
    · exact avoids_error (by rintro ⟨name, stage, h⟩; cases h)
    · exact avoids_error (by rintro ⟨name, stage, h⟩; cases h)
    · refine avoids_bind (avoids_charge _ _ _) fun _ _ =>
        avoids_bind (avoids_charge _ _ _) fun _ _ => ?_
      refine avoids_bind (avoids_mapM _ fun s _ => ?_) fun ranked _ => ?_
      · unfold balancedCandidate
        dsimp only
        split_ifs
        · exact avoids_ok _
        · exact avoids_error (by rintro ⟨name, stage, h⟩; cases h)
      · exact avoids_bind (avoids_sortBy avoids_balancedCmp _) fun _ _ => avoids_ok _
  | random =>
    cases context.randomEntropy with
    | none => exact avoids_error (by rintro ⟨name, stage, h⟩; cases h)
    | some entropy =>
      obtain ⟨ranked, hranked, -⟩ := rankRandom_ok (survivors request context l) entropy
      dsimp only
      rw [hranked]
      exact avoids_ok _

theorem avoids_conclude (result : List RankedCandidate × EliminationReport) :
    Avoids Fault.IsExactRefusal (conclude result) := by
  unfold conclude
  split_ifs
  · exact avoids_error (by rintro ⟨name, stage, h⟩; cases h)
  · exact avoids_ok _

theorem rightPlace_of_hardStage {s : LogicalServer} (h : hardStage request context s = none) :
    request.target.RightPlace s :=
  not_not.mp ((firstViolated_eq_none request context s).mp h .targetGeography (by decide))

theorem matchesExact_iff {target : Target} (hexact : target.isExact = true) (s : LogicalServer) :
    target.matchesExact s = true ↔ target.RightPlace s := by
  cases target with
  | server name => simp [Target.matchesExact, Target.RightPlace]
  | gateway name => simp [Target.matchesExact, Target.RightPlace]
  | fastest => cases hexact
  | country code => cases hexact
  | countries codes => cases hexact
  | state name => cases hexact
  | city name => cases hexact
  | secureCore entryCountry exitCountry => cases hexact

theorem survivors_eq_nil_iff {l : List LogicalServer} :
    survivors request context l = [] ↔ ∀ s ∈ l, request.target.RightPlace s →
    hardStage request context s ≠ none := by
  unfold survivors
  rw [List.filter_eq_nil_iff]
  refine forall₂_congr fun s _ => ?_
  rw [decide_eq_true_eq]
  exact ⟨fun h _ => h, fun h hnone => h (rightPlace_of_hardStage hnone) hnone⟩

/-- **The answer to an exact request** is as it should be exactly if no matching entry passes the
hard filters where each is eliminated. -/
theorem select_exactAnswer_iff (J : Serde) (body : ByteArray) (doc : CatalogDocument)
    (request : SelectionRequest)
    (context : SelectionContext) (h : CatalogDocument.fromBytes J body = .ok doc)
    (hexact : request.target.isExact = true) :
    ExactAnswer request context doc.logicalServers (select doc request context) ↔
      RefusedByFilters request context doc.logicalServers := by
  have hl := CatalogDocument.fromBytes_inDomain h
  constructor
  · -- a survivor, and the answer is that of the policy
    intro hanswer hvalid helim s hs hplace hnone
    obtain ⟨stage, hrefused, -⟩ := hanswer.refused hvalid ⟨s, hs, hplace⟩ helim
    have hsome : survivors request context doc.logicalServers ≠ [] :=
      fun hnil => survivors_eq_nil_iff.mp hnil s hs hplace hnone
    rw [select_eq request context doc hl hvalid.constraints, if_neg (by simp [hsome])] at hrefused
    exact avoids_bind (avoids_rankSurvivors _) (fun result _ => avoids_conclude result) _ hrefused
      ⟨_, stage, rfl⟩
  · intro hhard
    constructor
    · intro outcome hok c hc
      obtain ⟨-, hperm, -⟩ := select_ok hl hok
      have hmem := hperm.subset (List.mem_map_of_mem hc)
      rw [rankable_eq_filter, List.mem_filter, decide_eq_true_eq] at hmem
      exact rightPlace_of_hardStage hmem.2.1
    · rintro hvalid ⟨s, hs, hplace⟩ helim
      have hnil := survivors_eq_nil_iff.mpr (hhard hvalid helim)
      -- the first match has been eliminated
      obtain ⟨matched, hfind⟩ : ∃ matched, doc.logicalServers.find? request.target.matchesExact =
        some matched :=
        Option.isSome_iff_exists.mp (List.find?_isSome.mpr ⟨s, hs,
          (matchesExact_iff hexact s).mpr hplace⟩)
      have hmem := List.mem_of_find?_eq_some hfind
      have hmatch := (matchesExact_iff hexact matched).mp (List.find?_some hfind)
      obtain ⟨stage, hstage⟩ := Option.ne_none_iff_exists'.mp
        (hhard hvalid helim matched hmem hmatch)
      refine ⟨stage, ?_, matched, hmem, hmatch, .inl hstage⟩
      rw [select_eq request context doc hl hvalid.constraints, if_pos (by simp [hexact, hnil])]
      unfold refusalStage
      rw [hfind]
      dsimp only
      rw [hstage]
      rfl

end

/-- A Swiss server by its name, where only the other one has been observed. -/
def namedRequest (name : String) : SelectionRequest := ⟨.server name, .latency, {}⟩

theorem no_nanos : 0 < 1000000000 := by decide

/-- An observation of `a` alone. -/
def observedOnly : SelectionContext := { latency := ⟨[("a", ⟨0, 0, no_nanos⟩)]⟩ }

/-- The server is offline, and the refusal says so. -/
theorem select_exactAnswer_offline :
    ExactAnswer (namedRequest "CH#1") observedOnly (catalogOf swissRows).logicalServers
        (select (catalogOf swissRows) (namedRequest "CH#1") observedOnly) ∧
      select (catalogOf swissRows) (namedRequest "CH#1") observedOnly =
        .error (.refused (.exactServerUnavailable "CH#1" .offline)) := by
  have hhard : ∀ s ∈ (catalogOf swissRows).logicalServers,
    (namedRequest "CH#1").target.RightPlace s →
      hardStage (namedRequest "CH#1") observedOnly s ≠ none := by decide
  exact ⟨(select_exactAnswer_iff _ _ _ (namedRequest "CH#1")
    observedOnly swissRows_accepted rfl).mpr
    fun _ _ => hhard, rfl⟩

/-- **An exact server without an observation is refused without its name**, and without the
stage. -/
theorem unobserved_exact_server :
    CatalogDocument.fromBytes (serdeOf [swissRows]) (bodyOf swissRows) = .ok (catalogOf swissRows) ∧
      (∃ report, select (catalogOf swissRows) (namedRequest "CH#2") observedOnly =
        .error (.refused (.constraintsNotSatisfied report))) ∧
      ¬ ExactAnswer (namedRequest "CH#2") observedOnly (catalogOf swissRows).logicalServers
        (select (catalogOf swissRows) (namedRequest "CH#2") observedOnly) := by
  have helim : ∀ s ∈ (catalogOf swissRows).logicalServers,
    (namedRequest "CH#2").target.RightPlace s →
      hardStage (namedRequest "CH#2") observedOnly s = none ∧
        dataStage (namedRequest "CH#2") observedOnly s = some .noLatencyObservation := by decide
  have hnamed : ∃ s ∈ (catalogOf swissRows).logicalServers,
    (namedRequest "CH#2").target.RightPlace s := by decide
  obtain ⟨report, hselect⟩ : ∃ report, select (catalogOf swissRows)
    (namedRequest "CH#2") observedOnly =
      .error (.refused (.constraintsNotSatisfied report)) := ⟨_, rfl⟩
  refine ⟨swissRows_accepted, ⟨report, hselect⟩, fun hanswer => ?_⟩
  obtain ⟨stage, hrefused, -⟩ := hanswer.refused ⟨rfl, fun weights h => by cases h⟩ hnamed
    fun s hs hplace => ⟨_, .inr (helim s hs hplace)⟩
  rw [hselect] at hrefused
  cases hrefused

end ProtonWire
