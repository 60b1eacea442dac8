import ProtonWire.Lib.Fallible
import ProtonWire.Selection.Spec

/-!
# The pass over the catalog

* `hardStage`, `dataStage`: the first hard filter, and the first policy stage, an entry violates;
* **`filterLoop_eq`**: the pass counts the entries by their hard stage and keeps the others, in
  order;
* `filterCandidates_eq`: the survivors and the report, once the request is valid;
* `charge_eq`: what a charge does to a report.
-/

namespace ProtonWire

open Fallible

/-- What no step before the end of `select` raises: a panic, or the refusal of an empty ranking. -/
def Fault.IsUnexpected : Fault → Prop
  | panic _ => True
  | refused (.constraintsNotSatisfied _) => True
  | refused _ => False

/-! ## The stage table -/

theorem mem_stages (stage : FilterStage) : stage ∈ FilterStage.stages := by
  cases stage <;> decide

theorem nodup_stages : FilterStage.stages.Nodup := by decide

theorem modify_map_of_findIdx? {α : Type} [DecidableEq α] {l : List α} (hl : l.Nodup)
    (f : α → ℕ) {a : α} {i : ℕ} (h : l.findIdx? (· = a) = some i) :
    i < l.length ∧ (l.map f).modify i (· + 1) = l.map (Function.update f a (f a + 1)) := by
  induction l generalizing i with
  | nil => cases h
  | cons b l ih =>
    rw [List.nodup_cons] at hl
    rw [List.findIdx?_cons] at h
    by_cases hb : b = a
    · simp only [hb, decide_true, if_true, Option.some.injEq] at h
      subst h hb
      refine ⟨by simp, ?_⟩
      rw [List.map_cons, List.map_cons, Function.update_self, List.modify_cons]
      refine congrArg _ (List.map_congr_left fun c hc => ?_)
      rw [Function.update_of_ne]
      rintro rfl
      exact hl.1 hc
    · simp only [hb, decide_false, Bool.false_eq_true, if_false, Option.map_eq_some_iff] at h
      obtain ⟨j, hj, rfl⟩ := h
      obtain ⟨hlt, hmod⟩ := ih hl.2 hj
      refine ⟨by simpa using hlt, ?_⟩
      rw [List.map_cons, List.map_cons, Function.update_of_ne hb, List.modify_succ_cons, hmod]

theorem bump_ordinal (f : FilterStage → ℕ) (stage : FilterStage) :
    (stage.ordinal >>= fun i => bump (FilterStage.stages.map f) i) =
      .ok (FilterStage.stages.map (Function.update f stage (f stage + 1))) := by
  have hsome : (FilterStage.stages.findIdx? (· = stage)).isSome = true := by
    rw [List.findIdx?_isSome, List.any_eq_true]
    exact ⟨stage, mem_stages stage, by simp⟩
  obtain ⟨i, hi⟩ := Option.isSome_iff_exists.mp hsome
  obtain ⟨hlt, hmod⟩ := modify_map_of_findIdx? nodup_stages f hi
  have hord : stage.ordinal = .ok i := by
    unfold FilterStage.ordinal
    rw [hi]
  have hbump : bump (FilterStage.stages.map f) i =
    .ok ((FilterStage.stages.map f).modify i (· + 1)) :=
    if_pos (by rw [List.length_map]; exact hlt)
  rw [hord, ← hmod]
  exact hbump

/-! ## The pass -/

section
variable (request : SelectionRequest) (context : SelectionContext)

/-- The first hard filter the entry violates, in the order of the chain. -/
def hardStage (s : LogicalServer) : Option FilterStage := firstViolated request context s chainOrder

/-- The first data stage of the policy that the entry violates. -/
def dataStage (s : LogicalServer) : Option FilterStage := firstViolated request context s dataStages

/-- The entries that pass every hard filter. -/
def survivors (l : List LogicalServer) : List LogicalServer :=
  l.filter fun s => hardStage request context s = none

/-- How many entries a hard filter eliminates. -/
def hardCount (l : List LogicalServer) (stage : FilterStage) : ℕ :=
  l.countP fun s => hardStage request context s = some stage

theorem filterLoop_eq (l : List LogicalServer) (hl : ∀ s ∈ l, s.InDomain) (f : FilterStage → ℕ)
    (kept : List LogicalServer) :
    filterLoop request context l (FilterStage.stages.map f) kept =
      .ok (FilterStage.stages.map fun stage => f stage + hardCount request context l stage,
        kept ++ survivors request context l) := by
  induction l generalizing f kept with
  | nil => simp [filterLoop, hardCount, survivors]
  | cons s l ih =>
    have ih := ih fun s' hs' => hl s' (List.mem_cons_of_mem _ hs')
    have helim : eliminatingStage s request context = .ok (hardStage request context s) :=
      eliminatingStage_eq request context s (hl s List.mem_cons_self)
    unfold filterLoop
    rw [helim]
    cases hs : hardStage request context s with
    | none =>
      show filterLoop request context l (FilterStage.stages.map f) (kept ++ [s]) = _
      rw [ih]
      simp [hardCount, survivors, hs]
    | some stage =>
      show (do filterLoop request context l (← bump (FilterStage.stages.map f) (← stage.ordinal)) kept) = _
      have hbump := bump_ordinal f stage
      obtain ⟨i, hord, hb⟩ := bind_eq_ok.mp hbump
      rw [hord]
      show (do filterLoop request context l (← bump (FilterStage.stages.map f) i) kept) = _
      rw [hb]
      show filterLoop request context l (FilterStage.stages.map _) kept = _
      rw [ih]
      refine congrArg Except.ok (congrArg₂ Prod.mk (List.map_congr_left fun stage' _ => ?_) ?_)
      · show Function.update f stage (f stage + 1) stage' + hardCount request context l stage' =
          f stage' + hardCount request context (s :: l) stage'
        unfold hardCount
        rw [List.countP_cons]
        by_cases h : stage' = stage
        · subst h
          simp only [Function.update_self, hs, decide_true, if_true]
          omega
        · rw [Function.update_of_ne h]
          simp [hs, Ne.symm h]
      · simp [survivors, hs]

/-- The report of the hard filters. -/
def hardReport (l : List LogicalServer) : EliminationReport where
  considered := l.length
  survivors := (survivors request context l).length
  stages := FilterStage.stages.map fun stage => (stage, hardCount request context l stage)

theorem filterLoop_catalog (l : List LogicalServer) (hl : ∀ s ∈ l, s.InDomain) :
    filterLoop request context l (List.replicate FilterStage.stages.length 0) [] =
      .ok (FilterStage.stages.map (hardCount request context l), survivors request context l) := by
  have h := filterLoop_eq request context l hl (fun _ => 0) []
  rw [List.map_const'] at h
  simpa using h

/-- The stage an exact refusal names. -/
def refusalStage (l : List LogicalServer) : FilterStage :=
  match l.find? request.target.matchesExact with
  | none => .absentFromCatalog
  | some matched => (hardStage request context matched).getD .absentFromCatalog

theorem exactRefusal_eq (doc : CatalogDocument) (hl : ∀ s ∈ doc.logicalServers, s.InDomain) :
    exactRefusal doc request context = .ok (refusalStage request context doc.logicalServers) := by
  unfold exactRefusal refusalStage
  cases hm : doc.logicalServers.find? request.target.matchesExact with
  | none => rfl
  | some matched =>
    dsimp only
    rw [eliminatingStage_eq request context matched (hl matched (List.mem_of_find?_eq_some hm))]
    rfl

/-- **The hard filters**, once the request is valid: the survivors with their report, or the refusal
of an exact target that nothing satisfies. -/
theorem filterCandidates_eq (doc : CatalogDocument) (hl : ∀ s ∈ doc.logicalServers, s.InDomain)
    (hv : validateRequest request context = .ok ()) :
    filterCandidates doc request context =
      if request.target.isExact && (survivors request context doc.logicalServers).isEmpty then
        .error (.refused (.exactServerUnavailable (request.target.exactName.getD "")
          (refusalStage request context doc.logicalServers)))
      else .ok (survivors request context doc.logicalServers,
        hardReport request context doc.logicalServers) := by
  unfold filterCandidates
  rw [hv, filterLoop_catalog request context _ hl, exactRefusal_eq request context doc hl]
  show (if _ then _ else _) = _
  refine if_congr Iff.rfl rfl ?_
  have hzip := List.zip_map' (f := id) (g := hardCount request context doc.logicalServers)
    (l := FilterStage.stages)
  rw [List.map_id] at hzip
  rw [hzip]
  rfl

end

/-! ## Charges -/

theorem chargeSlot_map {l : List FilterStage} (hl : l.Nodup) {stage : FilterStage} (hs : stage ∈ l)
    (f : FilterStage → ℕ) (count : ℕ) :
    chargeSlot stage count (l.map fun st => (st, f st)) =
      l.map fun st => (st, Function.update f stage (f stage + count) st) := by
  induction l with
  | nil => cases hs
  | cons b l ih =>
    rw [List.nodup_cons] at hl
    rw [List.map_cons, List.map_cons, chargeSlot]
    by_cases hb : b = stage
    · subst hb
      rw [if_pos rfl, Function.update_self]
      refine congrArg _ (List.map_congr_left fun c hc => ?_)
      rw [Function.update_of_ne]
      rintro rfl
      exact hl.1 hc
    · rw [if_neg hb, Function.update_of_ne hb]
      exact congrArg _ (ih hl.2 ((List.mem_cons.mp hs).resolve_left (Ne.symm hb)))

/-- A charge that does not exceed the survivors moves them to its stage. -/
theorem charge_eq (considered kept count : ℕ) (f : FilterStage → ℕ) (stage : FilterStage)
    (hle : count ≤ kept) :
    EliminationReport.charge ⟨considered, kept, FilterStage.stages.map fun st => (st, f st)⟩
      stage count =
      .ok ⟨considered, kept - count, FilterStage.stages.map fun st =>
        (st, Function.update f stage (f stage + count) st)⟩ := by
  unfold EliminationReport.charge
  by_cases hc : count = 0
  · rw [if_pos hc]
    subst hc
    simp
  · rw [if_neg hc, if_neg (not_lt.mpr hle)]
    dsimp only
    rw [chargeSlot_map nodup_stages (mem_stages stage)]

end ProtonWire
