import ProtonWire.Net.Session

/-!
# The plan of the routing tables

* `firstFree_spec`: the search ends at a free id, whenever there is one;
* `TableAssignment.Safe`, `resolve_spec`: what an assigned id is proven to be;
* **`planTables_safe`**: every plan is safe, and there is one where the displaced lanes find room;
* **`planTables_stable`**: the plan of a restart is the plan of the run before it.
-/

namespace ProtonWire

open Tables

/-! ## The search -/

namespace Tables

variable {survey : TableSurvey} {claimed : Finset UInt32}

theorem toNat_succ {candidate : UInt32} (h : candidate.toNat + 1 < UInt32.size) :
    (candidate + 1).toNat = candidate.toNat + 1 := by
  rw [UInt32.toNat_add]
  exact Nat.mod_eq_of_lt h

theorem firstFree_spec {candidate id : UInt32} (h : firstFree survey claimed candidate = some id) :
    candidate ≤ id ∧ free id survey claimed = true := by
  induction candidate using firstFree.induct survey claimed with
  | case1 candidate hfree =>
    rw [firstFree, if_pos hfree] at h
    cases h
    exact ⟨UInt32.le_refl _, hfree⟩
  | case2 candidate hfree hroom ih =>
    rw [firstFree, if_neg hfree, dif_pos hroom] at h
    obtain ⟨hle, hid⟩ := ih h
    refine ⟨?_, hid⟩
    rw [UInt32.le_iff_toNat_le] at hle ⊢
    rw [toNat_succ hroom] at hle
    omega
  | case3 candidate hfree hlast =>
    rw [firstFree, if_neg hfree, dif_neg hlast] at h
    cases h

theorem firstFree_isSome {candidate id : UInt32} (hle : candidate ≤ id)
    (hfree : free id survey claimed = true) :
    ∃ found, firstFree survey claimed candidate = some found := by
  induction candidate using firstFree.induct survey claimed with
  | case1 candidate hfree' => exact ⟨candidate, by rw [firstFree, if_pos hfree']⟩
  | case2 candidate hfree' hroom ih =>
    rw [firstFree, if_neg hfree', dif_pos hroom]
    refine ih ?_
    have hne : candidate ≠ id := fun heq => hfree' (heq ▸ hfree)
    have hne' : candidate.toNat ≠ id.toNat := fun heq => hne (UInt32.toNat_inj.mp heq)
    rw [UInt32.le_iff_toNat_le] at hle ⊢
    rw [toNat_succ hroom]
    omega
  | case3 candidate hfree' hlast =>
    have heq : candidate = id := by
      refine UInt32.toNat_inj.mp ?_
      have hlt := id.toNat_lt_size
      rw [UInt32.le_iff_toNat_le] at hle
      omega
    exact absurd (heq ▸ hfree) hfree'

theorem claimable_iff {id : UInt32} : claimable id survey claimed = true ↔
    kernelReservedMax < id ∧ survey.named id = none ∧ id ∉ survey.occupied ∧ id ∉ claimed := by
  unfold claimable
  simp only [Bool.and_eq_true, decide_eq_true_eq, Option.isNone_iff_eq_none, and_assoc]

theorem free_iff {id : UInt32} : free id survey claimed = true ↔
    claimable id survey claimed = true ∧ ∀ kind : TableKind, id ≠ kind.preferredId := by
  unfold free
  rw [Bool.and_eq_true, Bool.not_eq_true', ← Bool.not_eq_true, List.any_eq_true, not_exists]
  refine and_congr_right fun _ => ⟨fun h kind heq => h kind ⟨?_, ?_⟩, fun h kind hk => ?_⟩
  · cases kind <;> simp [TableKind.all]
  · simp [heq]
  · have heq : kind.preferredId = id := by simpa using hk.2
    exact h kind heq.symm

end Tables

/-! ## What an assigned id is -/

/-- The id is unoccupied, or what occupies it is proven ours. -/
def TableSurvey.Proven (survey : TableSurvey) (kind : TableKind) (id : UInt32) : Prop :=
  id ∈ survey.occupied → id ∈ survey.occupiedByUs ∨ survey.named id = some kind.canonicalName

/-- What an assigned id is proven to be. -/
structure TableAssignment.Safe (a : TableAssignment) (survey : TableSurvey) : Prop where
  above : 255 < a.id
  fresh : a.provenance ≠ .persisted → survey.named a.id = none ∧ a.id ∉ survey.occupied
  preferred : a.provenance = .preferred → a.id = a.kind.preferredId
  allocated : a.provenance = .allocated → ∀ kind : TableKind, a.id ≠ kind.preferredId
  persisted : a.provenance = .persisted → ∃ record, survey.persisted = some record ∧
    a.id = record.forKind a.kind ∧
    (∀ name, survey.named a.id = some name → name = a.kind.canonicalName) ∧
    survey.Proven a.kind a.id

namespace Tables

variable {survey : TableSurvey} {claimed : Finset UInt32} {kind : TableKind} {a : TableAssignment}

/-- When the record is kept. -/
theorem resolvePersisted_iff {record : PersistedTables} :
    resolvePersisted kind survey claimed record = some a ↔
    a = ⟨kind, record.forKind kind, .persisted⟩ ∧
      (∀ name, survey.named (record.forKind kind) = some name → name = kind.canonicalName) ∧
      kernelReservedMax < record.forKind kind ∧
      (∀ other, other ≠ kind → record.forKind other ≠ record.forKind kind) ∧
      record.forKind kind ∉ claimed ∧
      survey.Proven kind (record.forKind kind) := by
  have hnames : ((survey.named (record.forKind kind)).any fun name =>
    name ≠ kind.canonicalName) = false ↔
      ∀ name, survey.named (record.forKind kind) = some name → name = kind.canonicalName := by
    cases survey.named (record.forKind kind) <;> simp
  have hsiblings : (TableKind.all.any fun other => other ≠ kind &&
    record.forKind other = record.forKind kind) =
      false ↔ ∀ other, other ≠ kind → record.forKind other ≠ record.forKind kind := by
    rw [← Bool.not_eq_true, List.any_eq_true]
    constructor
    · intro h other hne heq
      refine h ⟨other, ?_, ?_⟩
      · cases other <;> simp [TableKind.all]
      · simp [hne, heq]
    · rintro h ⟨other, -, hother⟩
      simp only [Bool.and_eq_true, decide_eq_true_eq] at hother
      exact h other hother.1 hother.2
  have hproven : (decide (record.forKind kind ∈ survey.occupied) = false ∨
      (decide (record.forKind kind ∈ survey.occupiedByUs) ||
        (survey.named (record.forKind kind)).any fun name => name = kind.canonicalName) = true) ↔
      survey.Proven kind (record.forKind kind) := by
    unfold TableSurvey.Proven
    rw [decide_eq_false_iff_not, Bool.or_eq_true, decide_eq_true_eq, ← imp_iff_not_or]
    refine imp_congr_right fun _ => or_congr_right ?_
    cases survey.named (record.forKind kind) <;> simp
  unfold resolvePersisted
  dsimp only
  rw [Option.ite_none_right_eq_some, Option.some.injEq, and_comm]
  refine and_congr eq_comm ?_
  rw [Bool.and_eq_true, Bool.and_eq_true, Bool.not_eq_true', hnames, Bool.and_eq_true,
    Bool.and_eq_true, Bool.not_eq_true', hsiblings, decide_eq_true_eq, decide_eq_true_eq,
    Bool.or_eq_true, Bool.not_eq_true', hproven]
  simp only [and_assoc]

/-- **What one lane's resolution is.** -/
theorem resolve_spec (h : resolve kind survey claimed = some a) :
    a.kind = kind ∧ a.id ∉ claimed ∧ a.Safe survey := by
  refine ⟨resolve_kind h, ?_⟩
  unfold resolve at h
  cases hkept : survey.persisted.bind (resolvePersisted kind survey claimed) with
  | some kept =>
    rw [hkept] at h
    cases h
    obtain ⟨record, hrecord, hres⟩ := Option.bind_eq_some_iff.mp hkept
    obtain ⟨rfl, hnames, habove, hsiblings, hclaimed, hproven⟩ := resolvePersisted_iff.mp hres
    exact ⟨hclaimed, habove, fun hne => absurd rfl hne, nofun, nofun,
      fun _ => ⟨record, hrecord, rfl, hnames, hproven⟩⟩
  | none =>
    rw [hkept] at h
    dsimp only at h
    by_cases hpreferred : claimable kind.preferredId survey claimed = true
    · rw [if_pos hpreferred] at h
      cases h
      obtain ⟨habove, hname, hoccupied, hclaimed⟩ := claimable_iff.mp hpreferred
      dsimp only
      rw [if_pos rfl]
      exact ⟨hclaimed, habove, fun _ => ⟨hname, hoccupied⟩, fun _ => rfl, nofun, nofun⟩
    · rw [if_neg hpreferred] at h
      obtain ⟨id, hfound, rfl⟩ := Option.map_eq_some_iff.mp h
      obtain ⟨hclaimable, houtside⟩ := free_iff.mp (firstFree_spec hfound).2
      obtain ⟨habove, hname, hoccupied, hclaimed⟩ := claimable_iff.mp hclaimable
      dsimp only
      rw [if_neg (houtside kind)]
      exact ⟨hclaimed, habove, fun _ => ⟨hname, hoccupied⟩, nofun, fun _ => houtside, nofun⟩

theorem resolve_of_preferred (h : claimable kind.preferredId survey claimed = true) :
    ∃ a, resolve kind survey claimed = some a := by
  unfold resolve
  split
  · exact ⟨_, rfl⟩
  · rw [if_pos h]
    exact ⟨_, rfl⟩

theorem resolve_of_free (id : UInt32) (hle : kind.preferredId + 1 ≤ id)
    (h : free id survey claimed = true) :
    ∃ a, resolve kind survey claimed = some a := by
  by_cases hpreferred : claimable kind.preferredId survey claimed = true
  · exact resolve_of_preferred hpreferred
  · obtain ⟨found, hfound⟩ := firstFree_isSome hle h
    unfold resolve
    split
    · exact ⟨_, rfl⟩
    · rw [if_neg hpreferred, hfound]
      exact ⟨_, rfl⟩

end Tables

/-! ## The plan -/

/-- A plan is three resolutions, each past the ids of those before it. -/
theorem planTables_iff {survey : TableSurvey} {plan : TablePlan} :
    planTables survey = some plan ↔ ∃ main bypass lan, resolve .main survey ∅ = some main ∧
      resolve .bypass survey {main.id} = some bypass ∧ resolve .lan survey {bypass.id, main.id} =
      some lan ∧
      plan.assignments = [main, bypass, lan] := by
  unfold planTables
  constructor
  · intro h
    split at h
    · cases h
    · next main hmain =>
      split at h
      · cases h
      · next bypass hbypass =>
        split at h
        · cases h
        · next lan hlan =>
          cases h
          exact ⟨main, bypass, lan, hmain, hbypass, hlan, rfl⟩
  · rintro ⟨main, bypass, lan, hmain, hbypass, hlan, hplan⟩
    obtain ⟨assignments, complete⟩ := plan
    cases hplan
    split
    · next hnone => cases hmain.symm.trans hnone
    · next main' hmain' =>
      cases hmain.symm.trans hmain'
      split
      · next hnone => cases hbypass.symm.trans hnone
      · next bypass' hbypass' =>
        cases hbypass.symm.trans hbypass'
        split
        · next hnone => cases hlan.symm.trans hnone
        · next lan' hlan' =>
          cases hlan.symm.trans hlan'
          rfl

/-- The lane's preferred id is named, occupied or recorded for another lane. -/
def TableSurvey.displaced (survey : TableSurvey) (kind : TableKind) : Bool :=
  !claimable kind.preferredId survey ∅ ||
    survey.persisted.any fun record =>
      TableKind.all.any fun other => other ≠ kind && record.forKind other = kind.preferredId

/-- Above the preferred ids there are as many free ids, outside the record, as there are displaced
lanes. -/
def TableSurvey.Room (survey : TableSurvey) : Prop :=
  ∃ ids : Finset UInt32, (TableKind.all.filter survey.displaced).length ≤ ids.card ∧
    ∀ id ∈ ids, (∀ kind : TableKind, kind.preferredId < id) ∧ claimable id survey ∅ = true ∧
      ∀ record, survey.persisted = some record → ∀ kind, record.forKind kind ≠ id

/-- What a plan is proven to be. -/
structure TablePlan.Safe (plan : TablePlan) (survey : TableSurvey) : Prop where
  kinds : plan.assignments.map TableAssignment.kind = TableKind.all
  distinct : (plan.assignments.map TableAssignment.id).Nodup
  safe : ∀ a ∈ plan.assignments, a.Safe survey

theorem safe_of_planTables {survey : TableSurvey} {plan : TablePlan}
    (h : planTables survey = some plan) :
    plan.Safe survey := by
  obtain ⟨main, bypass, lan, hmain, hbypass, hlan, hplan⟩ := planTables_iff.mp h
  obtain ⟨hmk, -, hmsafe⟩ := resolve_spec hmain
  obtain ⟨hbk, hbnew, hbsafe⟩ := resolve_spec hbypass
  obtain ⟨hlk, hlnew, hlsafe⟩ := resolve_spec hlan
  rw [Finset.mem_singleton] at hbnew
  rw [Finset.mem_insert, Finset.mem_singleton, not_or] at hlnew
  refine ⟨?_, ?_, ?_⟩
  · rw [hplan, List.map_cons, List.map_cons, List.map_cons, hmk, hbk, hlk]
    rfl
  · rw [hplan]
    simp only [List.map_cons, List.map_nil, List.nodup_cons, List.mem_cons, List.not_mem_nil,
      or_false, not_or, not_false_eq_true, and_true, List.nodup_nil]
    exact ⟨⟨Ne.symm hbnew, Ne.symm hlnew.2⟩, Ne.symm hlnew.1⟩
  · rw [hplan]
    intro a ha
    simp only [List.mem_cons, List.not_mem_nil, or_false] at ha
    rcases ha with rfl | rfl | rfl
    · exact hmsafe
    · exact hbsafe
    · exact hlsafe

section
variable {survey : TableSurvey} {kind : TableKind}

theorem preferredId_injective : Function.Injective TableKind.preferredId := by
  intro kind other heq
  cases kind <;> cases other <;> first | rfl | exact absurd heq (by decide)

theorem displaced_of_not_claimable {done : List TableAssignment}
    (hdone : ∀ a ∈ done, a.Safe survey ∧ a.kind ≠ kind)
    (h : ¬ claimable kind.preferredId survey (done.map TableAssignment.id).toFinset = true) :
    survey.displaced kind = true := by
  unfold TableSurvey.displaced
  rw [Bool.or_eq_true, Bool.not_eq_true', ← Bool.not_eq_true]
  refine or_iff_not_imp_left.mpr fun hfree => ?_
  obtain ⟨habove, hname, hoccupied, -⟩ := claimable_iff.mp (not_not.mp hfree)
  -- an earlier lane has taken it: by its record
  have hclaimed : kind.preferredId ∈ (done.map TableAssignment.id).toFinset := by
    by_contra hnot
    exact h (claimable_iff.mpr ⟨habove, hname, hoccupied, hnot⟩)
  obtain ⟨a, ha, hid⟩ := List.mem_map.mp (List.mem_toFinset.mp hclaimed)
  obtain ⟨hsafe, hne⟩ := hdone a ha
  cases hprovenance : a.provenance with
  | preferred =>
    exact absurd (preferredId_injective ((hsafe.preferred hprovenance).symm.trans hid)) hne
  | allocated => exact absurd hid (hsafe.allocated hprovenance kind)
  | persisted =>
    obtain ⟨record, hrecord, hid', -⟩ := hsafe.persisted hprovenance
    rw [hrecord, Option.any_some, List.any_eq_true]
    refine ⟨a.kind, ?_, ?_⟩
    · cases a.kind <;> simp [TableKind.all]
    · simp [hne, ← hid', hid]

theorem displaced_of_allocated (done : List TableAssignment) {a : TableAssignment}
    (hdone : ∀ a ∈ done, a.Safe survey ∧ a.kind ≠ kind)
    (h : resolve kind survey (done.map TableAssignment.id).toFinset = some a)
    (halloc : a.provenance = .allocated) :
    survey.displaced kind = true := by
  refine displaced_of_not_claimable hdone fun hclaimable => ?_
  unfold resolve at h
  cases hkept : survey.persisted.bind (resolvePersisted kind survey
    (done.map TableAssignment.id).toFinset) with
  | some kept =>
    rw [hkept] at h
    cases h
    obtain ⟨record, -, hres⟩ := Option.bind_eq_some_iff.mp hkept
    rw [(resolvePersisted_iff.mp hres).1] at halloc
    cases halloc
  | none =>
    rw [hkept] at h
    dsimp only at h
    rw [if_pos hclaimable] at h
    cases h
    dsimp only at halloc
    rw [if_pos rfl] at halloc
    cases halloc

theorem resolve_isSome (kind : TableKind) (hroom : survey.Room) (done : List TableAssignment)
    (hdone : ∀ a ∈ done, a.Safe survey ∧
     (a.provenance = .allocated → survey.displaced a.kind = true))
    (hkinds : (kind :: done.map TableAssignment.kind).Nodup) :
    ∃ a, resolve kind survey (done.map TableAssignment.id).toFinset = some a := by
  obtain ⟨hnew, hnodup⟩ := List.nodup_cons.mp hkinds
  have hne : ∀ a ∈ done, a.Safe survey ∧ a.kind ≠ kind := fun a ha =>
    ⟨(hdone a ha).1, fun heq => hnew (heq ▸ List.mem_map_of_mem ha)⟩
  by_cases hpreferred : claimable kind.preferredId survey
    (done.map TableAssignment.id).toFinset = true
  · exact resolve_of_preferred hpreferred
  have hdisplaced := displaced_of_not_claimable hne hpreferred
  obtain ⟨ids, hcard, hids⟩ := hroom
  -- the lanes before it have not taken all the free ids
  have hfound : ∃ id ∈ ids, id ∉ (done.map TableAssignment.id).toFinset := by
    by_contra hall
    have hsubset :
      ids ⊆ ((done.filter fun a => survey.displaced a.kind).map TableAssignment.id).toFinset := by
      intro id hid
      have hclaimed : id ∈ (done.map TableAssignment.id).toFinset := by
        by_contra hnot
        exact hall ⟨id, hid, hnot⟩
      obtain ⟨a, ha, rfl⟩ := List.mem_map.mp (List.mem_toFinset.mp hclaimed)
      obtain ⟨hsafe, halloc⟩ := hdone a ha
      obtain ⟨habove, -, hunrecorded⟩ := hids _ hid
      refine List.mem_toFinset.mpr (List.mem_map_of_mem (List.mem_filter.mpr ⟨ha, ?_⟩))
      cases hprovenance : a.provenance with
      | preferred =>
        have hlt := habove a.kind
        rw [hsafe.preferred hprovenance] at hlt
        exact absurd hlt (UInt32.lt_irrefl _)
      | allocated => exact halloc hprovenance
      | persisted =>
        obtain ⟨record, hrecord, hid', -⟩ := hsafe.persisted hprovenance
        exact absurd hid'.symm (hunrecorded record hrecord a.kind)
    have hlanes :
      kind :: ((done.filter fun a => survey.displaced a.kind).map TableAssignment.kind) ⊆
        TableKind.all.filter survey.displaced := by
      intro other hother
      refine List.mem_filter.mpr ⟨by cases other <;> simp [TableKind.all], ?_⟩
      rcases List.mem_cons.mp hother with rfl | hother
      · exact hdisplaced
      · obtain ⟨a, ha, rfl⟩ := List.mem_map.mp hother
        exact (List.mem_filter.mp ha).2
    have hdistinct :
      (kind :: ((done.filter fun a => survey.displaced a.kind).map TableAssignment.kind)).Nodup :=
      hkinds.sublist ((List.filter_sublist.map _).cons_cons kind)
    have hlength := (List.subperm_of_subset hdistinct hlanes).length_le
    have hsmall := (Finset.card_le_card hsubset).trans (List.toFinset_card_le _)
    rw [List.length_cons, List.length_map] at hlength
    rw [List.length_map] at hsmall
    omega
  obtain ⟨id, hid, hunclaimed⟩ := hfound
  obtain ⟨habove, hclaimable, -⟩ := hids id hid
  obtain ⟨hreserved, hname, hoccupied, -⟩ := claimable_iff.mp hclaimable
  refine resolve_of_free id ?_ (free_iff.mpr
    ⟨claimable_iff.mpr ⟨hreserved, hname, hoccupied, hunclaimed⟩,
    fun other heq => ?_⟩)
  · have hlt := habove kind
    rw [UInt32.lt_iff_toNat_lt] at hlt
    rw [UInt32.le_iff_toNat_le, toNat_succ (by cases kind <;> decide)]
    exact hlt
  · have hlt := habove other
    rw [heq] at hlt
    exact UInt32.lt_irrefl _ hlt

end

/-- **Every plan is safe**: three distinct ids above 255, none with a foreign name or with unproven
entries; one that is preferred or allocated is neither named nor occupied, an allocated one lies
outside the preferred ids, and one that is kept is its lane's record. And there is a plan where the
displaced lanes find room. -/
theorem planTables_safe (survey : TableSurvey) :
    (∀ plan, planTables survey = some plan → plan.Safe survey ∧ ∀ a ∈ plan.assignments,
      survey.Proven a.kind a.id ∧ ∀ name, survey.named a.id = some name →
      name = a.kind.canonicalName) ∧
    (survey.Room → ∃ plan, planTables survey = some plan) := by
  refine ⟨fun plan hplan => ?_, fun hroom => ?_⟩
  · have hsafe := safe_of_planTables hplan
    refine ⟨hsafe, fun a ha => ?_⟩
    have ha := hsafe.safe a ha
    by_cases hkept : a.provenance = .persisted
    · obtain ⟨-, -, -, hnames, hproven⟩ := ha.persisted hkept
      exact ⟨hproven, hnames⟩
    · obtain ⟨hname, hoccupied⟩ := ha.fresh hkept
      exact ⟨fun hmem => absurd hmem hoccupied, fun name hsome => by cases hname.symm.trans hsome⟩
  · obtain ⟨main, hmain⟩ := resolve_isSome .main hroom [] nofun (by decide)
    obtain ⟨hmk, -, hmsafe⟩ := resolve_spec hmain
    have hmalloc : main.provenance = .allocated → survey.displaced main.kind = true :=
      fun halloc => by
      rw [hmk]
      exact displaced_of_allocated [] nofun hmain halloc
    obtain ⟨bypass, hbypass⟩ := resolve_isSome .bypass hroom [main]
      (fun a ha => List.mem_singleton.mp ha ▸ ⟨hmsafe, hmalloc⟩) (by simp [hmk])
    obtain ⟨hbk, -, hbsafe⟩ := resolve_spec hbypass
    have hballoc : bypass.provenance = .allocated → survey.displaced bypass.kind = true :=
      fun halloc => by
      rw [hbk]
      refine displaced_of_allocated [main] (fun a ha => ?_) hbypass halloc
      rw [List.mem_singleton.mp ha, hmk]
      exact ⟨hmsafe, by decide⟩
    obtain ⟨lan, hlan⟩ := resolve_isSome .lan hroom [bypass, main] (fun a ha => by
      rcases List.mem_cons.mp ha with rfl | ha
      · exact ⟨hbsafe, hballoc⟩
      · exact List.mem_singleton.mp ha ▸ ⟨hmsafe, hmalloc⟩) (by simp [hmk, hbk])
    have hclaimed : ([bypass, main].map TableAssignment.id).toFinset = {bypass.id, main.id} := by
      simp
    rw [hclaimed] at hlan
    refine ⟨⟨[main, bypass, lan], fun kind => ?_⟩,
      planTables_iff.mpr ⟨main, bypass, lan, hmain, ?_, hlan, rfl⟩⟩
    · cases kind with
      | main => exact ⟨main, by simp, hmk⟩
      | bypass => exact ⟨bypass, by simp, hbk⟩
      | lan => exact ⟨lan, by simp, resolve_kind hlan⟩
    · simpa using hbypass

/-- A survey where something foreign occupies main's preferred id. -/
def contestedSurvey : TableSurvey := { occupied := {51820} }

theorem planTables_safe_contested : ∃ plan, planTables contestedSurvey = some plan :=
  (planTables_safe contestedSurvey).2 ⟨{51823}, by decide, fun id hid => by
    cases Finset.mem_singleton.mp hid
    exact ⟨fun kind => by cases kind <;> decide, by decide, nofun⟩⟩

/-- Every id but one. -/
def allBut (id : UInt32) : Finset UInt32 := ((Finset.range UInt32.size).image UInt32.ofNat).erase id

theorem mem_allBut {id x : UInt32} : x ∈ allBut id ↔ x ≠ id := by
  unfold allBut
  rw [Finset.mem_erase, and_iff_left_iff_imp]
  intro _
  exact Finset.mem_image.mpr ⟨x.toNat, Finset.mem_range.mpr x.toNat_lt_size, UInt32.ofNat_toNat⟩

/-- One free id above the preferred ones is not enough for three lanes: the second search runs past
the last id. -/
theorem planTables_needs_room :
    ¬ ∀ survey : TableSurvey, (∃ id : UInt32, (∀ kind : TableKind, kind.preferredId < id) ∧
      free id survey ∅ = true) → ∃ plan, planTables survey = some plan := by
  intro h
  have hid : free 60000 { occupied := allBut 60000 } ∅ = true := by
    refine free_iff.mpr ⟨claimable_iff.mpr ⟨by decide, rfl, ?_, Finset.notMem_empty _⟩,
      fun kind => ?_⟩
    · rw [mem_allBut, not_not]
    · cases kind <;> decide
  obtain ⟨plan, hplan⟩ := h { occupied := allBut 60000 }
    ⟨60000, fun kind => by cases kind <;> decide, hid⟩
  -- main and bypass are both allocated the one free id
  have hall : ∀ a ∈ plan.assignments, a.id = 60000 := by
    intro a ha
    have hsafe := (safe_of_planTables hplan).safe a ha
    by_cases hkept : a.provenance = .persisted
    · obtain ⟨record, hrecord, -⟩ := hsafe.persisted hkept
      cases hrecord
    · obtain ⟨-, hoccupied⟩ := hsafe.fresh hkept
      rwa [mem_allBut, not_not] at hoccupied
  obtain ⟨main, bypass, lan, -, hbypass, -, hassignments⟩ := planTables_iff.mp hplan
  rw [hassignments] at hall
  have hnew := (resolve_spec hbypass).2.1
  rw [hall bypass (by simp), hall main (by simp), Finset.mem_singleton] at hnew
  exact hnew rfl

/-! ## A restart -/

/-- The record the daemon keeps of a plan. -/
def TablePlan.record (plan : TablePlan) : PersistedTables :=
  ⟨(plan.assignment .main).id, (plan.assignment .bypass).id, (plan.assignment .lan).id⟩

theorem record_forKind (plan : TablePlan) (kind : TableKind) :
    plan.record.forKind kind = (plan.assignment kind).id := by
  cases kind <;> rfl

theorem mem_assignment (plan : TablePlan) (kind : TableKind) :
    plan.assignment kind ∈ plan.assignments ∧ (plan.assignment kind).kind = kind := by
  have hfound : (plan.assignments.find? fun a => a.kind = kind) = some (plan.assignment kind) :=
    (Option.some_get (plan.find_isSome kind)).symm
  exact ⟨List.mem_of_find?_eq_some hfound, by simpa using List.find?_some hfound⟩

theorem TablePlan.Safe.assignment_ne {plan : TablePlan} {survey : TableSurvey}
    (h : plan.Safe survey) {kind other : TableKind} (hne : kind ≠ other) :
    (plan.assignment kind).id ≠ (plan.assignment other).id := by
  intro heq
  obtain ⟨hmem, hkind⟩ := mem_assignment plan kind
  obtain ⟨hmem', hkind'⟩ := mem_assignment plan other
  have hsame := List.inj_on_of_nodup_map h.distinct hmem hmem' heq
  rw [hsame, hkind'] at hkind
  exact hne hkind.symm

theorem resolve_of_record {plan : TablePlan} {survey later : TableSurvey} (h : plan.Safe survey)
    (hnames : later.named = survey.named) (hrecord : later.persisted = some plan.record)
    (hours : ∀ kind, (plan.assignment kind).id ∈ later.occupied →
     (plan.assignment kind).id ∈ later.occupiedByUs)
    {kind : TableKind} {claimed : Finset UInt32} (hclaimed : (plan.assignment kind).id ∉ claimed) :
    resolve kind later claimed = some ⟨kind, (plan.assignment kind).id, .persisted⟩ := by
  obtain ⟨hmem, hkind⟩ := mem_assignment plan kind
  have hsafe := h.safe _ hmem
  have hkept : resolvePersisted kind later claimed plan.record =
      some ⟨kind, (plan.assignment kind).id, .persisted⟩ := by
    refine resolvePersisted_iff.mpr ⟨?_, ?_, ?_, fun other hne => ?_, ?_, ?_⟩
    · rw [record_forKind]
    · rw [record_forKind, hnames]
      intro name hname
      by_cases hpersisted : (plan.assignment kind).provenance = .persisted
      · obtain ⟨-, -, -, hcanonical, -⟩ := hsafe.persisted hpersisted
        rw [← hkind]
        exact hcanonical name hname
      · cases (hsafe.fresh hpersisted).1.symm.trans hname
    · rw [record_forKind]
      exact hsafe.above
    · rw [record_forKind, record_forKind]
      exact h.assignment_ne hne
    · rwa [record_forKind]
    · rw [record_forKind]
      exact fun hoccupied => .inl (hours kind hoccupied)
  unfold resolve
  rw [hrecord, Option.bind_some, hkept]

/-- **The plan of a restart.** Where the record is that of an earlier plan, the names are the same,
and the recorded ids are unoccupied or occupied by us, every lane keeps its id, and so does what the
plan owns; whichever way the executor surveys that host. -/
theorem planTables_stable {survey later : TableSurvey} {plan : TablePlan}
    (h : planTables survey = some plan)
    (hnames : later.named = survey.named) (hrecord : later.persisted = some plan.record)
    (hours : ∀ kind, (plan.assignment kind).id ∈ later.occupied →
     (plan.assignment kind).id ∈ later.occupiedByUs) :
    ∃ plan', planTables later = some plan' ∧
      (∀ kind, (plan'.assignment kind).id = (plan.assignment kind).id) ∧
      (∀ id, plan'.owns id = plan.owns id) ∧
      ∀ {σ : Type} (E : NetlinkExecutor σ) (rtTablesText : String) (x y : σ)
        (surveyed : TableSurvey),
        E.survey rtTablesText x = (.ok surveyed, y) →
        { surveyed with persisted := some plan.record } = later →
          planWith E rtTablesText (some plan.record) x = (.ok (some plan'), y) := by
  have hsafe := safe_of_planTables h
  have hkeep : ∀ kind (claimed : Finset UInt32), (plan.assignment kind).id ∉ claimed →
      resolve kind later claimed = some ⟨kind, (plan.assignment kind).id, .persisted⟩ :=
      fun kind claimed =>
    resolve_of_record hsafe hnames hrecord hours
  have hbypass : (plan.assignment .bypass).id ∉ ({(plan.assignment .main).id} : Finset UInt32) := by
    rw [Finset.mem_singleton]
    exact hsafe.assignment_ne (by decide)
  have hlan : (plan.assignment .lan).id ∉
      ({(plan.assignment .bypass).id, (plan.assignment .main).id} : Finset UInt32) := by
    rw [Finset.mem_insert, Finset.mem_singleton, not_or]
    exact ⟨hsafe.assignment_ne (by decide), hsafe.assignment_ne (by decide)⟩
  let plan' : TablePlan :=
    { assignments := TableKind.all.map fun kind => ⟨kind, (plan.assignment kind).id, .persisted⟩
      complete := fun kind =>
        ⟨⟨kind, (plan.assignment kind).id, .persisted⟩, by cases kind <;> simp [TableKind.all], rfl⟩
        }
  have hplan' : planTables later = some plan' :=
    planTables_iff.mpr ⟨_, _, _, hkeep .main ∅ (Finset.notMem_empty _),
    hkeep .bypass _ hbypass, hkeep .lan _ hlan, rfl⟩
  have hassignment : ∀ kind, plan'.assignment kind = ⟨kind, (plan.assignment kind).id,
    .persisted⟩ := by
    intro kind
    obtain ⟨hmem, hkind⟩ := mem_assignment plan' kind
    obtain ⟨kind', -, heq⟩ := List.mem_map.mp hmem
    rw [← heq] at hkind
    cases hkind
    exact heq.symm
  refine ⟨plan', hplan', fun kind => ?_, fun id => ?_, fun E text x y surveyed hsurvey hlater => ?_⟩
  · rw [hassignment]
  · refine Bool.eq_iff_iff.mpr ?_
    unfold TablePlan.owns
    rw [List.any_eq_true, List.any_eq_true]
    constructor
    · rintro ⟨a, ha, hid⟩
      obtain ⟨kind, -, rfl⟩ := List.mem_map.mp ha
      exact ⟨_, (mem_assignment plan kind).1, hid⟩
    · rintro ⟨a, ha, hid⟩
      obtain ⟨hmem, hkind⟩ := mem_assignment plan a.kind
      have hsame : plan.assignment a.kind = a := by
        refine List.inj_on_of_nodup_map (f := TableAssignment.kind) ?_ hmem ha hkind
        rw [hsafe.kinds]
        decide
      refine ⟨plan'.assignment a.kind, (mem_assignment plan' a.kind).1, ?_⟩
      rw [hassignment, hsame]
      exact hid
  · unfold planWith
    rw [hsurvey]
    dsimp only
    rw [hlater, hplan']

/-- The plan of an untouched host. -/
def firstPlan : TablePlan :=
  ⟨[⟨.main, 51820, .preferred⟩, ⟨.bypass, 51821, .preferred⟩, ⟨.lan, 51822, .preferred⟩],
   fun kind => by
    cases kind <;> decide⟩

/-- The host after a crash: main's rules are left, and something foreign came up elsewhere. -/
def crashedSurvey : TableSurvey :=
  { occupied := {51820, 60000}, occupiedByUs := {51820}, persisted := some firstPlan.record }

theorem planTables_stable_crashed : ∃ plan', planTables crashedSurvey = some plan' ∧
    ∀ kind, (plan'.assignment kind).id = (firstPlan.assignment kind).id := by
  have hfirst : planTables {} = some firstPlan :=
    planTables_iff.mpr ⟨⟨.main, 51820, .preferred⟩, ⟨.bypass, 51821, .preferred⟩,
      ⟨.lan, 51822, .preferred⟩, rfl, rfl,
      rfl, rfl⟩
  have hours : ∀ kind, (firstPlan.assignment kind).id ∈ crashedSurvey.occupied →
      (firstPlan.assignment kind).id ∈ crashedSurvey.occupiedByUs := fun kind => by
      cases kind <;> decide
  obtain ⟨plan', hplan', hids, -⟩ := planTables_stable hfirst
    (rfl : crashedSurvey.named = _) rfl hours
  exact ⟨plan', hplan', hids⟩

end ProtonWire
