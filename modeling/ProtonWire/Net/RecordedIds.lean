import ProtonWire.Net.Plan

/-!
# The recorded ids

Which lanes keep the id that the record gives them, where the entries of other lanes are not sound.

* `PersistedTables.Sound`: an entry that nothing contradicts;
* `TableSurvey.FallsOn`: the id that a lane falls back on, past those already taken;
* `PersistedTables.Overtaken`: an earlier lane falls back on the id of the entry;
* **`planTables_keeps`**: a sound entry is kept, unless it is overtaken;
* `overtaken_entry`: a name at main's recorded id costs bypass its own.
-/

namespace ProtonWire

open Tables

/-- **A sound entry** of the record. -/
structure PersistedTables.Sound (record : PersistedTables) (survey : TableSurvey)
    (kind : TableKind) : Prop where
  above : 255 < record.forKind kind
  distinct : ∀ other, other ≠ kind → record.forKind other ≠ record.forKind kind
  names : ∀ name, survey.named (record.forKind kind) = some name → name = kind.canonicalName
  proven : survey.Proven kind (record.forKind kind)

/-- The id a lane falls back on: the preferred one where it can be claimed, else the first free one
above it. -/
def TableSurvey.FallsOn (survey : TableSurvey) (claimed : Finset UInt32) (kind : TableKind)
    (id : UInt32) : Prop :=
  (claimable kind.preferredId survey claimed = true ∧ id = kind.preferredId) ∨
    claimable kind.preferredId survey claimed = false ∧ kind.preferredId < id ∧
    free id survey claimed = true ∧
      ∀ c, kind.preferredId < c → c < id → free c survey claimed = false

/-- An earlier lane falls back on the recorded id. Bypass also falls back where main has fallen back
on its entry. -/
def PersistedTables.Overtaken (record : PersistedTables) (survey : TableSurvey) : TableKind → Prop
  | .main => False
  | .bypass => ¬ record.Sound survey .main ∧ survey.FallsOn ∅ .main record.bypass
  | .lan =>
    (¬ record.Sound survey .main ∧ survey.FallsOn ∅ .main record.lan) ∨
      ∃ main, (record.Sound survey .main ∧ main = record.main ∨
          ¬ record.Sound survey .main ∧ survey.FallsOn ∅ .main main) ∧
        (record.Sound survey .bypass → main = record.bypass) ∧
        survey.FallsOn {main} .bypass record.lan

variable {survey : TableSurvey} {record : PersistedTables} {kind : TableKind}
    {claimed : Finset UInt32}

namespace Tables

/-- **What the search finds** is the first free id. -/
theorem firstFree_first {candidate id : UInt32} (h : firstFree survey claimed candidate = some id) :
    ∀ c, candidate ≤ c → c < id → free c survey claimed = false := by
  induction candidate using firstFree.induct survey claimed with
  | case1 candidate hfree =>
    rw [firstFree, if_pos hfree] at h
    cases h
    intro c hle hlt
    exact absurd hle (UInt32.not_le.mpr hlt)
  | case2 candidate hfree hroom ih =>
    rw [firstFree, if_neg hfree, dif_pos hroom] at h
    intro c hle hlt
    by_cases heq : candidate = c
    · subst heq
      simpa using hfree
    · refine ih h c ?_ hlt
      have hne : candidate.toNat ≠ c.toNat := fun hnat => heq (UInt32.toNat_inj.mp hnat)
      rw [UInt32.le_iff_toNat_le] at hle ⊢
      rw [toNat_succ hroom]
      omega
  | case3 candidate hfree hlast =>
    rw [firstFree, if_neg hfree, dif_neg hlast] at h
    cases h

theorem preferredId_succ_le {id : UInt32} : kind.preferredId + 1 ≤ id ↔ kind.preferredId < id := by
  rw [UInt32.le_iff_toNat_le, UInt32.lt_iff_toNat_lt]
  cases kind <;> exact Nat.succ_le_iff

end Tables

theorem TableSurvey.FallsOn.unique {id id' : UInt32} (h : survey.FallsOn claimed kind id)
    (h' : survey.FallsOn claimed kind id') : id = id' := by
  rcases h with ⟨hclaim, rfl⟩ | ⟨hclaim, habove, hfree, hfirst⟩
  · rcases h' with ⟨-, rfl⟩ | ⟨hclaim', -⟩
    · rfl
    · cases hclaim.symm.trans hclaim'
  · rcases h' with ⟨hclaim', -⟩ | ⟨-, habove', hfree', hfirst'⟩
    · cases hclaim.symm.trans hclaim'
    · by_contra hne
      have hnat : id.toNat ≠ id'.toNat := fun heq => hne (UInt32.toNat_inj.mp heq)
      rcases Nat.lt_or_gt_of_ne hnat with hlt | hlt
      · cases hfree.symm.trans (hfirst' id habove (UInt32.lt_iff_toNat_lt.mpr hlt))
      · cases hfree'.symm.trans (hfirst id' habove' (UInt32.lt_iff_toNat_lt.mpr hlt))

/-- **One lane keeps its entry or falls back.** -/
theorem resolve_record {a : TableAssignment} (hrecord : survey.persisted = some record)
    (h : resolve kind survey claimed = some a) :
    (record.Sound survey kind ∧ record.forKind kind ∉ claimed → a.id = record.forKind kind) ∧
      (¬ (record.Sound survey kind ∧ record.forKind kind ∉ claimed) →
       survey.FallsOn claimed kind a.id) := by
  unfold resolve at h
  rw [hrecord, Option.bind_some] at h
  cases hkept : resolvePersisted kind survey claimed record with
  | some kept =>
    rw [hkept] at h
    cases h
    obtain ⟨rfl, hnames, habove, hsiblings, hclaimed, hproven⟩ := resolvePersisted_iff.mp hkept
    exact ⟨fun _ => rfl, fun hnot => absurd ⟨⟨habove, hsiblings, hnames, hproven⟩, hclaimed⟩ hnot⟩
  | none =>
    rw [hkept] at h
    dsimp only at h
    refine ⟨fun ⟨hsound, hclaimed⟩ => ?_, fun _ => ?_⟩
    · have hsome := resolvePersisted_iff.mpr ⟨rfl, hsound.names, hsound.above, hsound.distinct,
        hclaimed, hsound.proven⟩
      cases hkept.symm.trans hsome
    · by_cases hpreferred : claimable kind.preferredId survey claimed = true
      · rw [if_pos hpreferred] at h
        cases h
        exact .inl ⟨hpreferred, rfl⟩
      · rw [if_neg hpreferred] at h
        obtain ⟨id, hfound, rfl⟩ := Option.map_eq_some_iff.mp h
        obtain ⟨hle, hfree⟩ := firstFree_spec hfound
        refine .inr
          ⟨by simpa using hpreferred, preferredId_succ_le.mp hle, hfree, fun c hc hlt => ?_⟩
        exact firstFree_first hfound c (preferredId_succ_le.mpr hc) hlt

theorem resolve_keeps {a : TableAssignment} (hrecord : survey.persisted = some record)
    (h : resolve kind survey claimed = some a) (hsound : record.Sound survey kind) :
    a.id = record.forKind kind ↔ record.forKind kind ∉ claimed := by
  constructor
  · intro hid
    rw [← hid]
    exact (resolve_spec h).2.1
  · exact fun hclaimed => (resolve_record hrecord h).1 ⟨hsound, hclaimed⟩

theorem resolve_main {a : TableAssignment} (hrecord : survey.persisted = some record)
    (h : resolve .main survey ∅ = some a) (id : UInt32) :
    a.id = id ↔ record.Sound survey .main ∧ id = record.main ∨
      ¬ record.Sound survey .main ∧ survey.FallsOn ∅ .main id := by
  obtain ⟨hkeeps, hfalls⟩ := resolve_record hrecord h
  by_cases hsound : record.Sound survey .main
  · have hid : a.id = record.main := hkeeps ⟨hsound, Finset.notMem_empty _⟩
    rw [hid]
    simp [hsound, eq_comm]
  · have hid := hfalls fun hboth => hsound hboth.1
    constructor
    · rintro rfl
      exact .inr ⟨hsound, hid⟩
    · rintro (⟨hsound', -⟩ | ⟨-, hid'⟩)
      · exact absurd hsound' hsound
      · exact hid.unique hid'

/-- **Which sound entries are kept**: those that no earlier lane falls back on. -/
theorem planTables_keeps {plan : TablePlan} (h : planTables survey = some plan)
    (hrecord : survey.persisted = some record) (hsound : record.Sound survey kind) :
    (plan.assignment kind).id = record.forKind kind ↔ ¬ record.Overtaken survey kind := by
  obtain ⟨main, bypass, lan, hmain, hbypass, hlan, hplan⟩ := planTables_iff.mp h
  have hassigned : ∀ a ∈ plan.assignments, a.kind = kind → plan.assignment kind = a := by
    intro a ha hkind
    have hsafe := safe_of_planTables h
    obtain ⟨hmem, hkind'⟩ := mem_assignment plan kind
    have hnodup : (plan.assignments.map TableAssignment.kind).Nodup := by
      rw [hsafe.kinds]
      decide
    exact List.inj_on_of_nodup_map hnodup hmem ha (hkind'.trans hkind.symm)
  have hmains := resolve_main hrecord hmain
  cases kind with
  | main =>
    rw [hassigned main (by simp [hplan]) (resolve_kind hmain), resolve_keeps hrecord hmain hsound]
    simp [PersistedTables.Overtaken]
  | bypass =>
    rw [hassigned bypass (by simp [hplan]) (resolve_kind hbypass),
      resolve_keeps hrecord hbypass hsound,
      Finset.mem_singleton]
    refine not_congr ⟨fun heq => ?_, fun hover => ((hmains _).mpr (.inr hover)).symm⟩
    rcases (hmains _).mp heq.symm with ⟨-, hsame⟩ | hfalls
    · exact absurd hsame.symm (hsound.distinct .main (by decide))
    · exact hfalls
  | lan =>
    rw [hassigned lan (by simp [hplan]) (resolve_kind hlan), resolve_keeps hrecord hlan hsound,
      Finset.mem_insert,
      Finset.mem_singleton]
    obtain ⟨hbkeeps, hbfalls⟩ := resolve_record hrecord hbypass
    refine not_congr ⟨fun heq => ?_, fun hover => ?_⟩
    · rcases heq with heq | heq
      · -- bypass holds it, so it has fallen back
        refine .inr ⟨main.id, (hmains _).mp rfl, fun hbsound => ?_, ?_⟩
        · by_contra hne
          have hkept : bypass.id = record.bypass :=
            hbkeeps ⟨hbsound, by simpa using fun hsame => hne hsame.symm⟩
          exact hsound.distinct .bypass (by decide) (hkept.symm.trans heq.symm)
        · rw [show record.lan = bypass.id from heq]
          refine hbfalls fun ⟨hbsound, hbclaimed⟩ => ?_
          have hkept : bypass.id = record.bypass := hbkeeps ⟨hbsound, hbclaimed⟩
          exact hsound.distinct .bypass (by decide) (hkept.symm.trans heq.symm)
      · rcases (hmains _).mp heq.symm with ⟨-, hsame⟩ | hfalls
        · exact absurd hsame.symm (hsound.distinct .main (by decide))
        · exact .inl hfalls
    · rcases hover with hover | ⟨id, hid, hlost, hfalls⟩
      · exact .inr ((hmains _).mpr (.inr hover)).symm
      · obtain rfl := (hmains id).mpr hid
        refine .inl (hfalls.unique (hbfalls fun ⟨hbsound, hbclaimed⟩ => hbclaimed ?_))
        rw [Finset.mem_singleton]
        exact (hlost hbsound).symm

/-! ## An entry that is lost -/

/-- Another manager's name at main's recorded id, which is also the preferred one. -/
def squattedSurvey : TableSurvey where
  named := fun id => if id = 51820 then some "corp-vpn" else none
  persisted := some ⟨51820, 51823, 51822⟩

theorem firstFree_squatted : firstFree squattedSurvey ∅ 51821 = some 51823 := by
  rw [firstFree, if_neg (by decide), dif_pos (by decide)]
  show firstFree squattedSurvey ∅ 51822 = some 51823
  rw [firstFree, if_neg (by decide), dif_pos (by decide)]
  show firstFree squattedSurvey ∅ 51823 = some 51823
  rw [firstFree, if_pos (by decide)]

/-- Main goes past the preferred ids, to the id of bypass. -/
def squattedPlan : TablePlan where
  assignments := [⟨.main, 51823, .allocated⟩, ⟨.bypass, 51821, .preferred⟩,
    ⟨.lan, 51822, .persisted⟩]
  complete := fun kind => by cases kind <;> simp

theorem planTables_squatted : planTables squattedSurvey = some squattedPlan := by
  refine planTables_iff.mpr ⟨_, _, _, ?_, rfl, rfl, rfl⟩
  show (firstFree squattedSurvey ∅ 51821).map _ = _
  rw [firstFree_squatted]
  rfl

theorem sound_squatted {kind : TableKind} (h : kind ≠ .main) :
    PersistedTables.Sound ⟨51820, 51823, 51822⟩ squattedSurvey kind := by
  cases kind with
  | main => exact absurd rfl h
  | bypass =>
    refine ⟨by
      decide, fun other _ => by
        cases other <;> simp_all [PersistedTables.forKind], fun name hname => ?_, ?_⟩
    · cases hname
    · exact fun hmem => absurd hmem (Finset.notMem_empty _)
  | lan =>
    refine ⟨by
      decide, fun other _ => by
        cases other <;> simp_all [PersistedTables.forKind], fun name hname => ?_, ?_⟩
    · cases hname
    · exact fun hmem => absurd hmem (Finset.notMem_empty _)

/-- Lan keeps its own. -/
theorem planTables_keeps_squatted :
    (squattedPlan.assignment .lan).id = 51822 ↔
      ¬ PersistedTables.Overtaken ⟨51820, 51823, 51822⟩ squattedSurvey .lan :=
  planTables_keeps planTables_squatted rfl (sound_squatted (by decide))

/-- **A sound entry is lost**: main, whose recorded and preferred id carries another name, takes
that of bypass. -/
theorem overtaken_entry :
    ¬ ∀ (survey : TableSurvey) (plan : TablePlan) (record : PersistedTables) (kind : TableKind),
      planTables survey = some plan → survey.persisted = some record → record.Sound survey kind →
      (plan.assignment kind).id = record.forKind kind := by
  intro h
  have hkept := h squattedSurvey squattedPlan _ .bypass planTables_squatted rfl
    (sound_squatted (by decide))
  revert hkept
  decide

end ProtonWire
