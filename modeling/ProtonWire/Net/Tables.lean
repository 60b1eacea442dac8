import Mathlib

/-!
# The routing-table plan

`crates/net/src/tables.rs`: which table ids the daemon owns this run. Per lane the persisted id
unless something contradicts it, else the preferred id if it is free, else the first free id above
it.

* `TablePlan`: the resolved set, with one assignment for every lane;
* `resolve`, `planTables`: the decision. The search for a free id ends without one when it runs past
  the last id, where the source's counter overflows.
-/

namespace ProtonWire

/-- The three tables, one per policy lane. -/
inductive TableKind where
  | main
  | bypass
  | lan
  deriving DecidableEq

namespace TableKind

/-- Every kind, in plan order. -/
def all : List TableKind := [.main, .bypass, .lan]

/-- The recommended id. -/
def preferredId : TableKind → UInt32
  | main => 51820
  | bypass => 51821
  | lan => 51822

/-- The name in `rt_tables`. -/
def canonicalName : TableKind → String
  | main => "protonwire-main"
  | bypass => "protonwire-bypass"
  | lan => "protonwire-lan"

end TableKind

/-- How an id was chosen. -/
inductive Provenance where
  | preferred
  | persisted
  | allocated
  deriving DecidableEq

/-- One resolved table. -/
structure TableAssignment where
  kind : TableKind
  id : UInt32
  provenance : Provenance
  deriving DecidableEq

/-- The resolved set. -/
structure TablePlan where
  assignments : List TableAssignment
  complete : ∀ kind, ∃ a ∈ assignments, a.kind = kind

namespace TablePlan

theorem find_isSome (plan : TablePlan) (kind : TableKind) :
    (plan.assignments.find? fun a => a.kind = kind).isSome := by
  obtain ⟨a, ha, hk⟩ := plan.complete kind
  exact List.find?_isSome.mpr ⟨a, ha, by simpa using hk⟩

/-- The assignment for one kind. -/
def assignment (plan : TablePlan) (kind : TableKind) : TableAssignment :=
  (plan.assignments.find? fun a => a.kind = kind).get (plan.find_isSome kind)

/-- Every planned id. -/
def ids (plan : TablePlan) : Finset UInt32 := (plan.assignments.map TableAssignment.id).toFinset

/-- Whether an id is ours this run. -/
def owns (plan : TablePlan) (id : UInt32) : Bool := plan.assignments.any fun a => a.id = id

theorem owns_assignment (plan : TablePlan) (kind : TableKind) :
    plan.owns (plan.assignment kind).id = true := by
  have hmem : plan.assignment kind ∈ plan.assignments :=
    List.mem_of_find?_eq_some (Option.some_get (plan.find_isSome kind)).symm
  exact List.any_eq_true.mpr ⟨_, hmem, by simp⟩

end TablePlan

/-- The ownership record the daemon persists. -/
structure PersistedTables where
  main : UInt32
  bypass : UInt32
  lan : UInt32
  deriving DecidableEq

/-- The recorded id of a lane. -/
def PersistedTables.forKind (persisted : PersistedTables) : TableKind → UInt32
  | .main => persisted.main
  | .bypass => persisted.bypass
  | .lan => persisted.lan

/-- What the planner knows about the host. -/
structure TableSurvey where
  /-- The names in `rt_tables`. -/
  named : UInt32 → Option String := fun _ => none
  /-- Ids referenced by active rules or routes. -/
  occupied : Finset UInt32 := ∅
  /-- The occupied ids whose entries are ours by shape. -/
  occupiedByUs : Finset UInt32 := ∅
  persisted : Option PersistedTables := none

namespace Tables

/-- The whole range up to here is the kernel's and iproute2's. -/
def kernelReservedMax : UInt32 := 255

/-- Whether an id can be claimed. -/
def claimable (id : UInt32) (survey : TableSurvey) (claimed : Finset UInt32) : Bool :=
  decide (kernelReservedMax < id) && (survey.named id).isNone && decide (id ∉ survey.occupied) &&
    decide (id ∉ claimed)

/-- Whether an id is free for an allocation, outside the whole preferred set. -/
def free (id : UInt32) (survey : TableSurvey) (claimed : Finset UInt32) : Bool :=
  claimable id survey claimed && !TableKind.all.any fun kind => kind.preferredId = id

/-- The first free id from `candidate` on. -/
def firstFree (survey : TableSurvey) (claimed : Finset UInt32) (candidate : UInt32) :
    Option UInt32 :=
  if free candidate survey claimed then some candidate
  else if h : candidate.toNat + 1 < UInt32.size then firstFree survey claimed (candidate + 1)
  else none
termination_by UInt32.size - candidate.toNat
decreasing_by
  have hsucc : (candidate + 1).toNat = candidate.toNat + 1 := by
    rw [UInt32.toNat_add]
    exact Nat.mod_eq_of_lt h
  omega

/-- The persisted id of a lane, unless something contradicts it. -/
def resolvePersisted (kind : TableKind) (survey : TableSurvey) (claimed : Finset UInt32)
    (persisted : PersistedTables) : Option TableAssignment :=
  let id := persisted.forKind kind
  let occupied := decide (id ∈ survey.occupied)
  let provenOurs := decide (id ∈ survey.occupiedByUs) || (survey.named id).any fun name =>
    name = kind.canonicalName
  let contradicted := (survey.named id).any fun name => name ≠ kind.canonicalName
  let collidesWithSibling := TableKind.all.any fun other => other ≠ kind &&
    persisted.forKind other = id
  let valid := decide (kernelReservedMax < id) && !collidesWithSibling && decide (id ∉ claimed)
  if !contradicted && valid && (!occupied || provenOurs) then some ⟨kind, id, .persisted⟩ else none

/-- One lane's resolution. -/
def resolve (kind : TableKind) (survey : TableSurvey) (claimed : Finset UInt32) :
    Option TableAssignment :=
  match survey.persisted.bind (resolvePersisted kind survey claimed) with
  | some assignment => some assignment
  | none =>
    let id :=
      if claimable kind.preferredId survey claimed then some kind.preferredId
      else firstFree survey claimed (kind.preferredId + 1)
    id.map fun id => ⟨kind, id, if id = kind.preferredId then .preferred else .allocated⟩

theorem resolve_kind {kind : TableKind} {survey : TableSurvey} {claimed : Finset UInt32}
    {a : TableAssignment} (h : resolve kind survey claimed = some a) : a.kind = kind := by
  unfold resolve at h
  split at h
  · next assignment hpersisted =>
    obtain ⟨persisted, -, hres⟩ := Option.bind_eq_some_iff.mp hpersisted
    unfold resolvePersisted at hres
    dsimp only at hres
    split_ifs at hres
    cases hres
    cases h
    rfl
  · obtain ⟨id, -, rfl⟩ := Option.map_eq_some_iff.mp h
    rfl

end Tables

open Tables in
/-- Decide the plan, main first; a later lane skips the ids of the earlier ones. -/
def planTables (survey : TableSurvey) : Option TablePlan :=
  match hm : resolve .main survey ∅ with
  | none => none
  | some main =>
    match hb : resolve .bypass survey {main.id} with
    | none => none
    | some bypass =>
      match hl : resolve .lan survey {bypass.id, main.id} with
      | none => none
      | some lan => some {
          assignments := [main, bypass, lan]
          complete := fun kind => by
            cases kind with
            | main => exact ⟨main, by simp, resolve_kind hm⟩
            | bypass => exact ⟨bypass, by simp, resolve_kind hb⟩
            | lan => exact ⟨lan, by simp, resolve_kind hl⟩ }

end ProtonWire
