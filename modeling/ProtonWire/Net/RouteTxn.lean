import ProtonWire.Lib.Rollback
import ProtonWire.Net.Tables

/-!
# Route transactions

`crates/net/src/route_txn.rs`: batches of route and rule operations against a table plan, applied in
order, with the changed prefix rolled back when one fails.

* `NetOp`, `inverse`, `RouteTransaction`: the operations, and a batch of operations its plan admits;
* `NetlinkExecutor`: the kernel surface a transaction runs against;
* `NetlinkExecutor.Honours`: its contract, on the rules and routes that are present;
* **`apply_atomic`**: a transaction is all or nothing, and keeps to its plan.
-/

namespace ProtonWire

/-! ## Operations -/

/-- What a policy rule does with matched traffic. -/
inductive RuleKind where
  | toTable
  | blackhole
  deriving DecidableEq

/-- The address family a rule speaks. -/
inductive Family where
  | v4
  | v6
  deriving DecidableEq

/-- One policy rule. -/
structure RuleSpec where
  table : UInt32
  priority : UInt32
  fwmark : Option UInt32
  family : Family
  action : RuleKind
  deriving DecidableEq

/-- An address, by its octets in network order. -/
inductive IpAddr where
  | v4 (octets : Vector UInt8 4)
  | v6 (octets : Vector UInt8 16)
  deriving DecidableEq

/-- The family of an address. -/
def IpAddr.family : IpAddr → Family
  | v4 _ => .v4
  | v6 _ => .v6

/-- A destination prefix. -/
structure DestPrefix where
  addr : IpAddr
  len : UInt8
  deriving DecidableEq

namespace DestPrefix

/-- The IPv4 default route. -/
def v4Default : DestPrefix := ⟨.v4 (.replicate 4 0), 0⟩

/-- The IPv6 default route. -/
def v6Default : DestPrefix := ⟨.v6 (.replicate 16 0), 0⟩

end DestPrefix

/-- One route. -/
structure RouteSpec where
  table : UInt32
  dest : DestPrefix
  oif : UInt32
  deriving DecidableEq

/-- One netlink operation. -/
inductive NetOp where
  | addRule (spec : RuleSpec)
  | delRule (spec : RuleSpec)
  | addRoute (spec : RouteSpec)
  | delRoute (spec : RouteSpec)
  deriving DecidableEq

/-- The table an operation touches. -/
def NetOp.table : NetOp → UInt32
  | addRule spec | delRule spec => spec.table
  | addRoute spec | delRoute spec => spec.table

/-- What rollback replays. -/
def inverse : NetOp → NetOp
  | .addRule spec => .delRule spec
  | .delRule spec => .addRule spec
  | .addRoute spec => .delRoute spec
  | .delRoute spec => .addRoute spec

/-- The kernel's `main` table. -/
def kernelMain : UInt32 := 254

/-! ## Transactions -/

/-- The mark-bypass rule into the kernel's main table. -/
def bypassIntoMain : NetOp → Bool
  | .addRule spec | .delRule spec => spec.table = kernelMain && spec.fwmark.isSome
  | _ => false

/-- The blackhole rule, which has no table. -/
def blackhole : NetOp → Bool
  | .addRule spec | .delRule spec => spec.action = .blackhole && spec.table = 0
  | _ => false

/-- What a transaction against a plan may hold. -/
def TablePlan.admits (plan : TablePlan) (op : NetOp) : Bool :=
  bypassIntoMain op || blackhole op || plan.owns op.table

theorem TablePlan.admits_inverse {plan : TablePlan} {op : NetOp} :
    plan.admits (inverse op) = plan.admits op := by
  cases op <;> rfl

/-- An operation refused at construction. -/
structure LookalikeTable where
  table : UInt32
  owned : Finset UInt32
  deriving DecidableEq

/-- The refusal as it prints. -/
def LookalikeTable.message (error : LookalikeTable) : String :=
  let owned := ", ".intercalate ((error.owned.sort (· ≤ ·)).map fun id => toString id)
  s!"table {error.table} is outside the plan (owned: \x7b{owned}\x7d) — a lookalike; refusing the op"

/-- A failed apply. -/
structure ApplyFailure where
  failed : NetOp
  error : String
  rolledBack : ℕ
  /-- The inverses that failed, in replay order. -/
  rollbackErrors : List (NetOp × String)
  deriving DecidableEq

/-- Operations validated against a plan. -/
structure RouteTransaction where
  plan : TablePlan
  ops : List NetOp
  admitted : ∀ op ∈ ops, plan.admits op = true

/-- The kernel surface a transaction runs against. -/
structure NetlinkExecutor (σ : Type*) where
  /-- Apply one operation; the flag reports whether the kernel's state changed. -/
  exec : NetOp → σ → Except String Bool × σ
  survey : String → σ → Except String TableSurvey × σ
  /-- Which of the operations have their state present. -/
  presentOps : List NetOp → σ → Except String (List NetOp) × σ

namespace RouteTransaction

/-- Start a transaction. -/
def new (plan : TablePlan) : RouteTransaction := ⟨plan, [], nofun⟩

/-- Add one operation. -/
def op (txn : RouteTransaction) (op : NetOp) : Except LookalikeTable RouteTransaction :=
  if h : txn.plan.admits op = true then
    .ok ⟨txn.plan, txn.ops ++ [op], by
      intro op' hop'
      rcases List.mem_append.mp hop' with hmem | hmem
      · exact txn.admitted op' hmem
      · rwa [List.mem_singleton.mp hmem]⟩
  else .error ⟨op.table, txn.plan.ids⟩

/-- Add operations one by one. -/
def extend (txn : RouteTransaction) : List NetOp → Except LookalikeTable RouteTransaction
  | [] => .ok txn
  | op :: ops => do (← txn.op op).extend ops

/-- A transaction accepts the operations its plan admits, and holds them in order. -/
theorem extend_eq_ok (txn : RouteTransaction) (ops : List NetOp)
    (h : ∀ op ∈ ops, txn.plan.admits op = true) :
    ∃ txn', txn.extend ops = .ok txn' ∧ txn'.plan = txn.plan ∧ txn'.ops = txn.ops ++ ops := by
  induction ops generalizing txn with
  | nil => exact ⟨txn, rfl, rfl, (List.append_nil _).symm⟩
  | cons op ops ih =>
    have hop := h op List.mem_cons_self
    obtain ⟨txn', hext, hplan, hops⟩ := ih ⟨txn.plan, txn.ops ++ [op], _⟩ fun op' hop' =>
      h op' (List.mem_cons_of_mem _ hop')
    refine ⟨txn', ?_, hplan, by rw [hops, List.append_assoc]; rfl⟩
    rw [extend, RouteTransaction.op, dif_pos hop]
    exact hext

variable {σ : Type*}

/-- The loop of `apply`, with the operations that changed state so far. -/
def applyLoop (E : NetlinkExecutor σ) : List NetOp → List NetOp → σ →
    Except ApplyFailure (List NetOp) × σ
  | [], applied, x => (.ok applied, x)
  | op :: ops, applied, x =>
    match E.exec op x with
    | (.ok true, x) => applyLoop E ops (applied ++ [op]) x
    -- nothing to undo
    | (.ok false, x) => applyLoop E ops applied x
    | (.error error, x) =>
      let rollback := Rollback.execAll E.exec (Rollback.undo inverse applied) x
      (.error ⟨op, error, applied.length, rollback.1⟩, rollback.2)

/-- Apply in order; roll the changed prefix back on the first failure. -/
def apply (txn : RouteTransaction) (E : NetlinkExecutor σ) (x : σ) :
    Except ApplyFailure (List NetOp) × σ :=
  applyLoop E txn.ops [] x

end RouteTransaction

/-! ## The contract -/

/-- What an operation adds or removes. -/
inductive NetObject where
  | rule (spec : RuleSpec)
  | route (spec : RouteSpec)
  deriving DecidableEq

namespace NetOp

/-- The object of an operation. -/
def object : NetOp → NetObject
  | addRule spec | delRule spec => .rule spec
  | addRoute spec | delRoute spec => .route spec

/-- Whether an operation adds. -/
def isAdd : NetOp → Bool
  | addRule _ | addRoute _ => true
  | delRule _ | delRoute _ => false

/-- Adding what is present and deleting what is absent change nothing. -/
def effect (op : NetOp) (routing : Finset NetObject) : Finset NetObject :=
  if op.isAdd then insert op.object routing else routing.erase op.object

theorem object_inverse (op : NetOp) : (inverse op).object = op.object := by cases op <;> rfl

theorem isAdd_inverse (op : NetOp) : (inverse op).isAdd = !op.isAdd := by cases op <;> rfl

/-- **The inverse of an operation that changed the state restores it.** -/
theorem effect_inverse (op : NetOp) (routing : Finset NetObject) (h : op.effect routing ≠ routing) :
    (inverse op).effect (op.effect routing) = routing := by
  unfold effect at h ⊢
  rw [object_inverse, isAdd_inverse]
  cases hadd : op.isAdd with
  | true =>
    rw [hadd, if_pos rfl] at h
    rw [Bool.not_true, if_neg nofun, if_pos rfl]
    exact Finset.erase_insert fun hmem => h (Finset.insert_eq_self.mpr hmem)
  | false =>
    rw [hadd, if_neg nofun] at h
    rw [Bool.not_false, if_pos rfl, if_neg nofun]
    by_contra hne
    exact h (Finset.erase_eq_self.mpr fun hmem => hne (Finset.insert_erase hmem))

end NetOp

namespace NetlinkExecutor

variable {σ : Type*}

/-- The inverse of the still-present operations among the adds of a session. -/
def cleanupOps (E : NetlinkExecutor σ) (session : List NetOp) (x : σ) :
    Except String (List NetOp) × σ :=
  match E.presentOps (session.filter NetOp.isAdd) x with
  | (.ok present, x) => (.ok (present.map inverse), x)
  | (.error error, x) => (.error error, x)

/-- The executor's contract, on the rules and routes present on the host. -/
structure Honours (E : NetlinkExecutor σ) (routing : σ → Finset NetObject) : Prop where
  exec : Rollback.Honours E.exec routing NetOp.effect
  survey : ∀ text x, routing (E.survey text x).2 = routing x
  presentOps : ∀ desired x, routing (E.presentOps desired x).2 = routing x
  present : ∀ desired x present, (E.presentOps desired x).1 = .ok present →
    present = desired.filter fun op => op.object ∈ routing x

/-- The same executor, with a record of the operations it was asked to execute. -/
def recording (E : NetlinkExecutor σ) : NetlinkExecutor (σ × List NetOp) where
  exec op x := ((E.exec op x.1).1, (E.exec op x.1).2, x.2 ++ [op])
  survey text x := ((E.survey text x.1).1, (E.survey text x.1).2, x.2)
  presentOps desired x := ((E.presentOps desired x.1).1, (E.presentOps desired x.1).2, x.2)

end NetlinkExecutor

/-! ## Atomicity -/

namespace RouteTransaction

open Rollback

section
variable {σ : Type*} {E : NetlinkExecutor σ} {routing : σ → Finset NetObject}

theorem applyLoop_atomic (h : E.Honours routing) {start : Finset NetObject}
    (ops applied : List NetOp) (x : σ)
    (hback : replay NetOp.effect (undo inverse applied) (routing x) = start) :
    (∀ result y, applyLoop E ops applied x = (.ok result, y) →
      result = applied ++ changing NetOp.effect ops (routing x) ∧
      routing y = replay NetOp.effect ops (routing x)) ∧
    ∀ failure y, applyLoop E ops applied x = (.error failure, y) → failure.rollbackErrors = [] →
      routing y = start := by
  induction ops generalizing applied x with
  | nil =>
    refine ⟨fun result y hres => ?_, fun failure y hres => (by cases hres)⟩
    cases hres
    exact ⟨(List.append_nil _).symm, rfl⟩
  | cons op ops ih =>
    unfold applyLoop
    rcases hexec : E.exec op x with ⟨error | _ | _, y⟩
    · -- the failing call changed nothing, so the undoing starts where the loop stood
      refine ⟨fun result z hres => (by cases hres), fun failure z hres hclean => ?_⟩
      cases hres
      rw [h.exec.execAll _ _ hclean, h.exec.refused hexec, hback]
    · obtain ⟨hsame, hno⟩ := h.exec.unchanged hexec
      have hrest := ih applied y (by rw [hsame, hback])
      rw [hsame] at hrest
      rw [changing, if_pos hno, replay_cons, hno]
      exact hrest
    · obtain ⟨heffect, hchanged⟩ := h.exec.changed hexec
      have hundone : replay NetOp.effect (undo inverse (applied ++ [op])) (routing y) = start := by
        rw [undo_append, replay_append, heffect]
        rw [show replay NetOp.effect (undo inverse [op]) (op.effect (routing x)) = routing x from
          NetOp.effect_inverse op _ hchanged, hback]
      have hrest := ih (applied ++ [op]) y hundone
      rw [heffect, List.append_assoc] at hrest
      rw [changing, if_neg hchanged, replay_cons]
      exact hrest

/-! ### The executed operations -/

theorem recording_exec (op : NetOp) (x : σ) (log : List NetOp) :
    E.recording.exec op (x, log) = ((E.exec op x).1, (E.exec op x).2, log ++ [op]) := rfl

theorem execAll_recording (ops : List NetOp) (x : σ) (log : List NetOp) :
    execAll E.recording.exec ops (x, log) = ((execAll E.exec ops x).1, (execAll E.exec ops x).2,
      log ++ ops) := by
  induction ops generalizing x log with
  | nil => rw [List.append_nil]; rfl
  | cons op ops ih =>
    rw [execAll, execAll, recording_exec]
    rcases E.exec op x with ⟨error | flag, y⟩ <;> dsimp only <;> rw [ih, List.append_assoc] <;> rfl

theorem applyLoop_recording (ops applied : List NetOp) (x : σ) (log : List NetOp) :
    ∃ calls, applyLoop E.recording ops applied (x, log) =
        ((applyLoop E ops applied x).1, (applyLoop E ops applied x).2, log ++ calls) ∧
      ∀ op ∈ calls, op ∈ ops ∨ op ∈ undo inverse (applied ++ ops) := by
  induction ops generalizing applied x log with
  | nil => exact ⟨[], by rw [List.append_nil]; rfl, nofun⟩
  | cons op ops ih =>
    rw [applyLoop, applyLoop, recording_exec]
    rcases E.exec op x with ⟨error | _ | _, y⟩
    · dsimp only
      rw [execAll_recording]
      refine ⟨op :: undo inverse applied, by rw [List.append_assoc]; rfl, ?_⟩
      rintro op' (_ | ⟨_, hop'⟩)
      · exact Or.inl List.mem_cons_self
      · refine Or.inr ?_
        rw [undo_append]
        exact List.mem_append_right _ hop'
    · obtain ⟨calls, heq, hcalls⟩ := ih applied y (log ++ [op])
      refine ⟨op :: calls, by dsimp only; rw [heq, List.append_assoc]; rfl, ?_⟩
      rintro op' (_ | ⟨_, hop'⟩)
      · exact Or.inl List.mem_cons_self
      · refine (hcalls op' hop').imp (List.mem_cons_of_mem _) fun hundo => ?_
        obtain ⟨done, hdone, rfl⟩ := (mem_undo inverse).mp hundo
        refine (mem_undo inverse).mpr ⟨done, ?_, rfl⟩
        rcases List.mem_append.mp hdone with hmem | hmem
        · exact List.mem_append_left _ hmem
        · exact List.mem_append_right _ (List.mem_cons_of_mem _ hmem)
    · obtain ⟨calls, heq, hcalls⟩ := ih (applied ++ [op]) y (log ++ [op])
      refine ⟨op :: calls, by dsimp only; rw [heq, List.append_assoc]; rfl, ?_⟩
      rintro op' (_ | ⟨_, hop'⟩)
      · exact Or.inl List.mem_cons_self
      · refine (hcalls op' hop').imp (List.mem_cons_of_mem _) fun hundo => ?_
        rwa [List.append_assoc] at hundo

theorem admitted_of_recorded (txn : RouteTransaction) (x : σ) :
    ∀ op ∈ (txn.apply E.recording (x, [])).2.2, txn.plan.admits op = true := by
  obtain ⟨calls, heq, hcalls⟩ := applyLoop_recording (E := E) txn.ops [] x []
  intro op hop
  rw [apply, heq] at hop
  rcases hcalls op hop with hmem | hundo
  · exact txn.admitted op hmem
  · obtain ⟨done, hdone, rfl⟩ := (mem_undo inverse).mp hundo
    rw [TablePlan.admits_inverse]
    exact txn.admitted done hdone

/-- **A transaction is all or nothing.** Whatever calls fail: a transaction that succeeds reports
exactly the operations that changed the state, and undoing those restores it; a transaction that
fails and reports no rollback error leaves the state as it was; and neither executes an operation
that its plan does not admit, in the rollback included. -/
theorem apply_atomic {σ : Type*} (E : NetlinkExecutor σ) (routing : σ → Finset NetObject)
    (h : E.Honours routing) (txn : RouteTransaction) (x : σ) :
    (∀ applied y, txn.apply E x = (.ok applied, y) →
      applied = changing NetOp.effect txn.ops (routing x) ∧
        routing y = replay NetOp.effect applied (routing x) ∧
        replay NetOp.effect (undo inverse applied) (routing y) = routing x) ∧
    (∀ failure y, txn.apply E x = (.error failure, y) → failure.rollbackErrors = [] →
     routing y = routing x) ∧
    ∀ op ∈ (txn.apply E.recording (x, [])).2.2, txn.plan.admits op = true := by
  obtain ⟨hok, herror⟩ := applyLoop_atomic h txn.ops [] x rfl
  refine ⟨fun applied y hres => ?_, herror, admitted_of_recorded txn x⟩
  obtain ⟨rfl, hy⟩ := hok applied y hres
  rw [hy]
  exact ⟨rfl, (replay_changing NetOp.effect txn.ops (routing x)).symm,
    replay_undo_changing NetOp.effect_inverse txn.ops (routing x)⟩

end

end RouteTransaction

/-! ## A host that fails on demand -/

/-- An executor over the objects themselves: the calls its script marks fail. -/
def scripted : NetlinkExecutor (Finset NetObject × List Bool) where
  exec op x :=
    if x.2.headD false then (.error "refused", x.1, x.2.tail)
    else (.ok (decide (op.effect x.1 ≠ x.1)), op.effect x.1, x.2.tail)
  survey _ x := (.ok {}, x)
  presentOps desired x := (.ok (desired.filter fun op => op.object ∈ x.1), x)

theorem scripted_honours : scripted.Honours Prod.fst where
  exec := {
    ok := fun op x flag hok => by
      unfold scripted at hok ⊢
      dsimp only at hok ⊢
      split_ifs at hok ⊢
      rfl
    flag := fun op x flag hok => by
      unfold scripted at hok ⊢
      dsimp only at hok ⊢
      split_ifs at hok ⊢
      cases hok
      exact decide_eq_true_iff
    error := fun op x e herror => by
      unfold scripted at herror ⊢
      dsimp only at herror ⊢
      split_ifs at herror ⊢
      rfl }
  survey _ _ := rfl
  presentOps _ _ := rfl
  present _ _ _ hpresent := by
    cases hpresent
    rfl

/-- Every lane at its preferred id. -/
def preferredPlan : TablePlan where
  assignments := TableKind.all.map fun kind => ⟨kind, kind.preferredId, .preferred⟩
  complete kind := by cases kind <;> simp [TableKind.all]

/-- Two adds of the default route, with the deletion of an absent rule between them. -/
def doubleDefault : RouteTransaction where
  plan := preferredPlan
  ops :=
    [.addRoute ⟨51820, .v4Default, 5⟩, .delRule ⟨51820, 31700, none, .v4, .toTable⟩,
     .addRoute ⟨51820, .v4Default, 5⟩]
  admitted := by decide

theorem apply_atomic_doubleDefault :
    (doubleDefault.apply scripted (∅, [false, false, true])).2.1 = ∅ ∧
      Rollback.replay NetOp.effect (Rollback.undo inverse [.addRoute ⟨51820, .v4Default, 5⟩])
        {.route ⟨51820, .v4Default, 5⟩} = ∅ :=
  ⟨(RouteTransaction.apply_atomic scripted Prod.fst scripted_honours doubleDefault (∅,
    [false, false, true])).2.1
      _ _ rfl rfl,
    ((RouteTransaction.apply_atomic scripted Prod.fst scripted_honours doubleDefault (∅, [])).1 _
     _ rfl).2.2⟩

end ProtonWire
