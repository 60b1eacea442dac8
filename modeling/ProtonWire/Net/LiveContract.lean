import ProtonWire.Net.Rtnetlink

/-!
# The live executor and its contract

`RouteTransaction::apply` undoes what it did by inverses, so it relies on its executor: the flag
says exactly whether the state changed, an error leaves the state unchanged, and the inverse of a
changing operation restores it.

* `KeepsContract`: an operation does so from a state;
* `KeepsWhen`: a condition on the matching objects, on the exchanges that fail and on what the
  kernel answers to the deletion of our object;
* **`exec_keeps_contract_iff`**: an operation keeps the contract exactly under that condition;
* `linux`: the kernel on the rules of the daemon, and three states that break it.
-/

namespace ProtonWire

open DumpedTable

namespace Rtnetlink

/-- What `apply` relies on, for one operation from one state: whatever exchanges fail, the inverse
of a changing operation restores the state when it succeeds, and it does so when none fails. -/
structure KeepsContract (N : Rtnetlink) (op : NetOp) (k : Kernel) : Prop where
  flag : ∀ flag, (N.exec op k).1 = .ok flag → (flag = true ↔ ¬ k.Same (N.exec op k).2)
  error : ∀ error, (N.exec op k).1 = .error error → k.Same (N.exec op k).2
  restores : (N.exec op k).1 = .ok true → ∀ fates flag,
    (N.exec (inverse op) ((N.exec op k).2.withFates fates)).1 = .ok flag →
      k.Same (N.exec (inverse op) ((N.exec op k).2.withFates fates)).2
  undisturbed : (N.exec op k).1 = .ok true →
    k.Same (N.exec (inverse op) ((N.exec op k).2.withFates [])).2

/-- An add keeps the contract when it stops at a present object, at a failing exchange or at a
refusal, or when the matcher recognises the object it puts in and the kernel, told to delete that
object, deletes it and no other. A delete keeps it when it finds nothing or fails before it deletes,
or when nothing that matches is left after the first deletion and the add puts back what was
deleted; a rule is searched for once more after its deletion, and that dump must go through. -/
def KeepsWhen (N : Rtnetlink) (op : NetOp) (k : Kernel) : Prop :=
  match op with
  | .addRule spec => AddUndone N.ruleAnswers (ruleMatches · spec) N.storedRule (N.buildRule spec)
      ((Kernel.rulesOf spec.family).table k)
  | .delRule spec => DeleteUndone N.ruleAnswers (ruleMatches · spec) 2 (N.buildRule spec)
      ((Kernel.rulesOf spec.family).table k)
  | .addRoute spec => AddUndone N.routeAnswers (routeMatches · spec) N.storedRoute (buildRoute spec)
      ((Kernel.routesOf spec.dest.addr.family).table k)
  | .delRoute spec => DeleteUndone N.routeAnswers (routeMatches · spec) 0 (buildRoute spec)
      ((Kernel.routesOf spec.dest.addr.family).table k)

theorem keepsContract_iff {N : Rtnetlink} {op : NetOp} {k : Kernel} {μ : Type} (P : Kernel.Part μ)
    {step undo : DumpedTable.Table μ → Except String Bool × DumpedTable.Table μ}
    (hop : N.exec op = P.on step) (hinverse : N.exec (inverse op) = P.on undo) :
    N.KeepsContract op k ↔ Keeps step undo (P.table k) := by
  constructor
  · rintro ⟨hflag, herror, hrestores, hundisturbed⟩
    rw [hop] at hflag herror hrestores hundisturbed
    rw [hinverse] at hrestores hundisturbed
    simp only [Kernel.Part.on_on, Kernel.Part.same_on] at hflag herror hrestores hundisturbed
    exact ⟨hflag, herror, hrestores, hundisturbed⟩
  · rintro ⟨hflag, herror, hrestores, hundisturbed⟩
    constructor
    · rw [hop]
      simp only [Kernel.Part.same_on]
      exact hflag
    · rw [hop]
      simp only [Kernel.Part.same_on]
      exact herror
    · rw [hop, hinverse]
      simp only [Kernel.Part.on_on, Kernel.Part.same_on]
      exact hrestores
    · rw [hop, hinverse]
      simp only [Kernel.Part.on_on, Kernel.Part.same_on]
      exact hundisturbed

/-- **Exactly when an operation keeps the contract.** A duplicate of a deleted rule, a rule or a
route that the matcher takes for ours and that the inverse does not install, an object that the
matcher does not recognise once it is installed, an object that the kernel deletes in the place of
ours, and a dump that fails after a deletion break it. -/
theorem exec_keeps_contract_iff (N : Rtnetlink) (hN : N.Documented) (op : NetOp) (k : Kernel) :
    N.KeepsContract op k ↔ N.KeepsWhen op k := by
  cases op with
  | addRule spec =>
    rw [keepsContract_iff (Kernel.rulesOf spec.family) rfl rfl]
    exact keeps_addOnce_iff hN.rules 2
  | delRule spec =>
    rw [keepsContract_iff (Kernel.rulesOf spec.family) rfl rfl]
    exact keeps_deleteUpTo_iff hN.rules 2
  | addRoute spec =>
    rw [keepsContract_iff (Kernel.routesOf spec.dest.addr.family) rfl rfl]
    exact keeps_addOnce_iff hN.routes 0
  | delRoute spec =>
    rw [keepsContract_iff (Kernel.routesOf spec.dest.addr.family) rfl rfl]
    exact keeps_deleteUpTo_iff hN.routes 0

/-! ## The kernel on the rules of the daemon -/

/-- A rule as it is dumped: the table, that nothing is suppressed and the protocol are always there,
and a mark comes with its mask. -/
def dumpedRule (message : RuleMessage) : RuleMessage :=
  { message with
    table := if ruleTable message < 256 then (ruleTable message).toUInt8 else rtTableCompat
    attributes := [.table (ruleTable message), .other 14 [255, 255, 255, 255], .other 21 [0]] ++
      (message.attributes.filter fun
        | .priority _ | .fwMark _ => true
        | a => a.isSelector) ++
      (message.mark?.map fun _ => RuleAttribute.fwMask 0xffffffff).toList }

/-- A route as it is dumped. -/
def dumpedRoute (message : RouteMessage) : RouteMessage :=
  { message with
    attributes := .table (routeTable message) :: message.attributes.filter fun
      | .table _ => false
      | _ => true }

/-- A rule agrees with a deletion in all that the deletion names. -/
def agreesRule (message rule : RuleMessage) : Bool :=
  (message.action = .unspec || message.action = rule.action) &&
    (ruleTable message = 0 || ruleTable message = ruleTable rule) &&
    (message.dstLen = 0 || message.dstLen = rule.dstLen) &&
    (message.srcLen = 0 || message.srcLen = rule.srcLen) &&
    (message.tos = 0 || message.tos = rule.tos) &&
    (message.attributes.filter fun
      | .priority _ | .fwMark _ | .fwMask _ => true
      | a => a.isSelector).all fun a => decide (a ∈ rule.attributes)

/-- Two routes of one destination in one table. -/
def sameDestination (message route : RouteMessage) : Bool :=
  routeTable message = routeTable route && message.destination? = route.destination? &&
    message.destinationPrefixLength = route.destinationPrefixLength

/-- The kernel: an add is exclusive, and a deletion takes the first object that agrees with it. -/
def linux : Rtnetlink where
  ruleRequest family := { family := family, table := 254 }
  ruleAnswers :=
    { add := fun rules message =>
        if dumpedRule message ∈ rules then none else some (rules ++ [dumpedRule message])
      del := fun rules message => (rules.find? (agreesRule message)).map rules.erase }
  routeAnswers :=
    { add := fun routes message =>
        if routes.any (sameDestination message) then none
        else some (routes ++ [dumpedRoute message])
      del := fun routes message => (routes.find? fun route =>
        sameDestination message route && message.oif? = route.oif?).map routes.erase }
  storedRule := dumpedRule
  storedRoute := dumpedRoute
  ruleAgrees message rule := agreesRule message rule = true
  routeAgrees message route := sameDestination message route = true

theorem linux_documented : linux.Documented := by
  refine ⟨⟨fun l sent l' h => ?_, fun l sent l' h => ?_⟩,
    ⟨fun l sent l' h => ?_, fun l sent l' h => ?_⟩⟩
  · dsimp only [linux] at h
    split_ifs at h
    cases h
    exact List.perm_append_singleton _ _
  · obtain ⟨o, hfind, rfl⟩ := Option.map_eq_some_iff.mp h
    exact ⟨o, List.mem_of_find?_eq_some hfind, List.find?_some hfind, .refl _⟩
  · dsimp only [linux] at h
    split_ifs at h
    cases h
    exact List.perm_append_singleton _ _
  · obtain ⟨o, hfind, rfl⟩ := Option.map_eq_some_iff.mp h
    have hfound := List.find?_some hfind
    rw [Bool.and_eq_true] at hfound
    exact ⟨o, List.mem_of_find?_eq_some hfind, hfound.1, .refl _⟩

/-- The tunnel rule of a session. -/
def tunnelRule : RuleSpec := ⟨51820, 31700, none, .v4, .toTable⟩

/-- The tunnel rule in a dump. -/
def liveTunnelRule : RuleMessage := dumpedRule (linux.buildRule tunnelRule)

/-- A rule of another manager, of the tunnel rule's table and priority, for marked packets. -/
def markedRule : RuleMessage := dumpedRule (linux.buildRule { tunnelRule with fwmark := some 7 })

/-- A kernel with some rules. -/
def rulesOnly (rules : List RuleMessage) (fates : List (Option ℕ)) : Kernel where
  rules
    | .v4 => rules
    | .v6 => []
  routes _ := []
  fates := fates

theorem exec_keeps_contract_iff_linux :
    linux.KeepsContract (.delRule tunnelRule) (rulesOnly [liveTunnelRule] []) := by
  refine (exec_keeps_contract_iff linux linux_documented (.delRule tunnelRule) _).mpr ?_
  refine .inr (.inr (.inr ⟨liveTunnelRule, by decide, fun rest hrest => ?_⟩))
  have hnil : some [] = some rest := hrest
  cases hnil
  exact ⟨fun o ho => absurd ho List.not_mem_nil, .inr rfl, [liveTunnelRule], by decide, .refl _⟩

/-- **The contract is broken** by the deletion of a rule that is there twice, though no exchange
fails: both are deleted and one is added back; by the deletion of a rule that is there once, where
the dump after the deletion fails; and by the add of a rule beside a marked rule of its table and
priority, which the kernel deletes with it. -/
theorem exec_breaks_contract :
    ¬ linux.KeepsContract (.delRule tunnelRule) (rulesOnly [liveTunnelRule, liveTunnelRule] []) ∧
      ¬ linux.KeepsContract (.delRule tunnelRule)
        (rulesOnly [liveTunnelRule] [none, none, some 0]) ∧
      ¬ linux.KeepsContract (.addRule tunnelRule) (rulesOnly [markedRule] []) := by
  refine ⟨fun hkeeps => ?_, fun hkeeps => ?_, fun hkeeps => ?_⟩
  · have hlen := ((hkeeps.undisturbed (by decide)).1 .v4).length_eq
    exact absurd hlen (by decide)
  · have hlen := ((hkeeps.error "rule dump: netlink error" (by decide)).1 .v4).length_eq
    exact absurd hlen (by decide)
  · have hlen := ((hkeeps.undisturbed (by decide)).1 .v4).length_eq
    exact absurd hlen (by decide)

end Rtnetlink

end ProtonWire
