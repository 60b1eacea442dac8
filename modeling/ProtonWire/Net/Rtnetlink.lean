import ProtonWire.Lib.DumpedTable
import ProtonWire.Net.RouteTxn

/-!
# The live executor

`RtnetlinkExecutor` of `crates/net/src/route_txn.rs`, over a kernel that holds rules and routes of
each family, duplicates allowed. Any netlink exchange may fail, a dump after any of its messages.

What the netlink library puts in a fresh rule request, and what the kernel makes of a message, are
parameters (`Rtnetlink`), with what rtnetlink documents of them (`Documented`).

* `ruleMatches`, `routeMatches`: which live messages an executor takes for its own;
* `exec`: one operation.
-/

namespace ProtonWire

open DumpedTable

/-! ## Messages -/

/-- What a live rule does. -/
inductive NetlinkRuleAction where
  | unspec
  | toTable
  | blackhole
  | other (action : UInt8)
  deriving DecidableEq

/-- An attribute of a rule message. -/
inductive RuleAttribute where
  | table (table : UInt32)
  | priority (priority : UInt32)
  | fwMark (mark : UInt32)
  | fwMask (mask : UInt32)
  | other (kind : UInt16) (payload : List UInt8)
  deriving DecidableEq

/-- A rule message. The lengths are those of the source and destination selectors. -/
structure RuleMessage where
  family : Family
  dstLen : UInt8 := 0
  srcLen : UInt8 := 0
  tos : UInt8 := 0
  table : UInt8 := 0
  action : NetlinkRuleAction := .unspec
  flags : UInt32 := 0
  attributes : List RuleAttribute := []
  deriving DecidableEq

/-- The kinds of `linux/fib_rules.h` that narrow nothing: `FRA_GOTO`, `FRA_FLOW`, `FRA_PAD`,
`FRA_PROTOCOL` and the unused ones. -/
def neutralKinds : List UInt16 := [0, 4, 5, 7, 8, 9, 11, 18, 21]

/-- `FRA_SUPPRESS_IFGROUP` and `FRA_SUPPRESS_PREFIXLEN`. -/
def suppressorKinds : List UInt16 := [13, 14]

/-- An attribute that narrows a rule or suppresses what it finds. A suppressor of `-1` is none, and
each dumped rule carries one. -/
def RuleAttribute.isSelector : RuleAttribute → Bool
  | other kind payload => !(decide (kind ∈ neutralKinds) ||
      decide (kind ∈ suppressorKinds) && decide (payload = [255, 255, 255, 255]))
  | _ => false

inductive RouteProtocol where
  | static
  | other (protocol : UInt8)
  deriving DecidableEq

inductive RouteScope where
  | universe
  | link
  | other (scope : UInt8)
  deriving DecidableEq

inductive RouteType where
  | unicast
  | other (kind : UInt8)
  deriving DecidableEq

/-- An address of a route message. -/
inductive RouteAddress where
  | ip (addr : IpAddr)
  | other (bytes : List UInt8)
  deriving DecidableEq

/-- An attribute of a route message. -/
inductive RouteAttribute where
  | destination (addr : RouteAddress)
  | oif (index : UInt32)
  | table (table : UInt32)
  | gateway (addr : RouteAddress)
  | other (kind : UInt16) (payload : List UInt8)
  deriving DecidableEq

/-- A route message. -/
structure RouteMessage where
  addressFamily : Family
  destinationPrefixLength : UInt8
  table : UInt8
  protocol : RouteProtocol
  scope : RouteScope
  kind : RouteType
  attributes : List RouteAttribute
  deriving DecidableEq

/-- The marker for a table id that does not fit the header. -/
def rtTableCompat : UInt8 := 252

/-- The route an operation sends. The kernel's form of a default route has no destination. -/
def buildRoute (spec : RouteSpec) : RouteMessage where
  addressFamily := spec.dest.addr.family
  destinationPrefixLength := spec.dest.len
  table := if spec.table ≤ 255 then spec.table.toUInt8 else rtTableCompat
  protocol := .static
  scope := .link
  kind := .unicast
  attributes :=
    (if spec.dest.len = 0 then [.oif spec.oif]
     else [.destination (.ip spec.dest.addr), .oif spec.oif]) ++
      if 255 < spec.table then [.table spec.table] else []

namespace RuleAttribute

/-- The mark of a mark attribute. -/
def mark? : RuleAttribute → Option UInt32
  | fwMark mark => some mark
  | _ => none

/-- The mask of a mask attribute. -/
def mask? : RuleAttribute → Option UInt32
  | fwMask mask => some mask
  | _ => none

end RuleAttribute

namespace RuleMessage

variable (message : RuleMessage)

/-- The mark of a rule. -/
def mark? : Option UInt32 := message.attributes.findSome? RuleAttribute.mark?

/-- The mask of a rule, where it carries one. -/
def mask? : Option UInt32 := message.attributes.findSome? RuleAttribute.mask?

end RuleMessage

namespace RouteAttribute

/-- The address of a destination attribute. -/
def destination? : RouteAttribute → Option RouteAddress
  | destination addr => some addr
  | _ => none

/-- The index of an output interface attribute. -/
def oif? : RouteAttribute → Option UInt32
  | oif index => some index
  | _ => none

/-- `RTA_GATEWAY`. -/
def isGateway : RouteAttribute → Bool
  | gateway _ => true
  | _ => false

end RouteAttribute

namespace RouteMessage

variable (message : RouteMessage)

/-- The destination of a route, or none where it is a default route. -/
def destination? : Option RouteAddress :=
  if message.destinationPrefixLength = 0 then none
  else message.attributes.findSome? RouteAttribute.destination?

/-- The output interface of a route. -/
def oif? : Option UInt32 := message.attributes.findSome? RouteAttribute.oif?

end RouteMessage

/-- The table a live rule references. -/
def ruleTable (message : RuleMessage) : UInt32 :=
  (message.attributes.findSome? fun
    | .table table => some table
    | _ => none).getD message.table.toUInt32

/-- Whether a live rule is ours by shape. -/
def ruleMatches (message : RuleMessage) (spec : RuleSpec) : Bool :=
  let priority := message.attributes.findSome? fun
    | .priority priority => some priority
    | _ => none
  let fwmark := message.attributes.findSome? fun
    | .fwMark mark => some mark
    | _ => none
  let expectedAction := match spec.action with
    | .toTable => NetlinkRuleAction.toTable
    | .blackhole => .blackhole
  if message.action ≠ expectedAction then false
  else
    let fwmask := (message.attributes.findSome? fun
      | .fwMask mask => some mask
      | _ => none).getD 0xffffffff
    ruleTable message = spec.table && priority = some spec.priority && fwmark = spec.fwmark &&
    fwmask = 0xffffffff

/-- The table a live route references. -/
def routeTable (message : RouteMessage) : UInt32 :=
  ((message.attributes.findSome? fun
    | .table table => some table
    | _ => none).or
    (if message.table ≠ rtTableCompat then some message.table.toUInt32 else none)).getD 0

/-- Whether a live route is ours by shape. -/
def routeMatches (message : RouteMessage) (spec : RouteSpec) : Bool :=
  if message.addressFamily ≠ spec.dest.addr.family then false
  else
    let destMatches := match message.attributes.findSome? fun
        | .destination addr => some addr
        | _ => none with
      | some found => decide (found = .ip spec.dest.addr)
      | none => decide (spec.dest.len = 0)
    let oif := message.attributes.findSome? fun
      | .oif index => some index
      | _ => none
    let gateway := message.attributes.any fun
      | .gateway _ => true
      | _ => false
    routeTable message = spec.table && message.destinationPrefixLength = spec.dest.len &&
    destMatches &&
      oif = some spec.oif && (message.addressFamily = .v6 || message.scope = .link) && !gateway

/-! ## The kernel -/

/-- The message library and the kernel. For the rules and for the routes of a family: what the
kernel holds after a message or that it refuses it, the form in which it dumps what it was sent, and
the objects that a message stands for. -/
structure Rtnetlink where
  ruleRequest : Family → RuleMessage
  ruleAnswers : Answers RuleMessage
  routeAnswers : Answers RouteMessage
  storedRule : RuleMessage → RuleMessage
  storedRoute : RouteMessage → RouteMessage
  ruleAgrees : RuleMessage → RuleMessage → Prop
  routeAgrees : RouteMessage → RouteMessage → Prop

/-- What rtnetlink documents: an acknowledged `RTM_NEWRULE` or `RTM_NEWROUTE` puts in the object of
the message, an acknowledged `RTM_DELRULE` or `RTM_DELROUTE` takes out one object that agrees with
the message. -/
structure Rtnetlink.Documented (N : Rtnetlink) : Prop where
  rules : N.ruleAnswers.Lawful N.storedRule N.ruleAgrees
  routes : N.routeAnswers.Lawful N.storedRoute N.routeAgrees

/-- The rules and the routes of each family in dump order, and what becomes of the next exchanges: a
`some n` fails, a dump after `n` messages. -/
structure Kernel where
  rules : Family → List RuleMessage
  routes : Family → List RouteMessage
  fates : List (Option ℕ)

namespace Kernel

/-- The same multiset of rules and the same routes. -/
def Same (k k' : Kernel) : Prop :=
  (∀ family, (k.rules family).Perm (k'.rules family)) ∧
    ∀ family, (k.routes family).Perm (k'.routes family)

/-- The kernel's state, with other fates for the exchanges to come. -/
def withFates (k : Kernel) (fates : List (Option ℕ)) : Kernel := { k with fates := fates }

/-- A part of what the kernel holds: the rules of a family, or its routes. -/
structure Part (μ : Type) where
  get : Kernel → List μ
  set : Kernel → List μ → Kernel
  get_set : ∀ k l, get (set k l) = l
  set_set : ∀ k l l', set (set k l) l' = set k l'
  same_set : ∀ k l, k.Same (set k l) ↔ (get k).Perm l
  get_withFates : ∀ k fates, get (k.withFates fates) = get k
  set_withFates : ∀ k l fates, set (k.withFates fates) l = (set k l).withFates fates

/-- The rules of a family. -/
def rulesOf (family : Family) : Part RuleMessage where
  get k := k.rules family
  set k l := { k with rules := Function.update k.rules family l }
  get_set k l := Function.update_self ..
  set_set k l l' := by
    simp only [Function.update_idem]
  same_set k l := by
    constructor
    · intro h
      have hrules := h.1 family
      dsimp only at hrules
      rwa [Function.update_self] at hrules
    · refine fun h => ⟨fun f => ?_, fun f => .refl _⟩
      dsimp only
      by_cases hf : f = family
      · subst hf
        rwa [Function.update_self]
      · rw [Function.update_of_ne hf]
  get_withFates k fates := rfl
  set_withFates k l fates := rfl

/-- The routes of a family. -/
def routesOf (family : Family) : Part RouteMessage where
  get k := k.routes family
  set k l := { k with routes := Function.update k.routes family l }
  get_set k l := Function.update_self ..
  set_set k l l' := by
    simp only [Function.update_idem]
  same_set k l := by
    constructor
    · intro h
      have hroutes := h.2 family
      dsimp only at hroutes
      rwa [Function.update_self] at hroutes
    · refine fun h => ⟨fun f => .refl _, fun f => ?_⟩
      dsimp only
      by_cases hf : f = family
      · subst hf
        rwa [Function.update_self]
      · rw [Function.update_of_ne hf]
  get_withFates k fates := rfl
  set_withFates k l fates := rfl

namespace Part

variable {μ : Type} (P : Part μ)

/-- The part and the fates. -/
def table (k : Kernel) : DumpedTable.Table μ := ⟨P.get k, k.fates⟩

/-- A step on the part. -/
def on (step : DumpedTable.Table μ → Except String Bool × DumpedTable.Table μ) (k : Kernel) :
    Except String Bool × Kernel :=
  ((step (P.table k)).1, (P.set k (step (P.table k)).2.held).withFates (step (P.table k)).2.fates)

end Part

end Kernel

/-! ## The executor -/

namespace Rtnetlink

/-- The rule an operation sends. A blackhole has no table. -/
def buildRule (N : Rtnetlink) (spec : RuleSpec) : RuleMessage :=
  let request := N.ruleRequest spec.family
  let request := match spec.action with
    | .toTable =>
      let request := { request with action := .toTable }
      let request :=
        if 255 < spec.table then
          { request with attributes := request.attributes ++ [.table spec.table] }
        else { request with table := spec.table.toUInt8 }
      { request with attributes := request.attributes ++ [.priority spec.priority] }
    | .blackhole =>
      { request with
        action := .blackhole
        attributes := request.attributes ++ [.priority spec.priority] }
  match spec.fwmark with
  | some mark => { request with attributes := request.attributes ++ [.fwMark mark] }
  | none => request

/-- One operation. An add searches first, for the kernel may take a duplicate; a rule is deleted up
to three times, for there may be duplicates of it, a route once. -/
def exec (N : Rtnetlink) : NetOp → Kernel → Except String Bool × Kernel
  | .addRule spec => (Kernel.rulesOf spec.family).on
      (addOnce N.ruleAnswers (ruleMatches · spec) "rule dump: " "add rule: " (N.buildRule spec))
  | .delRule spec => (Kernel.rulesOf spec.family).on
      (deleteUpTo N.ruleAnswers (ruleMatches · spec) "rule dump: " "del rule: " 3 false)
  | .addRoute spec => (Kernel.routesOf spec.dest.addr.family).on
      (addOnce N.routeAnswers (routeMatches · spec) "route dump: " "add route: " (buildRoute spec))
  | .delRoute spec => (Kernel.routesOf spec.dest.addr.family).on
      (deleteUpTo N.routeAnswers (routeMatches · spec) "route dump: " "del route: " 1 false)

end Rtnetlink

/-! ## Steps on a part -/

namespace Kernel.Part

variable {μ : Type} {P : Part μ} {k : Kernel}
  {step : DumpedTable.Table μ → Except String Bool × DumpedTable.Table μ}

theorem same_on : k.Same (P.on step k).2 ↔ (P.table k).held.Perm (step (P.table k)).2.held :=
  P.same_set k _

/-- Two steps on a part are one. -/
theorem on_on {next : DumpedTable.Table μ → Except String Bool × DumpedTable.Table μ}
    (fates : List (Option ℕ)) :
    P.on next ((P.on step k).2.withFates fates) =
      P.on (fun t => next ⟨(step t).2.held, fates⟩) k := by
  have htable : P.table ((P.on step k).2.withFates fates) = ⟨(step (P.table k)).2.held, fates⟩ := by
    unfold table on
    rw [P.get_withFates, P.get_withFates, P.get_set]
    rfl
  unfold on at htable ⊢
  rw [htable]
  simp only [P.set_withFates, P.set_set]
  rfl

end Kernel.Part

end ProtonWire
