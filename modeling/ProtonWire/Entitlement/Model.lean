import ProtonWire.Frontend.Proto
import ProtonWire.Lib.Runs

/-!
# The entitlement provider

`apps/daemon/src/selection.rs`: `EntitlementProvider` and `entitlement_composition`, as an
interleaving of the threads that call them. A step of a thread is one access to the shared state:
one lock taken, one cell read or written. Two sections are one step each, because nothing they touch
can change under them: `single_flight_slot` from the moment it holds the slot's lock, and the write
after the post-wait check.

The transition lock is explicit, so that what it protects is proved and not assumed. Workers publish
in any order and as late as they like, or never. An adapter is any type: what it fetches is the
choice of the environment. A wrap of the 64-bit generation needs `2 ^ 64` installs, and it is a `ℕ`
here.

* `EntitlementProvider`, `EntitlementFetchShared`: the shared state;
* `Pc`: where a thread is in `install` or `entitlement_composition`;
* `System.step`: one step, and the events it emits.
-/

namespace ProtonWire

/-! ## Data -/

/-- The VPN entitlement state. -/
inductive VpnAccess where
  | noAccess
  | active
  | waitlisted
  deriving DecidableEq

/-- The `Debug` text. -/
def VpnAccess.debug : VpnAccess → String
  | noAccess => "NoAccess"
  | active => "Active"
  | waitlisted => "Waitlisted"

/-- The plan's class. -/
inductive PlanTier where
  | free
  | paid
  deriving DecidableEq

/-- The wire `NetShield` allowance. -/
structure NetShieldAllowance where
  malware : Bool
  adsAndTrackers : Bool
  adultContent : Bool
  deriving DecidableEq

/-- The plan-level feature allowances. -/
structure FeatureAllowances where
  netshield : Option NetShieldAllowance
  p2p : Option Bool
  secureCore : Option Bool
  tor : Option Bool
  gateway : Option Bool
  deriving DecidableEq

/-- The entitlement snapshot. -/
structure VpnEntitlements where
  vpnAccess : VpnAccess
  maxTier : Option ℤ
  planTier : Option PlanTier
  expirationTime : Option ℤ
  planName : Option String
  planTitle : Option String
  maxConnect : ℤ
  vpnName : Option String
  groupId : Option String
  isBusiness : Option Bool
  subscribed : ℤ
  services : ℤ
  delinquent : ℤ
  credit : Option ℤ
  hasPaymentMethod : Option ℤ
  features : FeatureAllowances
  deriving DecidableEq

/-- The class of a wire tier. -/
def PlanTier.ofTier (tier : ℤ) : PlanTier := if tier = 0 then .free else .paid

/-- The allowances of a plan: those of a paid one, and the wire's business flag. -/
def FeatureAllowances.ofPlan (netshield : Option NetShieldAllowance) (planTier : Option PlanTier)
    (isBusiness : Option Bool) : FeatureAllowances :=
  let paid := planTier.map fun tier => decide (tier = .paid)
  ⟨netshield, paid, paid, paid, isBusiness⟩

/-- The snapshot of a wire document with no optional field besides the tier. -/
def VpnEntitlements.ofTier (vpnAccess : VpnAccess) (maxTier : Option ℤ) : VpnEntitlements :=
  { vpnAccess, maxTier, planTier := maxTier.map PlanTier.ofTier
    expirationTime := none, planName := none, planTitle := none, maxConnect := 1
    vpnName := none, groupId := none, isBusiness := none
    subscribed := 0, services := 0, delinquent := 0, credit := none, hasPaymentMethod := none
    features := .ofPlan none (maxTier.map PlanTier.ofTier) none }

/-- Failures of the entitlements read. -/
inductive EntitlementsError where
  | api (code : ℤ) (error : String)
  | malformed (message : String)
  | transport (detail : String)
  deriving DecidableEq

/-- The `Display` text. -/
def EntitlementsError.display : EntitlementsError → String
  | api code error => "entitlements request refused upstream: Code " ++ toString code ++ " (" ++
    error ++ ")"
  | malformed message =>
      "invalid entitlements document (upstream contract drift must be mapped deliberately): " ++
      message
  | transport detail => "transport failure: " ++ detail

/-- What a fetch broadcasts. -/
abbrev FetchResult := Except RpcError VpnEntitlements

/-- The worker's mapping of its outcome. -/
def mapFetched : Except EntitlementsError VpnEntitlements → FetchResult
  | .ok entitlements => .ok entitlements
  | .error (.transport detail) =>
      .error (.new .networkUnavailable ("entitlements read failed: " ++ detail))
  | .error other => .error (.new .internal ("entitlements read failed: " ++ other.display))

/-! ## Shared state -/

/-- The single-flight slot, with the adapter its worker holds. -/
structure EntitlementFetchShared (𝔸 : Type) where
  generation : ℕ
  adapter : 𝔸
  result : Option FetchResult

/-- The worker stores its outcome, once. -/
def EntitlementFetchShared.land {𝔸 : Type} (shared : EntitlementFetchShared 𝔸)
    (result : FetchResult) :
    EntitlementFetchShared 𝔸 :=
  { shared with result := shared.result <|> some result }

/-- The provider. `transition` is the thread that holds the lock; a slot is named by its place among
the slots allocated so far. -/
structure EntitlementProvider (𝔸 : Type) where
  inner : Option 𝔸
  transition : Option ℕ
  generation : ℕ
  inFlight : Option ℕ
  cached : Option VpnEntitlements

/-- An installed adapter with its generation. -/
structure Session (𝔸 : Type) where
  adapter : Option 𝔸
  generation : ℕ

/-- Where a thread is. `act` records the session its post-wait check saw. -/
inductive Pc (𝔸 : Type) where
  | idle
  | installLock (api : 𝔸)
  | installInner (api : 𝔸)
  | installGeneration
  | installInFlight
  | installCached
  | composeCurrent
  | slotLock
  | slotLoad
  | slotTake (currentGeneration : ℕ)
  | wait (slot : ℕ)
  | clear (slot : ℕ) (result : FetchResult)
  | checkLock (slot : ℕ) (result : FetchResult)
  | check (slot : ℕ) (result : FetchResult)
  | act (slot : ℕ) (result : FetchResult) (session : Session 𝔸)

/-- The provider, the slots and the threads. -/
structure System (𝔸 : Type) where
  provider : EntitlementProvider 𝔸
  slots : List (EntitlementFetchShared 𝔸)
  threads : ℕ → Pc 𝔸

/-- What a thread did. -/
inductive EntitlementEvent (𝔸 : Type) where
  /-- `Ok(None)`: no adapter is installed. -/
  | uncomposed (thread : ℕ)
  /-- `Ok(Some(..))`, from a slot that passed the check under a session. -/
  | composed (thread slot : ℕ) (session : Session 𝔸) (entitlements : VpnEntitlements)
  | refused (thread : ℕ) (error : RpcError)
  | stored (thread slot : ℕ) (session : Session 𝔸) (snapshot : VpnEntitlements)
  | withdrew (thread slot : ℕ) (session : Session 𝔸)

variable {𝔸 : Type}

/-! ## Operations -/

namespace System

/-- The installed session. -/
def session (w : System 𝔸) : Session 𝔸 := ⟨w.provider.inner, w.provider.generation⟩

/-- Thread `t` goes on at `pc`. -/
def goto (w : System 𝔸) (t : ℕ) (pc : Pc 𝔸) : System 𝔸 :=
  { w with threads := Function.update w.threads t pc }

/-- Thread `t` takes the transition lock, if it is free. -/
def acquire (w : System 𝔸) (t : ℕ) (pc : Pc 𝔸) : System 𝔸 :=
  if w.provider.transition = none then
    { w with provider := { w.provider with transition := some t } }.goto t pc
  else w

/-- Thread `t` drops the transition lock. -/
def release (w : System 𝔸) (t : ℕ) (pc : Pc 𝔸) : System 𝔸 :=
  { w with provider := { w.provider with transition := none } }.goto t pc

/-- Start a worker over an adapter and park its slot. -/
def spawn (w : System 𝔸) (currentGeneration : ℕ) (adapter : 𝔸) : System 𝔸 :=
  { w with
    provider := { w.provider with inFlight := some w.slots.length }
    slots := w.slots ++ [⟨currentGeneration, adapter, none⟩] }

/-- `single_flight_slot`, with the slot's lock held: join the slot of this generation, or start a
worker. -/
def singleFlightSlot (w : System 𝔸) (currentGeneration : ℕ) : Except RpcError (ℕ × System 𝔸) :=
  match w.provider.inFlight.filter fun existing =>
      w.slots[existing]?.any fun slot => slot.generation == currentGeneration with
  | some existing => .ok (existing, w)
  | none =>
    match w.provider.inner with
    | none => .error (.new .internal "single-flight slot requested with no adapter installed")
    | some adapter => .ok (w.slots.length, w.spawn currentGeneration adapter)

/-- The worker of a slot stores its outcome. -/
def publish (w : System 𝔸) (slot : ℕ) (result : FetchResult) : System 𝔸 :=
  { w with slots := w.slots.modify slot fun shared => shared.land result }

/-- `clear_single_flight`: clear the cell if it still holds the consumed slot. -/
def clearSingleFlight (w : System 𝔸) (consumed : ℕ) : System 𝔸 :=
  { w with provider := { w.provider with inFlight := w.provider.inFlight.filter (· ≠ consumed) } }

/-- `store_snapshot`. -/
def storeSnapshot (w : System 𝔸) (snapshot : VpnEntitlements) : System 𝔸 :=
  { w with provider := { w.provider with cached := some snapshot } }

/-- `invalidate_cached_snapshot`. -/
def invalidateCachedSnapshot (w : System 𝔸) : System 𝔸 :=
  { w with provider := { w.provider with cached := none } }

end System

/-- The refusal of a budget miss. -/
def budgetMissed (budgetMs : ℕ) : RpcError :=
  .new .entitlementMissing ("the entitlement read exceeded its " ++ toString budgetMs ++
    " ms wait (deadline-clamped) — the account tier cannot be composed safely; retry shortly")

/-- The refusal of an outcome of a replaced session. -/
def replacedSession : RpcError :=
  .new .entitlementMissing
    ("the entitlement snapshot belongs to a replaced account session — retry " ++
    "the selection under the current one")

/-- The refusal of an account without active access. -/
def accessRefused (access : VpnAccess) : RpcError :=
  .new .entitlementMissing ("the account's VPN access is " ++ access.debug ++
    " — no server may be selected")

/-- The refusal of a snapshot without a tier. -/
def tierMissing : RpcError :=
  .new .entitlementMissing ("the entitlement snapshot carries no MaxTier — the account tier " ++
    "cannot be composed safely; retry after the next refresh")

/-- What a thread does with an outcome that passed the check. -/
def System.actOn (w : System 𝔸) (t slot : ℕ) (session : Session 𝔸) :
    FetchResult → System 𝔸 × List (EntitlementEvent 𝔸)
  | .ok entitlements =>
    if entitlements.vpnAccess ≠ .active then
      (w.invalidateCachedSnapshot, [.withdrew t slot session,
        .refused t (accessRefused entitlements.vpnAccess)])
    else if entitlements.maxTier = none then
      (w.invalidateCachedSnapshot, [.withdrew t slot session, .refused t tierMissing])
    else
      (w.storeSnapshot entitlements,
        [.stored t slot session entitlements, .composed t slot session entitlements])
  | .error error => (w, [.refused t error])

/-! ## Steps -/

/-- The choices of the environment. -/
inductive EntitlementAction (𝔸 : Type) where
  /-- A thread calls `install`. -/
  | install (thread : ℕ) (api : 𝔸)
  /-- A thread calls `entitlement_composition`. -/
  | compose (thread : ℕ)
  /-- A thread takes its next step; a wait ends with what its slot holds, within `budgetMs`. -/
  | advance (thread : ℕ) (budgetMs : ℕ)
  /-- The worker of a slot finishes its fetch. -/
  | publish (slot : ℕ) (fetched : Except EntitlementsError VpnEntitlements)

namespace System

/-- The next step of a thread. -/
def advance (w : System 𝔸) (t budgetMs : ℕ) : System 𝔸 × List (EntitlementEvent 𝔸) :=
  match w.threads t with
  | .idle => (w, [])
  | .installLock api => (w.acquire t (.installInner api), [])
  | .installInner api =>
    ({ w with provider := { w.provider with inner := some api } }.goto t .installGeneration, [])
  | .installGeneration =>
    ({ w with provider := { w.provider with generation := w.provider.generation + 1 } }.goto t
      .installInFlight, [])
  | .installInFlight =>
    ({ w with provider := { w.provider with inFlight := none } }.goto t .installCached, [])
  | .installCached => (w.invalidateCachedSnapshot.release t .idle, [])
  | .composeCurrent =>
    if w.provider.inner.isNone then (w.goto t .idle, [.uncomposed t]) else (w.goto t .slotLock, [])
  | .slotLock => (w.acquire t .slotLoad, [])
  | .slotLoad => (w.goto t (.slotTake w.provider.generation), [])
  | .slotTake currentGeneration =>
    match w.singleFlightSlot currentGeneration with
    | .error error => (w.release t .idle, [.refused t error])
    | .ok (slot, w') => (w'.release t (.wait slot), [])
  | .wait slot =>
    match w.slots[slot]?.bind EntitlementFetchShared.result with
    | some result => (w.goto t (.clear slot result), [])
    | none => (w.goto t .idle, [.refused t (budgetMissed budgetMs)])
  | .clear slot result => ((w.clearSingleFlight slot).goto t (.checkLock slot result), [])
  | .checkLock slot result => (w.acquire t (.check slot result), [])
  | .check slot result =>
    if w.slots[slot]?.map EntitlementFetchShared.generation = some w.provider.generation then
      (w.goto t (.act slot result w.session), [])
    else (w.release t .idle, [.refused t replacedSession])
  | .act slot result session =>
    ((w.actOn t slot session result).1.release t .idle, (w.actOn t slot session result).2)

/-- One step. A thread calls only when it is idle. -/
def step (w : System 𝔸) : EntitlementAction 𝔸 → System 𝔸 × List (EntitlementEvent 𝔸)
  | .install t api =>
    match w.threads t with
    | .idle => (w.goto t (.installLock api), [])
    | _ => (w, [])
  | .compose t =>
    match w.threads t with
    | .idle => (w.goto t .composeCurrent, [])
    | _ => (w, [])
  | .advance t budgetMs => w.advance t budgetMs
  | .publish slot fetched => (w.publish slot (mapFetched fetched), [])

/-- No adapter, no slot, every thread idle. -/
def initial : System 𝔸 := ⟨⟨none, none, 0, none, none⟩, [], fun _ => .idle⟩

/-- A run from the start. -/
def runFromStart (actions : List (EntitlementAction 𝔸)) : System 𝔸 × List (EntitlementEvent 𝔸) :=
  Machine.run step initial actions

end System

end ProtonWire
