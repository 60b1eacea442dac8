import ProtonWire.Entitlement.Model
import ProtonWire.Lib.Fallible

/-!
# The entitlements document

`crates/api/src/entitlements.rs`: the hand-rolled parse of the `/vpn/v2` body. The JSON reader is
not part of the repository: it is the parameter `JsonReader`, with the `Debug` text of a key. A
number is what `as_i64` gives for it; the fields of an object are distinct.

* `VpnEntitlements.fromWireBytes`: the parse;
* **`fromWireBytes_classified`**: the tier of a parsed snapshot is not negative, and its plan and
  its allowances are those of the tier.
-/

namespace ProtonWire

open Fallible

/-- A JSON value. -/
inductive Json where
  | null
  | bool (value : Bool)
  | number (asI64 : Option ℤ)
  | string (value : String)
  | array (items : List Json)
  | object (fields : List (String × Json))

/-- The fields of an object. -/
abbrev JsonObject := List (String × Json)

namespace Json

def asObject : Json → Option JsonObject
  | object fields => some fields
  | _ => none

def asI64 : Json → Option ℤ
  | number value => value
  | _ => none

def asStr : Json → Option String
  | string value => some value
  | _ => none

def asBool : Json → Option Bool
  | bool value => some value
  | _ => none

end Json

/-- The reader of JSON bodies, and the `Debug` text of a string. -/
structure JsonReader where
  fromSlice : ByteArray → Except String Json
  debug : String → String

/-! ## Fields -/

/-- A contract violation. -/
def malformed {α : Type} (message : String) : Except EntitlementsError α :=
  .error (.malformed message)

/-- Every key is in the recorded contract. -/
def rejectUnknownKeys (R : JsonReader) (object : String) (known : List String) :
    List String → Except EntitlementsError Unit
  | [] => .ok ()
  | key :: keys =>
    if key ∈ known then rejectUnknownKeys R object known keys
    else malformed ("unknown " ++ object ++ " key " ++ R.debug key ++
      " (upstream contract drift must be mapped deliberately)")

/-- A required field, read by `read`. -/
def requireField {α : Type} (read : Json → Option α) (expected : String) (object : JsonObject)
    (field : String) :
    Except EntitlementsError α :=
  match object.lookup field with
  | none => malformed ("missing required field " ++ field)
  | some value =>
    match read value with
    | some a => .ok a
    | none => malformed ("field " ++ field ++ " must be " ++ expected)

/-- A field whose absence and whose `null` are the same. -/
def optionalField {α : Type} (read : Json → Option α) (expected : String) (object : JsonObject)
    (field : String) :
    Except EntitlementsError (Option α) :=
  match object.lookup field with
  | none => .ok none
  | some .null => .ok none
  | some value =>
    match read value with
    | some a => .ok (some a)
    | none => malformed ("field " ++ field ++ " must be " ++ expected)

def requireI64 := requireField Json.asI64 "an integer"
def requireBool := requireField Json.asBool "a boolean"
def optionalI64 := optionalField Json.asI64 "null or an integer"
def optionalString := optionalField Json.asStr "null or a string"
def optionalBool := optionalField Json.asBool "null or a boolean"

/-! ## The document -/

def envelopeKeys : List String :=
  ["Code", "Error", "Details", "VPN", "Subscribed", "Services", "Delinquent", "Credit",
   "HasPaymentMethod"]

def vpnKeys : List String :=
  ["Status", "ExpirationTime", "PlanName", "PlanTitle", "MaxTier", "MaxConnect", "Name", "GroupID",
    "IsBusiness", "NetShield"]

def netshieldKeys : List String := ["Malware", "AdsAndTrackers", "AdultContent"]

/-- The success envelope's metadata: typed and never surfaced. -/
def checkMetadata (root : JsonObject) : Except EntitlementsError Unit := do
  let _ ← optionalString root "Error"
  match root.lookup "Details" with
  | none => .ok ()
  | some .null => .ok ()
  | some (.object _) => .ok ()
  | some _ => malformed "Details must be null or an object"

/-- The `VPN` object. -/
def vpnObject (R : JsonReader) (root : JsonObject) : Except EntitlementsError JsonObject :=
  match root.lookup "VPN" with
  | none => malformed "missing required field VPN"
  | some value =>
    match value.asObject with
    | none => malformed "field VPN must be an object"
    | some vpn => do
      rejectUnknownKeys R "VPN" vpnKeys (vpn.map Prod.fst)
      return vpn

/-- The recorded access states. -/
def classifyStatus (status : ℤ) : Except EntitlementsError VpnAccess :=
  if status = 0 then .ok .noAccess
  else if status = 1 then .ok .active
  else if status = 2 then .ok .waitlisted
  else malformed ("field Status has unrepresented value " ++ toString status ++
    " (recorded contract: 0/1/2)")

/-- The plan of a tier; a negative tier has none. -/
def classifyTier : Option ℤ → Except EntitlementsError (Option PlanTier)
  | none => .ok none
  | some tier =>
    if 0 ≤ tier then .ok (some (.ofTier tier))
    else malformed ("field MaxTier has unrepresented value " ++ toString tier ++
      " (no client assigns semantics to a negative tier)")

/-- The `NetShield` allowance. -/
def netshieldField (R : JsonReader) (vpn : JsonObject) :
    Except EntitlementsError (Option NetShieldAllowance) :=
  match vpn.lookup "NetShield" with
  | none => .ok none
  | some .null => .ok none
  | some (.object object) => do
    rejectUnknownKeys R "NetShield" netshieldKeys (object.map Prod.fst)
    return some ⟨← requireBool object "Malware", ← requireBool object "AdsAndTrackers",
      ← requireBool object "AdultContent"⟩
  | some _ => malformed "field NetShield must be null or an object"

/-- The envelope's account fields and the `VPN` object, of a success document. -/
def parseDocument (R : JsonReader) (root : JsonObject) : Except EntitlementsError VpnEntitlements :=
  do
  checkMetadata root
  let subscribed ← requireI64 root "Subscribed"
  let services ← requireI64 root "Services"
  let delinquent ← requireI64 root "Delinquent"
  let credit ← optionalI64 root "Credit"
  let hasPaymentMethod ← optionalI64 root "HasPaymentMethod"
  let vpn ← vpnObject R root
  let vpnAccess ← classifyStatus (← requireI64 vpn "Status")
  let maxTier ← optionalI64 vpn "MaxTier"
  let planTier ← classifyTier maxTier
  let netshield ← netshieldField R vpn
  let isBusiness ← optionalBool vpn "IsBusiness"
  let expirationTime ← optionalI64 vpn "ExpirationTime"
  let planName ← optionalString vpn "PlanName"
  let planTitle ← optionalString vpn "PlanTitle"
  let maxConnect ← requireI64 vpn "MaxConnect"
  let vpnName ← optionalString vpn "Name"
  let groupId ← optionalString vpn "GroupID"
  return { vpnAccess, maxTier, planTier, expirationTime, planName, planTitle, maxConnect, vpnName, groupId,
           isBusiness, subscribed, services, delinquent, credit, hasPaymentMethod
           features := .ofPlan netshield planTier isBusiness }

/-- `VpnEntitlements::from_wire_bytes`. A refusal envelope is surfaced before any field is
demanded. -/
def VpnEntitlements.fromWireBytes (R : JsonReader) (body : ByteArray) :
    Except EntitlementsError VpnEntitlements :=
  match R.fromSlice body with
  | .error message => malformed ("body is not JSON: " ++ message)
  | .ok value =>
    match value.asObject with
    | none => malformed "document root is not an object"
    | some root => do
      rejectUnknownKeys R "envelope" envelopeKeys (root.map Prod.fst)
      let code ← requireI64 root "Code"
      if code ≠ 1000 then
        let error ← optionalString root "Error"
        .error (.api code (error.getD ""))
      else parseDocument R root

/-! ## What a parsed snapshot says -/

/-- The plan and the allowances are those of the tier, and the tier is not negative. -/
structure VpnEntitlements.Classified (snapshot : VpnEntitlements) : Prop where
  tier : ∀ tier ∈ snapshot.maxTier, 0 ≤ tier
  plan : snapshot.planTier = snapshot.maxTier.map PlanTier.ofTier
  features : snapshot.features = .ofPlan snapshot.features.netshield snapshot.planTier
    snapshot.isBusiness

theorem classifyTier_ok {maxTier : Option ℤ} {planTier : Option PlanTier}
    (h : classifyTier maxTier = .ok planTier) :
    (∀ tier ∈ maxTier, 0 ≤ tier) ∧ planTier = maxTier.map PlanTier.ofTier := by
  cases maxTier with
  | none =>
    cases h
    exact ⟨nofun, rfl⟩
  | some tier =>
    unfold classifyTier at h
    dsimp only at h
    split_ifs at h with hpos
    · cases h
      exact ⟨fun t ht => by cases ht; exact hpos, rfl⟩
    · cases h

theorem parseDocument_classified {R : JsonReader} {root : JsonObject} {snapshot : VpnEntitlements}
    (h : parseDocument R root = .ok snapshot) : snapshot.Classified := by
  unfold parseDocument at h
  obtain ⟨_, -, h⟩ := bind_eq_ok.mp h
  obtain ⟨subscribed, -, h⟩ := bind_eq_ok.mp h
  obtain ⟨services, -, h⟩ := bind_eq_ok.mp h
  obtain ⟨delinquent, -, h⟩ := bind_eq_ok.mp h
  obtain ⟨credit, -, h⟩ := bind_eq_ok.mp h
  obtain ⟨hasPaymentMethod, -, h⟩ := bind_eq_ok.mp h
  obtain ⟨vpn, -, h⟩ := bind_eq_ok.mp h
  obtain ⟨status, -, h⟩ := bind_eq_ok.mp h
  obtain ⟨vpnAccess, -, h⟩ := bind_eq_ok.mp h
  obtain ⟨maxTier, -, h⟩ := bind_eq_ok.mp h
  obtain ⟨planTier, htier, h⟩ := bind_eq_ok.mp h
  obtain ⟨netshield, -, h⟩ := bind_eq_ok.mp h
  obtain ⟨isBusiness, -, h⟩ := bind_eq_ok.mp h
  obtain ⟨expirationTime, -, h⟩ := bind_eq_ok.mp h
  obtain ⟨planName, -, h⟩ := bind_eq_ok.mp h
  obtain ⟨planTitle, -, h⟩ := bind_eq_ok.mp h
  obtain ⟨maxConnect, -, h⟩ := bind_eq_ok.mp h
  obtain ⟨vpnName, -, h⟩ := bind_eq_ok.mp h
  obtain ⟨groupId, -, h⟩ := bind_eq_ok.mp h
  cases h
  obtain ⟨hpos, hplan⟩ := classifyTier_ok htier
  exact ⟨hpos, hplan, rfl⟩

theorem fromWireBytes_classified {R : JsonReader} {body : ByteArray} {snapshot : VpnEntitlements}
    (h : VpnEntitlements.fromWireBytes R body = .ok snapshot) : snapshot.Classified := by
  unfold VpnEntitlements.fromWireBytes at h
  split at h
  · cases h
  · split at h
    · cases h
    · obtain ⟨_, -, h⟩ := bind_eq_ok.mp h
      obtain ⟨code, -, h⟩ := bind_eq_ok.mp h
      split_ifs at h
      · obtain ⟨error, -, h⟩ := bind_eq_ok.mp h
        cases h
      · exact parseDocument_classified h

end ProtonWire
