import ProtonWire.Frontend.Proto

/-!
# The wire messages

`crates/frontend-api/src/proto.rs`, `event.rs` and `state.rs`: what a session carries.

* `Word64`, `Word64.checkedAddOne`: the sequence numbers;
* `Event`, `EventEnvelope`, `eventReaches`: what the daemon pushes;
* `DaemonState`: the snapshot;
* `Request`, `RequestResult`, `Response`, `ClientMessage`, `ServerMessage`.
-/

namespace ProtonWire

/-! ## Sequence numbers -/

/-- A `u64`. -/
abbrev Word64 := Fin (2 ^ 64)

instance neZero_word64 : NeZero (2 ^ 64) := ⟨by decide⟩

/-- `u64::MAX`. -/
def Word64.maxValue : Word64 := ⟨2 ^ 64 - 1, by decide⟩

/-- `checked_add(1)`. -/
def Word64.checkedAddOne (a : Word64) : Option Word64 :=
  if h : a.val + 1 < 2 ^ 64 then some ⟨a.val + 1, h⟩ else none

theorem Word64.checkedAddOne_eq_some {a b : Word64} :
    a.checkedAddOne = some b ↔ b.val = a.val + 1 := by
  have hb := b.isLt
  rw [checkedAddOne]
  by_cases h : a.val + 1 < 2 ^ 64
  · rw [dif_pos h, Option.some_inj, Fin.ext_iff]
    exact eq_comm
  · rw [dif_neg h]
    constructor
    · intro h'
      cases h'
    · intro h'
      omega

theorem Word64.checkedAddOne_eq_none {a : Word64} : a.checkedAddOne = none ↔ a = maxValue := by
  have ha := a.isLt
  rw [checkedAddOne, Fin.ext_iff, maxValue]
  by_cases h : a.val + 1 < 2 ^ 64
  · rw [dif_pos h]
    constructor
    · intro h'
      cases h'
    · intro h'
      simp only at h'
      omega
  · rw [dif_neg h]
    constructor
    · intro _
      simp only
      omega
    · intro _
      rfl

/-- `PROTOCOL_VERSION`. -/
def protocolVersion : ℕ := 1

/-- `EVENT_SEQ_RESYNC_NOW`: reserved, no event carries it. -/
def eventSeqResyncNow : Word64 := Word64.maxValue

/-- `RESYNC_MARKER_INTRODUCED_IN`. -/
def resyncMarkerIntroducedIn : ℕ := 1

/-- `resync_marker_reaches`. -/
def resyncMarkerReaches (version : ℕ) : Bool := decide (resyncMarkerIntroducedIn ≤ version)

/-- `M2_EVENTS_INTRODUCED_IN`. -/
def m2EventsIntroducedIn : ℕ := 1

/-- `m2_events_reach`. -/
def m2EventsReach (version : ℕ) : Bool := decide (m2EventsIntroducedIn ≤ version)

/-! ## Events -/

/-- The severity of a notice. -/
inductive NoticeLevel where
  | info
  | warning
  | error
  deriving DecidableEq

/-- What a refresh of the catalog came to. -/
inductive CatalogRefreshResult where
  | changed
  | notModified
  | failed (code : RpcErrorCode)
  deriving DecidableEq

/-- What the daemon tells its clients. -/
inductive DaemonEvent where
  | stateChanged (from_ to_ : VpnState)
  | notice (level : NoticeLevel) (message : String)
  | catalogRefreshed (result : CatalogRefreshResult)
  | accountChanged
  | schedulerNotice (level : NoticeLevel) (message : String)
  deriving DecidableEq

/-- `event_reaches`: whether a session of this version may receive the event. -/
def eventReaches (version : ℕ) : DaemonEvent → Bool
  | .stateChanged .. | .notice .. => true
  | .catalogRefreshed .. | .accountChanged | .schedulerNotice .. => m2EventsReach version

/-- An event under its sequence number. -/
structure EventEnvelope where
  seq : Word64
  event : DaemonEvent
  deriving DecidableEq

/-! ## The snapshot -/

/-- How the host's network is integrated. -/
inductive NetworkIntegration where
  | auto
  | native
  | networkManager
  | networkd
  deriving DecidableEq

/-- The full state, stamped with the newest event it reflects. -/
structure DaemonState where
  protocolVersion : ℕ
  daemonVersion : String
  vpnState : VpnState
  networkIntegration : NetworkIntegration
  activeOwnerUid : Option ℕ
  latestEventSeq : Option Word64
  deriving DecidableEq

/-! ## Requests -/

/-- The surface a client implements. -/
inductive ClientSurface where
  | cli
  | tui
  | gui
  | other
  deriving DecidableEq

/-- Who the client says it is. -/
structure ClientInfo where
  name : String
  version : String
  surface : ClientSurface

/-- `ClientInfo::sanitized`: no control characters, and no more than the caps. -/
def ClientInfo.sanitized (info : ClientInfo) : ClientInfo where
  name := clean info.name 64
  version := clean info.version 32
  surface := info.surface
where
  /-- A character is a control character in Unicode's sense. -/
  isControl (c : Char) :
  Bool := decide (c.toNat ≤ 0x1f) || (decide (0x7f ≤ c.toNat) && decide (c.toNat ≤ 0x9f))
  clean (value : String) (max : ℕ) : String :=
    String.ofList ((value.toList.filter fun c => !isControl c).take max)

/-- What a client can ask. A secret is its text. -/
inductive Request where
  | ping (nonce : String)
  | getState
  | connect (target : ConnectTarget)
  | disconnect
  | shutdown
  | serversList
  | serversRefresh (confirmationToken : Option String)
  | beginLogin (username password : String)
  | submitTwoFactor (code : String)
  | submitFidoPayload (clientData authenticatorData signature : String) (credentialId : List UInt8)
  | refreshSession
  | logout
  | submitCredential (name value : String)
  | getAccount
  | select (target : ConnectTarget) (modifiers : SelectionModifiers)
  | groupsList
  | groupShow (id : String)

/-! ## Results -/

/-- What one refresh of the catalog did. -/
inductive ServersRefreshOutcome where
  | changed (etag : Option String)
  | notModified
  | rateLimited (retryAfterSeconds : Option ℕ)
  | failed (reason : String)

/-- The scheduler's report. -/
structure ServersRefreshReport where
  outcome : ServersRefreshOutcome
  coalesced : Bool
  nextEligibleUnix : ℕ
  suppressionUntilUnix : Option ℕ

/-- The parameters of a WebAuthn ceremony. -/
structure Fido2ChallengeParams where
  challenge : List UInt8
  allowCredentials : List (List UInt8)

/-- Why a login stops. -/
inductive LoginBlockedReason where
  | humanVerification
  | organizationSso
  | guestLogin
  | feedback
  | unsupportedChallenge

/-- One step of a login. -/
inductive LoginOutcome where
  | session (userId sessionId : String)
  | challenge (totpEnabled : Bool) (fido2 : Option Fido2ChallengeParams)
  | blocked (reason : LoginBlockedReason)

/-- Whether the daemon's account is logged in. -/
inductive SessionStatus where
  | loggedOut
  | loggedIn
  | needsRefresh

/-- What the startup read of the systemd credential found. -/
inductive CredentialStartupRead where
  | read (schemaVersion : ℕ)
  | refused (reason : String)

/-- Where credentials come from. -/
inductive CredentialSourceStatus where
  | interactive
  | systemd (directory : String) (startupRead : CredentialStartupRead)

/-- The configured writable store. -/
structure WritableStoreStatus where
  declared : String
  priority : List String

/-- `PersistenceHealth` on the wire: whether the session would survive a restart. -/
inductive PersistenceHealthWire where
  | healthy
  | unhealthy (reason : String)

/-- The account snapshot. -/
structure AccountStatus where
  loginStatus : SessionStatus
  credentialSource : CredentialSourceStatus
  writableStore : WritableStoreStatus
  persistenceHealth : Option PersistenceHealthWire

/-- One group, listed. -/
structure GroupSummary where
  id : String
  label : String
  origin : String
  definitionSource : String
  entitlement : String
  rankingPolicy : String
  allowedRankingOverrides : List String
  availability : GroupAvailability

/-- The groups, listed. -/
structure GroupsCatalog where
  catalogRevision : String
  taxonomyRevision : String
  groups : List GroupSummary

/-- One group in full. -/
structure GroupDetails where
  summary : GroupSummary
  immutable : Bool
  connectionType : Option String
  target : String
  targetDetail : Option String
  protocolOverride : Option String
  connectionOverrides : List (String × String)
  selectionAuthority : Option String
  sources : List String

/-- What a request answered with. -/
inductive RequestResult where
  | pong (nonce : String)
  | state (state : DaemonState)
  | acknowledged
  | servers (etag : Option String) (fetchedUnix : Option ℕ) (body : Option String)
  | serversRefreshed (report : ServersRefreshReport)
  | loginStep (step : LoginOutcome)
  | loginStatus (status : SessionStatus)
  | account (account : AccountStatus)
  | selected (result : SelectionResult)
  | groups (catalog : GroupsCatalog)
  | group (group : GroupDetails)

/-- The answer to a request, under its id. -/
inductive Response where
  | ok (id : ℕ) (result : RequestResult)
  | error (id : ℕ) (error : RpcError)

/-- `Response::id`. -/
def Response.id : Response → ℕ
  | ok id _ => id
  | error id _ => id

/-! ## Messages -/

/-- The handshake granted. -/
structure HelloAck where
  protocolVersion : ℕ
  daemonVersion : String
  latestEventSeq : Word64

/-- The handshake refused. -/
structure HelloError where
  supportedVersion : ℕ
  reason : String
  deriving DecidableEq

/-- From the client to the daemon. -/
inductive ClientMessage where
  | hello (protocolVersion : ℕ) (client : ClientInfo)
  | request (id : ℕ) (request : Request)

/-- From the daemon to the client. -/
inductive ServerMessage where
  | helloAck (ack : HelloAck)
  | helloError (error : HelloError)
  | response (response : Response)
  | event (envelope : EventEnvelope)

end ProtonWire
