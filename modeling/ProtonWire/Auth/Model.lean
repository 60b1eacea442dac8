import ProtonWire.Lib.Runs

/-!
# The Muon adapter

`crates/api/src/auth.rs`: `MuonAuth` over a Muon client. A call carries what the engine and the
session store answer; the session handle of the engine is of any type.

* `beginLogin`, `submitTwoFactor`, `submitFidoPayload`, `refresh`, `logout`, `fork`, `importFork`;
* `Call`, `step`: one call, and the entry it leaves in the history.
-/

namespace ProtonWire

/-! ## What the engine answers -/

namespace MuonAuth

/-- An account and a session, as a login reports them. -/
structure SessionInfo where
  userId : String
  sessionId : String
  deriving DecidableEq

/-- The public-key options of a FIDO2 response. -/
structure PublicKeyOptions where
  challenge : List UInt8
  allowCredentials : Option (List (List UInt8))
  deriving DecidableEq

/-- The FIDO2 details of a login. -/
structure FidoResponse where
  authenticationOptions : Option PublicKeyOptions
  deriving DecidableEq

/-- The FIDO2 submission. -/
structure FidoRequest where
  authenticationOptions : PublicKeyOptions
  clientData : String
  authenticatorData : String
  signature : String
  credentialId : List UInt8
  deriving DecidableEq

/-- The outcome of a login. -/
inductive LoginFlow (σ : Type) where
  | ok (session : σ) (data : SessionInfo)
  | twoFactor (hasTotp : Bool) (fidoDetails : Option FidoResponse) (data : SessionInfo)
  | failed (reason : String)

/-- The tokens of an internal session. -/
inductive Tokens where
  | access
  | refresh

/-- The auth the store holds. -/
inductive Auth where
  | internal (userId uid : String) (tok : Tokens)
  | external
  | anonymous
  | none

/-- A call of the engine. -/
inductive MuonCall (σ : Type) where
  | login (session : σ) (username password : String)
  | fromTotp (session : σ) (code : String)
  | fromFido (session : σ) (request : FidoRequest)
  | refreshAuth (session : σ)
  | logout (session : σ)
  | fork (session : σ) (childId : String)
  | fromFork (session : σ) (selector : String)

/-! ## The adapter -/

/-- `LoginStatus`. -/
inductive LoginStatus where
  | loggedOut
  | loggedIn
  | needsRefresh

/-- `Fido2Challenge`. -/
structure Fido2Challenge where
  challenge : List UInt8
  allowCredentials : List (List UInt8)
  deriving DecidableEq

/-- `Challenge`. -/
structure Challenge where
  totpEnabled : Bool
  fido2 : Option Fido2Challenge
  deriving DecidableEq

/-- `BlockedReason`. -/
inductive BlockedReason where
  | humanVerification
  | organizationSso
  | guestLogin
  | feedback
  | unsupportedChallenge
  deriving DecidableEq

/-- `LoginStep`. -/
inductive LoginStep where
  | session (info : SessionInfo)
  | challenge (challenge : Challenge)
  | blocked (reason : BlockedReason)
  deriving DecidableEq

/-- `Fido2Payload`. -/
structure Fido2Payload where
  clientData : String
  authenticatorData : String
  signature : String
  credentialId : List UInt8

/-- The failures of the adapter. -/
inductive ApiError where
  | unsupportedChallenge (code : String)
  | invalidState (code : String)
  | transport (message : String)
  deriving DecidableEq

/-- `PendingTwoFactor`. -/
structure PendingTwoFactor where
  info : SessionInfo
  challenge : Challenge
  fido2 : Option FidoResponse

/-- `AuthState`. -/
structure AuthState (σ : Type) where
  session : σ
  pending : Option PendingTwoFactor
  forkScrubGuards : List String

/-- The adapter over a fresh session. -/
def AuthState.connect {σ : Type} (session : σ) : AuthState σ := ⟨session, none, []⟩

/-- What a call does: the new state, the calls of the engine, and the reply. -/
structure Turn (σ ρ : Type) where
  state : AuthState σ
  wire : List (MuonCall σ)
  reply : Except ApiError ρ

/-- `status_of`. -/
def statusOf : Auth → LoginStatus
  | .internal _ _ .access => .loggedIn
  | .internal _ _ .refresh => .needsRefresh
  | .external => .loggedOut
  | .anonymous => .loggedOut
  | .none => .loggedOut

/-- `info_of`. -/
def infoOf : Auth → Option SessionInfo
  | .internal userId uid _ => some ⟨userId, uid⟩
  | _ => none

/-- `challenge_from`. -/
def challengeFrom (totp : Bool) (fido : Option FidoResponse) : Challenge where
  totpEnabled := totp
  fido2 := fido.bind fun response => response.authenticationOptions.map fun options =>
    ⟨options.challenge, options.allowCredentials.getD []⟩

/-- `is_totp_shape`: six to eight digits. -/
def isTotpShape (code : String) : Bool :=
  decide (6 ≤ code.utf8ByteSize ∧ code.utf8ByteSize ≤ 8) && code.toList.all Char.isDigit

/-- `flow_error`. -/
def flowError (err : String) : ApiError := .transport ("muon auth flow failure: " ++ err)

section
variable {σ : Type} (state : AuthState σ)

/-- `begin_login`. -/
def beginLogin (username password : String) (flow : LoginFlow σ) : Turn σ LoginStep :=
  let wire := [MuonCall.login state.session username password]
  match flow with
  | .ok session data => ⟨{ state with session := session, pending := none }, wire,
    .ok (.session data)⟩
  | .twoFactor hasTotp fidoDetails data =>
    let challenge := challengeFrom hasTotp fidoDetails
    if !challenge.totpEnabled && challenge.fido2.isNone then
      ⟨{ state with pending := none }, wire, .ok (.blocked .unsupportedChallenge)⟩
    else
      ⟨{ state with pending := some ⟨data, challenge, fidoDetails⟩ }, wire,
       .ok (.challenge challenge)⟩
  -- the challenge of an earlier login stays
  | .failed reason => ⟨state, wire, .error (flowError reason)⟩

/-- The end of a submission: the session, or the challenge put back. -/
def settle (pending : PendingTwoFactor) (wire : List (MuonCall σ)) (result : Except String σ) :
    Turn σ LoginStep :=
  match result with
  | .ok session => ⟨{ state with session := session, pending := none }, wire,
    .ok (.session pending.info)⟩
  | .error err => ⟨{ state with pending := some pending }, wire, .error (flowError err)⟩

/-- `submit_two_factor`. -/
def submitTwoFactor (code : String) (result : Except String σ) : Turn σ LoginStep :=
  if !isTotpShape code then ⟨state, [], .error (.unsupportedChallenge "recovery-code")⟩
  else match state.pending with
    | none => ⟨state, [], .error (.invalidState "no 2FA challenge in progress")⟩
    | some pending =>
      if !pending.challenge.totpEnabled then
        ⟨{ state with pending := some pending }, [],
         .error (.unsupportedChallenge "totp-not-offered")⟩
      else settle state pending [.fromTotp state.session code] result

/-- `submit_fido_payload`. -/
def submitFidoPayload (payload : Fido2Payload) (result : Except String σ) : Turn σ LoginStep :=
  match state.pending with
  | none => ⟨state, [], .error (.invalidState "no 2FA challenge in progress")⟩
  | some pending =>
    match pending.fido2.bind FidoResponse.authenticationOptions with
    | none => ⟨{ state with pending := some pending }, [],
      .error (.unsupportedChallenge "fido2-not-offered")⟩
    | some options =>
      settle state pending [.fromFido state.session ⟨options, payload.clientData,
        payload.authenticatorData,
        payload.signature, payload.credentialId⟩] result

/-- `refresh`: a pending challenge is dropped first. -/
def refresh (result : Except String Unit) (auth : Auth) : Turn σ LoginStatus :=
  ⟨{ state with pending := none }, [.refreshAuth state.session],
    match result with
    | .ok _ => .ok (statusOf auth)
    | .error err => .error (flowError err)⟩

/-- `logout`. -/
def logout : Turn σ Unit := ⟨{ state with pending := none }, [.logout state.session], .ok ()⟩

/-- `fork`. -/
def fork (childId : String) (auth : Auth) (result : Except String String) : Turn σ String :=
  match statusOf auth with
  | .loggedOut => ⟨state, [], .error (.invalidState "not logged in")⟩
  | _ =>
    match result with
    | .ok selector => ⟨{ state with forkScrubGuards := state.forkScrubGuards ++ [selector] },
        [.fork state.session childId], .ok selector⟩
    | .error reason => ⟨state, [.fork state.session childId], .error (flowError reason)⟩

/-- `import_fork`; the store is read before and after. -/
def importFork (selector : String) (before after : Auth) (result : Except String σ) :
    Turn σ LoginStep :=
  match before with
  | .internal _ _ _ => ⟨state, [], .error (.invalidState "session active; logout before importing")⟩
  | .external => ⟨state, [], .error (.invalidState "session active; logout before importing")⟩
  | _ =>
    match result with
    | .ok session => ⟨{ state with session := session, pending := none },
      [.fromFork state.session selector],
        match infoOf after with
        | some info => .ok (.session info)
        | none => .error (.transport "fork import stored no internal auth")⟩
    | .error reason => ⟨state, [.fromFork state.session selector], .error (flowError reason)⟩

end

/-! ## Calls -/

/-- A call, with what the engine and the store answer to it. -/
inductive Call (σ : Type) where
  | beginLogin (username password : String) (flow : LoginFlow σ)
  | submitTwoFactor (code : String) (result : Except String σ)
  | submitFidoPayload (payload : Fido2Payload) (result : Except String σ)
  | refresh (result : Except String Unit) (auth : Auth)
  | logout
  | fork (childId : String) (auth : Auth) (result : Except String String)
  | importFork (selector : String) (before after : Auth) (result : Except String σ)

/-- What a call returns. -/
inductive Reply where
  | step (reply : Except ApiError LoginStep)
  | status (reply : Except ApiError LoginStatus)
  | unit (reply : Except ApiError Unit)
  | selector (reply : Except ApiError String)

/-- A call in the history. -/
structure Entry (σ : Type) where
  call : Call σ
  wire : List (MuonCall σ)
  reply : Reply

/-- The entry of a turn. -/
def Turn.entry {σ ρ : Type} (turn : Turn σ ρ) (call : Call σ) (reply : Except ApiError ρ → Reply) :
    AuthState σ × List (Entry σ) := (turn.state, [⟨call, turn.wire, reply turn.reply⟩])

/-- One call. -/
def step {σ : Type} (state : AuthState σ) (call : Call σ) : AuthState σ × List (Entry σ) :=
  match call with
  | .beginLogin username password flow => (beginLogin state username password flow).entry call .step
  | .submitTwoFactor code result => (submitTwoFactor state code result).entry call .step
  | .submitFidoPayload payload result => (submitFidoPayload state payload result).entry call .step
  | .refresh result auth => (refresh state result auth).entry call .status
  | .logout => (logout state).entry call .unit
  | .fork childId auth result => (fork state childId auth result).entry call .selector
  | .importFork selector before after result =>
    (importFork state selector before after result).entry call .step

end MuonAuth

end ProtonWire
