import ProtonWire.Auth.Model

/-!
# The second factor belongs to the last login

* `Entry.counts`, `lastCounted`: the last login, refresh, logout, successful submission or
  successful import;
* `Entry.Challenged`: a login that was answered with a challenge;
* `Faithful`: a submission reaches the engine only under the challenge of that login, and returns
  its session;
* `Inv`: a pending challenge is that of the last counted call;
* **`second_factor_of_last_login`**: in every run in which no login fails while a challenge is
  pending;
* **`second_factor_of_failed_login`**: after a login that fails, a code is sent under the challenge
  before it.
-/

namespace ProtonWire

namespace MuonAuth

variable {σ : Type}

/-! ## Histories -/

/-- The arms of a second factor. -/
inductive Arm where
  | totp
  | fido2
  deriving DecidableEq

/-- The arm of a submission that reaches the engine. -/
def MuonCall.arm : MuonCall σ → Option Arm
  | fromTotp _ _ => some .totp
  | fromFido _ _ => some .fido2
  | _ => none

/-- The challenge offers an arm. -/
def Challenge.offers (challenge : Challenge) : Arm → Bool
  | .totp => challenge.totpEnabled
  | .fido2 => challenge.fido2.isSome

/-- A submission of a second factor. -/
def Call.isSubmission : Call σ → Bool
  | submitTwoFactor _ _ => true
  | submitFidoPayload _ _ => true
  | _ => false

/-- The reply is a step of a login. -/
def Reply.isStep : Reply → Bool
  | step (.ok _) => true
  | _ => false

/-- A login, a refresh, a logout, a successful submission or a successful import. -/
def Entry.counts (entry : Entry σ) : Bool :=
  match entry.call with
  | .beginLogin _ _ _ => true
  | .refresh _ _ => true
  | .logout => true
  | .submitTwoFactor _ _ => entry.reply.isStep
  | .submitFidoPayload _ _ => entry.reply.isStep
  | .importFork _ _ _ _ => entry.reply.isStep
  | .fork _ _ _ => false

/-- The last of them. -/
def lastCounted (history : List (Entry σ)) : Option (Entry σ) :=
  (history.filter Entry.counts).getLast?

/-- The login of an account that was answered with a challenge. -/
def Entry.Challenged (entry : Entry σ) (challenge : Challenge) (info : SessionInfo) : Prop :=
  (∃ username password hasTotp fidoDetails,
    entry.call = .beginLogin username password (.twoFactor hasTotp fidoDetails info)) ∧
  entry.reply = .step (.ok (.challenge challenge))

/-- A submission reaches the engine under the challenge of the last counted login, for an arm it
offers, and returns the session of that login. -/
structure Faithful (history : List (Entry σ)) (entry : Entry σ) : Prop where
  offered : ∀ arm, (∃ call ∈ entry.wire, call.arm = some arm) → ∃ login challenge info,
    lastCounted history = some login ∧ login.Challenged challenge info ∧ challenge.offers arm = true
  session : entry.call.isSubmission = true → ∀ reply, entry.reply = .step (.ok reply) →
    ∃ login challenge info,
    lastCounted history = some login ∧ login.Challenged challenge info ∧ reply = .session info

/-! ## The invariant -/

/-- A pending challenge is that of the last counted call, and its options are there if it offers
them. -/
def Inv (state : AuthState σ) (history : List (Entry σ)) : Prop :=
  ∀ pending, state.pending = some pending → ∃ login,
    lastCounted history = some login ∧ login.Challenged pending.challenge pending.info ∧
      pending.challenge.fido2.isSome =
      (pending.fido2.bind FidoResponse.authenticationOptions).isSome

/-- No login fails while a challenge is pending. -/
def NoStaleLogin (state : AuthState σ) : Call σ → Prop
  | .beginLogin _ _ (.failed _) => state.pending = none
  | _ => True

theorem lastCounted_of_counts {entry : Entry σ} (h : entry.counts = true)
    (history : List (Entry σ)) :
    lastCounted (history ++ [entry]) = some entry := by
  unfold lastCounted
  rw [List.filter_append, List.filter_singleton, h, cond_true, List.getLast?_concat]

theorem lastCounted_of_not {entry : Entry σ} (h : entry.counts = false) (history : List (Entry σ)) :
    lastCounted (history ++ [entry]) = lastCounted history := by
  unfold lastCounted
  rw [List.filter_append, List.filter_singleton, h, cond_false, List.append_nil]

theorem Inv.of_none {state : AuthState σ} (h : state.pending = none) (history : List (Entry σ)) :
    Inv state history := by
  intro pending hp
  rw [h] at hp
  cases hp

theorem Inv.keep {state state' : AuthState σ} {history : List (Entry σ)} {entry : Entry σ}
    (hinv : Inv state history)
    (hpending : state'.pending = state.pending) (hcounts : entry.counts = false) :
    Inv state' (history ++ [entry]) := by
  intro pending hp
  rw [lastCounted_of_not hcounts]
  exact hinv pending (by rw [← hpending]; exact hp)

theorem Faithful.of_not {history : List (Entry σ)} {entry : Entry σ}
    (hwire : ∀ call ∈ entry.wire, call.arm = none)
    (hcall : entry.call.isSubmission = false) : Faithful history entry where
  offered arm h := by
    obtain ⟨call, hmem, harm⟩ := h
    rw [hwire call hmem] at harm
    cases harm
  session h := by
    rw [hcall] at h
    cases h

theorem fido2_challengeFrom (totp : Bool) (fido : Option FidoResponse) :
    (challengeFrom totp fido).fido2.isSome =
    (fido.bind FidoResponse.authenticationOptions).isSome := by
  unfold challengeFrom
  cases fido with
  | none => rfl
  | some response => cases h : response.authenticationOptions <;> simp [h]

/-! ## One call -/

section
variable {state : AuthState σ} {history : List (Entry σ)}

/-- What a call leaves: an entry that is as it should be, and the invariant. -/
def Kept (history : List (Entry σ)) (next : AuthState σ × List (Entry σ)) : Prop :=
  ∃ entry, next.2 = [entry] ∧ Faithful history entry ∧ Inv next.1 (history ++ [entry])

theorem kept_beginLogin (username password : String) (flow : LoginFlow σ)
    (hok : NoStaleLogin state (.beginLogin username password flow)) :
    Kept history (step state (.beginLogin username password flow)) := by
  have hfaithful : ∀ reply, Faithful history
      ⟨.beginLogin username password flow, [MuonCall.login state.session username password],
       reply⟩ := by
    intro reply
    refine .of_not (fun call hmem => ?_) rfl
    rw [List.mem_singleton.mp hmem]
    rfl
  cases flow with
  | ok session data => exact ⟨_, rfl, hfaithful _, .of_none rfl _⟩
  | failed reason => exact ⟨_, rfl, hfaithful _, .of_none hok _⟩
  | twoFactor hasTotp fidoDetails data =>
    show Kept history ((beginLogin state username password _).entry _ .step)
    unfold beginLogin
    dsimp only
    split_ifs
    · exact ⟨_, rfl, hfaithful _, .of_none rfl _⟩
    · refine ⟨_, rfl, hfaithful _, fun pending hp => ?_⟩
      cases hp
      exact ⟨_, lastCounted_of_counts rfl _, ⟨⟨username, password, hasTotp, fidoDetails, rfl⟩, rfl⟩,
        fido2_challengeFrom hasTotp fidoDetails⟩

theorem kept_settle (hinv : Inv state history) {pending : PendingTwoFactor}
    (hpending : state.pending = some pending)
    {call : Call σ} (hcall : call.isSubmission = true) {arm : Arm}
    (hoffers : pending.challenge.offers arm = true)
    {submission : MuonCall σ} (harm : submission.arm = some arm) (result : Except String σ) :
    Kept history ((settle state pending [submission] result).entry call .step) := by
  obtain ⟨login, hlast, hlogin, -⟩ := hinv pending hpending
  have hoffered : ∀ arm', (∃ sent ∈ [submission], sent.arm = some arm') → ∃ login challenge info,
      lastCounted history = some login ∧ login.Challenged challenge info ∧
      challenge.offers arm' = true := by
    rintro arm' ⟨sent, hmem, harm'⟩
    rw [List.mem_singleton.mp hmem, harm] at harm'
    cases harm'
    exact ⟨login, pending.challenge, pending.info, hlast, hlogin, hoffers⟩
  cases result with
  | ok session =>
    refine ⟨_, rfl, ⟨hoffered, fun _ reply hreply => ?_⟩, .of_none rfl _⟩
    cases hreply
    exact ⟨login, pending.challenge, pending.info, hlast, hlogin, rfl⟩
  | error err =>
    refine ⟨_, rfl, ⟨hoffered, fun _ reply hreply => by cases hreply⟩, hinv.keep hpending.symm ?_⟩
    cases call with
    | submitTwoFactor code result => rfl
    | submitFidoPayload payload result => rfl
    | beginLogin username password flow => cases hcall
    | refresh result auth => cases hcall
    | logout => cases hcall
    | fork childId auth result => cases hcall
    | importFork selector before after result => cases hcall

theorem kept_refused (hinv : Inv state history) {state' : AuthState σ}
    (hpending : state'.pending = state.pending) {call : Call σ} {error : ApiError}
    (hcounts : Entry.counts ⟨call, [], .step (.error error)⟩ = false) :
    Kept history (state', [⟨call, [], .step (.error error)⟩]) :=
  ⟨_, rfl, ⟨fun arm ⟨sent, hmem, _⟩ => absurd hmem List.not_mem_nil,
    fun _ reply hreply => by cases hreply⟩,
    hinv.keep hpending hcounts⟩

theorem kept_submitTwoFactor (hinv : Inv state history) (code : String) (result : Except String σ) :
    Kept history (step state (.submitTwoFactor code result)) := by
  show Kept history ((submitTwoFactor state code result).entry _ .step)
  unfold submitTwoFactor
  split_ifs
  · exact kept_refused hinv rfl rfl
  · cases hpending : state.pending with
    | none => exact kept_refused hinv rfl rfl
    | some pending =>
      dsimp only
      split_ifs with htotp
      · exact kept_refused hinv hpending.symm rfl
      · have hoffers : pending.challenge.offers .totp = true := by
          rwa [Bool.not_eq_true', Bool.not_eq_false] at htotp
        exact kept_settle hinv hpending rfl hoffers rfl result

theorem kept_submitFidoPayload (hinv : Inv state history) (payload : Fido2Payload)
    (result : Except String σ) :
    Kept history (step state (.submitFidoPayload payload result)) := by
  show Kept history ((submitFidoPayload state payload result).entry _ .step)
  unfold submitFidoPayload
  cases hpending : state.pending with
  | none => exact kept_refused hinv rfl rfl
  | some pending =>
    cases hoptions : pending.fido2.bind FidoResponse.authenticationOptions with
    | none =>
      dsimp only
      rw [hoptions]
      exact kept_refused hinv hpending.symm rfl
    | some options =>
      obtain ⟨-, -, -, hfido⟩ := hinv pending hpending
      rw [hoptions] at hfido
      dsimp only
      rw [hoptions]
      exact kept_settle hinv hpending rfl (show pending.challenge.offers .fido2 = true from hfido)
        rfl result

theorem kept_importFork (hinv : Inv state history) (selector : String) (before after : Auth)
    (result : Except String σ) :
    Kept history (step state (.importFork selector before after result)) := by
  have hfaithful : ∀ wire reply, (∀ call ∈ wire, call = MuonCall.fromFork state.session selector) →
      Faithful history ⟨.importFork selector before after result, wire, reply⟩ := by
    intro wire reply hwire
    refine .of_not (fun call hmem => ?_) rfl
    rw [hwire call hmem]
    rfl
  have hnil : ∀ call ∈ ([] : List (MuonCall σ)), call = MuonCall.fromFork state.session selector :=
    fun call hmem => absurd hmem List.not_mem_nil
  cases before with
  | internal userId uid tok => exact ⟨_, rfl, hfaithful _ _ hnil, hinv.keep rfl rfl⟩
  | external => exact ⟨_, rfl, hfaithful _ _ hnil, hinv.keep rfl rfl⟩
  | anonymous =>
    cases result with
    | ok session =>
      exact ⟨_, rfl, hfaithful _ _ fun call hmem => List.mem_singleton.mp hmem, .of_none rfl _⟩
    | error reason =>
      exact ⟨_, rfl, hfaithful _ _ fun call hmem => List.mem_singleton.mp hmem, hinv.keep rfl rfl⟩
  | none =>
    cases result with
    | ok session =>
      exact ⟨_, rfl, hfaithful _ _ fun call hmem => List.mem_singleton.mp hmem, .of_none rfl _⟩
    | error reason =>
      exact ⟨_, rfl, hfaithful _ _ fun call hmem => List.mem_singleton.mp hmem, hinv.keep rfl rfl⟩

theorem kept_fork (hinv : Inv state history) (childId : String) (auth : Auth)
    (result : Except String String) :
    Kept history (step state (.fork childId auth result)) := by
  have hfaithful : ∀ wire reply, (∀ call ∈ wire, call = MuonCall.fork state.session childId) →
      Faithful history ⟨.fork childId auth result, wire, reply⟩ := by
    intro wire reply hwire
    refine .of_not (fun call hmem => ?_) rfl
    rw [hwire call hmem]
    rfl
  have hone : ∀ call ∈ [MuonCall.fork state.session childId],
    call = MuonCall.fork state.session childId :=
    fun call hmem => List.mem_singleton.mp hmem
  show Kept history ((fork state childId auth result).entry _ .selector)
  unfold fork
  cases statusOf auth with
  | loggedOut =>
    exact ⟨_, rfl, hfaithful _ _ fun call hmem => absurd hmem List.not_mem_nil, hinv.keep rfl rfl⟩
  | loggedIn => cases result <;> exact ⟨_, rfl, hfaithful _ _ hone, hinv.keep rfl rfl⟩
  | needsRefresh => cases result <;> exact ⟨_, rfl, hfaithful _ _ hone, hinv.keep rfl rfl⟩

/-- **One call keeps the invariant**, and its entry is as it should be. -/
theorem kept_step (hinv : Inv state history) (call : Call σ) (hok : NoStaleLogin state call) :
    Kept history (step state call) := by
  cases call with
  | beginLogin username password flow => exact kept_beginLogin username password flow hok
  | submitTwoFactor code result => exact kept_submitTwoFactor hinv code result
  | submitFidoPayload payload result => exact kept_submitFidoPayload hinv payload result
  | refresh result auth =>
    refine ⟨_, rfl, .of_not (fun call hmem => ?_) rfl, .of_none rfl _⟩
    rw [List.mem_singleton.mp hmem]
    rfl
  | logout =>
    refine ⟨_, rfl, .of_not (fun call hmem => ?_) rfl, .of_none rfl _⟩
    rw [List.mem_singleton.mp hmem]
    rfl
  | fork childId auth result => exact kept_fork hinv childId auth result
  | importFork selector before after result =>
    exact kept_importFork hinv selector before after result

end

/-! ## Runs -/

/-- **A submission that is refused or fails leaves the pending challenge as it was.** -/
theorem pending_of_refused (state : AuthState σ) {call : Call σ} (hcall : call.isSubmission = true)
    {entry : Entry σ} (hentry : entry ∈ (step state call).2) {error : ApiError}
    (hreply : entry.reply = .step (.error error)) :
    (step state call).1.pending = state.pending := by
  have hsettle : ∀ pending wire result, state.pending = some pending →
      entry ∈ ((settle state pending wire result).entry call .step).2 →
      (settle state pending wire result).state.pending = state.pending := by
    intro pending wire result hpending hmem
    cases result with
    | ok session =>
      rw [List.mem_singleton.mp hmem] at hreply
      cases hreply
    | error err => exact hpending.symm
  cases call with
  | submitTwoFactor code result =>
    change (submitTwoFactor state code result).state.pending = state.pending
    change entry ∈ ((submitTwoFactor state code result).entry _ .step).2 at hentry
    unfold submitTwoFactor at hentry ⊢
    split_ifs at hentry ⊢
    · rfl
    · cases hpending : state.pending with
      | none => exact hpending
      | some pending =>
        rw [hpending] at hentry
        dsimp only at hentry ⊢
        split_ifs at hentry ⊢
        · rfl
        · rw [hsettle pending _ result hpending hentry, hpending]
  | submitFidoPayload payload result =>
    change (submitFidoPayload state payload result).state.pending = state.pending
    change entry ∈ ((submitFidoPayload state payload result).entry _ .step).2 at hentry
    unfold submitFidoPayload at hentry ⊢
    cases hpending : state.pending with
    | none => exact hpending
    | some pending =>
      rw [hpending] at hentry
      dsimp only at hentry ⊢
      cases hoptions : pending.fido2.bind FidoResponse.authenticationOptions with
      | none => rfl
      | some options =>
        rw [hoptions] at hentry
        dsimp only at hentry ⊢
        rw [hsettle pending _ result hpending hentry, hpending]
  | beginLogin username password flow => cases hcall
  | refresh result auth => cases hcall
  | logout => cases hcall
  | fork childId auth result => cases hcall
  | importFork selector before after result => cases hcall

/-- **The second factor belongs to the last login**, in every run in which no login fails while a
challenge is pending. -/
theorem second_factor_of_last_login (session : σ) (calls : List (Call σ))
    (hok : Machine.Along step NoStaleLogin (AuthState.connect session) calls) :
    (∀ (pre : List (Entry σ)) (entry : Entry σ) (post : List (Entry σ)),
      (Machine.run step (AuthState.connect session) calls).2 = pre ++ entry :: post →
      Faithful pre entry) ∧
    ∀ (state : AuthState σ) (call : Call σ), call.isSubmission = true →
      ∀ entry ∈ (step state call).2, ∀ error,
      entry.reply = .step (.error error) → (step state call).1.pending = state.pending := by
  refine ⟨?_, fun state call hcall entry hentry error hreply =>
    pending_of_refused state hcall hentry hreply⟩
  have hrun := Machine.run_inv_of_steps NoStaleLogin
    (fun (state : AuthState σ) history => Inv state history ∧
      ∀ (pre : List (Entry σ)) (entry : Entry σ) (post : List (Entry σ)), history = pre ++
        entry :: post →
        Faithful pre entry)
    (fun state history call hcall hinv => ?_) (AuthState.connect session)
    ⟨.of_none rfl [], fun pre entry post h => by simp at h⟩ calls hok.at_step
  · exact hrun.2
  · obtain ⟨hinv, hfaithful⟩ := hinv
    obtain ⟨entry, hentry, hnew, hinv'⟩ := kept_step hinv call hcall
    rw [hentry]
    refine ⟨hinv', fun pre old post heq => ?_⟩
    rcases Machine.append_eq_append_cons heq with ⟨mid, hold, -⟩ | ⟨mid, hlast, hpre⟩
    · exact hfaithful pre old mid hold
    · cases mid with
      | nil =>
        obtain ⟨rfl, -⟩ := List.cons.inj hlast
        rw [hpre, List.append_nil]
        exact hnew
      | cons x mid =>
        have hnil := (List.cons.inj hlast).2
        simp at hnil

/-- A challenge for a code, to one account. -/
def challengeLogin : Call ℕ := .beginLogin "alice" "a" (.twoFactor true none ⟨"u1", "s1"⟩)

/-- A login that fails, a challenge, a wrong code, and the right one. -/
def retriedRun : List (Call ℕ) :=
  [.beginLogin "alice" "b" (.failed "wrong password"), challengeLogin,
   .submitTwoFactor "000000" (.error "wrong code"), .submitTwoFactor "123456" (.ok 1)]

theorem second_factor_of_last_login_retried :
    (∀ (pre : List (Entry ℕ)) (entry : Entry ℕ) (post : List (Entry ℕ)),
      (Machine.run step (AuthState.connect 0) retriedRun).2 = pre ++ entry :: post →
      Faithful pre entry) ∧
    (Machine.run step (AuthState.connect 0) retriedRun).1.session = 1 := by
  have hok : Machine.Along step NoStaleLogin (AuthState.connect 0) retriedRun :=
    ⟨rfl, trivial, trivial, trivial, trivial⟩
  exact ⟨(second_factor_of_last_login 0 retriedRun hok).1, rfl⟩

/-- The login of another account fails. -/
def failedLogin : Call ℕ := .beginLogin "bob" "b" (.failed "wrong password")

/-- **After a login that fails, a code is sent under the challenge before it.** -/
theorem second_factor_of_failed_login :
    ∃ entry : Entry ℕ,
      (Machine.run step (AuthState.connect 0)
       [challengeLogin, failedLogin, .submitTwoFactor "123456" (.ok 1)]).2 =
        (Machine.run step (AuthState.connect 0) [challengeLogin, failedLogin]).2 ++ [entry] ∧
      entry.wire = [MuonCall.fromTotp 0 "123456"] ∧
      entry.reply = .step (.ok (.session ⟨"u1", "s1"⟩)) ∧
      ¬ Faithful (Machine.run step (AuthState.connect 0) [challengeLogin, failedLogin]).2
        entry := by
  refine ⟨⟨.submitTwoFactor "123456" (.ok 1), [.fromTotp 0 "123456"],
    .step (.ok (.session ⟨"u1", "s1"⟩))⟩,
    rfl, rfl, rfl, fun hfaithful => ?_⟩
  obtain ⟨login, challenge, info, hlast,
    ⟨⟨username, password, hasTotp, fidoDetails, hcall⟩, -⟩, -⟩ :=
    hfaithful.offered .totp ⟨_, List.mem_singleton_self _, rfl⟩
  cases hlast
  cases hcall

end MuonAuth

end ProtonWire
