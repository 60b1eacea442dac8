import ProtonWire.Net.Teardown

/-!
# A connect that fails

What a failed connect leaves of the routing state and of the live kill-switch table, against what it
found.

* `refusal`: where an executor refuses a batch;
* `FailedConnectRestores`: whichever phase fails, routing and table are as before;
* **`failed_connect_restores_iff`**: exactly when they are. The routes are undone, the kill switch
  is not: a failed verification and a failed resolver phase leave the new table, and failed routes
  leave none, also where there was one.
-/

namespace ProtonWire

open Rollback

/-! ## Refused batches -/

section
variable {σ : Type*} (E : NetlinkExecutor σ)

/-- The operations that changed the state before the first refusal, and the state it leaves. -/
def refusal : List NetOp → List NetOp → σ → Option (List NetOp × σ)
  | [], _, _ => none
  | op :: ops, applied, x =>
    match E.exec op x with
    | (.ok true, x) => refusal ops (applied ++ [op]) x
    | (.ok false, x) => refusal ops applied x
    | (.error _, x) => some (applied, x)

/-- None of the calls that undo a batch is refused. -/
def UndoneCleanly (applied : List NetOp) (x : σ) : Prop :=
  (execAll E.exec (undo inverse applied) x).1 = []

variable {E}

theorem applyLoop_of_refusal {ops applied applied' : List NetOp} {x y : σ}
    (h : refusal E ops applied x = some (applied', y)) : ∃ failure z,
      RouteTransaction.applyLoop E ops applied x = (.error failure, z) ∧
        (failure.rollbackErrors = [] ↔ UndoneCleanly E applied' y) := by
  induction ops generalizing applied x with
  | nil => cases h
  | cons op ops ih =>
    unfold refusal at h
    unfold RouteTransaction.applyLoop
    rcases hexec : E.exec op x with ⟨error | _ | _, z⟩ <;> rw [hexec] at h <;> dsimp only at h
    · cases h
      exact ⟨_, _, rfl, Iff.rfl⟩
    · exact ih h
    · exact ih h

theorem applyLoop_of_no_refusal {ops applied : List NetOp} {x : σ}
    (h : refusal E ops applied x = none) :
    ∃ result z, RouteTransaction.applyLoop E ops applied x = (.ok result, z) := by
  induction ops generalizing applied x with
  | nil => exact ⟨applied, x, rfl⟩
  | cons op ops ih =>
    unfold refusal at h
    unfold RouteTransaction.applyLoop
    rcases hexec : E.exec op x with ⟨error | _ | _, z⟩ <;> rw [hexec] at h <;> dsimp only at h
    · cases h
    · exact ih h
    · exact ih h

end

/-! ## The property and its condition -/

section
variable {σ : Type*} (E : NetlinkExecutor σ) (routing : σ → Finset NetObject)

/-- The rollback of the routes was clean, if it was the routes that failed. -/
def SessionError.Clean : SessionError → Prop
  | .routes failure => failure.rollbackErrors = []
  | _ => True

/-- A connect that fails leaves the routing state and the live table as it found them. -/
def FailedConnectRestores (text : String) (inputs : ConnectInputs) (extras : KillSwitchPolicy)
    (env : ConnectEnv) (host : Host σ) : Prop :=
  ∀ error host', connect E text inputs extras env host = some (.error error, host') → error.Clean →
    routing host'.routing = routing host.routing ∧ live host'.nft = live host.nft

/-- What is asked once the kill switch is armed, with the plan, the executor's state, and the tables
the batch left. -/
structure RestoresAfterArming (inputs : ConnectInputs) (env : ConnectEnv) (host : Host σ)
    (plan : TablePlan) (x : σ) (nft : Nft) : Prop where
  /-- Where the routes fail, there was no table and the new one goes, or it stays and equals the old
  one. -/
  refused : ∀ applied y, refusal E (sessionOps plan inputs) [] x = some (applied, y) →
    UndoneCleanly E applied y →
    (env.disarm.Removes → live host.nft = []) ∧ (¬ env.disarm.Removes → live nft = live host.nft)
  /-- Where the resolver phase fails, every desired object was there and the tables are equal. -/
  unapplied : refusal E (sessionOps plan inputs) [] x = none →
    ¬ Dns.Applicable env.dns inputs.tunIfname inputs.dns host.resolver →
      objectsOf (sessionOps plan inputs) ⊆ routing host.routing ∧ live nft = live host.nft

/-- When a failed connect leaves the host as it was: before its kill-switch batch is in, always. -/
def RestoresWhen (text : String) (inputs : ConnectInputs) (extras : KillSwitchPolicy)
    (env : ConnectEnv) (host : Host σ) : Prop :=
  ∀ plan x nft, planWith E text inputs.persistedTables host.routing = (.ok (some plan), x) →
    prepared inputs extras env host.nft = .ok nft → env.arm.fails .send = none →
      (¬ env.arm.Proves inputs.uplinkIfname → live nft = live host.nft) ∧
        (env.arm.Proves inputs.uplinkIfname →
         RestoresAfterArming E routing inputs env host plan x nft)

variable {E routing}

theorem restores_after_arming_iff (h : E.Honours routing) {inputs : ConnectInputs}
    {env : ConnectEnv} {host : Host σ}
    {plan : TablePlan} {x : σ} {nft : Nft} {rules : List (Ruleset.Rule Field)}
    (hx : routing x = routing host.routing)
    (hlive : live nft = [ownTable inputs.generation rules]) :
    (∀ error host', commitRoutes E plan inputs env { host with routing := x, nft := nft } =
     (.error error, host') →
      error.Clean → routing host'.routing = routing host.routing ∧ live host'.nft = live host.nft) ↔
      RestoresAfterArming E routing inputs env host plan x nft := by
  obtain ⟨hgoes, hstays⟩ : (env.disarm.Removes → _) ∧ (¬ env.disarm.Removes → _) :=
    KillSwitch.remove_own hlive
  rcases hres : commitRoutes E plan inputs env { host with routing := x, nft := nft } with
    ⟨result, host'⟩
  obtain ⟨txn, hops, hend⟩ := commitRoutes_cases hres
  have hatomic := RouteTransaction.applyLoop_atomic h txn.ops [] x rfl
  cases hrefusal : refusal E (sessionOps plan inputs) [] x with
  | some point =>
    obtain ⟨applied, y⟩ := point
    obtain ⟨failure, z, hloop, hclean⟩ := applyLoop_of_refusal hrefusal
    rw [← hops] at hloop
    rcases hend with ⟨failure', z', happly, rfl, rfl⟩ | ⟨_, _, _, _, happly, -⟩ <;>
      cases hloop.symm.trans happly
    constructor
    · intro hrestores
      refine ⟨fun applied' y' hpoint hundone => ?_,
        fun hnone => (nomatch hrefusal.symm.trans hnone)⟩
      cases hrefusal.symm.trans hpoint
      have hlive' := (hrestores _ _ rfl (hclean.mpr hundone)).2
      refine ⟨fun hremoves => ?_, fun hremoves => ?_⟩
      · rw [← hlive', hgoes hremoves]
      · rw [← hlive', hstays hremoves]
    · rintro hafter error host'' heq hcleanError
      cases heq
      obtain ⟨hnone, hequal⟩ := hafter.refused applied y hrefusal (hclean.mp hcleanError)
      refine ⟨(hatomic.2 failure z hloop hcleanError).trans hx, ?_⟩
      by_cases hremoves : env.disarm.Removes
      · exact (hgoes hremoves).trans (hnone hremoves).symm
      · exact (congrArg live (hstays hremoves)).trans (hequal hremoves)
  | none =>
    obtain ⟨installed, z, hloop⟩ := applyLoop_of_no_refusal hrefusal
    rw [← hops] at hloop
    rcases hend with ⟨_, _, happly, -⟩ | ⟨installed', z', dns, resolver, happly, hdns,
      rfl, hend⟩ <;>
      cases hloop.symm.trans happly
    have hiff : _ ↔ Dns.Applicable env.dns inputs.tunIfname inputs.dns host.resolver :=
      Dns.applyDns_isOk_iff
    rw [show Dns.applyDns env.dns inputs.tunIfname inputs.dns host.resolver = (dns, resolver)
      from hdns] at hiff
    have hz : routing z = routing host.routing ∪ objectsOf (sessionOps plan inputs) := by
      rw [(hatomic.1 installed z hloop).2, hops, hx,
        replay_adds fun op hop => (sessionOps_admitted plan inputs op hop).1]
    rcases hend with ⟨error, rfl, rfl⟩ | ⟨evidence, rfl, rfl⟩
    · have hnot : ¬ Dns.Applicable env.dns inputs.tunIfname inputs.dns host.resolver :=
        fun happlicable =>
        nomatch (hiff.mpr happlicable).choose_spec
      constructor
      · intro hrestores
        refine ⟨fun _ _ hpoint => (nomatch hrefusal.symm.trans hpoint), fun _ _ => ?_⟩
        obtain ⟨hsame, hequal⟩ := hrestores _ _ rfl trivial
        exact ⟨Finset.union_eq_left.mp (hz.symm.trans hsame), hequal⟩
      · rintro hafter error' host'' heq -
        cases heq
        obtain ⟨hsubset, hequal⟩ := hafter.unapplied hrefusal hnot
        exact ⟨hz.trans (Finset.union_eq_left.mpr hsubset), hequal⟩
    · refine ⟨fun _ => ⟨fun _ _ hpoint => (nomatch hrefusal.symm.trans hpoint), fun _ hnot => ?_⟩,
        fun _ => nofun⟩
      exact absurd (hiff.mp ⟨evidence, rfl⟩) hnot

theorem restores_after_batch_iff (h : E.Honours routing) {inputs : ConnectInputs}
    {extras : KillSwitchPolicy}
    {env : ConnectEnv} {host : Host σ} {plan : TablePlan} {x : σ} {nft : Nft}
    (hx : routing x = routing host.routing)
    (hprepared : prepared inputs extras env host.nft = .ok nft)
    (hsend : env.arm.fails .send = none) :
    (∀ error host', connectWith E plan inputs extras env { host with routing := x } =
     (.error error, host') →
      error.Clean → routing host'.routing = routing host.routing ∧ live host'.nft = live host.nft) ↔
      (¬ env.arm.Proves inputs.uplinkIfname → live nft = live host.nft) ∧
        (env.arm.Proves inputs.uplinkIfname →
         RestoresAfterArming E routing inputs env host plan x nft) := by
  obtain ⟨lo, tun, -, -, -, hlive⟩ := KillSwitch.prepare_spec hprepared
  have hverify : KillSwitch.verify env.arm inputs.uplinkIfname
    { extras with tunIfindex := inputs.tunIfindex }
      inputs.generation nft = .ok () ↔ env.arm.Proves inputs.uplinkIfname :=
      KillSwitch.verify_eq_ok_iff hlive rfl
  rcases hres : connectWith E plan inputs extras env { host with routing := x } with ⟨result, host'⟩
  obtain ⟨error, -, -, hunsent⟩ | ⟨nft', hprepared', -, hend⟩ := connectWith_cases hres
  · exact absurd ⟨hsend, nft, hprepared⟩ hunsent
  obtain rfl : nft = nft' := Except.ok.inj (hprepared.symm.trans hprepared')
  rcases hend with ⟨error, hfails, rfl, rfl⟩ | ⟨hok, hcommit⟩
  · have hnot : ¬ env.arm.Proves inputs.uplinkIfname := fun hproves => by
      rw [hverify.mpr hproves] at hfails
      cases hfails
    constructor
    · intro hrestores
      exact ⟨fun _ => (hrestores _ _ rfl trivial).2, fun hproves => absurd hproves hnot⟩
    · rintro ⟨hequal, -⟩ error' host'' heq -
      cases heq
      exact ⟨hx, hequal hnot⟩
  · have hproves := hverify.mp hok
    rw [← hcommit, restores_after_arming_iff h hx hlive]
    exact ⟨fun hafter => ⟨fun hnot => absurd hproves hnot, fun _ => hafter⟩,
      fun hafter => hafter.2 hproves⟩

/-- **When a failed connect leaves the host as it was**: always before the batch of its kill switch
is in, and after that only where the table of the batch is the one that was there, or where the
routes fail, no table was there and the new one goes. -/
theorem failed_connect_restores_iff {σ : Type*} (E : NetlinkExecutor σ)
    (routing : σ → Finset NetObject)
    (h : E.Honours routing) (text : String) (inputs : ConnectInputs) (extras : KillSwitchPolicy)
    (env : ConnectEnv) (host : Host σ) :
    FailedConnectRestores E routing text inputs extras env host ↔
      RestoresWhen E routing text inputs extras env host := by
  rcases hplan : planWith E text inputs.persistedTables host.routing with ⟨planned, x⟩
  have hx := routing_planWith h hplan
  unfold FailedConnectRestores RestoresWhen connect
  rw [hplan]
  rcases planned with error | _ | plan
  · refine ⟨fun _ _ _ _ hnone => (nomatch hnone), fun _ error' host' heq _ => ?_⟩
    cases heq
    exact ⟨hx, rfl⟩
  · exact ⟨fun _ _ _ _ hnone => (nomatch hnone), fun _ _ _ hnone => (nomatch hnone)⟩
  · by_cases hsent : env.arm.fails .send = none ∧
      ∃ nft, prepared inputs extras env host.nft = .ok nft
    · obtain ⟨hsend, nft, hprepared⟩ := hsent
      have hiff : (∀ error host', connectWith E plan inputs extras env _ = (.error error,
        host') → _) ↔ _ :=
        restores_after_batch_iff h hx hprepared hsend
      constructor
      · intro hrestores plan' x' nft' hplan' hprepared' _
        cases hplan'
        obtain rfl : nft = nft' := Except.ok.inj (hprepared.symm.trans hprepared')
        exact hiff.mp fun error host' hres => hrestores error host' (congrArg some hres)
      · intro hwhen error host' hres
        exact hiff.mpr (hwhen plan x nft rfl hprepared hsend) error host' (Option.some.inj hres)
    · constructor
      · intro _ plan' x' nft' _ hprepared hsend
        exact absurd ⟨hsend, nft', hprepared⟩ hsent
      · intro _ error host' hres _
        obtain ⟨_, -, rfl, -⟩ | ⟨nft', hprepared, hsend, -⟩ :=
          connectWith_cases (Option.some.inj hres)
        · exact ⟨hx, rfl⟩
        · exact absurd ⟨hsend, nft', hprepared⟩ hsent

end

/-- A host whose executor refuses the first call. -/
def refusingHost (nft : Nft) : Host (Finset NetObject × List Bool) :=
  ⟨(∅, [true]), nft, ⟨false, none⟩⟩

/-- A first connect whose routes fail. -/
theorem failed_connect_restores_firstConnect :
    FailedConnectRestores scripted Prod.fst "" firstConnect ⟨0, true, [], 0x21⟩ quietConnect
      (refusingHost []) := by
  refine (failed_connect_restores_iff scripted Prod.fst scripted_honours "" firstConnect ⟨0,
    true, [], 0x21⟩
    quietConnect (refusingHost [])).mpr fun plan x nft _ _ _ =>
    ⟨fun hnot => ?_, fun _ => ⟨fun _ _ _ _ => ?_, ?_⟩⟩
  · exact absurd ⟨fun _ _ => rfl, by decide⟩ hnot
  · exact ⟨fun _ => rfl, fun hnot => absurd ⟨rfl, rfl, rfl⟩ hnot⟩
  · exact fun _ hnot => absurd (Or.inl rfl) hnot

/-- A reconnect, over the table of generation 1. -/
def reconnect :
    ConnectInputs := { firstConnect with generation := ⟨2⟩, priorGeneration := some ⟨1⟩ }

/-- **A reconnect whose routes fail takes the table that was there.** -/
theorem reconnect_loses_table :
    (∃ failure host', connect scripted "" reconnect ⟨0, true, [], 0x21⟩ quietConnect
        (refusingHost connectedHost.nft) = some (.error (.routes failure), host') ∧
      failure.rollbackErrors = [] ∧ live host'.nft = []) ∧
    ¬ FailedConnectRestores scripted Prod.fst "" reconnect ⟨0, true, [], 0x21⟩ quietConnect
        (refusingHost connectedHost.nft) := by
  have hres : ∃ failure host', connect scripted "" reconnect ⟨0, true, [], 0x21⟩ quietConnect
      (refusingHost connectedHost.nft) = some (.error (.routes failure), host') ∧
      failure.rollbackErrors = [] ∧ live host'.nft = [] := ⟨_, _, rfl, rfl, rfl⟩
  refine ⟨hres, fun hrestores => ?_⟩
  obtain ⟨failure, host', hconnect, hclean, hgone⟩ := hres
  have hkept := (hrestores _ _ hconnect hclean).2
  rw [hgone] at hkept
  cases hkept

end ProtonWire
