import ProtonWire.Lib.Runs
import ProtonWire.Net.FailedConnect

/-!
# Permanent mode

`crates/net/src/permanent.rs`: histories of the early firewall, connects and permanent disconnects,
and whether the host stays closed once a table of ours drops.

* `PermanentStep`, `permanentStep`: the histories; routes and resolver may drift in between;
* `KeepsArmed`: the connects that do not take down what they armed;
* **`never_opens_iff`**: a history stays closed exactly when it has no other connects.
-/

namespace ProtonWire

section
variable {σ : Type*}

/-- One call of a history without `remove_early_firewall`. -/
inductive PermanentStep (σ : Type*) where
  | applyEarlyFirewall (env : NetfilterEnv) (subsecNanos : Option UInt32)
    (generation : GenerationId)
  | connect (rtTablesText : String) (inputs : ConnectInputs) (extras : KillSwitchPolicy)
    (env : ConnectEnv)
  /-- `permanent_kill_switch` is set. -/
  | disconnect (state : SessionState) (tunIfname : String) (prior : Option GenerationId)
    (env : DisconnectEnv)
  /-- Routes and resolver change under us. -/
  | drift (routing : σ) (resolver : Resolver)

variable (E : NetlinkExecutor σ)

/-- What a call leaves of the host. -/
def permanentStep (host : Host σ) : PermanentStep σ → Host σ × List Unit
  | .applyEarlyFirewall env subsecNanos generation =>
    ({ host with nft := (applyEarlyFirewall env subsecNanos generation host.nft).2 }, [])
  | .connect text inputs extras env =>
    match connect E text inputs extras env host with
    | some (_, host) => (host, [])
    | none => (host, [])
  | .disconnect state tunIfname prior env =>
    ((disconnect E state tunIfname true prior env host).2, [])
  | .drift routing resolver => ({ host with routing := routing, resolver := resolver }, [])

/-- A connect that arms, is refused its routes, and gets its removal through, opens the host. -/
def KeepsArmed (host : Host σ) : PermanentStep σ → Prop
  | .connect text inputs extras env => ∀ plan x nft,
      planWith E text inputs.persistedTables host.routing = (.ok (some plan), x) →
        prepared inputs extras env host.nft = .ok nft → env.arm.fails .send = none →
          env.arm.Proves inputs.uplinkIfname →
          (refusal E (sessionOps plan inputs) [] x).isSome = true →
            ¬ env.disarm.Removes
  | _ => True

/-- The host drops after every call of a history. -/
def StaysClosed (host : Host σ) (history : List (PermanentStep σ)) : Prop :=
  ∀ past, past <+: history → Dropping (Machine.run (permanentStep E) host past).1.nft

variable {E}

theorem not_dropping_of_live_nil {nft : Nft} (h : live nft = []) : ¬ Dropping nft := by
  rintro ⟨table, hmem, -⟩
  rw [h] at hmem
  cases hmem

theorem nft_disconnect {state : SessionState} {tunIfname : String} {prior : Option GenerationId}
    {env : DisconnectEnv}
    {host : Host σ} : (disconnect E state tunIfname true prior env host).2.nft = host.nft := by
  unfold disconnect
  dsimp only
  rcases E.cleanupOps state.installedOps host.routing with ⟨error | cleanup, x⟩
  · rfl
  · dsimp only
    cases (RouteTransaction.new state.plan).extend cleanup with
    | error error => rfl
    | ok txn =>
      dsimp only
      rcases txn.apply E x with ⟨failure | applied, y⟩ <;> rfl

theorem commitRoutes_dropping_iff {plan : TablePlan} {inputs : ConnectInputs} {env : ConnectEnv}
    {host host' : Host σ}
    {result : Except SessionError SessionState} {rules : List (Ruleset.Rule Field)}
    (hlive : live host.nft = [ownTable inputs.generation rules])
    (hres : commitRoutes E plan inputs env host = (result, host')) :
    Dropping host'.nft ↔
      ((refusal E (sessionOps plan inputs) [] host.routing).isSome = true →
       ¬ env.disarm.Removes) := by
  obtain ⟨hgoes, hstays⟩ : (env.disarm.Removes → _) ∧ (¬ env.disarm.Removes → _) :=
    KillSwitch.remove_own hlive
  obtain ⟨txn, hops, ⟨failure, x, happly, -, rfl⟩ | ⟨installed, x, dns, resolver, happly, -,
    rfl, -⟩⟩ :=
    commitRoutes_cases hres
  · -- the routes are refused, and the removal decides
    have hsome : (refusal E (sessionOps plan inputs) [] host.routing).isSome = true := by
      by_contra hnone
      obtain ⟨installed, z, hloop⟩ := applyLoop_of_no_refusal
        (Option.not_isSome_iff_eq_none.mp hnone)
      rw [← hops] at hloop
      cases hloop.symm.trans happly
    by_cases hremoves : env.disarm.Removes
    · exact ⟨fun h => absurd h (not_dropping_of_live_nil (hgoes hremoves)),
        fun h => absurd hremoves (h hsome)⟩
    · refine ⟨fun _ _ => hremoves, fun _ => ?_⟩
      change Dropping (KillSwitch.remove env.disarm (some inputs.generation) host.nft).2
      rw [hstays hremoves]
      exact KillSwitch.dropping_of_live hlive
  · refine ⟨fun _ hsome => ?_, fun _ => KillSwitch.dropping_of_live hlive⟩
    obtain ⟨⟨applied, y⟩, hpoint⟩ := Option.isSome_iff_exists.mp hsome
    obtain ⟨failure, z, hloop, -⟩ := applyLoop_of_refusal hpoint
    rw [← hops] at hloop
    cases hloop.symm.trans happly

theorem connect_dropping_iff {text : String} {inputs : ConnectInputs} {extras : KillSwitchPolicy}
    {env : ConnectEnv} {host : Host σ} (h : Dropping host.nft) :
    Dropping (permanentStep E host (.connect text inputs extras env)).1.nft ↔
      KeepsArmed E host (.connect text inputs extras env) := by
  cases hconnect : connect E text inputs extras env host with
  | none =>
    rw [show (permanentStep E host (.connect text inputs extras env)).1 = host by
      rw [permanentStep, hconnect]]
    refine ⟨fun _ plan x nft hplan => ?_, fun _ => h⟩
    unfold connect at hconnect
    rw [hplan] at hconnect
    cases hconnect
  | some out =>
    obtain ⟨result, host'⟩ := out
    rw [show (permanentStep E host (.connect text inputs extras env)).1 = host' by
      rw [permanentStep, hconnect]]
    obtain ⟨error, x, hplan, -, rfl⟩ | ⟨plan, x, hplan, hres⟩ := connect_cases hconnect
    · exact ⟨fun _ plan y nft hplan' => (nomatch hplan.symm.trans hplan'), fun _ => h⟩
    obtain ⟨error, -, rfl, hunsent⟩ | ⟨nft, hprepared, hsend, hend⟩ := connectWith_cases hres
    · exact ⟨fun _ _ _ nft _ hprepared hsend => absurd ⟨hsend, nft, hprepared⟩ hunsent, fun _ => h⟩
    obtain ⟨lo, tun, -, -, -, hlive⟩ := KillSwitch.prepare_spec hprepared
    have hverify : KillSwitch.verify env.arm inputs.uplinkIfname
      { extras with tunIfindex := inputs.tunIfindex }
        inputs.generation nft = .ok () ↔ env.arm.Proves inputs.uplinkIfname :=
        KillSwitch.verify_eq_ok_iff hlive rfl
    -- the condition is about this plan and this batch
    have hcondition : (∀ plan x nft, planWith E text inputs.persistedTables host.routing =
      (.ok (some plan), x) →
        prepared inputs extras env host.nft = .ok nft → env.arm.fails .send = none →
          env.arm.Proves inputs.uplinkIfname →
          (refusal E (sessionOps plan inputs) [] x).isSome = true →
            ¬ env.disarm.Removes) ↔ (env.arm.Proves inputs.uplinkIfname →
          (refusal E (sessionOps plan inputs) [] x).isSome = true → ¬ env.disarm.Removes) := by
      refine ⟨fun hall => hall plan x nft hplan hprepared hsend,
        fun hthis plan' x' nft' hplan' _ _ => ?_⟩
      cases hplan.symm.trans hplan'
      exact hthis
    refine Iff.trans ?_ hcondition.symm
    rcases hend with ⟨error, hfails, -, rfl⟩ | ⟨hok, hcommit⟩
    · refine ⟨fun _ hproves => ?_, fun _ => KillSwitch.dropping_of_live hlive⟩
      rw [hverify.mpr hproves] at hfails
      cases hfails
    · have hproves := hverify.mp hok
      rw [commitRoutes_dropping_iff (by exact hlive) hcommit]
      exact ⟨fun hkeeps _ => hkeeps, fun hkeeps => hkeeps hproves⟩

theorem permanentStep_dropping_iff {host : Host σ} (h : Dropping host.nft)
    (step : PermanentStep σ) :
    Dropping (permanentStep E host step).1.nft ↔ KeepsArmed E host step := by
  cases step with
  | applyEarlyFirewall env subsecNanos generation =>
    exact ⟨fun _ => trivial, fun _ => KillSwitch.apply_dropping env "lo" "lo" _ generation none h⟩
  | connect text inputs extras env => exact connect_dropping_iff h
  | disconnect state tunIfname prior env =>
    refine ⟨fun _ => trivial, fun _ => ?_⟩
    change Dropping (disconnect E state tunIfname true prior env host).2.nft
    rwa [nft_disconnect]
  | drift routing resolver => exact ⟨fun _ => trivial, fun _ => h⟩

/-- **Permanent mode never opens, exactly along the histories whose connects keep what they
armed.** -/
theorem never_opens_iff {σ : Type*} (E : NetlinkExecutor σ) (host : Host σ) (h : Dropping host.nft)
    (history : List (PermanentStep σ)) :
    StaysClosed E host history ↔ Machine.Along (permanentStep E) (KeepsArmed E) host history := by
  induction history generalizing host with
  | nil =>
    refine ⟨fun _ => trivial, fun _ past hpast => ?_⟩
    rw [List.prefix_nil.mp hpast]
    exact h
  | cons step history ih =>
    constructor
    · intro hclosed
      have hstep : Dropping (permanentStep E host step).1.nft := 
        hclosed [step] ((List.prefix_cons_inj step).mpr List.nil_prefix)
      refine ⟨(permanentStep_dropping_iff h step).mp hstep, (ih _ hstep).mp fun past hpast => ?_⟩
      exact hclosed (step :: past) ((List.prefix_cons_inj step).mpr hpast)
    · rintro ⟨hkeeps, halong⟩ past hpast
      have hstep := (permanentStep_dropping_iff h step).mpr hkeeps
      cases past with
      | nil => exact h
      | cons step' past =>
        obtain ⟨rfl, hrest⟩ := List.cons_prefix_cons.mp hpast
        exact (ih _ hstep).mpr halong past hrest

end

/-- A removal whose batch is refused. -/
def stuckConnect : ConnectEnv :=
  { quietConnect with
    disarm :=
      { quietNetfilter with
        fails := fun call => if call = .send then some "No buffer space available" else none } }

/-- A reconnect whose routes are refused, and whose removal is. -/
theorem never_opens_stuckConnect :
    StaysClosed scripted (refusingHost connectedHost.nft)
      [.connect "" reconnect ⟨0, true, [], 0x21⟩ stuckConnect,
        .disconnect firstSession "pw-tun0" (some ⟨2⟩) quietDisconnect] :=
  (never_opens_iff scripted (refusingHost connectedHost.nft)
   (KillSwitch.dropping_of_live rfl) _).mpr
    ⟨fun _ _ _ _ _ _ _ _ hremoves => (nomatch hremoves.2.2), trivial, trivial⟩

/-- The early firewall, and a connect over it. -/
def bootHistory : List (PermanentStep (Finset NetObject × List Bool)) :=
  [.applyEarlyFirewall quietNetfilter none ⟨1⟩,
   .connect "" reconnect ⟨0, true, [], 0x21⟩ quietConnect]

/-- **A connect whose routes fail opens the host that the early firewall closed.** -/
theorem bootHistory_opens :
    Dropping (Machine.run (permanentStep scripted) (refusingHost []) (bootHistory.take 1)).1.nft ∧
      ¬ Dropping (Machine.run (permanentStep scripted) (refusingHost []) bootHistory).1.nft := by
  have hclosed : live (Machine.run (permanentStep scripted) (refusingHost [])
    (bootHistory.take 1)).1.nft =
      [ownTable ⟨1⟩ (renderRules 1 { earlyPolicy none with tunIfindex := 1 })] := rfl
  exact ⟨KillSwitch.dropping_of_live hclosed, not_dropping_of_live_nil rfl⟩

end ProtonWire
