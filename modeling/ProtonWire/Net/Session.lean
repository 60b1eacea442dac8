import ProtonWire.Net.Dns
import ProtonWire.Net.Enforcement

/-!
# The session orchestrator

`crates/net/src/session.rs`, with `plan_with` and the desired operations of `route_drift.rs`: the
connect sequence (plan, kill switch, routes, resolver) and the disconnect sequence (resolver,
routes, kill switch).

* `desiredOps`: what a full-tunnel session wants;
* `planWith`, `connect`, `disconnect`: the sequences, over a host of routing, tables and resolver. A
  connect has no result where the search for a table id has none;
* `connect_cases`, `connectWith_cases`, `commitRoutes_cases`: where a connect can end.
-/

namespace ProtonWire

/-! ## The desired routes -/

/-- What the session wants from IPv6. -/
inductive Ipv6Desired where
  | tunnelled
  | blocked
  deriving DecidableEq

/-- The priority of the tunnel rules. -/
def fullTunnelRulePriority : UInt32 := 31700

/-- The priority of the bypass rules. -/
def bypassRulePriority : UInt32 := fullTunnelRulePriority - 1

/-- The desired routing state of a full-tunnel session. -/
structure DesiredRoutes where
  plan : TablePlan
  tunOif : UInt32
  /-- Zero disables the bypass rules. -/
  bypassMark : UInt32
  ipv6 : Ipv6Desired
  killSwitchArmed : Bool

/-- The bypass rule of a family. -/
def bypassOp (mark : UInt32) (family : Family) : NetOp :=
  .addRule ⟨kernelMain, bypassRulePriority, some mark, family, .toTable⟩

/-- The tunnel rule and the default route of a family. -/
def tunnelOps (main tunOif : UInt32) (family : Family) (dest : DestPrefix) : List NetOp :=
  [.addRule ⟨main, fullTunnelRulePriority, none, family, .toTable⟩, .addRoute ⟨main, dest, tunOif⟩]

/-- The rule that blocks IPv6 where no kill switch does. -/
def blackholeOp : NetOp := .addRule ⟨0, fullTunnelRulePriority + 1, none, .v6, .blackhole⟩

/-- The desired operations: the bypass rules, then each family's tunnel. -/
def desiredOps (state : DesiredRoutes) : List NetOp :=
  let main := (state.plan.assignment .main).id
  (if state.bypassMark ≠ 0 then [bypassOp state.bypassMark .v4, bypassOp state.bypassMark .v6]
   else []) ++
    tunnelOps main state.tunOif .v4 .v4Default ++
    (if state.ipv6 = .tunnelled then tunnelOps main state.tunOif .v6 .v6Default
    else if !state.killSwitchArmed then [blackholeOp]
    else [])

/-- The desired operations whose state is not present. -/
def repairOps (desired present : List NetOp) : List NetOp := desired.filter fun op => op ∉ present

theorem desiredOps_admitted (state : DesiredRoutes) :
    ∀ op ∈ desiredOps state, op.isAdd = true ∧ state.plan.admits op = true := by
  have howns := state.plan.owns_assignment .main
  have htunnel : ∀ family dest, ∀ op ∈ tunnelOps
    (state.plan.assignment .main).id state.tunOif family dest,
      op.isAdd = true ∧ state.plan.admits op = true := by
    intro family dest op hop
    rcases List.mem_pair.mp hop with rfl | rfl <;>
      exact ⟨rfl, (Bool.or_eq_true _ _).mpr (Or.inr howns)⟩
  intro op hop
  rcases List.mem_append.mp hop with hop | hop
  · rcases List.mem_append.mp hop with hop | hop
    · split_ifs at hop
      · rcases List.mem_pair.mp hop with rfl | rfl <;> exact ⟨rfl, rfl⟩
      · cases hop
    · exact htunnel _ _ op hop
  · split_ifs at hop
    · exact htunnel _ _ op hop
    · rw [List.mem_singleton.mp hop]
      exact ⟨rfl, rfl⟩
    · cases hop

/-! ## The session -/

/-- What is wrong, by phase. -/
inductive SessionError where
  | killSwitch (error : KillSwitchError)
  | routes (failure : ApplyFailure)
  | netlink (error : String)
  | dns (error : DnsError)
  | plan (error : String)
  deriving DecidableEq

/-- The inputs of a connect. -/
structure ConnectInputs where
  tunIfindex : UInt32
  tunIfname : String
  uplinkIfname : String
  bypassMark : UInt32
  ipv6 : Ipv6Desired
  dns : DnsConfig
  generation : GenerationId
  priorGeneration : Option GenerationId
  persistedTables : Option PersistedTables

/-- What a disconnect needs to undo. -/
structure SessionState where
  plan : TablePlan
  installedOps : List NetOp
  dnsEvidence : Option ResolvConfEvidence
  dnsBackend : DnsBackend
  generation : GenerationId

/-- The host. -/
structure Host (σ : Type*) where
  routing : σ
  nft : Nft
  resolver : Resolver

/-- What the environment answers during a connect: while the kill switch arms, while it is removed
again, and in the resolver phase. -/
structure ConnectEnv where
  arm : NetfilterEnv
  disarm : NetfilterEnv
  dns : DnsEnv

/-- What it answers during a disconnect. -/
structure DisconnectEnv where
  dns : DnsEnv
  remove : NetfilterEnv

section
variable {σ : Type*} (E : NetlinkExecutor σ)

/-- Survey the host and decide the plan. -/
def planWith (rtTablesText : String) (persisted : Option PersistedTables) (x : σ) :
    Except String (Option TablePlan) × σ :=
  match E.survey rtTablesText x with
  | (.error error, x) => (.error error, x)
  | (.ok survey, x) => (.ok (planTables { survey with persisted := persisted }), x)

/-- The operations a connect commits. -/
def sessionOps (plan : TablePlan) (inputs : ConnectInputs) : List NetOp :=
  desiredOps ⟨plan, inputs.tunIfindex, inputs.bypassMark, inputs.ipv6, true⟩

/-- The route and resolver phases of a connect. -/
def commitRoutes (plan : TablePlan) (inputs : ConnectInputs) (env : ConnectEnv) (host : Host σ) :
    Except SessionError SessionState × Host σ :=
  match (RouteTransaction.new plan).extend (sessionOps plan inputs) with
  | .error error => (.error (.plan error.message), host)
  | .ok txn =>
    match txn.apply E host.routing with
    | (.error failure, x) =>
      -- the switch that was armed goes, whichever generation it replaced
      (.error (.routes failure),
        { host with
          routing := x
          nft := (KillSwitch.remove env.disarm (some inputs.generation) host.nft).2 })
    | (.ok installed, x) =>
      match Dns.applyDns env.dns inputs.tunIfname inputs.dns host.resolver with
      | (.error error, resolver) => (.error (.dns error),
        { host with routing := x, resolver := resolver })
      | (.ok evidence, resolver) =>
        (.ok ⟨plan, installed, evidence, Dns.detectBackend host.resolver, inputs.generation⟩,
          { host with routing := x, resolver := resolver })

/-- The phases of a connect after its plan. -/
def connectWith (plan : TablePlan) (inputs : ConnectInputs) (extras : KillSwitchPolicy)
    (env : ConnectEnv) (host : Host σ) : Except SessionError SessionState × Host σ :=
  match KillSwitch.apply env.arm inputs.tunIfname inputs.uplinkIfname
      { extras with tunIfindex := inputs.tunIfindex } inputs.generation inputs.priorGeneration
      host.nft with
  | (.error error, nft) => (.error (.killSwitch error), { host with nft := nft })
  | (.ok (), nft) => commitRoutes E plan inputs env { host with nft := nft }

/-- The connect sequence. -/
def connect (rtTablesText : String) (inputs : ConnectInputs) (extras : KillSwitchPolicy)
    (env : ConnectEnv) (host : Host σ) : Option (Except SessionError SessionState × Host σ) :=
  match planWith E rtTablesText inputs.persistedTables host.routing with
  | (.error error, x) => some (.error (.plan error), { host with routing := x })
  | (.ok none, _) => none
  | (.ok (some plan), x) => some (connectWith E plan inputs extras env { host with routing := x })

/-- The disconnect sequence. -/
def disconnect (state : SessionState) (tunIfname : String) (permanentKillSwitch : Bool)
    (priorGeneration : Option GenerationId) (env : DisconnectEnv) (host : Host σ) :
    Except SessionError Unit × Host σ :=
  -- best effort: the revert may refuse
  let resolver :=
    (Dns.revertDns env.dns tunIfname state.dnsEvidence state.dnsBackend host.resolver).2
  match E.cleanupOps state.installedOps host.routing with
  | (.error error, x) => (.error (.netlink error), { host with routing := x, resolver := resolver })
  | (.ok cleanup, x) =>
    match (RouteTransaction.new state.plan).extend cleanup with
    | .error error => (.error (.plan error.message),
      { host with routing := x, resolver := resolver })
    | .ok txn =>
      match txn.apply E x with
      | (.error failure, x) => (.error (.routes failure),
        { host with routing := x, resolver := resolver })
      | (.ok _, x) =>
        if permanentKillSwitch then (.ok (), { host with routing := x, resolver := resolver })
        else
          match KillSwitch.remove env.remove priorGeneration host.nft with
          | (.error error, nft) => (.error (.killSwitch error), ⟨x, nft, resolver⟩)
          | (.ok (), nft) => (.ok (), ⟨x, nft, resolver⟩)

/-! ## What a connect can do -/

variable {E} {plan : TablePlan} {inputs : ConnectInputs} {extras : KillSwitchPolicy}
    {env : ConnectEnv}
  {host host' : Host σ} {result : Except SessionError SessionState}

/-- The batch of a connect is always admitted: what is left is how it applies. -/
theorem commitRoutes_cases (hres : commitRoutes E plan inputs env host = (result, host')) :
    ∃ txn : RouteTransaction, txn.ops = sessionOps plan inputs ∧
      ((∃ failure x, txn.apply E host.routing = (.error failure, x) ∧
        result = .error (.routes failure) ∧
          host' = { host with
                    routing := x
                    nft := (KillSwitch.remove env.disarm (some inputs.generation) host.nft).2 }) ∨
        ∃ installed x dns resolver, txn.apply E host.routing = (.ok installed, x) ∧
          Dns.applyDns env.dns inputs.tunIfname inputs.dns host.resolver = (dns, resolver) ∧
          host' = { host with routing := x, resolver := resolver } ∧
          ((∃ error, dns = .error error ∧ result = .error (.dns error)) ∨
            ∃ evidence, dns = .ok evidence ∧
              result = .ok ⟨plan, installed, evidence, Dns.detectBackend host.resolver,
                inputs.generation⟩)) := by
  obtain ⟨txn, hext, -, htxn⟩ := (RouteTransaction.new plan).extend_eq_ok (sessionOps plan inputs)
    fun op hop =>
    (desiredOps_admitted _ op hop).2
  refine ⟨txn, htxn, ?_⟩
  rw [commitRoutes, hext] at hres
  dsimp only at hres
  rcases happly : txn.apply E host.routing with ⟨failure | installed, x⟩ <;> rw [happly] at hres <;>
    dsimp only at hres
  · cases hres
    exact Or.inl ⟨failure, x, rfl, rfl, rfl⟩
  · refine Or.inr ⟨installed, x, ?_⟩
    rcases hdns : Dns.applyDns env.dns inputs.tunIfname inputs.dns host.resolver with
      ⟨error | evidence, resolver⟩ <;>
      rw [hdns] at hres <;> cases hres
    · exact ⟨_, resolver, rfl, rfl, rfl, Or.inl ⟨error, rfl, rfl⟩⟩
    · exact ⟨_, resolver, rfl, rfl, rfl, Or.inr ⟨evidence, rfl, rfl⟩⟩

/-- The tables a connect's batch leaves, from the environment its kill switch arms in. -/
def prepared (inputs : ConnectInputs) (extras : KillSwitchPolicy) (env : ConnectEnv) (nft : Nft) :
    Except KillSwitchError Nft :=
  KillSwitch.prepare env.arm inputs.tunIfname { extras with tunIfindex := inputs.tunIfindex }
    inputs.generation
    inputs.priorGeneration nft

theorem connectWith_cases (hres : connectWith E plan inputs extras env host = (result, host')) :
    (∃ error, result = .error (.killSwitch error) ∧ host' = host ∧
        ¬ (env.arm.fails .send = none ∧ ∃ nft', prepared inputs extras env host.nft = .ok nft')) ∨
      ∃ nft', prepared inputs extras env host.nft = .ok nft' ∧ env.arm.fails .send = none ∧
        ((∃ error, KillSwitch.verify env.arm inputs.uplinkIfname
          { extras with tunIfindex := inputs.tunIfindex }
              inputs.generation nft' = .error error ∧
            result = .error (.killSwitch error) ∧ host' = { host with nft := nft' }) ∨
          KillSwitch.verify env.arm inputs.uplinkIfname
            { extras with tunIfindex := inputs.tunIfindex }
              inputs.generation nft' = .ok () ∧
            commitRoutes E plan inputs env { host with nft := nft' } = (result, host')) := by
  unfold connectWith at hres
  rcases KillSwitch.apply_cases env.arm inputs.tunIfname inputs.uplinkIfname
      { extras with tunIfindex := inputs.tunIfindex } inputs.generation inputs.priorGeneration
      host.nft with
    ⟨error, happly, hunsent⟩ | ⟨nft', hprepare, hsend, happly⟩
  · rw [happly] at hres
    cases hres
    exact Or.inl ⟨error, rfl, rfl, hunsent⟩
  · rw [happly] at hres
    refine Or.inr ⟨nft', hprepare, hsend, ?_⟩
    cases hverify : KillSwitch.verify env.arm inputs.uplinkIfname
      { extras with tunIfindex := inputs.tunIfindex }
        inputs.generation nft' with
    | error error =>
      rw [hverify] at hres
      cases hres
      exact Or.inl ⟨error, rfl, rfl, rfl⟩
    | ok =>
      rw [hverify] at hres
      exact Or.inr ⟨rfl, hres⟩

theorem connect_cases {text : String} (hres : connect E text inputs extras env host =
    some (result, host')) :
    (∃ error x, planWith E text inputs.persistedTables host.routing = (.error error, x) ∧
        result = .error (.plan error) ∧ host' = { host with routing := x }) ∨
      ∃ plan x, planWith E text inputs.persistedTables host.routing = (.ok (some plan), x) ∧
        connectWith E plan inputs extras env { host with routing := x } = (result, host') := by
  unfold connect at hres
  rcases hplan : planWith E text inputs.persistedTables host.routing with
    ⟨error | plan | plan, x⟩ <;>
    rw [hplan] at hres <;> dsimp only at hres
  · cases hres
    exact Or.inl ⟨error, x, rfl, rfl, rfl⟩
  · cases hres
  · exact Or.inr ⟨plan, x, rfl, Option.some.inj hres⟩

end

end ProtonWire
