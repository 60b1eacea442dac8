import ProtonWire.Net.AcceptSet
import ProtonWire.Net.Teardown

/-!
# The enforcement probe

What becomes of the probe packet in the chain that `apply` installs, for its two callers: a connect
probes out of the uplink, the early firewall out of the loopback interface.

* `ApplyCaller`, `Packet.IsProbe`: the callers, and the packet they send;
* `openRules`: the rules before the probe counter;
* **`probe_tells_truth_iff`**: the probe is counted and dropped, and `apply` reports it, unless the
  probed interface is open or a LAN permit covers the probe's destination.
-/

namespace ProtonWire

open Ruleset

/-! ## The callers -/

/-- The callers of `apply`. -/
inductive ApplyCaller where
  | connect (inputs : ConnectInputs) (extras : KillSwitchPolicy)
  | earlyFirewall (subsecNanos : Option UInt32) (generation : GenerationId)

namespace ApplyCaller

def tunIfname : ApplyCaller → String
  | connect inputs _ => inputs.tunIfname
  | earlyFirewall _ _ => "lo"

/-- The interface that is probed. -/
def uplinkIfname : ApplyCaller → String
  | connect inputs _ => inputs.uplinkIfname
  | earlyFirewall _ _ => "lo"

def policy : ApplyCaller → KillSwitchPolicy
  | connect inputs extras => { extras with tunIfindex := inputs.tunIfindex }
  | earlyFirewall subsecNanos _ => earlyPolicy subsecNanos

def generation : ApplyCaller → GenerationId
  | connect inputs _ => inputs.generation
  | earlyFirewall _ generation => generation

def priorGeneration : ApplyCaller → Option GenerationId
  | connect inputs _ => inputs.priorGeneration
  | earlyFirewall _ _ => none

/-- The caller's `apply`. -/
def apply (caller : ApplyCaller) (env : NetfilterEnv) (nft : Nft) :
    Except KillSwitchError Unit × Nft :=
  KillSwitch.apply env caller.tunIfname caller.uplinkIfname caller.policy caller.generation
    caller.priorGeneration nft

/-- What it does before its batch is sent. -/
def prepare (caller : ApplyCaller) (env : NetfilterEnv) (nft : Nft) : Except KillSwitchError Nft :=
  KillSwitch.prepare env caller.tunIfname caller.policy caller.generation caller.priorGeneration nft

theorem apply_earlyFirewall {env : NetfilterEnv} {subsecNanos : Option UInt32}
    {generation : GenerationId} {nft : Nft} :
    (earlyFirewall subsecNanos generation).apply env nft =
    applyEarlyFirewall env subsecNanos generation nft := rfl

/-- A connect's kill switch phase is the caller's `apply`. -/
theorem connectWith_eq {σ : Type*} (E : NetlinkExecutor σ) (plan : TablePlan)
    (inputs : ConnectInputs)
    (extras : KillSwitchPolicy) (env : ConnectEnv) (host : Host σ) {nft : Nft}
    (h : (connect inputs extras).apply env.arm host.nft = (.ok (), nft)) :
    connectWith E plan inputs extras env host = commitRoutes E plan inputs env
      { host with nft := nft } := by
  change KillSwitch.apply env.arm inputs.tunIfname inputs.uplinkIfname
    { extras with tunIfindex := inputs.tunIfindex }
    inputs.generation inputs.priorGeneration host.nft = (.ok (), nft) at h
  rw [connectWith, h]

end ApplyCaller

/-! ## The probe -/

/-- The probe: IPv4 UDP to port 9 of 192.0.2.1, unmarked, out of an interface. -/
structure Packet.IsProbe (p : Packet) (oif : UInt32) : Prop where
  oif : p.oif = oif
  mark : p.mark = 0
  family : p.family = .v4
  protocol : p.protocol = 17
  destination : p.destination = probeDestination
  port : p.destinationPort = [0, 9]

/-- The probe rule of a chain counts a packet. -/
def Counted (rules : List (Rule Field)) (p : Packet) : Prop :=
  ∃ i ∈ countedAt loadField p 0 rules, rules[i]? = some probeRule

/-- The probe dies in a chain: no rule accepts it, the probe rule counts it, and the last rule drops
it. -/
def ProbeDies (rules : List (Rule Field)) (p : Packet) : Prop :=
  (∀ rule ∈ rules, evalRule loadField p [] rule ≠ some .accept) ∧ Counted rules p ∧
    decideAt loadField p 0 rules = some (rules.length - 1, .drop)

/-- The counter the probe reads counts what its rule counts; it may count other packets too. -/
def NetfilterEnv.CountsProbe (env : NetfilterEnv) (rules : List (Rule Field)) (p : Packet) : Prop :=
  Counted rules p → env.counted false < env.counted true

namespace ApplyCaller

/-- The chain a caller installs, by the index of its TUN. -/
def rules (caller : ApplyCaller) (lo tun : UInt32) : List (Rule Field) :=
  renderRules lo { caller.policy with tunIfindex := tun }

/-- The probe dies in the caller's chain, and `apply` succeeds once every exchange does. -/
def TellsTruth (caller : ApplyCaller) (env : NetfilterEnv) (lo tun uplink : UInt32) : Prop :=
  (∀ p : Packet, p.IsProbe uplink → ProbeDies (caller.rules lo tun) p) ∧
    ∀ p : Packet, p.IsProbe uplink → env.CountsProbe (caller.rules lo tun) p →
      (∀ call, env.fails call = none) →
      ∀ nft nft', caller.prepare env nft = .ok nft' → caller.apply env nft = (.ok (), nft')

/-- The interface the caller probes is neither the TUN nor the loopback interface, and no LAN permit
on it covers the probe's destination. -/
def ProbesClosed (env : NetfilterEnv) : ApplyCaller → Prop
  | connect inputs extras =>
    env.ifaceIndex inputs.uplinkIfname ≠ env.ifaceIndex inputs.tunIfname ∧
      env.ifaceIndex inputs.uplinkIfname ≠ env.ifaceIndex "lo" ∧
      ∀ permit ∈ extras.lanPermits, env.ifaceIndex inputs.uplinkIfname = .ok permit.oif →
        ¬ (permit.dest.addr.family = .v4 ∧ permit.dest.contains probeDestination)
  | earlyFirewall _ _ => False

end ApplyCaller

/-! ## The chain -/

/-- The rules before the probe counter. -/
def openRules (lo : UInt32) (policy : KillSwitchPolicy) : List (Rule Field) :=
  [allowOif policy.tunIfindex, allowOif lo] ++ (if policy.allowDhcpV4 then [dhcpRule] else []) ++
    policy.lanPermits.map renderLanPermit ++ [bypassRule policy.bypassMark]

variable {lo : UInt32} {policy : KillSwitchPolicy} {p : Packet} {uplink : UInt32}

theorem permitRules_eq : permitRules lo policy = openRules lo policy ++ [probeRule] := by
  rw [permitRules, openRules, List.append_assoc _ _ [probeRule]]
  rfl

theorem renderRules_eq_openRules :
    renderRules lo policy = openRules lo policy ++ probeRule :: [terminalRule] := by
  rw [renderRules_eq, permitRules_eq, List.append_assoc]
  rfl

theorem countsRule_guard {field : Field} {loaded : List UInt8}
    (hload : loadField field p = some loaded) (register bytes : List UInt8) (rule : Rule Field) :
    countsRule loadField p register (.load field :: .compare bytes :: rule) =
      if loaded.take bytes.length = bytes then countsRule loadField p loaded rule else false := by
  rw [countsRule, hload]
  rfl

theorem countsRule_probeRule (h : p.IsProbe uplink) :
    countsRule loadField p [] probeRule = true := by
  have hdaddr : loadField (IpAddr.v4 #v[192, 0, 2, 1]).daddr p = some p.destination :=
    (loadField_daddr h.family).1
  rw [h.destination] at hdaddr
  have hfamily : loadField .nfProto p = some [p.family.nfProto] := rfl
  rw [probeRule, countsRule_guard hfamily, h.family, if_pos (by decide)]
  rw [countsRule_guard (show loadField .ipv4Daddr p = some probeDestination from hdaddr),
    if_pos (by decide)]
  rfl

theorem getElem?_openRules_ne {i : ℕ} (h : i < (openRules lo policy).length) :
    (renderRules lo policy)[i]? ≠ some probeRule := by
  rw [renderRules_eq_openRules, List.getElem?_append_left h]
  intro hget
  have hmem := List.mem_of_getElem? hget
  have hverdict : ∀ rule ∈ openRules lo policy, KillSwitch.isProbeRule rule = false := by
    intro rule hrule
    simp only [openRules, List.mem_append, List.mem_cons, List.not_mem_nil, or_false,
      List.mem_map] at hrule
    rcases hrule with ((hoif | hdhcp) | ⟨permit, -, rfl⟩) | rfl
    · rcases hoif with rfl | rfl <;> rfl
    · split_ifs at hdhcp
      · rw [List.mem_singleton.mp hdhcp]
        decide
      · cases hdhcp
    · rw [renderLanPermit_eq]
      rfl
    · rfl
  have hprobe : KillSwitch.isProbeRule probeRule = true := by decide
  rw [hverdict probeRule hmem] at hprobe
  cases hprobe

theorem accepts_probe_iff (h : p.IsProbe uplink) (hmark : policy.bypassMark ≠ 0) :
    (∃ rule ∈ permitRules lo policy, evalRule loadField p [] rule = some .accept) ↔
      uplink = policy.tunIfindex ∨ uplink = lo ∨ ∃ permit ∈ policy.lanPermits, uplink = permit.oif ∧
        permit.dest.addr.family = .v4 ∧ permit.dest.contains probeDestination := by
  have hport : ¬ p.toPort67 := fun hport => by
    have hbytes := hport.2
    rw [h.port] at hbytes
    cases hbytes
  have hpermit : ∀ permit : LanPermit, permit.permits p ↔
      uplink = permit.oif ∧ permit.dest.addr.family = .v4 ∧ permit.dest.contains probeDestination :=
      fun permit => by
    rw [LanPermit.permits, h.oif, h.family, h.destination, eq_comm (a := Family.v4)]
  rw [exists_accepts_iff, Permitted, h.oif, h.mark]
  simp only [hpermit]
  constructor
  · rintro ((htun | hlo | ⟨-, hdhcp, -⟩ | hlan | hzero) | ⟨-, hdhcp⟩)
    · exact Or.inl htun
    · exact Or.inr (Or.inl hlo)
    · exact absurd hdhcp hport
    · exact Or.inr (Or.inr hlan)
    · exact absurd hzero.symm hmark
    · exact absurd hdhcp hport
  · rintro (htun | hlo | hlan)
    · exact Or.inl (Or.inl htun)
    · exact Or.inl (Or.inr (Or.inl hlo))
    · exact Or.inl (Or.inr (Or.inr (Or.inr (Or.inl hlan))))

/-- **The probe dies unless a rule takes it.** -/
theorem probeDies_iff (h : p.IsProbe uplink) : ProbeDies (renderRules lo policy) p ↔
    ¬ ∃ rule ∈ permitRules lo policy, evalRule loadField p [] rule = some .accept := by
  constructor
  · rintro ⟨hnone, -, -⟩ ⟨rule, hmem, haccepts⟩
    exact hnone rule (by rw [renderRules_eq]; exact List.mem_append_left _ hmem) haccepts
  · intro hno
    have hpermits : ∀ rule ∈ permitRules lo policy, evalRule loadField p [] rule ≠ some .drop :=
      evalRule_ne_drop
    obtain ⟨-, hdrop⟩ := decideAt_permits hpermits evalRule_terminalRule
    have hopen : ∀ rule ∈ openRules lo policy, evalRule loadField p [] rule = none := by
      intro rule hmem
      have hmem : rule ∈ permitRules lo policy := by
        rw [permitRules_eq]; exact List.mem_append_left _ hmem
      cases heval : evalRule loadField p [] rule with
      | none => rfl
      | some verdict =>
        cases verdict with
        | accept => exact absurd ⟨rule, hmem, heval⟩ hno
        | drop => exact absurd heval (hpermits rule hmem)
    refine ⟨fun rule hmem haccepts => ?_, ⟨(openRules lo policy).length, ?_, ?_⟩, ?_⟩
    · rw [renderRules_eq, List.mem_append, List.mem_singleton] at hmem
      rcases hmem with hmem | rfl
      · exact hno ⟨rule, hmem, haccepts⟩
      · cases haccepts
    · rw [renderRules_eq_openRules, ← Nat.zero_add (openRules lo policy).length]
      exact (mem_countedAt_of_none hopen 0 probeRule [terminalRule]).mpr (countsRule_probeRule h)
    · rw [renderRules_eq_openRules]
      simp
    · rw [renderRules_eq, hdrop hno, List.length_append]
      rfl

theorem not_counted_of_accepts (h : ∃ rule ∈ permitRules lo policy, evalRule loadField p [] rule =
    some .accept) :
    ¬ Counted (renderRules lo policy) p := by
  obtain ⟨rule, hmem, haccepts⟩ := h
  have hopen : ∃ rule ∈ openRules lo policy, evalRule loadField p [] rule ≠ none := by
    rw [permitRules_eq, List.mem_append, List.mem_singleton] at hmem
    rcases hmem with hmem | rfl
    · exact ⟨rule, hmem, by rw [haccepts]; exact Option.some_ne_none _⟩
    · rw [evalRule_probeRule] at haccepts
      cases haccepts
  rintro ⟨i, hcounted, hprobe⟩
  rw [renderRules_eq_openRules] at hcounted
  have hlt := lt_of_mem_countedAt hopen hcounted
  rw [Nat.zero_add] at hlt
  exact getElem?_openRules_ne hlt hprobe

/-- A probe out of an interface. -/
def probePacket (oif : UInt32) : Packet where
  oif := oif
  mark := 0
  family := .v4
  network := [0x45, 0, 0, 48, 0, 0, 0x40, 0, 64, 17, 0, 0, 10, 0, 0, 2, 192, 0, 2, 1]
  transport := [0xC0, 0, 0, 9, 0, 28, 0, 0] ++ "pw-enforcement-probe".toUTF8.toList
  header := by decide

theorem probePacket_isProbe (oif : UInt32) : (probePacket oif).IsProbe oif :=
  ⟨rfl, rfl, rfl, rfl, rfl, rfl⟩

/-! ## The calls -/

namespace ApplyCaller

variable {caller : ApplyCaller} {env : NetfilterEnv} {nft nft' : Nft} {tun : UInt32}

theorem apply_eq_ok_iff (hprepare : caller.prepare env nft = .ok nft')
    (hfails : ∀ call, env.fails call = none) :
    caller.apply env nft = (.ok (), nft') ↔ env.counted false < env.counted true := by
  obtain ⟨lo, tun, -, -, -, hlive⟩ := KillSwitch.prepare_spec hprepare
  have hverify : KillSwitch.verify env caller.uplinkIfname caller.policy caller.generation
    nft' = .ok () ↔
      env.Proves caller.uplinkIfname := KillSwitch.verify_eq_ok_iff hlive rfl
  have happly : caller.apply env nft =
      (KillSwitch.verify env caller.uplinkIfname caller.policy caller.generation nft', nft') := by
    have hprepared : KillSwitch.prepare env caller.tunIfname caller.policy caller.generation
      caller.priorGeneration
        nft = .ok nft' := hprepare
    rw [apply, KillSwitch.apply, hprepared]
    dsimp only
    rw [hfails]
  rw [happly, Prod.mk.injEq, and_iff_left rfl, hverify]
  exact ⟨fun hproves => hproves.2, fun hcounted => ⟨fun call _ => hfails call, hcounted⟩⟩

theorem bypassMark_ne_zero (haccepted : KillSwitch.checkPolicy policy = .ok ()) :
    policy.bypassMark ≠ 0 := by
  intro hzero
  rw [KillSwitch.checkPolicy, if_pos hzero] at haccepted
  cases haccepted

theorem probesClosed_iff (hlo : env.ifaceIndex "lo" = .ok lo)
    (htun : env.ifaceIndex caller.tunIfname = .ok tun)
    (huplink : env.ifaceIndex caller.uplinkIfname = .ok uplink) :
    caller.ProbesClosed env ↔ ¬ (uplink = tun ∨ uplink = lo ∨ ∃ permit ∈ caller.policy.lanPermits,
      uplink = permit.oif ∧ permit.dest.addr.family = .v4 ∧
      permit.dest.contains probeDestination) := by
  cases caller with
  | connect inputs extras =>
    have htun : env.ifaceIndex inputs.tunIfname = .ok tun := htun
    have huplink : env.ifaceIndex inputs.uplinkIfname = .ok uplink := huplink
    simp only [ProbesClosed, hlo, htun, huplink, ne_eq, Except.ok.injEq, policy, not_or, not_exists,
      not_and]
  | earlyFirewall subsecNanos generation =>
    -- the loopback interface is what it probes
    have hsame : uplink = lo := Except.ok.inj (huplink.symm.trans hlo)
    exact ⟨fun h => h.elim, fun h => h (Or.inr (Or.inl hsame))⟩

theorem dies_iff (hlo : env.ifaceIndex "lo" = .ok lo)
    (htun : env.ifaceIndex caller.tunIfname = .ok tun)
    (huplink : env.ifaceIndex caller.uplinkIfname = .ok uplink)
    (haccepted : KillSwitch.checkPolicy caller.policy = .ok ()) (h : p.IsProbe uplink) :
    ProbeDies (caller.rules lo tun) p ↔ caller.ProbesClosed env := by
  have haccepts : (∃ rule ∈ permitRules lo { caller.policy with tunIfindex := tun },
      evalRule loadField p [] rule = some .accept) ↔
      _ := accepts_probe_iff h (bypassMark_ne_zero haccepted)
  rw [rules, probeDies_iff h, haccepts, probesClosed_iff hlo htun huplink]

/-- Where nothing but the probe moves the counter, `apply` reports an open interface, with its table
in. -/
theorem apply_reports_iff (hlo : env.ifaceIndex "lo" = .ok lo)
    (htun : env.ifaceIndex caller.tunIfname = .ok tun)
    (huplink : env.ifaceIndex caller.uplinkIfname = .ok uplink)
    (haccepted : KillSwitch.checkPolicy caller.policy = .ok ()) (h : p.IsProbe uplink)
    (hcounter : env.counted false < env.counted true ↔ Counted (caller.rules lo tun) p)
    (hprepare : caller.prepare env nft = .ok nft') (hfails : ∀ call, env.fails call = none) :
    caller.apply env nft = (.ok (), nft') ↔ caller.ProbesClosed env := by
  rw [apply_eq_ok_iff hprepare hfails, hcounter, ← dies_iff hlo htun huplink haccepted h]
  refine ⟨fun hcounted => ?_, fun hdies => hdies.2.1⟩
  by_contra hnot
  rw [rules, probeDies_iff h, not_not] at hnot
  exact not_counted_of_accepts hnot hcounted

end ApplyCaller

/-- **The probe tells the truth exactly where it leaves a closed interface**: for a policy that is
accepted, it dies at the terminal drop, counted, and `apply` succeeds once every exchange does, if
and only if the probed interface is neither the TUN nor the loopback interface and no LAN permit on
it covers 192.0.2.1. The early firewall's never does. -/
theorem probe_tells_truth_iff (caller : ApplyCaller) (env : NetfilterEnv) {lo tun uplink : UInt32}
    (hlo : env.ifaceIndex "lo" = .ok lo) (htun : env.ifaceIndex caller.tunIfname = .ok tun)
    (huplink : env.ifaceIndex caller.uplinkIfname = .ok uplink)
    (haccepted : KillSwitch.checkPolicy caller.policy = .ok ()) :
    caller.TellsTruth env lo tun uplink ↔ caller.ProbesClosed env := by
  constructor
  · rintro ⟨hall, -⟩
    have hprobe := probePacket_isProbe uplink
    exact (ApplyCaller.dies_iff hlo htun huplink haccepted hprobe).mp (hall _ hprobe)
  · intro hclosed
    have hdies : ∀ p : Packet, p.IsProbe uplink → ProbeDies (caller.rules lo tun) p := fun p hp =>
      (ApplyCaller.dies_iff hlo htun huplink haccepted hp).mpr hclosed
    refine ⟨hdies, fun p hp hcounts hfails nft nft' hprepare => ?_⟩
    exact (ApplyCaller.apply_eq_ok_iff hprepare hfails).mpr (hcounts (hdies p hp).2.1)

/-- A LAN permit of the uplink. -/
def lanExtras : KillSwitchPolicy := ⟨0, true, [⟨⟨.v4 #v[192, 168, 1, 0], 24⟩, 2⟩], 0x21⟩

theorem probe_tells_truth_iff_lan :
    (ApplyCaller.connect firstConnect lanExtras).ProbesClosed quietNetfilter ∧
      (ApplyCaller.connect firstConnect lanExtras).TellsTruth quietNetfilter 1 5 2 := by
  have hclosed : (ApplyCaller.connect firstConnect lanExtras).ProbesClosed quietNetfilter := by
    refine ⟨fun h => absurd (Except.ok.inj h) (by decide), fun h => absurd (Except.ok.inj h)
      (by decide), ?_⟩
    intro permit hmem _
    rw [List.mem_singleton.mp hmem]
    decide
  exact ⟨hclosed,
    (probe_tells_truth_iff (.connect firstConnect lanExtras) quietNetfilter rfl rfl rfl rfl).mpr
    hclosed⟩

/-- A host whose probe counter stays at zero. -/
def stillNetfilter : NetfilterEnv := { quietNetfilter with counted := fun _ => 0 }

/-- **The early firewall's probe leaves by the loopback permit**: its table is in, and `apply`
fails. -/
theorem early_probe_accepted :
    KillSwitch.checkPolicy (earlyPolicy none) = .ok () ∧
      decideAt loadField (probePacket 1) 0 ((ApplyCaller.earlyFirewall none ⟨1⟩).rules 1 1) =
      some (0, .accept) ∧
      countedAt loadField (probePacket 1) 0 ((ApplyCaller.earlyFirewall none ⟨1⟩).rules 1 1) = [] ∧
      applyEarlyFirewall stillNetfilter none ⟨1⟩ [] = (.error (.validation
        ("the enforcement probe egressed the uplink and was NOT dropped — " ++
         "the kill switch is not enforced")),
        [ownTable ⟨1⟩ ((ApplyCaller.earlyFirewall none ⟨1⟩).rules 1 1)]) ∧
      ¬ (ApplyCaller.earlyFirewall none ⟨1⟩).TellsTruth stillNetfilter 1 1 1 := by
  refine ⟨rfl, by decide, by decide, rfl, fun htruth => ?_⟩
  have hmem : allowOif 1 ∈ (ApplyCaller.earlyFirewall none ⟨1⟩).rules 1 1 := List.mem_cons_self
  exact (htruth.1 _ (probePacket_isProbe 1)).1 _ hmem (by decide)

end ProtonWire
