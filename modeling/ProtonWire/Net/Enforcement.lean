import ProtonWire.Lib.Fallible
import ProtonWire.Net.KillSwitch

/-!
# What the kill switch's calls leave

The tables under our name after `apply` and `remove`, and what the verification of a table that is
in can still fail on.

* `live`, `Dropping`: the tables that carry our name, and that one of them drops;
* `prepare_spec`, **`apply_dropping`**: an apply leaves the rendered table or changes nothing;
* `remove_own`: removing the generation that is in;
* **`verify_eq_ok_iff`**: once the batch is in, only an exchange or the probe's counter fails.
-/

namespace ProtonWire

open Ruleset (Rule)

namespace NetfilterEnv

variable {env : NetfilterEnv}

theorem exchange_eq_ok {call : NftCall} {context : String} :
    env.exchange call context = .ok () ↔ env.fails call = none := by
  unfold exchange
  cases env.fails call <;> simp

/-- The exchanges of a removal go through. -/
def Removes (env : NetfilterEnv) : Prop :=
  env.fails .tables = none ∧ env.fails .markers = none ∧ env.fails .send = none

/-- The exchanges of the verification. -/
def verifyCalls (uplinkIfname : String) : List NftCall :=
  [.validateTables, .validateMarkers, .validateChains, .validateRules, .probeTables false,
   .probeChains false, .probeRules false, .bind, .bindToDevice uplinkIfname, .probeTables true,
   .probeChains true, .probeRules true]

/-- The exchanges of the verification go through, and the probe is counted. -/
def Proves (env : NetfilterEnv) (uplinkIfname : String) : Prop :=
  (∀ call ∈ verifyCalls uplinkIfname, env.fails call = none) ∧ env.counted false < env.counted true

end NetfilterEnv

/-- The tables that carry our name. -/
def live (nft : Nft) : Nft := nft.filter fun table => table.name = tableName

/-- A table of ours whose output chain drops what its rules do not accept. -/
def Dropping (nft : Nft) : Prop :=
  ∃ table ∈ live nft, ∃ chain ∈ table.chains, chain.name = outputChain ∧ chain.hook = some .out ∧
    chain.policy = .drop

namespace KillSwitch

open Fallible

variable {env : NetfilterEnv} {nft nft' : Nft} {generation : GenerationId}
    {prior : Option GenerationId}
  {policy : KillSwitchPolicy} {tunIfname uplinkIfname : String}

theorem live_append_ownTable (rules : List (Rule Field)) (hnone : live nft = []) :
    live (nft ++ [ownTable generation rules]) = [ownTable generation rules] := by
  rw [live, List.filter_append]
  exact congrArg (· ++ [ownTable generation rules]) hnone

theorem live_erase {table : Table} (h : live nft = [table]) : live (nft.erase table) = [] := by
  rw [live, ← List.erase_filter, ← live, h, List.erase_cons_head]

theorem dropping_of_live {rules : List (Rule Field)} (h : live nft = [ownTable generation rules]) :
    Dropping nft := by
  refine ⟨ownTable generation rules, by rw [h]; exact List.mem_singleton_self _, ?_⟩
  exact ⟨_, List.mem_cons_of_mem _ List.mem_cons_self, rfl, rfl, rfl⟩

theorem tablesNamedUs_eq_ok {call : NftCall} {named : List Table} :
    tablesNamedUs env call nft = .ok named ↔ env.fails call = none ∧ live nft = named := by
  unfold tablesNamedUs
  rw [bind_eq_ok]
  constructor
  · rintro ⟨⟨⟩, hcall, hnamed⟩
    exact ⟨NetfilterEnv.exchange_eq_ok.mp hcall, Except.ok.inj hnamed⟩
  · rintro ⟨hcall, rfl⟩
    exact ⟨(), NetfilterEnv.exchange_eq_ok.mpr hcall, rfl⟩

theorem markerGenerations_ownTable {call : NftCall} {rules : List (Rule Field)}
    {markers : List GenerationId} :
    markerGenerations env call (ownTable generation rules) = .ok markers ↔
      env.fails call = none ∧ [generation] = markers := by
  have hown : (ownTable generation rules).chains.filterMap
      (fun chain => GenerationId.fromChainName chain.name) = [generation] := by
    simp only [ownTable, List.filterMap_cons, GenerationId.fromChainName_markerChainName,
      List.filterMap_nil,
      show GenerationId.fromChainName outputChain = none by decide]
  unfold markerGenerations
  rw [bind_eq_ok, hown]
  constructor
  · rintro ⟨⟨⟩, hcall, hmarkers⟩
    exact ⟨NetfilterEnv.exchange_eq_ok.mp hcall, Except.ok.inj hmarkers⟩
  · rintro ⟨hcall, rfl⟩
    exact ⟨(), NetfilterEnv.exchange_eq_ok.mpr hcall, rfl⟩

/-- A batch that is sent leaves the rendered table, and nothing else under our name. -/
theorem prepare_spec (h : prepare env tunIfname policy generation prior nft = .ok nft') :
    ∃ lo tun, env.ifaceIndex "lo" = .ok lo ∧ env.ifaceIndex tunIfname = .ok tun ∧
      checkPolicy policy = .ok () ∧
      live nft' = [ownTable generation (renderRules lo { policy with tunIfindex := tun })] := by
  have hindex : ∀ {name : String} {f : String → KillSwitchError} {index : UInt32},
      (env.ifaceIndex name).mapError f = .ok index → env.ifaceIndex name = .ok index := by
    intro name f index hname
    cases hi : env.ifaceIndex name with
    | error e => rw [hi] at hname; cases hname
    | ok i => rw [hi] at hname; cases hname; rfl
  unfold prepare at h
  obtain ⟨⟨⟩, hpolicy, h⟩ := bind_eq_ok.mp h
  obtain ⟨tun, htun, h⟩ := bind_eq_ok.mp h
  obtain ⟨named, hnamed, h⟩ := bind_eq_ok.mp h
  obtain ⟨-, hlive⟩ := tablesNamedUs_eq_ok.mp hnamed
  split at h
  · cases h
  · obtain ⟨lo, hlo, h⟩ := bind_eq_ok.mp h
    cases h
    exact ⟨lo, tun, hindex hlo, hindex htun, hpolicy, live_append_ownTable _ hlive⟩
  · next existing =>
    obtain ⟨markers, -, h⟩ := bind_eq_ok.mp h
    split at h
    · cases h
    · obtain ⟨lo, hlo, h⟩ := bind_eq_ok.mp h
      cases h
      exact ⟨lo, tun, hindex hlo, hindex htun, hpolicy, live_append_ownTable _ (live_erase hlive)⟩

/-- `apply` that fails before its batch is in leaves the tables as they were. -/
theorem apply_cases (env : NetfilterEnv) (tunIfname uplinkIfname : String)
    (policy : KillSwitchPolicy)
    (generation : GenerationId) (prior : Option GenerationId) (nft : Nft) :
    (∃ error, apply env tunIfname uplinkIfname policy generation prior nft = (.error error, nft) ∧
        ¬ (env.fails .send = none ∧ ∃ nft', prepare env tunIfname policy generation prior nft =
          .ok nft')) ∨
      ∃ nft', prepare env tunIfname policy generation prior nft = .ok nft' ∧
        env.fails .send = none ∧
        apply env tunIfname uplinkIfname policy generation prior nft =
          (verify env uplinkIfname policy generation nft', nft') := by
  unfold apply
  cases hprepare : prepare env tunIfname policy generation prior nft with
  | error error => exact Or.inl ⟨error, rfl, fun h => (nomatch h.2.choose_spec)⟩
  | ok nft' =>
    dsimp only
    cases hsend : env.fails .send with
    | some error => exact Or.inl ⟨_, rfl, fun h => (nomatch h.1)⟩
    | none => exact Or.inr ⟨nft', rfl, rfl, rfl⟩

theorem apply_dropping (env : NetfilterEnv) (tunIfname uplinkIfname : String)
    (policy : KillSwitchPolicy)
    (generation : GenerationId) (prior : Option GenerationId) {nft : Nft} (h : Dropping nft) :
    Dropping (apply env tunIfname uplinkIfname policy generation prior nft).2 := by
  obtain ⟨error, hres, -⟩ | ⟨nft', hprepare, -, hres⟩ :=
    apply_cases env tunIfname uplinkIfname policy generation prior nft
  · rw [hres]
    exact h
  · obtain ⟨lo, tun, -, -, -, hlive⟩ := prepare_spec hprepare
    rw [hres]
    exact dropping_of_live hlive

/-- Removing our own generation, alone under our name: the table goes with the batch. -/
theorem remove_own {rules : List (Rule Field)} (hlive : live nft = [ownTable generation rules]) :
    (env.Removes → live (remove env (some generation) nft).2 = []) ∧
      (¬ env.Removes → (remove env (some generation) nft).2 = nft) := by
  have hprepare : env.fails .tables = none → env.fails .markers = none →
      prepareRemove env (some generation) nft =
      .ok (some (nft.erase (ownTable generation rules))) := by
    intro htables hmarkers
    refine bind_eq_ok.mpr ⟨_, tablesNamedUs_eq_ok.mpr ⟨htables, hlive⟩, ?_⟩
    refine bind_eq_ok.mpr ⟨_, markerGenerations_ownTable.mpr ⟨hmarkers, rfl⟩, ?_⟩
    rw [decideLive, if_pos rfl]
  constructor
  · rintro ⟨htables, hmarkers, hsend⟩
    rw [remove, hprepare htables hmarkers]
    dsimp only
    rw [hsend]
    exact live_erase hlive
  · intro hnot
    rw [remove]
    cases hres : prepareRemove env (some generation) nft with
    | error error => rfl
    | ok nft' =>
      obtain ⟨named, hnamed, hrest⟩ := bind_eq_ok.mp hres
      obtain ⟨htables, hnamed⟩ := tablesNamedUs_eq_ok.mp hnamed
      obtain rfl : named = [ownTable generation rules] := hnamed.symm.trans hlive
      obtain ⟨markers, hmarkers, -⟩ := bind_eq_ok.mp hrest
      obtain ⟨hmarkers, -⟩ := markerGenerations_ownTable.mp hmarkers
      rw [hprepare htables hmarkers] at hres
      cases hres
      dsimp only
      cases hsend : env.fails .send with
      | some error => rfl
      | none => exact absurd ⟨htables, hmarkers, hsend⟩ hnot

theorem markerChainName_ne_outputChain (generation : GenerationId) :
    generation.markerChainName ≠ outputChain := by
  intro h
  have hmarker := GenerationId.fromChainName_markerChainName generation
  rw [h, show GenerationId.fromChainName outputChain = none by decide] at hmarker
  cases hmarker

theorem checkRuleCounts_ownTable {rules : List (Rule Field)}
    (hcount : rules.length = expectedRuleCount policy) {found : Bool} :
    checkRuleCounts env policy (ownTable generation rules).chains = .ok found ↔
      env.fails .validateRules = none ∧ true = found := by
  rw [ownTable, checkRuleCounts, if_neg (markerChainName_ne_outputChain generation),
    checkRuleCounts, if_pos rfl, bind_eq_ok]
  constructor
  · rintro ⟨⟨⟩, hcall, hfound⟩
    rw [if_neg (not_not.mpr hcount)] at hfound
    exact ⟨NetfilterEnv.exchange_eq_ok.mp hcall, Except.ok.inj hfound⟩
  · rintro ⟨hcall, rfl⟩
    refine ⟨(), NetfilterEnv.exchange_eq_ok.mpr hcall, ?_⟩
    rw [if_neg (not_not.mpr hcount)]
    rfl

theorem validate_eq_ok_iff {rules : List (Rule Field)}
    (hlive : live nft = [ownTable generation rules])
    (hcount : rules.length = expectedRuleCount policy) :
    validate env policy generation nft = .ok () ↔ env.fails .validateTables = none ∧
      env.fails .validateMarkers = none ∧ env.fails .validateChains = none ∧
      env.fails .validateRules = none := by
  constructor
  · intro h
    obtain ⟨named, hnamed, h⟩ := bind_eq_ok.mp h
    obtain ⟨htables, hnamed⟩ := tablesNamedUs_eq_ok.mp hnamed
    obtain rfl : named = [ownTable generation rules] := hnamed.symm.trans hlive
    obtain ⟨markers, hread, h⟩ := bind_eq_ok.mp h
    obtain ⟨hmarkers, rfl⟩ := markerGenerations_ownTable.mp hread
    rw [if_neg (not_not.mpr rfl)] at h
    obtain ⟨⟨⟩, hchains, h⟩ := bind_eq_ok.mp h
    obtain ⟨found, hfound, -⟩ := bind_eq_ok.mp h
    exact ⟨htables, hmarkers, NetfilterEnv.exchange_eq_ok.mp hchains,
      ((checkRuleCounts_ownTable hcount).mp hfound).1⟩
  · rintro ⟨htables, hmarkers, hchains, hrules⟩
    refine bind_eq_ok.mpr ⟨_, tablesNamedUs_eq_ok.mpr ⟨htables, hlive⟩, ?_⟩
    refine bind_eq_ok.mpr ⟨_, markerGenerations_ownTable.mpr ⟨hmarkers, rfl⟩, ?_⟩
    rw [if_neg (not_not.mpr rfl)]
    refine bind_eq_ok.mpr ⟨(), NetfilterEnv.exchange_eq_ok.mpr hchains, ?_⟩
    exact bind_eq_ok.mpr ⟨true, (checkRuleCounts_ownTable hcount).mpr ⟨hrules, rfl⟩, rfl⟩

theorem droppedPackets_eq_ok_iff {sent : Bool} {rules : List (Rule Field)} {n : ℕ}
    (hlive : live nft = [ownTable generation rules]) (hprobe : rules.any isProbeRule = true) :
    droppedPackets env sent nft = .ok n ↔ env.fails (.probeTables sent) = none ∧
      env.fails (.probeChains sent) = none ∧ env.fails (.probeRules sent) = none ∧
      env.counted sent = n := by
  have hchains : (ownTable generation rules).chains.filter (fun chain => chain.name = outputChain) =
      [{ name := outputChain, hook := some .out, policy := .drop, rules := rules }] := by
    rw [ownTable, List.filter_cons_of_neg (by simp [markerChainName_ne_outputChain]),
      List.filter_cons_of_pos (by simp)]
    rfl
  have hany :
    [({ name := outputChain, hook := some .out, policy := .drop, rules := rules } : Chain)].any
      (fun chain => chain.rules.any isProbeRule) = true := by
    rw [List.any_cons, hprobe]
    rfl
  constructor
  · intro h
    obtain ⟨named, hnamed, h⟩ := bind_eq_ok.mp h
    obtain ⟨htables, hnamed⟩ := tablesNamedUs_eq_ok.mp hnamed
    obtain rfl : named = [ownTable generation rules] := hnamed.symm.trans hlive
    obtain ⟨⟨⟩, hchainsOk, h⟩ := bind_eq_ok.mp h
    rw [hchains] at h
    obtain ⟨⟨⟩, hrules, h⟩ := bind_eq_ok.mp h
    rw [if_pos hany] at h
    exact ⟨htables, NetfilterEnv.exchange_eq_ok.mp hchainsOk, NetfilterEnv.exchange_eq_ok.mp hrules,
      Except.ok.inj h⟩
  · rintro ⟨htables, hchainsOk, hrules, rfl⟩
    refine bind_eq_ok.mpr ⟨_, tablesNamedUs_eq_ok.mpr ⟨htables, hlive⟩, ?_⟩
    refine bind_eq_ok.mpr ⟨(), NetfilterEnv.exchange_eq_ok.mpr hchainsOk, ?_⟩
    rw [hchains]
    refine bind_eq_ok.mpr ⟨(), NetfilterEnv.exchange_eq_ok.mpr hrules, ?_⟩
    exact if_pos hany

theorem enforcementProbe_eq_ok_iff {rules : List (Rule Field)}
    (hlive : live nft = [ownTable generation rules]) (hprobe : rules.any isProbeRule = true) :
    enforcementProbe env uplinkIfname nft = .ok () ↔
      (∀ sent, env.fails (.probeTables sent) = none ∧ env.fails (.probeChains sent) = none ∧
        env.fails (.probeRules sent) = none) ∧ env.fails .bind = none ∧
        env.fails (.bindToDevice uplinkIfname) = none ∧
      env.counted false < env.counted true := by
  constructor
  · intro h
    obtain ⟨before, hbefore, h⟩ := bind_eq_ok.mp h
    obtain ⟨⟨⟩, hbind, h⟩ := bind_eq_ok.mp h
    obtain ⟨⟨⟩, hdevice, h⟩ := bind_eq_ok.mp h
    obtain ⟨after, hafter, h⟩ := bind_eq_ok.mp h
    obtain ⟨hf1, hf2, hf3, rfl⟩ := (droppedPackets_eq_ok_iff hlive hprobe).mp hbefore
    obtain ⟨ht1, ht2, ht3, rfl⟩ := (droppedPackets_eq_ok_iff hlive hprobe).mp hafter
    split_ifs at h with hcounted
    refine ⟨fun sent => ?_, NetfilterEnv.exchange_eq_ok.mp hbind,
      NetfilterEnv.exchange_eq_ok.mp hdevice, hcounted⟩
    cases sent with
    | false => exact ⟨hf1, hf2, hf3⟩
    | true => exact ⟨ht1, ht2, ht3⟩
  · rintro ⟨hdumps, hbind, hdevice, hcounted⟩
    have hread : ∀ sent, droppedPackets env sent nft = .ok (env.counted sent) := fun sent =>
      (droppedPackets_eq_ok_iff hlive hprobe).mpr ⟨(hdumps sent).1, (hdumps sent).2.1,
       (hdumps sent).2.2, rfl⟩
    refine bind_eq_ok.mpr ⟨_, hread false,
      bind_eq_ok.mpr ⟨(), NetfilterEnv.exchange_eq_ok.mpr hbind, ?_⟩⟩
    refine bind_eq_ok.mpr ⟨(), NetfilterEnv.exchange_eq_ok.mpr hdevice,
      bind_eq_ok.mpr ⟨_, hread true, ?_⟩⟩
    exact if_pos hcounted

theorem any_isProbeRule_renderRules (lo : UInt32) (policy : KillSwitchPolicy) :
    (renderRules lo policy).any isProbeRule = true :=
  List.any_eq_true.mpr ⟨probeRule, by simp [renderRules], by decide⟩

theorem length_renderRules (lo : UInt32) (policy : KillSwitchPolicy) :
    (renderRules lo policy).length = expectedRuleCount policy := by
  unfold renderRules expectedRuleCount
  split_ifs <;> simp <;> omega

/-- **The verification of a table that is in fails only with an exchange, or with a probe that is
not counted.** -/
theorem verify_eq_ok_iff {lo : UInt32} {policy' : KillSwitchPolicy}
    (hlive : live nft = [ownTable generation (renderRules lo policy')])
    (hcount : expectedRuleCount policy' = expectedRuleCount policy) :
    verify env uplinkIfname policy generation nft = .ok () ↔ env.Proves uplinkIfname := by
  have hvalidate : validate env policy generation nft = .ok () ↔ _ :=
    validate_eq_ok_iff hlive ((length_renderRules lo policy').trans hcount)
  have hprobe : enforcementProbe env uplinkIfname nft = .ok () ↔ _ :=
    enforcementProbe_eq_ok_iff hlive (any_isProbeRule_renderRules lo policy')
  rw [verify, bind_eq_ok]
  constructor
  · rintro ⟨⟨⟩, hvalid, hproved⟩
    obtain ⟨hv1, hv2, hv3, hv4⟩ := hvalidate.mp hvalid
    obtain ⟨hdumps, hbind, hdevice, hcounted⟩ := hprobe.mp hproved
    refine ⟨?_, hcounted⟩
    simp [NetfilterEnv.verifyCalls, hv1, hv2, hv3, hv4, hdumps, hbind, hdevice]
  · rintro ⟨hcalls, hcounted⟩
    simp only [NetfilterEnv.verifyCalls, List.forall_mem_cons] at hcalls
    obtain ⟨hv1, hv2, hv3, hv4, hf1, hf2, hf3, hbind, hdevice, ht1, ht2, ht3, -⟩ := hcalls
    refine ⟨(), hvalidate.mpr ⟨hv1, hv2, hv3, hv4⟩,
      hprobe.mpr ⟨fun sent => ?_, hbind, hdevice, hcounted⟩⟩
    cases sent with
    | false => exact ⟨hf1, hf2, hf3⟩
    | true => exact ⟨ht1, ht2, ht3⟩

end KillSwitch

end ProtonWire
