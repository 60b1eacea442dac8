import ProtonWire.Lib.Fallible
import ProtonWire.Protocol.Candidates

/-!
# The translation conserves the endpoints

* `Offer`: an endpoint the engine may try: the caller's id, the key, the transport, the address, a
  port;
* `offered`, `KeyCodec.expected`: what candidates offer, and what the request asks for;
* `isOk_translate`: when a request is translated;
* **`KeyCodec.translate_conserves`**: what is asked for is offered, under ids that differ.
-/

namespace ProtonWire.Translate

open Fallible (bind_eq_ok)
open Upsert (runs flatMap_runs_flatMap flatMap_runs_perm flatMap_swap_perm flatMap_filter)

/-! ## Offers -/

/-- An endpoint that may be tried. -/
structure Offer where
  id : String
  key : Vector UInt8 32
  transport : Transport
  entryIp : IpAddr
  port : UInt16
  deriving DecidableEq

/-- The transports in the order of the source. -/
def transports : List Transport := [.udp, .tcp, .tls]

/-- Whether the protocol uses the transport. -/
def Protocol.allows : Protocol → Transport → Bool
  | .smart, _ => true
  | .wireGuardUdp, transport => transport = .udp
  | .wireGuardTcp, transport => transport = .tcp
  | .stealth, transport => transport = .tls

/-- What a candidate offers for a transport. -/
def PeerInfo.offers (transport : Transport) (info : PeerInfo) : List Offer :=
  (info.ports transport).map fun port =>
    ⟨stablePeerId info.peerId, info.serverPublicKey, transport, info.serverIp, port⟩

/-- What the candidates offer, peer by peer: those that stand together under one id of the caller
are a peer. -/
def offered (peers : List PeerInfo) : List Offer :=
  (runs (stablePeerId ·.peerId) peers).flatMap fun peer =>
    transports.flatMap fun transport => peer.flatMap (PeerInfo.offers transport)

namespace KeyCodec

variable (K : KeyCodec)

/-- The endpoints of the peers with a key, restricted to the transports of the protocol. -/
def expected (params : TunnelParams) : List Offer :=
  params.peers.flatMap fun peer =>
    (K.keyOf peer).elim [] fun key =>
      (transports.filter (params.protocol.allows ·)).flatMap fun transport =>
        (peer.portsAt transport).map fun endpoint =>
        ⟨peer.id, key, transport, endpoint.1, endpoint.2⟩


/-- The peer has ports for a transport of the protocol. -/
def ServesFor (protocol : Protocol) (peer : PeerParams) : Prop :=
  ∃ transport endpoint, protocol.allows transport = true ∧ peer.endpoint transport = some endpoint ∧
    endpoint.ports ≠ []

/-- A key that is base64 of 32 octets, and ports for some transport. -/
structure WellFormed (peer : PeerParams) : Prop where
  key : ∃ bytes, K.decode peer.publicKeyBase64 = .ok bytes ∧ bytes.length = 32
  served : ServesFor .smart peer

/-- The client's key is base64 of 32 octets, or absent where the cache has it. -/
def ClientKeyFits (keyPolicy : KeyPolicy) : Option String → Prop
  | some key => ∃ bytes, K.decode key = .ok bytes ∧ bytes.length = 32
  | none => keyPolicy = .fromCache

/-- The candidates the protocol leaves. -/
def keepFor (protocol : Protocol) (candidates : List PeerInfo) : List PeerInfo :=
  match protocol with
  | .smart => candidates
  | .wireGuardUdp => constrainTo .udp candidates
  | .wireGuardTcp => constrainTo .tcp candidates
  | .stealth => constrainTo .tls candidates

/-! ## Restricting to a protocol -/

section
variable {protocol : Protocol} {transport : Transport} {candidates : List PeerInfo}

theorem constrainTo_flatMap {α : Type*} (sources : List α) (block : α → List PeerInfo) :
    constrainTo transport (sources.flatMap block) = sources.flatMap fun source =>
    constrainTo transport (block source) := by
  simp only [constrainTo, List.map_flatMap, List.filter_flatMap]

theorem keepFor_flatMap {α : Type*} (sources : List α) (block : α → List PeerInfo) :
    keepFor protocol (sources.flatMap block) = sources.flatMap fun source =>
    keepFor protocol (block source) := by
  cases protocol with
  | smart => rfl
  | wireGuardUdp | wireGuardTcp | stealth => exact constrainTo_flatMap sources block

theorem offers_clearOthers (other : Transport) (info : PeerInfo) :
    (info.clearOthers transport).offers other = if other = transport then info.offers other
    else [] := by
  split_ifs with h
  · subst h
    simp [PeerInfo.offers]
  · simp [PeerInfo.offers, PeerInfo.ports_clearOthers_of_ne _ _ h]

theorem flatMap_offers_constrainTo (other : Transport) :
    (constrainTo transport candidates).flatMap (PeerInfo.offers other) =
      if other = transport then candidates.flatMap (PeerInfo.offers other) else [] := by
  induction candidates with
  | nil => simp [constrainTo]
  | cons info rest ih =>
    have hcons : constrainTo transport (info :: rest) = constrainTo transport [info] ++
      constrainTo transport rest := by
      simp [constrainTo, ← List.filter_append]
    have hone : (constrainTo transport [info]).flatMap (PeerInfo.offers other) =
        if other = transport then info.offers other else [] := by
      rw [← offers_clearOthers]
      by_cases hports : info.ports transport = []
      · have hnone : constrainTo transport [info] = [] := by simp [constrainTo, hports]
        rw [hnone, offers_clearOthers]
        split_ifs with h
        · subst h
          simp [PeerInfo.offers, hports]
        · rfl
      · have hsome : constrainTo transport [info] = [info.clearOthers transport] := by
          simp [constrainTo, hports]
        rw [hsome, List.flatMap_singleton]
    rw [hcons, List.flatMap_append, hone, ih]
    split_ifs <;> rfl

/-- What is left offers the transports of the protocol, unchanged. -/
theorem flatMap_offers_keepFor (other : Transport) :
    (keepFor protocol candidates).flatMap (PeerInfo.offers other) =
      if protocol.allows other = true then candidates.flatMap (PeerInfo.offers other) else [] := by
  cases protocol with
  | smart => rfl
  | wireGuardUdp | wireGuardTcp | stealth =>
    rw [keepFor, flatMap_offers_constrainTo]
    simp [Protocol.allows]

theorem map_id_keepFor_sublist :
    ((keepFor protocol candidates).map (·.peerId)).Sublist (candidates.map (·.peerId)) := by
  have hconstrain : ∀ transport,
      ((constrainTo transport candidates).map (·.peerId)).Sublist (candidates.map (·.peerId)) := by
    intro transport
    have hids : (candidates.map (PeerInfo.clearOthers transport)).map (·.peerId) =
      candidates.map (·.peerId) := by
      simp
    rw [← hids]
    exact List.filter_sublist.map _
  cases protocol with
  | smart => exact List.Sublist.refl _
  | wireGuardUdp => exact hconstrain .udp
  | wireGuardTcp => exact hconstrain .tcp
  | stealth => exact hconstrain .tls

theorem servesTranslated_iff : servesTranslated candidates protocol = true ↔
    ∃ info ∈ candidates, ∃ transport, protocol.allows transport = true ∧
      info.ports transport ≠ [] := by
  rw [servesTranslated, List.any_eq_true]
  refine exists_congr fun info => and_congr_right fun _ => ?_
  cases protocol with
  | smart =>
    simp only [PeerInfo.serves, Protocol.allows, Bool.or_eq_true, Bool.not_eq_true',
      List.isEmpty_eq_false_iff]
    constructor
    · rintro ((h | h) | h)
      · exact ⟨.udp, trivial, h⟩
      · exact ⟨.tcp, trivial, h⟩
      · exact ⟨.tls, trivial, h⟩
    · rintro ⟨transport, -, h⟩
      cases transport with
      | udp => exact .inl (.inl h)
      | tcp => exact .inl (.inr h)
      | tls => exact .inr h
  | wireGuardUdp | wireGuardTcp | stealth =>
    simp [PeerInfo.serves, Protocol.allows, PeerInfo.ports]

/-- The constraint refuses nothing that the recheck has passed. -/
theorem constrainTransports_eq (h : servesTranslated candidates protocol = true) :
    constrainTransports candidates protocol = .ok (keepFor protocol candidates) := by
  have hconstrain : ∀ transport, (∃ info ∈ candidates, info.ports transport ≠ []) →
      unlessEmpty protocol (constrainTo transport candidates) =
      .ok (constrainTo transport candidates) := by
    rintro transport ⟨info, hinfo, hports⟩
    have hmem : info.clearOthers transport ∈ constrainTo transport candidates :=
      List.mem_filter.mpr ⟨List.mem_map_of_mem hinfo, by simpa using hports⟩
    rw [unlessEmpty, if_neg]
    exact fun hempty => by simp [List.isEmpty_iff.mp hempty] at hmem
  obtain ⟨info, hinfo, transport, hallows, hports⟩ := servesTranslated_iff.mp h
  cases protocol with
  | smart => rfl
  | wireGuardUdp =>
    cases of_decide_eq_true hallows
    exact hconstrain .udp ⟨info, hinfo, hports⟩
  | wireGuardTcp =>
    cases of_decide_eq_true hallows
    exact hconstrain .tcp ⟨info, hinfo, hports⟩
  | stealth =>
    cases of_decide_eq_true hallows
    exact hconstrain .tls ⟨info, hinfo, hports⟩

end

/-! ## When a request is translated -/

section
variable {K : KeyCodec} {params : TunnelParams} {keyPolicy : KeyPolicy} {protocol : Protocol}

theorem portsAt_ne_nil {peer : PeerParams} {transport : Transport} :
    peer.portsAt transport ≠ [] ↔ ∃ endpoint, peer.endpoint transport = some endpoint ∧
    endpoint.ports ≠ [] := by
  rw [PeerParams.portsAt, PeerParams.served]
  cases peer.endpoint transport with
  | none => simp
  | some endpoint =>
    rw [Option.filter_some]
    by_cases h : endpoint.ports = []
    · rw [if_neg (by simp [h])]
      simp [h]
    · rw [if_pos (by simp [h])]
      simp [h]

theorem keyOf_eq_some {peer : PeerParams} :
    (∃ key, K.keyOf peer = some key) ↔ ∃ bytes, K.decode peer.publicKeyBase64 = .ok bytes ∧
    bytes.length = 32 := by
  rw [keyOf]
  cases K.decode peer.publicKeyBase64 with
  | error text => simp
  | ok bytes =>
    by_cases h : bytes.length = 32
    · simp only [toArray32, dif_pos h]
      exact ⟨fun _ => ⟨bytes, rfl, h⟩, fun _ => ⟨_, rfl⟩⟩
    · simp [toArray32, h]

/-- A candidate has ports for the transport when the peer has, and its key can be decoded. -/
theorem exists_ports_candidates (hK : K.Lawful) {peer : PeerParams} {transport : Transport} :
    (∃ info ∈ K.candidates peer, info.ports transport ≠ []) ↔
      (∃ key, K.keyOf peer = some key) ∧ peer.portsAt transport ≠ [] := by
  have hne : (∃ info ∈ K.candidates peer, info.ports transport ≠ []) ↔
      (K.candidates peer).flatMap (·.portsAt transport) ≠ [] := by
    rw [Ne, List.flatMap_eq_nil_iff]
    push Not
    exact exists_congr fun info => and_congr_right fun _ =>
      not_congr (info.portsAt_eq_nil transport).symm
  rw [hne, portsAt_candidates hK]
  cases K.keyOf peer with
  | none => simp
  | some key => simp

theorem servesFor_iff {peer : PeerParams} :
    ServesFor protocol peer ↔ ∃ transport, protocol.allows transport = true ∧
    peer.portsAt transport ≠ [] := by
  refine exists_congr fun transport => ?_
  rw [portsAt_ne_nil, ← exists_and_left]

theorem servesTranslated_candidates (hK : K.Lawful) (peers : List PeerParams) :
    servesTranslated (peers.flatMap K.candidates) protocol = true ↔
      ∃ peer ∈ peers, K.WellFormed peer ∧ ServesFor protocol peer := by
  rw [servesTranslated_iff]
  constructor
  · rintro ⟨info, hinfo, transport, hallows, hports⟩
    obtain ⟨peer, hpeer, hmem⟩ := List.mem_flatMap.mp hinfo
    obtain ⟨hkey, hserved⟩ := (exists_ports_candidates hK).mp ⟨info, hmem, hports⟩
    exact ⟨peer, hpeer, ⟨keyOf_eq_some.mp hkey, servesFor_iff.mpr ⟨transport, rfl, hserved⟩⟩,
      servesFor_iff.mpr ⟨transport, hallows, hserved⟩⟩
  · rintro ⟨peer, hpeer, hwell, hserves⟩
    obtain ⟨transport, hallows, hserved⟩ := servesFor_iff.mp hserves
    obtain ⟨info, hmem, hports⟩ := (exists_ports_candidates hK).mpr
      ⟨keyOf_eq_some.mpr hwell.key, hserved⟩
    exact ⟨info, List.mem_flatMap.mpr ⟨peer, hpeer, hmem⟩, transport, hallows, hports⟩

theorem servesRequestedProtocol_of_servesFor {peer : PeerParams} (hpeer : peer ∈ params.peers)
    (h : ServesFor params.protocol peer) : params.servesRequestedProtocol = true := by
  obtain ⟨transport, endpoint, hallows, hendpoint, hports⟩ := h
  refine List.any_eq_true.mpr ⟨peer, hpeer, ?_⟩
  have hany : (peer.endpoint transport).any (!·.ports.isEmpty) = true := by simp [hendpoint, hports]
  cases hprotocol : params.protocol with
  | smart =>
    rw [PeerParams.serves]
    cases transport with
    | udp => simp only [show peer.udp.any _ = true from hany, Bool.true_or]
    | tcp => simp only [show peer.tcp.any _ = true from hany, Bool.true_or, Bool.or_true]
    | tls => simp only [show peer.tls.any _ = true from hany, Bool.or_true]
  | wireGuardUdp | wireGuardTcp | stealth =>
    rw [hprotocol] at hallows
    cases of_decide_eq_true hallows
    exact hany

theorem foldl_translateStep (peers : List PeerParams)
    (translated : List PeerInfo × Option ProtocolError) :
    (peers.foldl K.translateStep translated).1 = translated.1 ++ peers.flatMap K.candidates := by
  induction peers generalizing translated with
  | nil => simp
  | cons peer peers ih =>
    rw [List.foldl_cons, ih, List.flatMap_cons, ← List.append_assoc, translateStep, candidates]
    cases K.decodePeer peer with
    | ok infos => rfl
    | error error => simp

theorem translatePeers_eq_ok {peers : List PeerParams} {decoded : List PeerInfo} :
    K.translatePeers peers = .ok decoded ↔ decoded = peers.flatMap K.candidates ∧ decoded ≠ [] := by
  simp only [translatePeers, foldl_translateStep, List.nil_append]
  by_cases h : peers.flatMap K.candidates = []
  · rw [if_pos (List.isEmpty_iff.mpr h)]
    constructor
    · intro heq
      cases heq
    · rintro ⟨rfl, hne⟩
      exact absurd h hne
  · rw [if_neg (fun hempty => h (List.isEmpty_iff.mp hempty))]
    constructor
    · intro heq
      cases heq
      exact ⟨rfl, h⟩
    · rintro ⟨rfl, -⟩
      rfl

theorem translateWithPolicy_eq_ok (hK : K.Lawful) {config : InitialConnectionConfig} :
    K.translateWithPolicy params keyPolicy = .ok config ↔
      servesTranslated (params.peers.flatMap K.candidates) params.protocol = true ∧
      ∃ wgPrivateKey mode, K.clientKey params.clientPrivateKey = .ok wgPrivateKey ∧
        connectionMode wgPrivateKey keyPolicy = .ok mode ∧
        config = { peers := keepFor params.protocol (params.peers.flatMap K.candidates),
                   networkAvailable := params.networkAvailable, pcapFile :=
                     none, connectionMode := mode,
                   sniStrategy := sniStrategy params.sniStrategy } := by
  rw [translateWithPolicy]
  constructor
  · intro h
    split_ifs at h
    obtain ⟨decoded, hdecoded, h⟩ := bind_eq_ok.mp h
    obtain ⟨rfl, -⟩ := translatePeers_eq_ok.mp hdecoded
    split_ifs at h with hserves
    have hserves : servesTranslated (params.peers.flatMap K.candidates) params.protocol = true := by
      simpa using hserves
    refine ⟨hserves, ?_⟩
    obtain ⟨constrained, hconstrained, h⟩ := bind_eq_ok.mp h
    rw [constrainTransports_eq hserves] at hconstrained
    cases hconstrained
    obtain ⟨wgPrivateKey, hkey, h⟩ := bind_eq_ok.mp h
    obtain ⟨mode, hmode, h⟩ := bind_eq_ok.mp h
    cases h
    exact ⟨wgPrivateKey, mode, hkey, hmode, rfl⟩
  · rintro ⟨hserves, wgPrivateKey, mode, hkey, hmode, rfl⟩
    obtain ⟨peer, hpeer, -, hserved⟩ := (servesTranslated_candidates hK params.peers).mp hserves
    have hne : params.peers.flatMap K.candidates ≠ [] := by
      intro hnil
      rw [hnil] at hserves
      cases hserves
    rw [servesRequestedProtocol_of_servesFor hpeer hserved, if_neg (by simp)]
    refine bind_eq_ok.mpr ⟨_, translatePeers_eq_ok.mpr ⟨rfl, hne⟩, ?_⟩
    rw [hserves, if_neg (by simp)]
    exact bind_eq_ok.mpr ⟨_, constrainTransports_eq hserves, bind_eq_ok.mpr ⟨_, hkey,
      bind_eq_ok.mpr ⟨_, hmode, rfl⟩⟩⟩

theorem clientKeyFits_iff {key : Option String} : K.ClientKeyFits keyPolicy key ↔
    ∃ wgPrivateKey mode, K.clientKey key = .ok wgPrivateKey ∧
      connectionMode wgPrivateKey keyPolicy = .ok mode := by
  cases key with
  | none =>
    cases keyPolicy with
    | required => simp [ClientKeyFits, clientKey, connectionMode]
    | fromCache => simp [ClientKeyFits, clientKey, connectionMode]
  | some key =>
    rw [ClientKeyFits, clientKey, decodeClientKey]
    cases K.decode key with
    | error text => simp [Except.map]
    | ok bytes =>
      by_cases h : bytes.length = 32
      · simp [toArray32, h, Except.map, connectionMode]
      · simp [toArray32, h, Except.map]

/-- **When a request is translated.** -/
theorem isOk_translate (hK : K.Lawful) (params : TunnelParams) (keyPolicy : KeyPolicy) :
    (∃ config, K.translateWithPolicy params keyPolicy = .ok config) ↔
      (∃ peer ∈ params.peers, K.WellFormed peer ∧ ServesFor params.protocol peer) ∧
        K.ClientKeyFits keyPolicy params.clientPrivateKey := by
  rw [← servesTranslated_candidates hK, clientKeyFits_iff]
  constructor
  · rintro ⟨config, h⟩
    obtain ⟨hserves, wgPrivateKey, mode, hkey, hmode, -⟩ := (translateWithPolicy_eq_ok hK).mp h
    exact ⟨hserves, wgPrivateKey, mode, hkey, hmode⟩
  · rintro ⟨hserves, wgPrivateKey, mode, hkey, hmode⟩
    exact ⟨_, (translateWithPolicy_eq_ok hK).mpr ⟨hserves, wgPrivateKey, mode, hkey, hmode, rfl⟩⟩

/-! ## What is offered -/

/-- What is offered is what the candidates offer, one after the other, up to the order within a
peer. -/
theorem offered_perm (peers : List PeerInfo) :
    (peers.flatMap fun info => transports.flatMap (info.offers ·)).Perm (offered peers) :=
  flatMap_runs_perm fun run => flatMap_swap_perm (fun info transport => info.offers transport)
    run transports

theorem offers_candidates (hK : K.Lawful) {peer : PeerParams} (hplain : ¬ EndsInDigits peer.id) :
    (transports.flatMap fun transport =>
        (keepFor protocol (K.candidates peer)).flatMap (PeerInfo.offers transport)) =
      (K.keyOf peer).elim [] fun key =>
        (transports.filter (protocol.allows ·)).flatMap fun transport =>
          (peer.portsAt transport).map fun endpoint =>
          ⟨peer.id, key, transport, endpoint.1, endpoint.2⟩ := by
  rcases candidates_spec hK hplain with ⟨hkey, hnone⟩ | ⟨key, hkey, hexpands⟩
  · rw [hkey, hnone]
    cases protocol <;> rfl
  · have hoffers : ∀ transport, (K.candidates peer).flatMap (PeerInfo.offers transport) =
        (peer.portsAt transport).map fun endpoint =>
        ⟨peer.id, key, transport, endpoint.1, endpoint.2⟩ := by
      intro transport
      rw [← hexpands.ports, List.map_flatMap]
      refine List.flatMap_congr fun info hinfo => ?_
      rw [PeerInfo.offers, PeerInfo.portsAt, List.map_map, hexpands.stable info hinfo,
        hexpands.key info hinfo]
      rfl
    rw [hkey, Option.elim_some, flatMap_filter]
    refine List.flatMap_congr fun transport _ => ?_
    rw [flatMap_offers_keepFor, hoffers]

theorem wellFormed_of_mem_keepFor (hK : K.Lawful) {peer : PeerParams}
    (hplain : ¬ EndsInDigits peer.id)
    {info : PeerInfo} (h : info ∈ keepFor protocol (K.candidates peer)) :
    K.WellFormed peer ∧ stablePeerId info.peerId = peer.id := by
  obtain ⟨old, hold, hid⟩ := List.mem_map.mp (map_id_keepFor_sublist.subset (List.mem_map_of_mem h))
  rcases candidates_spec hK hplain with ⟨-, hnone⟩ | ⟨key, hkey, hexpands⟩
  · rw [hnone] at hold
    cases hold
  obtain ⟨transport, hports⟩ := hexpands.served old hold
  obtain ⟨hkey, hserved⟩ := (exists_ports_candidates hK).mp ⟨old, hold, hports⟩
  exact ⟨⟨keyOf_eq_some.mp hkey, servesFor_iff.mpr ⟨transport, rfl, hserved⟩⟩,
    hid ▸ hexpands.stable old hold⟩

theorem nodup_ids_keepFor (hK : K.Lawful) {peers : List PeerParams}
    (hdistinct : (peers.map (·.id)).Nodup) (hplain : ∀ peer ∈ peers, ¬ EndsInDigits peer.id) :
    ((peers.flatMap fun peer => keepFor protocol (K.candidates peer)).map (·.peerId)).Nodup := by
  rw [List.map_flatMap, List.nodup_flatMap]
  constructor
  · intro peer hpeer
    refine map_id_keepFor_sublist.nodup ?_
    rcases candidates_spec hK (hplain peer hpeer) with ⟨-, hnone⟩ | ⟨key, -, hexpands⟩
    · rw [hnone]
      exact List.nodup_nil
    · exact hexpands.nodup
  · refine (List.pairwise_map.mp hdistinct).imp_of_mem ?_
    intro peer next hpeer hnext hne id hid hid'
    obtain ⟨info, hinfo, rfl⟩ := List.mem_map.mp hid
    obtain ⟨info', hinfo', heq⟩ := List.mem_map.mp hid'
    have hstable := (wellFormed_of_mem_keepFor hK (hplain peer hpeer) hinfo).2
    have hstable' := (wellFormed_of_mem_keepFor hK (hplain next hnext) hinfo').2
    exact hne (hstable.symm.trans (heq ▸ hstable'))

end

variable {K} in
/-- **The translation conserves the endpoints.** When the caller's ids differ and none ends in a
slash and digits, a request is translated exactly when a well-formed peer serves its protocol and
the client's key fits. Then the candidates have ids that differ, each gives the id of the
well-formed peer it comes from, and what they offer is what the request asks for, in the order of
the peers. -/
theorem translate_conserves (hK : K.Lawful) (params : TunnelParams)
    (hdistinct : (params.peers.map (·.id)).Nodup)
    (hplain : ∀ peer ∈ params.peers, ¬ EndsInDigits peer.id) (keyPolicy : KeyPolicy) :
    ((∃ config, K.translateWithPolicy params keyPolicy = .ok config) ↔
      (∃ peer ∈ params.peers, K.WellFormed peer ∧ ServesFor params.protocol peer) ∧
        K.ClientKeyFits keyPolicy params.clientPrivateKey) ∧
    ∀ config, K.translateWithPolicy params keyPolicy = .ok config →
      (config.peers.map (·.peerId)).Nodup ∧
      (∀ info ∈ config.peers, ∃ peer ∈ params.peers, K.WellFormed peer ∧
        info ∈ keepFor params.protocol (K.candidates peer) ∧ stablePeerId info.peerId = peer.id) ∧
      offered config.peers = K.expected params ∧
      (config.peers.flatMap fun info => transports.flatMap
       (info.offers ·)).Perm (K.expected params) := by
  refine ⟨isOk_translate hK params keyPolicy, fun config hconfig => ?_⟩
  obtain ⟨-, wgPrivateKey, mode, -, -, rfl⟩ := (translateWithPolicy_eq_ok hK).mp hconfig
  dsimp only
  rw [keepFor_flatMap]
  have hfrom : ∀ peer ∈ params.peers, ∀ info ∈ keepFor params.protocol (K.candidates peer),
      K.WellFormed peer ∧ stablePeerId info.peerId = peer.id :=
    fun peer hpeer info hinfo => wellFormed_of_mem_keepFor hK (hplain peer hpeer) hinfo
  have hoffered : offered (params.peers.flatMap fun peer =>
    keepFor params.protocol (K.candidates peer)) =
      K.expected params := by
    rw [offered, flatMap_runs_flatMap rfl (fun peer hpeer info hinfo =>
      (hfrom peer hpeer info hinfo).2) hdistinct,
      expected]
    exact List.flatMap_congr fun peer hpeer => offers_candidates hK (hplain peer hpeer)
  refine ⟨nodup_ids_keepFor hK hdistinct hplain, ?_, hoffered, hoffered ▸ offered_perm _⟩
  intro info hinfo
  obtain ⟨peer, hpeer, hmem⟩ := List.mem_flatMap.mp hinfo
  exact ⟨peer, hpeer, (hfrom peer hpeer info hmem).1, hmem, (hfrom peer hpeer info hmem).2⟩

/-- A codec that knows one text. -/
def zeroCodec : KeyCodec where
  decode text :=
    if text = "AAAAAAAAAAAAAAAAAAAAAAAAAAAAAAAAAAAAAAAAAAA=" then .ok (List.replicate 32 0)
    else .error "Invalid symbol 63, offset 0."
  peerKey := toArray32

/-- A peer with an address of its own for TCP, behind one whose key is not base64. -/
def splitParams : TunnelParams where
  peers := [
    { id := "uk-1", publicKeyBase64 := "?", udp := some ⟨.v4 #v[10, 0, 0, 1], [51820]⟩, tcp := none, tls := none,
      priority := 0, exitLabel := none },
    { id := "uk-42", publicKeyBase64 := "AAAAAAAAAAAAAAAAAAAAAAAAAAAAAAAAAAAAAAAAAAA=",
      udp := some ⟨.v4 #v[10, 0, 0, 2], [51820]⟩, tcp := some ⟨.v4 #v[10, 0, 0, 3], [443]⟩,
      tls := some ⟨.v4 #v[10, 0, 0, 2], [443]⟩, priority := 1, exitLabel := none }]
  protocol := .smart
  networkAvailable := true
  clientPrivateKey := none
  sniStrategy := .random

theorem not_endsInDigits {id : String} (h : '/' ∉ id.toList) : ¬ EndsInDigits id := by
  rintro ⟨stem, suffix, rfl, -⟩
  exact h (by simp)

theorem translate_conserves_split :
    (∃ config, zeroCodec.translateWithPolicy splitParams .fromCache = .ok config) ∧
      ∀ config, zeroCodec.translateWithPolicy splitParams .fromCache = .ok config →
        offered config.peers = [⟨"uk-42", .replicate 32 0, .udp, .v4 #v[10, 0, 0, 2], 51820⟩,
          ⟨"uk-42", .replicate 32 0, .tcp, .v4 #v[10, 0, 0, 3], 443⟩,
          ⟨"uk-42", .replicate 32 0, .tls, .v4 #v[10, 0, 0, 2], 443⟩] := by
  have hlawful : zeroCodec.Lawful := fun _ _ => toArray32_eq_some
  have hplain : ∀ peer ∈ splitParams.peers, ¬ EndsInDigits peer.id := by
    intro peer hpeer
    fin_cases hpeer <;> exact not_endsInDigits (by decide)
  obtain ⟨hok, hall⟩ := translate_conserves hlawful splitParams (by decide) hplain .fromCache
  refine ⟨hok.mpr ⟨⟨_, List.mem_cons_of_mem _ List.mem_cons_self, ⟨⟨_, rfl, rfl⟩, ?_⟩, ?_⟩, rfl⟩,
    ?_⟩
  · exact ⟨.udp, _, rfl, rfl, by decide⟩
  · exact ⟨.udp, _, rfl, rfl, by decide⟩
  · intro config hconfig
    rw [(hall config hconfig).2.2.1]
    decide

end KeyCodec

end ProtonWire.Translate
