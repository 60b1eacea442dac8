import ProtonWire.Protocol.Translate

/-!
# The candidates of a peer

What the translation of one peer keeps: the ports of each transport at its address, and the caller's
id.

* `stablePeerId_suffix`, `stablePeerId_of_plain`: the caller's id comes back;
* `Gathered`: what the loop over the transports has gathered;
* `portsAt_gather`: all of the peer's endpoints;
* **`candidates_spec`**: the same for the decoded peer, under ids that differ.
-/

namespace ProtonWire.Translate

open Upsert (upsert mem_upsert upsert_ne_nil flatMap_upsert_same flatMap_upsert_first
    nodup_map_upsert)

/-! ## The caller's id -/

/-- The id ends in a slash and digits. -/
def EndsInDigits (id : String) : Prop :=
  ∃ stem suffix : String, id = stem ++ "/" ++ suffix ∧ suffix ≠ "" ∧
    suffix.toList.all Char.isDigit = true

theorem rsplitOnce_append {c : Char} {stem suffix : List Char} (h : c ∉ suffix) :
    rsplitOnce c (stem ++ c :: suffix) = some (stem, suffix) := by
  have hall : ∀ a ∈ suffix.reverse, decide (a ≠ c) = true := by
    intro a ha
    exact decide_eq_true fun hac => h (hac ▸ List.mem_reverse.mp ha)
  have hreverse : (stem ++ c :: suffix).reverse = suffix.reverse ++ c :: stem.reverse := by simp
  rw [rsplitOnce, hreverse, List.dropWhile_append_of_pos hall, List.takeWhile_append_of_pos hall]
  simp

theorem eq_append_of_rsplitOnce {c : Char} {text stem suffix : List Char}
    (h : rsplitOnce c text = some (stem, suffix)) : text = stem ++ c :: suffix := by
  have htext :
    text = (text.reverse.dropWhile
      (· ≠ c)).reverse ++ (text.reverse.takeWhile (· ≠ c)).reverse := by
    rw [← List.reverse_append, List.takeWhile_append_dropWhile, List.reverse_reverse]
  rw [rsplitOnce] at h
  cases hdrop : text.reverse.dropWhile (· ≠ c) with
  | nil =>
    rw [hdrop] at h
    cases h
  | cons a rest =>
    have ha : a = c := by
      have hhead := List.head?_dropWhile_not (fun b => decide (b ≠ c)) text.reverse
      rw [hdrop] at hhead
      simpa using hhead
    rw [hdrop] at h htext
    cases h
    rw [ha] at htext
    simpa using htext

/-- The place of a candidate is taken off its id. -/
theorem stablePeerId_suffix (id : String) (index : ℕ) :
    stablePeerId (id ++ "/" ++ toString index) = id := by
  have hlist : (id ++ "/" ++ toString index).toList = id.toList ++
    '/' :: (toString index).toList := by simp
  have hdigit : ∀ c ∈ (toString index).toList, c.isDigit = true := by
    intro c hc
    rw [Nat.toString_eq_repr, Nat.toList_repr] at hc
    exact Nat.isDigit_of_mem_toDigits (by decide) (by decide) hc
  have hslash : '/' ∉ (toString index).toList := fun h => absurd (hdigit '/' h) (by decide)
  have hne : (toString index).toList ≠ [] := by
    rw [Nat.toString_eq_repr, Nat.toList_repr]
    exact Nat.toDigits_ne_nil
  have hsuffix : (!(toString index).toList.isEmpty && (toString index).toList.all Char.isDigit) =
    true := by
    rw [List.isEmpty_eq_false_iff.mpr hne, List.all_eq_true.mpr hdigit]
    rfl
  rw [stablePeerId, hlist, rsplitOnce_append hslash]
  simp only [hsuffix, if_true, String.ofList_toList]

theorem stablePeerId_of_plain {id : String} (h : ¬ EndsInDigits id) : stablePeerId id = id := by
  rw [stablePeerId]
  cases hsplit : rsplitOnce '/' id.toList with
  | none => rfl
  | some split =>
    obtain ⟨stem, suffix⟩ := split
    have hid := eq_append_of_rsplitOnce hsplit
    refine if_neg fun hdigits => h ⟨String.ofList stem, String.ofList suffix, ?_, ?_, ?_⟩
    · apply String.toList_injective
      simpa using hid
    · intro hempty
      have : suffix = [] := by simpa using congrArg String.toList hempty
      simp [this] at hdigits
    · simp only [Bool.and_eq_true] at hdigits
      simpa using hdigits.2

theorem suffix_injective (id : String) :
    Function.Injective fun index : ℕ => id ++ "/" ++ toString index := by
  intro a b h
  have hdigits : Nat.toDigits 10 a = Nat.toDigits 10 b := by simpa using congrArg String.toList h
  apply Nat.repr_inj.mp
  rw [Nat.repr_eq_ofList_toDigits, Nat.repr_eq_ofList_toDigits, hdigits]

/-! ## Ports -/

namespace PeerInfo

variable (info : PeerInfo) (transport : Transport) (list : List UInt16)

@[simp] theorem ports_install : (info.install transport list).ports transport = list := by
  cases transport <;> rfl

theorem ports_install_of_ne {other : Transport} (h : other ≠ transport) :
    (info.install transport list).ports other = info.ports other := by
  cases transport <;> cases other <;> first | rfl | exact absurd rfl h

@[simp] theorem peerId_install : (info.install transport list).peerId = info.peerId := by
  cases transport <;> rfl

@[simp] theorem serverIp_install : (info.install transport list).serverIp = info.serverIp := by
  cases transport <;> rfl

@[simp] theorem serverPublicKey_install :
    (info.install transport list).serverPublicKey = info.serverPublicKey := by
  cases transport <;> rfl

@[simp] theorem ports_clearOthers :
    (info.clearOthers transport).ports transport = info.ports transport := by
  cases transport <;> rfl

theorem ports_clearOthers_of_ne {other : Transport} (h : other ≠ transport) :
    (info.clearOthers transport).ports other = [] := by
  cases transport <;> cases other <;> first | rfl | exact absurd rfl h

@[simp] theorem peerId_clearOthers : (info.clearOthers transport).peerId = info.peerId := by
  cases transport <;> rfl

@[simp] theorem serverIp_clearOthers : (info.clearOthers transport).serverIp = info.serverIp := by
  cases transport <;> rfl

@[simp] theorem serverPublicKey_clearOthers :
    (info.clearOthers transport).serverPublicKey = info.serverPublicKey := by
  cases transport <;> rfl

/-- The address and the ports of a transport, one by one. -/
def portsAt (info : PeerInfo) : List (IpAddr × UInt16) := (info.ports transport).map fun port =>
    (info.serverIp, port)

theorem portsAt_eq_nil : info.portsAt transport = [] ↔ info.ports transport = [] :=
  List.map_eq_nil_iff

end PeerInfo

/-- The address and the ports of a transport of the peer. -/
def PeerParams.portsAt (peer : PeerParams) (transport : Transport) : List (IpAddr × UInt16) :=
  match peer.served transport with
  | none => []
  | some endpoint => endpoint.ports.map fun port => (endpoint.entryIp, port)

/-! ## The loop over the transports -/

namespace KeyCodec

variable {peer : PeerParams} {key : Vector UInt8 32}

/-- What has been gathered of the transports done. -/
structure Gathered (peer : PeerParams) (key : Vector UInt8 32) (done : List Transport)
    (candidates : List PeerInfo) :
    Prop where
  id : ∀ info ∈ candidates, info.peerId = peer.id
  key : ∀ info ∈ candidates, info.serverPublicKey = key
  addresses : (candidates.map (·.serverIp)).Nodup
  ports : ∀ transport ∈ done, candidates.flatMap (·.portsAt transport) = peer.portsAt transport
  rest : ∀ transport ∉ done, ∀ info ∈ candidates, info.ports transport = []
  served : ∀ info ∈ candidates, ∃ transport ∈ done, info.ports transport ≠ []

theorem Gathered.start :
    Gathered peer key [] [] := ⟨by simp, by simp, by simp, by simp, by simp, by simp⟩

theorem served_ports {transport : Transport} {endpoint : TransportEndpoint}
    (h : peer.served transport = some endpoint) : endpoint.ports ≠ [] := by
  have := (Option.filter_eq_some_iff.mp h).2
  simpa using this

/-- The transport of a step is done then, and the others stay. -/
theorem Gathered.step {done : List Transport} {candidates : List PeerInfo} {transport : Transport}
    (h : Gathered peer key done candidates) (hnew : transport ∉ done) :
    Gathered peer key (transport :: done) (addTransport peer key candidates transport) := by
  cases hserved : peer.served transport with
  | none =>
    rw [addTransport, hserved]
    refine ⟨h.id, h.key, h.addresses, ?_, fun other hother => h.rest other fun hmem =>
      hother (.tail _ hmem), ?_⟩
    · intro other hother
      rcases List.mem_cons.mp hother with rfl | hother
      · rw [PeerParams.portsAt, hserved, List.flatMap_eq_nil_iff.mpr]
        exact fun info hinfo => (info.portsAt_eq_nil other).mpr (h.rest other hnew info hinfo)
      · exact h.ports other hother
    · intro info hinfo
      obtain ⟨other, hother, hports⟩ := h.served info hinfo
      exact ⟨other, .tail _ hother, hports⟩
  | some endpoint =>
    rw [addTransport, hserved]
    refine ⟨?_, ?_, ?_, ?_, ?_, ?_⟩
    · intro info hinfo
      rcases mem_upsert hinfo with hinfo | ⟨old, ⟨hold, -⟩ | rfl, rfl⟩
      · exact h.id info hinfo
      · simpa using h.id old hold
      · simp [freshInfo]
    · intro info hinfo
      rcases mem_upsert hinfo with hinfo | ⟨old, ⟨hold, -⟩ | rfl, rfl⟩
      · exact h.key info hinfo
      · simpa using h.key old hold
      · simp [freshInfo]
    · exact nodup_map_upsert (by simp) (by simp [freshInfo]) h.addresses
    · intro other hother
      by_cases heq : other = transport
      · subst heq
        rw [PeerParams.portsAt, hserved]
        refine flatMap_upsert_first ?_ ?_ ?_
        · exact fun info hinfo => (info.portsAt_eq_nil other).mpr (h.rest other hnew info hinfo)
        · intro info hfits
          simp [PeerInfo.portsAt, of_decide_eq_true hfits]
        · simp [PeerInfo.portsAt, freshInfo]
      · have hmem : other ∈ done := (List.mem_cons.mp hother).resolve_left heq
        rw [← h.ports other hmem]
        refine flatMap_upsert_same ?_ ?_
        · intro info
          simp [PeerInfo.portsAt, PeerInfo.ports_install_of_ne _ _ _ heq]
        · cases other <;> rfl
    · intro other hother info hinfo
      obtain ⟨hne, hdone⟩ := not_or.mp (mt List.mem_cons.mpr hother)
      rcases mem_upsert hinfo with hinfo | ⟨old, ⟨hold, -⟩ | rfl, rfl⟩
      · exact h.rest other hdone info hinfo
      · rw [PeerInfo.ports_install_of_ne _ _ _ hne, h.rest other hdone old hold]
      · rw [PeerInfo.ports_install_of_ne _ _ _ hne]
        cases other <;> rfl
    · intro info hinfo
      rcases mem_upsert hinfo with hinfo | ⟨old, -, rfl⟩
      · obtain ⟨other, hother, hports⟩ := h.served info hinfo
        exact ⟨other, .tail _ hother, hports⟩
      · exact ⟨transport, List.mem_cons_self, by simpa using served_ports hserved⟩

theorem gathered_gather : Gathered peer key [.tls, .tcp, .udp] (gather peer key) :=
  ((Gathered.start.step (by decide)).step (by decide)).step (by decide)

/-- The candidates have the ports of every transport at its address. -/
theorem portsAt_gather (transport : Transport) :
    (gather peer key).flatMap (·.portsAt transport) = peer.portsAt transport :=
  gathered_gather.ports transport (by cases transport <;> decide)

theorem map_suffixIds {β : Type*} {read : PeerInfo → β} {candidates : List PeerInfo}
    (h : ∀ (info : PeerInfo) id, read { info with peerId := id } = read info) :
    (suffixIds candidates).map read = candidates.map read := by
  rw [suffixIds]
  split_ifs
  · apply List.ext_getElem
    · simp
    · intro i hi hi'
      simp [h]
  · rfl

theorem mem_suffixIds {candidates : List PeerInfo} {info : PeerInfo}
    (h : info ∈ suffixIds candidates) :
    ∃ old ∈ candidates, ∃ id, info = { old with peerId := id } := by
  rw [suffixIds] at h
  split_ifs at h
  · obtain ⟨i, hi, rfl⟩ := List.mem_mapIdx.mp h
    exact ⟨candidates[i], List.getElem_mem hi, _, rfl⟩
  · exact ⟨info, h, info.peerId, rfl⟩

/-- The ids of the candidates differ, and each gives the caller's. -/
theorem ids_suffixIds {candidates : List PeerInfo} {id : String}
    (hid : ∀ info ∈ candidates, info.peerId = id) (hplain : ¬ EndsInDigits id) :
    ((suffixIds candidates).map (·.peerId)).Nodup ∧
      ∀ info ∈ suffixIds candidates, stablePeerId info.peerId = id := by
  rw [suffixIds]
  split_ifs with hlen
  · constructor
    · rw [List.nodup_iff_injective_getElem]
      intro i j hij
      simp only [List.getElem_map, List.getElem_mapIdx] at hij
      rw [hid _ (List.getElem_mem _), hid _ (List.getElem_mem _)] at hij
      exact Fin.ext (suffix_injective id hij)
    · intro info hinfo
      obtain ⟨i, hi, rfl⟩ := List.mem_mapIdx.mp hinfo
      rw [stablePeerId_suffix, hid _ (List.getElem_mem _)]
  · constructor
    · cases candidates with
      | nil => exact List.nodup_nil
      | cons info rest =>
        have hrest : rest = [] := by simpa using hlen
        rw [hrest]
        exact List.nodup_singleton _
    · intro info hinfo
      rw [hid info hinfo]
      exact stablePeerId_of_plain hplain

/-! ## The decoded peer -/

variable (K : KeyCodec)

/-- The peer's key, when it is base64 of 32 octets. -/
def keyOf (peer : PeerParams) : Option (Vector UInt8 32) :=
  match K.decode peer.publicKeyBase64 with
  | .error _ => none
  | .ok bytes => toArray32 bytes

/-- The candidates of the peer, none when it cannot be decoded. -/
def candidates (peer : PeerParams) : List PeerInfo :=
  match K.decodePeer peer with
  | .error _ => []
  | .ok infos => infos

variable {K}

theorem toArray32_eq_some {bytes : List UInt8} {key : Vector UInt8 32} :
    toArray32 bytes = some key ↔ key.toList = bytes := by
  rw [toArray32]
  constructor
  · intro h
    split_ifs at h
    cases h
    simp
  · rintro rfl
    rw [dif_pos (by simp)]
    apply congrArg some
    apply Vector.toArray_inj.mp
    exact Array.toArray_toList

theorem Lawful.peerKey (hK : K.Lawful) (bytes : List UInt8) :
    K.peerKey bytes = toArray32 bytes := by
  apply Option.ext
  intro key
  exact (hK bytes key).trans toArray32_eq_some.symm

theorem candidates_eq (hK : K.Lawful) (peer : PeerParams) :
    K.candidates peer = (K.keyOf peer).elim [] fun key => suffixIds (gather peer key) := by
  rw [candidates, decodePeer, keyOf]
  cases K.decode peer.publicKeyBase64 with
  | error text => rfl
  | ok bytes =>
    simp only [hK.peerKey]
    cases toArray32 bytes with
    | none => rfl
    | some key =>
      by_cases h : (suffixIds (gather peer key)).isEmpty = true
      · simp [List.isEmpty_iff.mp h]
      · simp [h]

/-- The candidates have the ports of every transport at its address, when the key can be decoded. -/
theorem portsAt_candidates (hK : K.Lawful) (peer : PeerParams) (transport : Transport) :
    (K.candidates peer).flatMap (·.portsAt transport) = (K.keyOf peer).elim [] fun _ =>
    peer.portsAt transport := by
  rw [candidates_eq hK]
  cases K.keyOf peer with
  | none => rfl
  | some key =>
    have hmap : (suffixIds (gather peer key)).map (·.portsAt transport) = (gather peer key).map
      (·.portsAt transport) :=
      map_suffixIds fun _ _ => by cases transport <;> rfl
    rw [Option.elim_some, Option.elim_some, List.flatMap_def, hmap, ← List.flatMap_def,
      portsAt_gather]

/-- The candidates of a decoded peer: its key, the ports of every transport at its address, some for
each candidate, and ids of their own that give the caller's. -/
structure Expands (peer : PeerParams) (key : Vector UInt8 32) (candidates : List PeerInfo) :
    Prop where
  key : ∀ info ∈ candidates, info.serverPublicKey = key
  served : ∀ info ∈ candidates, ∃ transport, info.ports transport ≠ []
  ports : ∀ transport, candidates.flatMap (·.portsAt transport) = peer.portsAt transport
  nodup : (candidates.map (·.peerId)).Nodup
  stable : ∀ info ∈ candidates, stablePeerId info.peerId = peer.id

/-- **The candidates of a peer.** -/
theorem candidates_spec (hK : K.Lawful) {peer : PeerParams} (hplain : ¬ EndsInDigits peer.id) :
    (K.keyOf peer = none ∧ K.candidates peer = []) ∨
      ∃ key, K.keyOf peer = some key ∧ Expands peer key (K.candidates peer) := by
  cases hkey : K.keyOf peer with
  | none => exact .inl ⟨rfl, by rw [candidates_eq hK, hkey]; rfl⟩
  | some key =>
    have hcandidates : K.candidates peer = suffixIds (gather peer key) := by
      rw [candidates_eq hK, hkey]
      rfl
    have hgathered : Gathered peer key [.tls, .tcp, .udp] (gather peer key) := gathered_gather
    obtain ⟨hnodup, hstable⟩ := ids_suffixIds hgathered.id hplain
    refine .inr ⟨key, rfl, ?_, ?_, ?_, hcandidates ▸ hnodup, hcandidates ▸ hstable⟩
    · intro info hinfo
      obtain ⟨old, hold, id, rfl⟩ := mem_suffixIds (hcandidates ▸ hinfo)
      exact hgathered.key old hold
    · intro info hinfo
      obtain ⟨old, hold, id, rfl⟩ := mem_suffixIds (hcandidates ▸ hinfo)
      obtain ⟨transport, -, hports⟩ := hgathered.served old hold
      exact ⟨transport, by cases transport <;> exact hports⟩
    · intro transport
      rw [portsAt_candidates hK, hkey]
      rfl

end KeyCodec

end ProtonWire.Translate
