import ProtonWire.Lib.Octets
import ProtonWire.Net.Enforcement

/-!
# What the kill switch lets through

The output chain of `render_rules` evaluated on outgoing packets, against the policy's own reading
of it. A payload expression loads the header bytes it names, and fails where the packet has none.

* `Packet`, `loadField`: a packet, and what the rules see of it;
* `Permitted`: what the policy lets through;
* **`accept_set_exact_iff`**: the chain accepts what the policy permits, and apart from IPv4 packets
  of another protocol than UDP that carry 67 where UDP has its destination port, nothing else.
-/

namespace ProtonWire

open Ruleset

/-! ## Packets -/

/-- The length of a header without options. -/
def Family.headerLength : Family → ℕ
  | v4 => 20
  | v6 => 40

/-- An outgoing packet: the bytes from its network header on, and those from its transport header
on, which a later fragment has none of. -/
structure Packet where
  oif : UInt32
  mark : UInt32
  family : Family
  network : List UInt8
  transport : List UInt8
  header : family.headerLength ≤ network.length

namespace Packet

/-- The destination address. -/
def destination (p : Packet) : List UInt8 :=
  match p.family with
  | .v4 => (p.network.drop 16).take 4
  | .v6 => (p.network.drop 24).take 16

/-- The protocol of an IPv4 packet. -/
def protocol (p : Packet) : UInt8 := p.network.getD 9 0

/-- The bytes where UDP has its destination port. -/
def destinationPort (p : Packet) : List UInt8 := (p.transport.drop 2).take 2

end Packet

/-- The bytes of a header's span, `none` past its end. -/
def span (bytes : List UInt8) (offset len : ℕ) : Option (List UInt8) :=
  if offset + len ≤ bytes.length then some ((bytes.drop offset).take len) else none

/-- What an expression loads. -/
def loadField : Field → Packet → Option (List UInt8)
  | .oif, p => some (toLeBytes p.oif)
  | .nfProto, p => some [p.family.nfProto]
  | .mark, p => some (toLeBytes p.mark)
  | .network offset len, p => span p.network offset len
  | .transport offset len, p => span p.transport offset len

/-! ## The policy's reading -/

/-- A prefix contains the addresses that begin with its bits. -/
def DestPrefix.contains (dest : DestPrefix) (octets : List UInt8) : Prop :=
  ∀ i < dest.len.toNat, Octets.bit octets i = Octets.bit dest.addr.octets i

instance (dest : DestPrefix) (octets : List UInt8) : Decidable (dest.contains octets) :=
  inferInstanceAs (Decidable (∀ i < dest.len.toNat, _))

/-- The interface, the family and the prefix of a LAN permit. -/
def LanPermit.permits (permit : LanPermit) (p : Packet) : Prop :=
  p.oif = permit.oif ∧ p.family = permit.dest.addr.family ∧ permit.dest.contains p.destination

instance (permit : LanPermit) (p : Packet) : Decidable (permit.permits p) :=
  inferInstanceAs (Decidable (_ ∧ _ ∧ _))

/-- An IPv4 packet with 67 where UDP has its destination port. -/
def Packet.toPort67 (p : Packet) : Prop := p.family = .v4 ∧ p.destinationPort = [0, 67]

instance (p : Packet) : Decidable p.toPort67 := inferInstanceAs (Decidable (_ ∧ _))

/-- What a policy lets through. The protocol number of UDP is 17. -/
def Permitted (lo : UInt32) (policy : KillSwitchPolicy) (p : Packet) : Prop :=
  p.oif = policy.tunIfindex ∨ p.oif = lo ∨
    (policy.allowDhcpV4 = true ∧ p.toPort67 ∧ p.protocol = 17) ∨
    (∃ permit ∈ policy.lanPermits, permit.permits p) ∨ p.mark = policy.bypassMark

/-- A packet passes through the chain as the policy reads. -/
def AcceptSetExact (lo : UInt32) (policy : KillSwitchPolicy) (p : Packet) : Prop :=
  ((∃ i, decideAt loadField p 0 (renderRules lo policy) = some (i, .accept)) ↔
   Permitted lo policy p) ∧
    (¬ Permitted lo policy p →
      decideAt loadField p 0 (renderRules lo policy) =
      some ((renderRules lo policy).length - 1, .drop)) ∧
    (renderRules lo policy).length = expectedRuleCount policy

/-- Not UDP, but let through as DHCP. -/
def StrayDhcp (lo : UInt32) (policy : KillSwitchPolicy) (p : Packet) : Prop :=
  policy.allowDhcpV4 = true ∧ p.toPort67 ∧ p.protocol ≠ 17 ∧ ¬ Permitted lo policy p

/-! ## Rules on packets -/

theorem toLeBytes_inj {a b : UInt32} : toLeBytes a = toLeBytes b ↔ a = b := by
  refine ⟨fun h => UInt32.toNat_inj.mp ?_, fun h => by rw [h]⟩
  have hbyte : ∀ w : UInt32, (toLeBytes w).map UInt8.toNat =
      [w.toNat % 256, w.toNat / 256 % 256, w.toNat / 65536 % 256, w.toNat / 16777216 % 256] :=
      fun w => by
    simp only [toLeBytes, List.map_cons, List.map_nil, UInt32.toNat_toUInt8,
      UInt32.toNat_shiftRight, Nat.shiftRight_eq_div_pow]
    rfl
  have hbytes := congrArg (List.map UInt8.toNat) h
  rw [hbyte, hbyte] at hbytes
  simp only [List.cons.injEq, and_true] at hbytes
  have ha := a.toNat_lt
  have hb := b.toNat_lt
  omega

theorem nfProto_inj {f g : Family} : f.nfProto = g.nfProto ↔ f = g := by
  cases f <;> cases g <;> decide

theorem prefixMask_eq (dest : DestPrefix) :
    prefixMask dest = Octets.mask dest.addr.octets.length dest.len.toNat := by
  refine List.ext_getElem (by rw [prefixMask, List.length_mapIdx, Octets.length_mask])
    fun i _ _ => ?_
  simp only [prefixMask, List.getElem_mapIdx, Octets.mask, List.getElem_map, List.getElem_range]
  rfl

variable {lo : UInt32} {policy : KillSwitchPolicy} {p : Packet}

theorem evalRule_word {field : Field} {word : UInt32}
    (hload : loadField field p = some (toLeBytes word))
    (register : List UInt8) (value : UInt32) (rule : Rule Field) :
    evalRule loadField p register (.load field :: .compare (toLeBytes value) :: rule) =
      if word = value then evalRule loadField p (toLeBytes word) rule else none := by
  rw [evalRule_guard hload]
  exact if_congr toLeBytes_inj rfl rfl

theorem evalRule_family (register : List UInt8) (family : Family) (rule : Rule Field) :
    evalRule loadField p register (.load .nfProto :: .compare [family.nfProto] :: rule) =
      if p.family = family then evalRule loadField p [p.family.nfProto] rule else none := by
  rw [evalRule_guard rfl]
  refine if_congr ?_ rfl rfl
  rw [← nfProto_inj (f := p.family)]
  exact ⟨fun h => (List.cons.inj h).1, fun h => by rw [h]; rfl⟩

theorem evalRule_allowOif (ifindex : UInt32) :
    evalRule loadField p [] (allowOif ifindex) = if p.oif = ifindex then some .accept else none :=
  evalRule_word rfl [] ifindex _

theorem evalRule_bypassRule (mark : UInt32) :
    evalRule loadField p [] (bypassRule mark) = if p.mark = mark then some .accept else none :=
  evalRule_word rfl [] mark _

theorem evalRule_terminalRule : evalRule loadField p [] terminalRule = some .drop := rfl

/-- The probe rule counts and decides nothing. -/
theorem evalRule_probeRule : evalRule loadField p [] probeRule = none := by
  rw [probeRule, show [2] = [Family.v4.nfProto] from rfl, evalRule_family]
  split_ifs with hfamily
  · rw [evalRule]
    cases loadField .ipv4Daddr p with
    | none => rfl
    | some bytes =>
      dsimp only
      rw [evalRule]
      split_ifs <;> rfl
  · rfl

/-- The rule reads no protocol: a packet of any protocol with 67 in these bytes passes. -/
theorem evalRule_dhcpRule :
    evalRule loadField p [] dhcpRule = if p.toPort67 then some .accept else none := by
  rw [dhcpRule, show [2] = [Family.v4.nfProto] from rfl, evalRule_family]
  by_cases hfamily : p.family = .v4
  · rw [if_pos hfamily, evalRule, loadField.eq_def]
    dsimp only [Field.udpDport]
    rw [span]
    by_cases hlen : 2 + 2 ≤ p.transport.length
    · rw [if_pos hlen]
      dsimp only
      rw [evalRule]
      refine if_congr ?_ rfl rfl
      rw [List.take_of_length_le (by simp [toBeBytes])]
      exact ⟨fun h => ⟨hfamily, h⟩, fun h => h.2⟩
    · rw [if_neg hlen, if_neg]
      rintro ⟨-, hport⟩
      have hshort := congrArg List.length hport
      simp only [Packet.destinationPort, List.length_take, List.length_drop, List.length_cons,
        List.length_nil] at hshort
      omega
  · rw [if_neg hfamily, if_neg fun h => hfamily h.1]

/-- The destination a LAN permit loads. -/
def IpAddr.daddr : IpAddr → Field
  | v4 _ => .ipv4Daddr
  | v6 _ => .ipv6Daddr

theorem renderLanPermit_eq (permit : LanPermit) :
    renderLanPermit permit = .load .oif :: .compare (toLeBytes permit.oif) :: .load .nfProto ::
      .compare [permit.dest.addr.family.nfProto] :: .load permit.dest.addr.daddr ::
      .bitwise (prefixMask permit.dest) (List.replicate (prefixMask permit.dest).length 0) ::
      .compare (networkAddress permit.dest) :: [.verdict .accept] := by
  unfold renderLanPermit
  cases permit.dest.addr <;> rfl

theorem loadField_daddr {addr : IpAddr} (h : p.family = addr.family) :
    loadField addr.daddr p = some p.destination ∧ p.destination.length = addr.octets.length := by
  have hheader := p.header
  rw [Packet.destination]
  cases addr <;> rw [h] at hheader ⊢ <;>
    simp only [Family.headerLength, IpAddr.family, IpAddr.octets, IpAddr.daddr, Field.ipv4Daddr,
      Field.ipv6Daddr, loadField, span, Vector.length_toList, List.length_take,
      List.length_drop] at hheader ⊢
  · exact ⟨if_pos (by omega), by omega⟩
  · exact ⟨if_pos (by omega), by omega⟩

theorem zipWith_xor_zero (xs : List UInt8) (n : ℕ) (h : xs.length = n) :
    List.zipWith (· ^^^ ·) xs (List.replicate n 0) = xs := by
  induction xs generalizing n with
  | nil => rw [← h]; rfl
  | cons x xs ih =>
    rw [← h, List.length_cons, List.replicate_succ, List.zipWith_cons_cons, ih _ rfl,
      UInt8.xor_zero]

theorem evalRule_renderLanPermit (permit : LanPermit) :
    evalRule loadField p [] (renderLanPermit permit) = if permit.permits p then some .accept
    else none := by
  rw [renderLanPermit_eq, evalRule_word rfl, evalRule_family]
  by_cases hoif : p.oif = permit.oif
  · by_cases hfamily : p.family = permit.dest.addr.family
    · obtain ⟨hload, hlen⟩ := loadField_daddr hfamily
      have hmask : (prefixMask permit.dest).length = permit.dest.addr.octets.length := by
        rw [prefixMask_eq, Octets.length_mask]
      rw [if_pos hoif, if_pos hfamily, evalRule, hload]
      dsimp only
      rw [evalRule, zipWith_xor_zero _ _ (by rw [List.length_zipWith]; omega), evalRule]
      refine if_congr ?_ rfl rfl
      rw [List.take_of_length_le
        (by rw [networkAddress, List.length_zipWith, List.length_zipWith]; omega),
        networkAddress, prefixMask_eq, Octets.zipWith_and_mask_eq_iff hlen rfl]
      exact ⟨fun h => ⟨hoif, hfamily, h⟩, fun h => h.2.2⟩
    · rw [if_pos hoif, if_neg hfamily, if_neg fun h => hfamily h.2.1]
  · rw [if_neg hoif, if_neg fun h => hoif h.1]

/-! ## The chain -/

/-- The rules before the terminal drop. -/
def permitRules (lo : UInt32) (policy : KillSwitchPolicy) : List (Rule Field) :=
  [allowOif policy.tunIfindex, allowOif lo] ++ (if policy.allowDhcpV4 then [dhcpRule] else []) ++
    policy.lanPermits.map renderLanPermit ++ [bypassRule policy.bypassMark, probeRule]

theorem renderRules_eq : renderRules lo policy = permitRules lo policy ++ [terminalRule] := by
  rw [renderRules, permitRules, List.append_assoc _ _ [terminalRule]]
  rfl

theorem forall_permitRules {motive : Rule Field → Prop} (oif : ∀ ifindex, motive (allowOif ifindex))
    (dhcp : motive dhcpRule) (lan : ∀ permit, motive (renderLanPermit permit))
    (mark : ∀ mark, motive (bypassRule mark))
    (probe : motive probeRule) : ∀ rule ∈ permitRules lo policy, motive rule := by
  intro rule hrule
  simp only [permitRules, List.mem_append, List.mem_cons, List.not_mem_nil, or_false,
    List.mem_map] at hrule
  rcases hrule with ((hoif | hdhcp) | ⟨permit, -, rfl⟩) | rfl | rfl
  · rcases hoif with rfl | rfl <;> exact oif _
  · split_ifs at hdhcp
    · rwa [List.mem_singleton.mp hdhcp]
    · cases hdhcp
  · exact lan permit
  · exact mark _
  · exact probe

theorem evalRule_ne_drop :
    ∀ rule ∈ permitRules lo policy, evalRule loadField p [] rule ≠ some .drop := by
  refine forall_permitRules (fun ifindex => ?_) ?_ (fun permit => ?_) (fun mark => ?_) ?_
  · rw [evalRule_allowOif]; split_ifs <;> nofun
  · rw [evalRule_dhcpRule]; split_ifs <;> nofun
  · rw [evalRule_renderLanPermit]; split_ifs <;> nofun
  · rw [evalRule_bypassRule]; split_ifs <;> nofun
  · rw [evalRule_probeRule]; nofun

/-- What the chain accepts: what the policy permits, but DHCP of any protocol. -/
theorem exists_accepts_iff :
    (∃ rule ∈ permitRules lo policy, evalRule loadField p [] rule = some .accept) ↔
      Permitted lo policy p ∨ policy.allowDhcpV4 = true ∧ p.toPort67 := by
  have hiff : ∀ {P : Prop} [Decidable P],
    ((if P then some Verdict.accept else none) = some .accept ↔ P) := by
    intro P _
    split_ifs with h <;> simp [h]
  constructor
  · rintro ⟨rule, hrule, heval⟩
    simp only [permitRules, List.mem_append, List.mem_cons, List.not_mem_nil, or_false,
      List.mem_map] at hrule
    rcases hrule with ((hoif | hdhcp) | ⟨permit, hmem, rfl⟩) | rfl | rfl
    · rcases hoif with rfl | rfl <;> rw [evalRule_allowOif, hiff] at heval
      · exact Or.inl (Or.inl heval)
      · exact Or.inl (Or.inr (Or.inl heval))
    · split_ifs at hdhcp with hallow
      · rw [List.mem_singleton.mp hdhcp, evalRule_dhcpRule, hiff] at heval
        exact Or.inr ⟨hallow, heval⟩
      · cases hdhcp
    · rw [evalRule_renderLanPermit, hiff] at heval
      exact Or.inl (Or.inr (Or.inr (Or.inr (Or.inl ⟨permit, hmem, heval⟩))))
    · rw [evalRule_bypassRule, hiff] at heval
      exact Or.inl (Or.inr (Or.inr (Or.inr (Or.inr heval))))
    · rw [evalRule_probeRule] at heval
      cases heval
  · have hdhcp : policy.allowDhcpV4 = true → dhcpRule ∈ permitRules lo policy := fun hallow => by
      simp [permitRules, hallow]
    rintro ((htun | hlo | ⟨hallow, hport, -⟩ | ⟨permit, hmem, hpermit⟩ | hmark) | ⟨hallow, hport⟩)
    · exact ⟨allowOif policy.tunIfindex, by
        simp [permitRules], by rw [evalRule_allowOif, hiff]; exact htun⟩
    · exact ⟨allowOif lo, by simp [permitRules], by rw [evalRule_allowOif, hiff]; exact hlo⟩
    · exact ⟨dhcpRule, hdhcp hallow, by rw [evalRule_dhcpRule, hiff]; exact hport⟩
    · refine ⟨renderLanPermit permit, ?_, by rw [evalRule_renderLanPermit, hiff]; exact hpermit⟩
      exact List.mem_append_left _ (List.mem_append_right _ (List.mem_map_of_mem hmem))
    · exact ⟨bypassRule policy.bypassMark, by
        simp [permitRules], by rw [evalRule_bypassRule, hiff]; exact hmark⟩
    · exact ⟨dhcpRule, hdhcp hallow, by rw [evalRule_dhcpRule, hiff]; exact hport⟩

/-- **The chain is the policy, with a DHCP permit that reads no protocol**: a packet passes as the
policy reads unless it is IPv4, not UDP, permitted by nothing, and carries 67 where UDP has its
destination port while DHCP is allowed. -/
theorem accept_set_exact_iff (lo : UInt32) (policy : KillSwitchPolicy) (p : Packet) :
    AcceptSetExact lo policy p ↔ ¬ StrayDhcp lo policy p := by
  have hpermits : ∀ rule ∈ permitRules lo policy, evalRule loadField p [] rule ≠ some .drop :=
    evalRule_ne_drop
  obtain ⟨haccept, hdrop⟩ := decideAt_permits hpermits evalRule_terminalRule
  rw [← renderRules_eq, exists_accepts_iff] at haccept hdrop
  constructor
  · rintro ⟨hexact, -, -⟩ ⟨hallow, hport, -, hnot⟩
    exact hnot (hexact.mp (haccept.mpr (Or.inr ⟨hallow, hport⟩)))
  · intro hstray
    -- what the DHCP rule lets through is UDP, or permitted otherwise
    have hdhcp : policy.allowDhcpV4 = true ∧ p.toPort67 → Permitted lo policy p := by
      rintro ⟨hallow, hport⟩
      by_contra hnot
      by_cases hudp : p.protocol = 17
      · exact hnot (Or.inr (Or.inr (Or.inl ⟨hallow, hport, hudp⟩)))
      · exact hstray ⟨hallow, hport, hudp, hnot⟩
    refine ⟨haccept.trans ⟨fun h => h.elim id hdhcp, Or.inl⟩, fun hnot => ?_,
      KillSwitch.length_renderRules lo policy⟩
    rw [hdrop fun h => hnot (h.elim id hdhcp)]
    rw [renderRules_eq, List.length_append]
    rfl

/-- DHCP is allowed and nothing else off the tunnel. -/
def dhcpPolicy : KillSwitchPolicy := ⟨5, true, [], 0x21⟩

/-- A TCP segment to port 67 of 203.0.113.7, out of the uplink. -/
def tcpToPort67 : Packet where
  oif := 2
  mark := 0
  family := .v4
  network := [0x45, 0, 0, 40, 0, 0, 0x40, 0, 64, 6, 0, 0, 10, 0, 0, 2, 203, 0, 113, 7]
  transport := [0xC0, 0, 0, 67, 0, 0, 0, 1, 0, 0, 0, 0, 0x50, 2, 0xFF, 0xFF, 0, 0, 0, 0]
  header := by decide

theorem tcpToPort67_passes :
    KillSwitch.checkPolicy dhcpPolicy = .ok () ∧ tcpToPort67.protocol ≠ 17 ∧
    decideAt loadField tcpToPort67 0 (renderRules 1 dhcpPolicy) = some (2, .accept) ∧
    ¬ AcceptSetExact 1 dhcpPolicy tcpToPort67 := by
  have haccepts : decideAt loadField tcpToPort67 0 (renderRules 1 dhcpPolicy) =
    some (2, .accept) := by decide
  refine ⟨rfl, by decide, haccepts, fun hexact => ?_⟩
  exact (by unfold Permitted; decide : ¬ Permitted 1 dhcpPolicy tcpToPort67)
    (hexact.1.mp ⟨2, haccepts⟩)

end ProtonWire
