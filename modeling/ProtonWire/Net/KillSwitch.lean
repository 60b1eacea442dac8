import ProtonWire.Lib.Ruleset
import ProtonWire.Net.RouteTxn

/-!
# The kill switch

`crates/net/src/kill_switch.rs` and the early firewall of `permanent.rs`: the `protonwire` table
whose output chain drops, replaced in one batch, and owned through the marker chain of the
generation that created it.

The host is little-endian. Which netlink exchange of a call fails, the interface indices and what
the probe counter reads are the environment's (`NetfilterEnv`).

* `renderRules`: the output chain, as rules over packet fields;
* `decideLive`: whether a live table may be replaced or removed;
* `prepare`, `validate`, `enforcementProbe`, `apply`, `remove`.
-/

namespace ProtonWire

open Ruleset (Expr Rule Verdict)

/-! ## Policies -/

/-- One LAN access permit. -/
structure LanPermit where
  dest : DestPrefix
  oif : UInt32
  deriving DecidableEq

/-- What the kill switch lets through. -/
structure KillSwitchPolicy where
  tunIfindex : UInt32
  /-- IPv4 DHCP bootstrap, udp/67. -/
  allowDhcpV4 : Bool
  lanPermits : List LanPermit
  bypassMark : UInt32
  deriving DecidableEq

/-- Every failure fails closed. -/
inductive KillSwitchError where
  | lookalike
  | netfilter (error : String)
  | validation (reason : String)
  | missingInterface (name : String)
  deriving DecidableEq

/-- The octets of an address. -/
def IpAddr.octets : IpAddr → List UInt8
  | v4 octets => octets.toList
  | v6 octets => octets.toList

/-- The address's width in bits. -/
def IpAddr.width : IpAddr → UInt8
  | v4 _ => 32
  | v6 _ => 128

/-- The first of the longest runs of zero segments: where it starts and how long it is. -/
def zeroRun : ℕ → ℕ → List ℕ → ℕ × ℕ
  | _, _, [] => (0, 0)
  | at_, run, segment :: segments =>
    let run' := if segment = 0 then run + 1 else 0
    let rest := zeroRun (at_ + 1) run' segments
    if rest.2 ≤ run' then (at_ + 1 - run', run') else rest

/-- The address as it prints. The longest run of two or more zero segments of an IPv6 address is
elided, and an IPv4-mapped address ends in dotted octets. -/
def IpAddr.display (addr : IpAddr) : String :=
  let dotted (octets : List UInt8) := ".".intercalate (octets.map fun octet => toString octet)
  match addr with
  | v4 octets => dotted octets.toList
  | v6 octets =>
    let segments := (List.range 8).map fun i =>
      (octets.toList.getD (2 * i) 0).toNat * 256 + (octets.toList.getD (2 * i + 1) 0).toNat
    let hex (segments : List ℕ) := ":".intercalate (segments.map fun n =>
      String.ofList (Nat.toDigits 16 n))
    if segments.take 6 = [0, 0, 0, 0, 0, 0xffff] then "::ffff:" ++ dotted (octets.toList.drop 12)
    else
      let run := zeroRun 0 0 segments
      if 1 < run.2 then hex (segments.take run.1) ++ "::" ++ hex (segments.drop (run.1 + run.2))
      else hex segments

/-! ## Rules -/

/-- The packet fields the rules load. A payload is a span of a header. -/
inductive Field where
  | oif
  | nfProto
  | mark
  | network (offset len : ℕ)
  | transport (offset len : ℕ)
  deriving DecidableEq

namespace Field

/-- `IPv4HeaderField::Daddr`. -/
def ipv4Daddr : Field := network 16 4

/-- `IPv6HeaderField::Daddr`. -/
def ipv6Daddr : Field := network 24 16

/-- `UDPHeaderField::Dport`. -/
def udpDport : Field := transport 2 2

end Field

/-- The bytes of a word, lowest first. -/
def toLeBytes (word : UInt32) : List UInt8 :=
  [word.toUInt8, (word >>> 8).toUInt8, (word >>> 16).toUInt8, (word >>> 24).toUInt8]

/-- The bytes of a port, highest first. -/
def toBeBytes (port : UInt16) : List UInt8 := [(port >>> 8).toUInt8, port.toUInt8]

/-- `NFPROTO_IPV4` and `NFPROTO_IPV6`. -/
def Family.nfProto : Family → UInt8
  | v4 => 2
  | v6 => 10

def allowOif (ifindex : UInt32) : Rule Field :=
  [.load .oif, .compare (toLeBytes ifindex), .verdict .accept]

/-- The netmask of a prefix in network order. -/
def prefixMask (dest : DestPrefix) : List UInt8 :=
  dest.addr.octets.mapIdx fun index _ =>
    let covered := dest.len.toNat - index * 8
    if covered = 0 then 0 else if 8 ≤ covered then 0xff else 0xff <<< (8 - covered).toUInt8

/-- The network address of a prefix in network order. -/
def networkAddress (dest : DestPrefix) : List UInt8 :=
  List.zipWith (· &&& ·) dest.addr.octets (prefixMask dest)

/-- One LAN permit: the interface, the family and the prefix. -/
def renderLanPermit (permit : LanPermit) : Rule Field :=
  let mask := prefixMask permit.dest
  [.load .oif, .compare (toLeBytes permit.oif)] ++
    (match permit.dest.addr with
    | .v4 _ => [.load .nfProto, .compare [2], .load .ipv4Daddr]
    | .v6 _ => [.load .nfProto, .compare [10], .load .ipv6Daddr]) ++
    [.bitwise mask (List.replicate mask.length 0), .compare (networkAddress permit.dest),
     .verdict .accept]

/-- The probe's destination. -/
def probeDestination : List UInt8 := [192, 0, 2, 1]

/-- The DHCP permit. -/
def dhcpRule : Rule Field :=
  [.load .nfProto, .compare [2], .load .udpDport, .compare (toBeBytes 67), .verdict .accept]

/-- The rule of the bypass mark. -/
def bypassRule (mark : UInt32) : Rule Field :=
  [.load .mark, .compare (toLeBytes mark), .verdict .accept]

/-- The probe counter, which decides nothing. -/
def probeRule : Rule Field :=
  [.load .nfProto, .compare [2], .load .ipv4Daddr, .compare probeDestination, .counter]

/-- The counted terminal drop. -/
def terminalRule : Rule Field := [.counter, .verdict .drop]

/-- The output chain's rules in evaluation order. `lo` is the index of the loopback interface. -/
def renderRules (lo : UInt32) (policy : KillSwitchPolicy) : List (Rule Field) :=
  [allowOif policy.tunIfindex, allowOif lo] ++ (if policy.allowDhcpV4 then [dhcpRule] else []) ++
    policy.lanPermits.map renderLanPermit ++ [bypassRule policy.bypassMark, probeRule, terminalRule]

/-- How many rules a policy renders to. -/
def expectedRuleCount (policy : KillSwitchPolicy) : ℕ :=
  2 + (if policy.allowDhcpV4 then 1 else 0) + policy.lanPermits.length + 1 + 1 + 1

/-! ## Tables -/

def tableName : String := "protonwire"

def outputChain : String := "pw-output"

def markerPrefix : String := "pw-gen-"

/-- The generation of one apply. -/
structure GenerationId where
  id : UInt64
  deriving DecidableEq

/-- The value of a hexadecimal digit of either case. -/
def hexValue (c : Char) : Option ℕ :=
  if '0' ≤ c ∧ c ≤ '9' then some (c.toNat - '0'.toNat)
  else if 'a' ≤ c ∧ c ≤ 'f' then some (c.toNat - 'a'.toNat + 10)
  else if 'A' ≤ c ∧ c ≤ 'F' then some (c.toNat - 'A'.toNat + 10)
  else none

namespace GenerationId

/-- The generation as it prints in an error. -/
def debug (generation : GenerationId) : String := s!"GenerationId({generation.id})"

/-- The lowest `count` hexadecimal digits of a number, the highest first. -/
def hexDigits : ℕ → ℕ → List Char
  | 0, _ => []
  | count + 1, n => hexDigits count (n / 16) ++ [Nat.digitChar (n % 16)]

/-- The marker chain's name. -/
def markerChainName (generation : GenerationId) : String :=
  markerPrefix ++ String.ofList (hexDigits 16 generation.id.toNat)

/-- The generation of a marker chain, `none` for any other name. -/
def fromChainName (name : String) : Option GenerationId :=
  if markerPrefix.toList.isPrefixOf name.toList then
    let hex := name.toList.drop markerPrefix.length
    if hex.length = 16 then
      (hex.mapM hexValue).map fun digits =>
      ⟨UInt64.ofNat (digits.foldl (fun value digit => value * 16 + digit) 0)⟩
    else none
  else none

theorem length_hexDigits (count n : ℕ) : (hexDigits count n).length = count := by
  induction count generalizing n with
  | zero => rfl
  | succ count ih => rw [hexDigits, List.length_append, ih]; rfl

theorem hexValue_digitChar {n : ℕ} (hn : n < 16) : hexValue (Nat.digitChar n) = some n := by
  have hall : ∀ i : Fin 16, hexValue (Nat.digitChar i) = some i.val := by decide
  exact hall ⟨n, hn⟩

theorem read_hexDigits (count n : ℕ) : ∃ digits, (hexDigits count n).mapM hexValue = some digits ∧
    digits.foldl (fun value digit => value * 16 + digit) 0 = n % 16 ^ count := by
  induction count generalizing n with
  | zero => exact ⟨[], rfl, (Nat.mod_one n).symm⟩
  | succ count ih =>
    obtain ⟨digits, hread, hvalue⟩ := ih (n / 16)
    refine ⟨digits ++ [n % 16], ?_, ?_⟩
    · rw [hexDigits, List.mapM_append, hread, List.mapM_cons,
        hexValue_digitChar (Nat.mod_lt _ (by decide))]
      rfl
    · rw [List.foldl_append, hvalue, pow_succ', Nat.mod_mul]
      simp only [List.foldl_cons, List.foldl_nil]
      ring

/-- **A marker chain names its generation.** -/
theorem fromChainName_markerChainName (generation : GenerationId) :
    fromChainName generation.markerChainName = some generation := by
  obtain ⟨digits, hread, hvalue⟩ := read_hexDigits 16 generation.id.toNat
  have hlist : generation.markerChainName.toList = markerPrefix.toList ++
    hexDigits 16 generation.id.toNat := by
    rw [markerChainName, String.toList_append, String.toList_ofList]
  rw [fromChainName, hlist, if_pos (List.isPrefixOf_iff_prefix.mpr (List.prefix_append _ _)),
    ← String.length_toList, List.drop_left]
  dsimp only
  rw [if_pos (length_hexDigits _ _), hread, Option.map_some, hvalue,
    Nat.mod_eq_of_lt (lt_of_lt_of_le generation.id.toNat_lt (by norm_num))]
  rw [UInt64.ofNat_toNat]

end GenerationId

/-- What apply does with the table it finds. -/
inductive ApplyDecision where
  | freshApply
  | replaceOwned (generation : GenerationId)
  | refuseLookalike
  deriving DecidableEq

/-- The live table's markers must be exactly the persisted generation. -/
def decideLive (tableMarkers : Option (List GenerationId)) (persistedPrior : Option GenerationId) :
    ApplyDecision :=
  match tableMarkers, persistedPrior with
  | none, _ => .freshApply
  | some [], _ => .refuseLookalike
  | some [marker], some prior => if marker = prior then .replaceOwned marker else .refuseLookalike
  | _, _ => .refuseLookalike

/-- The hook of a base chain. -/
inductive Hook where
  | out
  | other (hook : UInt32)
  deriving DecidableEq

/-- A chain. A chain without a hook is not a base chain. -/
structure Chain where
  name : String
  hook : Option Hook := none
  policy : Verdict := .accept
  rules : List (Rule Field) := []
  deriving DecidableEq

/-- The family of a table. -/
inductive ProtocolFamily where
  | inet
  | other (family : UInt16)
  deriving DecidableEq

/-- A table. -/
structure Table where
  family : ProtocolFamily
  name : String
  chains : List Chain
  deriving DecidableEq

/-- The live tables. -/
abbrev Nft := List Table

/-- The table of one apply. -/
def ownTable (generation : GenerationId) (rules : List (Rule Field)) : Table where
  family := .inet
  name := tableName
  chains := [{ name := generation.markerChainName },
    { name := outputChain, hook := some .out, policy := .drop, rules := rules }]

/-- The netlink and socket calls of an apply or a remove. -/
inductive NftCall where
  | tables
  | markers
  | send
  | validateTables
  | validateMarkers
  | validateChains
  | validateRules
  | probeTables (sent : Bool)
  | probeChains (sent : Bool)
  | probeRules (sent : Bool)
  | bind
  | bindToDevice (uplink : String)
  deriving DecidableEq

/-- What the environment answers during one call. -/
structure NetfilterEnv where
  ifaceIndex : String → Except String UInt32
  fails : NftCall → Option String
  /-- The probe counter, before the probe is sent and after. -/
  counted : Bool → ℕ

/-- An exchange that may fail, with the text before its error. -/
def NetfilterEnv.exchange (env : NetfilterEnv) (call : NftCall) (context : String := "") :
    Except KillSwitchError Unit :=
  match env.fails call with
  | some error => .error (.netfilter (context ++ error))
  | none => .ok ()

namespace KillSwitch

/-- The tables that carry our name, of any family. -/
def tablesNamedUs (env : NetfilterEnv) (call : NftCall) (nft : Nft) :
    Except KillSwitchError (List Table) := do
  env.exchange call
  .ok (nft.filter fun table => table.name = tableName)

/-- The marker generations of a table. -/
def markerGenerations (env : NetfilterEnv) (call : NftCall) (table : Table) :
    Except KillSwitchError (List GenerationId) := do
  env.exchange call
  .ok (table.chains.filterMap fun chain => GenerationId.fromChainName chain.name)

/-- A policy that must not reach the kernel: a zero mark matches every unmarked packet, a prefix of
length zero is the whole interface, and a longer prefix than the address clamps. -/
def checkPolicy (policy : KillSwitchPolicy) : Except KillSwitchError Unit :=
  if policy.bypassMark = 0 then
    .error (.validation
      ("bypass_mark is zero — `meta mark 0 accept` would match every unmarked packet " ++
      "and hollow the kill switch (FR-61); pass the daemon's real mark"))
  else
    match policy.lanPermits.find? fun permit => permit.dest.len = 0 ||
    permit.dest.addr.width < permit.dest.len with
    | some permit =>
      .error (.validation
        (s!"LAN permit {permit.dest.addr.display}/{permit.dest.len} is not a usable prefix " ++
        s!"(width {permit.dest.addr.width}) — a /0 permit is interface-only and an over-wide length silently clamps"))
    | none => .ok ()

/-- The index of the loopback interface. -/
def loopback (env : NetfilterEnv) : Except KillSwitchError UInt32 :=
  (env.ifaceIndex "lo").mapError .netfilter

/-- Everything `apply` does before it sends its batch: the tables the batch leaves. -/
def prepare (env : NetfilterEnv) (tunIfname : String) (policy : KillSwitchPolicy)
    (generation : GenerationId)
    (persistedPrior : Option GenerationId) (nft : Nft) : Except KillSwitchError Nft := do
  checkPolicy policy
  let tunIfindex ← (env.ifaceIndex tunIfname).mapError fun _ => .missingInterface tunIfname
  let named ← tablesNamedUs env .tables nft
  match named with
  | _ :: _ :: _ => .error .lookalike
  | [] =>
    let lo ← loopback env
    .ok (nft ++ [ownTable generation (renderRules lo { policy with tunIfindex := tunIfindex })])
  | [existing] =>
    let markers ← markerGenerations env .markers existing
    match decideLive (some markers) persistedPrior with
    | .refuseLookalike => .error .lookalike
    | _ =>
      let lo ← loopback env
      .ok (nft.erase existing ++
        [ownTable generation (renderRules lo { policy with tunIfindex := tunIfindex })])

/-- The rule count of the output chains of a table. -/
def checkRuleCounts (env : NetfilterEnv) (policy : KillSwitchPolicy) :
    List Chain → Except KillSwitchError Bool
  | [] => .ok false
  | chain :: chains =>
    if chain.name = outputChain then do
      env.exchange .validateRules
      if chain.rules.length ≠ expectedRuleCount policy then
        .error (.validation
          s!"rule count {chain.rules.length} != the rendered {expectedRuleCount policy}")
      else do
        let _ ← checkRuleCounts env policy chains
        .ok true
    else checkRuleCounts env policy chains

/-- Re-dump the live table and prove what was applied. -/
def validate (env : NetfilterEnv) (policy : KillSwitchPolicy) (generation : GenerationId)
    (nft : Nft) :
    Except KillSwitchError Unit := do
  let named ← tablesNamedUs env .validateTables nft
  match named with
  | _ :: _ :: _ => .error (.validation "multiple protonwire tables — ambiguous, refusing")
  | [] => .error (.validation "no protonwire table exists")
  | [table] =>
    let markers ← markerGenerations env .validateMarkers table
    if markers ≠ [generation] then
      .error (.validation (s!"marker mismatch: expected [{generation.debug}], found [" ++
        ", ".intercalate (markers.map GenerationId.debug) ++ "]"))
    else
      env.exchange .validateChains
      if ← checkRuleCounts env policy table.chains then .ok ()
      else .error (.validation "the output base chain is missing")

/-- The probe rule: it counts and has no verdict. -/
def isProbeRule (rule : Rule Field) : Bool :=
  rule.any (fun | .counter => true | _ => false) && !rule.any fun | .verdict _ => true | _ => false

/-- The packets the probe rule counted, before or after the probe was sent. -/
def droppedPackets (env : NetfilterEnv) (sent : Bool) (nft : Nft) : Except KillSwitchError ℕ := do
  let named ← tablesNamedUs env (.probeTables sent) nft
  match named with
  | _ :: _ :: _ => .error (.validation "multiple protonwire tables — ambiguous evidence")
  | [] => .error (.validation "no protonwire table")
  | [table] =>
    env.exchange (.probeChains sent)
    match table.chains.filter fun chain => chain.name = outputChain with
    | [] => .error (.validation "the probe counter rule is missing")
    | chains =>
      env.exchange (.probeRules sent)
      if chains.any fun chain => chain.rules.any isProbeRule then .ok (env.counted sent)
      else .error (.validation "the probe counter rule is missing")

/-- One probe out of the uplink must die at the counted drop. -/
def enforcementProbe (env : NetfilterEnv) (uplinkIfname : String) (nft : Nft) :
    Except KillSwitchError Unit := do
  let before ← droppedPackets env false nft
  env.exchange .bind
  env.exchange (.bindToDevice uplinkIfname) "SO_BINDTODEVICE: "
  let after ← droppedPackets env true nft
  if before < after then .ok ()
  else .error (.validation ("the enforcement probe egressed the uplink and was NOT dropped — " ++
    "the kill switch is not enforced"))

/-- What `apply` does once its batch is in. -/
def verify (env : NetfilterEnv) (uplinkIfname : String) (policy : KillSwitchPolicy)
    (generation : GenerationId) (nft : Nft) : Except KillSwitchError Unit := do
  validate env policy generation nft
  enforcementProbe env uplinkIfname nft

/-- Install the kill switch at a generation, in one batch. -/
def apply (env : NetfilterEnv) (tunIfname uplinkIfname : String) (policy : KillSwitchPolicy)
    (generation : GenerationId) (persistedPrior : Option GenerationId) (nft : Nft) :
    Except KillSwitchError Unit × Nft :=
  match prepare env tunIfname policy generation persistedPrior nft with
  | .error error => (.error error, nft)
  | .ok nft' =>
    match env.fails .send with
    | some error => (.error (.netfilter error), nft)
    | none => (verify env uplinkIfname policy generation nft', nft')

/-- What `remove` does before it sends its batch: the tables the batch leaves, or none to send. -/
def prepareRemove (env : NetfilterEnv) (persistedPrior : Option GenerationId) (nft : Nft) :
    Except KillSwitchError (Option Nft) := do
  let named ← tablesNamedUs env .tables nft
  match named with
  | _ :: _ :: _ => .error .lookalike
  | [] => .ok none
  | [table] =>
    let markers ← markerGenerations env .markers table
    match decideLive (some markers) persistedPrior with
    | .refuseLookalike => .error .lookalike
    | _ => .ok (some (nft.erase table))

/-- Remove the kill switch, if the table is ours. -/
def remove (env : NetfilterEnv) (persistedPrior : Option GenerationId) (nft : Nft) :
    Except KillSwitchError Unit × Nft :=
  match prepareRemove env persistedPrior nft with
  | .error error => (.error error, nft)
  | .ok none => (.ok (), nft)
  | .ok (some nft') =>
    match env.fails .send with
    | some error => (.error (.netfilter error), nft)
    | none => (.ok (), nft')

end KillSwitch

/-! ## The early firewall -/

/-- The policy of the early-boot firewall, with the mark drawn from the clock's nanoseconds. -/
def earlyPolicy (subsecNanos : Option UInt32) : KillSwitchPolicy where
  tunIfindex := 0
  allowDhcpV4 := true
  lanPermits := []
  bypassMark := match subsecNanos with
    | some nanos => nanos ||| 1
    | none => 0x5A01

/-- Apply the early-boot firewall. -/
def applyEarlyFirewall (env : NetfilterEnv) (subsecNanos : Option UInt32)
    (generation : GenerationId) (nft : Nft) :
    Except KillSwitchError Unit × Nft :=
  KillSwitch.apply env "lo" "lo" (earlyPolicy subsecNanos) generation none nft

/-- Remove it, the explicit disable. -/
def removeEarlyFirewall (env : NetfilterEnv) (generation : GenerationId) (nft : Nft) :
    Except KillSwitchError Unit × Nft :=
  KillSwitch.remove env (some generation) nft

end ProtonWire
