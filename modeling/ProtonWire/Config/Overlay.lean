import ProtonWire.Config.Document
import ProtonWire.Lib.Octets

/-!
# The overlay of a user

`crates/store/src/config/overlay.rs`: the document a user may have under the daemon's base, and the
configuration a request of that user is served with. The user id is that of the peer's socket.

* `overlayPath_injective`, `components_overlayPath`: the document of a user is a file of its own,
  below the base;
* `UserOverlay.mergedOver`, `effectiveConfig`: the merge, and the consult of a request;
* `mergedOver_eq_ok_iff`, `mergedOver_refuses_iff`: what the merge answers over a valid document;
* **`effective_config_iff`**: over a loaded document, the whole answer of a consult.
-/

namespace ProtonWire

namespace Config

/-! ## The document -/

inductive OutputFormat where
  | human
  | json
  deriving DecidableEq

structure UserPresentation where
  defaultOutput : Option OutputFormat := none

structure OverlayFeatures where
  secureCore : Option Bool := none
  killSwitch : Option KillSwitchMode := none
  splitTunnel : Option SplitTunnelMode := none
  netshield : Option NetShieldLevel := none
  portForwarding : Option Bool := none
  nat : Option NatMode := none
  vpnAccelerator : Option Bool := none

structure OverlayProfileSelection where
  mode : Option String := none
  by_ : Option ProfileRanking := none
  excludeCountries : Option (List String) := none
  require : Option (List String) := none

structure OverlayProfileDefault where
  connectionType : Option ConnectionType := none
  protocol : Option ProtocolMode := none
  selection : OverlayProfileSelection := {}

structure OverlayProfiles where
  default : OverlayProfileDefault := {}

/-- Presentation preferences and selectors of one user. -/
structure UserOverlay where
  schemaVersion : ℕ := 0
  presentation : UserPresentation := {}
  features : OverlayFeatures := {}
  profiles : OverlayProfiles := {}

/-- The overlay's own `authority_report`. -/
def overlayReport : List (String × Authority) :=
  [("schema_version", .perUser),
    ("presentation.default_output", .perUser),
    ("features.secure_core", .perUser),
    ("features.kill_switch", .perUser),
    ("features.split_tunnel", .perUser),
    ("features.netshield", .perUser),
    ("features.port_forwarding", .perUser),
    ("features.nat", .perUser),
    ("features.vpn_accelerator", .perUser),
    ("profiles.default.connection_type", .perUser),
    ("profiles.default.protocol", .perUser),
    ("profiles.default.selection.mode", .perUser),
    ("profiles.default.selection.by", .perUser),
    ("profiles.default.selection.exclude_countries", .perUser),
    ("profiles.default.selection.require", .perUser)]

/-- Per-UID overlay loading and merging failures. -/
inductive OverlayError where
  | io (path : List UInt8) (source : FsTrust.IoError)
  | yaml (error : SliceError)
  | validation (violations : List String)
  | merge (violations : List String)
  /-- The arm of the merge for an error that `validate` does not return. -/
  | unexpected (error : ConfigLoadError)

/-! ## Where it lies -/

/-- The bytes of an ASCII text. -/
def ascii (text : List Char) : List UInt8 := text.map fun c => UInt8.ofNat c.toNat

/-- The decimal digits of a user id. -/
def decimal (uid : UInt32) : List UInt8 := ascii (Nat.toDigits 10 uid.toNat)

/-- `Path::join` with a relative name. -/
def joined (base name : List UInt8) : List UInt8 :=
  if base = [] ∨ base.getLast? = some 47 then base ++ name else base ++ 47 :: name

/-- `overlay_path`. -/
def overlayPath (base : List UInt8) (uid : UInt32) : List UInt8 :=
  joined (joined base (decimal uid)) (ascii "config.yaml".toList)

/-! ## Loading and merging -/

/-- `validate`. -/
def UserOverlay.validate (o : UserOverlay) : Except OverlayError Unit :=
  let violations := violation (o.schemaVersion ≠ expectedSchemaVersion)
    ("schema_version must be " ++ toString expectedSchemaVersion ++ " (found " ++
     toString o.schemaVersion ++ ")")
  if violations = [] then .ok () else .error (.validation violations)

/-- `load_for_uid`: only absence is soft. -/
def UserOverlay.loadForUid (parse : List Char → Except String UserOverlay)
    (read : List UInt8 → Except FsTrust.IoError ByteArray) (base : List UInt8) (uid : UInt32) :
    Except OverlayError (Option UserOverlay) :=
  match read (overlayPath base uid) with
  | .error source =>
    if source = .errno .notFound then .ok none else .error (.io (overlayPath base uid) source)
  | .ok bytes => do
    let overlay ← (fromSlice parse bytes).mapError OverlayError.yaml
    overlay.validate
    return some overlay

/-- The features under an overlay. The administrator's permanent kill switch outranks it. -/
def OverlayFeatures.over (o : OverlayFeatures) (system : FeaturesSection) : FeaturesSection where
  secureCore := o.secureCore.getD system.secureCore
  killSwitch :=
    if system.killSwitch = .permanent then .permanent else o.killSwitch.getD system.killSwitch
  splitTunnel := o.splitTunnel.getD system.splitTunnel
  netshield := o.netshield.getD system.netshield
  portForwarding := o.portForwarding.getD system.portForwarding
  nat := o.nat.getD system.nat
  vpnAccelerator := o.vpnAccelerator.getD system.vpnAccelerator

/-- The profiles under an overlay. -/
def OverlayProfiles.over (o : OverlayProfiles) (system : ProfilesSection) : ProfilesSection where
  default :=
    { connectionType := o.default.connectionType.getD system.default.connectionType
      protocol := o.default.protocol.getD system.default.protocol
      selection :=
        { mode := o.default.selection.mode.getD system.default.selection.mode
          by_ := o.default.selection.by_.getD system.default.selection.by_
          excludeCountries := o.default.selection.excludeCountries.getD
            system.default.selection.excludeCountries
          require := o.default.selection.require.getD system.default.selection.require } }

/-- `merged_over`: the rules bind the effective document. -/
def UserOverlay.mergedOver (o : UserOverlay) (system : SystemConfig) :
    Except OverlayError SystemConfig :=
  let effective :=
    { system with
      features := o.features.over system.features
      profiles := o.profiles.over system.profiles }
  match effective.validate with
  | .ok () => .ok effective
  | .error (.validation violations) => .error (.merge violations)
  | .error other => .error (.unexpected other)

/-- `effective_config`. -/
def effectiveConfig (parse : List Char → Except String UserOverlay)
    (read : List UInt8 → Except FsTrust.IoError ByteArray) (system : SystemConfig)
    (base : List UInt8) (uid : UInt32) :
    Except OverlayError SystemConfig := do
  match ← UserOverlay.loadForUid parse read base uid with
  | some overlay => overlay.mergedOver system
  | none => .ok system

/-! ## What an overlay asks for -/

/-- What an overlay asks of a field of the system document. -/
def UserOverlay.request (o : UserOverlay) : (f : Field) → Option f.Value
  | .featuresSecureCore => o.features.secureCore
  | .featuresKillSwitch => o.features.killSwitch
  | .featuresSplitTunnel => o.features.splitTunnel
  | .featuresNetshield => o.features.netshield
  | .featuresPortForwarding => o.features.portForwarding
  | .featuresNat => o.features.nat
  | .featuresVpnAccelerator => o.features.vpnAccelerator
  | .profilesDefaultConnectionType => o.profiles.default.connectionType
  | .profilesDefaultProtocol => o.profiles.default.protocol
  | .profilesDefaultSelectionMode => o.profiles.default.selection.mode
  | .profilesDefaultSelectionBy => o.profiles.default.selection.by_
  | .profilesDefaultSelectionExcludeCountries => o.profiles.default.selection.excludeCountries
  | .profilesDefaultSelectionRequire => o.profiles.default.selection.require
  | _ => none

/-- The administrator's floor: a permanent kill switch stays. -/
def Floored (system : SystemConfig) (f : Field) : Prop :=
  f = .featuresKillSwitch ∧ system.features.killSwitch = .permanent

/-- **The document of a request**: each field is the overlay's where the report gives it to the
user, the overlay asks for it and no floor holds it, and the administrator's elsewhere. -/
structure Overlaid (o : UserOverlay) (system effective : SystemConfig) : Prop where
  asked : ∀ f value, f.row.2 = .perUser → ¬ Floored system f → o.request f = some value →
    effective.get f = value
  kept : ∀ f, (f.row.2 = .system ∨ Floored system f ∨ o.request f = none) →
    effective.get f = system.get f

/-- The two tables agree: beside the presentation and the version of its own schema, an overlay has
the fields that the system document leaves to the user. -/
theorem overlayReport_mirrors (f : Field) :
    f.row.2 = .perUser ↔ f ≠ .schemaVersion ∧ (f.row.1, Authority.perUser) ∈ overlayReport := by
  cases f <;> decide

/-! ## The file of a user -/

/-- Where the name of a user is put below the base. -/
def folder (base : List UInt8) : List UInt8 := if base = [] ∨ base.getLast? = some 47 then base
    else base ++ [47]

theorem toNat_of_isDigit {c : Char} (h : c.isDigit = true) : 48 ≤ c.toNat ∧ c.toNat ≤ 57 := by
  rw [Char.isDigit, Bool.and_eq_true, decide_eq_true_eq, decide_eq_true_eq] at h
  exact h

theorem isDigit_of_mem_decimal {uid : UInt32} {b : UInt8} (h : b ∈ decimal uid) :
    48 ≤ b.toNat ∧ b.toNat ≤ 57 := by
  obtain ⟨c, hc, rfl⟩ := List.mem_map.mp h
  have hrange := toNat_of_isDigit (Nat.isDigit_of_mem_toDigits (by decide) (by decide) hc)
  rw [UInt8.toNat_ofNat']
  omega

theorem decimal_ne_nil (uid : UInt32) : decimal uid ≠ [] := by
  unfold decimal ascii
  simp [Nat.toDigits_ne_nil]

theorem chars_ascii {digits : List Char} (h : ∀ c ∈ digits, c.isDigit = true) :
    (ascii digits).map (fun b => Char.ofNat b.toNat) = digits := by
  have hchar : ∀ c ∈ digits, Char.ofNat (UInt8.ofNat c.toNat).toNat = c := by
    intro c hc
    have hrange := toNat_of_isDigit (h c hc)
    rw [UInt8.toNat_ofNat', Nat.mod_eq_of_lt (by omega), Char.ofNat_toNat]
  calc (ascii digits).map (fun b => Char.ofNat b.toNat)
      = digits.map fun c => Char.ofNat (UInt8.ofNat c.toNat).toNat := List.map_map
    _ = digits.map id := List.map_congr_left hchar
    _ = digits := List.map_id _

theorem decimal_injective : Function.Injective decimal := by
  intro uid uid' h
  have hdigits : ∀ uid : UInt32, ∀ c ∈ Nat.toDigits 10 uid.toNat, c.isDigit = true :=
    fun uid c hc => Nat.isDigit_of_mem_toDigits (by decide) (by decide) hc
  have hsame : Nat.toDigits 10 uid.toNat = Nat.toDigits 10 uid'.toNat := by
    rw [← chars_ascii (hdigits uid), ← chars_ascii (hdigits uid')]
    exact congrArg _ h
  have hnat : uid.toNat = uid'.toNat := by
    calc uid.toNat = Nat.ofDigitChars 10 (Nat.toDigits 10 uid.toNat) 0 := Nat.ofDigitChars_ten_toDigits.symm
      _ = Nat.ofDigitChars 10 (Nat.toDigits 10 uid'.toNat) 0 := by rw [hsame]
      _ = uid'.toNat := Nat.ofDigitChars_ten_toDigits
  exact UInt32.toNat_inj.mp hnat

theorem overlayPath_eq (base : List UInt8) (uid : UInt32) :
    overlayPath base uid = folder base ++ (decimal uid ++ 47 :: ascii "config.yaml".toList) := by
  have hbelow : joined base (decimal uid) = folder base ++ decimal uid := by
    unfold joined folder
    split_ifs with h
    · rfl
    · simp
  have hlast : (folder base ++ decimal uid).getLast? ≠ some 47 := by
    intro hlast
    rw [List.getLast?_append_of_ne_nil _ (decimal_ne_nil uid)] at hlast
    have := isDigit_of_mem_decimal (List.mem_of_getLast? hlast)
    simp at this
  have hne : folder base ++ decimal uid ≠ [] := by simp [decimal_ne_nil uid]
  unfold overlayPath
  rw [hbelow]
  unfold joined
  rw [if_neg (not_or.mpr ⟨hne, hlast⟩)]
  simp

/-- **Each user has a file of its own.** -/
theorem overlayPath_injective (base : List UInt8) : Function.Injective (overlayPath base) := by
  intro uid uid' h
  rw [overlayPath_eq, overlayPath_eq] at h
  exact decimal_injective (List.append_cancel_right (List.append_cancel_left h))

theorem piece_decimal (uid : UInt32) : FsTrust.piece (decimal uid) = .name (decimal uid) := by
  have hdot : (46 : UInt8) ∉ decimal uid := by
    intro h
    have := isDigit_of_mem_decimal h
    simp at this
  unfold FsTrust.piece
  split
  · next hnil => exact absurd hnil (decimal_ne_nil uid)
  · next hdots => exact absurd (hdots ▸ List.mem_cons_self) hdot
  · next hdots => exact absurd (hdots ▸ List.mem_cons_self) hdot
  · rfl

/-- **The document of a user lies below the base**, and its path names no parent. -/
theorem components_overlayPath (base : List UInt8) (uid : UInt32) :
    (FsTrust.Path.ofBytes (overlayPath base uid)).components =
      (FsTrust.Path.ofBytes base).components ++ [.name (decimal uid),
       .name (ascii "config.yaml".toList)] := by
  have hdigits : (47 : UInt8) ∉ decimal uid := by
    intro h
    have := isDigit_of_mem_decimal h
    simp at this
  have hname : (decimal uid ++ 47 :: ascii "config.yaml".toList).splitOn 47 =
      [decimal uid, ascii "config.yaml".toList] := by
    rw [List.splitOn_append_cons_self_of_not_mem hdigits]
    rfl
  have hnames : PathWalk.Tree.names [FsTrust.piece (decimal uid),
    FsTrust.piece (ascii "config.yaml".toList)] =
      [.name (decimal uid), .name (ascii "config.yaml".toList)] := by
    rw [piece_decimal]
    rfl
  -- a separator behind the base, its own or the one that `join` puts there, adds an empty component
  have hbase : (folder base = [] ∧ base = []) ∨ ∃ inner, folder base = inner ++ [47] ∧
      PathWalk.Tree.names ((base.splitOn 47).map FsTrust.piece) =
        PathWalk.Tree.names ((inner.splitOn 47).map FsTrust.piece) := by
    unfold folder
    by_cases hnil : base = []
    · exact .inl ⟨by rw [if_pos (.inl hnil), hnil], hnil⟩
    by_cases hlast : base.getLast? = some 47
    · obtain ⟨inner, hinner⟩ := List.getLast?_eq_some_iff.mp hlast
      refine .inr ⟨inner, by rw [if_pos (.inr hlast), hinner], ?_⟩
      rw [hinner, List.splitOn_append_cons_self, List.splitOn_nil, List.map_append,
        FsTrust.names_append]
      exact List.append_nil _
    · exact .inr ⟨base, if_neg (not_or.mpr ⟨hnil, hlast⟩), rfl⟩
  unfold FsTrust.Path.components FsTrust.Path.ofBytes
  rw [overlayPath_eq]
  dsimp only
  obtain ⟨hfolder, hnil⟩ | ⟨inner, hfolder, hsame⟩ := hbase
  · rw [hfolder, hnil, List.nil_append, hname]
    exact hnames
  · rw [hfolder, hsame, List.append_assoc, List.singleton_append, List.splitOn_append_cons_self,
      hname, List.map_append, FsTrust.names_append]
    exact congrArg _ hnames

/-! ## The merge -/

section
variable {o : UserOverlay} {system effective : SystemConfig}

/-- The overlay and the administrator together ask for port forwarding over a moderate NAT. -/
def Conflicts (o : UserOverlay) (system : SystemConfig) : Prop :=
  o.features.portForwarding.getD system.features.portForwarding = true ∧
    o.features.nat.getD system.features.nat = .moderate

theorem getD_of_some {α : Type} {asked : Option α} {value : α} (h : asked = some value)
    (other : α) :
    asked.getD other = value := by
  rw [h]
  rfl

theorem getD_of_none {α : Type} {asked : Option α} (h : asked = none) (other : α) :
    asked.getD other = other := by
  rw [h]
  rfl

theorem overlaid_over (o : UserOverlay) (system : SystemConfig) :
    Overlaid o system
      { system with
        features := o.features.over system.features
        profiles := o.profiles.over system.profiles } where
  asked f value _ hfloor hrequest := by
    cases f with
    | featuresKillSwitch =>
      have hfree : system.features.killSwitch ≠ .permanent := fun h => hfloor ⟨rfl, h⟩
      exact (if_neg hfree).trans (getD_of_some hrequest _)
    | _ => exact getD_of_some hrequest _
  kept f h := by
    cases f with
    | featuresKillSwitch =>
      by_cases hfloor : system.features.killSwitch = .permanent
      · exact (if_pos hfloor).trans hfloor.symm
      · obtain h | h | h := h
        · cases h
        · exact absurd h.2 hfloor
        · exact (if_neg hfloor).trans (getD_of_none h _)
    | _ =>
      first
      | rfl
      | obtain h | h | h := h
        · cases h
        · cases h.1
        · exact getD_of_none h _

/-- An overlay and a system document make one document. -/
theorem Overlaid.unique {effective' : SystemConfig} (h : Overlaid o system effective)
    (h' : Overlaid o system effective') : effective = effective' := by
  refine SystemConfig.ext_get fun f => ?_
  by_cases hkept : f.row.2 = .system ∨ Floored system f ∨ o.request f = none
  · rw [h.kept f hkept, h'.kept f hkept]
  · simp only [not_or] at hkept
    obtain ⟨huser, hfloor, hrequest⟩ := hkept
    obtain ⟨value, hvalue⟩ := Option.ne_none_iff_exists'.mp hrequest
    have hperUser : f.row.2 = .perUser := by
      cases hrow : f.row.2 with
      | system => exact absurd hrow huser
      | perUser => rfl
    rw [h.asked f value hperUser hfloor hvalue, h'.asked f value hperUser hfloor hvalue]

/-- **The merge over a valid document** answers with the one document of the two, unless they
conflict. -/
theorem mergedOver_eq_ok_iff (hvalid : system.violations = []) :
    o.mergedOver system = .ok effective ↔ ¬ Conflicts o system ∧ Overlaid o system effective := by
  have hrules := violations_features hvalid (o.features.over system.features)
    (o.profiles.over system.profiles)
  unfold UserOverlay.mergedOver SystemConfig.validate
  dsimp only
  rw [hrules]
  by_cases hconflicts : Conflicts o system
  · have hbroken : (o.features.over system.features).portForwarding = true ∧
        (o.features.over system.features).nat = .moderate := hconflicts
    rw [violation, if_pos hbroken]
    simp [hconflicts]
  · have hkept : ¬ ((o.features.over system.features).portForwarding = true ∧
        (o.features.over system.features).nat = .moderate) := hconflicts
    rw [violation, if_neg hkept]
    constructor
    · intro h
      cases h
      exact ⟨hconflicts, overlaid_over o system⟩
    · intro h
      rw [(overlaid_over o system).unique h.2]
      rfl

theorem violations_of_mergedOver (h : o.mergedOver system = .ok effective) :
    effective.violations = [] := by
  unfold UserOverlay.mergedOver at h
  dsimp only at h
  split at h
  · next hvalid =>
    cases h
    exact SystemConfig.validate_eq_ok.mp hvalid
  · cases h
  · cases h

theorem mergedOver_of_conflicts (hvalid : system.violations = []) (h : Conflicts o system) :
    o.mergedOver system =
      .error (.merge ["features.port_forwarding is incompatible with features.nat=moderate"]) := by
  have hrules := violations_features hvalid (o.features.over system.features)
    (o.profiles.over system.profiles)
  have hbroken : (o.features.over system.features).portForwarding = true ∧
      (o.features.over system.features).nat = .moderate := h
  unfold UserOverlay.mergedOver SystemConfig.validate
  dsimp only
  rw [hrules, violation, if_pos hbroken]
  rfl

end

/-! ## The consult -/

section
variable {parse : List Char → Except String UserOverlay}
    {read : List UInt8 → Except FsTrust.IoError ByteArray}
  {base : List UInt8} {uid : UInt32}

theorem validate_overlay {o : UserOverlay} :
    o.validate = .ok () ↔ o.schemaVersion = expectedSchemaVersion := by
  unfold UserOverlay.validate violation
  by_cases h : o.schemaVersion = expectedSchemaVersion <;> simp [h]

theorem loadForUid_eq_none : UserOverlay.loadForUid parse read base uid = .ok none ↔
    read (overlayPath base uid) = .error (.errno .notFound) := by
  unfold UserOverlay.loadForUid
  cases hread : read (overlayPath base uid) with
  | error source => by_cases hmissing : source = .errno .notFound <;> simp [hmissing]
  | ok bytes =>
    simp only [reduceCtorEq, iff_false]
    intro h
    obtain ⟨_, -, h⟩ := Fallible.bind_eq_ok.mp h
    obtain ⟨_, -, h⟩ := Fallible.bind_eq_ok.mp h
    cases h

theorem loadForUid_eq_some {o : UserOverlay} :
    UserOverlay.loadForUid parse read base uid = .ok (some o) ↔
    ∃ bytes, read (overlayPath base uid) = .ok bytes ∧ fromSlice parse bytes = .ok o ∧
      o.schemaVersion = expectedSchemaVersion := by
  unfold UserOverlay.loadForUid
  cases hread : read (overlayPath base uid) with
  | error source => by_cases hmissing : source = .errno .notFound <;> simp [hmissing]
  | ok bytes =>
    constructor
    · intro h
      obtain ⟨overlay, hparse, h⟩ := Fallible.bind_eq_ok.mp h
      obtain ⟨_, hvalid, h⟩ := Fallible.bind_eq_ok.mp h
      cases h
      cases hslice : fromSlice parse bytes with
      | error error =>
        rw [hslice] at hparse
        cases hparse
      | ok o =>
        rw [hslice] at hparse
        cases hparse
        exact ⟨bytes, rfl, hslice, validate_overlay.mp hvalid⟩
    · rintro ⟨bytes', hbytes, hparse, hversion⟩
      cases hbytes
      dsimp only
      rw [hparse]
      dsimp only [Except.mapError, bind, Except.bind]
      rw [validate_overlay.mpr hversion]
      rfl

theorem effectiveConfig_of_some {o : UserOverlay} {system : SystemConfig}
    (hload : UserOverlay.loadForUid parse read base uid = .ok (some o)) :
    effectiveConfig parse read system base uid = o.mergedOver system := by
  unfold effectiveConfig
  rw [hload]
  dsimp only [bind, Except.bind]

theorem effectiveConfig_eq_ok {system effective : SystemConfig} :
    effectiveConfig parse read system base uid = .ok effective ↔
      (UserOverlay.loadForUid parse read base uid = .ok none ∧ effective = system) ∨
        ∃ overlay, UserOverlay.loadForUid parse read base uid = .ok (some overlay) ∧
          overlay.mergedOver system = .ok effective := by
  unfold effectiveConfig
  constructor
  · intro h
    obtain ⟨overlay, hload, h⟩ := Fallible.bind_eq_ok.mp h
    cases overlay with
    | none =>
      cases h
      exact .inl ⟨hload, rfl⟩
    | some overlay => exact .inr ⟨overlay, hload, h⟩
  · rintro (⟨hload, rfl⟩ | ⟨overlay, hload, hmerge⟩)
    · rw [hload]
      rfl
    · rw [← hmerge]
      exact effectiveConfig_of_some hload

end

/-- **The answer of a consult**, over a document that the daemon has loaded: the document itself
where the user has no overlay; else, where the overlay reads, parses, is of the schema and does not
conflict, the one document of the two; and otherwise a refusal, by name where they conflict. What is
served passes the rules; no file is looked at but the user's own, which is no other user's and lies
below the base. -/
theorem effective_config_iff {parseSystem : List Char → Except String SystemConfig}
    {boot : FileReads}
    {path : List UInt8} {trustRoot : Option FsTrust.Path} {loaded : LoadedSystemConfig}
    (hboot : SystemConfig.loadInner parseSystem boot path trustRoot = .ok loaded)
    (parse : List Char → Except String UserOverlay)
    (read : List UInt8 → Except FsTrust.IoError ByteArray) (base : List UInt8) (uid : UInt32) :
    (∀ effective, effectiveConfig parse read loaded.config base uid = .ok effective ↔
        (read (overlayPath base uid) = .error (.errno .notFound) ∧ effective = loaded.config) ∨
          ∃ bytes overlay, read (overlayPath base uid) = .ok bytes ∧
            fromSlice parse bytes = .ok overlay ∧
            overlay.schemaVersion = expectedSchemaVersion ∧ ¬ Conflicts overlay loaded.config ∧
            Overlaid overlay loaded.config effective) ∧
      (∀ bytes overlay, read (overlayPath base uid) = .ok bytes →
       fromSlice parse bytes = .ok overlay →
        overlay.schemaVersion = expectedSchemaVersion → Conflicts overlay loaded.config →
        effectiveConfig parse read loaded.config base uid =
          .error (.merge ["features.port_forwarding is incompatible with features.nat=moderate"])) ∧
      (∀ effective, effectiveConfig parse read loaded.config base uid = .ok effective →
       effective.violations = []) ∧
      (∀ read', read' (overlayPath base uid) = read (overlayPath base uid) →
        effectiveConfig parse read' loaded.config base uid =
          effectiveConfig parse read loaded.config base uid) ∧
      (∀ other, overlayPath base other = overlayPath base uid → other = uid) ∧
      (FsTrust.Path.ofBytes (overlayPath base uid)).components =
        (FsTrust.Path.ofBytes base).components ++ [.name (decimal uid),
         .name (ascii "config.yaml".toList)] := by
  have hvalid := violations_of_loadInner hboot
  refine ⟨fun effective => ?_, fun bytes overlay hread hparse hversion hconflicts => ?_,
    fun effective h => ?_,
    fun read' hsame => ?_, fun other h => overlayPath_injective base h,
    components_overlayPath base uid⟩
  · rw [effectiveConfig_eq_ok, loadForUid_eq_none]
    refine or_congr Iff.rfl ⟨?_, ?_⟩
    · rintro ⟨overlay, hload, hmerge⟩
      obtain ⟨bytes, hread, hparse, hversion⟩ := loadForUid_eq_some.mp hload
      exact ⟨bytes, overlay, hread, hparse, hversion, (mergedOver_eq_ok_iff hvalid).mp hmerge⟩
    · rintro ⟨bytes, overlay, hread, hparse, hversion, hmerge⟩
      exact ⟨overlay, loadForUid_eq_some.mpr ⟨bytes, hread, hparse, hversion⟩,
        (mergedOver_eq_ok_iff hvalid).mpr hmerge⟩
  · have hload := loadForUid_eq_some.mpr ⟨bytes, hread, hparse, hversion⟩
    rw [effectiveConfig_of_some hload, mergedOver_of_conflicts hvalid hconflicts]
  · obtain ⟨-, rfl⟩ | ⟨overlay, -, hmerge⟩ := effectiveConfig_eq_ok.mp h
    · exact hvalid
    · exact violations_of_mergedOver hmerge
  · -- the one file that is read is this user's
    unfold effectiveConfig UserOverlay.loadForUid
    rw [hsame]

/-- A user who lowers the kill switch and asks for a moderate NAT. -/
def moderateText : String := "schema_version: 2\nfeatures:\n  kill_switch: off\n  nat: moderate\n"

def moderateOverlay : UserOverlay where
  schemaVersion := 2
  features := { killSwitch := some .off, nat := some .moderate }

/-- The deserializer on the two documents of the example. -/
def parseModerate (text : List Char) : Except String UserOverlay :=
  if text = moderateText.toList then .ok moderateOverlay else .error "unknown field"

theorem fromSlice_moderate : fromSlice parseModerate moderateText.toUTF8 = .ok moderateOverlay := by
  unfold fromSlice
  rw [if_neg (by decide), Octets.fromUTF8?_toUTF8]
  rfl

theorem effective_config_iff_moderate :
    effectiveConfig parseModerate (fun _ => .ok moderateText.toUTF8) {}
    (ascii "/overlays".toList) 1000 =
      .ok { features := { killSwitch := .off, nat := .moderate } } :=
  ((effective_config_iff loadInner_missing parseModerate (fun _ => .ok moderateText.toUTF8)
    (ascii "/overlays".toList)
    1000).1 _).mpr (.inr ⟨_, moderateOverlay, rfl, fromSlice_moderate,
      rfl, by simp [Conflicts, moderateOverlay],
      overlaid_over _ _⟩)

end Config

end ProtonWire
