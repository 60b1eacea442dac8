import ProtonWire.Lib.Binary32

/-!
# The server catalog and its cache

`crates/store/src/catalog.rs`. The wire types keep the fields that selection, the scheduler and the
cache read. The JSON codec is not part of the repository: it is the parameter `Serde`, a decoder of
catalog bodies and the length of a pretty-printed cache envelope. Everything the code does around
the codec is here.

* `CatalogDocument.fromBytes`, `validateValueDomains`; **`fromBytes_inDomain`**: every server of an
  accepted document is inside the recorded value domains;
* `CatalogCache.store`, `CatalogCache.loadStrict`, `CatalogCache.refreshFreshness`: the file
  `servers.json` is modelled by the document it decodes to, and a store is atomic.
-/

namespace ProtonWire

/-- `MAX_CATALOG_BYTES`: 16 MiB. -/
def maxCatalogBytes : ℕ := 16 * 2 ^ 20

/-- `MAX_LOGICAL_SERVERS`. -/
def maxLogicalServers : ℕ := 16384

/-- `MAX_PHYSICAL_SERVERS_TOTAL`. -/
def maxPhysicalServersTotal : ℕ := 262144

/-- `CATALOG_CACHE_SCHEMA_VERSION`. -/
def catalogCacheSchemaVersion : ℕ := 1

/-! ## The wire model -/

/-- One protocol endpoint: an IPv4 address and the ports it serves. -/
structure ProtocolEndpoint where
  ipv4 : String
  ports : Option (List ℕ)
  deriving DecidableEq

/-- Per-protocol entry addresses; the presence map is the set of supported protocols. -/
structure EntryPerProtocol where
  wireguardUdp : Option ProtocolEndpoint
  wireguardTcp : Option ProtocolEndpoint
  wireguardTls : Option ProtocolEndpoint
  deriving DecidableEq

/-- One physical server. -/
structure PhysicalServer where
  status : ℤ
  entryPerProtocol : Option EntryPerProtocol
  deriving DecidableEq

/-- A physical server is online when its status is `1`. -/
def PhysicalServer.isOnline (p : PhysicalServer) : Bool := p.status == 1

/-- The feature bitmask of a logical server. -/
structure ServerFeatures where
  bits : BitVec 64
  deriving DecidableEq

namespace ServerFeatures

/-- Whether the given bit is set. -/
def has (f : ServerFeatures) (bit : BitVec 64) : Bool := f.bits &&& bit != 0

def secureCore (f : ServerFeatures) : Bool := f.has 1
def tor (f : ServerFeatures) : Bool := f.has 2
def p2p (f : ServerFeatures) : Bool := f.has 4
def streaming (f : ServerFeatures) : Bool := f.has 8
def ipv6 (f : ServerFeatures) : Bool := f.has 16

end ServerFeatures

/-- One logical server: the unit users pick. -/
structure LogicalServer where
  id : String
  name : String
  city : Option String
  state : Option String
  entryCountry : String
  exitCountry : String
  tier : ℤ
  features : ServerFeatures
  status : Option ℤ
  load : Option ℤ
  score : Option Binary32
  gatewayName : Option String
  servers : List PhysicalServer
  deriving DecidableEq

namespace LogicalServer

/-- Secure Core route: the entry and exit countries differ. -/
def isSecureCoreRoute (s : LogicalServer) : Bool := s.entryCountry != s.exitCountry

/-- The logical belongs to a named gateway. -/
def isGateway (s : LogicalServer) : Bool := s.gatewayName.isSome

end LogicalServer

/-- The `/vpn/logicals` envelope. -/
structure CatalogDocument where
  code : ℤ
  error : Option String
  logicalServers : List LogicalServer
  deriving DecidableEq

/-- The persisted cache document: the raw upstream body and its revision. -/
structure CachedCatalog where
  schemaVersion : ℕ
  etag : Option String
  fetchedUnix : ℕ
  body : String
  deriving DecidableEq

/-- The JSON codec: the decoder of catalog bodies, and the length of the pretty-printed envelope of
a cache document. -/
structure Serde where
  fromSlice : ByteArray → Except String CatalogDocument
  prettyLength : CachedCatalog → ℕ

/-! ## Parsing and validation -/

/-- Failures of catalog parsing. -/
inductive CatalogError where
  | tooLarge (bytes : ℕ)
  | tooManyServers (logical physical : ℕ)
  | api (code : ℤ) (error : String)
  | malformed (message : String)
  deriving DecidableEq

namespace CatalogError

/-- The `Display` text. -/
def display : CatalogError → String
  | tooLarge bytes => "catalog document of " ++ toString bytes ++ " bytes exceeds the " ++
      toString maxCatalogBytes ++ "-byte limit"
  | tooManyServers logical physical =>
      "catalog document exceeds server-count caps: " ++ toString logical ++
      " logical servers (cap " ++
      toString maxLogicalServers ++ "), " ++ toString physical ++ " physical servers (cap " ++
      toString maxPhysicalServersTotal ++ ")"
  | api code error => "catalog request refused upstream: Code " ++ toString code ++ " (" ++
    error ++ ")"
  | malformed message =>
      "invalid catalog document (upstream contract drift must be mapped deliberately): " ++ message

end CatalogError

/-- The value-domain check of the physical servers of logical server `index`. -/
def validatePhysicals (index : ℕ) : List (PhysicalServer × ℕ) → Except CatalogError Unit
  | [] => .ok ()
  | (physical, physicalIndex) :: rest =>
    if physical.status ≠ 0 ∧ physical.status ≠ 1 then
      .error (.malformed ("LogicalServers[" ++ toString index ++ "].Servers[" ++
        toString physicalIndex ++ "].Status = " ++ toString physical.status ++
        " is outside the recorded domain (0 offline/maintenance, 1 online)"))
    else validatePhysicals index rest

/-- The value-domain checks of one logical server, in source order. -/
def validateServer (index : ℕ) (server : LogicalServer) : Except CatalogError Unit :=
  if ∃ status ∈ server.status, status ≠ 0 ∧ status ≠ 1 then
    .error (.malformed ("LogicalServers[" ++ toString index ++ "].Status = " ++
      toString (server.status.getD 0) ++ " is outside the recorded domain " ++
      "(0 offline, 1 online; absent is unknown — never approximated)"))
  else if ¬ (0 ≤ server.tier ∧ server.tier ≤ 3) then
    .error (.malformed ("LogicalServers[" ++ toString index ++ "].Tier = " ++
      toString server.tier ++
      " is outside the recorded plan vocabulary (0 free, 1 basic, 2 plus, 3 PM)"))
  else if ∃ load ∈ server.load, ¬ (0 ≤ load ∧ load ≤ 100) then
    .error (.malformed ("LogicalServers[" ++ toString index ++ "].Load = " ++
      toString (server.load.getD 0) ++ " is outside the recorded 0–100 percentage domain"))
  else validatePhysicals index server.servers.zipIdx

/-- The loop of `validate_value_domains` over the indexed servers. -/
def validateServers : List (LogicalServer × ℕ) → Except CatalogError Unit
  | [] => .ok ()
  | (server, index) :: rest =>
    match validateServer index server with
    | .error error => .error error
    | .ok () => validateServers rest

/-- Enforces the recorded value domains. -/
def validateValueDomains (doc : CatalogDocument) : Except CatalogError Unit :=
  validateServers doc.logicalServers.zipIdx

/-- The aggregate number of physical servers. -/
def CatalogDocument.physicalCount (doc : CatalogDocument) : ℕ :=
  (doc.logicalServers.map fun s => s.servers.length).sum

/-- Parses and validates the raw upstream body. -/
def CatalogDocument.fromBytes (J : Serde) (body : ByteArray) :
    Except CatalogError CatalogDocument :=
  if body.size > maxCatalogBytes then .error (.tooLarge body.size)
  else match J.fromSlice body with
    | .error message => .error (.malformed message)
    | .ok doc =>
      if doc.code ≠ 1000 then .error (.api doc.code (doc.error.getD ""))
      else if doc.logicalServers.length > maxLogicalServers ∨
          doc.physicalCount > maxPhysicalServersTotal then
        .error (.tooManyServers doc.logicalServers.length doc.physicalCount)
      else match validateValueDomains doc with
        | .error error => .error error
        | .ok () => .ok doc

/-- A server inside the recorded value domains. -/
structure LogicalServer.InDomain (s : LogicalServer) : Prop where
  status : s.status = none ∨ s.status = some 0 ∨ s.status = some 1
  tier : 0 ≤ s.tier ∧ s.tier ≤ 3
  load : ∀ load ∈ s.load, 0 ≤ load ∧ load ≤ 100
  physicals : ∀ p ∈ s.servers, p.status = 0 ∨ p.status = 1

theorem validatePhysicals_ok {index : ℕ} {l : List (PhysicalServer × ℕ)}
    (h : validatePhysicals index l = .ok ()) : ∀ p ∈ l, p.1.status = 0 ∨ p.1.status = 1 := by
  induction l with
  | nil => simp
  | cons p l ih =>
    obtain ⟨physical, i⟩ := p
    simp only [validatePhysicals] at h
    split_ifs at h with hs
    intro q hq
    rcases List.mem_cons.mp hq with rfl | hq
    · show physical.status = 0 ∨ physical.status = 1
      omega
    · exact ih h q hq

theorem validateServer_ok {index : ℕ} {s : LogicalServer} (h : validateServer index s = .ok ()) :
    s.InDomain := by
  unfold validateServer at h
  split_ifs at h with hs ht hl
  refine ⟨?_, ht, fun load hmem => ?_, fun p hp => ?_⟩
  · cases hst : s.status with
    | none => exact Or.inl rfl
    | some st =>
      have : ¬ (st ≠ 0 ∧ st ≠ 1) := fun hne => hs ⟨st, by rw [hst]; rfl, hne⟩
      simp only [Option.some.injEq, reduceCtorEq, false_or]
      omega
  · by_contra hne
    exact hl ⟨load, hmem, hne⟩
  · obtain ⟨i, hi, rfl⟩ := List.mem_iff_getElem.mp hp
    exact validatePhysicals_ok h (s.servers[i], i) (List.mk_mem_zipIdx_iff_getElem?.mpr
      (List.getElem?_eq_getElem hi))

theorem validateServers_ok {l : List (LogicalServer × ℕ)} (h : validateServers l = .ok ()) :
    ∀ p ∈ l, p.1.InDomain := by
  induction l with
  | nil => simp
  | cons p l ih =>
    obtain ⟨s, i⟩ := p
    simp only [validateServers] at h
    split at h
    · cases h
    · next hs =>
      intro q hq
      rcases List.mem_cons.mp hq with rfl | hq
      · exact validateServer_ok hs
      · exact ih h q hq

/-- **Every server of an accepted document is inside the recorded value domains.** -/
theorem CatalogDocument.fromBytes_inDomain {J : Serde} {body : ByteArray} {doc : CatalogDocument}
    (h : CatalogDocument.fromBytes J body = .ok doc) : ∀ s ∈ doc.logicalServers, s.InDomain := by
  unfold CatalogDocument.fromBytes at h
  split_ifs at h
  split at h
  · cases h
  · split_ifs at h
    split at h
    · cases h
    · next hv =>
      cases h
      intro s hs
      obtain ⟨i, hi, rfl⟩ := List.mem_iff_getElem.mp hs
      exact validateServers_ok hv (_, i) (List.mk_mem_zipIdx_iff_getElem?.mpr
        (List.getElem?_eq_getElem hi))

/-! ## The cache -/

/-- Failures of the catalog cache. -/
inductive CatalogCacheError where
  | io (message : String)
  | fsTrust (message : String)
  | tooLarge (bytes : ℕ)
  | malformed (message : String)
  deriving DecidableEq

/-- The `Display` text. -/
def CatalogCacheError.display : CatalogCacheError → String
  | .io message => "catalog cache I/O failure: " ++ message
  | .fsTrust message => "catalog cache path is not trusted: " ++ message
  | .tooLarge bytes => "catalog cache of " ++ toString bytes ++ " bytes exceeds the " ++
      toString maxCatalogBytes ++ "-byte limit"
  | .malformed message => "invalid catalog cache: " ++ message

namespace CatalogCache

/-- The strict load. `fault` is the error of the trust walk, the read, the size check or the
decoder, if any; the schema version and the body are then checked against the live model. -/
def loadStrict (J : Serde) (file : Option CachedCatalog) (fault : Option CatalogCacheError) :
    Except CatalogCacheError (Option CachedCatalog) :=
  match fault, file with
  | some error, _ => .error error
  | none, none => .ok none
  | none, some cached =>
    if cached.schemaVersion ≠ catalogCacheSchemaVersion then
      .error (.malformed ("cache schema version " ++ toString cached.schemaVersion ++ " != " ++
        toString catalogCacheSchemaVersion))
    else match CatalogDocument.fromBytes J cached.body.toUTF8 with
      | .error error => .error (.malformed error.display)
      | .ok _ => .ok (some cached)

/-- The atomic store: the new content of the file, or an error. The size cap is enforced on the body
and on the serialized envelope; `fault` is the error the file system raises, if any. -/
def store (J : Serde) (doc : CachedCatalog) (fault : Option CatalogCacheError) :
    Except CatalogCacheError CachedCatalog :=
  if doc.body.utf8ByteSize > maxCatalogBytes then .error (.tooLarge doc.body.utf8ByteSize)
  else if J.prettyLength doc > maxCatalogBytes then .error (.tooLarge (J.prettyLength doc))
  else match fault with
    | some error => .error error
    | none => .ok doc

/-- A not-modified answer updates the freshness and nothing else. -/
def refreshFreshness (J : Serde) (current : CachedCatalog) (fetchedUnix : ℕ)
    (fault : Option CatalogCacheError) : Except CatalogCacheError CachedCatalog :=
  store J { current with fetchedUnix := fetchedUnix } fault

theorem store_eq_ok {J : Serde} {doc doc' : CachedCatalog} {fault : Option CatalogCacheError}
    (h : store J doc fault = .ok doc') : doc' = doc := by
  unfold store at h
  split_ifs at h
  split at h
  · cases h
  · cases h; rfl

theorem refreshFreshness_eq_ok {J : Serde} {current doc' : CachedCatalog} {fetchedUnix : ℕ}
    {fault : Option CatalogCacheError}
    (h : refreshFreshness J current fetchedUnix fault = .ok doc') :
    doc' = { current with fetchedUnix := fetchedUnix } := store_eq_ok h

theorem loadStrict_eq_ok {J : Serde} {file current : Option CachedCatalog}
    {fault : Option CatalogCacheError} (h : loadStrict J file fault = .ok current) :
    current = file ∧ ∀ doc ∈ file, ∃ parsed, CatalogDocument.fromBytes J doc.body.toUTF8 =
    .ok parsed := by
  unfold loadStrict at h
  split at h
  · cases h
  · cases h; simp
  · split_ifs at h
    split at h
    · cases h
    · next parsed hp =>
      cases h
      refine ⟨rfl, fun doc hdoc => ⟨parsed, ?_⟩⟩
      cases hdoc
      exact hp

end CatalogCache

/-! ## Concrete catalogs -/

/-- One free server with one online physical, at half load. -/
structure CatalogRow where
  id : String
  name : String
  entryCountry : String
  exitCountry : String
  state : String
  online : Bool

/-- The server of a row. -/
def CatalogRow.server (r : CatalogRow) : LogicalServer where
  id := r.id
  name := r.name
  city := none
  state := some r.state
  entryCountry := r.entryCountry
  exitCountry := r.exitCountry
  tier := 0
  features := ⟨0⟩
  status := some (if r.online then 1 else 0)
  load := some 50
  score := none
  gatewayName := none
  servers := [⟨1, none⟩]

/-- The JSON object of a row. -/
def CatalogRow.json (r : CatalogRow) : String :=
  "\x7b\"ID\":\"" ++ r.id ++ "\",\"Name\":\"" ++ r.name ++ "\",\"State\":\"" ++ r.state ++
    "\",\"EntryCountry\":\"" ++ r.entryCountry ++ "\",\"ExitCountry\":\"" ++ r.exitCountry ++
    "\",\"Tier\":0,\"Features\":0,\"Status\":" ++ (if r.online then "1" else "0") ++
    ",\"Load\":50,\"Servers\":[\x7b\"Domain\":\"node.example\",\"Status\":1\x7d]\x7d"

/-- The document of some rows. -/
def catalogOf (rows : List CatalogRow) : CatalogDocument := ⟨1000, none, rows.map CatalogRow.server⟩

/-- The body of some rows. -/
def bodyOf (rows : List CatalogRow) : ByteArray :=
  ("\x7b\"Code\":1000,\"StatusID\":\"s\",\"LogicalServers\":[" ++
    ",".intercalate (rows.map CatalogRow.json) ++ "]\x7d").toUTF8

/-- The codec on the bodies of some catalogs. -/
def serdeOf (known : List (List CatalogRow)) : Serde :=
  ⟨fun body => ((known.find? fun rows => bodyOf rows = body).map fun rows =>
    .ok (catalogOf rows)).getD
      (.error "expected value"),
    fun doc => doc.body.utf8ByteSize⟩

theorem fromBytes_bodyOf {known : List (List CatalogRow)} {rows : List CatalogRow}
    (hknown : (known.find? fun rows' => bodyOf rows' = bodyOf rows) = some rows)
    (hsize : (bodyOf rows).size ≤ maxCatalogBytes)
    (hlogical : (catalogOf rows).logicalServers.length ≤ maxLogicalServers)
    (hphysical : (catalogOf rows).physicalCount ≤ maxPhysicalServersTotal)
    (hdomains : validateValueDomains (catalogOf rows) = .ok ()) :
    CatalogDocument.fromBytes (serdeOf known) (bodyOf rows) = .ok (catalogOf rows) := by
  have hdecode : (serdeOf known).fromSlice (bodyOf rows) = .ok (catalogOf rows) := by
    unfold serdeOf
    dsimp only
    rw [hknown]
    rfl
  have hcaps : ¬ ((catalogOf rows).logicalServers.length > maxLogicalServers ∨
      (catalogOf rows).physicalCount > maxPhysicalServersTotal) := by omega
  unfold CatalogDocument.fromBytes
  rw [if_neg (not_lt.mpr hsize), hdecode]
  dsimp only
  rw [if_neg (by simp [catalogOf]), if_neg hcaps, hdomains]

end ProtonWire
