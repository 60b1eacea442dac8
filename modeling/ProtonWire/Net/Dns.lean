import ProtonWire.Lib.Fallible
import ProtonWire.Net.KillSwitch

/-!
# The resolver

`crates/net/src/dns.rs`: systemd-resolved through `resolvectl`, or the resolv.conf file with its
evidence.

Which file-system call or `resolvectl` run fails, and the inode of a file a call creates, are the
environment's (`DnsEnv`).

* `captureResolvConf`, `applyResolvConf`, `revertResolvConf`: the file backend;
* `applyDns`: the resolver phase of a connect;
* **`applyDns_isOk_iff`**: which calls it needs.
-/

namespace ProtonWire

/-! ## Types -/

/-- The DNS mode. -/
inductive DnsMode where
  | proton
  | custom
  | system
  | none
  deriving DecidableEq

/-- One DNS server. -/
structure DnsServer where
  address : IpAddr
  port : UInt16
  deriving DecidableEq

/-- The session's resolved DNS configuration. -/
structure DnsConfig where
  mode : DnsMode
  servers : List DnsServer
  deriving DecidableEq

/-- Which backend owns the host. -/
inductive DnsBackend where
  | systemdResolved
  | resolvConf
  deriving DecidableEq

/-- A file. -/
structure ConfFile where
  inode : UInt64
  content : String
  deriving DecidableEq

/-- What is at a path: a file, or a link and the file it leads to, if there is one. -/
inductive ConfEntry where
  | file (file : ConfFile)
  | symlink (target : String) (file : Option ConfFile)
  deriving DecidableEq

/-- The resolver state of the host: whether systemd-resolved runs, and what is at
`/etc/resolv.conf`. -/
structure Resolver where
  resolved : Bool
  conf : Option ConfEntry
  deriving DecidableEq

/-- The ownership evidence for the file that was replaced. -/
structure ResolvConfEvidence where
  path : String
  symlinkTarget : Option String
  originalContent : String
  originalInode : UInt64
  deriving DecidableEq

/-- Every failure is a named refusal. -/
inductive DnsError where
  | changedUnderUs (path : String) (expected actual : UInt64)
  | io (error : String)
  | resolvectl (error : String)
  deriving DecidableEq

/-- The calls that may fail. -/
inductive DnsCall where
  | symlinkMetadata
  | readLink
  | metadata
  | read
  | writeTemp
  | rename
  | revertMetadata
  | revertWrite
  | resolvectlDns (link : String) (addresses : List String)
  | resolvectlDomain (link domain : String)
  | resolvectlRevert (link : String)
  deriving DecidableEq

/-- What the environment answers. -/
structure DnsEnv where
  fails : DnsCall → Option String
  /-- The inode of a file that is created. -/
  inode : UInt64

/-- A file-system call. -/
def DnsEnv.io (env : DnsEnv) (call : DnsCall) : Except DnsError Unit :=
  match env.fails call with
  | some error => .error (.io error)
  | none => .ok ()

/-- A `resolvectl` run. -/
def DnsEnv.resolvectl (env : DnsEnv) (call : DnsCall) : Except DnsError Unit :=
  match env.fails call with
  | some error => .error (.resolvectl error)
  | none => .ok ()

namespace Dns

open Fallible

/-- The managed path. -/
def resolvConfPath : String := "/etc/resolv.conf"

/-- The error of a path that leads to no file. -/
def notFound : String := "No such file or directory (os error 2)"

def detectBackend (resolver : Resolver) : DnsBackend :=
  if resolver.resolved then .systemdResolved else .resolvConf

/-! ## The file backend -/

/-- Render a resolv.conf for the servers. -/
def renderResolvConf (servers : List DnsServer) : String :=
  "# Managed by ProtonWire — DO NOT EDIT\n" ++
    String.join (servers.map fun server => s!"nameserver {server.address.display}\n") ++
    "options edns0\n"

/-- The file at the end of the path. -/
def fileOf (conf : Option ConfEntry) : Option ConfFile :=
  match conf with
  | some (.file file) => some file
  | some (.symlink _ file) => file
  | none => none

/-- The file at the end of the path, for a call that follows links. -/
def followed (conf : Option ConfEntry) : Except DnsError ConfFile :=
  match fileOf conf with
  | some file => .ok file
  | none => .error (.io notFound)

/-- Capture what is about to be replaced. -/
def captureResolvConf (env : DnsEnv) (resolver : Resolver) : Except DnsError ResolvConfEvidence :=
  do
  env.io .symlinkMetadata
  match resolver.conf with
  | none => .error (.io notFound)
  | some (.symlink target _) =>
    env.io .readLink
    env.io .metadata
    let real ← followed resolver.conf
    env.io .read
    .ok ⟨resolvConfPath, some target, real.content, real.inode⟩
  | some (.file file) =>
    env.io .read
    .ok ⟨resolvConfPath, none, file.content, file.inode⟩

/-- Replace the file, or the link, by a new file. -/
def applyResolvConf (env : DnsEnv) (servers : List DnsServer) (resolver : Resolver) :
    Except DnsError Unit × Resolver :=
  match (do env.io .writeTemp; env.io .rename : Except DnsError Unit) with
  | .error error => (.error error, resolver)
  | .ok () => (.ok (), { resolver with conf := some (.file ⟨env.inode, renderResolvConf servers⟩) })

/-- What is at the path once its file is written, the file created if there is none. -/
def written (env : DnsEnv) (content : String) : Option ConfEntry → ConfEntry
  | some (.file file) => .file { file with content := content }
  | some (.symlink target (some file)) => .symlink target (some { file with content := content })
  | some (.symlink target none) => .symlink target (some ⟨env.inode, content⟩)
  | none => .file ⟨env.inode, content⟩

/-- Write the original content back, unless the file is another one now. -/
def revertResolvConf (env : DnsEnv) (evidence : ResolvConfEvidence) (resolver : Resolver) :
    Except DnsError Unit × Resolver :=
  let write := match env.io .revertWrite with
    | .error error => (.error error, resolver)
    | .ok () =>
      (.ok (), { resolver with conf := some (written env evidence.originalContent resolver.conf) })
  match env.io .revertMetadata, fileOf resolver.conf with
  | .ok (), some file =>
    if file.inode ≠ evidence.originalInode then
      (.error (.changedUnderUs evidence.path evidence.originalInode file.inode), resolver)
    else write
  -- a file that is gone is written again
  | _, _ => write

/-! ## The systemd-resolved backend -/

/-- Set the servers and the domains of a link. -/
def applyResolved (env : DnsEnv) (link : String) (servers : List DnsServer) :
    Except DnsError Unit := do
  env.resolvectl (.resolvectlDns link (servers.map fun server => server.address.display))
  env.resolvectl (.resolvectlDomain link "~.")

/-- Revert a link. -/
def revertResolved (env : DnsEnv) (link : String) : Except DnsError Unit :=
  env.resolvectl (.resolvectlRevert link)

/-! ## The resolver phase -/

/-- Capture and replace the file. -/
def applyFile (env : DnsEnv) (servers : List DnsServer) (resolver : Resolver) :
    Except DnsError (Option ResolvConfEvidence) × Resolver :=
  match captureResolvConf env resolver with
  | .error error => (.error error, resolver)
  | .ok evidence =>
    match applyResolvConf env servers resolver with
    | (.error error, resolver) => (.error error, resolver)
    | (.ok (), resolver) => (.ok (some evidence), resolver)

/-- The resolver phase of a connect: the evidence of a replaced file. -/
def applyDns (env : DnsEnv) (tunIfname : String) (dns : DnsConfig) (resolver : Resolver) :
    Except DnsError (Option ResolvConfEvidence) × Resolver :=
  match dns.mode, detectBackend resolver with
  | .none, _ => (.ok none, resolver)
  | _, .systemdResolved =>
    match applyResolved env tunIfname dns.servers with
    | .ok () => (.ok none, resolver)
    -- resolved does not know the interface: fall back to the file
    | .error _ => applyFile env dns.servers resolver
  | _, .resolvConf => applyFile env dns.servers resolver

/-- The resolver phase of a disconnect. What a link reverts to is systemd-resolved's own. -/
def revertDns (env : DnsEnv) (tunIfname : String) (evidence : Option ResolvConfEvidence)
    (backend : DnsBackend) (resolver : Resolver) : Except DnsError Unit × Resolver :=
  match evidence, backend with
  | some evidence, _ => revertResolvConf env evidence resolver
  | none, .systemdResolved => (revertResolved env tunIfname, resolver)
  | none, .resolvConf => (.ok (), resolver)

/-! ## What the phase needs -/

/-- The calls that capture the file. -/
def captureCalls : Option ConfEntry → List DnsCall
  | some (.symlink _ _) => [.symlinkMetadata, .readLink, .metadata, .read]
  | _ => [.symlinkMetadata, .read]

/-- The file is there, and none of the calls that capture and replace it fails. -/
def FileReplaceable (env : DnsEnv) (resolver : Resolver) : Prop :=
  (fileOf resolver.conf).isSome = true ∧
    ∀ call ∈ captureCalls resolver.conf ++ [.writeTemp, .rename], env.fails call = none

/-- The link takes its servers and its domain. -/
def LinkTakes (env : DnsEnv) (link : String) (servers : List DnsServer) : Prop :=
  env.fails (.resolvectlDns link (servers.map fun server => server.address.display)) = none ∧
    env.fails (.resolvectlDomain link "~.") = none

/-- The resolver phase has what it needs. -/
def Applicable (env : DnsEnv) (tunIfname : String) (dns : DnsConfig) (resolver : Resolver) : Prop :=
  dns.mode = .none ∨ (resolver.resolved = true ∧ LinkTakes env tunIfname dns.servers) ∨
  FileReplaceable env resolver

theorem io_eq_ok {env : DnsEnv} {call : DnsCall} :
    env.io call = .ok () ↔ env.fails call = none := by
  unfold DnsEnv.io
  cases env.fails call <;> simp

theorem resolvectl_eq_ok {env : DnsEnv} {call : DnsCall} :
    env.resolvectl call = .ok () ↔ env.fails call = none := by
  unfold DnsEnv.resolvectl
  cases env.fails call <;> simp

theorem applyResolved_eq_ok_iff {env : DnsEnv} {link : String} {servers : List DnsServer} :
    applyResolved env link servers = .ok () ↔ LinkTakes env link servers := by
  rw [applyResolved, bind_eq_ok, LinkTakes]
  constructor
  · rintro ⟨⟨⟩, hdns, hdomain⟩
    exact ⟨resolvectl_eq_ok.mp hdns, resolvectl_eq_ok.mp hdomain⟩
  · rintro ⟨hdns, hdomain⟩
    exact ⟨(), resolvectl_eq_ok.mpr hdns, resolvectl_eq_ok.mpr hdomain⟩

theorem followed_isOk_iff {conf : Option ConfEntry} :
    (∃ file, followed conf = .ok file) ↔ (fileOf conf).isSome = true := by
  unfold followed
  cases fileOf conf <;> simp

theorem captureResolvConf_isOk_iff {env : DnsEnv} {resolver : Resolver} :
    (∃ evidence, captureResolvConf env resolver = .ok evidence) ↔
      (fileOf resolver.conf).isSome = true ∧ ∀ call ∈ captureCalls resolver.conf, env.fails call =
      none := by
  unfold captureResolvConf
  rcases resolver.conf with _ | ⟨file⟩ | ⟨target, file⟩
  · simp only [bind_eq_ok]
    exact ⟨fun ⟨_, _, _, h⟩ => (nomatch h), fun h => (nomatch h.1)⟩
  · simp only [bind_eq_ok, captureCalls, List.forall_mem_cons]
    constructor
    · rintro ⟨-, ⟨⟩, hmeta, ⟨⟩, hread, -⟩
      exact ⟨rfl, io_eq_ok.mp hmeta, io_eq_ok.mp hread, nofun⟩
    · rintro ⟨-, hmeta, hread, -⟩
      exact ⟨_, (), io_eq_ok.mpr hmeta, (), io_eq_ok.mpr hread, rfl⟩
  · simp only [bind_eq_ok, captureCalls, List.forall_mem_cons, ← followed_isOk_iff]
    constructor
    · rintro ⟨-, ⟨⟩, hmeta, ⟨⟩, hlink, ⟨⟩, hreal, real, hfile, ⟨⟩, hread, -⟩
      exact ⟨⟨real, hfile⟩, io_eq_ok.mp hmeta, io_eq_ok.mp hlink, io_eq_ok.mp hreal,
        io_eq_ok.mp hread, nofun⟩
    · rintro ⟨⟨real, hfile⟩, hmeta, hlink, hreal, hread, -⟩
      exact ⟨_, (), io_eq_ok.mpr hmeta, (), io_eq_ok.mpr hlink, (), io_eq_ok.mpr hreal, real,
        hfile, (),
        io_eq_ok.mpr hread, rfl⟩

theorem applyFile_isOk_iff {env : DnsEnv} {servers : List DnsServer} {resolver : Resolver} :
    (∃ evidence, (applyFile env servers resolver).1 = .ok evidence) ↔
    FileReplaceable env resolver := by
  have hreplace : ∀ result : Except DnsError Unit, result = (do env.io .writeTemp; env.io .rename) →
      (result = .ok () ↔ env.fails .writeTemp = none ∧ env.fails .rename = none) := by
    rintro result rfl
    rw [bind_eq_ok]
    exact ⟨fun ⟨_, hwrite, hrename⟩ => ⟨io_eq_ok.mp hwrite, io_eq_ok.mp hrename⟩,
      fun ⟨hwrite, hrename⟩ => ⟨(), io_eq_ok.mpr hwrite, io_eq_ok.mpr hrename⟩⟩
  rw [FileReplaceable, List.forall_mem_append, ← and_assoc, ← captureResolvConf_isOk_iff, applyFile,
    applyResolvConf]
  generalize hres : (do env.io .writeTemp; env.io .rename : Except DnsError Unit) = result
  have hiff := hreplace result hres.symm
  cases captureResolvConf env resolver with
  | error error => simp
  | ok evidence => cases result <;> simp_all

theorem applyDns_of_ne_none {env : DnsEnv} {tunIfname : String} {dns : DnsConfig}
    {resolver : Resolver} (h : dns.mode ≠ .none) : applyDns env tunIfname dns resolver =
      match detectBackend resolver with
      | .systemdResolved =>
        match applyResolved env tunIfname dns.servers with
        | .ok () => (.ok none, resolver)
        | .error _ => applyFile env dns.servers resolver
      | .resolvConf => applyFile env dns.servers resolver := by
  unfold applyDns
  cases hmode : dns.mode <;> first | exact absurd hmode h | (cases detectBackend resolver <;> rfl)

/-- **The calls the phase needs.** -/
theorem applyDns_isOk_iff {env : DnsEnv} {tunIfname : String} {dns : DnsConfig}
    {resolver : Resolver} :
    (∃ evidence, (applyDns env tunIfname dns resolver).1 = .ok evidence) ↔
    Applicable env tunIfname dns resolver := by
  have hfile : (∃ evidence, (applyFile env dns.servers resolver).1 = .ok evidence) ↔
    FileReplaceable env resolver :=
    applyFile_isOk_iff
  rw [Applicable, ← applyResolved_eq_ok_iff, ← hfile]
  by_cases hmode : dns.mode = .none
  · refine ⟨fun _ => Or.inl hmode, fun _ => ⟨none, ?_⟩⟩
    unfold applyDns
    rw [hmode]
  · rw [applyDns_of_ne_none hmode, detectBackend]
    cases resolver.resolved with
    | false => simp [hmode]
    | true => cases applyResolved env tunIfname dns.servers <;> simp [hmode]

end Dns

end ProtonWire
