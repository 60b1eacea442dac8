import ProtonWire.Lib.FileSystem
import ProtonWire.Lib.Octets
import ProtonWire.Net.Session

/-!
# The resolver file on disk

The file backend of `crates/net/src/dns.rs` over a file system with names, links and inodes: what a
revert finds once `apply_resolv_conf` has renamed its temporary file over the path. No call fails
for another reason than the names it goes by.

* `captureResolvConf`, `applyResolvConf`, `revertResolvConf`: the calls of the source;
* `Managed`, `Restored`: a path that leads to a file, and that path as it was captured;
* `Shows`, `capture_shows`, `apply_shows`, `revert_shows`: the file backend of `Dns` is what they do
  to the path;
* **`resolver_restore_iff`**: when the original comes back, and when another's file is left alone;
* `resolver_stays_ours`: what a session leaves behind.
-/

namespace ProtonWire

/-- The file system of the host, by absolute names. -/
abbrev Disk := FileSystem.Disk String String ByteArray

namespace OnDisk

open Dns (resolvConfPath renderResolvConf)
open Fallible (bind_eq_ok)

/-- The temporary file: the path with the extension `protonwire.tmp`. -/
def tempPath : String := "/etc/resolv.protonwire.tmp"

/-! ## The calls -/

/-- The text of a failed call. -/
def ioError : FileSystem.IoError → DnsError
  | .notFound => .io Dns.notFound
  | .notDirectory => .io "Not a directory (os error 20)"
  | .isDirectory => .io "Is a directory (os error 21)"
  | .tooManyLinks => .io "Too many levels of symbolic links (os error 40)"

/-- The text of a content. -/
def textOf (content : ByteArray) : Except DnsError String :=
  match String.fromUTF8? content with
  | some text => .ok text
  | none => .error (.io "stream did not contain valid UTF-8")

/-- Read a file that must be a text. -/
def readToString (d : Disk) (name : String) : Except DnsError String := do
  let content ← (d.read name).mapError ioError
  textOf content

/-- Capture what is about to be replaced. -/
def captureResolvConf (d : Disk) : Except DnsError ResolvConfEvidence :=
  match d.entries resolvConfPath with
  | none => .error (.io Dns.notFound)
  | some (.link target) => do
    let inode ← (d.stat resolvConfPath).mapError ioError
    let content ← readToString d resolvConfPath
    .ok ⟨resolvConfPath, some target, content, inode⟩
  | some (.file inode) => do
    let content ← readToString d resolvConfPath
    .ok ⟨resolvConfPath, none, content, inode⟩
  | some (.directory inode) => do
    let content ← readToString d resolvConfPath
    .ok ⟨resolvConfPath, none, content, inode⟩

/-- Write the temporary file and rename it over the path. A file that is created takes the inode. -/
def applyResolvConf (inode : UInt64) (evidence : ResolvConfEvidence) (servers : List DnsServer)
    (d : Disk) :
    Except DnsError Unit × Disk :=
  match d.write inode (renderResolvConf servers).toUTF8 tempPath with
  | .error error => (.error (ioError error), d)
  | .ok d =>
    match d.rename tempPath evidence.path with
    | .error error => (.error (ioError error), d)
    | .ok d => (.ok (), d)

/-- Write the original content back. -/
def restore (inode : UInt64) (evidence : ResolvConfEvidence) (d : Disk) :
    Except DnsError Unit × Disk :=
  match d.write inode evidence.originalContent.toUTF8 evidence.path with
  | .error error => (.error (ioError error), d)
  | .ok d => (.ok (), d)

/-- Write it back unless the file is another one now. A file that is gone is written again. -/
def revertResolvConf (inode : UInt64) (evidence : ResolvConfEvidence) (d : Disk) :
    Except DnsError Unit × Disk :=
  match d.stat evidence.path with
  | .error _ => restore inode evidence d
  | .ok current =>
    if current ≠ evidence.originalInode then
      (.error (.changedUnderUs evidence.path evidence.originalInode current), d)
    else restore inode evidence d

/-! ## What is managed -/

/-- The path leads to a file, and the temporary file stands in the same directory. -/
structure Managed (d : Disk) (inode : UInt64) : Prop where
  file : d.FileAt resolvConfPath inode
  sibling : d.lead tempPath = d.lead resolvConfPath

/-- The target of a link. -/
def linkTarget : FileSystem.Entry String → Option String
  | .link target => some target
  | _ => none

/-- What is restored of an entry: that it is a file, or the target of the link. -/
def kind : FileSystem.Entry String → Option (Option String)
  | .file _ => some none
  | .link target => some (some target)
  | .directory _ => none

/-- The path is of the kind it was, with the content it had. -/
def Restored (d d' : Disk) : Prop :=
  (d'.entries resolvConfPath).map kind = (d.entries resolvConfPath).map kind ∧
    d'.read resolvConfPath = d.read resolvConfPath

/-- Captured, replaced and reverted with nobody writing in between, the path is as it was. -/
def Restores (d : Disk) (servers : List DnsServer) (inode : UInt64) : Prop :=
  ∃ evidence d₁, captureResolvConf d = .ok evidence ∧ applyResolvConf inode evidence servers d =
    (.ok (), d₁) ∧
    ∀ inode', ∃ d₂, revertResolvConf inode' evidence d₁ = (.ok (), d₂) ∧ Restored d d₂

/-- The revert reports a change and leaves the disk alone. -/
def Refuses (evidence : ResolvConfEvidence) (d : Disk) : Prop :=
  ∀ inode', ∃ actual, revertResolvConf inode' evidence d =
    (.error (.changedUnderUs resolvConfPath evidence.originalInode actual), d)

theorem tempPath_ne : tempPath ≠ resolvConfPath := by decide

variable {d d₁ d₂ : Disk} {inode fresh : UInt64} {evidence : ResolvConfEvidence}
    {servers : List DnsServer}

theorem textOf_eq_ok {content : ByteArray} {text : String} :
    textOf content = .ok text ↔ content = text.toUTF8 := by
  constructor
  · intro h
    unfold textOf at h
    split at h
    · next text' htext =>
      cases h
      exact (Octets.toUTF8_of_fromUTF8? htext).symm
    · cases h
  · rintro rfl
    rw [textOf, Octets.fromUTF8?_toUTF8]

theorem captureResolvConf_eq (h : d.FileAt resolvConfPath inode) :
    captureResolvConf d = (textOf (d.contents inode)).map fun content =>
      ⟨resolvConfPath, (d.entries resolvConfPath).bind linkTarget, content, inode⟩ := by
  have hread : readToString d resolvConfPath = textOf (d.contents inode) := by
    rw [readToString, h.read]
    rfl
  rcases h.entry with hentry | ⟨target, hentry⟩
  · rw [captureResolvConf, hentry]
    dsimp only
    rw [hread]
    cases textOf (d.contents inode) <;> rfl
  · rw [captureResolvConf, hentry]
    dsimp only
    rw [hread, h.stat]
    cases textOf (d.contents inode) <;> rfl

theorem captureResolvConf_eq_ok (h : d.FileAt resolvConfPath inode)
    (hcapture : captureResolvConf d = .ok evidence) :
    evidence.path = resolvConfPath ∧ evidence.originalInode = inode ∧
      d.contents inode = evidence.originalContent.toUTF8 := by
  rw [captureResolvConf_eq h] at hcapture
  cases htext : textOf (d.contents inode) with
  | error error =>
    rw [htext] at hcapture
    cases hcapture
  | ok text =>
    rw [htext] at hcapture
    cases hcapture
    exact ⟨rfl, rfl, textOf_eq_ok.mp htext⟩

theorem revertResolvConf_of_same (h : d.FileAt resolvConfPath inode)
    (hpath : evidence.path = resolvConfPath)
    (hinode : evidence.originalInode = inode) : revertResolvConf fresh evidence d =
      (.ok (), { d with
      contents := Function.update d.contents inode evidence.originalContent.toUTF8 }) := by
  rw [revertResolvConf, hpath, h.stat]
  dsimp only
  rw [if_neg (not_not.mpr hinode.symm), restore, hpath, h.write]

theorem restore_ne_changed {path : String} {expected actual : UInt64} :
    (restore fresh evidence d).1 ≠ .error (.changedUnderUs path expected actual) := by
  unfold restore
  split
  · next error _ => cases error <;> exact fun h => by cases h
  · exact fun h => by cases h

theorem refuses_iff (hpath : evidence.path = resolvConfPath) :
    Refuses evidence d ↔ ∃ actual, d.stat resolvConfPath = .ok actual ∧
    actual ≠ evidence.originalInode := by
  constructor
  · intro h
    obtain ⟨actual, hactual⟩ := h 0
    have hfst := congrArg Prod.fst hactual
    unfold revertResolvConf at hfst
    rw [hpath] at hfst
    cases hstat : d.stat resolvConfPath with
    | error error =>
      rw [hstat] at hfst
      exact absurd hfst restore_ne_changed
    | ok current =>
      rw [hstat] at hfst
      dsimp only at hfst
      split_ifs at hfst with hne
      · exact ⟨current, rfl, hne⟩
      · exact absurd hfst restore_ne_changed
  · rintro ⟨actual, hstat, hne⟩ inode'
    refine ⟨actual, ?_⟩
    rw [revertResolvConf, hpath, hstat]
    exact if_pos hne

theorem revertResolvConf_keeps {name : String} {entry : FileSystem.Entry String}
    (hentry : d.entries name = some entry) :
    (revertResolvConf fresh evidence d).2.entries name = some entry := by
  have hrestore : (restore fresh evidence d).2.entries name = some entry := by
    unfold restore
    split
    · exact hentry
    · next d' hwrite => exact (FileSystem.Disk.write_keeps hwrite hentry).1
  unfold revertResolvConf
  split
  · exact hrestore
  · split_ifs
    · exact hentry
    · exact hrestore

/-! ## Nobody writes in between -/

/-- Where the temporary name already is what the path is, the file itself is rewritten, and comes
back. -/
theorem restores_of_twin (h : Managed d inode)
    (htext : ∃ text : String, d.contents inode = text.toUTF8)
    (htwin : d.entries tempPath = d.entries resolvConfPath) : Restores d servers fresh := by
  obtain ⟨text, htext⟩ := htext
  have htemp : d.FileAt tempPath inode := by
    rcases h.file.entry with hentry | ⟨target, hentry⟩
    · exact FileSystem.Disk.FileAt.of_entry (htwin.trans hentry)
    · exact h.file.of_twin hentry (htwin.trans hentry) (by rw [h.sibling])
  have hcapture :
      captureResolvConf d = .ok ⟨resolvConfPath, (d.entries resolvConfPath).bind linkTarget, text,
        inode⟩ := by
    rw [captureResolvConf_eq h.file, textOf_eq_ok.mpr htext]
    rfl
  -- the content of the file is all that the write changes, and the rename leaves the path what it
  -- was
  obtain ⟨d₁, hrename, hfile⟩ : ∃ d₁ : Disk,
      ({ d with contents := Function.update d.contents inode (renderResolvConf servers).toUTF8 } :
       Disk).rename
        tempPath resolvConfPath = .ok d₁ ∧ d₁.FileAt resolvConfPath inode := by
    rcases h.file.entry with hentry | ⟨target, hentry⟩
    · exact ⟨_, FileSystem.Disk.rename_of_same (htwin.trans hentry) hentry, h.file.congr rfl rfl⟩
    · refine ⟨_, FileSystem.Disk.rename_of_link (htwin.trans hentry) hentry, ?_⟩
      exact FileSystem.Disk.fileAt_move_link (h.file.congr rfl rfl) hentry (htwin.trans hentry)
        (congrFun h.sibling target) tempPath_ne
  obtain ⟨hentries, -, -⟩ := FileSystem.Disk.entry_of_rename hrename
  refine ⟨_, d₁, hcapture, ?_, fun inode' => ⟨_, revertResolvConf_of_same hfile rfl rfl, ?_, ?_⟩⟩
  · rw [applyResolvConf, htemp.write]
    dsimp only
    rw [hrename]
  · exact congrArg (Option.map kind) (hentries.trans htwin)
  · rw [h.file.read]
    have hback : ({ d₁ with contents := Function.update d₁.contents inode text.toUTF8 } :
      Disk).FileAt
        resolvConfPath inode := hfile.congr rfl rfl
    refine hback.read.trans (congrArg Except.ok ?_)
    exact (Function.update_self ..).trans htext.symm

theorem twin_of_restores (h : Managed d inode) (hfresh : ¬ d.InUse fresh)
    (hrestores : Restores d servers fresh) :
    d.entries tempPath = d.entries resolvConfPath := by
  obtain ⟨evidence, d₁, hcapture, happly, hreverts⟩ := hrestores
  obtain ⟨d₂, hrevert, hkind, -⟩ := hreverts 0
  obtain ⟨hpath, hinode, -⟩ := captureResolvConf_eq_ok h.file hcapture
  obtain ⟨written, hwrite, hrename⟩ : ∃ written,
      d.write fresh (renderResolvConf servers).toUTF8 tempPath = .ok written ∧
        written.rename tempPath resolvConfPath = .ok d₁ := by
    rw [applyResolvConf, hpath] at happly
    split at happly
    · cases happly
    · next written hwrite =>
      split at happly
      · cases happly
      · next hrename =>
        cases happly
        exact ⟨written, hwrite, hrename⟩
  obtain ⟨hentry, -, -⟩ := FileSystem.Disk.entry_of_rename hrename
  have hstays : ∀ entry, d₁.entries resolvConfPath = some entry →
      (d.entries resolvConfPath).map kind = some (kind entry) := by
    intro entry hd₁
    have hkept : (revertResolvConf 0 evidence d₁).2.entries resolvConfPath = some entry :=
      revertResolvConf_keeps hd₁
    rw [hrevert] at hkept
    rw [← hkind, hkept]
    rfl
  have hsame : ∀ current, d₁.entries resolvConfPath = some (.file current) → current = inode := by
    intro current hd₁
    by_contra hne
    obtain ⟨actual, hrefused⟩ := (refuses_iff hpath).mpr
      ⟨current, (FileSystem.Disk.FileAt.of_entry hd₁).stat, by rwa [hinode]⟩ 0
    rw [hrevert] at hrefused
    cases hrefused
  -- the temporary name is new, or what it was
  cases hbefore : d.entries tempPath with
  | none =>
    have hnew := hentry.trans (FileSystem.Disk.entry_of_write hbefore hwrite).1
    exact absurd (hsame fresh hnew ▸ h.file.inUse) hfresh
  | some entry =>
    have hkept := hentry.trans (FileSystem.Disk.write_keeps hwrite hbefore).1
    have hkinds := hstays entry hkept
    rcases h.file.entry with hfile | ⟨target, hlink⟩
    · rw [hfile] at hkinds ⊢
      cases entry with
      | file current => rw [hsame current hkept]
      | directory _ => cases hkinds
      | link _ => cases hkinds
    · rw [hlink] at hkinds ⊢
      cases entry with
      | file _ => cases hkinds
      | directory _ => cases hkinds
      | link target' =>
        cases hkinds
        rfl

/-! ## The path of the file backend -/

/-- What `Dns` keeps of the path. -/
def Shows (d : Disk) : Option ConfEntry → Prop
  | none => d.entries resolvConfPath = none
  | some (.file file) =>
    d.entries resolvConfPath = some (.file file.inode) ∧ d.contents file.inode = file.content.toUTF8
  | some (.symlink target (some file)) =>
    d.entries resolvConfPath = some (.link target) ∧ d.FileAt resolvConfPath file.inode ∧
      d.contents file.inode = file.content.toUTF8
  | some (.symlink target none) =>
    d.entries resolvConfPath = some (.link target) ∧ d.stat resolvConfPath = .error .notFound

variable {conf : Option ConfEntry} {resolved : Bool} {env : DnsEnv}

theorem io_of_quiet (hquiet : ∀ call, env.fails call = none) (call : DnsCall) :
    env.io call = .ok () := by
  rw [DnsEnv.io, hquiet]

theorem shows_file (h : Shows d conf) {file : ConfFile} (hfile : Dns.fileOf conf = some file) :
    d.FileAt resolvConfPath file.inode ∧ d.contents file.inode = file.content.toUTF8 := by
  rcases conf with _ | ⟨file'⟩ | ⟨target, _ | file'⟩ <;> cases hfile
  · exact ⟨FileSystem.Disk.FileAt.of_entry h.1, h.2⟩
  · exact h.2

theorem shows_gone (h : Shows d conf) (hfile : Dns.fileOf conf = none) :
    d.stat resolvConfPath = .error .notFound := by
  rcases conf with _ | ⟨file'⟩ | ⟨target, _ | file'⟩ <;> cases hfile
  · have hentry : d.entries resolvConfPath = none := h
    exact FileSystem.Disk.stat_of_none hentry
  · exact h.2

/-- A capture on disk is the capture of what the path shows. -/
theorem capture_shows (hquiet : ∀ call, env.fails call = none) (h : Shows d conf) :
    captureResolvConf d = Dns.captureResolvConf env ⟨resolved, conf⟩ := by
  have hio := io_of_quiet hquiet
  cases hfile : Dns.fileOf conf with
  | none =>
    have hstat := shows_gone h hfile
    rcases conf with _ | ⟨file⟩ | ⟨target, _ | file⟩ <;> cases hfile
    · have hentry : d.entries resolvConfPath = none := h
      rw [captureResolvConf, hentry, Dns.captureResolvConf, hio]
      rfl
    · rw [captureResolvConf, h.1, Dns.captureResolvConf]
      simp only [hio, hstat]
      rfl
  | some file =>
    obtain ⟨hat, htext⟩ := shows_file h hfile
    rw [captureResolvConf_eq hat, textOf_eq_ok.mpr htext, Dns.captureResolvConf]
    rcases conf with _ | ⟨file⟩ | ⟨target, _ | file⟩ <;> cases hfile <;>
      simp only [hio, h.1] <;> rfl

/-- A new file takes the path. -/
theorem apply_shows (hquiet : ∀ call, env.fails call = none)
    (hpath : evidence.path = resolvConfPath)
    (hnew : d.entries tempPath = none) (hdirectory : ∀ inode, d.entries resolvConfPath ≠
     some (.directory inode))
    (hcreatable : ∀ name, d.creatable name = true) (servers : List DnsServer) :
    ∃ d₁, applyResolvConf env.inode evidence servers d = (.ok (), d₁) ∧
      Shows d₁ (Dns.applyResolvConf env servers ⟨resolved, conf⟩).2.conf := by
  have hio := io_of_quiet hquiet
  obtain ⟨written, hwritten⟩ : ∃ written : Disk, written = { d with
      entries := Function.update d.entries tempPath (some (.file env.inode))
      contents := Function.update d.contents env.inode (renderResolvConf servers).toUTF8 } :=
        ⟨_, rfl⟩
  have hwrite : d.write env.inode (renderResolvConf servers).toUTF8 tempPath = .ok written := by
    rw [hwritten]
    exact FileSystem.Disk.write_of_none hnew (hcreatable tempPath) ..
  have htemp : written.entries tempPath = some (.file env.inode) := by simp [hwritten]
  have hother : written.entries resolvConfPath = d.entries resolvConfPath := by
    simp [hwritten, tempPath_ne.symm]
  have hcontent : written.contents env.inode = (renderResolvConf servers).toUTF8 := by
    simp [hwritten]
  obtain ⟨d₁, hrename⟩ := FileSystem.Disk.rename_file htemp (by rwa [hother])
    (by rw [hwritten]; exact hcreatable resolvConfPath)
  obtain ⟨hentry, hcontents, -⟩ := FileSystem.Disk.entry_of_rename hrename
  refine ⟨d₁, ?_, ?_⟩
  · rw [applyResolvConf, hwrite]
    dsimp only
    rw [hpath, hrename]
  · rw [Dns.applyResolvConf]
    simp only [hio]
    exact ⟨hentry.trans htemp, by rw [hcontents, hcontent]⟩

/-- A revert on disk is the revert of what the path shows. -/
theorem revert_shows (hquiet : ∀ call, env.fails call = none) (h : Shows d conf)
    (hpath : evidence.path = resolvConfPath) (hcreatable : ∀ name, d.creatable name = true) :
    ∃ d₁, revertResolvConf env.inode evidence d =
      ((Dns.revertResolvConf env evidence ⟨resolved, conf⟩).1, d₁) ∧
      Shows d₁ (Dns.revertResolvConf env evidence ⟨resolved, conf⟩).2.conf := by
  have hio := io_of_quiet hquiet
  rw [Dns.revertResolvConf]
  simp only [hio]
  cases hfile : Dns.fileOf conf with
  | none =>
    have hstat := shows_gone h hfile
    obtain ⟨d₁, hwrite, hat, hcontent⟩ :=
      FileSystem.Disk.write_of_notFound hstat hcreatable env.inode
      evidence.originalContent.toUTF8
    refine ⟨d₁, ?_, ?_⟩
    · rw [revertResolvConf, hpath, hstat]
      dsimp only
      rw [restore, hpath, hwrite]
    · rcases conf with _ | ⟨file⟩ | ⟨target, _ | file⟩ <;> cases hfile
      · exact ⟨(FileSystem.Disk.entry_of_write h hwrite).1, hcontent⟩
      · exact ⟨(FileSystem.Disk.write_keeps hwrite h.1).1, hat, hcontent⟩
  | some file =>
    obtain ⟨hat, htext⟩ := shows_file h hfile
    dsimp only
    by_cases hsame : file.inode = evidence.originalInode
    · rw [revertResolvConf_of_same hat hpath hsame.symm, if_neg (not_not.mpr hsame)]
      refine ⟨_, rfl, ?_⟩
      rcases conf with _ | ⟨file⟩ | ⟨target, _ | file⟩ <;> cases hfile
      · exact ⟨h.1, Function.update_self ..⟩
      · exact ⟨h.1, hat.congr rfl rfl, Function.update_self ..⟩
    · rw [if_pos hsame]
      refine ⟨d, ?_, h⟩
      rw [revertResolvConf, hpath, hat.stat]
      exact if_pos hsame

/-- **The resolver comes back exactly where the temporary name already was what the path is.** With
nobody writing in between, the three calls succeed and restore the path if and only if its content
is a text and the temporary name stands for the same file or the same link: else the file renamed
over the path has an inode of its own, and the revert takes it for another manager's. Whatever
others make of the disk in between, the revert refuses and leaves it alone if and only if the path
leads to another inode than the captured one. -/
theorem resolver_restore_iff (d : Disk) {inode fresh : UInt64} (h : Managed d inode)
    (hfresh : ¬ d.InUse fresh) (servers : List DnsServer) :
    (Restores d servers fresh ↔
        (∃ text : String, d.contents inode = text.toUTF8) ∧
        d.entries tempPath = d.entries resolvConfPath) ∧
      ∀ evidence d₁, captureResolvConf d = .ok evidence →
        applyResolvConf fresh evidence servers d = (.ok (), d₁) →
        ∀ d₂ : Disk, Refuses evidence d₂ ↔ ∃ actual, d₂.stat resolvConfPath = .ok actual ∧
          actual ≠ inode := by
  refine ⟨⟨fun hrestores => ⟨?_, twin_of_restores h hfresh hrestores⟩, fun ⟨htext, htwin⟩ => ?_⟩,
    ?_⟩
  · obtain ⟨evidence, -, hcapture, -⟩ := hrestores
    exact ⟨_, (captureResolvConf_eq_ok h.file hcapture).2.2⟩
  · exact restores_of_twin h htext htwin
  · intro evidence d₁ hcapture _ d₂
    obtain ⟨hpath, hinode, -⟩ := captureResolvConf_eq_ok h.file hcapture
    rw [refuses_iff hpath, hinode]

/-- A host whose resolver file and temporary file are one file. -/
def twinDisk : Disk where
  entries name := if name = resolvConfPath ∨ name = tempPath then some (.file 7) else none
  contents _ := "nameserver 10.0.0.1\n".toUTF8
  lead _ target := target
  creatable _ := true

/-- What another manager renamed over the path. -/
def foreignDisk : Disk :=
  { twinDisk with entries := fun name => if name = resolvConfPath then some (.file 9) else none }

theorem resolver_restore_iff_twin :
    Restores twinDisk [] 8 ∧ ∀ evidence d₁, captureResolvConf twinDisk = .ok evidence →
      applyResolvConf 8 evidence [] twinDisk = (.ok (), d₁) → Refuses evidence foreignDisk := by
  have hmanaged : Managed twinDisk 7 := ⟨FileSystem.Disk.FileAt.of_entry rfl, rfl⟩
  have hfresh : ¬ twinDisk.InUse 8 := by
    rintro ⟨name, hfile | hfile⟩ <;> simp only [twinDisk] at hfile <;> split_ifs at hfile <;>
      cases hfile
  obtain ⟨hrestores, hrefuses⟩ := resolver_restore_iff twinDisk hmanaged hfresh []
  refine ⟨hrestores.mpr ⟨⟨"nameserver 10.0.0.1\n", rfl⟩, rfl⟩,
    fun evidence d₁ hcapture happly => ?_⟩
  exact (hrefuses evidence d₁ hcapture happly foreignDisk).mpr ⟨9, rfl, by decide⟩

/-- A host whose resolver file is a regular file. -/
def plainDisk : Disk where
  entries name := if name = resolvConfPath then some (.file 7) else none
  contents _ := "nameserver 10.0.0.1\n".toUTF8
  lead _ target := target
  creatable _ := true

/-- What is captured there. -/
def plainEvidence : ResolvConfEvidence := ⟨resolvConfPath, none, "nameserver 10.0.0.1\n", 7⟩

/-- **Its own replacement is refused.** -/
theorem own_replacement_refused :
    captureResolvConf plainDisk = .ok plainEvidence ∧
    (applyResolvConf 8 plainEvidence [] plainDisk).1 = .ok () ∧
      (revertResolvConf 9 plainEvidence (applyResolvConf 8 plainEvidence [] plainDisk).2).1 =
        .error (.changedUnderUs resolvConfPath 7 8) ∧ ¬ Restores plainDisk [] 8 := by
  have hcapture : captureResolvConf plainDisk = .ok plainEvidence := by rfl
  have hrefused :
    (revertResolvConf 9 plainEvidence (applyResolvConf 8 plainEvidence [] plainDisk).2).1 =
      .error (.changedUnderUs resolvConfPath 7 8) := by rfl
  refine ⟨hcapture, rfl, hrefused, ?_⟩
  rintro ⟨evidence, d₁, hcapture', happly, hreverts⟩
  obtain rfl : plainEvidence = evidence := Except.ok.inj (hcapture.symm.trans hcapture')
  obtain ⟨d₂, hrevert, -⟩ := hreverts 9
  rw [happly, hrevert] at hrefused
  cases hrefused

/-- A host whose resolver file is a link to a file of its manager. -/
def linkedDisk (content : String) : Disk where
  entries name :=
    if name = resolvConfPath then some (.link "/run/stub") else if name = "/run/stub" then
    some (.file 3) else none
  contents _ := content.toUTF8
  lead _ target := target
  creatable _ := true

/-- **A manager that puts its link back is overwritten**: what it has in its file by then is
lost. -/
theorem relinked_overwritten :
    ∃ evidence, captureResolvConf (linkedDisk "nameserver 10.0.0.1\n") = .ok evidence ∧
      (applyResolvConf 8 evidence [] (linkedDisk "nameserver 10.0.0.1\n")).1 = .ok () ∧
      (revertResolvConf 9 evidence (linkedDisk "nameserver 10.0.0.2\n")).1 = .ok () ∧
      (revertResolvConf 9 evidence (linkedDisk "nameserver 10.0.0.2\n")).2.read resolvConfPath =
        .ok "nameserver 10.0.0.1\n".toUTF8 :=
  ⟨⟨resolvConfPath, some "/run/stub", "nameserver 10.0.0.1\n", 3⟩, rfl, rfl, rfl, rfl⟩

/-! ## A session -/

theorem conf_of_applyDns {env : DnsEnv} {tunIfname : String} {dns : DnsConfig}
    {resolver resolver' : Resolver}
    {evidence : ResolvConfEvidence} (h : Dns.applyDns env tunIfname dns resolver =
     (.ok (some evidence), resolver')) :
    resolver'.conf = some (.file ⟨env.inode, renderResolvConf dns.servers⟩) := by
  have hfile : Dns.applyFile env dns.servers resolver = (.ok (some evidence), resolver') →
      resolver'.conf = some (.file ⟨env.inode, renderResolvConf dns.servers⟩) := by
    intro hfile
    unfold Dns.applyFile Dns.applyResolvConf at hfile
    split at hfile
    · cases hfile
    · split at hfile
      · cases hfile
      · next hresult =>
        cases hfile
        split at hresult
        · cases hresult
        · cases hresult
          rfl
  by_cases hmode : dns.mode = .none
  · unfold Dns.applyDns at h
    rw [hmode] at h
    cases h
  · rw [Dns.applyDns_of_ne_none hmode] at h
    split at h
    · split at h
      · cases h
      · exact hfile h
    · exact hfile h

/-- **A session that replaced the resolver file leaves its own behind**: where its file has an inode
of its own and nobody touches it, the disconnect's revert refuses, and nothing says so. -/
theorem resolver_stays_ours {σ : Type*} (E : NetlinkExecutor σ) {text : String}
    {inputs : ConnectInputs}
    {extras : KillSwitchPolicy} {env : ConnectEnv} {host host₁ : Host σ} {state : SessionState}
    (hconnect : connect E text inputs extras env host = some (.ok state, host₁))
    {evidence : ResolvConfEvidence} (hevidence : state.dnsEvidence = some evidence)
    (hinode : env.dns.inode ≠ evidence.originalInode)
    (host₂ : Host σ) (hresolver : host₂.resolver = host₁.resolver) (tunIfname : String)
    (permanent : Bool) (prior : Option GenerationId) (denv : DisconnectEnv)
    (hquiet : denv.dns.fails .revertMetadata = none) :
    (disconnect E state tunIfname permanent prior denv host₂).2.resolver.conf =
      some (.file ⟨env.dns.inode, renderResolvConf inputs.dns.servers⟩) := by
  have hconf : host₂.resolver.conf = some
    (.file ⟨env.dns.inode, renderResolvConf inputs.dns.servers⟩) := by
    obtain ⟨error, _, -, hres, -⟩ | ⟨plan, x, -, hwith⟩ := connect_cases hconnect
    · cases hres
    obtain ⟨error, hres, -⟩ | ⟨nft, -, -, ⟨error, -, hres, -⟩ | ⟨-, hcommit⟩⟩ :=
      connectWith_cases hwith
    · cases hres
    · cases hres
    obtain ⟨txn, -, ⟨failure, _, -, hres, -⟩ | ⟨installed, y, dns, resolver, -, hdns, rfl, hend⟩⟩ :=
      commitRoutes_cases hcommit
    · cases hres
    rcases hend with ⟨error, -, hres⟩ | ⟨taken, rfl, hres⟩
    · cases hres
    · cases hres
      rw [hresolver]
      obtain rfl : taken = some evidence := hevidence
      exact conf_of_applyDns hdns
  have hrevert :
    (Dns.revertDns denv.dns tunIfname state.dnsEvidence state.dnsBackend host₂.resolver).2 =
      host₂.resolver := by
    have hio : denv.dns.io .revertMetadata = .ok () := Dns.io_eq_ok.mpr hquiet
    rw [hevidence, Dns.revertDns, Dns.revertResolvConf, hio, hconf]
    dsimp only [Dns.fileOf]
    rw [if_pos hinode]
  unfold disconnect
  rw [hrevert]
  dsimp only
  rcases E.cleanupOps state.installedOps host₂.routing with ⟨error | cleanup, x⟩
  · exact hconf
  dsimp only
  cases (RouteTransaction.new state.plan).extend cleanup with
  | error error => exact hconf
  | ok txn =>
    dsimp only
    rcases txn.apply E x with ⟨failure | applied, y⟩
    · exact hconf
    dsimp only
    split_ifs
    · exact hconf
    · rcases KillSwitch.remove denv.remove prior host₂.nft with ⟨error | ⟨⟩, nft⟩ <;> exact hconf

end OnDisk

end ProtonWire
