import ProtonWire.Lib.Octets
import ProtonWire.Store.FsTrust
import ProtonWire.Store.Session

/-!
# Files read through a pinned descriptor

`SystemdCredentialDirectory::read` of `crates/store/src/credential_input.rs` and
`EncryptedLocalStore::load` of `crates/store/src/writable_store.rs`, while others rename, unlink,
link and create what they like between any two of their system calls.

* `History`: what each call met;
* `SystemdCredentialDirectory.read`, `EncryptedLocalStore.load`: the two loaders;
* `Walked`: what the trust walk says, each component at its own call;
* `read_ok`, `load_ok`: what a value that is returned went through;
* **`pinned_provenance`**: what is known of the inode that was read.
-/

namespace ProtonWire.PinnedRead

open PathWalk FsTrust

/-! ## System calls -/

/-- What the calls of a loader met: open, fstat, read, then the lstats of the walk, numbered from 0.
Names and links change from call to call; an inode keeps what it is, its owner and its mode. -/
structure History (ι : Type) where
  tree : ℕ → FileTree ι
  metadata_eq : ∀ k i, (tree k).metadata i = (tree 0).metadata i
  /-- Where a relative path starts. -/
  cwd : ι
  /-- The length of a file at the fstat. -/
  len : ι → ℕ
  /-- What a file holds when it is read. -/
  content : ι → ByteArray
  /-- The calls that fail for another reason than the names they go by. -/
  fails : ℕ → Bool

variable {ι : Type}

namespace History

variable (h : History ι)

/-- What an inode is. -/
def metadata (i : ι) : Metadata := (h.tree 0).metadata i

/-- What a path names at a call. A link that a path ends in is named itself. -/
def named (call : ℕ) (path : Path) : Except Errno ι :=
  ((h.tree call).walk false maxLinks (if path.absolute then (h.tree call).root else h.cwd)
   path.pieces).outcome

/-- `open_pinned`: with `O_NOFOLLOW` a link is refused like too many of them. -/
def openPinned (path : Path) : Except IoError ι :=
  if h.fails 0 then .error .other
  else if path.pieces.any nul then .error .nulByte
  else match h.named 0 path with
    | .error errno => .error (.errno errno)
    | .ok file => if (h.metadata file).kind = .symlink then .error (.errno .tooManyLinks)
      else .ok file

/-- `metadata` of the open file. -/
def fstat (file : ι) : Except IoError Metadata :=
  if h.fails 1 then .error .other else .ok ((h.tree 1).metadata file)

/-- `read_bounded`: one byte more than the cap at most. -/
def readBounded (file : ι) (cap : ℕ) : Except IoError ByteArray :=
  if h.fails 2 then .error .other else .ok ((h.content file).extract 0 (cap + 1))

/-- The `lstat` of a component of the walk. -/
def lstat (index : ℕ) (component : Path) : Except IoError Metadata :=
  if h.fails (index + 3) then .error .other else (h.tree (index + 3)).lstat component

end History

/-! ## Credentials of systemd -/

def MAX_CREDENTIAL_BYTES : ℕ := 64 * 1024

def LEAF_BEYOND_OWNER : UInt32 := 0o077

/-- `CredentialInputError`, what a read makes of it. -/
inductive CredentialInputError where
  | nameNotConfigured (name : String)
  | badCredentialName (name : String)
  | missing (name : String) (path : Path)
  | unreadable (name : String) (path : Path) (source : IoError)
  | untrusted (source : FsTrustError)
  | excessivePermission (name : String) (path : Path) (mode : UInt32)
  | oversized (name : String) (path : Path) (size cap : ℕ)
  | empty (name : String) (path : Path)
  | notUtf8 (name : String) (path : Path)

/-- `Path::join` of a directory and a plain name. -/
def join (directory name : List UInt8) : List UInt8 :=
  if directory = [] ∨ directory.getLast? = some 47 then directory ++ name
  else directory ++ 47 :: name

def isPlainFileName (name : String) : Bool :=
  !name.isEmpty && !name.toList.any (fun c => c == '/' || c == Char.ofNat 0) && name != "." &&
  name != ".."

/-- A directory, the names in it, and the guarded boundary `S::ingress`. -/
structure SystemdCredentialDirectory (S : Type) where
  directory : List UInt8
  names : String → Option String
  ingress : String → S

namespace SystemdCredentialDirectory

variable {S : Type} (self : SystemdCredentialDirectory S)

def resolve (shortName : String) : Except CredentialInputError (String × Path) :=
  match self.names shortName with
  | none => .error (.nameNotConfigured shortName)
  | some name =>
    if !isPlainFileName name then .error (.badCredentialName name)
    else .ok (name, .ofBytes (join self.directory name.toUTF8.data.toList))

/-- Open the file of a credential. -/
def openFile (h : History ι) (name : String) (path : Path) : Except CredentialInputError ι :=
  match h.openPinned path with
  | .ok file => .ok file
  | .error source =>
    if source = .errno .notFound then .error (.missing name path)
    else if source = .errno .tooManyLinks then .error (.untrusted (.symlink path))
    else .error (.unreadable name path source)

/-- What the open file is. -/
def checkLeaf (h : History ι) (name : String) (path : Path) (file : ι) :
    Except CredentialInputError Unit :=
  match h.fstat file with
  | .error source => .error (.unreadable name path source)
  | .ok leaf =>
    if leaf.kind ≠ .file then .error (.untrusted (.notARegularFile path))
    else if leaf.mode &&& 0o777 &&& LEAF_BEYOND_OWNER ≠ 0 then
      .error (.excessivePermission name path (leaf.mode &&& 0o777))
    else if h.len file > MAX_CREDENTIAL_BYTES then
    .error (.oversized name path (h.len file) MAX_CREDENTIAL_BYTES)
    else .ok ()

/-- What it holds; its length is the one at the fstat. -/
def readValue (h : History ι) (name : String) (path : Path) (file : ι) :
    Except CredentialInputError String :=
  match h.readBounded file MAX_CREDENTIAL_BYTES with
  | .error source => .error (.unreadable name path source)
  | .ok bytes =>
    if bytes.size > MAX_CREDENTIAL_BYTES then
    .error (.oversized name path (h.len file) MAX_CREDENTIAL_BYTES)
    else if bytes.isEmpty then .error (.empty name path)
    else match String.fromUTF8? bytes with
      | none => .error (.notUtf8 name path)
      | some value => .ok value

/-- The trust walk over its path. -/
def walk (h : History ι) (name : String) (path : Path) : Except CredentialInputError Unit :=
  match verifyTrustedPath h.lstat path (.ofBytes self.directory) .reject with
  | .ok () => .ok ()
  | .error (.io _ (.errno .notFound)) => .error (.missing name path)
  | .error error => .error (.untrusted error)

def read (h : History ι) (shortName : String) : Except CredentialInputError S := do
  let resolved ← self.resolve shortName
  let file ← openFile h resolved.1 resolved.2
  checkLeaf h resolved.1 resolved.2 file
  let value ← readValue h resolved.1 resolved.2 file
  self.walk h resolved.1 resolved.2
  return self.ingress value

end SystemdCredentialDirectory

/-! ## The session envelope -/

/-- `WritableStoreError`, what a load makes of it. -/
inductive LoadError where
  | untrusted (source : FsTrustError)
  | envelope (error : WritableStoreError)
  | io (source : IoError)

/-- The store: its file, and the directory that is trusted. -/
structure EncryptedLocalStore where
  path : Path
  directory : Path

namespace EncryptedLocalStore

variable (self : EncryptedLocalStore)

/-- Open the file of the envelope, if there is one. -/
def openFile (h : History ι) : Except LoadError (Option ι) :=
  match h.openPinned self.path with
  | .ok file => .ok (some file)
  | .error source =>
    if source = .errno .notFound then .ok none
    else if source = .errno .tooManyLinks then .error (.untrusted (.symlink self.path))
    else .error (.io source)

/-- What the open file is; its mode is left to the walk. -/
def checkLeaf (h : History ι) (file : ι) : Except LoadError Unit :=
  match h.fstat file with
  | .error source => .error (.io source)
  | .ok leaf =>
    if leaf.kind ≠ .file then .error (.untrusted (.notARegularFile self.path))
    else if h.len file > maxSessionBytes then .error (.envelope (.envelope sizeRefusal))
    else .ok ()

/-- What it holds, strictly parsed. -/
def readEnvelope (J : SessionCodec) (h : History ι) (file : ι) : Except LoadError SessionEnvelope :=
  match h.readBounded file maxSessionBytes with
  | .error source => .error (.io source)
  | .ok bytes =>
    if bytes.size > maxSessionBytes then .error (.envelope (.envelope sizeRefusal))
    else match KeyringSessionStore.parseStrict J bytes with
      | .ok envelope => .ok envelope
      | .error error => .error (.envelope error)

/-- The trust walk over its path; a file that is gone by now is none. -/
def walk (h : History ι) (envelope : SessionEnvelope) : Except LoadError (Option SessionEnvelope) :=
  match verifyTrustedPath h.lstat self.path self.directory .reject with
  | .ok () => .ok (some envelope)
  | .error (.io _ (.errno .notFound)) => .ok none
  | .error error => .error (.untrusted error)

def load (J : SessionCodec) (h : History ι) : Except LoadError (Option SessionEnvelope) := do
  match ← self.openFile h with
  | none => .ok none
  | some file => do
    self.checkLeaf h file
    let envelope ← readEnvelope J h file
    self.walk h envelope

end EncryptedLocalStore

/-! ## What a returned value went through -/

/-- What a path must be for the walk, each component at the call that inspects it. -/
structure Walked (h : History ι) (path trustRoot : Path) : Prop where
  absolute : path.absolute = true
  /-- The leaf, at the first call. -/
  leaf : ∃ i, h.named 3 path = .ok i ∧ (h.metadata i).kind = .file ∧ (h.metadata i).Trusted
  /-- The directories down from the trust root, each at a call of its own. -/
  directories : ∃ chain, componentChain path trustRoot = .ok chain ∧ ∀ k component,
    chain[k + 1]? = some component → ∃ i, h.named (k + 4) component = .ok i ∧
      (h.metadata i).kind = .directory ∧ (h.metadata i).Trusted

variable {h : History ι} {path trustRoot : Path} {file : ι}

theorem metadata_tree (h : History ι) (k : ℕ) (i : ι) : (h.tree k).metadata i = h.metadata i :=
  h.metadata_eq k i

theorem openPinned_ok (hopen : h.openPinned path = .ok file) : h.named 0 path = .ok file := by
  unfold History.openPinned at hopen
  split_ifs at hopen
  split at hopen
  · cases hopen
  · next found hnamed =>
    split_ifs at hopen
    cases hopen
    exact hnamed

theorem accepts_named {index : ℕ} (habsolute : path.absolute = true)
    (haccepts : Accepts .reject index (h.lstat index path)) :
    ∃ i, h.named (index + 3) path = .ok i ∧
      (h.metadata i).kind = (if index = 0 then .file else .directory) ∧
      (h.metadata i).Trusted := by
  unfold History.lstat at haccepts
  split at haccepts
  · cases haccepts
  · obtain ⟨_, hallow⟩ | ⟨i, houtcome, hkind, htrusted⟩ := accepts_lstat haccepts
    · cases hallow
    · rw [metadata_tree] at hkind htrusted
      refine ⟨i, ?_, hkind, htrusted⟩
      rw [History.named, habsolute]
      exact houtcome

theorem walked_of_verify (hwalk : verifyTrustedPath h.lstat path trustRoot .reject = .ok ()) :
    Walked h path trustRoot := by
  obtain ⟨chain, hchain, haccepts⟩ := verify_ok_iff.mp hwalk
  have habsolute : path.absolute = true := (componentChain_ok.mp hchain).1
  obtain ⟨rest, rfl⟩ := chain_head hchain
  refine ⟨habsolute, accepts_named habsolute (haccepts 0 path rfl), _, hchain,
    fun k component hk => ?_⟩
  exact accepts_named (absolute_of_mem_chain hchain (List.mem_of_getElem? hk))
    (haccepts (k + 1) component hk)

theorem readBounded_ok {cap : ℕ} {bytes : ByteArray} (hread : h.readBounded file cap = .ok bytes)
    (hsize : ¬ bytes.size > cap) : h.content file = bytes := by
  unfold History.readBounded at hread
  split at hread
  · cases hread
  · cases hread
    rw [ByteArray.size_extract] at hsize
    refine ByteArray.ext ?_
    rw [ByteArray.data_extract, Array.extract_eq_self_of_le]
    have : (h.content file).size = (h.content file).data.size := rfl
    omega

theorem fstat_ok {leaf : Metadata} (hstat : h.fstat file = .ok leaf) : leaf = h.metadata file := by
  unfold History.fstat at hstat
  split at hstat
  · cases hstat
  · cases hstat
    exact metadata_tree h 1 file

section
variable {S : Type} {self : SystemdCredentialDirectory S} {shortName : String} {v : S}

open SystemdCredentialDirectory

theorem openFile_ok {name : String} (hopen : openFile h name path = .ok file) :
    h.named 0 path = .ok file := by
  unfold openFile at hopen
  split at hopen
  · next found hfound =>
    cases hopen
    exact openPinned_ok hfound
  · split_ifs at hopen

theorem checkLeaf_ok {name : String} (hleaf : checkLeaf h name path file = .ok ()) :
    (h.metadata file).kind = .file ∧ (h.metadata file).mode &&& 0o777 &&&
    LEAF_BEYOND_OWNER = 0 := by
  unfold checkLeaf at hleaf
  split at hleaf
  · cases hleaf
  · next leaf hstat =>
    split_ifs at hleaf with hkind hmode
    rw [fstat_ok hstat] at hkind hmode
    exact ⟨not_not.mp hkind, not_not.mp hmode⟩

theorem readValue_ok {name value : String} (hvalue : readValue h name path file = .ok value) :
    h.content file = value.toUTF8 := by
  unfold readValue at hvalue
  split at hvalue
  · cases hvalue
  · next bytes hbytes =>
    split_ifs at hvalue with hsize
    split at hvalue
    · cases hvalue
    · next text htext =>
      cases hvalue
      rw [readBounded_ok hbytes hsize, Octets.toUTF8_of_fromUTF8? htext]

theorem readValue_of {name value : String}
    (hread : h.readBounded file MAX_CREDENTIAL_BYTES = .ok value.toUTF8)
    (hsize : value.toUTF8.size ≤ MAX_CREDENTIAL_BYTES) (hne : value.toUTF8.isEmpty = false) :
    readValue h name path file = .ok value := by
  rw [readValue, hread]
  dsimp only
  rw [if_neg (Nat.not_lt.mpr hsize), if_neg (by rw [hne]; exact Bool.false_ne_true),
    Octets.fromUTF8?_toUTF8]

theorem read_of_steps {name value : String} (hresolve : self.resolve shortName = .ok (name, path))
    (hopen : openFile h name path = .ok file) (hleaf : checkLeaf h name path file = .ok ())
    (hvalue : readValue h name path file = .ok value) (hwalk : self.walk h name path = .ok ()) :
    self.read h shortName = .ok (self.ingress value) := by
  unfold SystemdCredentialDirectory.read
  simp only [Fallible.bind_eq_ok]
  exact ⟨_, hresolve, file, hopen, (), hleaf, value, hvalue, (), hwalk, rfl⟩

/-- **What a credential that is returned went through.** -/
theorem read_ok (hread : self.read h shortName = .ok v) : ∃ name path file value,
    self.resolve shortName = .ok (name, path) ∧ h.named 0 path = .ok file ∧
      (h.metadata file).kind = .file ∧ (h.metadata file).mode &&& 0o777 &&& LEAF_BEYOND_OWNER = 0 ∧
      h.content file = value.toUTF8 ∧ v = self.ingress value ∧
      Walked h path (.ofBytes self.directory) := by
  unfold SystemdCredentialDirectory.read at hread
  simp only [Fallible.bind_eq_ok] at hread
  obtain ⟨⟨name, path⟩, hresolve, file, hopen, ⟨⟩, hleaf, value, hvalue, ⟨⟩, hwalk, hv⟩ := hread
  cases hv
  obtain ⟨hkind, hmode⟩ := checkLeaf_ok hleaf
  refine ⟨name, path, file, value, hresolve, openFile_ok hopen, hkind, hmode,
    readValue_ok hvalue, rfl, ?_⟩
  unfold SystemdCredentialDirectory.walk at hwalk
  split at hwalk
  · next hverify => exact walked_of_verify hverify
  · cases hwalk
  · cases hwalk

end

section
variable {self : EncryptedLocalStore} {J : SessionCodec} {envelope : SessionEnvelope}

theorem load_open_ok (hopen : self.openFile h = .ok (some file)) :
    h.named 0 self.path = .ok file := by
  unfold EncryptedLocalStore.openFile at hopen
  split at hopen
  · next found hfound =>
    cases hopen
    exact openPinned_ok hfound
  · split_ifs at hopen
    cases hopen

theorem load_leaf_ok (hleaf : self.checkLeaf h file = .ok ()) : (h.metadata file).kind = .file := by
  unfold EncryptedLocalStore.checkLeaf at hleaf
  split at hleaf
  · cases hleaf
  · next leaf hstat =>
    split_ifs at hleaf with hkind
    rw [fstat_ok hstat] at hkind
    exact not_not.mp hkind

theorem readEnvelope_ok (henvelope : EncryptedLocalStore.readEnvelope J h file = .ok envelope) :
    KeyringSessionStore.parseStrict J (h.content file) = .ok envelope := by
  unfold EncryptedLocalStore.readEnvelope at henvelope
  split at henvelope
  · cases henvelope
  · next bytes hbytes =>
    split_ifs at henvelope with hsize
    split at henvelope
    · next found hfound =>
      cases henvelope
      rw [readBounded_ok hbytes hsize]
      exact hfound
    · cases henvelope

/-- **What an envelope that is returned went through.** -/
theorem load_ok (hload : self.load J h = .ok (some envelope)) :
    ∃ file, h.named 0 self.path = .ok file ∧
    (h.metadata file).kind = .file ∧ KeyringSessionStore.parseStrict J (h.content file) =
    .ok envelope ∧
      Walked h self.path self.directory := by
  unfold EncryptedLocalStore.load at hload
  obtain ⟨opened, hopen, hload⟩ := Fallible.bind_eq_ok.mp hload
  cases opened with
  | none => cases hload
  | some file =>
    obtain ⟨⟨⟩, hleaf, hload⟩ := Fallible.bind_eq_ok.mp hload
    obtain ⟨parsed, hparsed, hwalk⟩ := Fallible.bind_eq_ok.mp hload
    unfold EncryptedLocalStore.walk at hwalk
    split at hwalk
    · next hverify =>
      cases hwalk
      exact ⟨file, load_open_ok hopen, load_leaf_ok hleaf, readEnvelope_ok hparsed,
        walked_of_verify hverify⟩
    · cases hwalk
    · cases hwalk

end

/-! ## The inode that was read -/

theorem Walked.trusted (hwalked : Walked h path trustRoot) (hopen : h.named 0 path = .ok file)
    (hsame : h.named 3 path = h.named 0 path) : (h.metadata file).Trusted := by
  obtain ⟨i, hi, _, htrusted⟩ := hwalked.leaf
  rw [hsame, hopen] at hi
  cases hi
  exact htrusted

/-- **What is returned was read from a regular file**, a credential from one that no group and
nobody else may use. The trust walk's checks hold of what the path names as they are made; so they
hold of the inode that was read, unless the path has come to name another one since. -/
theorem pinned_provenance {ι S : Type} (h : History ι) (systemd : SystemdCredentialDirectory S)
    (store : EncryptedLocalStore) (J : SessionCodec) :
    (∀ shortName v, systemd.read h shortName = .ok v → ∃ name path file value,
      systemd.resolve shortName = .ok (name, path) ∧ h.named 0 path = .ok file ∧
      h.content file = value.toUTF8 ∧
      v = systemd.ingress value ∧ (h.metadata file).kind = .file ∧
      (h.metadata file).mode &&& 0o777 &&& LEAF_BEYOND_OWNER = 0 ∧
      Walked h path (.ofBytes systemd.directory) ∧
      (h.named 3 path = h.named 0 path → (h.metadata file).Trusted)) ∧
    (∀ envelope, store.load J h = .ok (some envelope) → ∃ file,
      h.named 0 store.path = .ok file ∧ KeyringSessionStore.parseStrict J (h.content file) =
      .ok envelope ∧
      (h.metadata file).kind = .file ∧ Walked h store.path store.directory ∧
      (h.named 3 store.path = h.named 0 store.path → (h.metadata file).Trusted)) := by
  constructor
  · intro shortName v hread
    obtain ⟨name, path, file, value, hresolve, hopen, hkind, hmode, hcontent, hv, hwalked⟩ :=
      read_ok hread
    exact ⟨name, path, file, value, hresolve, hopen, hcontent, hv, hkind, hmode, hwalked,
      hwalked.trusted hopen⟩
  · intro envelope hload
    obtain ⟨file, hopen, hkind, hparse, hwalked⟩ := load_ok hload
    exact ⟨file, hopen, hparse, hkind, hwalked, hwalked.trusted hopen⟩

/-! ## A directory put in place of another -/

/-- `session.json`. -/
def sessionName : Name := "session.json".toUTF8.data.toList

/-- One entry in a directory. -/
def entry (name : Name) (i : Fin 5) (n : Name) : Option (Fin 5) := if n = name then some i else none

theorem entry_eq_some {name n : Name} {i j : Fin 5} (h : entry name i n = some j) : n = name := by
  unfold entry at h
  split_ifs at h with hn
  exact hn

/-- Two directories with a file each; `c` is the name of the one, then of the other. -/
def swappedNode (swapped : Bool) : Fin 5 → Node (Fin 5) Name
  | 0 => .directory (entry [99] (if swapped then 2 else 1)) 0
  | 1 => .directory (entry sessionName 3) 0
  | 2 => .directory (entry sessionName 4) 0
  | _ => .file

/-- The first directory and its file are another user's. -/
def swappedOwner (i : Fin 5) : UInt32 := if i = 1 ∨ i = 3 then 1000 else 0

theorem swappedNode_noNul (swapped : Bool) (i : Fin 5) (n : Name) (j : Fin 5)
    (h : Tree.lookup ⟨0, swappedNode swapped⟩ i n = some j) : 0 ∉ n := by
  have hname : (0 : UInt8) ∉ sessionName := by decide
  fin_cases i
  · rw [entry_eq_some h]
    decide
  · rw [entry_eq_some h]
    exact hname
  · rw [entry_eq_some h]
    exact hname
  · cases h
  · cases h

def swappedTree (swapped : Bool) : FileTree (Fin 5) where
  root := 0
  node := swappedNode swapped
  mode _ := 0o600
  uid := swappedOwner
  gid := swappedOwner
  root_isDir := ⟨_, _, rfl⟩
  noNul := swappedNode_noNul swapped

theorem swappedTree_metadata (swapped : Bool) (i : Fin 5) :
    (swappedTree swapped).metadata i = (swappedTree false).metadata i := by
  cases swapped <;> fin_cases i <;> rfl

/-- At each step the name is the one directory's or the other's. -/
def nameHistory (swapped : ℕ → Bool) : History (Fin 5) where
  tree k := swappedTree (swapped k)
  metadata_eq k i := by rw [swappedTree_metadata, swappedTree_metadata (swapped _)]
  cwd := 0
  len _ := 7
  content i := if i = 3 then "planted".toUTF8 else "hunter2".toUTF8
  fails _ := false

/-- The name passes on between the read and the walk. -/
def swappedHistory : History (Fin 5) := nameHistory fun k => decide (3 ≤ k)

/-- The name is root's but for a while between the open and the walk. -/
def restoredHistory : History (Fin 5) := nameHistory fun k => decide (k = 0 ∨ 3 ≤ k)

def swappedDirectory : SystemdCredentialDirectory String where
  directory := [47, 99]
  names _ := some "session.json"
  ingress := id

def swappedPath : Path := .ofBytes ([47, 99, 47] ++ sessionName)

/-- The envelope that is stored. -/
def storedEnvelope : SessionEnvelope := ⟨sessionSchemaVersion, 1, "", .null⟩

/-- A codec whose documents all hold the envelope. -/
def storedCodec : SessionCodec where
  envelopeToVec _ := .ok .empty
  envelopeFromSlice _ := .ok storedEnvelope
  valueToVec _ := .ok .empty
  sha256 _ := []

theorem readEnvelope_of {J : SessionCodec} {swapped : ℕ → Bool} {i : Fin 5}
    {envelope : SessionEnvelope}
    (hparse : KeyringSessionStore.parseStrict J ((nameHistory swapped).content i) = .ok envelope) :
    EncryptedLocalStore.readEnvelope J (nameHistory swapped) i = .ok envelope := by
  have hread : (nameHistory swapped).readBounded i maxSessionBytes =
      .ok ((nameHistory swapped).content i) := by
    fin_cases i <;> rfl
  have hsize : ¬ ((nameHistory swapped).content i).size > maxSessionBytes := by
    simp only [nameHistory]
    split <;> decide
  rw [EncryptedLocalStore.readEnvelope, hread]
  dsimp only
  rw [if_neg hsize, hparse]

/-- **Root's own file is returned**, and is trusted, although the name was another's for a while. -/
theorem own_file_returned : swappedDirectory.read restoredHistory "session" = .ok "hunter2" ∧
    EncryptedLocalStore.load ⟨swappedPath, .ofBytes [47, 99]⟩ storedCodec restoredHistory =
      .ok (some storedEnvelope) ∧
    restoredHistory.named 0 swappedPath = .ok 4 ∧ restoredHistory.named 1 swappedPath = .ok 3 ∧
    (restoredHistory.metadata 4).Trusted ∧
    Walked restoredHistory swappedPath (.ofBytes [47, 99]) := by
  have hvalue :
      SystemdCredentialDirectory.readValue restoredHistory "session.json" swappedPath 4 =
      .ok "hunter2" :=
    readValue_of rfl (by decide) (by decide)
  have hread : swappedDirectory.read restoredHistory "session" = .ok "hunter2" :=
    read_of_steps rfl rfl rfl hvalue rfl
  have henvelope : EncryptedLocalStore.readEnvelope storedCodec restoredHistory 4 =
    .ok storedEnvelope :=
    readEnvelope_of rfl
  have hload : EncryptedLocalStore.load ⟨swappedPath, .ofBytes [47, 99]⟩
    storedCodec restoredHistory =
      .ok (some storedEnvelope) := by
    unfold EncryptedLocalStore.load
    exact Fallible.bind_eq_ok.mpr ⟨some 4, rfl, Fallible.bind_eq_ok.mpr ⟨(), rfl,
      Fallible.bind_eq_ok.mpr ⟨storedEnvelope, henvelope, rfl⟩⟩⟩
  have hprovenance :=
    pinned_provenance restoredHistory swappedDirectory ⟨swappedPath, .ofBytes [47, 99]⟩ storedCodec
  obtain ⟨name, path, file, value, hresolve, hopen, -, -, -, -, -, htrusted⟩ :=
    hprovenance.1 "session" "hunter2" hread
  cases hresolve
  cases hopen
  obtain ⟨file, -, -, -, hwalked, -⟩ := hprovenance.2 storedEnvelope hload
  exact ⟨hread, hload, rfl, rfl, htrusted rfl, hwalked⟩

/-- **Another's file is returned**: it was opened and read before the name passed on. -/
theorem planted_file_returned : swappedDirectory.read swappedHistory "session" = .ok "planted" ∧
    swappedHistory.named 0 swappedPath = .ok 3 ∧ (swappedHistory.metadata 3).uid = 1000 ∧
    ∀ J envelope, KeyringSessionStore.parseStrict J (swappedHistory.content 3) = .ok envelope →
      EncryptedLocalStore.load ⟨swappedPath, .ofBytes [47, 99]⟩ J swappedHistory =
      .ok (some envelope) := by
  have hvalue :
      SystemdCredentialDirectory.readValue swappedHistory "session.json" swappedPath 3 =
      .ok "planted" :=
    readValue_of rfl (by decide) (by decide)
  refine ⟨read_of_steps rfl rfl rfl hvalue rfl, rfl, rfl, fun J envelope hparse => ?_⟩
  have henvelope : EncryptedLocalStore.readEnvelope J swappedHistory 3 = .ok envelope :=
    readEnvelope_of hparse
  unfold EncryptedLocalStore.load
  exact Fallible.bind_eq_ok.mpr ⟨some 3, rfl,
    Fallible.bind_eq_ok.mpr ⟨(), rfl, Fallible.bind_eq_ok.mpr
    ⟨envelope, henvelope, rfl⟩⟩⟩

end ProtonWire.PinnedRead
