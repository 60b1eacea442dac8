import ProtonWire.Lib.FileSystem
import ProtonWire.Store.Session
import ProtonWire.Store.Yaml

/-!
# Documents replaced through a temporary file

The writers of `crates/store/src/session.rs`, `location.rs` and `state.rs` over a file system with
names, links and inodes. A call that fails ends the save, and what was done stays done.

* `SessionEnvelopeStore.saveTo`, `LocationCache.store`, `StateStore.save`: the three writers;
* `Traceless`: a save that fails leaves the directory as it was;
* `replaceFile_traceless_iff`, `createFile_traceless_iff`: what a failed call leaves;
* **`failed_save_traceless_iff`**: when a failed save leaves no trace.
-/

namespace ProtonWire.AtomicWrite

/-- The file system: its files hold bytes. -/
abbrev Files (ν τ : Type) := FileSystem.Disk ν τ ByteArray

/-! ## Calls that may fail -/

/-- A call of a save. -/
inductive Operation where
  | read
  | create
  | setPermissions
  /-- So many bytes are in the file when the call fails. -/
  | write (written : ℕ)
  | sync
  | rename
  deriving DecidableEq

/-- How a save fails. -/
inductive SaveFailure (ε : Type) where
  | refused (error : ε)
  | io

/-- What a save takes from its surroundings: the process, the counter, the inode of a file that is
created, and the call that fails, if any. -/
structure SaveRun where
  pid : ℕ
  seq : ℕ
  inode : UInt64
  fault : Option Operation

/-- The path of a store. -/
structure StorePath (ν : Type) where
  path : ν
  /-- `Path::file_name`: none for a path that ends in `..`, and for the root. -/
  fileName : Option ByteArray
  /-- The names in the parent directory. -/
  sibling : ByteArray → ν
  path_eq : ∀ name, fileName = some name → path = sibling name

/-- A computation on the disk, which stays as it is when the computation fails. -/
abbrev Save (ν τ ε : Type) := ExceptT (SaveFailure ε) (StateM (Files ν τ))

namespace Save

variable {ν τ ε α : Type}

/-- The result, and the disk. -/
def result (x : Save ν τ ε α) (d : Files ν τ) : Except (SaveFailure ε) α × Files ν τ :=
  x.run.run d

/-- A call fails. -/
def io : Save ν τ ε α := throw .io

/-- A check, which may refuse the document. -/
def check (x : Except ε α) : Save ν τ ε α :=
  match x with
  | .ok a => pure a
  | .error error => throw (.refused error)

variable (run : SaveRun)

/-- Open the temporary file by a call that may fail. -/
def create (openTemp : Files ν τ → Option (UInt64 × Files ν τ)) : Save ν τ ε UInt64 := do
  if run.fault = some .create then io else
  match openTemp (← get) with
  | none => io
  | some (file, d) => do
    set d
    return file

/-- Open the temporary file with `create_new`. -/
def createNew [DecidableEq ν] (tmp : ν) : Save ν τ ε UInt64 :=
  create run fun d => d.openNew run.inode tmp .empty

/-- Open the temporary file with `create` and `truncate`. -/
def createTruncate [DecidableEq ν] (tmp : ν) : Save ν τ ε UInt64 :=
  create run fun d => d.openTruncate run.inode tmp .empty

/-- The mode of a file is no part of what it holds. -/
def setPermissions : Save ν τ ε Unit := if run.fault = some .setPermissions then io else pure ()

/-- Write into a file that was opened empty. -/
def writeAll (file : UInt64) (bytes : ByteArray) : Save ν τ ε Unit :=
  match run.fault with
  | some (.write written) => do
    modify fun d => d.fill file (bytes.extract 0 written)
    io
  | _ => modify fun d => d.fill file bytes

def syncAll : Save ν τ ε Unit := if run.fault = some .sync then io else pure ()

def rename [DecidableEq ν] (tmp path : ν) : Save ν τ ε Unit := do
  if run.fault = some .rename then io else
  match (← get).rename tmp path with
  | .error _ => io
  | .ok d => set d

end Save

section
variable {ν τ : Type} [DecidableEq ν]

/-- The temporary file: `.{}.tmp-{}-{}` with the name of the target, where that is UTF-8. -/
def tempName (p : StorePath ν) (fallback : String) (run : SaveRun) : ν :=
  p.sibling ("." ++ (p.fileName.bind String.fromUTF8?).getD fallback ++ ".tmp-" ++
    toString run.pid ++ "-" ++
    toString run.seq).toUTF8

/-! ## The session store -/

/-- What is stored at a path, `none` when it cannot be read. -/
def storedAt (d : Files ν τ) (path : ν) : Option (Option ByteArray) :=
  match d.read path with
  | .ok bytes => some (some bytes)
  | .error .notFound => some none
  | .error _ => none

namespace SessionEnvelopeStore

variable (J : SessionCodec)

/-- `load`: a file that is missing has no envelope. -/
def loadFrom (p : StorePath ν) (run : SaveRun) :
    Save ν τ SessionEnvelopeError (Option SessionEnvelope) := do
  if run.fault = some .read then .io else
  match storedAt (← get) p.path with
  | none => .io
  | some stored => .check (SessionEnvelopeStore.load J stored)

/-- The checks between the load and the temporary file: the generation, serde_json and the cap. -/
def prepare (onDisk : Option SessionEnvelope) (envelope : SessionEnvelope) :
    Except SessionEnvelopeError ByteArray :=
  match onDisk.filter fun onDisk => decide
    (envelope.envelopeGeneration < onDisk.envelopeGeneration) with
  | some onDisk => .error (.staleGeneration envelope.envelopeGeneration onDisk.envelopeGeneration)
  | none =>
    match J.envelopeToVec envelope with
    | .error summary => .error (.parse summary)
    | .ok bytes => if bytes.size > maxSessionBytes then .error sizeRefusal else .ok bytes

/-- From the temporary file on. -/
def createFile (p : StorePath ν) (run : SaveRun) (bytes : ByteArray) :
    Save ν τ SessionEnvelopeError Unit := do
  let tmp := tempName p "session" run
  let file ← Save.createNew run tmp
  Save.setPermissions run
  Save.writeAll run file bytes
  Save.syncAll run
  Save.rename run tmp p.path

/-- `SessionEnvelopeStore::save`. -/
def saveTo (p : StorePath ν) (run : SaveRun) (envelope : SessionEnvelope) :
    Save ν τ SessionEnvelopeError Unit := do
  let onDisk ← loadFrom J p run
  let bytes ← .check (prepare J onDisk envelope)
  createFile p run bytes

end SessionEnvelopeStore

/-! ## The location cache and the state file -/

/-- Create or empty the temporary file, write, and rename over the path. -/
def replaceFile {ε : Type} (p : StorePath ν) (fallback : String) (run : SaveRun)
    (bytes : ByteArray) :
    Save ν τ ε Unit := do
  let tmp := tempName p fallback run
  let file ← Save.createTruncate run tmp
  Save.writeAll run file bytes
  Save.syncAll run
  Save.rename run tmp p.path

/-- The failures of the location cache, without those of the file system. -/
inductive LocationCacheError where
  | tooLarge (bytes : ℕ)
  | malformed (message : String)

/-- `MAX_LOCATION_BYTES`. -/
def maxLocationBytes : ℕ := 8 * 1024

namespace LocationCache

/-- The bytes of a document within the cap. -/
def prepare (encoded : Except String ByteArray) : Except LocationCacheError ByteArray :=
  match encoded with
  | .error message => .error (.malformed message)
  | .ok bytes => if bytes.size > maxLocationBytes then .error (.tooLarge bytes.size) else .ok bytes

/-- `LocationCache::store` of a document, by what serde_json makes of it. -/
def store (p : StorePath ν) (run : SaveRun) (encoded : Except String ByteArray) :
    Save ν τ LocationCacheError Unit := do
  let bytes ← .check (prepare encoded)
  replaceFile p "location" run bytes

end LocationCache

/-- The failures of the state store, without those of the file system. -/
inductive StateStoreError where
  | parse (message : String)

/-- `MAX_STATE_BYTES`. -/
def maxStateBytes : ℕ := Yaml.maxYamlBytes

namespace StateStore

/-- The bytes of a document within the cap. -/
def prepare (encoded : Except String ByteArray) : Except StateStoreError ByteArray :=
  match encoded with
  | .error message => .error (.parse message)
  | .ok bytes => if bytes.size > maxStateBytes then
    .error (.parse "state document exceeds size cap") else .ok bytes

/-- `StateStore::save` of a document, by what serde_json makes of it. -/
def save (p : StorePath ν) (run : SaveRun) (encoded : Except String ByteArray) :
    Save ν τ StateStoreError Unit := do
  let bytes ← .check (prepare encoded)
  replaceFile p "state" run bytes

end StateStore

end

/-! ## Chains of calls -/

namespace Save

section
variable {ν τ ε α β : Type} {run : SaveRun} {d : Files ν τ} {file : UInt64}

theorem result_bind (x : Save ν τ ε α) (f : α → Save ν τ ε β) : (x >>= f).result d =
    match x.result d with
    | (.ok a, d') => (f a).result d'
    | (.error failure, d') => (.error failure, d') := by
  rcases hx : x.result d with ⟨outcome, d'⟩
  change (ExceptT.bindCont f (x.result d).1).run (x.result d).2 = _
  rw [hx]
  cases outcome with
  | ok a => rfl
  | error failure => rfl

theorem result_bind_ok {x : Save ν τ ε α} {a : α} {d' : Files ν τ} (h : x.result d = (.ok a, d'))
    (f : α → Save ν τ ε β) : (x >>= f).result d = (f a).result d' := by
  rw [result_bind, h]

theorem result_bind_error {x : Save ν τ ε α} {failure : SaveFailure ε} {d' : Files ν τ}
    (h : x.result d = (.error failure, d')) (f : α → Save ν τ ε β) :
    (x >>= f).result d = (.error failure, d') := by
  rw [result_bind, h]

theorem result_get (f : Files ν τ → Save ν τ ε β) :
    (get >>= f : Save ν τ ε β).result d = (f d).result d :=
  rfl

theorem result_check (x : Except ε α) :
    (check x : Save ν τ ε α).result d = (x.mapError .refused, d) := by
  cases x <;> rfl

theorem setPermissions_ok (h : run.fault ≠ some .setPermissions) :
    (setPermissions run : Save ν τ ε Unit).result d = (.ok (), d) := by
  rw [setPermissions, if_neg h]
  rfl

theorem setPermissions_error (h : run.fault = some .setPermissions) :
    (setPermissions run : Save ν τ ε Unit).result d = (.error .io, d) := by
  rw [setPermissions, if_pos h]
  rfl

theorem writeAll_ok (h : ∀ written, run.fault ≠ some (.write written)) (file : UInt64)
    (bytes : ByteArray) :
    (writeAll run file bytes : Save ν τ ε Unit).result d = (.ok (), d.fill file bytes) := by
  unfold writeAll
  split
  · next written hwrite => exact absurd hwrite (h written)
  · rfl

theorem writeAll_error {written : ℕ} (h : run.fault = some (.write written)) (file : UInt64)
    (bytes : ByteArray) :
    (writeAll run file bytes : Save ν τ ε Unit).result d =
    (.error .io, d.fill file (bytes.extract 0 written)) := by
  rw [writeAll, h]
  rfl

theorem syncAll_ok (h : run.fault ≠ some .sync) :
    (syncAll run : Save ν τ ε Unit).result d = (.ok (), d) := by
  rw [syncAll, if_neg h]
  rfl

theorem syncAll_error (h : run.fault = some .sync) :
    (syncAll run : Save ν τ ε Unit).result d = (.error .io, d) := by
  rw [syncAll, if_pos h]
  rfl

theorem create_error (openTemp : Files ν τ → Option (UInt64 × Files ν τ))
    (h : run.fault = some .create ∨ openTemp d = none) :
    (create run openTemp : Save ν τ ε UInt64).result d = (.error .io, d) := by
  by_cases hfault : run.fault = some .create
  · rw [create, if_pos hfault]
    rfl
  · rw [create, if_neg hfault, result_get, h.resolve_left hfault]
    rfl

theorem create_ok (openTemp : Files ν τ → Option (UInt64 × Files ν τ))
    {d' : Files ν τ} (hfault : run.fault ≠ some .create) (h : openTemp d = some (file, d')) :
    (create run openTemp : Save ν τ ε UInt64).result d = (.ok file, d') := by
  rw [create, if_neg hfault, result_get, h]
  rfl

variable [DecidableEq ν] {tmp path : ν}

theorem rename_ok {d' : Files ν τ} (hfault : run.fault ≠ some .rename)
    (h : d.rename tmp path = .ok d') :
    (rename run tmp path : Save ν τ ε Unit).result d = (.ok (), d') := by
  rw [rename, if_neg hfault]
  rw [result_get, h]
  rfl

theorem rename_error (h : run.fault = some .rename ∨ ∃ error, d.rename tmp path = .error error) :
    (rename run tmp path : Save ν τ ε Unit).result d = (.error .io, d) := by
  by_cases hfault : run.fault = some .rename
  · rw [rename, if_pos hfault]
    rfl
  · obtain ⟨error, herror⟩ := h.resolve_left hfault
    rw [rename, if_neg hfault]
    rw [result_get, herror]
    rfl

end

end Save

/-! ## What a failed call leaves -/

/-- The bytes in the temporary file when the save fails. -/
def residue (fault : Option Operation) (bytes : ByteArray) : ByteArray :=
  match fault with
  | some (.write written) => bytes.extract 0 written
  | _ => bytes

section
variable {ν τ ε : Type} [DecidableEq ν]

/-- A call after the temporary file is opened fails: it is the one that fails, or the path stands
for a directory. -/
def FailsLate (run : SaveRun) (d : Files ν τ) (path : ν) : Prop :=
  (∃ written, run.fault = some (.write written)) ∨ run.fault = some .sync ∨
  run.fault = some .rename ∨
    ∃ inode, d.entries path = some (.directory inode)

/-- The directory of a store: it exists, and a path without a name stands for a directory itself. -/
structure Prior (p : StorePath ν) (d : Files ν τ) : Prop where
  parent : ∀ name, d.creatable (p.sibling name) = true
  unnamed : p.fileName = none → ∃ inode, d.entries p.path = some (.directory inode)

/-- The directory of the store shows what it showed. -/
def Unchanged (p : StorePath ν) (d d' : Files ν τ) : Prop :=
  ∀ name, d'.shows (p.sibling name) = d.shows (p.sibling name)

/-- When the save fails, the directory shows what it showed. -/
def Traceless (p : StorePath ν) (d : Files ν τ) (x : Save ν τ ε Unit) : Prop :=
  ∀ failure, (x.result d).1 = .error failure → Unchanged p d (x.result d).2

variable {run : SaveRun} {p : StorePath ν} {d : Files ν τ} {tmp path : ν} {file : UInt64}
    {bytes : ByteArray}

omit [DecidableEq ν] in
theorem Traceless.of_unchanged {x : Save ν τ ε Unit} (h : (x.result d).2 = d) :
    Traceless p d x := by
  intro _ _ name
  rw [h]

omit [DecidableEq ν] in
theorem Traceless.of_ok {x : Save ν τ ε Unit} (h : (x.result d).1 = .ok ()) : Traceless p d x := by
  intro failure hfailure
  rw [h] at hfailure
  cases hfailure

omit [DecidableEq ν] in
theorem traceless_iff_of_error {x : Save ν τ ε Unit} {failure : SaveFailure ε} {d' : Files ν τ}
    (h : x.result d = (.error failure, d')) : Traceless p d x ↔ Unchanged p d d' := by
  rw [Traceless, h]
  exact ⟨fun htraceless => htraceless failure rfl, fun hunchanged _ _ => hunchanged⟩

/-- From the write on. -/
def finish (run : SaveRun) (file : UInt64) (bytes : ByteArray) (tmp path : ν) :
    Save ν τ ε Unit := do
  Save.writeAll run file bytes
  Save.syncAll run
  Save.rename run tmp path

/-- A call that fails late leaves the temporary file with what was written. -/
theorem finish_error (h : FailsLate run d path) :
    (finish run file bytes tmp path : Save ν τ ε Unit).result d =
    (.error .io, d.fill file (residue run.fault bytes)) := by
  by_cases hwrite : ∃ written, run.fault = some (.write written)
  · obtain ⟨written, hwrite⟩ := hwrite
    rw [finish, Save.result_bind_error (Save.writeAll_error hwrite file bytes), hwrite, residue]
  · have hresidue : residue run.fault bytes = bytes := by
      unfold residue
      split
      · next written hfault => exact absurd ⟨written, hfault⟩ hwrite
      · rfl
    rw [finish, Save.result_bind_ok (Save.writeAll_ok (not_exists.mp hwrite) file bytes), hresidue]
    by_cases hsync : run.fault = some .sync
    · rw [Save.result_bind_error (Save.syncAll_error hsync)]
    · rw [Save.result_bind_ok (Save.syncAll_ok hsync)]
      refine Save.rename_error ?_
      rcases h with h | h | h | ⟨inode, hpath⟩
      · exact absurd h hwrite
      · exact absurd h hsync
      · exact .inl h
      · exact .inr (FileSystem.Disk.rename_over_directory hpath)

theorem finish_ok (h : ¬ FailsLate run d path) {d' : Files ν τ}
    (hrename : (d.fill file bytes).rename tmp path = .ok d') :
    (finish run file bytes tmp path : Save ν τ ε Unit).result d = (.ok (), d') := by
  rw [FailsLate, not_or, not_or, not_or] at h
  obtain ⟨hwrite, hsync, hfault, -⟩ := h
  rw [finish, Save.result_bind_ok (Save.writeAll_ok (not_exists.mp hwrite) file bytes),
    Save.result_bind_ok (Save.syncAll_ok hsync)]
  exact Save.rename_ok hfault hrename

omit [DecidableEq ν] in
theorem FailsLate.congr {d' : Files ν τ} (h : ∀ inode, d'.entries path = some (.directory inode) ↔
     d.entries path = some (.directory inode)) :
    FailsLate run d' path ↔ FailsLate run d path := by
  simp only [FailsLate, h]

omit [DecidableEq ν] in
theorem Prior.creatable (hprior : Prior p d)
    (hpath : ∀ inode, d.entries p.path ≠ some (.directory inode)) :
    d.creatable p.path = true := by
  cases hname : p.fileName with
  | none =>
    obtain ⟨inode, hinode⟩ := hprior.unnamed hname
    exact absurd hinode (hpath inode)
  | some name =>
    rw [p.path_eq name hname]
    exact hprior.parent name

/-- The temporary name leads to a place in the directory where nothing stands, or to one of its
files, which then has another content. -/
def Leaves (p : StorePath ν) (d : Files ν τ) (tmp : ν) (content : ByteArray) : Prop :=
  ∃ place, d.locate tmp = some place ∧
    ((d.entries place = none ∧ ∃ name, place = p.sibling name) ∨
    ∃ file, d.entries place = some (.file file) ∧ d.contents file ≠ content ∧
      ∃ name, d.entries (p.sibling name) = some (.file file))

omit [DecidableEq ν] in
theorem unchanged_fill_iff {place : ν} (hlocate : d.locate tmp = some place)
    (hplace : d.entries place = some (.file file)) (content : ByteArray) :
    Unchanged p d (d.fill file content) ↔ ¬ Leaves p d tmp content := by
  constructor
  · rintro h ⟨place', hlocate', hleaves⟩
    obtain rfl : place = place' := Option.some.inj (hlocate.symm.trans hlocate')
    rcases hleaves with ⟨hnone, -⟩ | ⟨file', hfile', hcontent, name, hname⟩
    · rw [hplace] at hnone
      cases hnone
    · obtain rfl : file = file' := by
        rw [hplace] at hfile'
        cases hfile'
        rfl
      have hshows := h name
      rw [FileSystem.Disk.shows_fill hname, FileSystem.Disk.shows_file hname] at hshows
      cases hshows
      exact hcontent rfl
  · intro h name
    by_cases hname : d.entries (p.sibling name) = some (.file file)
    · have hcontent : d.contents file = content := by
        by_contra hne
        exact h ⟨place, hlocate, .inr ⟨file, hplace, hne, name, hname⟩⟩
      rw [FileSystem.Disk.shows_fill hname, FileSystem.Disk.shows_file hname, hcontent]
    · exact FileSystem.Disk.shows_fill_of_ne hname content

theorem unchanged_create_iff {place : ν} (hfresh : ¬ d.InUse run.inode)
    (hlocate : d.locate tmp = some place) (hplace : d.entries place = none) (content : ByteArray) :
    Unchanged p d (d.create run.inode place content) ↔ ¬ Leaves p d tmp content := by
  constructor
  · rintro h ⟨place', hlocate', hleaves⟩
    obtain rfl : place = place' := Option.some.inj (hlocate.symm.trans hlocate')
    rcases hleaves with ⟨-, name, rfl⟩ | ⟨file, hfile, -⟩
    · have hshows := h name
      rw [FileSystem.Disk.shows_create hfresh, if_pos rfl, FileSystem.Disk.shows, hplace] at hshows
      cases hshows
    · rw [hplace] at hfile
      cases hfile
  · intro h name
    rw [FileSystem.Disk.shows_create hfresh, if_neg]
    rintro rfl
    exact h ⟨_, hlocate, .inl ⟨hplace, name, rfl⟩⟩

/-- **What a failed save through a truncated temporary file leaves.** -/
theorem replaceFile_traceless_iff (hprior : Prior p d) (hfresh : ¬ d.InUse run.inode)
    (fallback : String)
    (bytes : ByteArray) : Traceless p d (replaceFile p fallback run bytes : Save ν τ ε Unit) ↔
    ¬ (run.fault ≠ some .create ∧ FailsLate run d p.path ∧
      Leaves p d (tempName p fallback run) (residue run.fault bytes)) := by
  generalize htmp : tempName p fallback run = tmp
  let openTemp := fun d : Files ν τ => d.openTruncate run.inode tmp .empty
  have hreplace : (replaceFile p fallback run bytes : Save ν τ ε Unit) =
      Save.create run openTemp >>= fun file => finish run file bytes tmp p.path := by
    subst htmp
    rfl
  rw [hreplace]
  by_cases hfault : run.fault = some .create
  · refine iff_of_true (.of_unchanged ?_) fun h => h.1 hfault
    rw [Save.result_bind_error (Save.create_error openTemp (.inl hfault))]
  rcases d.openTruncate_cases run.inode tmp .empty with
    ⟨place, file, hlocate, hplace, hopen⟩ | ⟨place, hlocate, hplace, hcreatable, hopen⟩ | hopen
  · -- the file that the name leads to is emptied
    have hrun := Save.result_bind_ok (ε := ε) (Save.create_ok openTemp hfault hopen) fun file =>
      finish run file bytes tmp p.path
    by_cases hlate : FailsLate run d p.path
    · rw [finish_error (d := d.fill file .empty) hlate, FileSystem.Disk.fill_fill] at hrun
      rw [traceless_iff_of_error hrun, unchanged_fill_iff hlocate hplace]
      simp [hfault, hlate]
    · refine iff_of_true (.of_ok ?_) fun h => hlate h.2.1
      have hpath : ∀ inode, d.entries p.path ≠ some (.directory inode) := fun inode hinode =>
        hlate (.inr (.inr (.inr ⟨inode, hinode⟩)))
      obtain ⟨entry, hentry, hfile⟩ : ∃ entry, d.entries tmp = some entry ∧
        ∀ inode, entry ≠ .directory inode := by
        rcases FileSystem.Disk.FileAt.entry ⟨place, hlocate, hplace⟩ with h | ⟨target, h⟩
        · exact ⟨_, h, by simp⟩
        · exact ⟨_, h, by simp⟩
      obtain ⟨d', hrename⟩ := FileSystem.Disk.rename_ok (d := (d.fill file .empty).fill file bytes)
        hentry hfile hpath
        fun _ => hprior.creatable hpath
      rw [hrun, finish_ok (d := d.fill file .empty) hlate hrename]
  · -- a file is created
    have hrun := Save.result_bind_ok (ε := ε) (Save.create_ok openTemp hfault hopen) fun file =>
      finish run file bytes tmp p.path
    have hdirectory : ∀ inode, (d.create run.inode place .empty).entries p.path =
      some (.directory inode) ↔
        d.entries p.path = some (.directory inode) := by
      intro inode
      by_cases heq : p.path = place
      · simp [FileSystem.Disk.create, heq, hplace]
      · simp only [FileSystem.Disk.create, Function.update_of_ne heq]
    by_cases hlate : FailsLate run d p.path
    · rw [finish_error ((FailsLate.congr hdirectory).mpr hlate), FileSystem.Disk.fill_create]
        at hrun
      rw [traceless_iff_of_error hrun, unchanged_create_iff hfresh hlocate hplace]
      simp [hfault, hlate]
    · refine iff_of_true (.of_ok ?_) fun h => hlate h.2.1
      have hpath : ∀ inode, d.entries p.path ≠ some (.directory inode) := fun inode hinode =>
        hlate (.inr (.inr (.inr ⟨inode, hinode⟩)))
      obtain ⟨entry, hentry, hfile⟩ : ∃ entry, (d.create run.inode place .empty).entries tmp =
        some entry ∧
          ∀ inode, entry ≠ .directory inode := by
        by_cases heq : tmp = place
        · exact ⟨_, by rw [heq]; exact Function.update_self .., by simp⟩
        · by_cases hlink : ∃ target, d.entries tmp = some (.link target)
          · obtain ⟨target, hlink⟩ := hlink
            exact ⟨_, (Function.update_of_ne heq ..).trans hlink, by simp⟩
          · rw [FileSystem.Disk.locate_of_ne_link (not_exists.mp hlink)] at hlocate
            exact absurd (Option.some.inj hlocate) heq
      obtain ⟨d', hrename⟩ := FileSystem.Disk.rename_ok
        (d := (d.create run.inode place .empty).fill run.inode bytes) hentry hfile
        (fun inode hinode => hpath inode ((hdirectory inode).mp hinode)) fun _ =>
        hprior.creatable hpath
      rw [hrun, finish_ok (fun h => hlate ((FailsLate.congr hdirectory).mp h)) hrename]
  · -- the temporary name cannot be opened
    refine iff_of_true (.of_unchanged ?_) ?_
    · rw [Save.result_bind_error (Save.create_error openTemp (.inr hopen))]
    · rintro ⟨-, -, place, hlocate, ⟨hplace, name, rfl⟩ | ⟨file, hplace, -⟩⟩
      · rw [FileSystem.Disk.openTruncate, hlocate] at hopen
        dsimp only at hopen
        rw [hplace] at hopen
        dsimp only at hopen
        rw [if_pos (hprior.parent name)] at hopen
        cases hopen
      · rw [FileSystem.Disk.openTruncate, hlocate] at hopen
        dsimp only at hopen
        rw [hplace] at hopen
        cases hopen

/-- **What a failed save through a new temporary file leaves.** -/
theorem createFile_traceless_iff (hprior : Prior p d) (hfresh : ¬ d.InUse run.inode)
    (bytes : ByteArray) :
    Traceless p d (SessionEnvelopeStore.createFile p run bytes) ↔
    ¬ (run.fault ≠ some .create ∧ d.entries (tempName p "session" run) = none ∧
      (run.fault = some .setPermissions ∨ FailsLate run d p.path)) := by
  obtain ⟨name, hname⟩ : ∃ name, tempName p "session" run = p.sibling name := ⟨_, rfl⟩
  generalize htmp : tempName p "session" run = tmp at hname ⊢
  let openTemp := fun d : Files ν τ => d.openNew run.inode tmp .empty
  have hcreate : SessionEnvelopeStore.createFile p run bytes = Save.create run openTemp >>=
    fun file =>
      (Save.setPermissions run >>= fun _ => finish run file bytes tmp p.path) := by
    subst htmp
    rfl
  rw [hcreate]
  by_cases hfault : run.fault = some .create
  · refine iff_of_true (.of_unchanged ?_) fun h => h.1 hfault
    rw [Save.result_bind_error (Save.create_error openTemp (.inl hfault))]
  cases hentry : d.entries tmp with
  | some entry =>
    have hopen : openTemp d = none := by
      change d.openNew run.inode tmp .empty = none
      rw [FileSystem.Disk.openNew, hentry]
    refine iff_of_true (.of_unchanged ?_) (by simp)
    rw [Save.result_bind_error (Save.create_error openTemp (.inr hopen))]
  | none =>
    have hopen : openTemp d = some (run.inode, d.create run.inode tmp .empty) := by
      change d.openNew run.inode tmp .empty = _
      rw [FileSystem.Disk.openNew, hentry]
      exact if_pos (hname ▸ hprior.parent name)
    have hrun := Save.result_bind_ok (Save.create_ok openTemp hfault hopen) fun file =>
      (Save.setPermissions run >>= fun _ =>
       finish run file bytes tmp p.path : Save ν τ SessionEnvelopeError Unit)
    -- the new file shows
    have hchanged : ∀ content, ¬ Unchanged p d (d.create run.inode tmp content) := by
      intro content h
      have hshows := h name
      rw [FileSystem.Disk.shows_create hfresh, if_pos hname.symm, FileSystem.Disk.shows, ← hname,
        hentry] at hshows
      cases hshows
    have hdirectory : ∀ inode, (d.create run.inode tmp .empty).entries p.path =
      some (.directory inode) ↔
        d.entries p.path = some (.directory inode) := by
      intro inode
      by_cases heq : p.path = tmp
      · simp [FileSystem.Disk.create, heq, hentry]
      · simp only [FileSystem.Disk.create, Function.update_of_ne heq]
    by_cases hmode : run.fault = some .setPermissions
    · rw [Save.result_bind_error (Save.setPermissions_error hmode)] at hrun
      rw [traceless_iff_of_error hrun]
      exact iff_of_false (hchanged _) (by simp [hmode])
    rw [Save.result_bind_ok (Save.setPermissions_ok hmode)] at hrun
    by_cases hlate : FailsLate run d p.path
    · rw [finish_error ((FailsLate.congr hdirectory).mpr hlate), FileSystem.Disk.fill_create]
        at hrun
      rw [traceless_iff_of_error hrun]
      exact iff_of_false (hchanged _) (by simp [hfault, hlate])
    · refine iff_of_true (.of_ok ?_) (by simp [hmode, hlate])
      have hpath : ∀ inode, d.entries p.path ≠ some (.directory inode) := fun inode hinode =>
        hlate (.inr (.inr (.inr ⟨inode, hinode⟩)))
      have hfile : ((d.create run.inode tmp .empty).fill run.inode bytes).entries tmp =
        some (.file run.inode) :=
        Function.update_self ..
      obtain ⟨d', hrename⟩ := FileSystem.Disk.rename_ok hfile (by simp)
        (fun inode hinode => hpath inode ((hdirectory inode).mp hinode)) fun _ =>
        hprior.creatable hpath
      rw [hrun, finish_ok (fun h => hlate ((FailsLate.congr hdirectory).mp h)) hrename]

end

/-! ## The three writers -/

namespace SessionEnvelopeStore

variable {ν τ : Type} [DecidableEq ν] {J : SessionCodec} {p : StorePath ν} {run : SaveRun}
    {d : Files ν τ}
  {envelope : SessionEnvelope}

/-- The checks are those of the store over the bytes under its name. -/
theorem save_eq_prepare (stored : Option ByteArray) (envelope : SessionEnvelope) :
    SessionEnvelopeStore.save J stored envelope =
    match (SessionEnvelopeStore.load J stored).bind fun onDisk => prepare J onDisk envelope with
    | .ok bytes => (some bytes, .ok ())
    | .error error => (stored, .error error) := by
  rw [SessionEnvelopeStore.save, saveOver.eq_def]
  cases SessionEnvelopeStore.load J stored with
  | error error => rfl
  | ok onDisk =>
    simp only [Except.bind, prepare, id_eq]
    cases onDisk.filter fun onDisk => decide
      (envelope.envelopeGeneration < onDisk.envelopeGeneration) with
    | some onDisk => rfl
    | none =>
      dsimp only
      cases J.envelopeToVec envelope with
      | error summary => rfl
      | ok bytes =>
        dsimp only
        split_ifs <;> rfl

/-- The store accepts the document over what it finds. -/
def Accepts (J : SessionCodec) (d : Files ν τ) (path : ν) (envelope : SessionEnvelope) : Prop :=
  ∃ stored, storedAt d path = some stored ∧ (SessionEnvelopeStore.save J stored envelope).2 = .ok ()

theorem saveTo_of_refused (h : run.fault = some .read ∨ ¬ Accepts J d p.path envelope) :
    ((saveTo J p run envelope).result d).2 = d := by
  by_cases hfault : run.fault = some .read
  · have hload : (loadFrom J p run : Save ν τ _ _).result d = (.error .io, d) := by
      rw [loadFrom, if_pos hfault]
      rfl
    rw [saveTo, Save.result_bind_error hload]
  have hrefused := h.resolve_left hfault
  cases hstored : storedAt d p.path with
  | none =>
    have hload : (loadFrom J p run : Save ν τ _ _).result d = (.error .io, d) := by
      rw [loadFrom, if_neg hfault, Save.result_get, hstored]
      rfl
    rw [saveTo, Save.result_bind_error hload]
  | some stored =>
    have hload : (loadFrom J p run : Save ν τ _ _).result d =
        ((SessionEnvelopeStore.load J stored).mapError .refused, d) := by
      rw [loadFrom, if_neg hfault, Save.result_get, hstored]
      exact Save.result_check _
    have hsave := save_eq_prepare (J := J) stored envelope
    cases honDisk : SessionEnvelopeStore.load J stored with
    | error error =>
      rw [honDisk] at hload
      rw [saveTo, Save.result_bind_error hload]
    | ok onDisk =>
      rw [honDisk] at hload hsave
      rw [saveTo, Save.result_bind_ok hload]
      cases hprepare : prepare J onDisk envelope with
      | error error => rw [Save.result_bind_error (Save.result_check _)]
      | ok bytes =>
        simp only [Except.bind, hprepare] at hsave
        exact absurd ⟨stored, hstored, by rw [hsave]⟩ hrefused

theorem saveTo_of_accepts (hfault : run.fault ≠ some .read) (h : Accepts J d p.path envelope) :
    ∃ bytes, (saveTo J p run envelope).result d = (createFile p run bytes).result d := by
  obtain ⟨stored, hstored, hsave⟩ := h
  have hload : (loadFrom J p run : Save ν τ _ _).result d =
      ((SessionEnvelopeStore.load J stored).mapError .refused, d) := by
    rw [loadFrom, if_neg hfault, Save.result_get, hstored]
    exact Save.result_check _
  rw [save_eq_prepare] at hsave
  cases honDisk : SessionEnvelopeStore.load J stored with
  | error error =>
    rw [honDisk] at hsave
    cases hsave
  | ok onDisk =>
    rw [honDisk] at hsave hload
    simp only [Except.bind] at hsave
    cases hprepare : prepare J onDisk envelope with
    | error error =>
      rw [hprepare] at hsave
      cases hsave
    | ok bytes =>
      refine ⟨bytes, ?_⟩
      rw [saveTo, Save.result_bind_ok hload, hprepare]
      exact Save.result_bind_ok (Save.result_check _) _

/-- When a failed save of the session leaves no trace. -/
theorem saveTo_traceless_iff (hprior : Prior p d) (hfresh : ¬ d.InUse run.inode)
    (envelope : SessionEnvelope) :
    Traceless p d (saveTo J p run envelope) ↔
    ¬ (run.fault ≠ some .read ∧ Accepts J d p.path envelope ∧ run.fault ≠ some .create ∧
      d.entries (tempName p "session" run) = none ∧
      (run.fault = some .setPermissions ∨ FailsLate run d p.path)) := by
  by_cases hfault : run.fault = some .read
  · exact iff_of_true (.of_unchanged (saveTo_of_refused (.inl hfault))) fun h => h.1 hfault
  by_cases haccepts : Accepts J d p.path envelope
  · obtain ⟨bytes, hbytes⟩ := saveTo_of_accepts hfault haccepts
    rw [Traceless, hbytes]
    refine (createFile_traceless_iff hprior hfresh bytes).trans ?_
    simp only [ne_eq, hfault, not_false_eq_true, haccepts, true_and]
  · exact iff_of_true (.of_unchanged (saveTo_of_refused (.inr haccepts))) fun h => haccepts h.2.1

end SessionEnvelopeStore

section
variable {ν τ ε : Type} [DecidableEq ν] {p : StorePath ν} {run : SaveRun} {d : Files ν τ}

/-- When a failed save of prepared bytes leaves no trace. -/
theorem prepared_traceless_iff (hprior : Prior p d) (hfresh : ¬ d.InUse run.inode)
    (fallback : String) (prepared : Except ε ByteArray) :
    Traceless p d (.check prepared >>= fun bytes =>
      replaceFile p fallback run bytes : Save ν τ ε Unit) ↔
    ¬ ∃ bytes, prepared = .ok bytes ∧ run.fault ≠ some .create ∧ FailsLate run d p.path ∧
      Leaves p d (tempName p fallback run) (residue run.fault bytes) := by
  cases prepared with
  | error error =>
    refine iff_of_true (.of_unchanged ?_) (by simp)
    rw [Save.result_bind_error (Save.result_check _)]
  | ok bytes =>
    rw [Traceless, Save.result_bind_ok (Save.result_check _)]
    refine (replaceFile_traceless_iff hprior hfresh fallback bytes).trans ?_
    simp

/-- **When a failed save leaves no trace.** -/
theorem failed_save_traceless_iff (J : SessionCodec) (hprior : Prior p d)
    (hfresh : ¬ d.InUse run.inode) :
    (∀ envelope, Traceless p d (SessionEnvelopeStore.saveTo J p run envelope) ↔
      ¬ (run.fault ≠ some .read ∧ SessionEnvelopeStore.Accepts J d p.path envelope ∧
        run.fault ≠ some .create ∧
        d.entries (tempName p "session" run) = none ∧
        (run.fault = some .setPermissions ∨ FailsLate run d p.path))) ∧
    (∀ encoded, Traceless p d (LocationCache.store p run encoded) ↔
      ¬ ∃ bytes, LocationCache.prepare encoded = .ok bytes ∧ run.fault ≠ some .create ∧
      FailsLate run d p.path ∧
        Leaves p d (tempName p "location" run) (residue run.fault bytes)) ∧
    ∀ encoded, Traceless p d (StateStore.save p run encoded) ↔
      ¬ ∃ bytes, StateStore.prepare encoded = .ok bytes ∧ run.fault ≠ some .create ∧
      FailsLate run d p.path ∧
        Leaves p d (tempName p "state" run) (residue run.fault bytes) :=
  ⟨SessionEnvelopeStore.saveTo_traceless_iff hprior hfresh,
    fun encoded => prepared_traceless_iff hprior hfresh "location" (LocationCache.prepare encoded),
    fun encoded => prepared_traceless_iff hprior hfresh "state" (StateStore.prepare encoded)⟩

end

/-! ## A directory with a session in it -/

/-- The path of a session in the one directory. -/
def sessionPath : StorePath ByteArray where
  path := "session.json".toUTF8
  fileName := some "session.json".toUTF8
  sibling name := name
  path_eq _ h := Option.some.inj h

/-- A file system without a file. -/
def emptyDisk : Files ByteArray Unit := ⟨fun _ => none, fun _ => .empty, fun name _ => name,
    fun _ => true⟩

/-- A file system that holds a session. -/
def sessionDisk : Files ByteArray Unit where
  entries name := if name = sessionPath.path then some (.file 3) else none
  contents _ := "[]".toUTF8
  lead name _ := name
  creatable _ := true

/-- An envelope of a generation. -/
def envelopeOf (generation : UInt64) : SessionEnvelope :=
  ⟨sessionSchemaVersion, generation, "", .null⟩

/-- A codec whose documents all hold the second generation. -/
def constantCodec : SessionCodec where
  envelopeToVec _ := .ok "[]".toUTF8
  envelopeFromSlice _ := .ok (envelopeOf 2)
  valueToVec _ := .ok .empty
  sha256 _ := []

theorem prior_sessionDisk : Prior sessionPath sessionDisk := ⟨fun _ => rfl, fun h => by cases h⟩

theorem not_inUse_sessionDisk : ¬ sessionDisk.InUse 7 := by
  rintro ⟨name, h | h⟩ <;> simp only [sessionDisk] at h <;> split at h <;> cases h

theorem not_accepts_sessionDisk :
    ¬ SessionEnvelopeStore.Accepts constantCodec sessionDisk sessionPath.path (envelopeOf 1) := by
  rintro ⟨stored, hstored, hsave⟩
  have hread : storedAt sessionDisk sessionPath.path = some (some "[]".toUTF8) := rfl
  obtain rfl : some "[]".toUTF8 = stored := Option.some.inj (hread.symm.trans hstored)
  cases hsave

/-- A save that cannot read the session, or is refused over it, and a location that cannot be
created leave no trace. -/
theorem failed_save_traceless_session :
    Traceless sessionPath sessionDisk (SessionEnvelopeStore.saveTo constantCodec sessionPath
      ⟨1, 0, 7, some .read⟩ (envelopeOf 3)) ∧
    Traceless sessionPath sessionDisk (SessionEnvelopeStore.saveTo constantCodec sessionPath
      ⟨1, 0, 7, some .sync⟩ (envelopeOf 1)) ∧
    Traceless sessionPath sessionDisk (LocationCache.store sessionPath ⟨1, 0, 7, some .create⟩
      (.ok "[]".toUTF8)) := by
  have hfresh := not_inUse_sessionDisk
  refine ⟨?_, ?_, ?_⟩
  · exact ((failed_save_traceless_iff constantCodec prior_sessionDisk hfresh).1 _).mpr (by simp)
  · refine ((failed_save_traceless_iff constantCodec prior_sessionDisk hfresh).1 _).mpr ?_
    exact fun h => not_accepts_sessionDisk h.2.1
  · exact ((failed_save_traceless_iff constantCodec prior_sessionDisk hfresh).2.1 _).mpr (by simp)

/-! ## A directory with nothing in it -/

theorem prior_emptyDisk : Prior sessionPath emptyDisk := ⟨fun _ => rfl, fun h => by cases h⟩

theorem not_inUse_emptyDisk (inode : UInt64) : ¬ emptyDisk.InUse inode := by
  rintro ⟨name, h | h⟩ <;> cases h

theorem accepts_emptyDisk :
    SessionEnvelopeStore.Accepts constantCodec emptyDisk sessionPath.path (envelopeOf 1) :=
  ⟨none, rfl, rfl⟩

/-- A file that cannot be synchronised stays, with the credentials, the location or the state in
it. -/
theorem failed_sync_leaves_file :
    ¬ Traceless sessionPath emptyDisk (SessionEnvelopeStore.saveTo constantCodec sessionPath ⟨1, 0,
      7, some .sync⟩
      (envelopeOf 1)) ∧
    ¬ Traceless sessionPath emptyDisk (LocationCache.store sessionPath ⟨1, 0, 7, some .sync⟩
      (.ok "[]".toUTF8)) ∧
    ¬ Traceless sessionPath emptyDisk (StateStore.save sessionPath ⟨1, 0, 7, some .sync⟩
      (.ok "[]".toUTF8)) := by
  have hlate : FailsLate ⟨1, 0, 7, some .sync⟩ emptyDisk sessionPath.path := .inr (.inl rfl)
  have hleaves : ∀ tmp content, Leaves sessionPath emptyDisk tmp content := fun tmp content =>
    ⟨tmp, rfl, .inl ⟨rfl, tmp, rfl⟩⟩
  refine ⟨fun h => ?_, fun h => ?_, fun h => ?_⟩
  · exact (SessionEnvelopeStore.saveTo_traceless_iff prior_emptyDisk (not_inUse_emptyDisk 7)
      (envelopeOf 1)).mp h
      ⟨by simp, accepts_emptyDisk, by simp, rfl, .inr hlate⟩
  · exact (prepared_traceless_iff prior_emptyDisk (not_inUse_emptyDisk 7) "location"
      (LocationCache.prepare (.ok "[]".toUTF8))).mp h ⟨"[]".toUTF8,
       rfl, by simp, hlate, hleaves _ _⟩
  · exact (prepared_traceless_iff prior_emptyDisk (not_inUse_emptyDisk 7) "state"
      (StateStore.prepare (.ok "[]".toUTF8))).mp h ⟨"[]".toUTF8, rfl, by simp, hlate, hleaves _ _⟩

end ProtonWire.AtomicWrite
