import Mathlib

/-!
# Binding the public socket

`crates/ipc/src/server/bind.rs` and `Drop for IpcServer`: the processes that share one socket
directory, each taking one file-system call at a time. Every call acts on a name; which inode the
name stands for is decided when the call is made. A call can also fail for a reason of its own.

* `Entry`, `entryKind`, `BindError`: what can be at the public path, and the refusals;
* `BindPc`, `SocketDir`: the directory, the listeners and the processes;
* `SocketDir.connect`: what the liveness probe answers;
* `SocketDir.call`: the next call of a process on its way through `bind_with_group`;
* `SocketDir.step`: any process's next call, a drop of its `IpcServer`, or its death.
-/

namespace ProtonWire

/-! ## Entries and refusals -/

/-- The type of an entry that is neither a socket nor a link. -/
inductive FileType where
  | regular
  | dir
  | fifo
  | charDevice
  | blockDevice
  | unknown
  deriving DecidableEq

/-- What a symbolic link leads to. -/
inductive LinkTarget where
  | socket (inode : ℕ)
  | notASocket
  | missing
  | unreadable
  deriving DecidableEq

/-- An entry at the public path. A socket's identity is its inode. -/
inductive Entry where
  | socket (inode : ℕ)
  | symlink (target : LinkTarget)
  | file (type : FileType)
  deriving DecidableEq

/-- `entry_kind`. It has no name for a socket. -/
def entryKind : Entry → String
  | .file .regular => "regular file"
  | .file .dir => "directory"
  | .symlink _ => "symlink"
  | .file .fifo => "FIFO"
  | .file .charDevice => "character device"
  | .file .blockDevice => "block device"
  | .file .unknown | .socket _ => "unknown entry type"

/-- How `bind_with_group` fails. -/
inductive BindError where
  | io
  | anotherDaemon
  | notASocket (kind : String)
  | cannotPublish
  deriving DecidableEq

/-- The text of a refusal, for the path it names. -/
def BindError.text (path cause : String) : BindError → String
  | .io => cause
  | .anotherDaemon => "another daemon is serving " ++ path
  | .notASocket kind => "refusing to remove " ++ path ++ ": not a socket (" ++ kind ++ ")"
  | .cannotPublish =>
    "cannot publish the staged socket at " ++ path ++ ": " ++ cause ++
      " (another daemon may have bound it during startup)"

/-! ## The directory and its processes -/

/-- The call a process makes next. From `chmodStaged` on it holds a listener on the inode it
names. -/
inductive BindPc where
  | idle
  /-- `create_dir_all` and `pin_runtime_dir`. -/
  | prepare
  /-- `symlink_metadata` in `bind_with_resolved`. -/
  | lookup
  /-- `symlink_metadata` in `refuse_unless_stale_socket`. -/
  | judge
  /-- `metadata`, which follows the link. -/
  | follow
  /-- `connect` in `ensure_not_live`. -/
  | probe
  /-- `remove_file`, authorized by the refusal of `probed`. The call itself names the path only. -/
  | unlink (probed : Entry)
  /-- `remove_dir_all` of the staging directory a predecessor left. -/
  | clear
  /-- `create_dir`. -/
  | makeStaging
  /-- `set_permissions` of the staging directory. -/
  | chmodStaging
  /-- `UnixListener::bind` of the staged socket. -/
  | listen
  /-- `set_socket_mode` of the staged socket. -/
  | chmodStaged (inode : ℕ)
  /-- `hard_link` of the staged name to the public path. -/
  | publish (inode : ℕ)
  /-- `remove_file` of the staged name. -/
  | removeStaged (inode : ℕ)
  /-- `remove_dir` of the staging directory. -/
  | removeStaging (inode : ℕ)
  /-- `set_socket_mode` of the public path. -/
  | pin (inode : ℕ)
  /-- `resolver` and `chown`. -/
  | chown (inode : ℕ)
  | serving (inode : ℕ)
  /-- `remove_dir_all` of the staging directory on the way out of a failed bind. -/
  | abandon (held : Option ℕ) (error : BindError)
  /-- The listener is closed next. -/
  | closing (inode : ℕ) (error : Option BindError)
  | dead
  deriving DecidableEq

/-- A process: where it is, its `STAGING_SERIAL`, the serial its staging directory is named after,
and whether it hands the socket to a group (one is configured, and it runs as root). -/
structure BindProcess where
  pc : BindPc
  stagingSerial : ℕ
  serial : ℕ
  handsOff : Bool

/-- The socket directory, the open listeners and the processes. `staging n` is the staging directory
with serial `n`, when there is one, and what its `s.sock` names. -/
structure SocketDir (P : Type*) where
  socketPath : Option Entry
  staging : ℕ → Option (Option ℕ)
  listeners : List ℕ
  nextInode : ℕ
  process : P → BindProcess

/-- What a process's bind returned. -/
abbrev BindReturn (P : Type*) := P × Except BindError ℕ

namespace SocketDir

variable {P : Type*} [DecidableEq P]

/-- Process `p` is at `pc` next. -/
def goto (w : SocketDir P) (p : P) (pc : BindPc) : SocketDir P :=
  { w with process := Function.update w.process p { w.process p with pc := pc } }

/-- The staging directory of `p` becomes `dir`. -/
def setStaging (w : SocketDir P) (p : P) (dir : Option (Option ℕ)) : SocketDir P :=
  { w with staging := Function.update w.staging (w.process p).serial dir }

/-- What is in the staging directory of `p`. -/
def stagingOf (w : SocketDir P) (p : P) : Option (Option ℕ) := w.staging (w.process p).serial

/-- The inode `s.sock` names in the staging directory of `p`. -/
def stagedOf (w : SocketDir P) (p : P) : Option ℕ := (w.stagingOf p).join

/-- Close the listener on `inode`. -/
def close (w : SocketDir P) (inode : ℕ) : SocketDir P :=
  { w with listeners := w.listeners.filter (· ≠ inode) }

/-- What `connect` answers at an entry. -/
inductive Connect where
  | accepted
  | refused
  | failed

/-- `connect(2)` to what the public path names: a socket refuses exactly when no listener is open on
it, and whatever is not a socket refuses. -/
def connect (w : SocketDir P) : Option Entry → Connect
  | none => .failed
  | some (.socket inode) => if inode ∈ w.listeners then .accepted else .refused
  | some (.symlink (.socket inode)) => if inode ∈ w.listeners then .accepted else .refused
  | some (.symlink .notASocket) => .refused
  | some (.symlink .missing) | some (.symlink .unreadable) => .failed
  | some (.file _) => .refused

/-- `p`'s bind fails with no listener open. -/
def fail (w : SocketDir P) (p : P) (e : BindError) : SocketDir P × List (BindReturn P) :=
  (w.goto p .idle, [(p, .error e)])

/-- The bind of `p` returns its server. -/
def serve (w : SocketDir P) (p : P) (inode : ℕ) : SocketDir P × List (BindReturn P) :=
  (w.goto p (.serving inode), [(p, .ok inode)])

/-- `refuse_unless_stale_socket` on the entry it finds. -/
def judge (w : SocketDir P) (p : P) : SocketDir P × List (BindReturn P) :=
  match w.socketPath with
  | none => w.fail p .io
  | some (.socket _) => (w.goto p .probe, [])
  | some (.symlink _) => (w.goto p .follow, [])
  | some entry => w.fail p (.notASocket (entryKind entry))

/-- `refuse_unless_stale_socket` on what the link leads to. -/
def followLink (w : SocketDir P) (p : P) : SocketDir P × List (BindReturn P) :=
  match w.socketPath with
  | some (.socket _) | some (.symlink (.socket _)) => (w.goto p .probe, [])
  | some (.file _) | some (.symlink .notASocket) => w.fail p (.notASocket "symlink")
  | none | some (.symlink .missing) => w.fail p (.notASocket "dangling symlink")
  | some (.symlink .unreadable) => w.fail p .io

/-- `ensure_not_live`. -/
def probe (w : SocketDir P) (p : P) : SocketDir P × List (BindReturn P) :=
  match w.socketPath, w.connect w.socketPath with
  | some entry, .refused => (w.goto p (.unlink entry), [])
  | _, .accepted => w.fail p .anotherDaemon
  | _, _ => w.fail p .io

/-- The `remove_file` of `bind_with_resolved`. A directory is not removed by it. -/
def unlink (w : SocketDir P) (p : P) : SocketDir P × List (BindReturn P) :=
  match w.socketPath with
  | none | some (.file .dir) => w.fail p .io
  | some _ => ({ w with socketPath := none }.goto p .clear, [])

/-- `STAGING_SERIAL.fetch_add`, and the removal of what is left under that name. -/
def clear (w : SocketDir P) (p : P) (fails : Bool) : SocketDir P × List (BindReturn P) :=
  let me := w.process p
  ({ w with
    staging := if fails then w.staging else Function.update w.staging me.stagingSerial none
    process := Function.update w.process p
      { me with
        pc := .makeStaging
        stagingSerial := me.stagingSerial + 1
        serial := me.stagingSerial } }, [])

/-- `UnixListener::bind`: a fresh inode, with a listener. -/
def listen (w : SocketDir P) (p : P) : SocketDir P × List (BindReturn P) :=
  match w.stagingOf p with
  | some none =>
    ({ w.setStaging p (some (some w.nextInode)) with
        listeners := w.nextInode :: w.listeners, nextInode :=
          w.nextInode + 1 }.goto p (.chmodStaged w.nextInode), [])
  | _ => (w.goto p (.abandon none .io), [])

/-- `hard_link`: the public path names what the staged name names, unless either is wrong. -/
def publish (w : SocketDir P) (p : P) (inode : ℕ) : SocketDir P × List (BindReturn P) :=
  match w.socketPath, w.stagedOf p with
  | none, some staged =>
    ({ w with socketPath := some (.socket staged) }.goto p (.removeStaged inode), [])
  | _, _ => (w.goto p (.abandon (some inode) .cannotPublish), [])

/-- A staging directory without its `s.sock`. -/
def dropStaged (dir : Option (Option ℕ)) : Option (Option ℕ) := dir.map fun _ => none

/-- `remove_dir`, of an empty directory only. -/
def dropEmpty : Option (Option ℕ) → Option (Option ℕ)
  | some none => none
  | dir => dir

/-- The next call of `p` in its bind, or the close after it. `fails` is a failure of that call for a
reason of its own; where the source ignores the outcome, the call then just has no effect. -/
def call (w : SocketDir P) (p : P) (fails : Bool) : SocketDir P × List (BindReturn P) :=
  match (w.process p).pc with
  | .idle | .serving _ | .dead => (w, [])
  | .prepare => if fails then w.fail p .io else (w.goto p .lookup, [])
  | .lookup =>
    if fails then w.fail p .io
    else if w.socketPath.isSome then (w.goto p .judge, []) else (w.goto p .clear, [])
  | .judge => if fails then w.fail p .io else w.judge p
  | .follow => if fails then w.fail p .io else w.followLink p
  | .probe => if fails then w.fail p .io else w.probe p
  | .unlink _ => if fails then w.fail p .io else w.unlink p
  | .clear => w.clear p fails
  | .makeStaging =>
    if fails || (w.stagingOf p).isSome then w.fail p .io
    else ((w.setStaging p (some none)).goto p .chmodStaging, [])
  | .chmodStaging =>
    if fails || (w.stagingOf p).isNone then (w.goto p (.abandon none .io), [])
    else (w.goto p .listen, [])
  | .listen => if fails then (w.goto p (.abandon none .io), []) else w.listen p
  | .chmodStaged inode =>
    if fails || (w.stagedOf p).isNone then (w.goto p (.abandon (some inode) .io), [])
    else (w.goto p (.publish inode), [])
  | .publish inode =>
    if fails then (w.goto p (.abandon (some inode) .cannotPublish), []) else w.publish p inode
  | .removeStaged inode =>
    let w := if fails then w else w.setStaging p (dropStaged (w.stagingOf p))
    (w.goto p (.removeStaging inode), [])
  | .removeStaging inode =>
    let w := if fails then w else w.setStaging p (dropEmpty (w.stagingOf p))
    (w.goto p (.pin inode), [])
  | .pin inode =>
    if fails || w.socketPath.isNone then (w.goto p (.closing inode (some .io)), [])
    else if (w.process p).handsOff then (w.goto p (.chown inode), []) else w.serve p inode
  | .chown inode =>
    if fails || w.socketPath.isNone then (w.goto p (.closing inode (some .io)), [])
    else w.serve p inode
  | .abandon held error =>
    let w := if fails then w else w.setStaging p none
    match held with
    | none => w.fail p error
    | some inode => (w.goto p (.closing inode (some error)), [])
  | .closing inode none => ((w.close inode).goto p .idle, [])
  | .closing inode (some error) => (w.close inode).fail p error

/-- `Drop for IpcServer`: the name is removed, whatever it stands for; the listener is closed after
it. -/
def drop (w : SocketDir P) (p : P) (fails : Bool) : SocketDir P :=
  match (w.process p).pc with
  | .serving inode =>
    let removed : Option Entry :=
      if fails then w.socketPath
      else match w.socketPath with
        | some (.file .dir) => some (.file .dir)
        | _ => none
    { w with socketPath := removed }.goto p (.closing inode none)
  | _ => w

end SocketDir

/-- The inode on which a process holds a listener. -/
def BindPc.held : BindPc → Option ℕ
  | .chmodStaged inode | .publish inode | .removeStaged inode | .removeStaging inode | .pin inode
  | .chown inode | .serving inode | .closing inode _ => some inode
  | .abandon held _ => held
  | _ => none

namespace SocketDir

variable {P : Type*} [DecidableEq P]

/-- The process dies: its listener is closed with it, and every name stays. -/
def crash (w : SocketDir P) (p : P) : SocketDir P :=
  match (w.process p).pc.held with
  | none => w.goto p .dead
  | some inode => (w.close inode).goto p .dead

/-- One step of the machine. -/
inductive Action (P : Type*) where
  /-- `p` calls `bind_with_group`. -/
  | start (p : P)
  | call (p : P) (fails : Bool)
  | drop (p : P) (fails : Bool)
  | crash (p : P)

/-- The step function. -/
def step (w : SocketDir P) : Action P → SocketDir P × List (BindReturn P)
  | .start p =>
    match (w.process p).pc with
    | .idle => (w.goto p .prepare, [])
    | _ => (w, [])
  | .call p fails => w.call p fails
  | .drop p fails => (w.drop p fails, [])
  | .crash p => (w.crash p, [])

end SocketDir

end ProtonWire
