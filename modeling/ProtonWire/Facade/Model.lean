import ProtonWire.Lib.WriteBehind
import ProtonWire.Lib.Runs

/-!
# The persistence facade

The credential cache that the tunnel sees (`crates/protocol/src/facade.rs`): `put`, `remove` and
`clear_all` change memory and draw a sequence in one step, then offer the operation to a bounded
queue, or leave it in the overflow lane. One worker drains the lanes into a batch, coalesces it and
writes; what fails waits in the retry lane. A step is what happens between two shared accesses: a
lock, the queue, an atomic, the disk.

* `Op`, `KeyOp`: an operation; one of a single key (`Put` or `Remove`) has no `ClearAll` arm to
  reach;
* `coalesce`, `parkOverflow`, `RetryLane`: the pure parts;
* `Call`, `WorkerPc`: where a callback and the worker are;
* `PersistenceFacade.step`: one step of a callback or the worker, and what the disk takes.

Sequences are natural numbers: the counter of the source starts at 0 and counts callbacks.
-/

namespace ProtonWire

/-- `CacheKey`, from which the names of the source are derived one to one. -/
inductive CacheKey where
  | certificate
  | privateKey
  | apiSession
deriving DecidableEq

/-- `ALL_KEYS`. -/
def CacheKey.allKeys : List CacheKey := [.certificate, .privateKey, .apiSession]

namespace Facade

open WriteBehind

/-- `Op::Put`, with the bytes, or `Op::Remove`. -/
abbrev KeyOp := Write CacheKey (List UInt8)

/-- An operation of the worker. -/
inductive Op where
  | keyed (op : KeyOp)
  | clearAll (seq : ℕ)
deriving DecidableEq

namespace Op

def seq : Op → ℕ
  | keyed op => op.seq
  | clearAll seq => seq

/-- The key, or none for a `ClearAll`. -/
def keyName : Op → Option CacheKey
  | keyed op => some op.key
  | clearAll _ => none

/-- The sequence of a `ClearAll`. -/
def clear? : Op → Option ℕ
  | clearAll seq => some seq
  | keyed _ => none

/-- `expand_per_key`: a `ClearAll` removes every key, at its own sequence. -/
def expandPerKey : Op → List KeyOp
  | keyed op => [op]
  | clearAll seq => CacheKey.allKeys.map fun key => ⟨key, none, seq⟩

/-- What is recorded where the queue is full. -/
def fullMessage : Op → String
  | keyed ⟨_, some _, _⟩ =>
    "the persistence queue is full — a put was moved to the overflow lane " ++
      "(it applies when the disk side drains)"
  | keyed ⟨_, none, _⟩ =>
    "the persistence queue is full — a REMOVE was moved to the overflow lane " ++
      "(it applies when the disk side drains)"
  | clearAll _ => "the persistence queue is full — a CLEAR-ALL was moved to the overflow " ++
      "lane (it applies when the disk side drains)"

end Op

/-- `QUEUE_BOUND`. -/
def queueBound : ℕ := 64

/-- `MAX_PLAINTEXT_LEN`: 64 KiB less the magic, the version, the nonce and the tag. -/
def maxPlaintextLen : ℕ := 64 * 1024 - 7 - 1 - 24 - 16

/-- `overflow`: newest wins by key. -/
def parkOverflow (lane : List KeyOp) (op : Op) : List KeyOp :=
  op.expandPerKey.foldl (supersede Write.key Write.seq) lane

/-! ## The retry lane -/

/-- A failed operation, and when it is tried again. -/
structure Pending where
  op : KeyOp
  deadline : ℕ

/-- `RetryLane`, with times in milliseconds. -/
structure RetryLane where
  pending : List Pending := []
  backoff : ℕ := 250

namespace RetryLane

/-- `RETRY_BACKOFF_START` and `RETRY_BACKOFF_MAX`. -/
def backoffStart : ℕ := 250
def backoffMax : ℕ := 30000

def retain (lane : RetryLane) (now : ℕ) (op : Op) : RetryLane where
  pending := op.expandPerKey.foldl (fun pending op =>
    supersede (fun p => p.op.key) (fun p => p.op.seq) pending ⟨op, now + lane.backoff⟩) lane.pending
  backoff := min (lane.backoff * 2) backoffMax

def takeReady (lane : RetryLane) (now : ℕ) : List KeyOp × RetryLane :=
  ((lane.pending.filter fun p => p.deadline ≤ now).map Pending.op,
    { lane with pending := lane.pending.filter fun p => ¬ p.deadline ≤ now })

def takeAll (lane : RetryLane) : List KeyOp × RetryLane :=
  (lane.pending.map Pending.op, { lane with pending := [] })

def noteSuccess (lane : RetryLane) (name : CacheKey) (appliedSeq : ℕ) : RetryLane :=
  let pending := lane.pending.filter fun p => ¬ (p.op.key = name ∧ p.op.seq ≤ appliedSeq)
  { pending := pending, backoff := if pending.isEmpty then backoffStart else lane.backoff }

end RetryLane

/-! ## Coalescing -/

/-- The sequence of the newest `ClearAll`. -/
def clearSeq (batch : List Op) : Option ℕ := (batch.filterMap Op.clear?).max?

/-- One operation of the reversed batch: what is kept, and whether a `ClearAll` was. -/
def coalesceStep (clearSeq : Option ℕ) : List Op × Bool → Op → List Op × Bool
  | (coalesced, sawClear), .clearAll seq =>
    if coalesced.any fun existing => existing.keyName = none ∧ seq ≤ existing.seq then
    (coalesced, sawClear)
    else (coalesced.filter (fun existing => existing.keyName ≠ none) ++ [.clearAll seq], true)
  | (coalesced, sawClear), .keyed op =>
    if sawClear ∧ op.seq < clearSeq.getD 0 then (coalesced, sawClear)
    else
      match coalesced.findIdx? fun existing => existing.keyName = some op.key with
      | some index =>
        if op.seq ≤ (coalesced.getD index (.keyed op)).seq then (coalesced, sawClear)
        else (coalesced.set index (.keyed op), sawClear)
      | none => (coalesced ++ [.keyed op], sawClear)

/-- The operations of a pass, with every `ClearAll` expanded. -/
def coalesce (batch : List Op) : List KeyOp :=
  (batch.reverse.foldl (coalesceStep (clearSeq batch)) ([], false)).1.reverse.flatMap
  Op.expandPerKey

/-! ## Callbacks and worker -/

/-- Where a callback is, after its first step. -/
inductive Call where
  /-- Before `try_send`. -/
  | send (op : Op)
  /-- Refused by the full queue, before the overflow lane is locked. -/
  | park (op : Op)
  /-- `record_failure`: before the failure is stored, and before the counter is reset. -/
  | note (message : String)
  | reset

/-- Where the worker is with the first operation of a pass. -/
inductive PassStage where
  /-- Before the sequence guard and the write. -/
  | attempt
  /-- It is durable; before the overflow lane is looked at. -/
  | applied
  /-- Both lanes were empty; before the failure is cleared. -/
  | recovering
  /-- Before `applied` is counted. -/
  | counting
  /-- It failed; before the failure is stored. -/
  | failed (message : String)
  /-- Before the counter is reset and the operation retained. -/
  | resetting

/-- Where the worker goes after a pass. -/
inductive Next where
  | recv
  | takeReady
  | finalRecord

/-- Where the worker is. -/
inductive WorkerPc where
  | takeReady
  /-- Holding the ready retries. -/
  | drainOverflow (batch : List Op)
  | recv
  | tryRecv (batch : List Op)
  | pass (ops : List KeyOp) (stage : PassStage) (next : Next)
  /-- Past the loop: the shutdown drain. -/
  | finalDrain
  | finalRecord
  | finalReset
  | exiting
  | exited

/-- `HealthSlot`. -/
structure HealthSlot where
  alive : Bool := true
  failure : Option String := none
  applied : ℕ := 0

def Next.pc : Next → WorkerPc
  | recv => .recv
  | takeReady => .takeReady
  | finalRecord => .finalRecord

/-- `apply_pass` starts. -/
def WorkerPc.applyPass (batch : List Op) (next : Next) : WorkerPc :=
  .pass (coalesce batch) .attempt next

/-- The receiver went with the worker. -/
def WorkerPc.gone : WorkerPc → Bool
  | exited => true
  | _ => false

/-- The worker is inside `apply_pass`. -/
def WorkerPc.inPass : WorkerPc → Bool
  | pass _ _ _ => true
  | _ => false

/-- What the worker holds, an operation in hand included. -/
def WorkerPc.batch : WorkerPc → List KeyOp
  | drainOverflow batch | tryRecv batch => batch.flatMap Op.expandPerKey
  | pass ops _ _ => ops
  | _ => []

end Facade

open Facade WriteBehind

/-- `PersistenceHealth`. -/
structure PersistenceHealth where
  alive : Bool
  lastFailure : Option String
  appliedSinceFailure : ℕ

/-- The facade, its worker and the disk. -/
structure PersistenceFacade where
  memory : CacheKey → Option (List UInt8)
  queue : List Op := []
  /-- The sender is gone: the facade was dropped. -/
  dropped : Bool := false
  overflow : List KeyOp := []
  seq : ℕ := 0
  health : HealthSlot := {}
  /-- The callbacks that are mid-call. -/
  calls : List Call := []
  /-- What `EncryptedCache::get` answers. -/
  disk : CacheKey → Option (List UInt8)
  retry : RetryLane := {}
  lastApplied : CacheKey → Option ℕ := fun _ => none
  pc : WorkerPc := .takeReady

namespace PersistenceFacade

/-- `start`: memory is preloaded from the disk. -/
def start (disk : CacheKey → Option (List UInt8)) : PersistenceFacade where
  memory := disk
  disk := disk

/-- `health`. -/
def healthSnapshot (s : PersistenceFacade) : PersistenceHealth :=
  ⟨s.health.alive, s.health.failure, s.health.applied⟩

/-- `get`, from memory. -/
def get (s : PersistenceFacade) (key : CacheKey) : Option (List UInt8) := s.memory key

/-- What happens. -/
inductive Action where
  /-- A callback starts. -/
  | put (key : CacheKey) (bytes : List UInt8)
  | remove (key : CacheKey)
  | clearAll
  /-- The next step of a callback that is mid-call. -/
  | call (index : ℕ)
  | drop
  /-- The worker's next step, at the time it reads and with what the disk answers. -/
  | worker (now : ℕ) (result : Except String Unit)

/-- Memory and the sequence, under the memory lock. -/
def issue (s : PersistenceFacade) (memory : CacheKey → Option (List UInt8)) (op : ℕ → Op) :
    PersistenceFacade :=
  { s with memory := memory, seq := s.seq + 1, calls := s.calls ++ [.send (op (s.seq + 1))] }

/-- A callback's first step. A value above the cap is refused before memory changes. -/
def put (s : PersistenceFacade) (key : CacheKey) (bytes : List UInt8) : PersistenceFacade :=
  if maxPlaintextLen < bytes.length then
    { s with calls := s.calls ++ [.note ("a put exceeded the plaintext cap (the file cap minus the serialization " ++
        "overhead) — refused before the clone")] }
  else s.issue (Function.update s.memory key (some bytes)) fun seq => .keyed ⟨key, some bytes, seq⟩

def remove (s : PersistenceFacade) (key : CacheKey) : PersistenceFacade :=
  s.issue (Function.update s.memory key none) fun seq => .keyed ⟨key, none, seq⟩

def clearAll (s : PersistenceFacade) : PersistenceFacade :=
  s.issue (fun _ => none) .clearAll

/-- The next step of callback `index`. -/
def callStep (s : PersistenceFacade) (index : ℕ) : PersistenceFacade :=
  match s.calls[index]? with
  | none => s
  | some (.send op) =>
    if s.pc.gone then
      { s with calls := s.calls.set index (.note ("the persistence worker is GONE (panicked?) — the in-memory value " ++
          "may not survive restart")) }
    else if s.queue.length < queueBound then
    { s with queue := s.queue ++ [op], calls := s.calls.eraseIdx index }
    else { s with calls := s.calls.set index (.park op) }
  | some (.park op) =>
    { s with overflow := parkOverflow s.overflow op, calls := s.calls.set index (.note op.fullMessage) }
  | some (.note message) =>
    { s with health := { s.health with failure := some message }, calls := s.calls.set index .reset }
  | some .reset =>
    { s with health := { s.health with applied := 0 }, calls := s.calls.eraseIdx index }

/-- An operation is durable: the watermark of its key, and what it supersedes of the retries. -/
def noteApplied (s : PersistenceFacade) (op : KeyOp) : PersistenceFacade :=
  { s with
    disk := Function.update s.disk op.key op.value
    lastApplied := Function.update s.lastApplied op.key (some op.seq)
    retry := s.retry.noteSuccess op.key op.seq }

/-- The sequence guard, and the write. -/
def attempt (s : PersistenceFacade) (result : Except String Unit) (op : KeyOp) (rest : List KeyOp)
    (next : Next) :
    PersistenceFacade × List KeyOp :=
  if (s.lastApplied op.key).any fun last => op.seq ≤ last then
  ({ s with pc := .pass rest .attempt next }, [])
  else
    match result with
    | .ok () => ({ s.noteApplied op with pc := .pass (op :: rest) .applied next }, [op])
    | .error message => ({ s with pc := .pass (op :: rest) (.failed message) next }, [])

/-- One step of `apply_pass` with operation `op`, and what the disk takes. -/
def passStep (s : PersistenceFacade) (now : ℕ) (result : Except String Unit) (op : KeyOp)
    (rest : List KeyOp) (next : Next) : PassStage → PersistenceFacade × List KeyOp
  | .attempt => s.attempt result op rest next
  | .applied =>
    -- the overflow lane's lock ends with the look
    if s.retry.pending.isEmpty ∧ s.overflow.isEmpty then
    ({ s with pc := .pass (op :: rest) .recovering next }, [])
    else ({ s with pc := .pass (op :: rest) .counting next }, [])
  | .recovering =>
    ({ s with
    health := { s.health with failure := none }, pc := .pass (op :: rest) .counting next }, [])
  | .counting =>
    ({ s with
    health := { s.health with applied := s.health.applied + 1 }, pc :=
      .pass rest .attempt next }, [])
  | .failed message =>
    ({ s with
    health := { s.health with failure := some message }, pc :=
      .pass (op :: rest) .resetting next }, [])
  | .resetting =>
    ({ s with
        health := { s.health with applied := 0 }
        retry := s.retry.retain now (.keyed op)
        pc := .pass rest .attempt next }, [])

/-- One step of `worker_loop`. -/
def workerStep (s : PersistenceFacade) (now : ℕ) (result : Except String Unit) :
    PersistenceFacade × List KeyOp :=
  match s.pc with
  | .takeReady =>
    ({ s with
    retry := (s.retry.takeReady now).2, pc :=
      .drainOverflow ((s.retry.takeReady now).1.map .keyed) }, [])
  | .drainOverflow batch =>
    let batch := batch ++ s.overflow.map .keyed
    ({ s with overflow := [], pc := if batch.isEmpty then .recv else .applyPass batch .recv }, [])
  | .recv =>
    match s.queue with
    | op :: rest => ({ s with queue := rest, pc := .tryRecv [op] }, [])
    | [] => ({ s with pc := if s.dropped then .finalDrain else .tryRecv [] }, [])
  | .tryRecv batch =>
    if batch.length < queueBound then
      match s.queue with
      | op :: rest => ({ s with queue := rest, pc := .tryRecv (batch ++ [op]) }, [])
      | [] => ({ s with pc := .applyPass batch .takeReady }, [])
    else ({ s with pc := .applyPass batch .takeReady }, [])
  | .pass [] _ next => ({ s with pc := next.pc }, [])
  | .pass (op :: rest) stage next => s.passStep now result op rest next stage
  | .finalDrain =>
    let finalPass := s.overflow.map Op.keyed ++ s.retry.takeAll.1.map Op.keyed
    ({ s with
        overflow := []
        retry := s.retry.takeAll.2
        pc := if finalPass.isEmpty then .exiting else .applyPass finalPass .finalRecord }, [])
  | .finalRecord =>
    if s.retry.pending.isEmpty then ({ s with pc := .exiting }, [])
    else
      ({ s with
          health := { s.health with
            failure :=
              some ("pending persistence retries could not drain at shutdown — the desired " ++
              "state may not be durable") }
          pc := .finalReset }, [])
  | .finalReset => ({ s with health := { s.health with applied := 0 }, pc := .exiting }, [])
  | .exiting => ({ s with health := { s.health with alive := false }, pc := .exited }, [])
  | .exited => (s, [])

/-- One step, and what the disk takes. -/
def step (s : PersistenceFacade) : Action → PersistenceFacade × List KeyOp
  | .put key bytes => (if s.dropped then s else s.put key bytes, [])
  | .remove key => (if s.dropped then s else s.remove key, [])
  | .clearAll => (if s.dropped then s else s.clearAll, [])
  | .call index => (s.callStep index, [])
  | .drop => (if s.calls.isEmpty then { s with dropped := true } else s, [])
  | .worker now result => s.workerStep now result

end PersistenceFacade

end ProtonWire
