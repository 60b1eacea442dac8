import Mathlib

/-!
# The frame codec

`crates/ipc/src/frame.rs`: a length prefix of four bytes, the highest first, then the payload.

* `writeMsg`: the framing of a serialised message;
* `Wire`: the bytes still to come, and what each turn of a read loop will find;
* `fill`, `FrameReader.readFrameDeadline`: the reader that keeps a partial frame between its calls;
* `readExactOrTruncated`, `readFrame`: the one that does not;
* `FrameReader.calls`, `readFrames`: one call after the other.

A read moves at least one byte, or none at the end of the stream.
-/

namespace ProtonWire

namespace Frame

/-- The kinds of I/O failure a reader meets and goes on after. -/
inductive ErrorKind where
  | wouldBlock
  | timedOut
  | interrupted
  deriving DecidableEq

/-- What the codec reports. -/
inductive FrameError where
  | tooLarge (len : ℕ)
  | closed
  | truncated
  | io (kind : ErrorKind)
  deriving DecidableEq

/-- Upper bound for a single frame payload. -/
def maxFrameLen : ℕ := 1 <<< 20

/-- `u32::to_be_bytes`. -/
def toBeBytes (len : ℕ) : List UInt8 :=
  [(len / 2 ^ 24).toUInt8, (len / 2 ^ 16).toUInt8, (len / 2 ^ 8).toUInt8, len.toUInt8]

/-- `u32::from_be_bytes`. -/
def fromBeBytes (bytes : List UInt8) : ℕ := bytes.foldl (fun len byte => len * 2 ^ 8 + byte.toNat) 0

/-- One framed message. -/
def frame (payload : List UInt8) : List UInt8 := toBeBytes payload.length ++ payload

/-- Write one framed message. -/
def writeMsg (payload : List UInt8) : Except FrameError (List UInt8) :=
  if maxFrameLen < payload.length then .error (.tooLarge payload.length) else .ok (frame payload)

/-! ## The transport -/

/-- What a read does. -/
inductive Read where
  /-- It moves bytes, at most `n + 1`. -/
  | deliver (n : ℕ)
  | fail (kind : ErrorKind)

/-- What one turn of a read loop finds: the clock, and what its read does. -/
structure Turn where
  now : ℕ
  read : Read

/-- The bytes still to come, and the turns. -/
structure Wire where
  stream : List UInt8
  turns : List Turn

/-- How a loop that fills a buffer ends. Without an outcome its read has not returned. -/
structure Filled where
  outcome : Option (Except FrameError Unit)
  got : List UInt8
  wire : Wire

/-- Advance `got` toward `want` bytes, leaving partial progress to the caller. -/
def fill (want : ℕ) (deadline : Option ℕ) (atBoundary : Bool) (stream : List UInt8) :
    List UInt8 → List Turn → Filled
  | got, [] => ⟨if got.length < want then none else some (.ok ()), got, ⟨stream, []⟩⟩
  | got, turn :: turns =>
    if got.length < want then
      if deadline.any (· ≤ turn.now) then ⟨some (.error (.io .timedOut)), got, ⟨stream, turns⟩⟩
      else
        match turn.read with
        | .deliver n =>
          if stream = [] then
            ⟨some (.error (if atBoundary && got.length = 0 then .closed else .truncated)), got,
             ⟨stream, turns⟩⟩
          else fill want deadline atBoundary (stream.drop (min (n + 1) (want - got.length)))
            (got ++ stream.take (min (n + 1) (want - got.length))) turns
        | .fail .interrupted => fill want deadline atBoundary stream got turns
        | .fail kind => ⟨some (.error (.io kind)), got, ⟨stream, turns⟩⟩
    else ⟨some (.ok ()), got, ⟨stream, turn :: turns⟩⟩

/-! ## The stateful reader -/

/-- Where a reader stands inside the current frame. -/
inductive Stage where
  /-- Reading the length, `got` of it arrived. -/
  | lenPrefix (got : List UInt8)
  /-- Reading the payload. -/
  | payload (len : ℕ) (got : List UInt8)
  deriving DecidableEq

/-- What a call leaves. Without a result its read has not returned. -/
structure Call where
  result : Option (Except FrameError (List UInt8))
  stage : Stage
  wire : Wire

namespace FrameReader

/-- A reader at a frame boundary. -/
def new : Stage := .lenPrefix []

/-- The payload of a frame. -/
def readPayload (len : ℕ) (got : List UInt8) (deadline : Option ℕ) (wire : Wire) : Call :=
  let filled := fill len deadline false wire.stream got wire.turns
  match filled.outcome with
  | none => ⟨none, .payload len filled.got, filled.wire⟩
  | some (.error error) => ⟨some (.error error), .payload len filled.got, filled.wire⟩
  | some (.ok ()) => ⟨some (.ok filled.got), new, filled.wire⟩

/-- Read one frame, resuming one that is partially read. `read_frame` has no deadline,
`read_frame_within` has one. -/
def readFrameDeadline (deadline : Option ℕ) (stage : Stage) (wire : Wire) : Call :=
  match stage with
  | .payload len got => readPayload len got deadline wire
  | .lenPrefix got =>
    let filled := fill 4 deadline (got.length = 0) wire.stream got wire.turns
    match filled.outcome with
    | none => ⟨none, .lenPrefix filled.got, filled.wire⟩
    | some (.error error) => ⟨some (.error error), .lenPrefix filled.got, filled.wire⟩
    | some (.ok ()) =>
      let len := fromBeBytes filled.got
      -- the stream is untrustworthy past this point
      if maxFrameLen < len then ⟨some (.error (.tooLarge len)), new, filled.wire⟩
      else readPayload len [] deadline filled.wire

/-- The next call reads on: a poll that timed out. -/
def retries : Except FrameError (List UInt8) → Bool
  | .error (.io _) => true
  | _ => false

/-- Whether a caller calls again. -/
def goesOn : Except FrameError (List UInt8) → Bool
  | .ok _ => true
  | .error (.io _) => true
  | .error _ => false

/-- One call after the other, each with its deadline: their results, and what the last leaves. -/
def calls : List (Option ℕ) → Stage → Wire → List (Except FrameError (List UInt8)) × Wire
  | [], _, wire => ([], wire)
  | deadline :: deadlines, stage, wire =>
    let call := readFrameDeadline deadline stage wire
    match call.result with
    | none => ([], call.wire)
    | some result =>
      if goesOn result then
        (result :: (calls deadlines call.stage call.wire).1,
         (calls deadlines call.stage call.wire).2)
      else ([result], call.wire)

end FrameReader

/-! ## The blocking reader -/

/-- `Read::read_exact` that tells a clean end from a truncation. -/
def readExactOrTruncated (want : ℕ) (atBoundary : Bool) (stream : List UInt8) : List UInt8 →
    List Turn → Filled
  | got, [] => ⟨if got.length < want then none else some (.ok ()), got, ⟨stream, []⟩⟩
  | got, turn :: turns =>
    if got.length < want then
      match turn.read with
      | .deliver n =>
        if stream = [] then
          ⟨some (.error (if atBoundary && got.length = 0 then .closed else .truncated)), got,
           ⟨stream, turns⟩⟩
        else readExactOrTruncated want atBoundary (stream.drop (min (n + 1) (want - got.length)))
          (got ++ stream.take (min (n + 1) (want - got.length))) turns
      | .fail .interrupted => readExactOrTruncated want atBoundary stream got turns
      | .fail kind => ⟨some (.error (.io kind)), got, ⟨stream, turns⟩⟩
    else ⟨some (.ok ()), got, ⟨stream, turn :: turns⟩⟩

/-- Read one frame. What has arrived of it is lost with an error. -/
def readFrame (wire : Wire) : Option (Except FrameError (List UInt8)) × Wire :=
  let lenPrefix := readExactOrTruncated 4 true wire.stream [] wire.turns
  match lenPrefix.outcome with
  | none => (none, lenPrefix.wire)
  | some (.error error) => (some (.error error), lenPrefix.wire)
  | some (.ok ()) =>
    let len := fromBeBytes lenPrefix.got
    if maxFrameLen < len then (some (.error (.tooLarge len)), lenPrefix.wire)
    else
      let payload := readExactOrTruncated len false lenPrefix.wire.stream [] lenPrefix.wire.turns
      match payload.outcome with
      | none => (none, payload.wire)
      | some (.error error) => (some (.error error), payload.wire)
      | some (.ok ()) => (some (.ok payload.got), payload.wire)

/-- One call of `read_frame` after the other, `n` at most. -/
def readFrames : ℕ → Wire → List (Except FrameError (List UInt8))
  | 0, _ => []
  | n + 1, wire =>
    match readFrame wire with
    | (none, _) => []
    | (some result, wire) => if FrameReader.goesOn result then result :: readFrames n wire
      else [result]

end Frame

end ProtonWire
