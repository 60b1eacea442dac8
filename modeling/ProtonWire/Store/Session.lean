import Mathlib

/-!
# The session envelope and its stores

`crates/store/src/session.rs`, and the Secret Service store of `crates/store/src/writable_store.rs`.
What serde_json and SHA-256 compute is a value, `SessionCodec`; a store is the bytes under its name,
if any.

* `SessionEnvelope.new`, `regenerate`, `fromStrictBytes`: where envelopes come from;
* `SessionEnvelopeStore.load`, `save`, `KeyringSessionStore.load`, `save`: the two stores;
* `SessionCodec.Lawful`: serde_json reads its own output up to its recursion limit.
-/

namespace ProtonWire

/-! ## Documents -/

/-- `serde_json::Value`; a number is its text. -/
inductive JsonValue where
  | null
  | bool (value : Bool)
  | number (text : String)
  | string (value : String)
  | array (items : List JsonValue)
  | object (entries : List (String × JsonValue))

mutual

/-- How many arrays and objects stand inside one another. -/
def JsonValue.nesting : JsonValue → ℕ
  | .array items => nestingItems items + 1
  | .object entries => nestingEntries entries + 1
  | .null => 0
  | .bool _ => 0
  | .number _ => 0
  | .string _ => 0

def JsonValue.nestingItems : List JsonValue → ℕ
  | [] => 0
  | item :: items => max item.nesting (nestingItems items)

def JsonValue.nestingEntries : List (String × JsonValue) → ℕ
  | [] => 0
  | (_, value) :: entries => max value.nesting (nestingEntries entries)

end

/-- `MAX_SESSION_BYTES`. -/
def maxSessionBytes : ℕ := 64 * 1024

/-- `SESSION_SCHEMA_VERSION`. -/
def sessionSchemaVersion : UInt32 := 1

/-- `SessionEnvelope`. -/
structure SessionEnvelope where
  schemaVersion : UInt32
  envelopeGeneration : UInt64
  sourceDigest : String
  credentials : JsonValue

/-- The nesting of the document: the credentials in one object. -/
def SessionEnvelope.nesting (envelope : SessionEnvelope) : ℕ := envelope.credentials.nesting + 1

/-- serde_json on envelopes and values, and SHA-256. A refusal is its kind and position. -/
structure SessionCodec where
  envelopeToVec : SessionEnvelope → Except String ByteArray
  envelopeFromSlice : ByteArray → Except String SessionEnvelope
  valueToVec : JsonValue → Except String ByteArray
  sha256 : ByteArray → List UInt8

/-- The recursion limit of serde_json: a document of this nesting is refused. -/
def recursionLimit : ℕ := 128

/-- serde_json writes every value, and reads its own output as the same value within its recursion
limit. -/
structure SessionCodec.Lawful (J : SessionCodec) : Prop where
  value : ∀ v, ∃ bytes, J.valueToVec v = .ok bytes
  shallow : ∀ envelope bytes, J.envelopeToVec envelope = .ok bytes →
    envelope.nesting < recursionLimit →
    J.envelopeFromSlice bytes = .ok envelope
  deep : ∀ envelope bytes, J.envelopeToVec envelope = .ok bytes →
    recursionLimit ≤ envelope.nesting →
    ∃ summary, J.envelopeFromSlice bytes = .error summary

/-! ## Envelopes -/

/-- The failures of the session store, without those of the file system. -/
inductive SessionEnvelopeError where
  | parse (message : String)
  | unsupportedSchema (version : UInt32)
  | integrity
  | staleGeneration (attempted onDisk : UInt64)
  deriving DecidableEq

/-- `format!("{b:02x}")`. -/
def digestByte (b : UInt8) : String :=
  String.ofList [Nat.digitChar (b.toNat / 16), Nat.digitChar (b.toNat % 16)]

/-- `canonical_digest`. -/
def canonicalDigest (J : SessionCodec) (value : JsonValue) : Except SessionEnvelopeError String :=
  match J.valueToVec value with
  | .ok bytes => .ok (String.join ((J.sha256 bytes).map digestByte))
  | .error summary => .error (.parse summary)

namespace SessionEnvelope

variable (J : SessionCodec)

/-- `at_generation`. -/
def atGeneration (generation : UInt64) (credentials : JsonValue) :
    Except SessionEnvelopeError SessionEnvelope :=
  match canonicalDigest J credentials with
  | .ok sourceDigest => .ok ⟨sessionSchemaVersion, generation, sourceDigest, credentials⟩
  | .error error => .error error

/-- `SessionEnvelope::new`. -/
def new (credentials : JsonValue) : Except SessionEnvelopeError SessionEnvelope :=
  atGeneration J 1 credentials

/-- `regenerate`; the addition is that of a release build. -/
def regenerate (envelope : SessionEnvelope) (credentials : JsonValue) :
    Except SessionEnvelopeError SessionEnvelope :=
  atGeneration J (envelope.envelopeGeneration + 1) credentials

/-- `verify_integrity`. -/
def verifyIntegrity (envelope : SessionEnvelope) : Bool :=
  match canonicalDigest J envelope.credentials with
  | .ok digest => envelope.sourceDigest == digest
  | .error _ => envelope.sourceDigest == ""

/-- `from_strict_bytes`: the parse, the schema and the digest. -/
def fromStrictBytes (bytes : ByteArray) : Except SessionEnvelopeError SessionEnvelope :=
  match J.envelopeFromSlice bytes with
  | .error summary => .error (.parse summary)
  | .ok envelope =>
    if envelope.schemaVersion ≠ sessionSchemaVersion then
    .error (.unsupportedSchema envelope.schemaVersion)
    else if !envelope.verifyIntegrity J then .error .integrity
    else .ok envelope

/-- The envelopes a caller can have. -/
inductive Obtained : SessionEnvelope → Prop
  | new {credentials : JsonValue} {envelope : SessionEnvelope}
    (h : new J credentials = .ok envelope) :
      Obtained envelope
  | regenerate {old : SessionEnvelope} (hold : Obtained old) {credentials : JsonValue}
    {envelope : SessionEnvelope}
      (h : old.regenerate J credentials = .ok envelope) : Obtained envelope
  | fromStrictBytes {bytes : ByteArray} {envelope : SessionEnvelope}
    (h : fromStrictBytes J bytes = .ok envelope) :
      Obtained envelope

end SessionEnvelope

/-! ## The stores -/

/-- The refusal of a document above the cap. -/
def sizeRefusal : SessionEnvelopeError := .parse "session document exceeds size cap"

/-- What the two stores do once an entry is read: an entry below the stored generation is refused,
and one that is too large; `wrap` is the error of the store. -/
def saveOver {ε : Type} (J : SessionCodec) (wrap : SessionEnvelopeError → ε)
    (stored : Option ByteArray)
    (found : Except ε (Option SessionEnvelope)) (envelope : SessionEnvelope) :
    Option ByteArray × Except ε Unit :=
  match found with
  | .error error => (stored, .error error)
  | .ok found =>
    match found.filter fun onDisk => decide
      (envelope.envelopeGeneration < onDisk.envelopeGeneration) with
    | some onDisk =>
      (stored, .error
       (wrap (.staleGeneration envelope.envelopeGeneration onDisk.envelopeGeneration)))
    | none =>
      match J.envelopeToVec envelope with
      | .error summary => (stored, .error (wrap (.parse summary)))
      | .ok bytes =>
        if bytes.size > maxSessionBytes then (stored, .error (wrap sizeRefusal))
        else (some bytes, .ok ())

namespace SessionEnvelopeStore

/-- `SessionEnvelopeStore::load`: the size of the file, then that of what was read. -/
def load (J : SessionCodec) (stored : Option ByteArray) :
    Except SessionEnvelopeError (Option SessionEnvelope) :=
  match stored with
  | none => .ok none
  | some bytes =>
    if bytes.size > maxSessionBytes then .error sizeRefusal
    else if bytes.size > maxSessionBytes then .error sizeRefusal
    else match SessionEnvelope.fromStrictBytes J bytes with
      | .ok envelope => .ok (some envelope)
      | .error error => .error error

/-- `SessionEnvelopeStore::save`. -/
def save (J : SessionCodec) (stored : Option ByteArray) (envelope : SessionEnvelope) :
    Option ByteArray × Except SessionEnvelopeError Unit :=
  saveOver J id stored (load J stored) envelope

end SessionEnvelopeStore

/-- The failures of the writable store, without those of the Secret Service. -/
inductive WritableStoreError where
  | envelope (error : SessionEnvelopeError)
  deriving DecidableEq

namespace KeyringSessionStore

/-- `read_bytes`. -/
def readBytes (stored : Option ByteArray) : Except WritableStoreError (Option ByteArray) :=
  match stored with
  | none => .ok none
  | some bytes => if bytes.size > maxSessionBytes then .error (.envelope sizeRefusal)
    else .ok (some bytes)

/-- `parse_strict`. -/
def parseStrict (J : SessionCodec) (bytes : ByteArray) :
    Except WritableStoreError SessionEnvelope :=
  match J.envelopeFromSlice bytes with
  | .error summary => .error (.envelope (.parse summary))
  | .ok envelope =>
    if envelope.schemaVersion ≠ sessionSchemaVersion then
      .error (.envelope (.unsupportedSchema envelope.schemaVersion))
    else if !envelope.verifyIntegrity J then .error (.envelope .integrity)
    else .ok envelope

/-- `KeyringSessionStore::load`. -/
def load (J : SessionCodec) (stored : Option ByteArray) :
    Except WritableStoreError (Option SessionEnvelope) :=
  match readBytes stored with
  | .error error => .error error
  | .ok none => .ok none
  | .ok (some bytes) =>
    match parseStrict J bytes with
    | .ok envelope => .ok (some envelope)
    | .error error => .error error

/-- `KeyringSessionStore::save`. -/
def save (J : SessionCodec) (stored : Option ByteArray) (envelope : SessionEnvelope) :
    Option ByteArray × Except WritableStoreError Unit :=
  saveOver J .envelope stored (load J stored) envelope

end KeyringSessionStore

end ProtonWire
