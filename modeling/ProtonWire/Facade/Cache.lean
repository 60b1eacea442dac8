import ProtonWire.Facade.Model
import ProtonWire.Lib.Aead
import ProtonWire.Lib.Runs

/-!
# The encrypted cache

`crates/protocol/src/cache.rs`: an entry is a header, a nonce and a ciphertext in a file of its own,
whose name is the associated data. The cipher is a value, `Aead`; which call of a write fails, and
the nonce it draws, are the environment's (`CacheEnv`).

* `splitEntry`, `readEntry`, `writeEntry`, `tryPut`, `tryRemove`: the calls of the source;
* `Written`: what a put leaves in an entry's file;
* `cacheStep`, `EntriesWritten`: the histories, and what holds along them;
* **`cache_round_trip`**: what a put stores is read back, and a file that was tampered with is
  absent, cut short or continued as far as the cipher rejects what is left;
* `cut_entry_opens`: that the cipher rejects it does not follow from its correctness.
-/

namespace ProtonWire

namespace EncryptedCache

open Facade (maxPlaintextLen)

/-! ## Files -/

/-- `PWCACHE`. -/
def magic : List UInt8 := [0x50, 0x57, 0x43, 0x41, 0x43, 0x48, 0x45]

def version : UInt8 := 1

def nonceLen : ℕ := 24

/-- The cap of a file. -/
def maxFileLen : ℕ := 64 * 1024

/-- The nonce of one write. -/
abbrev Nonce := Vector UInt8 nonceLen

/-- The directory of the cache, by file names. -/
abbrev Files := String → Option (List UInt8)

/-- Everything that may go wrong with an entry. -/
inductive CacheError where
  | io (error : String)
  | crypto (error : String)
  deriving DecidableEq

/-- The calls that may fail. -/
inductive CacheCall where
  | randomness
  | create
  | write
  | cleanup
  | rename
  | remove
  | syncParent
  | openEntry
  | readEntry
  deriving DecidableEq

/-- What the environment answers. -/
structure CacheEnv where
  nonce : Nonce
  fails : CacheCall → Option String
  /-- How many bytes a write gets through that fails. -/
  wrote : ℕ

/-- The name of an entry, without its extension. -/
def stem : CacheKey → String
  | .certificate => "certificate"
  | .privateKey => "private-key"
  | .apiSession => "api-session"

/-- The file of an entry. -/
def fileFor (key : CacheKey) : String := stem key ++ ".bin"

/-- Bytes as hexadecimal digits. -/
def hexSlice (bytes : List UInt8) : String :=
  String.ofList (bytes.flatMap fun byte =>
    [Nat.digitChar (byte.toNat / 16), Nat.digitChar (byte.toNat % 16)])

/-- The temporary file of a write. -/
def tempFor (key : CacheKey) (nonce : Nonce) : String := stem key ++ ".tmp" ++ hexSlice nonce.toList

/-! ## Reading -/

/-- Split a file into its nonce and its ciphertext, after its magic, version and length are
checked. -/
def splitEntry (bytes : List UInt8) : Option (Nonce × List UInt8) :=
  if h : bytes.length < magic.length + 1 + nonceLen then none
  else if bytes.take magic.length ≠ magic ∨ bytes[magic.length]? ≠ some version then none
  else
    let nonceStart := magic.length + 1
    some (⟨((bytes.drop nonceStart).take nonceLen).toArray, by
      simp only [List.size_toArray, List.length_take, List.length_drop];
        omega⟩, bytes.drop (nonceStart + nonceLen))

section
variable (A : Aead Nonce String)

/-- Read and decrypt an entry. -/
def readEntry (fails : CacheCall → Option String) (files : Files) (key : CacheKey) :
    Option (List UInt8) :=
  if fails .openEntry ≠ none then none
  else
    match files (fileFor key) with
    | none => none
    | some content =>
      if fails .readEntry ≠ none then none
      else
        let bytes := content.take (maxFileLen + 1)
        if maxFileLen < bytes.length then none
        else
          match splitEntry bytes with
          | none => none
          | some (nonce, ciphertext) => A.decrypt nonce (fileFor key) ciphertext

/-! ## Writing -/

/-- The failure of a call. -/
def CacheEnv.io (env : CacheEnv) (call : CacheCall) (context : String := "") :
    Except CacheError Unit :=
  match env.fails call with
  | some error => .error (.io (context ++ error))
  | none => .ok ()

/-- Drop the temporary file, as far as that works. -/
def cleanup (env : CacheEnv) (temp : String) (files : Files) : Files :=
  if env.fails .cleanup = none then Function.update files temp none else files

/-- Write a file under a temporary name and rename it. -/
def writePrivate (env : CacheEnv) (temp name : String) (bytes : List UInt8) (files : Files) :
    Except CacheError Unit × Files :=
  if maxFileLen < bytes.length then
    (.error (.io s!"cache entry {bytes.length} bytes exceeds the {maxFileLen} cap"), files)
  else if (files temp).isSome then (.error (.io "File exists (os error 17)"),
    cleanup env temp files)
  else
    match env.io .create with
    | .error error => (.error error, cleanup env temp files)
    | .ok () =>
      match env.io .write with
      | .error error =>
        (.error error, cleanup env temp (Function.update files temp (some (bytes.take env.wrote))))
      | .ok () =>
        match env.io .rename with
        | .error error => (.error error, cleanup env temp (Function.update files temp (some bytes)))
        | .ok () => (env.io .syncParent,
          Function.update (Function.update files temp none) name (some bytes))

/-- The bytes of an entry's file. -/
def entryBytes (nonce : Nonce) (ciphertext : List UInt8) : List UInt8 :=
  magic ++ [version] ++ nonce.toList ++ ciphertext

/-- Encrypt and write an entry. -/
def writeEntry (env : CacheEnv) (key : CacheKey) (plaintext : List UInt8) (files : Files) :
    Except CacheError Unit × Files :=
  if maxPlaintextLen < plaintext.length then
    (.error (.io
      (s!"cache entry {plaintext.length} bytes exceeds the plaintext cap (the file cap " ++
      s!"{maxFileLen} minus the 48-byte serialization overhead)")), files)
  else
    match env.io .randomness "OS randomness: " with
    | .error error => (.error error, files)
    | .ok () =>
      match A.encrypt env.nonce (fileFor key) plaintext with
      | none => (.error (.crypto "encryption failed"), files)
      | some ciphertext =>
        writePrivate env (tempFor key env.nonce) (fileFor key)
          (entryBytes env.nonce ciphertext) files

/-- The write that reports its failure. -/
def tryPut (env : CacheEnv) (key : CacheKey) (bytes : List UInt8) (files : Files) :
    Except CacheError Unit × Files :=
  writeEntry A env key bytes files

/-- The removal that reports its failure. A file that is not there is removed. -/
def tryRemove (env : CacheEnv) (key : CacheKey) (files : Files) : Except CacheError Unit × Files :=
  match files (fileFor key) with
  | none => (env.io .syncParent, files)
  | some _ =>
    match env.io .remove with
    | .error error => (.error error, files)
    | .ok () => (env.io .syncParent, Function.update files (fileFor key) none)

/-! ## Histories -/

/-- One call. -/
inductive CacheStep where
  | put (env : CacheEnv) (key : CacheKey) (bytes : List UInt8)
  | remove (env : CacheEnv) (key : CacheKey)

def cacheStep (files : Files) : CacheStep → Files × List Unit
  | .put env key bytes => ((tryPut A env key bytes files).2, [])
  | .remove env key => ((tryRemove env key files).2, [])

/-- The directory after a history of calls. -/
def filesAfter (history : List CacheStep) : Files :=
  (Machine.run (cacheStep A) (fun _ => none) history).1

/-- A file is what a put of the entry wrote. -/
def Written (key : CacheKey) (content : List UInt8) : Prop :=
  ∃ nonce message ciphertext,
    A.encrypt nonce (fileFor key) message = some ciphertext ∧ content = entryBytes nonce ciphertext

/-- Every entry's file was written by a put of the entry. -/
def EntriesWritten (files : Files) : Prop :=
  ∀ key content, files (fileFor key) = some content → Written A key content

/-- The names of the entries. -/
def names : List String := CacheKey.allKeys.map fileFor

variable {A} {env : CacheEnv} {key : CacheKey} {bytes : List UInt8} {files : Files} {nonce : Nonce}

/-! ## The file format -/

theorem maxPlaintextLen_eq :
    maxPlaintextLen + 16 + (magic.length + 1 + nonceLen) = maxFileLen := rfl

theorem length_entryBytes (nonce : Nonce) (ciphertext : List UInt8) :
    (entryBytes nonce ciphertext).length = ciphertext.length + 32 := by
  have hnonce : nonce.toList.length = 24 := Vector.length_toList
  rw [entryBytes, List.length_append, List.length_append, hnonce]
  simp [magic]
  omega

theorem entryBytes_parts (nonce : Nonce) (ciphertext : List UInt8) :
    (entryBytes nonce ciphertext).take 7 = magic ∧
    (entryBytes nonce ciphertext)[7]? = some version ∧
      ((entryBytes nonce ciphertext).drop 8).take 24 = nonce.toList ∧
      (entryBytes nonce ciphertext).drop 32 = ciphertext := by
  have hnonce : nonce.toList.length = 24 := Vector.length_toList
  have hheader : entryBytes nonce ciphertext = (magic ++ [version]) ++
    (nonce.toList ++ ciphertext) := by
    simp [entryBytes]
  have hdrop : (entryBytes nonce ciphertext).drop 8 = nonce.toList ++ ciphertext := by
    rw [hheader]
    rfl
  refine ⟨by rw [hheader]; rfl, by rw [hheader]; rfl, ?_, ?_⟩
  · rw [hdrop, ← hnonce, List.take_left]
  · rw [show 32 = 8 + 24 from rfl, ← List.drop_drop, hdrop, ← hnonce, List.drop_left]

theorem splitEntry_entryBytes (nonce : Nonce) (ciphertext : List UInt8) :
    splitEntry (entryBytes nonce ciphertext) = some (nonce, ciphertext) := by
  obtain ⟨hmagic, hversion, hnonce, hrest⟩ := entryBytes_parts nonce ciphertext
  have hlen : ¬ (entryBytes nonce ciphertext).length < magic.length + 1 + nonceLen := by
    rw [length_entryBytes]
    simp [magic, nonceLen]
  have hheader : ¬ ((entryBytes nonce ciphertext).take magic.length ≠ magic ∨
      (entryBytes nonce ciphertext)[magic.length]? ≠ some version) := by
    rintro (h | h)
    · exact h hmagic
    · exact h hversion
  rw [splitEntry, dif_neg hlen, if_neg hheader]
  refine congrArg some (Prod.ext (Vector.toList_inj.mp ?_) hrest)
  exact hnonce

theorem splitEntry_of_short (h : bytes.length < 32) : splitEntry bytes = none := by
  rw [splitEntry, dif_pos (by simpa [magic, nonceLen] using h)]

theorem take_entryBytes (nonce : Nonce) (ciphertext : List UInt8) {n : ℕ} (hn : 32 ≤ n) :
    (entryBytes nonce ciphertext).take n = entryBytes nonce (ciphertext.take (n - 32)) := by
  have hlen : (magic ++ [version] ++ nonce.toList).length = 32 := by
    have hnonce : nonce.toList.length = 24 := Vector.length_toList
    simp [magic, hnonce]
  rw [entryBytes, entryBytes, List.take_append, hlen, List.take_of_length_le (by omega)]

theorem entryBytes_append (nonce : Nonce) (ciphertext more : List UInt8) :
    entryBytes nonce ciphertext ++ more = entryBytes nonce (ciphertext ++ more) := by
  rw [entryBytes, entryBytes, List.append_assoc]

/-! ## What a read answers -/

theorem readEntry_eq {content ciphertext : List UInt8} {fails : CacheCall → Option String}
    (hopen : fails .openEntry = none) (hread : fails .readEntry = none)
    (hfile : files (fileFor key) = some content)
    (hlen : content.length ≤ maxFileLen) (hsplit : splitEntry content = some (nonce, ciphertext)) :
    readEntry A fails files key = A.decrypt nonce (fileFor key) ciphertext := by
  have htake : content.take (maxFileLen + 1) = content := List.take_of_length_le (by omega)
  rw [readEntry, if_neg (not_not.mpr hopen), hfile]
  dsimp only
  rw [if_neg (not_not.mpr hread), htake, if_neg (by omega), hsplit]

theorem readEntry_eq_none {content : List UInt8} {fails : CacheCall → Option String}
    (hfile : files (fileFor key) = some content)
    (h : ∀ nonce ciphertext, splitEntry content = some (nonce, ciphertext) →
      A.decrypt nonce (fileFor key) ciphertext = none) : readEntry A fails files key = none := by
  rw [readEntry, hfile]
  dsimp only
  split_ifs with hopen hread hlong
  · rfl
  · rfl
  · rfl
  · have htake : content.take (maxFileLen + 1) = content := by
      rw [List.length_take] at hlong
      exact List.take_of_length_le (by omega)
    rw [htake]
    cases hsplit : splitEntry content with
    | none => rfl
    | some parts => exact h parts.1 parts.2 hsplit

theorem readEntry_of_long {content : List UInt8} {fails : CacheCall → Option String}
    (hfile : files (fileFor key) = some content) (hlong : maxFileLen < content.length) :
    readEntry A fails files key = none := by
  have htake : maxFileLen < (content.take (maxFileLen + 1)).length := by
    rw [List.length_take]
    omega
  rw [readEntry, hfile]
  dsimp only
  rw [if_pos htake]
  split_ifs <;> rfl

/-! ## What a call leaves -/

theorem fileFor_inj {key key' : CacheKey} (h : fileFor key = fileFor key') : key = key' := by
  cases key <;> cases key' <;> first | rfl | exact absurd h (by decide)

theorem mem_names (key : CacheKey) :
    fileFor key ∈ names := List.mem_map_of_mem (by cases key <;> decide)

theorem tempFor_ne_fileFor (key key' : CacheKey) (nonce : Nonce) :
    tempFor key nonce ≠ fileFor key' := by
  intro h
  have hchars := congrArg String.toList h
  simp only [tempFor, fileFor, String.toList_append, List.append_assoc] at hchars
  cases key <;> cases key' <;> simp [stem] at hchars

theorem cleanup_keeps {temp other : String} (hother : other ≠ temp) :
    cleanup env temp files other = files other := by
  unfold cleanup
  split_ifs
  · exact Function.update_of_ne hother ..
  · rfl

/-- A write of an entry leaves the files of the others, and its own file, or what it writes
there. -/
theorem writePrivate_keeps {temp name other : String} (hother : other ≠ temp) :
    (writePrivate env temp name bytes files).2 other = files other ∨
      other = name ∧ (writePrivate env temp name bytes files).2 other = some bytes := by
  unfold writePrivate
  split_ifs
  · exact Or.inl rfl
  · exact Or.inl (cleanup_keeps hother)
  · cases env.io .create with
    | error error => exact Or.inl (cleanup_keeps hother)
    | ok =>
      dsimp only
      cases env.io .write with
      | error error => exact Or.inl ((cleanup_keeps hother).trans (Function.update_of_ne hother ..))
      | ok =>
        dsimp only
        cases env.io .rename with
        | error error =>
          exact Or.inl ((cleanup_keeps hother).trans (Function.update_of_ne hother ..))
        | ok =>
          by_cases hname : other = name
          · exact Or.inr ⟨hname, by rw [hname]; exact Function.update_self ..⟩
          · exact Or.inl ((Function.update_of_ne hname ..).trans (Function.update_of_ne hother ..))

theorem writePrivate_of_quiet {temp name : String} (hquiet : ∀ call, env.fails call = none)
    (hfree : files temp = none)
    (hlen : bytes.length ≤ maxFileLen) : writePrivate env temp name bytes files =
      (.ok (), Function.update (Function.update files temp none) name (some bytes)) := by
  have hio : ∀ call, env.io call = .ok () := fun call => by rw [CacheEnv.io, hquiet]
  rw [writePrivate, if_neg (by omega), hfree]
  simp [hio]

theorem tryPut_files (env : CacheEnv) (key : CacheKey) (message : List UInt8) (files : Files)
    (key' : CacheKey) :
    (tryPut A env key message files).2 (fileFor key') = files (fileFor key') ∨
      key' = key ∧ ∃ ciphertext, A.encrypt env.nonce (fileFor key) message = some ciphertext ∧
        (tryPut A env key message files).2 (fileFor key') =
        some (entryBytes env.nonce ciphertext) := by
  unfold tryPut writeEntry
  split_ifs with hlong
  · exact Or.inl rfl
  · rw [CacheEnv.io]
    cases env.fails .randomness with
    | some error => exact Or.inl rfl
    | none =>
      dsimp only
      cases hsealed : A.encrypt env.nonce (fileFor key) message with
      | none => exact Or.inl rfl
      | some ciphertext =>
        dsimp only
        have hkeeps : (writePrivate env (tempFor key env.nonce) (fileFor key)
          (entryBytes env.nonce ciphertext)
            files).2 (fileFor key') = files (fileFor key') ∨ _ :=
          writePrivate_keeps (tempFor_ne_fileFor key key' env.nonce).symm
        rcases hkeeps with hkept | ⟨hname, hwritten⟩
        · exact Or.inl hkept
        · exact Or.inr ⟨fileFor_inj hname, ciphertext, rfl, hwritten⟩

theorem tryRemove_files (env : CacheEnv) (key : CacheKey) (files : Files) (name : String) :
    (tryRemove env key files).2 name = files name ∨ (tryRemove env key files).2 name = none := by
  unfold tryRemove
  split
  · exact Or.inl rfl
  · cases env.io .remove with
    | error error => exact Or.inl rfl
    | ok =>
      by_cases hname : name = fileFor key
      · exact Or.inr (by rw [hname]; exact Function.update_self ..)
      · exact Or.inl (Function.update_of_ne hname ..)

theorem entriesWritten_step {files : Files} (h : EntriesWritten A files) (step : CacheStep) :
    EntriesWritten A (cacheStep A files step).1 := by
  intro key content hfile
  cases step with
  | put env key' message =>
    rcases tryPut_files (A := A) env key' message files key with
      hkept | ⟨rfl, ciphertext, hsealed, hwritten⟩
    · exact h key content (hkept.symm.trans hfile)
    · exact ⟨env.nonce, message, ciphertext, hsealed, Option.some.inj (hfile.symm.trans hwritten)⟩
  | remove env key' =>
    rcases tryRemove_files env key' files (fileFor key) with hkept | hgone
    · exact h key content (hkept.symm.trans hfile)
    · cases hfile.symm.trans hgone

/-- Whatever fails on the way, every entry's file was written by a put of the entry. -/
theorem entriesWritten_run (history : List CacheStep) : EntriesWritten A (filesAfter A history) :=
  Machine.run_state_inv (EntriesWritten A) (fun _ step h => entriesWritten_step h step) _
    (fun _ _ hfile => by cases hfile) history

/-! ## The round trip -/

theorem tryPut_of_quiet (hA : A.Correct 16 maxPlaintextLen names)
    (hquiet : ∀ call, env.fails call = none)
    (hfree : files (tempFor key env.nonce) = none) {message : List UInt8}
    (hlen : message.length ≤ maxPlaintextLen) :
    ∃ ciphertext, A.encrypt env.nonce (fileFor key) message = some ciphertext ∧
      (entryBytes env.nonce ciphertext).length ≤ maxFileLen ∧
      tryPut A env key message files = (.ok (),
        Function.update (Function.update files (tempFor key env.nonce) none)
        (fileFor key) (some (entryBytes env.nonce ciphertext))) := by
  obtain ⟨ciphertext, hsealed⟩ := hA.encrypts env.nonce (fileFor key) message hlen
  have hshort : (entryBytes env.nonce ciphertext).length ≤ maxFileLen := by
    rw [length_entryBytes, hA.length _ _ _ _ hsealed]
    have hcap : maxPlaintextLen + 16 + 32 = maxFileLen := maxPlaintextLen_eq
    omega
  refine ⟨ciphertext, hsealed, hshort, ?_⟩
  rw [tryPut, writeEntry, if_neg (by omega), CacheEnv.io, hquiet]
  dsimp only
  rw [hsealed]
  exact writePrivate_of_quiet hquiet hfree hshort

theorem tryPut_of_long {message : List UInt8} (hlen : maxPlaintextLen < message.length) :
    (tryPut A env key message files).1 ≠ .ok () ∧ (tryPut A env key message files).2 = files := by
  rw [tryPut, writeEntry, if_pos hlen]
  exact ⟨(fun h => by cases h), rfl⟩

/-- An entry's file that is cut short reads as absent if the cipher rejects what is left of the
ciphertext; nothing is left of it below the header. -/
theorem absent_of_cut (fails : CacheCall → Option String) (files : Files) {ciphertext : List UInt8}
    {n : ℕ} (hrejects : 32 ≤ n → A.decrypt nonce (fileFor key) (ciphertext.take (n - 32)) = none) :
    readEntry A fails (Function.update files (fileFor key)
      (some ((entryBytes nonce ciphertext).take n))) key = none := by
  refine readEntry_eq_none (Function.update_self ..) fun nonce' ciphertext' hsplit => ?_
  by_cases hshort : n < 32
  · rw [splitEntry_of_short (by rw [List.length_take]; omega)] at hsplit
    cases hsplit
  · rw [take_entryBytes _ _ (by omega), splitEntry_entryBytes] at hsplit
    cases hsplit
    exact hrejects (by omega)

/-- An entry's file that is continued reads as absent if it is beyond the cap or the cipher rejects
the ciphertext so continued. -/
theorem absent_of_continued (fails : CacheCall → Option String) (files : Files)
    {ciphertext more : List UInt8}
    (hrejects : (entryBytes nonce ciphertext).length + more.length ≤ maxFileLen →
      A.decrypt nonce (fileFor key) (ciphertext ++ more) = none) :
    readEntry A fails (Function.update files (fileFor key)
      (some (entryBytes nonce ciphertext ++ more))) key = none := by
  by_cases hlong : (entryBytes nonce ciphertext).length + more.length ≤ maxFileLen
  · refine readEntry_eq_none (Function.update_self ..) fun nonce' ciphertext' hsplit => ?_
    rw [entryBytes_append, splitEntry_entryBytes] at hsplit
    cases hsplit
    exact hrejects hlong
  · refine readEntry_of_long (Function.update_self ..) ?_
    rw [List.length_append]
    omega

theorem absent_of_copied (hA : A.Correct 16 maxPlaintextLen names) {content : List UInt8}
    (h : Written A key content) (fails : CacheCall → Option String) (files : Files)
    {key' : CacheKey} (hne : key' ≠ key) :
    readEntry A fails (Function.update files (fileFor key') (some content)) key' = none := by
  obtain ⟨nonce, message, ciphertext, hsealed, rfl⟩ := h
  refine readEntry_eq_none (Function.update_self ..) fun nonce' ciphertext' hsplit => ?_
  rw [splitEntry_entryBytes] at hsplit
  cases hsplit
  exact hA.binds _ _ (mem_names key) _ _ hsealed _ (mem_names key') fun h => hne (fileFor_inj h)

/-- **The encrypted cache round trip**, after any history of puts and removals, whatever failed in
it. A put whose calls all go through succeeds exactly when the payload is within the plaintext cap;
then the entry reads as the payload, and every other entry as before. An entry's file that is copied
over another entry's reads as absent, and so does one that is cut short or continued: below the
header or beyond the cap without the cipher being asked, and else wherever the cipher rejects the
ciphertext so changed. -/
theorem cache_round_trip (A : Aead Nonce String) (hA : A.Correct 16 maxPlaintextLen names)
    (history : List CacheStep) :
    let files := filesAfter A history
    (∀ env key payload, (∀ call, env.fails call = none) → files (tempFor key env.nonce) = none →
        ((tryPut A env key payload files).1 = .ok () ↔ payload.length ≤ maxPlaintextLen) ∧
        ((tryPut A env key payload files).1 = .ok () →
          readEntry A env.fails (tryPut A env key payload files).2 key = some payload) ∧
        ∀ key', key' ≠ key →
          (tryPut A env key payload files).2 (fileFor key') = files (fileFor key') ∧
          readEntry A env.fails (tryPut A env key payload files).2 key' =
            readEntry A env.fails files key') ∧
      ∀ key content, files (fileFor key) = some content →
        ∃ nonce message ciphertext, A.encrypt nonce (fileFor key) message = some ciphertext ∧
          content = entryBytes nonce ciphertext ∧
          ∀ fails,
            (∀ n < content.length,
              (32 ≤ n → A.decrypt nonce (fileFor key) (ciphertext.take (n - 32)) = none) →
              readEntry A fails
                (Function.update files (fileFor key) (some (content.take n))) key = none) ∧
            (∀ more, more ≠ [] →
              (content.length + more.length ≤ maxFileLen →
                A.decrypt nonce (fileFor key) (ciphertext ++ more) = none) →
              readEntry A fails
                (Function.update files (fileFor key) (some (content ++ more))) key = none) ∧
            ∀ key', key' ≠ key →
              readEntry A fails (Function.update files (fileFor key') (some content)) key' =
              none := by
  intro files
  constructor
  · intro env key payload hquiet hfree
    have hok : (tryPut A env key payload files).1 = .ok () → payload.length ≤ maxPlaintextLen :=
      fun hok => by
        by_contra hlong
        exact (tryPut_of_long (by omega)).1 hok
    refine ⟨⟨hok, fun hlen => ?_⟩, fun hput => ?_, fun key' hne => ?_⟩
    · obtain ⟨ciphertext, -, -, hput⟩ := tryPut_of_quiet hA hquiet hfree hlen
      rw [hput]
    · obtain ⟨ciphertext, hsealed, hshort, hput⟩ := tryPut_of_quiet hA hquiet hfree (hok hput)
      rw [hput, readEntry_eq (hquiet _) (hquiet _) (Function.update_self ..) hshort
        (splitEntry_entryBytes _ _)]
      exact hA.decrypts _ _ _ _ hsealed
    · have hkept : (tryPut A env key payload files).2 (fileFor key') = files (fileFor key') := by
        rcases tryPut_files (A := A) env key payload files key' with hkept | ⟨heq, -⟩
        · exact hkept
        · exact absurd heq hne
      refine ⟨hkept, ?_⟩
      rw [readEntry, readEntry, hkept]
  · intro key content hfile
    have hwritten : Written A key content := entriesWritten_run history key content hfile
    obtain ⟨nonce, message, ciphertext, hsealed, rfl⟩ := hwritten
    exact ⟨nonce, message, ciphertext, hsealed, rfl, fun fails =>
      ⟨fun n _ hrejects => absent_of_cut fails files hrejects,
        fun more _ hrejects => absent_of_continued fails files hrejects,
        fun key' hne => absent_of_copied hA ⟨nonce, message, ciphertext, hsealed,
          rfl⟩ fails files hne⟩⟩

end

/-! ## Two ciphers -/

/-- The length of a message and the associated data, in sixteen bytes. -/
def lengthTag (aad : String) (n : ℕ) : List UInt8 :=
  [UInt8.ofNat n, UInt8.ofNat (n / 256), UInt8.ofNat (names.idxOf aad)] ++ List.replicate 13 0

/-- A cipher whose tag holds the length of the message. -/
def lengthCipher : Aead Nonce String := .tagged lengthTag maxPlaintextLen

/-- A cipher whose tag holds the associated data alone. -/
def nameCipher : Aead Nonce String := .tagged (fun aad _ => lengthTag aad 0) maxPlaintextLen

theorem lengthTag_names : ∀ aad ∈ names, ∀ aad' ∈ names, ∀ n m,
    lengthTag aad n = lengthTag aad' m → aad = aad' := by
  intro aad haad aad' haad' n m h
  have hname : UInt8.ofNat (names.idxOf aad) = UInt8.ofNat (names.idxOf aad') := by
    have hget := congrArg (·[2]?) h
    exact Option.some.inj hget
  have hinj : ∀ a ∈ names, ∀ b ∈ names,
      UInt8.ofNat (names.idxOf a) = UInt8.ofNat (names.idxOf b) → a = b := by decide
  exact hinj aad haad aad' haad' hname

theorem lengthCipher_correct : lengthCipher.Correct 16 maxPlaintextLen names :=
  Aead.tagged_correct (fun _ _ => rfl) lengthTag_names

theorem nameCipher_correct : nameCipher.Correct 16 maxPlaintextLen names :=
  Aead.tagged_correct (fun _ _ => rfl) fun aad haad aad' haad' _ _ =>
  lengthTag_names aad haad aad' haad' 0 0

/-- A nonce, and no failure. -/
def quietCache (byte : UInt8) : CacheEnv := ⟨Vector.replicate nonceLen byte, fun _ => none, 0⟩

/-- A certificate is stored. -/
def putCertificate : List CacheStep := [.put (quietCache 1) .certificate [1, 2, 3]]

theorem filesAfter_putCertificate {A : Aead Nonce String}
    (hA : A.Correct 16 maxPlaintextLen names) :
    ∃ ciphertext, A.encrypt (quietCache 1).nonce "certificate.bin" [1, 2, 3] = some ciphertext ∧
      filesAfter A putCertificate = Function.update
        (Function.update (fun _ => none) (tempFor .certificate (quietCache 1).nonce) none)
        "certificate.bin" (some (entryBytes (quietCache 1).nonce ciphertext)) := by
  obtain ⟨ciphertext, hsealed, -, hput⟩ :=
    @tryPut_of_quiet A (quietCache 1) .certificate (fun _ => none) hA (fun _ => rfl) rfl [1, 2, 3]
      (by decide)
  exact ⟨ciphertext, hsealed, congrArg Prod.snd hput⟩

/-- An entry stored beside another; the file of the other cut short, continued and copied. -/
theorem cache_round_trip_oneEntry :
    let files := filesAfter lengthCipher putCertificate
    readEntry lengthCipher (fun _ => none)
    (tryPut lengthCipher (quietCache 2) .privateKey [7] files).2
        .privateKey = some [7] ∧
      ∀ content, files (fileFor .certificate) = some content →
        readEntry lengthCipher (fun _ => none)
          (Function.update files (fileFor .certificate) (some (content.take 50)))
          .certificate = none ∧
        readEntry lengthCipher (fun _ => none)
          (Function.update files (fileFor .certificate) (some (content ++ [4])))
          .certificate = none ∧
        readEntry lengthCipher (fun _ => none)
          (Function.update files (fileFor .privateKey) (some content)) .privateKey = none := by
  intro files
  obtain ⟨hputs, htampered⟩ := cache_round_trip lengthCipher lengthCipher_correct putCertificate
  obtain ⟨sealed', hsealed', hfiles⟩ := filesAfter_putCertificate lengthCipher_correct
  obtain rfl : lengthTag "certificate.bin" 3 ++ [1, 2, 3] = sealed' := Option.some.inj hsealed'
  change files = _ at hfiles
  have hfree : files (tempFor .privateKey (quietCache 2).nonce) = none := by
    rw [hfiles]
    rfl
  obtain ⟨hok, hreads, -⟩ := hputs (quietCache 2) .privateKey [7] (fun _ => rfl) hfree
  refine ⟨hreads (hok.mpr (by decide)), fun content hcontent => ?_⟩
  obtain ⟨nonce, message, ciphertext, -, rfl, hreads⟩ := htampered .certificate content hcontent
  rw [hfiles] at hcontent
  have hparts := congrArg splitEntry (Option.some.inj hcontent)
  rw [splitEntry_entryBytes, splitEntry_entryBytes] at hparts
  cases hparts
  obtain ⟨hcut, hcontinued, hcopied⟩ := hreads fun _ => none
  exact ⟨hcut 50 (by decide) fun _ => by decide, hcontinued [4] (by decide) fun _ => by decide,
    hcopied .privateKey (by decide)⟩

/-- **A correct cipher that opens a file cut short**: as another payload. -/
theorem cut_entry_opens :
    nameCipher.Correct 16 maxPlaintextLen names ∧
      ∃ content, filesAfter nameCipher putCertificate (fileFor .certificate) = some content ∧
        readEntry nameCipher (fun _ => none)
          (Function.update (filesAfter nameCipher putCertificate) (fileFor .certificate)
            (some (content.take (content.length - 1)))) .certificate = some [1, 2] := by
  obtain ⟨ciphertext, hsealed, hfiles⟩ := filesAfter_putCertificate nameCipher_correct
  obtain rfl : lengthTag "certificate.bin" 0 ++ [1, 2, 3] = ciphertext := Option.some.inj hsealed
  refine ⟨nameCipher_correct, _, by rw [hfiles]; exact Function.update_self .., ?_⟩
  have hcut : (entryBytes (quietCache 1).nonce (lengthTag "certificate.bin" 0 ++ [1, 2, 3])).take
    50 =
      entryBytes (quietCache 1).nonce (lengthTag "certificate.bin" 0 ++ [1, 2]) := rfl
  rw [length_entryBytes]
  change readEntry _ _ (Function.update _ _ (some (List.take 50 _))) _ = _
  rw [hcut, readEntry_eq rfl rfl (Function.update_self ..) (by decide) (splitEntry_entryBytes _ _)]
  rfl

end EncryptedCache

end ProtonWire
