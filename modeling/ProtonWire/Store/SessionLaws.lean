import ProtonWire.Lib.Runs
import ProtonWire.Store.Session

/-!
# The laws of the session stores

A run is a serial sequence of saves and loads over the bytes that are stored.

* `strictLoad`, `load_file`, `load_keyring`: both loads are one;
* `Accepts`, `saveOver_ok_iff`: when a save succeeds;
* `StoreLaws`: an accepted envelope is what is read, a refusal writes nothing, the generation never
  decreases, and what is regenerated from the stored envelope is never stale;
* `WithinLimits`: no accepted envelope is nested beyond the recursion limit, or has the last
  generation;
* **`session_store_laws_iff`**: the laws hold of a run of either store exactly within these limits;
* **`deep_session_unreadable`**: an accepted envelope that no load reads, and no save replaces.
-/

namespace ProtonWire

/-! ## The generation -/

/-- `u64::MAX`. -/
def lastGeneration : UInt64 := 18446744073709551615

theorem not_lt_succ_generation {g : UInt64} (h : g ≠ lastGeneration) : ¬ g + 1 < g := by
  have hne : g.toNat ≠ 18446744073709551615 := fun heq => h (UInt64.toNat_inj.mp heq)
  have hlt := g.toNat_lt
  rw [UInt64.lt_iff_toNat_lt, UInt64.toNat_add]
  simp only [UInt64.toNat_one]
  omega

theorem succ_lastGeneration_lt : lastGeneration + 1 < lastGeneration := by decide

/-! ## Loads and saves -/

section
variable {ε : Type} (J : SessionCodec) (wrap : SessionEnvelopeError → ε)

/-- The strict read of what is stored. -/
def strictLoad (stored : Option ByteArray) : Except ε (Option SessionEnvelope) :=
  match stored with
  | none => .ok none
  | some bytes =>
    if bytes.size > maxSessionBytes then .error (wrap sizeRefusal)
    else match SessionEnvelope.fromStrictBytes J bytes with
      | .ok envelope => .ok (some envelope)
      | .error error => .error (wrap error)

theorem load_file (stored : Option ByteArray) :
    SessionEnvelopeStore.load J stored = strictLoad J id stored := by
  unfold SessionEnvelopeStore.load strictLoad
  cases stored with
  | none => rfl
  | some bytes =>
    dsimp only
    split_ifs
    · rfl
    · rfl

theorem load_keyring (stored : Option ByteArray) :
    KeyringSessionStore.load J stored = strictLoad J WritableStoreError.envelope stored := by
  unfold KeyringSessionStore.load KeyringSessionStore.readBytes strictLoad
  cases stored with
  | none => rfl
  | some bytes =>
    dsimp only
    by_cases hsize : bytes.size > maxSessionBytes
    · rw [if_pos hsize, if_pos hsize]
    · rw [if_neg hsize, if_neg hsize]
      unfold KeyringSessionStore.parseStrict SessionEnvelope.fromStrictBytes
      dsimp only
      cases J.envelopeFromSlice bytes with
      | error summary => rfl
      | ok envelope =>
        dsimp only
        by_cases hschema : envelope.schemaVersion ≠ sessionSchemaVersion
        · rw [if_pos hschema, if_pos hschema]
        · rw [if_neg hschema, if_neg hschema]
          by_cases hdigest : (!envelope.verifyIntegrity J) = true
          · rw [if_pos hdigest, if_pos hdigest]
          · rw [if_neg hdigest, if_neg hdigest]

/-- The save of a store. -/
def strictSave (stored : Option ByteArray) (envelope : SessionEnvelope) :
    Option ByteArray × Except ε Unit :=
  saveOver J wrap stored (strictLoad J wrap stored) envelope

/-- What is stored can be read and is not newer, and the envelope fits. -/
def Accepts (stored : Option ByteArray) (envelope : SessionEnvelope) (bytes : ByteArray) : Prop :=
  ∃ found, strictLoad J wrap stored = .ok found ∧
    (∀ onDisk ∈ found, onDisk.envelopeGeneration ≤ envelope.envelopeGeneration) ∧
    J.envelopeToVec envelope = .ok bytes ∧ bytes.size ≤ maxSessionBytes

variable {J wrap} {stored : Option ByteArray} {envelope : SessionEnvelope}

theorem strictSave_of_accepts {bytes : ByteArray} (h : Accepts J wrap stored envelope bytes) :
    strictSave J wrap stored envelope = (some bytes, .ok ()) := by
  obtain ⟨found, hload, hfloor, hvec, hsize⟩ := h
  have hfilter : (found.filter fun onDisk =>
      decide (envelope.envelopeGeneration < onDisk.envelopeGeneration)) = none := by
    rw [Option.filter_eq_none_iff]
    intro onDisk hmem
    rw [decide_eq_true_eq]
    exact UInt64.not_lt.mpr (hfloor onDisk hmem)
  unfold strictSave saveOver
  rw [hload]
  dsimp only
  rw [hfilter]
  dsimp only
  rw [hvec]
  dsimp only
  rw [if_neg (not_lt.mpr hsize)]

variable (J wrap stored envelope) in
/-- **A save succeeds exactly if it is accepted**; otherwise it writes nothing. -/
theorem strictSave_cases :
    (∃ bytes, Accepts J wrap stored envelope bytes) ∨
      ∃ error, strictSave J wrap stored envelope = (stored, .error error) := by
  cases hload : strictLoad J wrap stored with
  | error error =>
    refine .inr ⟨error, ?_⟩
    unfold strictSave saveOver
    rw [hload]
  | ok found =>
    cases hfilter : found.filter fun onDisk =>
      decide (envelope.envelopeGeneration < onDisk.envelopeGeneration) with
    | some onDisk =>
      refine .inr ⟨wrap (.staleGeneration envelope.envelopeGeneration onDisk.envelopeGeneration),
        ?_⟩
      unfold strictSave saveOver
      rw [hload]
      dsimp only
      rw [hfilter]
    | none =>
      have hfloor : ∀ onDisk ∈ found, onDisk.envelopeGeneration ≤ envelope.envelopeGeneration := by
        intro onDisk hmem
        rw [Option.filter_eq_none_iff] at hfilter
        have := hfilter onDisk hmem
        rw [decide_eq_true_eq] at this
        exact UInt64.not_lt.mp this
      cases hvec : J.envelopeToVec envelope with
      | error summary =>
        refine .inr ⟨wrap (.parse summary), ?_⟩
        unfold strictSave saveOver
        rw [hload]
        dsimp only
        rw [hfilter]
        dsimp only
        rw [hvec]
      | ok bytes =>
        by_cases hsize : bytes.size > maxSessionBytes
        · refine .inr ⟨wrap sizeRefusal, ?_⟩
          unfold strictSave saveOver
          rw [hload]
          dsimp only
          rw [hfilter]
          dsimp only
          rw [hvec]
          dsimp only
          rw [if_pos hsize]
        · exact .inl ⟨bytes, found, hload, hfloor, hvec, not_lt.mp hsize⟩

/-! ## Valid envelopes -/

/-- The schema and the digest are those of the format. -/
structure SessionEnvelope.Valid (J : SessionCodec) (envelope : SessionEnvelope) : Prop where
  schema : envelope.schemaVersion = sessionSchemaVersion
  integrity : envelope.verifyIntegrity J = true

theorem SessionEnvelope.valid_atGeneration {generation : UInt64} {credentials : JsonValue}
    (h : atGeneration J generation credentials = .ok envelope) :
    envelope.Valid J ∧ envelope.envelopeGeneration = generation := by
  unfold atGeneration at h
  cases hdigest : canonicalDigest J credentials with
  | error error =>
    rw [hdigest] at h
    cases h
  | ok digest =>
    rw [hdigest] at h
    cases h
    refine ⟨⟨rfl, ?_⟩, rfl⟩
    unfold verifyIntegrity
    rw [hdigest]
    exact beq_self_eq_true digest

theorem SessionEnvelope.Obtained.valid (h : SessionEnvelope.Obtained J envelope) :
    envelope.Valid J := by
  cases h with
  | new h => exact (valid_atGeneration h).1
  | regenerate hold h => exact (valid_atGeneration h).1
  | fromStrictBytes h =>
    rename_i bytes
    unfold SessionEnvelope.fromStrictBytes at h
    cases hparse : J.envelopeFromSlice bytes with
    | error summary =>
      rw [hparse] at h
      cases h
    | ok parsed =>
      rw [hparse] at h
      dsimp only at h
      split_ifs at h with hschema hdigest
      cases h
      exact ⟨not_not.mp hschema, by simpa using hdigest⟩

theorem strictLoad_of_shallow (hJ : J.Lawful) (hvalid : envelope.Valid J) {bytes : ByteArray}
    (hvec : J.envelopeToVec envelope = .ok bytes) (hsize : bytes.size ≤ maxSessionBytes)
    (hshallow : envelope.nesting < recursionLimit) :
    strictLoad J wrap (some bytes) = .ok (some envelope) := by
  unfold strictLoad SessionEnvelope.fromStrictBytes
  dsimp only
  rw [if_neg (not_lt.mpr hsize), hJ.shallow envelope bytes hvec hshallow]
  dsimp only
  rw [if_neg (not_not.mpr hvalid.schema), hvalid.integrity]
  rfl

theorem strictLoad_of_deep (hJ : J.Lawful) {bytes : ByteArray}
    (hvec : J.envelopeToVec envelope = .ok bytes) (hdeep : recursionLimit ≤ envelope.nesting) :
    ∃ error, strictLoad J wrap (some bytes) = .error error := by
  obtain ⟨summary, hparse⟩ := hJ.deep envelope bytes hvec hdeep
  unfold strictLoad SessionEnvelope.fromStrictBytes
  dsimp only
  rw [hparse]
  split_ifs
  · exact ⟨_, rfl⟩
  · exact ⟨_, rfl⟩

end

/-! ## Runs -/

/-- A call of a store. -/
inductive StoreCall where
  | load
  | save (envelope : SessionEnvelope)

/-- A call with what it returned. -/
inductive StoreEntry (ε : Type) where
  | loaded (result : Except ε (Option SessionEnvelope))
  | saved (envelope : SessionEnvelope) (result : Except ε Unit)

section
variable {ε : Type} (load : Option ByteArray → Except ε (Option SessionEnvelope))
  (save : Option ByteArray → SessionEnvelope → Option ByteArray × Except ε Unit)

/-- One call. -/
def storeStep (stored : Option ByteArray) : StoreCall → Option ByteArray × List (StoreEntry ε)
  | .load => (stored, [.loaded (load stored)])
  | .save envelope => ((save stored envelope).1, [.saved envelope (save stored envelope).2])

/-- The envelope of a save that returned `Ok`. -/
def StoreEntry.accepted? : StoreEntry ε → Option SessionEnvelope
  | saved envelope (.ok _) => some envelope
  | _ => none

/-- The envelopes saved, in order. -/
def accepted (history : List (StoreEntry ε)) : List SessionEnvelope :=
  history.filterMap StoreEntry.accepted?

/-- The laws of a store along a run. -/
structure StoreLaws (J : SessionCodec) (wrap : SessionEnvelopeError → ε) (stored : Option ByteArray)
    (calls : List StoreCall) : Prop where
  returned : ∀ as₁ as₂, calls = as₁ ++ as₂ → ∀ envelope,
    (accepted (Machine.run (storeStep load save) stored as₁).2).getLast? = some envelope →
    load (Machine.run (storeStep load save) stored as₁).1 = .ok (some envelope)
  unchanged : ∀ as₁ envelope as₂, calls = as₁ ++ .save envelope :: as₂ → ∀ error,
    (save (Machine.run (storeStep load save) stored as₁).1 envelope).2 = .error error →
    (Machine.run (storeStep load save) stored (as₁ ++ [.save envelope])).1 =
      (Machine.run (storeStep load save) stored as₁).1
  monotone : (accepted (Machine.run (storeStep load save) stored calls).2).Pairwise fun old new =>
    old.envelopeGeneration ≤ new.envelopeGeneration
  floor : ∀ old, load stored = .ok (some old) →
    ∀ new ∈ accepted (Machine.run (storeStep load save) stored calls).2,
      old.envelopeGeneration ≤ new.envelopeGeneration
  next : ∀ as₁ as₂, calls = as₁ ++ as₂ → ∀ loaded,
    load (Machine.run (storeStep load save) stored as₁).1 = .ok (some loaded) →
    ∀ credentials envelope, loaded.regenerate J credentials = .ok envelope → ∀ attempted onDisk,
      (save (Machine.run (storeStep load save) stored as₁).1 envelope).2 ≠
        .error (wrap (.staleGeneration attempted onDisk))

/-- Every accepted envelope is within the recursion limit and below the last generation, and so is
the generation that is stored at the start. -/
structure WithinLimits (J : SessionCodec) (wrap : SessionEnvelopeError → ε)
    (stored : Option ByteArray) (calls : List StoreCall) : Prop where
  start : ∀ old, strictLoad J wrap stored = .ok (some old) → old.envelopeGeneration ≠ lastGeneration
  saves : ∀ as₁ envelope as₂, calls = as₁ ++ .save envelope :: as₂ → ∀ bytes,
    Accepts J wrap (Machine.run (storeStep load save) stored as₁).1 envelope bytes →
    envelope.nesting < recursionLimit ∧ envelope.envelopeGeneration ≠ lastGeneration

end

/-! ## The laws -/

section
variable {ε : Type} {J : SessionCodec} {wrap : SessionEnvelopeError → ε} {stored : Option ByteArray}
  {calls : List StoreCall}

/-- What is regenerated from the stored envelope, and refused as stale, is from the last
generation. -/
theorem not_stale_of_ne {loaded envelope : SessionEnvelope} (hwrap : Function.Injective wrap)
    (hload : strictLoad J wrap stored = .ok (some loaded))
    (hne : loaded.envelopeGeneration ≠ lastGeneration)
    {credentials : JsonValue} (hnew : loaded.regenerate J credentials = .ok envelope)
    (attempted onDisk : UInt64) :
    (strictSave J wrap stored envelope).2 ≠ .error (wrap (.staleGeneration attempted onDisk)) := by
  have hgen := (SessionEnvelope.valid_atGeneration hnew).2
  have hfilter : ((some loaded).filter fun onDisk =>
      decide (envelope.envelopeGeneration < onDisk.envelopeGeneration)) = none := by
    rw [Option.filter_eq_none_iff]
    intro found hmem
    rw [decide_eq_true_eq, ← Option.some.inj hmem, hgen]
    exact not_lt_succ_generation hne
  intro hstale
  unfold strictSave saveOver at hstale
  rw [hload] at hstale
  dsimp only at hstale
  rw [hfilter] at hstale
  dsimp only at hstale
  cases hvec : J.envelopeToVec envelope with
  | error summary =>
    rw [hvec] at hstale
    have := hwrap (Except.error.inj hstale)
    cases this
  | ok bytes =>
    rw [hvec] at hstale
    dsimp only at hstale
    split_ifs at hstale
    have := hwrap (Except.error.inj hstale)
    cases this

theorem stale_of_last {loaded : SessionEnvelope} (hJ : J.Lawful)
    (hload : strictLoad J wrap stored = .ok (some loaded))
    (hlast : loaded.envelopeGeneration = lastGeneration) :
    ∃ credentials envelope, loaded.regenerate J credentials = .ok envelope ∧ ∃ attempted onDisk,
      (strictSave J wrap stored envelope).2 =
      .error (wrap (.staleGeneration attempted onDisk)) := by
  obtain ⟨bytes, hbytes⟩ := hJ.value loaded.credentials
  obtain ⟨envelope, hnew⟩ : ∃ envelope, loaded.regenerate J loaded.credentials = .ok envelope := by
    unfold SessionEnvelope.regenerate SessionEnvelope.atGeneration canonicalDigest
    rw [hbytes]
    exact ⟨_, rfl⟩
  have hgen := (SessionEnvelope.valid_atGeneration hnew).2
  have hfilter : ((some loaded).filter fun onDisk =>
      decide (envelope.envelopeGeneration < onDisk.envelopeGeneration)) = some loaded := by
    rw [Option.filter_some, if_pos]
    rw [decide_eq_true_eq, hgen, hlast]
    exact succ_lastGeneration_lt
  refine ⟨loaded.credentials, envelope, hnew, envelope.envelopeGeneration,
    loaded.envelopeGeneration, ?_⟩
  unfold strictSave saveOver
  rw [hload]
  dsimp only
  rw [hfilter]

theorem accepted_append (history history' : List (StoreEntry ε)) :
    accepted (history ++ history') = accepted history ++ accepted history' := List.filterMap_append

/-- What holds after every run within the limits. -/
structure StoreInv (J : SessionCodec) (wrap : SessionEnvelopeError → ε)
    (start stored : Option ByteArray) (history : List (StoreEntry ε)) : Prop where
  empty : accepted history = [] → stored = start
  last : ∀ envelope, (accepted history).getLast? = some envelope →
    strictLoad J wrap stored = .ok (some envelope)
  monotone : (accepted history).Pairwise fun old new =>
    old.envelopeGeneration ≤ new.envelopeGeneration
  floor : ∀ old, strictLoad J wrap start = .ok (some old) → ∀ new ∈ accepted history,
    old.envelopeGeneration ≤ new.envelopeGeneration
  generation : ∀ envelope, strictLoad J wrap stored = .ok (some envelope) →
    envelope.envelopeGeneration ≠ lastGeneration

theorem StoreInv.step (hJ : J.Lawful) {start : Option ByteArray} {history : List (StoreEntry ε)}
    {call : StoreCall} (hvalid : ∀ envelope, call = .save envelope → envelope.Valid J)
    (hlimits : ∀ envelope bytes, call = .save envelope → Accepts J wrap stored envelope bytes →
      envelope.nesting < recursionLimit ∧ envelope.envelopeGeneration ≠ lastGeneration)
    (h : StoreInv J wrap start stored history) :
    StoreInv J wrap start (storeStep (strictLoad J wrap) (strictSave J wrap) stored call).1
      (history ++ (storeStep (strictLoad J wrap) (strictSave J wrap) stored call).2) := by
  cases call with
  | load =>
    have hacc :
      accepted (history ++ (storeStep (strictLoad J wrap) (strictSave J wrap) stored .load).2) =
        accepted history := by
      rw [accepted_append]
      exact List.append_nil _
    refine ⟨?_, ?_, ?_, ?_, h.generation⟩
    · rw [hacc]; exact h.empty
    · rw [hacc]; exact h.last
    · rw [hacc]; exact h.monotone
    · rw [hacc]; exact h.floor
  | save envelope =>
    rcases strictSave_cases J wrap stored envelope with ⟨bytes, haccepts⟩ | ⟨error, hrefused⟩
    · -- the envelope is stored, and is the newest
      obtain ⟨hshallow, hne⟩ := hlimits envelope bytes rfl haccepts
      have hsave := strictSave_of_accepts haccepts
      obtain ⟨found, hload, hfloor, hvec, hsize⟩ := haccepts
      have hread : strictLoad J wrap (some bytes) = .ok (some envelope) :=
        strictLoad_of_shallow hJ (hvalid envelope rfl) hvec hsize hshallow
      have hstep : storeStep (strictLoad J wrap) (strictSave J wrap) stored (.save envelope) =
          (some bytes, [.saved envelope (.ok ())]) := by
        show ((strictSave J wrap stored envelope).1, [StoreEntry.saved envelope _]) = _
        rw [hsave]
      rw [hstep]
      have hacc : accepted (history ++ [StoreEntry.saved envelope (.ok ())]) = accepted history ++
        [envelope] := by
        rw [accepted_append]
        rfl
      -- all that was accepted before is not newer
      have hold : ∀ old ∈ accepted history, old.envelopeGeneration ≤
        envelope.envelopeGeneration := by
        intro old hmem
        rcases List.eq_nil_or_concat (accepted history) with hnil | ⟨front, newest, hconcat⟩
        · rw [hnil] at hmem
          cases hmem
        · rw [List.concat_eq_append] at hconcat
          have hnewest := h.last newest (by rw [hconcat, List.getLast?_concat])
          rw [hload] at hnewest
          cases hnewest
          have hle := hfloor newest rfl
          have hpair := h.monotone
          rw [hconcat] at hpair hmem
          rcases List.mem_append.mp hmem with hfront | hlast
          · exact UInt64.le_trans ((List.pairwise_append.mp hpair).2.2 old hfront newest
              (by simp)) hle
          · rw [List.mem_singleton.mp hlast]
            exact hle
      refine ⟨?_, ?_, ?_, ?_, ?_⟩
      · rw [hacc]
        intro hnil
        simp at hnil
      · rw [hacc, List.getLast?_concat]
        rintro _ ⟨⟩
        exact hread
      · rw [hacc]
        refine List.pairwise_append.mpr ⟨h.monotone, List.pairwise_singleton _ _,
          fun old hmem new hnew => ?_⟩
        rw [List.mem_singleton.mp hnew]
        exact hold old hmem
      · rw [hacc]
        intro first hfirst new hnew
        rcases List.mem_append.mp hnew with hmem | hmem
        · exact h.floor first hfirst new hmem
        · rw [List.mem_singleton.mp hmem]
          rcases List.eq_nil_or_concat (accepted history) with hnil | ⟨front, newest, hconcat⟩
          · rw [h.empty hnil, hfirst] at hload
            cases hload
            exact hfloor first rfl
          · rw [List.concat_eq_append] at hconcat
            have hmem : newest ∈ accepted history := by rw [hconcat]; simp
            exact UInt64.le_trans (h.floor first hfirst newest hmem) (hold newest hmem)
      · intro read hreads
        rw [hread] at hreads
        cases hreads
        exact hne
    · have hstep : storeStep (strictLoad J wrap) (strictSave J wrap) stored (.save envelope) =
          (stored, [.saved envelope (.error error)]) := by
        show ((strictSave J wrap stored envelope).1, [StoreEntry.saved envelope _]) = _
        rw [hrefused]
      rw [hstep]
      have hacc : accepted (history ++ [StoreEntry.saved envelope (.error error)]) =
        accepted history := by
        rw [accepted_append]
        exact List.append_nil _
      refine ⟨?_, ?_, ?_, ?_, h.generation⟩
      · rw [hacc]; exact h.empty
      · rw [hacc]; exact h.last
      · rw [hacc]; exact h.monotone
      · rw [hacc]; exact h.floor

theorem storeInv_of_withinLimits (hJ : J.Lawful)
    (hvalid : ∀ envelope, .save envelope ∈ calls → envelope.Valid J)
    (h : WithinLimits (strictLoad J wrap) (strictSave J wrap) J wrap stored calls)
    (as₁ as₂ : List StoreCall) (hcalls : calls = as₁ ++ as₂) :
    StoreInv J wrap stored (Machine.run (storeStep (strictLoad J wrap) (strictSave J wrap))
      stored as₁).1
      (Machine.run (storeStep (strictLoad J wrap) (strictSave J wrap)) stored as₁).2 := by
  refine Machine.run_inv_of_steps
    (fun state call => (∀ envelope, call = .save envelope → envelope.Valid J) ∧
      ∀ envelope bytes, call = .save envelope → Accepts J wrap state envelope bytes →
        envelope.nesting < recursionLimit ∧ envelope.envelopeGeneration ≠ lastGeneration)
    (fun state history => StoreInv J wrap stored state history)
    (fun state history call hok hinv => hinv.step hJ hok.1 hok.2) stored ?_ as₁ ?_
  · exact ⟨fun _ => rfl, fun _ hlast => (by cases hlast), List.Pairwise.nil, fun _ _ _ hnew =>
      (by cases hnew), h.start⟩
  · rintro front call back heq
    have hsplit : calls = front ++ call :: (back ++ as₂) := by
      rw [hcalls, heq, List.append_assoc, List.cons_append]
    refine ⟨fun envelope hcall => hvalid envelope ?_, fun envelope bytes hcall haccepts => ?_⟩
    · rw [hsplit, ← hcall]
      simp
    · rw [hcall] at hsplit
      exact h.saves front envelope _ hsplit bytes haccepts

theorem storeLaws_iff (hJ : J.Lawful) (hwrap : Function.Injective wrap)
    (hvalid : ∀ envelope, .save envelope ∈ calls → envelope.Valid J) :
    StoreLaws (strictLoad J wrap) (strictSave J wrap) J wrap stored calls ↔
      WithinLimits (strictLoad J wrap) (strictSave J wrap) J wrap stored calls := by
  constructor
  · intro h
    have hnext : ∀ (as₁ as₂ : List StoreCall), calls = as₁ ++ as₂ → ∀ loaded,
        strictLoad J wrap (Machine.run (storeStep (strictLoad J wrap) (strictSave J wrap))
          stored as₁).1 =
          .ok (some loaded) → loaded.envelopeGeneration ≠ lastGeneration := by
      intro as₁ as₂ hcalls loaded hload hlast
      obtain ⟨credentials, envelope, hnew, attempted, onDisk, hstale⟩ :=
        stale_of_last hJ hload hlast
      exact h.next as₁ as₂ hcalls loaded hload credentials envelope hnew attempted onDisk hstale
    refine ⟨fun old hold => hnext [] calls rfl old hold,
      fun as₁ envelope as₂ hcalls bytes haccepts => ?_⟩
    -- the envelope is accepted, so it must be what is read
    have hsave := strictSave_of_accepts haccepts
    have hsplit : calls = (as₁ ++ [.save envelope]) ++ as₂ := by
      rw [hcalls, List.append_assoc, List.singleton_append]
    have hrun : Machine.run (storeStep (strictLoad J wrap) (strictSave J wrap)) stored
      (as₁ ++ [.save envelope]) =
        (some bytes,
         (Machine.run (storeStep (strictLoad J wrap) (strictSave J wrap)) stored as₁).2 ++
          [.saved envelope (.ok ())]) := by
      rw [Machine.run_snoc]
      show ((strictSave J wrap _ envelope).1,
        _ ++ [StoreEntry.saved envelope (strictSave J wrap _ envelope).2]) = _
      rw [hsave]
    have hread := h.returned _ as₂ hsplit envelope (by
      rw [hrun]
      dsimp only
      rw [accepted_append]
      exact List.getLast?_concat)
    refine ⟨not_le.mp fun hdeep => ?_, hnext _ as₂ hsplit envelope hread⟩
    obtain ⟨found, -, -, hvec, -⟩ := haccepts
    obtain ⟨error, herror⟩ : ∃ error, strictLoad J wrap (some bytes) = .error error :=
      strictLoad_of_deep hJ hvec hdeep
    rw [hrun] at hread
    dsimp only at hread
    rw [herror] at hread
    cases hread
  · intro h
    have hinv := storeInv_of_withinLimits hJ hvalid h
    refine ⟨fun as₁ as₂ hcalls envelope hlast => (hinv as₁ as₂ hcalls).last envelope hlast, ?_,
      (hinv calls [] (List.append_nil _).symm).monotone,
      (hinv calls [] (List.append_nil _).symm).floor, ?_⟩
    · intro as₁ envelope as₂ _ error hrefused
      rw [Machine.run_snoc]
      rcases strictSave_cases J wrap (Machine.run (storeStep (strictLoad J wrap)
        (strictSave J wrap)) stored as₁).1
        envelope with ⟨bytes, haccepts⟩ | ⟨error', hsame⟩
      · rw [strictSave_of_accepts haccepts] at hrefused
        cases hrefused
      · show (strictSave J wrap _ envelope).1 = _
        rw [hsame]
    · intro as₁ as₂ hcalls loaded hload credentials envelope hnew attempted onDisk
      exact not_stale_of_ne hwrap hload ((hinv as₁ as₂ hcalls).generation loaded hload)
        hnew attempted onDisk

end

theorem save_file (J : SessionCodec) : SessionEnvelopeStore.save J = strictSave J id := by
  funext stored envelope
  unfold SessionEnvelopeStore.save strictSave
  rw [load_file]

theorem save_keyring (J : SessionCodec) :
    KeyringSessionStore.save J = strictSave J WritableStoreError.envelope := by
  funext stored envelope
  unfold KeyringSessionStore.save strictSave
  rw [load_keyring]

/-- **The laws hold of a run of either store exactly within the limits.** -/
theorem session_store_laws_iff (J : SessionCodec) (hJ : J.Lawful) (stored : Option ByteArray)
    (calls : List StoreCall) (hobtained : ∀ envelope, .save envelope ∈ calls →
     SessionEnvelope.Obtained J envelope) :
    (StoreLaws (SessionEnvelopeStore.load J) (SessionEnvelopeStore.save J) J id stored calls ↔
      WithinLimits (SessionEnvelopeStore.load J) (SessionEnvelopeStore.save J) J id stored calls) ∧
    (StoreLaws (KeyringSessionStore.load J)
     (KeyringSessionStore.save J) J WritableStoreError.envelope stored calls ↔
      WithinLimits (KeyringSessionStore.load J)
      (KeyringSessionStore.save J) J WritableStoreError.envelope stored
        calls) := by
  have hvalid : ∀ envelope, .save envelope ∈ calls → envelope.Valid J :=
    fun envelope hmem => (hobtained envelope hmem).valid
  rw [save_file, save_keyring, show SessionEnvelopeStore.load J = strictLoad J id
    from funext (load_file J),
    show KeyringSessionStore.load J = strictLoad J WritableStoreError.envelope
      from funext (load_keyring J)]
  exact ⟨storeLaws_iff hJ Function.injective_id hvalid,
    storeLaws_iff hJ (fun a b h => WritableStoreError.envelope.inj h) hvalid⟩

/-! ## Concrete sessions -/

/-- `n + 1` arrays, one inside the other. -/
def nestedArrays : ℕ → JsonValue
  | 0 => .array []
  | n + 1 => .array [nestedArrays n]

/-- The value is `nestedArrays n`. -/
def isNestedArrays : ℕ → JsonValue → Bool
  | 0, .array [] => true
  | n + 1, .array [value] => isNestedArrays n value
  | _, _ => false

theorem isNestedArrays_eq {n : ℕ} {value : JsonValue} (h : isNestedArrays n value = true) :
    value = nestedArrays n := by
  fun_induction isNestedArrays n value with
  | case1 => rfl
  | case2 n value ih => rw [ih h, nestedArrays]
  | case3 => cases h

theorem isNestedArrays_self (n : ℕ) : isNestedArrays n (nestedArrays n) = true := by
  induction n with
  | zero => rfl
  | succ n ih => exact ih

theorem nesting_nestedArrays (n : ℕ) : (nestedArrays n).nesting = n + 1 := by
  induction n with
  | zero => rfl
  | succ n ih =>
    rw [nestedArrays, JsonValue.nesting, JsonValue.nestingItems, ih, JsonValue.nestingItems]
    simp

/-- Its compact text. -/
def arraysText (n : ℕ) :
    String := String.ofList (List.replicate (n + 1) '[' ++ List.replicate (n + 1) ']')

/-- The first envelope of these credentials, and its text. -/
def arraysEnvelope (n : ℕ) (digest : List UInt8) : SessionEnvelope :=
  ⟨sessionSchemaVersion, 1, String.join (digest.map digestByte), nestedArrays n⟩

def arraysDocument (n : ℕ) (digest : List UInt8) : String :=
  "\x7b\"schema_version\":1,\"envelope_generation\":1,\"source_digest\":\"" ++
    String.join (digest.map digestByte) ++ "\",\"credentials\":" ++ arraysText n ++ "\x7d"

/-- serde_json and SHA-256 on this envelope alone. -/
def arraysCodec (n : ℕ) (digest : List UInt8) : SessionCodec where
  envelopeToVec envelope :=
    if isNestedArrays n envelope.credentials && envelope.schemaVersion == sessionSchemaVersion &&
        envelope.envelopeGeneration == 1 &&
        envelope.sourceDigest == String.join (digest.map digestByte) then
      .ok (arraysDocument n digest).toUTF8
    else .error "data error at line 0 column 0"
  envelopeFromSlice bytes :=
    if bytes = (arraysDocument n digest).toUTF8 ∧ n + 2 < recursionLimit then
    .ok (arraysEnvelope n digest)
    else .error "syntax error at line 1 column 255"
  valueToVec _ := .ok (arraysText n).toUTF8
  sha256 _ := digest

theorem arraysCodec_toVec {n : ℕ} {digest : List UInt8} {envelope : SessionEnvelope}
    {bytes : ByteArray} (h : (arraysCodec n digest).envelopeToVec envelope = .ok bytes) :
    envelope = arraysEnvelope n digest ∧ bytes = (arraysDocument n digest).toUTF8 := by
  obtain ⟨schema, generation, sourceDigest, credentials⟩ := envelope
  unfold arraysCodec at h
  dsimp only at h
  split_ifs at h with heq
  simp only [Bool.and_eq_true, beq_iff_eq] at heq
  obtain ⟨⟨⟨hcredentials, rfl⟩, rfl⟩, rfl⟩ := heq
  rw [isNestedArrays_eq hcredentials]
  exact ⟨rfl, (Except.ok.inj h).symm⟩

theorem arraysCodec_lawful (n : ℕ) (digest : List UInt8) : (arraysCodec n digest).Lawful where
  value _ := ⟨_, rfl⟩
  shallow envelope bytes hvec hshallow := by
    obtain ⟨rfl, rfl⟩ := arraysCodec_toVec hvec
    have hlimit : n + 2 < recursionLimit := by
      have hnesting : (arraysEnvelope n digest).nesting = n + 2 :=
        congrArg (· + 1) (nesting_nestedArrays n)
      rwa [hnesting] at hshallow
    exact if_pos ⟨rfl, hlimit⟩
  deep envelope bytes hvec hdeep := by
    obtain ⟨rfl, rfl⟩ := arraysCodec_toVec hvec
    have hlimit : ¬ n + 2 < recursionLimit := by
      have hnesting : (arraysEnvelope n digest).nesting = n + 2 :=
        congrArg (· + 1) (nesting_nestedArrays n)
      rw [hnesting] at hdeep
      exact not_lt.mpr hdeep
    exact ⟨_, if_neg fun h => hlimit h.2⟩

theorem arraysEnvelope_obtained (n : ℕ) (digest : List UInt8) :
    SessionEnvelope.Obtained (arraysCodec n digest) (arraysEnvelope n digest) :=
  .new (show SessionEnvelope.new (arraysCodec n digest)
    (nestedArrays n) = .ok (arraysEnvelope n digest) from rfl)

/-- The SHA-256 of `[[]]`. -/
def shallowDigest : List UInt8 :=
  [207, 28, 187, 102, 166, 56, 180, 134, 10, 81, 102, 113, 251, 116, 133, 14, 108, 207,
   120, 127, 230,
    196, 200, 210, 158, 156, 4, 239, 232, 128, 189, 5]

/-- The SHA-256 of 127 arrays. -/
def deepDigest : List UInt8 :=
  [13, 12, 224, 8, 104, 104, 6, 206, 251, 35, 134, 175, 128, 187, 180, 149, 220, 130, 121, 218, 131,
    70, 106, 143, 192, 187, 37, 250, 169, 102, 1, 66]

theorem arrays_accepted {n : ℕ} {digest : List UInt8}
    (hsize : (arraysDocument n digest).utf8ByteSize ≤ maxSessionBytes)
    {ε : Type} (wrap : SessionEnvelopeError → ε) :
    Accepts (arraysCodec n digest) wrap none (arraysEnvelope n digest)
      (arraysDocument n digest).toUTF8 := by
  refine ⟨none, rfl, fun onDisk hmem => (by cases hmem), ?_, hsize⟩
  refine if_pos ?_
  simp only [Bool.and_eq_true, beq_iff_eq]
  exact ⟨⟨⟨isNestedArrays_self n, rfl⟩, rfl⟩, rfl⟩

/-- `[[]]` is saved and read. -/
theorem session_store_laws_arrays :
    (SessionEnvelopeStore.save (arraysCodec 1 shallowDigest) none
     (arraysEnvelope 1 shallowDigest)).2 = .ok () ∧
      StoreLaws (SessionEnvelopeStore.load (arraysCodec 1 shallowDigest))
        (SessionEnvelopeStore.save (arraysCodec 1 shallowDigest))
        (arraysCodec 1 shallowDigest) id none
        [.save (arraysEnvelope 1 shallowDigest), .load] := by
  have hlimits : WithinLimits (SessionEnvelopeStore.load (arraysCodec 1 shallowDigest))
      (SessionEnvelopeStore.save (arraysCodec 1 shallowDigest))
      (arraysCodec 1 shallowDigest) id none
      [.save (arraysEnvelope 1 shallowDigest), .load] := by
    refine ⟨fun old hold => (by cases hold), fun as₁ envelope as₂ _ bytes haccepts => ?_⟩
    obtain ⟨found, -, -, hvec, -⟩ := haccepts
    obtain ⟨rfl, -⟩ := arraysCodec_toVec hvec
    exact ⟨by decide, by decide⟩
  refine ⟨?_, (session_store_laws_iff (arraysCodec 1 shallowDigest)
    (arraysCodec_lawful 1 shallowDigest) none
    [.save (arraysEnvelope 1 shallowDigest), .load] fun envelope hmem => ?_).1.mpr hlimits⟩
  · rw [save_file, strictSave_of_accepts (arrays_accepted (by decide +kernel) id)]
  · obtain rfl : envelope = arraysEnvelope 1 shallowDigest := by simpa using hmem
    exact arraysEnvelope_obtained 1 shallowDigest

/-- Credentials beyond the recursion limit are saved, and neither read nor replaced. -/
theorem arrays_unreadable {n : ℕ} {digest : List UInt8} (hdeep : recursionLimit ≤ n + 2)
    (hsize : (arraysDocument n digest).utf8ByteSize ≤ maxSessionBytes) :
    ∃ stored, SessionEnvelope.Obtained (arraysCodec n digest) (arraysEnvelope n digest) ∧
      SessionEnvelopeStore.save (arraysCodec n digest) none (arraysEnvelope n digest) =
      (stored, .ok ()) ∧
      (∃ error, SessionEnvelopeStore.load (arraysCodec n digest) stored = .error error) ∧
      (∀ envelope, ∃ error, SessionEnvelopeStore.save (arraysCodec n digest) stored envelope =
        (stored, .error error)) ∧
      ¬ StoreLaws (SessionEnvelopeStore.load (arraysCodec n digest))
      (SessionEnvelopeStore.save (arraysCodec n digest))
        (arraysCodec n digest) id none [.save (arraysEnvelope n digest)] := by
  have haccepts := arrays_accepted hsize (id : SessionEnvelopeError → SessionEnvelopeError)
  have hsave : SessionEnvelopeStore.save (arraysCodec n digest) none (arraysEnvelope n digest) =
      (some (arraysDocument n digest).toUTF8, .ok ()) := by
    rw [save_file, strictSave_of_accepts haccepts]
  obtain ⟨found, -, -, hvec, -⟩ := haccepts
  have hnesting : recursionLimit ≤ (arraysEnvelope n digest).nesting :=
    hdeep.trans (congrArg (· + 1) (nesting_nestedArrays n)).ge
  obtain ⟨error, hload⟩ : ∃ error, SessionEnvelopeStore.load (arraysCodec n digest)
      (some (arraysDocument n digest).toUTF8) = .error error := by
    rw [load_file]
    exact strictLoad_of_deep (arraysCodec_lawful n digest) hvec hnesting
  refine ⟨some (arraysDocument n digest).toUTF8, arraysEnvelope_obtained n digest, hsave,
    ⟨error, hload⟩,
    fun envelope => ⟨error, ?_⟩, fun hlaws => ?_⟩
  · unfold SessionEnvelopeStore.save saveOver
    rw [hload]
  · have hrun : Machine.run (storeStep (SessionEnvelopeStore.load (arraysCodec n digest))
        (SessionEnvelopeStore.save (arraysCodec n digest))) none [.save (arraysEnvelope n digest)] =
        (some (arraysDocument n digest).toUTF8, [.saved (arraysEnvelope n digest) (.ok ())]) := by
      rw [Machine.run_cons, Machine.run_nil]
      show ((SessionEnvelopeStore.save _ none _).1,
        [StoreEntry.saved _ (SessionEnvelopeStore.save _ none _).2]) = _
      rw [hsave]
    have hread := hlaws.returned [.save (arraysEnvelope n digest)]
      [] rfl (arraysEnvelope n digest) (by
      rw [hrun]
      rfl)
    rw [hrun, hload] at hread
    cases hread

/-- **An accepted envelope that no load reads, and no save replaces**: 127 arrays in the
credentials. -/
theorem deep_session_unreadable :
    ∃ stored, SessionEnvelope.Obtained (arraysCodec 126 deepDigest)
      (arraysEnvelope 126 deepDigest) ∧
      SessionEnvelopeStore.save (arraysCodec 126 deepDigest) none (arraysEnvelope 126 deepDigest) =
      (stored, .ok ()) ∧
      (∃ error, SessionEnvelopeStore.load (arraysCodec 126 deepDigest) stored = .error error) ∧
      (∀ envelope, ∃ error, SessionEnvelopeStore.save (arraysCodec 126 deepDigest) stored envelope =
        (stored, .error error)) ∧
      ¬ StoreLaws (SessionEnvelopeStore.load (arraysCodec 126 deepDigest))
        (SessionEnvelopeStore.save (arraysCodec 126 deepDigest))
        (arraysCodec 126 deepDigest) id none
        [.save (arraysEnvelope 126 deepDigest)] :=
  arrays_unreadable (by decide) (by decide +kernel)

end ProtonWire
