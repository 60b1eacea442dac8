import ProtonWire.Ipc.Frame

/-!
# The frame reader does not lose its place

* `frames`: what is in a stream of bytes;
* `fill_spec`, `call_spec`: what a loop that fills a buffer, and a call, do to what is still to be
  read;
* `calls_frames`: the calls yield what is in the stream, and all of it once enough turns move bytes;
* **`frame_reader_in_step`**: so they yield the payloads that were framed, whatever interrupts them.
-/

namespace ProtonWire

namespace Frame

/-! ## Lengths -/

theorem length_toBeBytes (len : ℕ) : (toBeBytes len).length = 4 := rfl

theorem fromBeBytes_toBeBytes {len : ℕ} (h : len < 2 ^ 32) : fromBeBytes (toBeBytes len) = len := by
  unfold toBeBytes fromBeBytes
  simp only [List.foldl_cons, List.foldl_nil, Nat.toUInt8, UInt8.toNat_ofNat']
  omega

theorem toBeBytes_fromBeBytes {bytes : List UInt8} (h : bytes.length = 4) :
    toBeBytes (fromBeBytes bytes) = bytes := by
  match bytes, h with
  | [a, b, c, d], _ =>
    have ha := a.toNat_lt
    have hb := b.toNat_lt
    have hc := c.toNat_lt
    have hd := d.toNat_lt
    have hbyte : ∀ (n : ℕ) (byte : UInt8), n % 256 = byte.toNat → n.toUInt8 = byte :=
      fun n byte hn => by
      refine UInt8.toNat_inj.mp ?_
      rw [Nat.toUInt8, UInt8.toNat_ofNat']
      exact hn
    unfold toBeBytes fromBeBytes
    simp only [List.foldl_cons, List.foldl_nil]
    rw [hbyte _ a (by omega), hbyte _ b (by omega), hbyte _ c (by omega), hbyte _ d (by omega)]

/-! ## What is in a stream -/

/-- The frames of a stream, and how it ends. -/
def frames (stream : List UInt8) : List (Except FrameError (List UInt8)) :=
  if stream = [] then [.error .closed]
  else if h : stream.length < 4 then [.error .truncated]
  else if maxFrameLen < fromBeBytes (stream.take 4) then
  [.error (.tooLarge (fromBeBytes (stream.take 4)))]
  else if stream.length < 4 + fromBeBytes (stream.take 4) then [.error .truncated]
  else .ok ((stream.drop 4).take (fromBeBytes (stream.take 4))) ::
    frames (stream.drop (4 + fromBeBytes (stream.take 4)))
termination_by stream.length
decreasing_by
  rw [List.length_drop]
  omega

/-- The bytes of the current frame that have arrived. -/
def Stage.taken : Stage → List UInt8
  | lenPrefix got => got
  | payload len got => toBeBytes len ++ got

/-- Between two calls something of the current frame is missing. -/
def Stage.Formed : Stage → Prop
  | lenPrefix got => got.length < 4
  | payload len got => len ≤ maxFrameLen ∧ got.length < len

theorem new_formed : FrameReader.new.Formed := Nat.zero_lt_succ 3

theorem frames_nil : frames [] = [.error .closed] := by
  rw [frames]
  rfl

theorem frames_of_short {stream : List UInt8} (hne : stream ≠ []) (h : stream.length < 4) :
    frames stream = [.error .truncated] := by
  rw [frames, if_neg hne, dif_pos h]

theorem frames_of_tooLarge {got : List UInt8} (stream : List UInt8) (h : got.length = 4)
    (hlarge : maxFrameLen < fromBeBytes got) :
    frames (got ++ stream) = [.error (.tooLarge (fromBeBytes got))] := by
  have htake : (got ++ stream).take 4 = got := by rw [List.take_left' h]
  rw [frames, if_neg (by rintro heq; rw [List.append_eq_nil_iff] at heq; rw [heq.1] at h; cases h),
    dif_neg (by rw [List.length_append]; omega), htake, if_pos hlarge]

theorem ne_nil_of_toBeBytes (len : ℕ) (rest : List UInt8) : toBeBytes len ++ rest ≠ [] := by
  rw [ne_eq, List.append_eq_nil_iff]
  exact fun h => by cases h.1

theorem frames_of_len {len : ℕ} (hlen : len ≤ maxFrameLen) (rest : List UInt8) :
    frames (toBeBytes len ++ rest) =
      if rest.length < len then [.error .truncated]
      else .ok (rest.take len) :: frames (rest.drop len) := by
  have hfrom : fromBeBytes ((toBeBytes len ++ rest).take 4) = len := by
    rw [List.take_left' (length_toBeBytes len)]
    exact fromBeBytes_toBeBytes (lt_of_le_of_lt hlen (by decide))
  have hlength : (toBeBytes len ++ rest).length = 4 + rest.length := by
    rw [List.length_append, length_toBeBytes]
  rw [frames, if_neg (ne_nil_of_toBeBytes len rest), dif_neg (by omega), hfrom,
    if_neg (not_lt.mpr hlen), hlength,
    List.drop_left' (length_toBeBytes len)]
  have hdrop : (toBeBytes len ++ rest).drop (4 + len) = rest.drop len := by
    rw [List.drop_append, length_toBeBytes, Nat.add_sub_cancel_left, List.drop_eq_nil_of_le (by
      rw [length_toBeBytes]; omega), List.nil_append]
  rw [hdrop]
  by_cases hshort : rest.length < len
  · rw [if_pos (by omega), if_pos hshort]
  · rw [if_neg (by omega), if_neg hshort]

/-! ## Filling a buffer -/

/-- The turn moves a byte, under any of the deadlines. -/
def Turn.moves (deadlines : List (Option ℕ)) (turn : Turn) : Bool :=
  (match turn.read with
    | .deliver _ => true
    | .fail _ => false) && deadlines.all fun deadline => !deadline.any (· ≤ turn.now)

/-- What a loop leaves that has `got` of the `want` bytes. -/
structure Fills (want : ℕ) (atBoundary : Bool) (deadlines : List (Option ℕ))
    (got stream : List UInt8) (turns : List Turn) (filled : Filled) : Prop where
  bytes : filled.got ++ filled.wire.stream = got ++ stream
  le : got.length ≤ filled.got.length
  spent : filled.wire.turns.length ≤ turns.length
  waits : filled.outcome = none → filled.got.length < want ∧ filled.wire.turns = []
  completes : filled.outcome = some (.ok ()) → filled.got.length = want ∧
    (got.length < want → filled.wire.turns.length < turns.length)
  fails : ∀ error, filled.outcome = some (.error error) →
    filled.got.length < want ∧ filled.wire.turns.length < turns.length ∧
      ((∃ kind, error = .io kind) ∨ filled.wire.stream = [] ∧
        error = if atBoundary && filled.got.length = 0 then .closed else .truncated)
  moves : (∀ error, filled.outcome = some (.error error) → ∃ kind, error = .io kind) →
    turns.countP (Turn.moves deadlines) + filled.wire.stream.length ≤
      filled.wire.turns.countP (Turn.moves deadlines) + stream.length

theorem moves_of_expired {deadline : Option ℕ} {deadlines : List (Option ℕ)}
    (hmem : deadline ∈ deadlines) {turn : Turn}
    (h : deadline.any (· ≤ turn.now) = true) : turn.moves deadlines = false := by
  unfold Turn.moves
  rw [Bool.and_eq_false_iff]
  refine .inr (Bool.eq_false_iff.mpr fun hall => ?_)
  have := List.all_eq_true.mp hall deadline hmem
  rw [h] at this
  cases this

theorem moves_of_fail (deadlines : List (Option ℕ)) {turn : Turn} {kind : ErrorKind}
    (h : turn.read = .fail kind) :
    turn.moves deadlines = false := by
  unfold Turn.moves
  rw [h]
  rfl

theorem countP_cons_of_not_moves {deadlines : List (Option ℕ)} {turn : Turn}
    (h : turn.moves deadlines = false) (turns : List Turn) :
    (turn :: turns).countP (Turn.moves deadlines) = turns.countP (Turn.moves deadlines) :=
  List.countP_cons_of_neg (by simp [h])

/-- **What a loop that fills a buffer does.** -/
theorem fill_spec {want : ℕ} {deadline : Option ℕ} {deadlines : List (Option ℕ)}
    (hmem : deadline ∈ deadlines)
    (atBoundary : Bool) (turns : List Turn) (got stream : List UInt8) (hgot : got.length ≤ want) :
    Fills want atBoundary deadlines got stream turns
      (fill want deadline atBoundary stream got turns) := by
  induction turns generalizing got stream with
  | nil =>
    rw [fill]
    by_cases hlt : got.length < want
    · rw [if_pos hlt]
      exact ⟨rfl, le_rfl, le_rfl, fun _ => ⟨hlt, rfl⟩, nofun, nofun, fun _ => le_rfl⟩
    · rw [if_neg hlt]
      exact ⟨rfl, le_rfl, le_rfl, nofun,
        fun _ => ⟨le_antisymm hgot (not_lt.mp hlt), fun h => absurd h hlt⟩, nofun, fun _ => le_rfl⟩
  | cons turn turns ih =>
    have hfails : ∀ kind, got.length < want → turn.moves deadlines = false →
        Fills want atBoundary deadlines got stream (turn :: turns)
          ⟨some (.error (.io kind)), got, ⟨stream, turns⟩⟩ := fun kind hlt hmoves =>
      ⟨rfl, le_rfl, Nat.le_succ _, nofun, nofun, fun error heq =>
       ⟨hlt, Nat.lt_succ_self _, .inl ⟨kind, by
        cases heq
        rfl⟩⟩, fun _ => (congrArg (· + stream.length) (countP_cons_of_not_moves hmoves turns)).le⟩
    rw [fill]
    by_cases hlt : got.length < want
    · rw [if_pos hlt]
      by_cases hexpired : deadline.any (· ≤ turn.now) = true
      · rw [if_pos hexpired]
        exact hfails .timedOut hlt (moves_of_expired hmem hexpired)
      · rw [if_neg hexpired]
        cases hread : turn.read with
        | deliver n =>
          dsimp only
          by_cases hend : stream = []
          · rw [if_pos hend]
            refine ⟨rfl, le_rfl, Nat.le_succ _, nofun, nofun, fun error heq =>
              ⟨hlt, Nat.lt_succ_self _, .inr ⟨hend, ?_⟩⟩,
              fun hio => ?_⟩
            · cases heq
              rfl
            · obtain ⟨kind, hkind⟩ := hio _ rfl
              split_ifs at hkind
          · rw [if_neg hend]
            -- at least one byte moves
            have hpos : 0 < stream.length := List.length_pos_iff.mpr hend
            have hmoved : (stream.take (min (n + 1) (want - got.length))).length +
                (stream.drop (min (n + 1) (want - got.length))).length = stream.length := by
              rw [List.length_take, List.length_drop]
              omega
            have hone : 1 ≤ (stream.take (min (n + 1) (want - got.length))).length := by
              rw [List.length_take]
              omega
            have hfits : (got ++ stream.take (min (n + 1) (want - got.length))).length ≤ want := by
              rw [List.length_append, List.length_take]
              omega
            obtain ⟨hbytes, hle, hspent, hwaits, hcompletes, hfailed, hmoves⟩ := ih _ _ hfits
            refine ⟨?_, ?_, Nat.le_succ_of_le hspent, hwaits,
              fun heq => ⟨(hcompletes heq).1, fun _ =>
              Nat.lt_succ_of_le hspent⟩, fun error heq => ?_, fun hio => ?_⟩
            · rw [hbytes, List.append_assoc, List.take_append_drop]
            · rw [List.length_append] at hle
              omega
            · obtain ⟨hshort, hless, hreason⟩ := hfailed error heq
              exact ⟨hshort, Nat.lt_succ_of_lt hless, hreason⟩
            · have hcount := hmoves hio
              have hstep : (turn :: turns).countP (Turn.moves deadlines) ≤
                turns.countP (Turn.moves deadlines) + 1 := by
                rw [List.countP_cons]
                split_ifs <;> omega
              omega
        | fail kind =>
          have hmoves := moves_of_fail deadlines hread
          cases kind with
          | interrupted =>
            obtain ⟨hbytes, hle, hspent, hwaits, hcompletes, hfailed, hcount⟩ := ih got stream hgot
            refine ⟨hbytes, hle, Nat.le_succ_of_le hspent, hwaits,
              fun heq => ⟨(hcompletes heq).1, fun _ =>
              Nat.lt_succ_of_le hspent⟩, fun error heq => ?_, fun hio => ?_⟩
            · obtain ⟨hshort, hless, hreason⟩ := hfailed error heq
              exact ⟨hshort, Nat.lt_succ_of_lt hless, hreason⟩
            · rw [countP_cons_of_not_moves hmoves]
              exact hcount hio
          | _ => exact hfails _ hlt hmoves
    · rw [if_neg hlt]
      exact ⟨rfl, le_rfl, le_rfl, nofun,
        fun _ => ⟨le_antisymm hgot (not_lt.mp hlt), fun h => absurd h hlt⟩, nofun, fun _ => le_rfl⟩

/-! ## A call -/

/-- What a call leaves of a stream whose current frame has begun with `taken`. -/
structure Reads (deadlines : List (Option ℕ)) (taken : List UInt8) (wire : Wire) (call : Call) :
    Prop where
  waits : call.result = none → call.wire.turns = []
  resumes : call.result = none ∨ (∃ kind, call.result = some (.error (.io kind))) →
    call.stage.Formed ∧ call.stage.taken ++ call.wire.stream = taken ++ wire.stream
  yields : ∀ payload, call.result = some (.ok payload) →
    call.stage = FrameReader.new ∧ frames (taken ++ wire.stream) =
    .ok payload :: frames call.wire.stream
  ends : ∀ error, call.result = some (.error error) → (∀ kind, error ≠ .io kind) →
    frames (taken ++ wire.stream) = [.error error]
  tooLarge : ∀ len, call.result = some (.error (.tooLarge len)) →
    ∃ bytes : List UInt8, bytes.length = 4 ∧ taken ++ wire.stream = bytes ++ call.wire.stream
  spent : call.wire.turns.length ≤ wire.turns.length
  moves : (∀ error, call.result = some (.error error) → ∃ kind, error = .io kind) →
    wire.turns.countP (Turn.moves deadlines) + call.wire.stream.length ≤
      call.wire.turns.countP (Turn.moves deadlines) + wire.stream.length

section
variable {deadline : Option ℕ} {deadlines : List (Option ℕ)}

theorem readPayload_spec (hmem : deadline ∈ deadlines) {len : ℕ} (hlen : len ≤ maxFrameLen)
    (got : List UInt8) (hgot : got.length ≤ len) (wire : Wire) :
    Reads deadlines (toBeBytes len ++ got) wire (FrameReader.readPayload len got deadline wire) ∧
      (got.length < len → (FrameReader.readPayload len got deadline wire).result ≠ none →
        (FrameReader.readPayload len got deadline wire).wire.turns.length < wire.turns.length) := by
  have hfill := fill_spec hmem false wire.turns got wire.stream hgot
  unfold FrameReader.readPayload
  generalize fill len deadline false wire.stream got wire.turns = filled at hfill
  obtain ⟨hbytes, hle, hspent, hwaits, hcompletes, hfails, hmoves⟩ := hfill
  have htaken : toBeBytes len ++ filled.got ++ filled.wire.stream = toBeBytes len ++ got ++
    wire.stream := by
    rw [List.append_assoc, hbytes, List.append_assoc]
  dsimp only
  cases hout : filled.outcome with
  | none =>
    obtain ⟨hshort, hnil⟩ := hwaits hout
    exact ⟨⟨fun _ => hnil, fun _ => ⟨⟨hlen, hshort⟩, htaken⟩, nofun, nofun, nofun, hspent,
      fun _ => hmoves (fun error heq => by cases hout.symm.trans heq)⟩, fun _ hne => absurd rfl hne⟩
  | some outcome =>
    cases outcome with
    | ok _ =>
      obtain ⟨hfull, hless⟩ := hcompletes hout
      refine ⟨⟨nofun, fun h => ?_, fun payload heq => ?_, nofun, nofun, hspent,
        fun _ => hmoves (fun error heq => by cases hout.symm.trans heq)⟩, fun hlt _ => hless hlt⟩
      · rcases h with h | ⟨kind, h⟩ <;> cases h
      · cases heq
        refine ⟨rfl, ?_⟩
        rw [← htaken, List.append_assoc, frames_of_len hlen,
          if_neg (by rw [List.length_append]; omega),
          List.take_left' hfull, List.drop_left' hfull]
    | error error =>
      obtain ⟨hshort, hless, hreason⟩ := hfails error hout
      refine ⟨⟨nofun, fun _ => ⟨⟨hlen, hshort⟩, htaken⟩, nofun, fun error' heq hne => ?_,
        fun len' heq => ?_, hspent,
        fun hio => hmoves fun error' heq => ?_⟩, fun _ _ => hless⟩
      · cases heq
        rcases hreason with ⟨kind, rfl⟩ | ⟨hend, rfl⟩
        · exact absurd rfl (hne kind)
        · rw [← htaken, hend, List.append_nil, frames_of_len hlen, if_pos hshort]
          rfl
      · cases heq
        rcases hreason with ⟨kind, hkind⟩ | ⟨-, hkind⟩
        · cases hkind
        · cases hkind
      · cases hout.symm.trans heq
        exact hio _ rfl

/-- **What a call does.** -/
theorem call_spec (hmem : deadline ∈ deadlines) {stage : Stage} (hstage : stage.Formed)
    (wire : Wire) :
    Reads deadlines stage.taken wire (FrameReader.readFrameDeadline deadline stage wire) ∧
      ((FrameReader.readFrameDeadline deadline stage wire).result ≠ none →
        (FrameReader.readFrameDeadline deadline stage wire).wire.turns.length <
        wire.turns.length) := by
  cases stage with
  | payload len got =>
    obtain ⟨hreads, hspends⟩ := readPayload_spec hmem hstage.1 got hstage.2.le wire
    exact ⟨hreads, hspends hstage.2⟩
  | lenPrefix got =>
    have hshort : got.length < 4 := hstage
    have hfill := fill_spec hmem (got.length = 0) wire.turns got wire.stream hshort.le
    unfold FrameReader.readFrameDeadline
    dsimp only [Stage.taken]
    generalize fill 4 deadline (got.length = 0) wire.stream got wire.turns = filled at hfill
    obtain ⟨hbytes, hle, hspent, hwaits, hcompletes, hfails, hmoves⟩ := hfill
    cases hout : filled.outcome with
    | none =>
      obtain ⟨hshort', hnil⟩ := hwaits hout
      exact ⟨⟨fun _ => hnil, fun _ => ⟨hshort', hbytes⟩, nofun, nofun, nofun, hspent,
        fun _ => hmoves (fun error heq => by cases hout.symm.trans heq)⟩, fun hne => absurd rfl hne⟩
    | some outcome =>
      cases outcome with
      | error error =>
        obtain ⟨hshort', hless, hreason⟩ := hfails error hout
        refine ⟨⟨nofun, fun _ => ⟨hshort', hbytes⟩, nofun, fun error' heq hne => ?_, fun len' heq =>
          ?_, hspent,
          fun hio => hmoves fun error' heq => ?_⟩, fun _ => hless⟩
        · cases heq
          rcases hreason with ⟨kind, rfl⟩ | ⟨hend, rfl⟩
          · exact absurd rfl (hne kind)
          · rw [hend, List.append_nil] at hbytes
            rw [← hbytes]
            by_cases hnone : filled.got = []
            · -- nothing of the frame has arrived, in this call or before
              have hgot : got.length = 0 := by
                rw [hnone] at hle
                exact Nat.le_zero.mp hle
              rw [hnone, hgot, frames_nil]
              rfl
            · have hpos : ¬ filled.got.length = 0 := fun h => hnone (List.length_eq_zero_iff.mp h)
              rw [frames_of_short hnone hshort', decide_eq_false hpos, Bool.and_false]
              rfl
        · cases heq
          rcases hreason with ⟨kind, hkind⟩ | ⟨-, hkind⟩
          · cases hkind
          · split_ifs at hkind
        · cases hout.symm.trans heq
          exact hio _ rfl
      | ok _ =>
        obtain ⟨hfull, hless⟩ := hcompletes hout
        dsimp only
        have hcount := hmoves (fun error heq => by cases hout.symm.trans heq)
        by_cases hlarge : maxFrameLen < fromBeBytes filled.got
        · rw [if_pos hlarge]
          refine ⟨⟨nofun, fun h => ?_, nofun, fun error heq _ => ?_, fun len heq =>
            ⟨filled.got, hfull, hbytes.symm⟩, hspent,
            fun _ => hcount⟩, fun _ => hless hshort⟩
          · rcases h with h | ⟨kind, h⟩ <;> cases h
          · cases heq
            rw [← hbytes]
            exact frames_of_tooLarge _ hfull hlarge
        · rw [if_neg hlarge]
          -- the length is in, and the payload follows
          have hlen := toBeBytes_fromBeBytes hfull
          have hreads := (readPayload_spec hmem (not_lt.mp hlarge) [] (Nat.zero_le _) filled.wire).1
          rw [List.append_nil, hlen] at hreads
          generalize FrameReader.readPayload (fromBeBytes filled.got)
            [] deadline filled.wire = call at hreads
          obtain ⟨hwaits', hresumes, hyields, hends, htooLarge, hspent', hmoves'⟩ := hreads
          rw [hbytes] at hresumes hyields hends htooLarge
          exact ⟨⟨hwaits', hresumes, hyields, hends, htooLarge, hspent'.trans hspent,
            fun hio => by
            have := hmoves' hio; omega⟩, fun _ => lt_of_le_of_lt hspent' (hless hshort)⟩

end

/-! ## One call after the other -/

/-- The results that are no timed-out poll. -/
def settled (results : List (Except FrameError (List UInt8))) :
    List (Except FrameError (List UInt8)) :=
  results.filter fun result => !FrameReader.retries result

/-- **The calls yield what is in the stream**, in order; all of it, once enough turns move bytes;
and they take nothing behind a length that is too large. -/
theorem calls_frames {all : List (Option ℕ)} (deadlines : List (Option ℕ))
    (hall : ∀ deadline ∈ deadlines, deadline ∈ all)
    {stage : Stage} (hstage : stage.Formed) (wire : Wire) :
    settled (FrameReader.calls deadlines stage wire).1 <+: frames (stage.taken ++ wire.stream) ∧
      (wire.turns.length < deadlines.length →
       wire.stream.length < wire.turns.countP (Turn.moves all) →
        settled (FrameReader.calls deadlines stage wire).1 =
        frames (stage.taken ++ wire.stream)) := by
  induction deadlines generalizing stage wire with
  | nil => exact ⟨List.nil_prefix, fun h => absurd h (Nat.not_lt_zero _)⟩
  | cons deadline deadlines ih =>
    obtain ⟨hreads, hspends⟩ := call_spec (hall deadline List.mem_cons_self) hstage wire
    obtain ⟨hwaits, hresumes, hyields, hends, -, -, hmoves⟩ := hreads
    have hih := fun {stage : Stage} (hstage : stage.Formed) wire =>
      ih (fun deadline h => hall deadline (List.mem_cons_of_mem _ h)) hstage wire
    unfold FrameReader.calls
    dsimp only
    generalize FrameReader.readFrameDeadline deadline stage wire = call at *
    have hbudget : ∀ {a b c d e f : ℕ}, a < e + 1 → b < c → c + d ≤ f + b →
      call.wire.turns.length < a →
        call.wire.turns.length < e ∧ d < f := by omega
    cases hresult : call.result with
    | none =>
      refine ⟨List.nil_prefix, fun _ henough => ?_⟩
      have hcount := hmoves (fun error heq => by cases hresult.symm.trans heq)
      rw [hwaits hresult, List.countP_nil] at hcount
      omega
    | some result =>
      have hless := hspends (by rw [hresult]; nofun)
      cases result with
      | ok payload =>
        obtain ⟨hnew, hframes⟩ := hyields payload hresult
        have hcount := hmoves (fun error heq => by cases hresult.symm.trans heq)
        obtain ⟨hpre, hall'⟩ := hih new_formed call.wire
        rw [hnew, hframes]
        refine ⟨(List.prefix_cons_inj _).mpr hpre, fun hcalls henough => congrArg (_ :: ·) ?_⟩
        obtain ⟨hcalls', henough'⟩ := hbudget hcalls henough hcount hless
        exact hall' hcalls' henough'
      | error error =>
        by_cases hio : ∃ kind, error = .io kind
        · obtain ⟨kind, rfl⟩ := hio
          obtain ⟨hformed, hsame⟩ := hresumes (.inr ⟨kind, hresult⟩)
          have hcount :=
            hmoves (fun error heq => by cases hresult.symm.trans heq; exact ⟨kind, rfl⟩)
          obtain ⟨hpre, hall'⟩ := hih hformed call.wire
          rw [← hsame]
          refine ⟨hpre, fun hcalls henough => ?_⟩
          obtain ⟨hcalls', henough'⟩ := hbudget hcalls henough hcount hless
          exact hall' hcalls' henough'
        · have hone := hends error hresult (fun kind heq => hio ⟨kind, heq⟩)
          have hstops : FrameReader.goesOn (.error error) = false ∧
            FrameReader.retries (.error error) = false := by
            cases error with
            | io kind => exact absurd ⟨kind, rfl⟩ hio
            | _ => exact ⟨rfl, rfl⟩
          have hsettled : settled [.error error] = [.error error] := by
            unfold settled
            rw [List.filter_cons_of_pos (by rw [hstops.2]; rfl), List.filter_nil]
          dsimp only
          rw [hstops.1, hone, if_neg Bool.false_ne_true]
          dsimp only
          rw [hsettled]
          exact ⟨List.prefix_rfl, fun _ _ => rfl⟩

theorem suffix_of_taken {stage : Stage} (hstage : stage.Formed) {stream bytes rest : List UInt8}
    (hbytes : bytes.length = 4)
    (hlarge : maxFrameLen < fromBeBytes bytes) (hstream : stage.taken ++ stream = bytes ++ rest) :
    rest <:+ stream := by
  cases stage with
  | lenPrefix got =>
    have hshort : got.length < 4 := hstage
    have hdrop := congrArg (List.drop 4) hstream
    rw [List.drop_left' hbytes, Stage.taken, List.drop_append, List.drop_eq_nil_of_le hshort.le,
      List.nil_append] at hdrop
    rw [← hdrop]
    exact List.drop_suffix _ _
  | payload len got =>
    have htake := congrArg (List.take 4) hstream
    rw [List.take_left' hbytes, Stage.taken, List.append_assoc,
      List.take_left' (length_toBeBytes len)] at htake
    rw [← htake, fromBeBytes_toBeBytes (lt_of_le_of_lt hstage.1 (by decide))] at hlarge
    exact absurd hstage.1 (not_le.mpr hlarge)

/-- **The bytes behind a length that is too large are not taken.** -/
theorem calls_tooLarge (deadlines : List (Option ℕ)) {stage : Stage} (hstage : stage.Formed)
    (wire : Wire)
    {bytes rest : List UInt8} (hbytes : bytes.length = 4) (hlarge : maxFrameLen < fromBeBytes bytes)
    (hstream : stage.taken ++ wire.stream = bytes ++ rest) :
    rest <:+ (FrameReader.calls deadlines stage wire).2.stream := by
  induction deadlines generalizing stage wire with
  | nil => exact suffix_of_taken hstage hbytes hlarge hstream
  | cons deadline deadlines ih =>
    obtain ⟨-, hresumes, hyields, hends, htooLarge, -, -⟩ :=
      (call_spec (List.mem_singleton_self deadline) hstage wire).1
    have hframes := frames_of_tooLarge rest hbytes hlarge
    rw [hstream] at hresumes hyields hends htooLarge
    rw [hframes] at hyields hends
    unfold FrameReader.calls
    dsimp only
    generalize FrameReader.readFrameDeadline deadline stage wire = call at *
    cases hresult : call.result with
    | none =>
      obtain ⟨hformed, hsame⟩ := hresumes (.inl hresult)
      exact suffix_of_taken hformed hbytes hlarge hsame
    | some result =>
      cases result with
      | ok payload => cases (hyields payload hresult).2
      | error error =>
        by_cases hio : ∃ kind, error = .io kind
        · obtain ⟨kind, rfl⟩ := hio
          obtain ⟨hformed, hsame⟩ := hresumes (.inr ⟨kind, hresult⟩)
          exact ih hformed call.wire hsame
        · cases hends error hresult (fun kind heq => hio ⟨kind, heq⟩)
          obtain ⟨bytes', hbytes', heq⟩ := htooLarge _ hresult
          have hrest : rest = call.wire.stream :=
            (List.append_inj heq (hbytes.trans hbytes'.symm)).2
          exact hrest ▸ List.suffix_rfl

/-! ## The blocking reader -/

theorem readExactOrTruncated_eq (want : ℕ) (atBoundary : Bool) (turns : List Turn)
    (got stream : List UInt8) :
    readExactOrTruncated want atBoundary stream got turns =
    fill want none atBoundary stream got turns := by
  induction turns generalizing got stream with
  | nil => rfl
  | cons turn turns ih =>
    rw [readExactOrTruncated, fill]
    cases turn.read with
    | deliver n => simp only [ih, Option.any_none, Bool.false_eq_true, if_false]
    | fail kind =>
      cases kind with
      | interrupted => simp only [ih, Option.any_none, Bool.false_eq_true, if_false]
      | _ => rfl

theorem readFrame_eq (wire : Wire) :
    readFrame wire = ((FrameReader.readFrameDeadline none FrameReader.new wire).result,
      (FrameReader.readFrameDeadline none FrameReader.new wire).wire) := by
  unfold readFrame FrameReader.readFrameDeadline FrameReader.new FrameReader.readPayload
  simp only [readExactOrTruncated_eq, List.length_nil, decide_true]
  cases (fill 4 none true wire.stream [] wire.turns).outcome with
  | none => rfl
  | some outcome =>
    cases outcome with
    | error error => rfl
    | ok _ =>
      dsimp only
      split_ifs with hlarge
      · rfl
      · generalize fill _ none false _ [] _ = payload
        obtain ⟨outcome, got, wire'⟩ := payload
        cases outcome with
        | none => rfl
        | some outcome => cases outcome <;> rfl

/-- The reads of a blocking socket: only interruptions fail. -/
def Wire.Blocking (wire : Wire) : Prop := ∀ turn ∈ wire.turns, ∀ kind, turn.read = .fail kind →
    kind = .interrupted

theorem fill_blocking (want : ℕ) (atBoundary : Bool) (turns : List Turn) (got stream : List UInt8)
    (h : ∀ turn ∈ turns, ∀ kind, turn.read = .fail kind → kind = .interrupted) :
    (∀ kind, (fill want none atBoundary stream got turns).outcome ≠ some (.error (.io kind))) ∧
      (fill want none atBoundary stream got turns).wire.turns <:+ turns := by
  induction turns generalizing got stream with
  | nil =>
    rw [fill]
    refine ⟨fun kind heq => ?_, List.suffix_rfl⟩
    dsimp only at heq
    split_ifs at heq
    cases heq
  | cons turn turns ih =>
    have hrest := fun got stream => ih got stream fun turn hmem =>
      h turn (List.mem_cons_of_mem _ hmem)
    have hsuffix : turns <:+ turn :: turns := List.suffix_cons turn turns
    rw [fill]
    by_cases hlt : got.length < want
    · rw [if_pos hlt, Option.any_none, if_neg Bool.false_ne_true]
      cases hread : turn.read with
      | deliver n =>
        dsimp only
        by_cases hend : stream = []
        · rw [if_pos hend]
          refine ⟨fun kind heq => ?_, hsuffix⟩
          split_ifs at heq <;> cases heq
        · rw [if_neg hend]
          exact ⟨(hrest _ _).1, (hrest _ _).2.trans hsuffix⟩
      | fail kind =>
        cases h turn List.mem_cons_self kind hread
        exact ⟨(hrest _ _).1, (hrest _ _).2.trans hsuffix⟩
    · rw [if_neg hlt]
      exact ⟨nofun, List.suffix_rfl⟩

theorem readPayload_blocking (len : ℕ) (got : List UInt8) {wire : Wire} (h : wire.Blocking) :
    (∀ kind, (FrameReader.readPayload len got none wire).result ≠ some (.error (.io kind))) ∧
      (FrameReader.readPayload len got none wire).wire.Blocking := by
  obtain ⟨hnone, hsuffix⟩ := fill_blocking len false wire.turns got wire.stream h
  have hblocking : (fill len none false wire.stream got wire.turns).wire.Blocking :=
    fun turn hmem =>
    h turn (hsuffix.mem hmem)
  unfold FrameReader.readPayload
  generalize fill len none false wire.stream got wire.turns = filled at *
  obtain ⟨outcome, got', wire'⟩ := filled
  cases outcome with
  | none => exact ⟨nofun, hblocking⟩
  | some outcome =>
    cases outcome with
    | ok _ => exact ⟨nofun, hblocking⟩
    | error error => exact ⟨fun kind heq => hnone kind (by cases heq; rfl), hblocking⟩

theorem readFrame_blocking {wire : Wire} (h : wire.Blocking) :
    (∀ kind, (FrameReader.readFrameDeadline none FrameReader.new wire).result ≠
     some (.error (.io kind))) ∧
      (FrameReader.readFrameDeadline none FrameReader.new wire).wire.Blocking := by
  unfold FrameReader.readFrameDeadline FrameReader.new
  dsimp only
  obtain ⟨hnone, hsuffix⟩ := fill_blocking 4 (decide (([] : List UInt8).length = 0)) wire.turns
    [] wire.stream h
  have hblocking : (fill 4 none (decide (([] : List UInt8).length = 0)) wire.stream
    [] wire.turns).wire.Blocking :=
    fun turn hmem => h turn (hsuffix.mem hmem)
  generalize fill 4 none (decide (([] : List UInt8).length = 0)) wire.stream [] wire.turns =
    filled at *
  obtain ⟨outcome, got', wire'⟩ := filled
  cases outcome with
  | none => exact ⟨nofun, hblocking⟩
  | some outcome =>
    cases outcome with
    | error error => exact ⟨fun kind heq => hnone kind (by cases heq; rfl), hblocking⟩
    | ok _ =>
      dsimp only
      by_cases hlarge : maxFrameLen < fromBeBytes got'
      · rw [if_pos hlarge]
        exact ⟨nofun, hblocking⟩
      · rw [if_neg hlarge]
        exact readPayload_blocking _ _ hblocking

/-- **On a blocking socket the two readers agree**, call by call. -/
theorem readFrames_eq (n : ℕ) {wire : Wire} (h : wire.Blocking) :
    readFrames n wire = (FrameReader.calls (List.replicate n none) FrameReader.new wire).1 := by
  induction n generalizing wire with
  | zero => rfl
  | succ n ih =>
    obtain ⟨hnone, hblocking⟩ := readFrame_blocking h
    obtain ⟨-, -, hyields, -, -, -, -⟩ :=
      (call_spec (List.mem_singleton_self none) new_formed wire).1
    rw [List.replicate_succ, readFrames, FrameReader.calls, readFrame_eq]
    generalize FrameReader.readFrameDeadline none FrameReader.new wire = call at *
    cases hresult : call.result with
    | none => rfl
    | some result =>
      cases result with
      | ok payload =>
        rw [(hyields payload hresult).1]
        exact congrArg (_ :: ·) (ih hblocking)
      | error error =>
        cases error with
        | io kind => exact absurd hresult (hnone kind)
        | _ => rfl

theorem settled_readFrames (n : ℕ) {wire : Wire} (h : wire.Blocking) :
    settled (readFrames n wire) = readFrames n wire := by
  induction n generalizing wire with
  | zero => rfl
  | succ n ih =>
    obtain ⟨hnone, hblocking⟩ := readFrame_blocking h
    rw [readFrames, readFrame_eq]
    generalize FrameReader.readFrameDeadline none FrameReader.new wire = call at *
    cases hresult : call.result with
    | none => rfl
    | some result =>
      cases result with
      | ok payload => exact congrArg (_ :: ·) (ih hblocking)
      | error error =>
        cases error with
        | io kind => exact absurd hresult (hnone kind)
        | _ => rfl

/-! ## Framed payloads -/

/-- The payloads whose frames are among the first `t` bytes, and how those bytes end. -/
def arrived : List (List UInt8) → ℕ → List (Except FrameError (List UInt8))
  | [], _ => [.error .closed]
  | payload :: payloads, t =>
    if t = 0 then [.error .closed]
    else if t < (frame payload).length then [.error .truncated]
    else .ok payload :: arrived payloads (t - (frame payload).length)

theorem length_frame (payload : List UInt8) : (frame payload).length = 4 + payload.length := by
  unfold frame
  rw [List.length_append, length_toBeBytes]

theorem frames_take (payloads : List (List UInt8)) (t : ℕ)
    (h : ∀ payload ∈ payloads, payload.length ≤ maxFrameLen) :
    frames ((payloads.flatMap frame).take t) = arrived payloads t := by
  induction payloads generalizing t with
  | nil =>
    rw [List.flatMap_nil, List.take_nil, frames_nil]
    rfl
  | cons payload payloads ih =>
    have hlen := length_frame payload
    have hpayload := h payload List.mem_cons_self
    rw [List.flatMap_cons, arrived]
    by_cases hzero : t = 0
    · rw [if_pos hzero, hzero, List.take_zero, frames_nil]
    rw [if_neg hzero]
    by_cases hcut : t < (frame payload).length
    · rw [if_pos hcut, List.take_append_of_le_length hcut.le]
      by_cases hshort : t < 4
      · refine frames_of_short (fun hnil => ?_) ?_
        · have := congrArg List.length hnil
          rw [List.length_take, List.length_nil] at this
          omega
        · rw [List.length_take]
          omega
      · -- the length is whole, and the payload is cut
        have htake : (frame payload).take t = toBeBytes payload.length ++ payload.take (t - 4) := by
          unfold frame
          rw [List.take_append, length_toBeBytes,
            List.take_of_length_le (by rw [length_toBeBytes]; omega)]
        rw [htake, frames_of_len hpayload, if_pos (by rw [List.length_take]; omega)]
    · rw [if_neg hcut]
      have htake : (frame payload ++ payloads.flatMap frame).take t =
          toBeBytes payload.length ++ (payload ++ (payloads.flatMap frame).take
            (t - (frame payload).length)) := by
        rw [List.take_append, List.take_of_length_le (not_lt.mp hcut)]
        unfold frame
        rw [List.append_assoc]
      rw [htake, frames_of_len hpayload, if_neg (by rw [List.length_append]; omega),
        List.take_left' rfl,
        List.drop_left' rfl, ih _ fun payload hmem => h payload (List.mem_cons_of_mem _ hmem)]

/-- **The frame reader does not lose its place.** Whatever payloads are framed, wherever their
stream is cut, and however its reads split it, time out, find a deadline passed or are interrupted:
the calls yield those payloads in order and the right end, polls that timed out apart, and yield all
of it once enough turns move bytes; on a blocking socket the reader without state yields the same.
And a length that is too large is refused, and what follows it is not taken. -/
theorem frame_reader_in_step {payloads : List (List UInt8)}
    (h : ∀ payload ∈ payloads, payload.length ≤ maxFrameLen)
    (t : ℕ) (deadlines : List (Option ℕ)) (turns : List Turn) :
    let wire : Wire := ⟨(payloads.flatMap frame).take t, turns⟩
    (∀ payload ∈ payloads, writeMsg payload = .ok (frame payload)) ∧
      settled (FrameReader.calls deadlines FrameReader.new wire).1 <+: arrived payloads t ∧
      (turns.length < deadlines.length → wire.stream.length < turns.countP (Turn.moves deadlines) →
        settled (FrameReader.calls deadlines FrameReader.new wire).1 = arrived payloads t) ∧
      (wire.Blocking → ∀ n, readFrames n wire <+: arrived payloads t ∧
        (turns.length < n → wire.stream.length < turns.countP (Turn.moves [none]) →
          readFrames n wire = arrived payloads t)) ∧
      ∀ lenPrefix rest : List UInt8, lenPrefix.length = 4 → maxFrameLen < fromBeBytes lenPrefix →
        settled (FrameReader.calls deadlines FrameReader.new ⟨lenPrefix ++ rest, turns⟩).1 <+:
            [.error (.tooLarge (fromBeBytes lenPrefix))] ∧
          (turns.length < deadlines.length →
            (lenPrefix ++ rest).length < turns.countP (Turn.moves deadlines) →
            settled (FrameReader.calls deadlines FrameReader.new ⟨lenPrefix ++ rest, turns⟩).1 =
              [.error (.tooLarge (fromBeBytes lenPrefix))]) ∧
          rest <:+ (FrameReader.calls deadlines FrameReader.new ⟨lenPrefix ++ rest,
            turns⟩).2.stream := by
  intro wire
  have hframes : frames ([] ++ wire.stream) = arrived payloads t := frames_take payloads t h
  obtain ⟨hsome, hall⟩ := calls_frames deadlines (fun _ => id) new_formed wire
  refine ⟨fun payload hmem => if_neg (not_lt.mpr (h payload hmem)), hframes ▸ hsome,
    fun hcalls henough => ?_,
    fun hblocking n => ?_, fun lenPrefix rest hlength hlarge => ?_⟩
  · exact (hall hcalls henough).trans hframes
  · obtain ⟨hsome, hall⟩ := calls_frames (List.replicate n none)
      (fun deadline hmem =>
       (List.mem_singleton.mpr (List.eq_of_mem_replicate hmem) : deadline ∈ [none]))
      new_formed wire
    rw [← readFrames_eq n hblocking, settled_readFrames n hblocking, List.length_replicate] at hall
    rw [← readFrames_eq n hblocking, settled_readFrames n hblocking] at hsome
    exact ⟨hframes ▸ hsome, fun hcalls henough => (hall hcalls henough).trans hframes⟩
  · have hrefused := calls_frames deadlines (fun _ => id) new_formed ⟨lenPrefix ++ rest, turns⟩
    rw [show FrameReader.new.taken ++ (⟨lenPrefix ++ rest, turns⟩ : Wire).stream = lenPrefix ++
      rest from rfl,
      frames_of_tooLarge rest hlength hlarge] at hrefused
    exact ⟨hrefused.1, hrefused.2,
      calls_tooLarge deadlines new_formed ⟨lenPrefix ++ rest, turns⟩ hlength hlarge rfl⟩

/-- Two framed payloads, one of them empty, cut within the second; byte by byte, with a poll that
times out before each. -/
theorem frame_reader_in_step_dribble :
    settled (FrameReader.calls (List.replicate 24 (some 9)) FrameReader.new
      ⟨([[], [7, 8]].flatMap frame).take 9,
        (List.replicate 11 [⟨0, .fail .wouldBlock⟩, ⟨1, .deliver 0⟩]).flatten⟩).1 =
      [.ok [], .error .truncated] := by
  have hpayloads : ∀ payload ∈ ([[], [7, 8]] : List (List UInt8)), payload.length ≤
    maxFrameLen := by decide
  exact (frame_reader_in_step hpayloads 9 (List.replicate 24 (some 9)) _).2.2.1 (by decide)
    (by decide)

end Frame

end ProtonWire
