import ProtonWire.Core.Redact
import ProtonWire.Lib.Delimited

/-!
# The redacting writer

`LineScrubWriter` of `crates/core/src/redact.rs`: bytes are buffered up to a newline, and the line
is scrubbed and forwarded. When a `write_all` of the inner writer fails, and after how many bytes,
is the environment's.

* `fromUtf8Lossy`, `scrubLine`: what is forwarded of a line;
* `LineScrubWriter.flushLine`, `write`, `flush`: the writer;
* `delivered`, `received`: the bytes of the calls that succeeded, and all that reached the inner
  writer;
* **`run_delivers`**: nothing that was accepted is lost, whatever fails, and the calls that succeed
  deliver it once; without failures, the lines of all that is written, however it is split;
* `received_twice`: what a failing call got through is received again.
-/

namespace ProtonWire

/-! ## Decoding -/

/-- `utf8_char_width`. -/
def utf8CharWidth (a : UInt8) : ℕ :=
  if a < 0x80 then 1 else if a < 0xC2 then 0 else if a < 0xE0 then 2 else if a < 0xF0 then 3
  else if a < 0xF5 then 4
  else 0

/-- A continuation byte. -/
def isContinuation (b : UInt8) : Bool := decide (0x80 ≤ b ∧ b ≤ 0xBF)

/-- A byte that can follow the first one. -/
def follows (a b : UInt8) : Bool :=
  if a = 0xE0 then decide (0xA0 ≤ b ∧ b ≤ 0xBF)
  else if a = 0xED then decide (0x80 ≤ b ∧ b ≤ 0x9F)
  else if a = 0xF0 then decide (0x90 ≤ b ∧ b ≤ 0xBF)
  else if a = 0xF4 then decide (0x80 ≤ b ∧ b ≤ 0x8F)
  else isContinuation b

/-- `U+FFFD`. -/
def replacementCharacter : Char := Char.ofNat 0xFFFD

/-- The sequence that begins with `a`: its character, unless it breaks off, and how many bytes
follow `a` in it. -/
def sequenceAt (a : UInt8) (as : List UInt8) : Option Char × ℕ :=
  match utf8CharWidth a, as with
  | 1, _ => (some (Char.ofNat a.toNat), 0)
  | 2, b :: _ =>
    if follows a b then (some (Char.ofNat ((a.toNat - 0xC0) * 0x40 + (b.toNat - 0x80))), 1)
    else (none, 0)
  | 3, b :: c :: _ =>
    if !follows a b then (none, 0)
    else if !isContinuation c then (none, 1)
    else (some (Char.ofNat ((a.toNat - 0xE0) * 0x1000 + (b.toNat - 0x80) * 0x40 +
      (c.toNat - 0x80))), 2)
  | 3, [b] => (none, if follows a b then 1 else 0)
  | 4, b :: c :: d :: _ =>
    if !follows a b then (none, 0)
    else if !isContinuation c then (none, 1)
    else if !isContinuation d then (none, 2)
    else
      (some (Char.ofNat ((a.toNat - 0xF0) * 0x40000 + (b.toNat - 0x80) * 0x1000 +
        (c.toNat - 0x80) * 0x40 +
        (d.toNat - 0x80))), 3)
  | 4, [b, c] => (none, if !follows a b then 0 else if !isContinuation c then 1 else 2)
  | 4, [b] => (none, if follows a b then 1 else 0)
  | _, _ => (none, 0)

/-- `String::from_utf8_lossy`: what there is of a sequence that breaks off is one replacement
character. -/
def fromUtf8Lossy : List UInt8 → List Char
  | [] => []
  | a :: as =>
    (sequenceAt a as).1.getD replacementCharacter :: fromUtf8Lossy (as.drop (sequenceAt a as).2)
termination_by bytes => bytes.length
decreasing_by
  simp only [List.length_drop, List.length_cons]
  omega

/-- `str::as_bytes`. -/
def asBytes (text : String) : List UInt8 := text.toList.flatMap String.utf8EncodeChar

/-- What is forwarded of a line. -/
def scrubLine (registry : List WeakSecret) (line : List UInt8) : List UInt8 :=
  asBytes (scrub registry (String.ofList (fromUtf8Lossy line)))

/-! ## The writer -/

/-- A byte that ends a line. -/
def isNewline (b : UInt8) : Bool := b == 0x0A

/-- A `write_all` of the inner writer: its bytes, and after how many of them it failed. -/
structure WriteAll where
  bytes : List UInt8
  failedAfter : Option ℕ
  deriving DecidableEq

/-- `LineScrubWriter`, with what was asked of the inner writer. -/
structure LineScrubWriter where
  inner : List WriteAll
  line : List UInt8
  deriving DecidableEq

namespace LineScrubWriter

variable (registry : List WeakSecret) (fails : ℕ → Option ℕ)

/-- `flush_line`, and whether it succeeds. -/
def flushLine (w : LineScrubWriter) : Bool × LineScrubWriter :=
  if w.line.isEmpty then (true, w)
  else
    let call : WriteAll := ⟨scrubLine registry w.line, fails w.inner.length⟩
    match call.failedAfter with
    | none => (true, ⟨w.inner ++ [call], []⟩)
    | some _ => (false, ⟨w.inner ++ [call], w.line⟩)

/-- The loop of `write`: the line up to its first newline is flushed, and what follows takes its
place. Where the flush fails, what follows is dropped. -/
def drain (w : LineScrubWriter) : Bool × LineScrubWriter :=
  match _h : w.line.findIdx? isNewline with
  | none => (true, w)
  | some pos =>
    match flushLine registry fails { w with line := w.line.take (pos + 1) } with
    | (false, w') => (false, w')
    | (true, w') => drain { w' with line := w.line.drop (pos + 1) }
termination_by w.line.length
decreasing_by
  have := (List.findIdx?_eq_some_iff_getElem.mp _h).1
  simp
  omega

/-- `write`. -/
def write (w : LineScrubWriter) (buf : List UInt8) : Bool × LineScrubWriter :=
  drain registry fails { w with line := w.line ++ buf }

/-- A call of the writer's owner. -/
inductive Call where
  | write (buf : List UInt8)
  | flush

/-- `write` or `flush`: that of the inner writer forwards nothing. -/
def call (w : LineScrubWriter) : Call → Bool × LineScrubWriter
  | .write buf => write registry fails w buf
  | .flush => flushLine registry fails w

/-- Calls in order, with what each came to. -/
def run (w : LineScrubWriter) : List Call → List (Call × Bool) × LineScrubWriter
  | [] => ([], w)
  | c :: cs =>
    (((c, (call registry fails w c).1) :: (run (call registry fails w c).2 cs).1),
      (run (call registry fails w c).2 cs).2)

/-- A new writer. -/
def new : LineScrubWriter := ⟨[], []⟩

end LineScrubWriter

/-! ## What reaches the inner writer -/

/-- The bytes of the calls that succeeded. -/
def delivered (calls : List WriteAll) : List UInt8 :=
  calls.flatMap fun c => if c.failedAfter.isNone then c.bytes else []

/-- All bytes that reached the inner writer. -/
def received (calls : List WriteAll) : List UInt8 :=
  calls.flatMap fun c => c.failedAfter.elim c.bytes c.bytes.take

namespace LineScrubWriter

variable (registry : List WeakSecret) (fails : ℕ → Option ℕ)

/-- One line, or a part of one: only the last byte can end it. -/
def IsLine (bytes : List UInt8) : Prop := ∀ b ∈ bytes.dropLast, isNewline b = false

/-- From `w` to `w'`: the lines that were delivered, and what is left in the buffer, are what was in
the buffer and what was taken. -/
def Delivers (w w' : LineScrubWriter) (taken : List UInt8) : Prop :=
  ∃ lines : List (List UInt8), (∀ line ∈ lines, line ≠ [] ∧ IsLine line) ∧
    delivered w'.inner = delivered w.inner ++ lines.flatMap (scrubLine registry) ∧
      lines.flatten ++ w'.line = w.line ++ taken

/-- The buffer is one line, or a part of one. -/
def OneLine (w : LineScrubWriter) : Prop := IsLine w.line

variable {registry fails} {w w₁ w₂ : LineScrubWriter}

theorem Delivers.refl (registry : List WeakSecret) (w : LineScrubWriter) :
    Delivers registry w w [] :=
  ⟨[], by simp, by simp, by simp⟩

theorem lines_append {lines₁ lines₂ : List (List UInt8)}
    (h₁ : ∀ line ∈ lines₁, line ≠ [] ∧ IsLine line)
    (h₂ : ∀ line ∈ lines₂, line ≠ [] ∧ IsLine line) :
    ∀ line ∈ lines₁ ++ lines₂, line ≠ [] ∧ IsLine line :=
  fun line hline => (List.mem_append.mp hline).elim (h₁ line) (h₂ line)

theorem Delivers.trans {taken₁ taken₂ : List UInt8} (h₁ : Delivers registry w w₁ taken₁)
    (h₂ : Delivers registry w₁ w₂ taken₂) : Delivers registry w w₂ (taken₁ ++ taken₂) := by
  obtain ⟨lines₁, hlines₁, hdelivered₁, htaken₁⟩ := h₁
  obtain ⟨lines₂, hlines₂, hdelivered₂, htaken₂⟩ := h₂
  refine ⟨lines₁ ++ lines₂, lines_append hlines₁ hlines₂, ?_, ?_⟩
  · rw [hdelivered₂, hdelivered₁, List.flatMap_append, List.append_assoc]
  · rw [List.flatten_append, List.append_assoc, htaken₂, ← List.append_assoc, htaken₁,
      List.append_assoc]

theorem Delivers.next {inner : List WriteAll} {first rest : List UInt8}
    (h₁ : Delivers registry ⟨inner, first⟩ w₁ []) (hline : w₁.line = [])
    (h₂ : Delivers registry { w₁ with line := rest } w₂ []) :
    Delivers registry ⟨inner, first ++ rest⟩ w₂ [] := by
  obtain ⟨lines₁, hlines₁, hdelivered₁, htaken₁⟩ := h₁
  obtain ⟨lines₂, hlines₂, hdelivered₂, htaken₂⟩ := h₂
  refine ⟨lines₁ ++ lines₂, lines_append hlines₁ hlines₂, ?_, ?_⟩
  · rw [hdelivered₂, hdelivered₁, List.flatMap_append, List.append_assoc]
  · rw [hline, List.append_nil, List.append_nil] at htaken₁
    rw [List.append_nil] at htaken₂
    rw [List.flatten_append, List.append_assoc, htaken₂, htaken₁, List.append_nil]

/-- **A flush** delivers the buffer, or keeps it. -/
theorem flushLine_spec (registry : List WeakSecret) (fails : ℕ → Option ℕ) (w : LineScrubWriter) :
    (flushLine registry fails w).1 = true ∧ (flushLine registry fails w).2.line = [] ∧
        delivered (flushLine registry fails w).2.inner =
          delivered w.inner ++ (if w.line = [] then [] else scrubLine registry w.line) ∨
      (flushLine registry fails w).1 = false ∧ (flushLine registry fails w).2.line = w.line ∧
        delivered (flushLine registry fails w).2.inner = delivered w.inner := by
  unfold flushLine
  by_cases hempty : w.line = []
  · simp [hempty]
  · rw [if_neg (by simpa using hempty)]
    cases hfails : fails w.inner.length with
    | none => exact .inl ⟨rfl, rfl, by simp [hempty, delivered]⟩
    | some n => exact .inr ⟨rfl, rfl, by simp [delivered]⟩

theorem flushLine_delivers (registry : List WeakSecret) (fails : ℕ → Option ℕ) (h : w.OneLine) :
    Delivers registry w (flushLine registry fails w).2 [] := by
  rcases flushLine_spec registry fails w with ⟨-, hline, hdelivered⟩ | ⟨-, hline, hdelivered⟩
  · refine ⟨if w.line = [] then [] else [w.line], ?_, ?_, ?_⟩
    · intro line hmem
      split at hmem
      next => cases hmem
      next hne =>
        rw [List.mem_singleton.mp hmem]
        exact ⟨hne, h⟩
    · rw [hdelivered]
      split <;> simp
    · rw [hline]
      split <;> simp_all
  · exact ⟨[], by simp, by simp [hdelivered], by simp [hline]⟩

theorem flushLine_oneLine (registry : List WeakSecret) (fails : ℕ → Option ℕ) (h : w.OneLine) :
    (flushLine registry fails w).2.OneLine := by
  rcases flushLine_spec registry fails w with ⟨-, hline, -⟩ | ⟨-, hline, -⟩
  · rw [OneLine, hline]
    simp [IsLine]
  · rwa [OneLine, hline]

theorem oneLine_take {inner : List WriteAll} {line : List UInt8} {pos : ℕ}
    (h : line.findIdx? isNewline = some pos) :
    OneLine ⟨inner, line.take (pos + 1)⟩ := by
  obtain ⟨hlt, -, hbefore⟩ := List.findIdx?_eq_some_iff_getElem.mp h
  intro b hb
  have htake : (line.take (pos + 1)).dropLast = line.take pos := by
    rw [List.take_succ_eq_append_getElem hlt, List.dropLast_concat]
  rw [show (LineScrubWriter.mk inner (line.take (pos + 1))).line = line.take (pos + 1) from rfl,
    htake] at hb
  obtain ⟨i, hi, rfl⟩ := List.mem_take_iff_getElem.mp hb
  simpa using hbefore i (by omega)

theorem drain_of_none (h : w.line.findIdx? isNewline = none) :
    drain registry fails w = (true, w) := by
  unfold drain
  split
  · rfl
  · rename_i pos hpos
    cases h.symm.trans hpos

theorem drain_of_some {pos : ℕ} (h : w.line.findIdx? isNewline = some pos) :
    drain registry fails w =
      if (flushLine registry fails { w with line := w.line.take (pos + 1) }).1 then
        drain registry fails
          { (flushLine registry fails { w with line := w.line.take (pos + 1) }).2 with
          line := w.line.drop (pos + 1) }
      else (false, (flushLine registry fails { w with line := w.line.take (pos + 1) }).2) := by
  conv_lhs => unfold drain
  split
  · rename_i hnone
    cases hnone.symm.trans h
  · rename_i pos' hpos
    obtain rfl : pos' = pos := Option.some.inj (hpos.symm.trans h)
    split
    · rename_i w' hflush
      rw [hflush]
      rfl
    · rename_i w' hflush
      rw [hflush]
      rfl

variable (registry fails) in
/-- **The loop of `write`**: where it fails, it keeps a first part of the buffer, up to the end of a
line. -/
theorem drain_spec (w : LineScrubWriter) :
    (drain registry fails w).2.OneLine ∧
      ∃ kept, kept <+: w.line ∧ ((drain registry fails w).1 = true → kept = w.line) ∧
        (∀ pos, w.line.findIdx? isNewline = some pos → w.line.take (pos + 1) <+: kept) ∧
        Delivers registry { w with line := kept } (drain registry fails w).2 [] := by
  induction hn : w.line.length using Nat.strongRecOn generalizing w with
  | _ n ih =>
    cases hpos : w.line.findIdx? isNewline with
    | none =>
      rw [drain_of_none hpos]
      have hone : w.OneLine := fun b hb =>
        List.findIdx?_eq_none_iff.mp hpos b (List.dropLast_subset _ hb)
      have hfirst : ∀ pos, none = some pos → w.line.take (pos + 1) <+: w.line := by
        intro pos h
        cases h
      exact ⟨hone, w.line, List.prefix_refl _, fun _ => rfl, hfirst, Delivers.refl registry w⟩
    | some pos =>
      have hlt : pos < w.line.length := (List.findIdx?_eq_some_iff_getElem.mp hpos).1
      have honeLine : OneLine ⟨w.inner, w.line.take (pos + 1)⟩ := oneLine_take hpos
      have hflushed := flushLine_delivers registry fails honeLine
      rw [drain_of_some hpos]
      rcases flushLine_spec registry fails { w with line := w.line.take (pos + 1) } with
        ⟨hok, hline, -⟩ | ⟨hok, -, -⟩
      · rw [if_pos hok]
        have hshorter : (w.line.drop (pos + 1)).length < n := by
          rw [← hn, List.length_drop]
          omega
        obtain ⟨hone, kept, hkept, hall, -, hdelivers⟩ := ih _ hshorter
          { (flushLine registry fails { w with line := w.line.take (pos + 1) }).2 with
            line := w.line.drop (pos + 1) } rfl
        refine ⟨hone, w.line.take (pos + 1) ++ kept, ?_, fun h => ?_, ?_,
          hflushed.next hline hdelivers⟩
        · conv_rhs => rw [← List.take_append_drop (pos + 1) w.line]
          exact (List.prefix_append_right_inj _).mpr hkept
        · rw [hall h, List.take_append_drop]
        · rintro _ ⟨⟩
          exact List.prefix_append _ _
      · rw [if_neg (by simp [hok])]
        have hfirst : ∀ pos', some pos = some pos' →
          w.line.take (pos' + 1) <+: w.line.take (pos + 1) := by
          rintro _ ⟨⟩
          exact List.prefix_refl _
        have hfailed : false = true → w.line.take (pos + 1) = w.line := by
          intro h
          cases h
        exact ⟨flushLine_oneLine registry fails honeLine, _, List.take_prefix _ _, hfailed,
          hfirst, hflushed⟩

variable (registry fails) in
/-- **A write** takes its bytes, or a first part of them where it fails. -/
theorem write_spec (h : w.OneLine) (buf : List UInt8) :
    (write registry fails w buf).2.OneLine ∧
      ∃ taken, taken <+: buf ∧ ((write registry fails w buf).1 = true → taken = buf) ∧
        Delivers registry w (write registry fails w buf).2 taken := by
  obtain ⟨hone, kept, hkept, hall, hfirst, lines, hpieces, hdelivered, hlines⟩ :=
    drain_spec registry fails { w with line := w.line ++ buf }
  have hbuffer : w.line <+: kept := by
    cases hpos : (w.line ++ buf).findIdx? isNewline with
    | none =>
      have hok : kept = w.line ++ buf := hall (by rw [drain_of_none hpos])
      rw [hok]
      exact List.prefix_append _ _
    | some pos =>
      obtain ⟨hlt, hnewline, -⟩ := List.findIdx?_eq_some_iff_getElem.mp hpos
      -- the first newline is not before the last byte of the buffer
      have hlate : w.line.length ≤ pos + 1 := by
        by_contra hearly
        have hmem : (w.line ++ buf)[pos] ∈ w.line.dropLast := by
          rw [List.getElem_append_left (by omega), ← List.getElem_dropLast (by simp; omega)]
          exact List.getElem_mem _
        exact Bool.false_ne_true ((h _ hmem).symm.trans hnewline)
      have htake : w.line <+: (w.line ++ buf).take (pos + 1) :=
        List.prefix_take_iff.mpr ⟨List.prefix_append _ _, hlate⟩
      exact htake.trans (hfirst pos hpos)
  obtain ⟨taken, rfl⟩ := hbuffer
  refine ⟨hone, taken, (List.prefix_append_right_inj _).mp hkept,
    fun hok => List.append_cancel_left (hall hok), lines,
    hpieces, hdelivered, ?_⟩
  exact hlines.trans (List.append_nil _)

/-- What a call takes of its bytes, with what it came to. -/
def Takes : Call × Bool → List UInt8 → Prop
  | (.write buf, ok), taken => taken <+: buf ∧ (ok = true → taken = buf)
  | (.flush, _), taken => taken = []

variable (registry fails) in
theorem call_spec (h : w.OneLine) (c : Call) :
    (call registry fails w c).2.OneLine ∧
      ∃ taken, Takes (c, (call registry fails w c).1) taken ∧
        Delivers registry w (call registry fails w c).2 taken := by
  cases c with
  | write buf =>
    obtain ⟨hone, taken, htakenPrefix, hall, hdelivers⟩ := write_spec registry fails h buf
    exact ⟨hone, taken, ⟨htakenPrefix, hall⟩, hdelivers⟩
  | flush =>
    exact ⟨flushLine_oneLine registry fails h, [], rfl, flushLine_delivers registry fails h⟩

theorem run_spec (h : w.OneLine) (calls : List Call) :
    ∃ taken, List.Forall₂ Takes (run registry fails w calls).1 taken ∧
      Delivers registry w (run registry fails w calls).2 taken.flatten := by
  induction calls generalizing w with
  | nil => exact ⟨[], .nil, Delivers.refl registry w⟩
  | cons c calls ih =>
    obtain ⟨hone, taken, htakes, hdelivers⟩ := call_spec registry fails h c
    obtain ⟨rest, hrest, hdelivers'⟩ := ih hone
    exact ⟨taken :: rest, .cons htakes hrest, hdelivers.trans hdelivers'⟩

/-! ## Without failures -/

/-- Every call of the inner writer succeeded. -/
def Succeeds (w : LineScrubWriter) : Prop := ∀ c ∈ w.inner, c.failedAfter = none

theorem received_of_succeeds (h : w.Succeeds) : received w.inner = delivered w.inner := by
  refine List.flatMap_congr fun c hc => ?_
  rw [h c hc]
  rfl

variable (registry) in
theorem flushLine_succeeds (h : w.Succeeds) :
    (flushLine registry (fun _ => none) w).1 = true ∧
    (flushLine registry (fun _ => none) w).2.Succeeds := by
  unfold flushLine
  split
  · exact ⟨rfl, h⟩
  · refine ⟨rfl, fun c hc => ?_⟩
    rcases List.mem_append.mp hc with hc | hc
    · exact h c hc
    · rw [List.mem_singleton.mp hc]

variable (registry) in
theorem drain_succeeds (h : w.Succeeds) :
    (drain registry (fun _ => none) w).1 = true ∧ (drain registry (fun _ => none) w).2.Succeeds ∧
      (drain registry (fun _ => none) w).2.line = (Delimited.split isNewline w.line).2 ∧
      delivered (drain registry (fun _ => none) w).2.inner =
        delivered w.inner ++ (Delimited.split isNewline w.line).1.flatMap (scrubLine registry) := by
  induction hn : w.line.length using Nat.strongRecOn generalizing w with
  | _ n ih =>
    cases hpos : w.line.findIdx? isNewline with
    | none =>
      rw [drain_of_none hpos, Delimited.split_of_not_ends (List.findIdx?_eq_none_iff.mp hpos)]
      exact ⟨rfl, h, rfl, by simp⟩
    | some pos =>
      have hlt : pos < w.line.length := (List.findIdx?_eq_some_iff_getElem.mp hpos).1
      have hshorter : (w.line.drop (pos + 1)).length < n := by
        rw [← hn, List.length_drop]
        omega
      have hcut : Succeeds { w with line := w.line.take (pos + 1) } := h
      obtain ⟨hok, hsucceeds⟩ := flushLine_succeeds registry hcut
      have hne : w.line.take (pos + 1) ≠ [] := by
        rw [ne_eq, List.take_eq_nil_iff]
        rintro (hzero | hnil)
        · omega
        · rw [hnil] at hlt
          exact Nat.not_lt_zero _ hlt
      have hdelivered :
          delivered (flushLine registry (fun _ => none)
            { w with line := w.line.take (pos + 1) }).2.inner =
            delivered w.inner ++ scrubLine registry (w.line.take (pos + 1)) := by
        rcases flushLine_spec registry (fun _ => none) { w with line := w.line.take (pos + 1) } with
          ⟨-, -, hdelivered⟩ | ⟨hfail, -⟩
        · rw [hdelivered, if_neg hne]
        · cases hok.symm.trans hfail
      rw [drain_of_some hpos, if_pos hok, Delimited.split_of_findIdx? hpos]
      obtain ⟨hok', hsucceeds', hline, hrest⟩ := ih _ hshorter (w :=
        { (flushLine registry (fun _ => none) { w with line := w.line.take (pos + 1) }).2 with
          line := w.line.drop (pos + 1) }) hsucceeds rfl
      refine ⟨hok', hsucceeds', hline, ?_⟩
      rw [hrest, hdelivered, List.flatMap_cons, List.append_assoc]

variable (registry) in
/-- **The writes of a text, however it is split**: what is delivered, and what is left. -/
theorem run_writes_succeeds (h : w.Succeeds) (hw : ∀ b ∈ w.line, isNewline b = false)
    (chunks : List (List UInt8)) :
    (∀ r ∈ (run registry (fun _ => none) w (chunks.map .write)).1, r.2 = true) ∧
      (run registry (fun _ => none) w (chunks.map .write)).2.Succeeds ∧
      (run registry (fun _ => none) w (chunks.map .write)).2.line =
        (Delimited.split isNewline (w.line ++ chunks.flatten)).2 ∧
      delivered (run registry (fun _ => none) w (chunks.map .write)).2.inner =
        delivered w.inner ++
          (Delimited.split isNewline (w.line ++ chunks.flatten)).1.flatMap
          (scrubLine registry) := by
  induction chunks generalizing w with
  | nil =>
    rw [List.flatten_nil, List.append_nil, Delimited.split_of_not_ends hw]
    exact ⟨by simp [run], h, rfl, by simp [run]⟩
  | cons chunk chunks ih =>
    have hbuffer : Succeeds { w with line := w.line ++ chunk } := h
    obtain ⟨hok, hsucceeds, hline, hdelivered⟩ := drain_succeeds registry hbuffer
    have hrest : ∀ b ∈ (drain registry (fun _ => none) { w with line := w.line ++ chunk }).2.line,
        isNewline b = false := by
      rw [hline]
      exact Delimited.not_ends_of_mem_rest (by simp)
    obtain ⟨hoks, hsucceeds', hline', hdelivered'⟩ := ih hsucceeds hrest
    rw [List.flatten_cons, ← List.append_assoc, Delimited.split_append]
    rw [hline] at hline' hdelivered'
    refine ⟨?_, hsucceeds', hline', ?_⟩
    · intro r hr
      rcases List.mem_cons.mp hr with rfl | hr
      · exact hok
      · exact hoks r hr
    · rw [List.flatMap_append, ← List.append_assoc, ← hdelivered]
      exact hdelivered'

theorem run_append (w : LineScrubWriter) (a b : List Call) :
    run registry fails w (a ++ b) =
      ((run registry fails w a).1 ++ (run registry fails (run registry fails w a).2 b).1,
        (run registry fails (run registry fails w a).2 b).2) := by
  induction a generalizing w with
  | nil => rfl
  | cons c a ih => rw [List.cons_append, run, run, ih, List.cons_append]

variable (registry) in
theorem run_writes_flush (chunks : List (List UInt8)) :
    (∀ r ∈ (run registry (fun _ => none) new (chunks.map .write ++ [.flush])).1, r.2 = true) ∧
      (run registry (fun _ => none) new (chunks.map .write ++ [.flush])).2.line = [] ∧
      received (run registry (fun _ => none) new (chunks.map .write ++ [.flush])).2.inner =
        (Delimited.pieces isNewline chunks.flatten).flatMap (scrubLine registry) := by
  have hnew : new.Succeeds := by simp [Succeeds, new]
  obtain ⟨hoks, hsucceeds, hline, hdelivered⟩ :=
    run_writes_succeeds registry hnew (by simp [new]) chunks
  obtain ⟨hok, hsucceeds'⟩ := flushLine_succeeds registry hsucceeds
  rw [run_append]
  rcases flushLine_spec registry (fun _ => none)
    (run registry (fun _ => none) new (chunks.map .write)).2 with
    ⟨-, hline', hdelivered'⟩ | ⟨hfail, -⟩
  · refine ⟨?_, hline', ?_⟩
    · intro r hr
      rcases List.mem_append.mp hr with hr | hr
      · exact hoks r hr
      · rw [List.mem_singleton.mp hr]
        exact hok
    · refine (received_of_succeeds hsucceeds').trans (hdelivered'.trans ?_)
      rw [hdelivered, hline, Delimited.pieces, List.flatMap_append]
      have hstart : new.line ++ chunks.flatten = chunks.flatten := rfl
      rw [hstart]
      by_cases hempty : (Delimited.split isNewline chunks.flatten).2 = []
      · simp [hempty, new, delivered]
      · simp [hempty, new, delivered]
  · cases hok.symm.trans hfail

/-- **What is written is delivered once**, by lines, whatever fails; where nothing does, all of it,
however it is split. -/
theorem run_delivers (registry : List WeakSecret) (fails : ℕ → Option ℕ) (calls : List Call)
    (chunks : List (List UInt8)) :
    (∃ taken, List.Forall₂ Takes (run registry fails new calls).1 taken ∧
      Delivers registry new (run registry fails new calls).2 taken.flatten) ∧
      (∀ r ∈ (run registry (fun _ => none) new (chunks.map .write ++ [.flush])).1, r.2 = true) ∧
      received (run registry (fun _ => none) new (chunks.map .write ++ [.flush])).2.inner =
        (Delimited.pieces isNewline chunks.flatten).flatMap (scrubLine registry) := by
  have hnew : new.OneLine := by simp [OneLine, IsLine, new]
  obtain ⟨hoks, -, hreceived⟩ := run_writes_flush registry chunks
  exact ⟨run_spec hnew calls, hoks, hreceived⟩

/-! ## A failure that is not whole -/

theorem utf8CharWidth_ascii {a : UInt8} (h : a < 0x80) : utf8CharWidth a = 1 := if_pos h

theorem fromUtf8Lossy_ascii {line : List UInt8} (h : ∀ b ∈ line, b < 0x80) :
    fromUtf8Lossy line = line.map fun b => Char.ofNat b.toNat := by
  induction line with
  | nil => rw [fromUtf8Lossy, List.map_nil]
  | cons a as ih =>
    have hseq : sequenceAt a as = (some (Char.ofNat a.toNat), 0) := by
      simp [sequenceAt, utf8CharWidth_ascii (h a List.mem_cons_self)]
    rw [fromUtf8Lossy, hseq, List.drop_zero, ih fun b hb => h b (List.mem_cons_of_mem a hb),
      List.map_cons]
    rfl

theorem utf8EncodeChar_ofNat :
    ∀ n : Fin 128, String.utf8EncodeChar (Char.ofNat n.val) = [UInt8.ofNat n.val] := by
  decide

theorem scrubLine_ascii {line : List UInt8} (h : ∀ b ∈ line, b < 0x80) :
    scrubLine [] line = line := by
  have hencode : ∀ b ∈ line, String.utf8EncodeChar (Char.ofNat b.toNat) = [b] := by
    intro b hb
    have hlt : b.toNat < 128 := UInt8.lt_iff_toNat_lt.mp (h b hb)
    have hbyte := utf8EncodeChar_ofNat ⟨b.toNat, hlt⟩
    rwa [UInt8.ofNat_toNat] at hbyte
  have hscrub : ∀ input : String, scrub [] input = input := by
    intro input
    simp [scrub, scrubText, longestFirst, liveSecrets, StableSort.sortKey]
  rw [scrubLine, hscrub, asBytes, String.toList_ofList, fromUtf8Lossy_ascii h, List.flatMap_map]
  rw [List.flatMap_congr hencode, List.flatMap_singleton']

/-- The inner writer takes a byte and fails, and then takes everything. -/
def failsOnce (n : ℕ) : Option ℕ := if n = 0 then some 1 else none

theorem scrubLine_newline : scrubLine [] [0x61, 0x62, 0x0A] = [0x61, 0x62, 0x0A] := by
  refine scrubLine_ascii fun b hb => ?_
  have hcases : b = 0x61 ∨ b = 0x62 ∨ b = 0x0A := by simpa using hb
  rcases hcases with rfl | rfl | rfl <;> decide

/-- `ab`, its newline, and a flush. -/
def twiceSent : List Call := [.write [0x61, 0x62], .write [0x0A], .flush]

theorem run_twiceSent : run [] failsOnce new twiceSent =
    ([(.write [0x61, 0x62], true), (.write [0x0A], false), (.flush, true)],
      ⟨[⟨[0x61, 0x62, 0x0A], some 1⟩, ⟨[0x61, 0x62, 0x0A], none⟩], []⟩) := by
  have hfirst : call [] failsOnce new (.write [0x61, 0x62]) = (true, ⟨[], [0x61, 0x62]⟩) :=
    drain_of_none (by decide)
  have hsecond : call [] failsOnce ⟨[], [0x61, 0x62]⟩ (.write [0x0A]) =
      (false, ⟨[⟨[0x61, 0x62, 0x0A], some 1⟩], [0x61, 0x62, 0x0A]⟩) := by
    refine (drain_of_some (show _ = some 2 by decide)).trans ?_
    simp [flushLine, scrubLine_newline, failsOnce]
  have hthird : call [] failsOnce ⟨[⟨[0x61, 0x62, 0x0A], some 1⟩], [0x61, 0x62, 0x0A]⟩ .flush =
      (true, ⟨[⟨[0x61, 0x62, 0x0A], some 1⟩, ⟨[0x61, 0x62, 0x0A], none⟩], []⟩) := by
    simp [call, flushLine, scrubLine_newline, failsOnce]
  simp only [twiceSent, run, hfirst, hsecond, hthird]

/-- **Received twice**: `ab` is accepted, the `write` of the newline fails after `a`, and the next
flush forwards `ab` from the beginning. -/
theorem received_twice :
    received (run [] failsOnce new twiceSent).2.inner = [0x61, 0x61, 0x62, 0x0A] ∧
    ¬ ∀ (registry : List WeakSecret) (fails : ℕ → Option ℕ) (calls : List Call),
      ∃ (taken lines : List (List UInt8)),
        List.Forall₂ Takes (run registry fails new calls).1 taken ∧
        received (run registry fails new calls).2.inner = lines.flatMap (scrubLine registry) ∧
        lines.flatten ++ (run registry fails new calls).2.line = taken.flatten := by
  refine ⟨by rw [run_twiceSent]; rfl, fun h => ?_⟩
  obtain ⟨taken, lines, htaken, hreceived, hlines⟩ := h [] failsOnce twiceSent
  rw [run_twiceSent] at htaken hreceived hlines
  -- what was taken is `ab`, or `ab` and the newline
  cases htaken with
  | cons hfirst' htaken =>
    cases htaken with
    | cons hsecond' htaken =>
      cases htaken with
      | cons hthird' htaken =>
        cases htaken
        rename_i first second third
        obtain rfl : first = [0x61, 0x62] := hfirst'.2 rfl
        obtain rfl : third = [] := hthird'
        have hshort : second.length ≤ 1 := hsecond'.1.length_le
        have hascii : ∀ line ∈ lines, scrubLine [] line = line := by
          intro line hline
          refine scrubLine_ascii fun b hb => ?_
          have hmem : b ∈ [[0x61, 0x62], second, []].flatten := by
            rw [← hlines, List.append_nil]
            exact List.mem_flatten.mpr ⟨line, hline, hb⟩
          have hcases : b = 0x61 ∨ b = 0x62 ∨ b = 0x0A := by
            have hsub : b ∈ second → b = 0x0A := fun hb =>
              List.mem_singleton.mp (hsecond'.1.subset hb)
            simp only [List.flatten_cons, List.flatten_nil, List.append_nil, List.mem_append,
              List.mem_cons, List.not_mem_nil, or_false] at hmem
            rcases hmem with (hmem | hmem) | hmem
            · exact .inl hmem
            · exact .inr (.inl hmem)
            · exact .inr (.inr (hsub hmem))
          rcases hcases with rfl | rfl | rfl <;> decide
        rw [List.flatMap_congr hascii, List.flatMap_id', ← List.append_nil lines.flatten, hlines]
          at hreceived
        have := congrArg List.length hreceived
        simp [received] at this
        omega

end LineScrubWriter

end ProtonWire
