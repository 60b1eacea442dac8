import ProtonWire.Store.YamlScan

/-!
# The scan and the parser in step

The scan goes along with the parser through the pieces of a line, until the first anchor or alias,
which it finds.

* `Carries`, `Between`, `Sync`: the state of the scan where the parser is at a place;
* `Takes`: what a piece does; one lemma for each kind of piece;
* **`Sync.pieces`**: the pieces of a line.
-/

namespace ProtonWire

namespace Yaml

open Scan

/-! ## In step -/

variable {r r' : Reader} {s : Scan} {indent lineNo : ℕ} {before rest : List Char}

/-- What the scan carries from line to line, where the parser is at this place. -/
def Carries (s : Scan) : Place → Prop
  | .head => s.Bare ∧ (0 < s.flowDepth → s.plainPending = false ∧ s.flowPlain = false)
  | .node | .done => s.Bare ∧ s.plainPending = false ∧ (0 < s.flowDepth → s.flowPlain = false)
  | .plain => s.Bare ∧ s.plainPending = (s.flowDepth == 0) ∧ s.flowPlain = decide (0 < s.flowDepth)
  | .quote style =>
    s.inDoubleQuote = (style == .double) ∧ s.inSingleQuote = (style == .single) ∧
    s.plainPending = false ∧
      s.flowPlain = false

theorem Carries.bare {place : Place} (h : Carries s place)
    (hplace : ∀ style, place ≠ .quote style) : s.Bare := by
  cases place with
  | quote style => exact absurd rfl (hplace style)
  | head | node | plain | done => exact h.1

/-- What is reset at the head of a line is not carried. -/
theorem Carries.reset {place : Place} (h : Carries s place) (start prev : Bool) :
    Carries { s with atNodeStart := start, prevIsSpacing := prev } place := by
  cases place with
  | quote style => exact h
  | head | node | plain | done => exact ⟨⟨h.1.double, h.1.single⟩, h.2⟩

/-- The scan is in step with the parser between two lines. -/
structure Between (r : Reader) (s : Scan) : Prop where
  carries : Carries s r.place
  flow : s.flowDepth = r.flow
  context : s.ctxIndent = r.context
  block : s.blockScalar.map Prod.fst = r.block

/-- The scan is in step with the parser in a line. -/
structure Sync (r : Reader) (s : Scan) : Prop extends Between r s where
  starts : r.nodeStarts = true → s.atNodeStart = true
  inside : r.place = .plain → s.atNodeStart = false
  spacing : r.before = .spacing → r.quoting = false → s.prevIsSpacing = true

theorem Sync.inNode (h : Sync r s) (hstarts : r.nodeStarts = true) : s.InNode := by
  have hcarries := h.carries
  have hplace : r.place = .head ∨ r.place = .node := by simpa [Reader.nodeStarts] using hstarts
  rcases hplace with hp | hp <;> rw [hp] at hcarries
  · exact ⟨hcarries.1, h.starts hstarts, fun hin => (hcarries.2 hin).2,
      fun hin => (hcarries.2 hin).1⟩
  · exact ⟨hcarries.1, h.starts hstarts, hcarries.2.2, fun _ => hcarries.2.1⟩

theorem Sync.inPlain (h : Sync r s) (hplain : r.place = .plain) : s.InPlain := by
  have hcarries := h.carries
  rw [hplain] at hcarries
  exact ⟨hcarries.1, h.inside hplain, hcarries.2.1, hcarries.2.2⟩

theorem Sync.bare (h : Sync r s) (hquoting : r.quoting = false) : s.Bare := by
  refine h.carries.bare fun style hstyle => ?_
  cases style <;> simp [Reader.quoting, hstyle] at hquoting

/-- After `text` the scan is in step with `r'`. -/
def Takes (indent lineNo : ℕ) (s : Scan) (before : List Char) (r' : Reader)
    (text rest : List Char) : Prop :=
  ∃ s' before', charsFrom indent lineNo s before 0 (text ++ rest) =
    charsFrom indent lineNo s' before' 0 rest ∧
    Sync r' s' ∧ (r'.nodeStarts = true → (r'.column = 0 ↔ before' = []))

theorem takes_char {c : Char} {s' : Scan} (hgo : s.char indent lineNo before c rest = .go s' 0)
    (hsync : Sync r' { s' with prevIsSpacing := isSpacing c }) (hcolumn : r'.column ≠ 0) :
    Takes indent lineNo s before r' [c] rest :=
  ⟨_, _, charsFrom_go hgo, hsync, by simp [hcolumn]⟩

/-! ## The pieces -/

@[simp] theorem Reader.past_flow (r : Reader) (p : Piece) (place : Place) (b : Before) :
    (r.past p place b).flow = r.flow := rfl

@[simp] theorem Reader.past_context (r : Reader) (p : Piece) (place : Place) (b : Before) :
    (r.past p place b).context = r.context := rfl

@[simp] theorem Reader.past_block (r : Reader) (p : Piece) (place : Place) (b : Before) :
    (r.past p place b).block = r.block := rfl

@[simp] theorem Reader.past_place (r : Reader) (p : Piece) (place : Place) (b : Before) :
    (r.past p place b).place = place := rfl

@[simp] theorem Reader.unroll_flow (r : Reader) : r.unroll.flow = r.flow := by
  unfold Reader.unroll
  split <;> rfl

@[simp] theorem Reader.unroll_context (r : Reader) : r.unroll.context = r.context := by
  unfold Reader.unroll
  split <;> rfl

@[simp] theorem Reader.opens_flow (r : Reader) : r.opens.flow = r.flow := by
  unfold Reader.opens Reader.unroll
  split <;> rfl

@[simp] theorem Reader.opens_context (r : Reader) : r.opens.context = r.context := by
  unfold Reader.opens Reader.unroll
  split <;> rfl

@[simp] theorem Reader.opens_block (r : Reader) : r.opens.block = r.block := by
  unfold Reader.opens Reader.unroll
  split <;> rfl

@[simp] theorem Reader.roll_flow (r : Reader) (column : ℕ) : (r.roll column).flow = r.flow := by
  unfold Reader.roll Reader.unroll
  split <;> rfl

@[simp] theorem Reader.roll_block (r : Reader) (column : ℕ) : (r.roll column).block = r.block := by
  unfold Reader.roll Reader.unroll
  split <;> rfl

theorem Reader.roll_context (r : Reader) (column : ℕ) :
    (r.roll column).context = if r.flow = 0 then r.indent else r.context := by
  unfold Reader.roll Reader.unroll
  split <;> rfl

theorem sync_node {p : Piece} {b : Before} (hbare : s.Bare) (hstart : s.atNodeStart = true)
    (hpending : s.plainPending = false) (hflat : 0 < s.flowDepth → s.flowPlain = false)
    (hflow : s.flowDepth = r.flow) (hcontext : s.ctxIndent = r.context)
    (hblock : s.blockScalar.map Prod.fst = r.block) (hb : b = .spacing → s.prevIsSpacing = true) :
    Sync (r.past p .node b) s where
  carries := ⟨hbare, hpending, hflat⟩
  flow := hflow
  context := hcontext
  block := hblock
  starts _ := hstart
  inside hp := by cases hp
  spacing hs _ := hb hs

theorem sync_plain {p : Piece} (hplain : s.InPlain) (hflow : s.flowDepth = r.flow)
    (hcontext : s.ctxIndent = r.context) (hblock : s.blockScalar.map Prod.fst = r.block) :
    Sync (r.past p .plain .other) s where
  carries := ⟨hplain.toBare, hplain.plainPending, hplain.flowPlain⟩
  flow := hflow
  context := hcontext
  block := hblock
  starts hs := by cases hs
  inside _ := hplain.atNodeStart
  spacing hs := by cases hs

theorem sync_done {p : Piece} {b : Before} (hbare : s.Bare) (hpending : s.plainPending = false)
    (hflat : s.flowPlain = false) (hflow : s.flowDepth = r.flow)
    (hcontext : s.ctxIndent = r.context)
    (hblock : s.blockScalar.map Prod.fst = r.block) (hb : b = .spacing → s.prevIsSpacing = true) :
    Sync (r.past p .done b) s where
  carries := ⟨hbare, hpending, fun _ => hflat⟩
  flow := hflow
  context := hcontext
  block := hblock
  starts hs := by cases hs
  inside hp := by cases hp
  spacing hs _ := hb hs

/-- `:`, `-` and `?`. -/
theorem Sync.indicator (h : Sync r s) (hbare : s.Bare) (hindent : r.indent = indent) {c : Char}
    (hc : isSpacing c = true) {p : Piece} (hp : p.text = [c]) (column : ℕ)
    (hgo : s.char indent lineNo before c rest = .go (s.indicator indent) 0) :
    Takes indent lineNo s before ((r.roll column).past p .node .spacing) p.text rest := by
  have hcolumn : ((r.roll column).past p .node .spacing).column ≠ 0 := by simp [Reader.past, hp]
  rw [hp]
  refine takes_char hgo (sync_node ⟨hbare.double, hbare.single⟩ rfl rfl (fun _ => rfl)
    ?_ ?_ ?_ fun _ => hc)
    hcolumn
  · simpa [Scan.indicator, Scan.node] using h.flow
  · rw [Reader.roll_context, ← hindent, ← h.flow, ← h.context]
    rfl
  · simpa [Scan.indicator, Scan.node] using h.block

theorem Sync.blanks (h : Sync r s) {cs : List Char} (hcs : ∀ c ∈ cs, isBlank c = true)
    (hne : cs ≠ []) :
    Takes indent lineNo s before (r.move (.blanks cs)) cs rest := by
  have hcarries : Carries { s with prevIsSpacing := true } r.place :=
    h.carries.reset s.atNodeStart true
  refine ⟨_, _, charsFrom_blanks hcs hne,
    ⟨⟨hcarries, h.flow, h.context, h.block⟩, h.starts, h.inside,
    fun _ _ => rfl⟩, ?_⟩
  simp [Reader.move, Reader.past, Piece.text, hne]

theorem Sync.documentStart (h : Sync r s) (hplace : r.place = .head) (hflow : r.flow = 0)
    (hnext : spacedOrEol rest = true) :
    Takes indent lineNo s [] (r.move .documentStart) ['-', '-', '-'] rest := by
  have hnode := h.inNode (by simp [Reader.nodeStarts, hplace])
  have hgo : s.char indent lineNo [] '-' ('-' :: '-' :: rest) = .go s.node 2 :=
    hnode.documentStart (h.flow.trans hflow) hnext
  refine ⟨_, _, (charsFrom_go hgo).trans (charsFrom_skip _ _ ['-', '-'] rest), ?_, ?_⟩
  · exact sync_node ⟨hnode.double, hnode.single⟩ rfl rfl (fun _ => rfl) h.flow h.context h.block
      fun _ => rfl
  · simp [Reader.move, Reader.past, Piece.text]

theorem Sync.flowEntry (h : Sync r s) (hquoting : r.quoting = false) (hflow : 0 < r.flow)
    (hpending : s.plainPending = false) :
    Takes indent lineNo s before (r.move .flowEntry) [','] rest := by
  have hbare := h.bare hquoting
  refine takes_char (hbare.flowEntry (h.flow ▸ hflow)) ?_
    (by simp [Reader.move, Reader.past, Piece.text])
  exact sync_node ⟨hbare.double, hbare.single⟩ rfl hpending (fun _ => rfl) h.flow h.context h.block
    fun _ => rfl

theorem Sync.flowStart (h : Sync r s) (hstarts : r.nodeStarts = true) {c : Char}
    (hc : c = '[' ∨ c = '{') :
    Takes indent lineNo s before (r.move (.flowStart c)) [c] rest := by
  have hnode := h.inNode hstarts
  have hspacing : isSpacing c = true := by rcases hc with rfl | rfl <;> rfl
  refine takes_char (hnode.flowStart hc) ?_ (by simp [Reader.move, Reader.past, Piece.text])
  refine sync_node ⟨hnode.double, hnode.single⟩ rfl rfl (fun _ => rfl) ?_ ?_ ?_ fun _ => hspacing
  · simp [h.flow]
  · simpa [Scan.node] using h.context
  · simpa [Scan.node] using h.block

theorem Sync.flowEnd (h : Sync r s) (hquoting : r.quoting = false)
    (hpending : s.plainPending = false) {c : Char} (hc : c = ']' ∨ c = '}') :
    Takes indent lineNo s before (r.move (.flowEnd c)) [c] rest := by
  have hbare := h.bare hquoting
  have hspacing : isSpacing c = true := by rcases hc with rfl | rfl <;> rfl
  refine takes_char (hbare.flowEnd hc) ?_ (by simp [Reader.move, Reader.past, Piece.text])
  exact sync_done ⟨hbare.double, hbare.single⟩ hpending rfl (by rw [h.flow])
    h.context h.block fun _ => hspacing

/-- In a flow collection no plain scalar of a block collection is in flight. -/
theorem Sync.not_pending (h : Sync r s) (hquoting : r.quoting = false) (hflow : 0 < r.flow) :
    s.plainPending = false := by
  have hin : 0 < s.flowDepth := h.flow ▸ hflow
  have hcarries := h.carries
  cases hp : r.place with
  | quote style => cases style <;> simp [Reader.quoting, hp] at hquoting
  | head =>
    rw [hp] at hcarries
    exact (hcarries.2 hin).1
  | node | done =>
    rw [hp] at hcarries
    exact hcarries.2.1
  | plain =>
    rw [hp] at hcarries
    rw [hcarries.2.1]
    exact beq_eq_false_iff_ne.mpr hin.ne'

theorem Sync.not_flowPlain (h : Sync r s) (hquoting : r.quoting = false) (hflow : 0 < r.flow)
    (hplain : r.place ≠ .plain) : s.flowPlain = false := by
  have hin : 0 < s.flowDepth := h.flow ▸ hflow
  have hcarries := h.carries
  cases hp : r.place with
  | quote style => cases style <;> simp [Reader.quoting, hp] at hquoting
  | head =>
    rw [hp] at hcarries
    exact (hcarries.2 hin).2
  | node | done =>
    rw [hp] at hcarries
    exact hcarries.2.2 hin
  | plain => exact absurd hp hplain

/-- Both kinds of tag. -/
theorem Sync.tag (h : Sync r s) (hstarts : r.nodeStarts = true) {p : Piece} {cs : List Char}
    (htext : p.text = '!' :: cs) (hlength : tagLength (cs ++ rest) = cs.length) :
    Takes indent lineNo s before (r.opens.past p .node .other) p.text rest := by
  have hnode := h.inNode hstarts
  have hgo : s.char indent lineNo before '!' (cs ++ rest) = .go s.node cs.length := by
    rw [hnode.tag, hlength]
  rw [htext]
  refine ⟨_, _, (charsFrom_go hgo).trans (charsFrom_skip _ _ cs rest), ?_, ?_⟩
  · refine sync_node ⟨hnode.double, hnode.single⟩ rfl rfl (fun _ => rfl) ?_ ?_ ?_ fun hb => by
      cases hb
    · simpa [Scan.node] using h.flow
    · simpa [Scan.node] using h.context
    · simpa [Scan.node] using h.block
  · simp [Reader.past, htext]

/-- **A word** is passed over, or the scan refuses the document for it. -/
theorem Sync.word (h : Sync r s) {cs : List Char}
    (hcolumn : r.nodeStarts = true → (r.column = 0 ↔ before = []))
    (hlegal : r.word cs rest = true) (hsight : wordSight rest ' ' cs ≠ .other) :
    wordSight rest ' ' cs = .refused ∧ charsFrom indent lineNo s before 0 (cs ++ rest) = none ∨
      wordSight rest ' ' cs = .same ∧ Takes indent lineNo s before (r.move (.word cs)) cs rest := by
  cases cs with
  | nil => cases hlegal
  | cons c tail =>
    simp only [Reader.word, Bool.and_eq_true, Bool.or_eq_true, beq_iff_eq, bne_iff_ne, ne_eq,
      List.all_eq_true, Bool.not_eq_true'] at hlegal
    obtain ⟨⟨⟨⟨hbefore, hblank⟩, hlast⟩, hflat⟩, hfirst⟩ := hlegal
    have hlast' : (c :: tail).getLast? = some ':' → spacedOrEol rest = false := fun hcolon =>
      hlast.resolve_left fun hne => hne hcolon
    have hflow : 0 < s.flowDepth → ∀ d ∈ c :: tail, isFlowIndicator d = false := by
      intro hin
      exact hflat.resolve_left (h.flow ▸ hin.ne')
    have hmoved : (r.move (.word (c :: tail))).column ≠ 0 := by
      simp [Reader.move, Reader.past, Piece.text]
    have hrest : ∀ (s' : Scan) (b : Bool), s'.InPlain → s'.flowDepth = s.flowDepth →
        s'.ctxIndent = s.ctxIndent → s'.blockScalar = s.blockScalar →
        Sync (r.move (.word (c :: tail))) { s' with prevIsSpacing := b } := by
      intro s' b hplain hf hc hb
      exact sync_plain (hplain.prev b) (by simp [hf, h.flow]) (by simp [hc, h.context])
        (by simp [hb, h.block])
    rcases hfirst with ⟨hplace, -⟩ | ⟨hstarts, hbegins⟩
    · -- the scalar goes on
      have hplain := h.inPlain hplace
      have hprev : s.prevIsSpacing = isSpacing ' ' :=
        h.spacing hbefore (by simp [Reader.quoting, hplace])
      rcases hplain.word hprev hblank hflow hlast' hsight with hrefused | ⟨hsame, b, hrun⟩
      · exact .inl hrefused
      · exact .inr ⟨hsame, _, _, hrun, hrest s b hplain rfl rfl rfl, by simp [hmoved]⟩
    · -- it begins
      have hnode := h.inNode hstarts
      simp only [Reader.beginsPlain, Bool.and_eq_true, Bool.or_eq_true, Bool.not_eq_true',
        beq_iff_eq, Bool.or_eq_false_iff, Bool.and_eq_false_iff, beq_eq_false_iff_ne] at hbegins
      obtain ⟨⟨⟨hindicator, hspaced⟩, hkey⟩, hmarker⟩ := hbegins
      have hgo : s.char indent lineNo before c (tail ++ rest) = .go s.plain 0 := by
        refine hnode.beginPlain hindicator (hblank c (by simp)) ?_ ?_ ?_
        · intro hc
          refine hspaced.resolve_left fun hne => ?_
          rcases hc with rfl | rfl | rfl
          · exact hne.1.1 rfl
          · exact hne.1.2 rfl
          · exact hne.2 rfl
        · intro hin
          exact hkey.resolve_left (h.flow ▸ hin.ne')
        · intro hb hc
          have := (hmarker.resolve_left fun hne => hne ((hcolumn hstarts).mpr hb)).2
          exact this.resolve_left fun hne => hne hc
      have htail : wordSight rest ' ' (c :: tail) = wordSight rest c tail := by
        have hne : ∀ d : Char, isIndicator d = true → c ≠ d := by
          rintro d hd rfl
          exact Bool.false_ne_true (hindicator.symm.trans hd)
        rw [wordSight, if_neg (by simp [hne '#' (by decide)]),
          if_neg (by simp [hne '&' (by decide), hne '*' (by decide)])]
      have hlast'' : tail.getLast? = some ':' → spacedOrEol rest = false := by
        cases tail with
        | nil => simp
        | cons d tail => simpa using hlast'
      have hplain : ({ s.plain with prevIsSpacing := isSpacing c } : Scan).InPlain :=
        hnode.plain.prev _
      rw [htail] at hsight ⊢
      rcases @InPlain.word indent lineNo _ (c :: before) rest hplain _ _ rfl
        (fun d hd => hblank d (by simp [hd])) (fun hin d hd => hflow hin d (by simp [hd])) hlast''
        hsight with ⟨hrefused, hnone⟩ | ⟨hsame, b, hrun⟩
      · exact .inl ⟨hrefused, (charsFrom_go hgo).trans hnone⟩
      · exact .inr ⟨hsame, _, _, (charsFrom_go hgo).trans hrun, hrest _ b hplain rfl rfl rfl,
          by simp [hmoved]⟩

/-- The rest of a quoted scalar, on one line. -/
theorem Carries.quoted (indent lineNo : ℕ) {style : Style} (h : Carries s (.quote style))
    {closes : Bool} {cs : List Char} (hbody : style.body closes cs rest = true)
    (heven : (before.takeWhile (· = '\\')).length % 2 = 0) :
    ∃ s' before', charsFrom indent lineNo s before 0
      (cs ++ ((if closes then [style.quote] else []) ++ rest)) =
        charsFrom indent lineNo s' before' 0 rest ∧
        Carries s' (if closes then .done else .quote style) ∧
      s'.flowDepth = s.flowDepth ∧ s'.ctxIndent = s.ctxIndent ∧ s'.blockScalar = s.blockScalar := by
  obtain ⟨hdouble, hsingle, hpending, hflat⟩ := h
  cases style with
  | single =>
    obtain ⟨hcs, hnext⟩ : singleBody cs = true ∧ rest.head? ≠ some '\'' := by
      simpa [Style.body] using hbody
    obtain ⟨b, before', hrun⟩ := inSingle_body indent lineNo before
      ((if closes then ['\''] else []) ++ rest) hdouble hsingle hcs
    cases closes with
    | false => exact ⟨_, before', hrun, ⟨hdouble, hsingle, hpending, hflat⟩, rfl, rfl, rfl⟩
    | true =>
      have hgo : ({ s with prevIsSpacing := b } : Scan).char indent lineNo before' '\'' rest =
          .go { ({ s with prevIsSpacing := b } : Scan).endQuote with
          inSingleQuote := false } 0 := by
        have hd : s.inDoubleQuote = false := hdouble
        have hs : s.inSingleQuote = true := hsingle
        simp [Scan.char, hd, hs, Scan.inSingle, hnext]
      exact ⟨_, _, hrun.trans (charsFrom_go hgo), ⟨⟨hdouble, rfl⟩, hpending, fun _ => rfl⟩,
        rfl, rfl, rfl⟩
  | double =>
    obtain ⟨b, before', hrun, heven'⟩ := inDouble_body indent lineNo
      ((if closes then ['"'] else []) ++ rest) hdouble hbody heven
    cases closes with
    | false => exact ⟨_, before', hrun, ⟨hdouble, hsingle, hpending, hflat⟩, rfl, rfl, rfl⟩
    | true =>
      have hgo : ({ s with prevIsSpacing := b } : Scan).char indent lineNo before' '"' rest =
          .go { ({ s with prevIsSpacing := b } : Scan).endQuote with
          inDoubleQuote := false } 0 := by
        have hd : s.inDoubleQuote = true := hdouble
        simp [Scan.char, hd, Scan.inDouble, heven' rfl]
      exact ⟨_, _, hrun.trans (charsFrom_go hgo), ⟨⟨rfl, hsingle⟩, hpending, fun _ => rfl⟩,
        rfl, rfl, rfl⟩

/-- After the part of a quoted scalar that is on the line. -/
theorem sync_quoted {style : Style} {opens closes : Bool} {cs : List Char}
    (hcarries : Carries s (if closes then .done else .quote style)) (hflow : s.flowDepth = r.flow)
    (hcontext : s.ctxIndent = r.context) (hblock : s.blockScalar.map Prod.fst = r.block) :
    Sync (r.move (.quoted style opens cs closes)) s where
  carries := hcarries
  flow := by cases opens <;> simp [Reader.move, hflow]
  context := by cases opens <;> simp [Reader.move, hcontext]
  block := by cases opens <;> simp [Reader.move, hblock]
  starts hs := by cases closes <;> cases hs
  inside hp := by cases closes <;> cases hp
  spacing hs := by cases hs

theorem Sync.quoted (h : Sync r s) {style : Style} {opens closes : Bool} {cs : List Char}
    (hplace : if opens then r.nodeStarts = true else r.place = .quote style)
    (hbefore : opens = false → (before.takeWhile (· = '\\')).length % 2 = 0)
    (hbody : style.body closes cs rest = true) :
    Takes indent lineNo s before (r.move (.quoted style opens cs closes))
      (Piece.quoted style opens cs closes).text rest := by
  have hplace' : (r.move (.quoted style opens cs closes)).nodeStarts = false := by
    cases closes <;> rfl
  cases opens with
  | false =>
    have hcarries : Carries s (.quote style) := by
      have := h.carries
      rwa [hplace] at this
    obtain ⟨s', before', hrun, hend, hf, hc, hb⟩ := hcarries.quoted indent lineNo
      hbody (hbefore rfl)
    refine ⟨s', before', ?_, sync_quoted hend (hf.trans h.flow) (hc.trans h.context)
      (hb ▸ h.block), ?_⟩
    · simpa [Piece.text] using hrun
    · simp [hplace']
  | true =>
    have hnode := h.inNode hplace
    have hopen : ∃ s₁ : Scan, s.char indent lineNo before style.quote
        (cs ++ ((if closes then [style.quote] else []) ++ rest)) = .go s₁ 0 ∧
        Carries s₁ (.quote style) ∧
        s₁.flowDepth = s.flowDepth ∧ s₁.ctxIndent = s.ctxIndent ∧
        s₁.blockScalar = s.blockScalar := by
      have hstart := hnode.atNodeStart
      cases style with
      | single =>
        refine ⟨{ s with inSingleQuote := true, plainPending := false, flowPlain := false }, ?_,
          ⟨hnode.double, rfl, rfl, rfl⟩, rfl, rfl, rfl⟩
        rw [hnode.toBare.char, Scan.token, if_neg (by simp [Style.quote]), if_pos ⟨rfl, hstart⟩]
      | double =>
        refine ⟨{ s with inDoubleQuote := true, plainPending := false, flowPlain := false }, ?_,
          ⟨rfl, hnode.single, rfl, rfl⟩, rfl, rfl, rfl⟩
        rw [hnode.toBare.char, Scan.token, if_pos ⟨rfl, hstart⟩]
    obtain ⟨s₁, hgo, hcarries, hf₁, hc₁, hb₁⟩ := hopen
    have hcarries₁ : Carries { s₁ with prevIsSpacing := isSpacing style.quote }
      (.quote style) := hcarries
    have heven :
      ((style.quote :: before).takeWhile (· = '\\')).length % 2 = 0 := by cases style <;> rfl
    obtain ⟨s', before', hrun, hend, hf, hc, hb⟩ := hcarries₁.quoted indent lineNo
      hbody heven
    refine ⟨s', before', ?_, sync_quoted hend ?_ ?_ ?_, ?_⟩
    · have htext : (Piece.quoted style true cs closes).text ++ rest =
          style.quote :: (cs ++ ((if closes then [style.quote] else []) ++ rest)) := by
        simp [Piece.text]
      rw [htext]
      exact (charsFrom_go hgo).trans hrun
    · exact hf.trans (hf₁.trans h.flow)
    · exact hc.trans (hc₁.trans h.context)
    · rw [hb]
      exact hb₁ ▸ h.block
    · simp [hplace']

/-! ## The pieces of a line -/

@[simp] theorem textOf_nil : textOf [] = [] := rfl

@[simp] theorem textOf_cons (p : Piece) (ps : List Piece) :
    textOf (p :: ps) = p.text ++ textOf ps := rfl

theorem Reader.readPieces_cons {p : Piece} {ps : List Piece}
    (h : r.readPieces (p :: ps) = some r') :
    p.legal r ps = true ∧ (r.move p).readPieces ps = some r' := by
  rw [Reader.readPieces] at h
  split at h
  · exact ⟨‹_›, h⟩
  · cases h

@[simp] theorem Reader.move_indent (r : Reader) (p : Piece) : (r.move p).indent = r.indent := by
  have hopens : r.opens.indent = r.indent := by
    unfold Reader.opens Reader.unroll
    split <;> rfl
  have hroll : ∀ column, (r.roll column).indent = r.indent := by
    intro column
    unfold Reader.roll Reader.unroll
    split <;> rfl
  cases p with
  | quoted style opens cs closes => cases opens <;> simp [Reader.move, Reader.past, hopens]
  | header c indicators trailing =>
    have hunroll : r.unroll.indent = r.indent := by
      unfold Reader.unroll
      split <;> rfl
    simp [Reader.move, Reader.past, hunroll]
  | _ => simp [Reader.move, Reader.past, hopens, hroll]

theorem Reader.piecesSight_cons {p : Piece} {ps : List Piece} (h : p.sight r (textOf ps) = .same) :
    r.piecesSight (p :: ps) = (r.move p).piecesSight ps := by
  rw [Reader.piecesSight, h]

theorem Reader.piecesSight_of_ne {p : Piece} {ps : List Piece} (h : p.sight r (textOf ps) ≠ .same) :
    r.piecesSight (p :: ps) = p.sight r (textOf ps) := by
  rw [Reader.piecesSight]
  split
  · rename_i hsame
    exact absurd hsame h
  · rfl

/-- After the end of the document there is no anchor. -/
theorem Reader.not_anchored_of_ended {ps : List Piece} (hended : r.ended = true)
    (h : r.readPieces ps = some r') :
    ps.any Piece.isAnchor = false ∧ r.piecesSight ps ≠ .refused ∧ r'.ended = true := by
  induction ps generalizing r with
  | nil => exact ⟨rfl, nofun, Option.some.inj h ▸ hended⟩
  | cons p ps ih =>
    obtain ⟨hlegal, hrest⟩ := Reader.readPieces_cons h
    cases p with
    | blanks cs =>
      obtain ⟨hnone, hsight, hend⟩ := ih (r := r.move (.blanks cs)) hended hrest
      exact ⟨by simpa [Piece.isAnchor] using hnone, hsight, hend⟩
    | comment cs =>
      obtain ⟨hnone, hsight, hend⟩ := ih (r := r.move (.comment cs)) hended hrest
      refine ⟨by simpa [Piece.isAnchor] using hnone, ?_, hend⟩
      by_cases hquote : r.before = .quote
      · rw [Reader.piecesSight_of_ne (by simp [Piece.sight, hquote])]
        simp [Piece.sight, hquote]
      · rwa [Reader.piecesSight_cons (by simp [Piece.sight, hquote])]
    | _ => simp [Piece.legal, hended] at hlegal

/-- The scan of the rest of a line: it refuses the document, or there is no anchor, and the scan is
in step with the parser at the end of the line, if the document goes on. -/
def ScansTo (indent lineNo : ℕ) (s : Scan) (before : List Char) (r : Reader) (ps : List Piece)
    (r' : Reader) : Prop :=
  charsFrom indent lineNo s before 0 (textOf ps) = none ∨
    ps.any Piece.isAnchor = false ∧ r.piecesSight ps ≠ .refused ∧
      (r'.ended = true ∨ ∃ s', charsFrom indent lineNo s before 0 (textOf ps) = some s' ∧
       Between r' s')

theorem Takes.scansTo {p : Piece} {ps : List Piece}
    (h : Takes indent lineNo s before (r.move p) p.text (textOf ps)) (hp : p.isAnchor = false)
    (hsight : r.piecesSight (p :: ps) = (r.move p).piecesSight ps)
    (hrest : ∀ s' before', Sync (r.move p) s' →
      ((r.move p).nodeStarts = true → ((r.move p).column = 0 ↔ before' = [])) →
      ScansTo indent lineNo s' before' (r.move p) ps r') :
    ScansTo indent lineNo s before r (p :: ps) r' := by
  obtain ⟨s', before', hrun, hsync, hcolumn⟩ := h
  rw [ScansTo, textOf_cons, hrun, List.any_cons, hp, Bool.false_or, hsight]
  exact hrest s' before' hsync hcolumn

/-- **The pieces of a line.** -/
theorem Sync.pieces {ps : List Piece} (h : Sync r s) (hindent : r.indent = indent)
    (hcolumn : r.nodeStarts = true → (r.column = 0 ↔ before = []))
    (hquote : r.quoting = true → (before.takeWhile (· = '\\')).length % 2 = 0)
    (hread : r.readPieces ps = some r') (hseen : r.piecesSight ps ≠ .other) :
    ScansTo indent lineNo s before r ps r' := by
  induction ps generalizing r s before with
  | nil => exact .inr ⟨rfl, nofun, .inr ⟨s, charsFrom_nil _ _ _, Option.some.inj hread ▸ h.toBetween⟩⟩
  | cons p ps ih =>
    obtain ⟨hlegal, hrest⟩ := Reader.readPieces_cons hread
    have hindent' : (r.move p).indent = indent := by rw [Reader.move_indent, hindent]
    have hgoes : Takes indent lineNo s before (r.move p) p.text (textOf ps) → p.isAnchor = false →
        p.sight r (textOf ps) = .same → (r.move p).quoting = false →
        ScansTo indent lineNo s before r (p :: ps) r' := by
      intro htakes hp hsame hquoting
      have hsight := Reader.piecesSight_cons hsame
      refine htakes.scansTo hp hsight fun s' before' hsync hcol =>
        ih hsync hindent' hcol ?_ hrest ?_
      · simp [hquoting]
      · rwa [← hsight]
    have hfound : ∀ c name, (c = '&' ∨ c = '*') → p.text = c :: name → r.nodeStarts = true →
      r.before = .spacing →
        name.isEmpty = false → name.all isAnchorChar = true →
        ScansTo indent lineNo s before r (p :: ps) r' := by
      intro c name hc htext hstarts hbefore hne hname
      have hquoting : r.quoting = false := by
        have hplace : r.place = .head ∨ r.place = .node := by
          simpa [Reader.nodeStarts] using hstarts
        rcases hplace with hp | hp <;> simp [Reader.quoting, hp]
      refine .inl ?_
      rw [textOf_cons, htext, List.cons_append, charsFrom_cons,
        (h.inNode hstarts).toBare.found (h.spacing hbefore hquoting) hc (by simpa using hne) hname]
    cases p with
    | anchor name =>
      simp only [Piece.legal, Bool.and_eq_true, Bool.not_eq_true', beq_iff_eq] at hlegal
      obtain ⟨⟨⟨⟨hstarts, hbefore⟩, hne⟩, hname⟩, -⟩ := hlegal
      exact hfound '&' name (.inl rfl) rfl hstarts hbefore hne hname
    | aliasOf name =>
      simp only [Piece.legal, Bool.and_eq_true, Bool.not_eq_true', beq_iff_eq] at hlegal
      obtain ⟨⟨⟨⟨hstarts, hbefore⟩, hne⟩, hname⟩, -⟩ := hlegal
      exact hfound '*' name (.inr rfl) rfl hstarts hbefore hne hname
    | comment cs =>
      simp only [Piece.legal, Bool.and_eq_true, Bool.not_eq_true', bne_iff_ne, ne_eq,
        List.isEmpty_iff] at hlegal
      obtain ⟨⟨hquoting, hother⟩, rfl⟩ := hlegal
      have hspacing : r.before = .spacing := by
        cases hb : r.before with
        | spacing => rfl
        | quote => simp [Reader.piecesSight, Piece.sight, hb] at hseen
        | other => exact absurd hb hother
      have hsame : Piece.sight (.comment cs) r [] = .same := by simp [Piece.sight, hspacing]
      have hsight : r.piecesSight [.comment cs] ≠ .refused := by
        rw [Reader.piecesSight_cons hsame]
        nofun
      have hbare := h.bare hquoting
      have hend : s.char indent lineNo before '#' (cs ++ []) =
          .endLine { s with plainPending := false, flowPlain := false } :=
        hbare.comment (h.spacing hspacing hquoting)
      refine .inr ⟨rfl, hsight, .inr ⟨{ s with plainPending := false, flowPlain := false }, ?_, ?_⟩⟩
      · show charsFrom indent lineNo s before 0 ('#' :: (cs ++ [])) = _
        rw [charsFrom_cons, hend]
      · obtain rfl : r.move (.comment cs) = r' := Option.some.inj hrest
        exact ⟨⟨⟨hbare.double, hbare.single⟩, rfl, fun _ => rfl⟩, h.flow, h.context, h.block⟩
    | header c indicators trailing =>
      simp only [Piece.legal, Bool.and_eq_true, Bool.or_eq_true, Bool.not_eq_true', beq_iff_eq,
        List.isEmpty_iff] at hlegal
      obtain ⟨⟨⟨⟨⟨⟨hstarts, hflow⟩, hc⟩, hind⟩, htrail⟩, rfl⟩, -⟩ := hlegal
      have hnode := h.inNode hstarts
      have hend : s.char indent lineNo before c (indicators ++ trailing) =
          .endLine { s with blockScalar := some (indent, lineNo), plainPending := false } :=
        hnode.header (h.flow.trans hflow) hc hind htrail
      refine .inr ⟨rfl, nofun,
        .inr ⟨{ s with blockScalar := some (indent, lineNo), plainPending := false }, ?_, ?_⟩⟩
      · show charsFrom indent lineNo s before 0 (c :: indicators ++ trailing ++ []) = _
        rw [List.append_nil, List.cons_append, charsFrom_cons, hend]
      · obtain rfl : r.move (.header c indicators trailing) = r' := Option.some.inj hrest
        refine ⟨⟨⟨hnode.double, hnode.single⟩, rfl, hnode.flowPlain⟩, ?_, ?_, ?_⟩
        · simpa [Reader.move] using h.flow
        · simpa [Reader.move] using h.context
        · simp [Reader.move, hindent]
    | documentEnd =>
      have hended : (r.move .documentEnd).ended = true := rfl
      obtain ⟨hnone, hsight, hend⟩ := Reader.not_anchored_of_ended hended hrest
      exact .inr ⟨by simpa [Piece.isAnchor] using hnone, hsight, .inl hend⟩
    | quoted style opens cs closes =>
      simp only [Piece.legal, Bool.and_eq_true, Bool.or_eq_true, Bool.not_eq_true',
        List.isEmpty_iff] at hlegal
      obtain ⟨⟨⟨hplace, hbody⟩, hclose⟩, -⟩ := hlegal
      have htakes : Takes indent lineNo s before (r.move (.quoted style opens cs closes))
          (Piece.quoted style opens cs closes).text (textOf ps) := by
        refine h.quoted ?_ (fun hopens => hquote ?_) hbody
        · cases opens with
          | true => simpa using hplace
          | false => simpa using hplace
        · have hp : r.place = .quote style := by simpa [hopens] using hplace
          cases style <;> simp [Reader.quoting, hp]
      cases closes with
      | true => exact hgoes htakes rfl rfl rfl
      | false =>
        -- the line ends in the scalar
        obtain rfl : ps = [] := by simpa using hclose
        refine htakes.scansTo rfl rfl fun s' before' hsync _ =>
          .inr ⟨rfl, nofun, .inr ⟨s', charsFrom_nil _ _ _, ?_⟩⟩
        exact Option.some.inj hrest ▸ hsync.toBetween
    | blanks cs =>
      simp only [Piece.legal, Bool.and_eq_true, Bool.not_eq_true'] at hlegal
      obtain ⟨⟨hne, hcs⟩, hquoting⟩ := hlegal
      exact hgoes (h.blanks (List.all_eq_true.mp hcs) (by simpa using hne)) rfl rfl hquoting
    | documentStart =>
      simp only [Piece.legal, Bool.and_eq_true, Bool.not_eq_true', beq_iff_eq] at hlegal
      obtain ⟨⟨⟨⟨hplace, hcol⟩, hflow⟩, hnext⟩, -⟩ := hlegal
      obtain rfl : before = [] := (hcolumn (by simp [Reader.nodeStarts, hplace])).mp hcol
      exact hgoes (h.documentStart hplace hflow hnext) rfl rfl rfl
    | blockEntry =>
      simp only [Piece.legal, Bool.and_eq_true, Bool.not_eq_true', beq_iff_eq] at hlegal
      obtain ⟨⟨⟨hstarts, -⟩, hnext⟩, -⟩ := hlegal
      have hnode := h.inNode hstarts
      exact hgoes (h.indicator hnode.toBare hindent rfl rfl r.column (hnode.blockEntry hnext))
        rfl rfl rfl
    | key =>
      simp only [Piece.legal, Bool.and_eq_true, Bool.or_eq_true, Bool.not_eq_true',
        decide_eq_true_eq] at hlegal
      obtain ⟨⟨hstarts, hnext⟩, -⟩ := hlegal
      have hnode := h.inNode hstarts
      have hnext' : spacedOrEol (textOf ps) = true ∨ 0 < s.flowDepth :=
        hnext.symm.imp id (h.flow ▸ ·)
      exact hgoes (h.indicator hnode.toBare hindent rfl rfl r.column (hnode.key hnext')) rfl rfl rfl
    | value =>
      simp only [Piece.legal, Bool.and_eq_true, Bool.or_eq_true, Bool.not_eq_true',
        decide_eq_true_eq, bne_iff_ne, ne_eq] at hlegal
      obtain ⟨⟨hquoting, hnext⟩, -⟩ := hlegal
      have hbare := h.bare hquoting
      have hnext' : spacedOrEol (textOf ps) = true ∨ 0 < s.flowDepth ∧ s.flowPlain = false := by
        exact hnext.imp id fun hin => ⟨h.flow ▸ hin.1, h.not_flowPlain hquoting hin.1 hin.2⟩
      exact hgoes (h.indicator hbare hindent rfl rfl (r.keyColumn.getD r.column)
        (hbare.value hnext')) rfl rfl rfl
    | flowEntry =>
      simp only [Piece.legal, Bool.and_eq_true, Bool.not_eq_true', decide_eq_true_eq] at hlegal
      obtain ⟨⟨hquoting, hflow⟩, -⟩ := hlegal
      exact hgoes (h.flowEntry hquoting hflow (h.not_pending hquoting hflow)) rfl rfl rfl
    | flowStart c =>
      simp only [Piece.legal, Bool.and_eq_true, Bool.or_eq_true, Bool.not_eq_true',
        beq_iff_eq] at hlegal
      obtain ⟨⟨hc, hstarts⟩, -⟩ := hlegal
      exact hgoes (h.flowStart hstarts hc) rfl rfl rfl
    | flowEnd c =>
      simp only [Piece.legal, Bool.and_eq_true, Bool.or_eq_true, Bool.not_eq_true', beq_iff_eq,
        decide_eq_true_eq] at hlegal
      obtain ⟨⟨⟨hc, hquoting⟩, hflow⟩, -⟩ := hlegal
      exact hgoes (h.flowEnd hquoting (h.not_pending hquoting hflow) hc) rfl rfl rfl
    | tag cs =>
      simp only [Piece.legal, Bool.and_eq_true, Bool.not_eq_true', bne_iff_ne, ne_eq] at hlegal
      obtain ⟨⟨⟨⟨hstarts, hverbatim⟩, hcs⟩, hnext⟩, -⟩ := hlegal
      exact hgoes (h.tag hstarts rfl (tagLength_tag hverbatim hcs hnext)) rfl rfl rfl
    | verbatimTag cs =>
      simp only [Piece.legal, Bool.and_eq_true, Bool.not_eq_true'] at hlegal
      obtain ⟨⟨⟨hstarts, hcs⟩, -⟩, -⟩ := hlegal
      have hlength : tagLength (('<' :: cs ++ ['>']) ++ textOf ps) =
        ('<' :: cs ++ ['>']).length := by
        rw [List.append_assoc]
        exact tagLength_verbatim hcs
      exact hgoes (h.tag hstarts rfl hlength) rfl rfl rfl
    | word cs =>
      simp only [Piece.legal, Bool.and_eq_true, Bool.not_eq_true'] at hlegal
      have hsight : wordSight (textOf ps) ' ' cs ≠ .other := by
        intro hother
        refine hseen ?_
        rw [Reader.piecesSight_of_ne (by simp [Piece.sight, hother]), Piece.sight, hother]
      rcases h.word hcolumn hlegal.1 hsight with ⟨-, hnone⟩ | ⟨hsame, htakes⟩
      · exact .inl hnone
      · exact hgoes htakes rfl hsame rfl

end Yaml

end ProtonWire
