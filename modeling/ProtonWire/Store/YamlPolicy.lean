import ProtonWire.Store.YamlSync

/-!
# Anchors and aliases are refused

* `Between.head`, `Between.alike`, `Between.tokens`: the head of a line, and a line of tokens;
* `Between.line`, `Between.lines`: a whole line, and the lines of a document;
* `lines_text`: the lines the scan sees are the lines of the document, whatever their breaks;
* **`anchors_refused`**: a document with an anchor or an alias in it is refused before it is parsed,
  if up to what it is refused for nothing in it is taken for something else;
* `glued_hash`: a document that is not.
-/

namespace ProtonWire

namespace Yaml

open Scan

variable {r r' : Reader} {s : Scan} {indent lineNo : ℕ} {before rest : List Char}

/-! ## One line -/

theorem Reader.blank_of_head {ps : List Piece} (h : r.readPieces ps = some r')
    (hplace : r'.place = .head) :
    r.place = .head ∧ (textOf ps).all isBlank = true := by
  induction ps generalizing r with
  | nil => exact ⟨(Option.some.inj h) ▸ hplace, rfl⟩
  | cons p ps ih =>
    obtain ⟨hlegal, hrest⟩ := Reader.readPieces_cons h
    obtain ⟨hhead, hblank⟩ := ih hrest
    cases p with
    | blanks cs =>
      simp only [Piece.legal, Bool.and_eq_true] at hlegal
      exact ⟨hhead, by rw [textOf_cons, List.all_append, hblank, Bool.and_true]; exact hlegal.1.2⟩
    | quoted style opens cs closes => cases closes <;> cases hhead
    | _ => cases hhead

theorem anchored_not_blank {ps : List Piece} (h : (textOf ps).all isBlank = true) :
    ps.any Piece.isAnchor = false := by
  induction ps with
  | nil => rfl
  | cons p ps ih =>
    rw [textOf_cons, List.all_append, Bool.and_eq_true] at h
    rw [List.any_cons, ih h.2, Bool.or_false]
    cases p with
    | anchor name => exact absurd h.1 (by simp [Piece.text, isBlank])
    | aliasOf name => exact absurd h.1 (by simp [Piece.text, isBlank])
    | _ => rfl

/-- The characters tokens that are no plain scalars begin with. -/
def opensToken (c : Char) : Bool :=
  ['-', '.', '?', ':', ',', '[', ']', '{', '}', '!', '&', '*', '\'', '"', '|', '>'].contains c

/-- **The first character of a piece** outside quoted scalars. -/
theorem Piece.legal_first {p : Piece} {ps : List Piece} (h : p.legal r ps = true)
    (hquoting : r.quoting = false) :
    ∃ c cs, p.text = c :: cs ∧ (opensToken c = true ∨ p = .blanks (c :: cs) ∧ isBlank c = true ∨
      p = .comment cs ∧ c = '#' ∨ p = .word (c :: cs) ∧ r.word (c :: cs) (textOf ps) = true) := by
  cases p with
  | blanks ds =>
    simp only [Piece.legal, Bool.and_eq_true, Bool.not_eq_true', List.isEmpty_eq_false_iff] at h
    obtain ⟨d, ds, rfl⟩ := List.exists_cons_of_ne_nil h.1.1
    exact ⟨d, ds, rfl, .inr (.inl ⟨rfl, List.all_eq_true.mp h.1.2 d List.mem_cons_self⟩)⟩
  | comment ds => exact ⟨'#', ds, rfl, .inr (.inr (.inl ⟨rfl, rfl⟩))⟩
  | word ds =>
    rw [Piece.legal, Bool.and_eq_true] at h
    cases ds with
    | nil => cases h.1
    | cons d ds => exact ⟨d, ds, rfl, .inr (.inr (.inr ⟨rfl, h.1⟩))⟩
  | quoted style opens ds closes =>
    cases opens with
    | true => exact ⟨style.quote, _, rfl, .inl (by cases style <;> rfl)⟩
    | false =>
      simp only [Piece.legal, Bool.and_eq_true] at h
      have hplace : r.place = .quote style := by simpa using h.1.1.1
      cases style <;> simp [Reader.quoting, hplace] at hquoting
  | flowStart d =>
    simp only [Piece.legal, Bool.and_eq_true, Bool.or_eq_true, beq_iff_eq] at h
    exact ⟨d, [], rfl, .inl (by rcases h.1.1 with rfl | rfl <;> rfl)⟩
  | flowEnd d =>
    simp only [Piece.legal, Bool.and_eq_true, Bool.or_eq_true, beq_iff_eq] at h
    exact ⟨d, [], rfl, .inl (by rcases h.1.1.1 with rfl | rfl <;> rfl)⟩
  | header d indicators trailing =>
    simp only [Piece.legal, Bool.and_eq_true, Bool.or_eq_true, beq_iff_eq] at h
    exact ⟨d, _, rfl, .inl (by rcases h.1.1.1.1.2 with rfl | rfl <;> rfl)⟩
  | _ => exact ⟨_, _, rfl, .inl rfl⟩

theorem Reader.head_ne_mark {ps : List Piece} {c : Char} {cs : List Char}
    (h : r.readPieces ps = some r')
    (hplace : r.place = .head) (hcolumn : r.column = 0) (htext : textOf ps = c :: cs) :
    c ≠ byteOrderMark := by
  cases ps with
  | nil => cases htext
  | cons p ps =>
    have hlegal := (Reader.readPieces_cons h).1
    obtain ⟨d, ds, hp, hfirst⟩ := Piece.legal_first hlegal (by simp [Reader.quoting, hplace])
    rw [textOf_cons, hp, List.cons_append] at htext
    obtain rfl := (List.cons.inj htext).1
    rintro rfl
    rcases hfirst with htoken | ⟨-, hblank⟩ | ⟨-, hhash⟩ | ⟨-, hword⟩
    · exact absurd htoken (by decide)
    · exact absurd hblank (by decide)
    · exact absurd hhash (by decide)
    · simp [Reader.word, Reader.beginsPlain, hplace, hcolumn] at hword

/-- **The head of a line** on which the parser reads tokens. -/
theorem Between.head (h : Between r s) (hplace : r.place ≠ .head) {text : List Char}
    (hseen : r.place = .plain → r.flow = 0 →
     r.deeper (indentOf text) = decide (r.context < indentOf text)) :
    Sync (r.startLine text) (({ s with blockScalar := none } : Scan).head (indentOf text)) := by
  have hcarries := h.carries
  have hflow := h.flow
  cases hp : r.place with
  | head => exact absurd hp hplace
  | node | done =>
    rw [hp] at hcarries
    obtain ⟨hbare, hpending, hflat⟩ := hcarries
    have hplace' : (r.startLine text).place = .head := by simp [Reader.startLine, hp]
    refine ⟨⟨?_, hflow, h.context, rfl⟩, fun _ => ?_, fun hin => ?_, fun _ _ => rfl⟩
    · rw [hplace']
      exact ⟨⟨hbare.double, hbare.single⟩, fun hin => ⟨hpending, hflat hin⟩⟩
    · show (if 0 < s.flowDepth then !s.flowPlain else !(s.plainPending && _)) = true
      split
      · rename_i hin
        rw [hflat hin]
        rfl
      · rw [hpending]
        rfl
    · rw [hplace'] at hin
      cases hin
  | plain =>
    rw [hp] at hcarries
    obtain ⟨hbare, hpending, hflat⟩ := hcarries
    by_cases hgoes : 0 < r.flow ∨ r.deeper (indentOf text) = true
    · -- the scalar goes on
      have hplace' : (r.startLine text).place = .plain := by simp [Reader.startLine, hp, hgoes]
      refine ⟨⟨?_, hflow, h.context, rfl⟩, fun hin => ?_, fun _ => ?_, fun _ _ => rfl⟩
      · rw [hplace']
        exact ⟨⟨hbare.double, hbare.single⟩, hpending, hflat⟩
      · simp [Reader.nodeStarts, hplace'] at hin
      · show (if 0 < s.flowDepth then !s.flowPlain else
          !(s.plainPending && decide (s.ctxIndent < indentOf text))) = false
        split
        · rename_i hin
          simp [hflat, hin]
        · rename_i hout
          have hzero : r.flow = 0 := by omega
          have hdeeper := hgoes.resolve_left (by omega)
          rw [hseen hp hzero] at hdeeper
          rw [hpending, hflow, hzero, h.context, hdeeper]
          rfl
    · have hzero : r.flow = 0 := by omega
      have hshallow : r.deeper (indentOf text) = false := by simpa [hzero] using hgoes
      have hplace' : (r.startLine text).place = .head := by simp [Reader.startLine, hp, hgoes]
      refine ⟨⟨?_, hflow, h.context, rfl⟩, fun _ => ?_, fun hin => ?_, fun _ _ => rfl⟩
      · rw [hplace']
        refine ⟨⟨hbare.double, hbare.single⟩, fun hin => ?_⟩
        have hin' : 0 < s.flowDepth := hin
        omega
      · show (if 0 < s.flowDepth then !s.flowPlain else
          !(s.plainPending && decide (s.ctxIndent < indentOf text))) = true
        rw [if_neg (by omega), h.context, ← hseen hp hzero, hshallow, Bool.and_false]
        rfl
      · rw [hplace'] at hin
        cases hin
  | quote style =>
    rw [hp] at hcarries
    have hplace' : (r.startLine text).place = .quote style := by simp [Reader.startLine, hp]
    refine ⟨⟨?_, hflow, h.context, rfl⟩, fun hin => ?_, fun hin => ?_, fun _ _ => rfl⟩
    · rw [hplace']
      exact hcarries
    · simp [Reader.nodeStarts, hplace'] at hin
    · rw [hplace'] at hin
      cases hin

theorem charsFrom_quoted {style : Style} (h : Carries s (.quote style)) {c : Char} (b : Bool) :
    charsFrom indent lineNo s before 0 (c :: rest) =
      charsFrom indent lineNo { s with prevIsSpacing := b } before 0 (c :: rest) := by
  obtain ⟨hdouble, hsingle, -⟩ := h
  cases style with
  | single =>
    have hchar : ∀ b, ({ s with prevIsSpacing := b } : Scan).char indent lineNo before c rest =
        ({ s with prevIsSpacing := b } : Scan).inSingle c rest := by
      intro b
      have hd : s.inDoubleQuote = false := hdouble
      have hs : s.inSingleQuote = true := hsingle
      simp [Scan.char, hd, hs]
    rw [charsFrom_cons, charsFrom_cons, hchar b, hchar s.prevIsSpacing]
    by_cases hc : c = '\''
    · by_cases hpair : rest.head? = some '\''
      · rw [Scan.inSingle, Scan.inSingle, if_pos hc, if_pos hc, if_pos hpair, if_pos hpair]
      · rw [Scan.inSingle, Scan.inSingle, if_pos hc, if_pos hc, if_neg hpair, if_neg hpair]
        rfl
    · rw [Scan.inSingle, Scan.inSingle, if_neg hc, if_neg hc]
  | double =>
    have hchar : ∀ b, ({ s with prevIsSpacing := b } : Scan).char indent lineNo before c rest =
        ({ s with prevIsSpacing := b } : Scan).inDouble before c := by
      intro b
      have hd : s.inDoubleQuote = true := hdouble
      simp [Scan.char, hd]
    rw [charsFrom_cons, charsFrom_cons, hchar b, hchar s.prevIsSpacing]
    by_cases hc : c = '"' ∧ (before.takeWhile (· = '\\')).length % 2 = 0
    · rw [Scan.inDouble, Scan.inDouble, if_pos hc, if_pos hc]
      rfl
    · rw [Scan.inDouble, Scan.inDouble, if_neg hc, if_neg hc]

theorem isWhitespace_of_isBlank {c : Char} (h : isBlank c = true) : isWhitespace c = true := by
  have hcases : c = ' ' ∨ c = '\t' := by simpa [isBlank] using h
  rcases hcases with rfl | rfl <;> rfl

theorem Between.reset (h : Between r s) (start prev : Bool) :
    Between r { s with atNodeStart := start, prevIsSpacing := prev } :=
  ⟨h.carries.reset start prev, h.flow, h.context, h.block⟩

theorem Between.not_swallowed (h : Between r s) {text : List Char}
    (hblock : ∀ header, r.block = some header → text.all isWhitespace = false ∧
     ¬ header < indentOf text) :
    s.swallows text = false := by
  rw [Scan.swallows]
  cases hb : s.blockScalar with
  | none => rfl
  | some b =>
    have hheader : r.block = some b.1 := by rw [← h.block, hb]; rfl
    obtain ⟨hspace, hdepth⟩ := hblock _ hheader
    simp [hspace, hdepth]

theorem Between.swallowed (h : Between r s) {text : List Char} {header : ℕ}
    (hblock : r.block = some header)
    (hcontent : text.all isBlank = true ∨ header < indentOf text) : s.swallows text = true := by
  obtain ⟨b, hb, hheader⟩ : ∃ b, s.blockScalar = some b ∧ b.1 = header := by
    have := h.block.trans hblock
    simpa using this
  rw [Scan.swallows, hb]
  rcases hcontent with hblank | hdeep
  · have hspace : text.all isWhitespace = true :=
      List.all_eq_true.mpr fun c hc => isWhitespace_of_isBlank (List.all_eq_true.mp hblank c hc)
    simp [hspace]
  · simp [hheader, hdeep]

theorem Between.blank (h : Between r s) (lineNo : ℕ) (hblock : r.block = none) {text : List Char}
    (hblank : text.all isBlank = true) : ∃ s', s.line lineNo text = some s' ∧ Between r s' := by
  have hnone : s.blockScalar = none := by simpa [hblock] using h.block
  have hsame : ({ s with blockScalar := none } : Scan) = s := by rw [← hnone]
  have hscan : ∀ c cs, text = c :: cs → c ≠ byteOrderMark := by
    rintro c cs rfl rfl
    exact absurd (List.all_eq_true.mp hblank _ List.mem_cons_self) (by decide)
  rw [Scan.line, if_neg (by simp [Scan.swallows, hnone]), hsame]
  cases text with
  | nil => exact ⟨_, rfl, h.reset _ _⟩
  | cons c cs =>
    have hrun : charsFrom (indentOf (c :: cs)) lineNo (s.head (indentOf (c :: cs))) [] 0 (c :: cs) =
        some { s.head (indentOf (c :: cs)) with prevIsSpacing := true } := by
      rw [← List.append_nil (c :: cs), charsFrom_blanks (List.all_eq_true.mp hblank) (by simp),
        charsFrom_nil,
        List.append_nil]
    have hmark : ¬ ((s.head (indentOf (c :: cs))).atNodeStart = true ∧ c = byteOrderMark) :=
      fun hm => hscan c cs rfl hm.2
    exact ⟨_, (if_neg hmark).trans hrun, h.reset _ _⟩

theorem Carries.mark {style : Style} (h : Carries s (.quote style)) (indent lineNo : ℕ)
    (cs : List Char) :
    charsFrom indent lineNo s [] 0 (byteOrderMark :: cs) = charsFrom indent lineNo s
      [byteOrderMark] 0 cs ∨
      cs = [] ∧ charsFrom indent lineNo s [] 0 (byteOrderMark :: cs) =
      some { s with prevIsSpacing := false } := by
  have hgo : s.char indent lineNo [] byteOrderMark cs = .go s 0 := by
    obtain ⟨hdouble, hsingle, -⟩ := h
    cases style with
    | single =>
      have hd : s.inDoubleQuote = false := hdouble
      have hs : s.inSingleQuote = true := hsingle
      rw [Scan.char, if_neg (by simp [hd]), if_pos hs, Scan.inSingle, if_neg (by decide)]
    | double => exact inDouble_go hdouble fun hc => absurd hc (by decide)
  rw [charsFrom_go hgo]
  cases cs with
  | nil => exact .inr ⟨rfl, rfl⟩
  | cons c cs => exact .inl (charsFrom_quoted h _).symm

theorem Between.alike (h : Between r s) (hplace : r.place ≠ .head) {ps : List Piece}
    (hswallows : s.swallows (textOf ps) = false)
    (hplain : r.place = .plain → r.flow = 0 →
      r.deeper (indentOf (textOf ps)) = decide (r.context < indentOf (textOf ps)))
    (hread : (r.startLine (textOf ps)).readPieces ps = some r')
    (hseen : (r.startLine (textOf ps)).piecesSight ps ≠ .other) :
    s.line lineNo (textOf ps) = none ∨ ps.any Piece.isAnchor = false ∧
      (r.startLine (textOf ps)).piecesSight ps ≠ .refused ∧
      (r'.ended = true ∨ ∃ s', s.line lineNo (textOf ps) = some s' ∧ Between r' s') := by
  have hsync := h.head hplace hplain
  have hscan : ScansTo (indentOf (textOf ps)) lineNo
      (({ s with blockScalar := none } : Scan).head (indentOf (textOf ps))) []
      (r.startLine (textOf ps)) ps r' :=
    hsync.pieces rfl (fun _ => by simp [Reader.startLine]) (fun _ => rfl) hread hseen
  rw [Scan.line, if_neg (by simp [hswallows])]
  rw [ScansTo] at hscan
  cases htext : textOf ps with
  | nil =>
    rw [htext] at hscan
    simpa using hscan
  | cons c cs =>
    rw [htext] at hscan hsync hread
    generalize ({ s with blockScalar := none } : Scan).head (indentOf (c :: cs)) = s₁ at *
    by_cases hmark : s₁.atNodeStart = true ∧ c = byteOrderMark
    · obtain ⟨hstart, rfl⟩ := hmark
      simp only [hstart, true_and, if_true]
      cases hp : (r.startLine (byteOrderMark :: cs)).place with
      | head => exact absurd rfl (Reader.head_ne_mark hread hp rfl htext)
      | plain => simp [hsync.inside hp] at hstart
      | node | done =>
        exfalso
        revert hp
        simp only [Reader.startLine]
        split <;> [simp; split <;> simp; simp]
      | quote style =>
        -- inside a quoted scalar the mark is content all the same
        have hcarries := hsync.carries
        rw [hp] at hcarries
        rcases hcarries.mark (indentOf (byteOrderMark :: cs)) lineNo cs with
          hsame | ⟨rfl, hlast⟩
        · rwa [hsame] at hscan
        · rw [hlast] at hscan
          rcases hscan with hnone | ⟨hfree, hsight, hend | ⟨s', hs', hbetween⟩⟩
          · cases hnone
          · exact .inr ⟨hfree, hsight, .inl hend⟩
          · obtain rfl := Option.some.inj hs'
            exact .inr ⟨hfree, hsight,
              .inr ⟨s₁, rfl, hbetween.reset s₁.atNodeStart s₁.prevIsSpacing⟩⟩
    · simpa only [if_neg hmark] using hscan

namespace Reader

variable (r : Reader) (place : Place)

theorem unroll_place :
    ({ r with place := place } : Reader).unroll = { r.unroll with place := place } := by
  unfold unroll
  split <;> rfl

theorem opens_place :
    ({ r with place := place } : Reader).opens = { r.opens with place := place } := by
  unfold opens unroll
  split <;> rfl

theorem roll_place (column : ℕ) :
    ({ r with place := place } : Reader).roll column = { r.roll column with place := place } := by
  unfold roll unroll
  split <;> rfl

theorem move_place (p : Piece) :
    ∃ place', ({ r with place := place } : Reader).move p = { r.move p with place := place' } := by
  cases p with
  | blanks cs => exact ⟨place, rfl⟩
  | quoted style opens cs closes =>
    cases opens <;> exact ⟨_, by simp only [move, opens_place]; rfl⟩
  | _ => exact ⟨_, by simp only [move, opens_place, roll_place, unroll_place]; rfl⟩

end Reader

theorem Reader.piecesSight_place (r : Reader) (place : Place) (ps : List Piece) :
    ({ r with place := place } : Reader).piecesSight ps = r.piecesSight ps := by
  induction ps generalizing r place with
  | nil => rfl
  | cons p ps ih =>
    have hsight : p.sight { r with place := place } (textOf ps) = p.sight r (textOf ps) := by
      cases p <;> rfl
    obtain ⟨place', hmove⟩ := r.move_place place p
    rw [Reader.piecesSight, Reader.piecesSight, hsight, hmove, ih]

/-- **A line read as going on with a plain scalar where it does not.** -/
theorem Sync.resumes {ps : List Piece} (h : Sync { r with place := .plain } s)
    (hplace : r.place = .head)
    (hflow : r.flow = 0) (hindent : r.indent = indent) (hspacing : r.before = .spacing)
    (hread : r.readPieces ps = some r') (hseen : r.piecesSight ps ≠ .other)
    (hresumes : resumes ps = true) :
    ScansTo indent lineNo s before r ps r' := by
  induction ps generalizing r s before with
  | nil => cases hresumes
  | cons p ps ih =>
    obtain ⟨hlegal, hrest⟩ := Reader.readPieces_cons hread
    -- from the second token on the two are one
    have hsame : p.legal { r with place := .plain } ps = true →
        ({ r with place := .plain } : Reader).move p = r.move p →
        ScansTo indent lineNo s before r (p :: ps) r' := by
      intro hlegal' hmove
      have hsight := r.piecesSight_place .plain (p :: ps)
      have hscan : ScansTo indent lineNo s before { r with place := .plain } (p :: ps) r' := by
        refine h.pieces hindent (fun hs => by cases hs) (fun hq => by cases hq) ?_ ?_
        · rw [Reader.readPieces, if_pos hlegal', hmove, hrest]
        · rwa [hsight]
      rwa [ScansTo, hsight] at hscan
    have hfound : ∀ c name, (c = '&' ∨ c = '*') → p.text = c :: name → name.isEmpty = false →
        name.all isAnchorChar = true → ScansTo indent lineNo s before r (p :: ps) r' := by
      intro c name hc htext hne hname
      refine .inl ?_
      rw [textOf_cons, htext, List.cons_append, charsFrom_cons,
        (h.bare rfl).found (h.spacing hspacing rfl) hc (by simpa using hne) hname]
    cases p with
    | blanks cs =>
      simp only [Piece.legal, Bool.and_eq_true, Bool.not_eq_true'] at hlegal
      obtain ⟨⟨hne, hcs⟩, -⟩ := hlegal
      have htakes : Takes indent lineNo s before
          (({ r with place := .plain } : Reader).move (.blanks cs)) cs (textOf ps) :=
        h.blanks (List.all_eq_true.mp hcs) (by simpa using hne)
      obtain ⟨s', before', hrun, hsync, -⟩ := htakes
      rw [ScansTo, textOf_cons, Piece.text, hrun]
      exact ih (r := r.move (.blanks cs)) hsync hplace hflow hindent rfl hrest hseen hresumes
    | word cs =>
      refine hsame ?_ (by simp [Reader.move, Reader.opens_place, Reader.past])
      cases cs with
      | nil => simp [Piece.legal, Reader.word] at hlegal
      | cons c cs =>
        have hhash : c ≠ '#' := by
          rintro rfl
          simp [Piece.legal, Reader.word, Reader.beginsPlain, hplace, isIndicator] at hlegal
        simp only [Piece.legal, Reader.word, Bool.and_eq_true] at hlegal ⊢
        exact ⟨⟨hlegal.1.1, by simp [hhash]⟩, hlegal.2⟩
    | value =>
      refine hsame ?_ (by simp [Reader.move, Reader.roll_place, Reader.past])
      simpa [Piece.legal, hflow, Reader.quoting, hplace] using hlegal
    | comment cs =>
      refine hsame ?_ rfl
      simpa [Piece.legal, Reader.quoting, hplace] using hlegal
    | anchor name =>
      simp only [Piece.legal, Bool.and_eq_true, Bool.not_eq_true', beq_iff_eq] at hlegal
      exact hfound '&' name (.inl rfl) rfl hlegal.1.1.2 hlegal.1.2
    | aliasOf name =>
      simp only [Piece.legal, Bool.and_eq_true, Bool.not_eq_true', beq_iff_eq] at hlegal
      exact hfound '*' name (.inr rfl) rfl hlegal.1.1.2 hlegal.1.2
    | _ => cases hresumes

theorem Between.tokens (h : Between r s) (lineNo : ℕ) (hplace : r.place ≠ .head) {ps : List Piece}
    (hswallows : s.swallows (textOf ps) = false)
    (hplain : r.place = .plain → r.flow = 0 →
      r.deeper (indentOf (textOf ps)) = decide (r.context < indentOf (textOf ps)) ∨
        r.deeper (indentOf (textOf ps)) = false ∧ resumes ps = true)
    (hread : (r.startLine (textOf ps)).readPieces ps = some r')
    (hseen : (r.startLine (textOf ps)).piecesSight ps ≠ .other) :
    s.line lineNo (textOf ps) = none ∨ ps.any Piece.isAnchor = false ∧
      (r.startLine (textOf ps)).piecesSight ps ≠ .refused ∧
      (r'.ended = true ∨ ∃ s', s.line lineNo (textOf ps) = some s' ∧ Between r' s') := by
  by_cases halike : r.place = .plain → r.flow = 0 →
      r.deeper (indentOf (textOf ps)) = decide (r.context < indentOf (textOf ps))
  · exact h.alike hplace hswallows halike hread hseen
  · simp only [Classical.not_imp] at halike
    obtain ⟨hp, hflow, hdiffer⟩ := halike
    obtain ⟨hshallow, hresumes⟩ := (hplain hp hflow).resolve_left hdiffer
    have hdeep : r.context < indentOf (textOf ps) := by
      rw [hshallow] at hdiffer
      simpa using hdiffer
    -- the scan goes on with the scalar, the parser does not
    have hplace' : (r.startLine (textOf ps)).place = .head := by
      simp [Reader.startLine, hp, hflow, hshallow]
    have hcarries := h.carries
    rw [hp] at hcarries
    obtain ⟨hbare, hpending, hflat⟩ := hcarries
    have hout : s.flowDepth = 0 := h.flow.trans hflow
    generalize hs₁ : ({ s with blockScalar := none } : Scan).head (indentOf (textOf ps)) = s₁
    have hstart : s₁.atNodeStart = false := by
      rw [← hs₁]
      simp [Scan.head, hout, hpending, h.context, hdeep]
    have hsync : Sync { r.startLine (textOf ps) with place := .plain } s₁ := by
      rw [← hs₁] at hstart ⊢
      exact ⟨⟨⟨⟨hbare.double, hbare.single⟩, hpending, hflat⟩, h.flow, h.context, rfl⟩,
        (fun hs => by cases hs), fun _ => hstart, fun _ _ => rfl⟩
    have hscan : ScansTo (indentOf (textOf ps)) lineNo s₁ []
        (r.startLine (textOf ps)) ps r' :=
      hsync.resumes hplace' hflow rfl rfl hread hseen hresumes
    rw [Scan.line, if_neg (by simp [hswallows]), hs₁]
    rw [ScansTo] at hscan
    generalize indentOf (textOf ps) = depth at *
    cases htext : textOf ps with
    | nil =>
      rw [htext] at hscan
      simpa using hscan
    | cons c cs =>
      rw [htext] at hscan
      simpa [hstart] using hscan

theorem Reader.seenLine_block {l : Line} (hseen : r.seenLine l = true)
    (hblank : l.text.all isBlank = false) {header : ℕ} (hblock : r.block = some header) :
    r.deeper (indentOf l.text) = decide (header < indentOf l.text) := by
  simp only [Reader.seenLine, hblank, hblock, Option.all_some, Bool.false_or, Bool.and_eq_true,
    beq_iff_eq] at hseen
  exact hseen.1

theorem Reader.seenLine_plain {l : Line} (hseen : r.seenLine l = true)
    (hblank : l.text.all isBlank = false) (hplain : r.place = .plain) (hflow : r.flow = 0) :
    r.deeper (indentOf l.text) = decide (r.context < indentOf l.text) ∨
      r.deeper (indentOf l.text) = false ∧ l.resumes = true := by
  simp only [Reader.seenLine, hblank, hplain, hflow, Bool.false_or, Bool.and_eq_true] at hseen
  simpa using hseen.2

/-- **One line.** -/
theorem Between.line {l : Line} (h : Between r s) (lineNo : ℕ) (hplace : r.place ≠ .head)
    (hread : r.readLine l = some r') (hseen : r.seenLine l = true)
    (hsight : r.lineSight l ≠ .other) :
    s.line lineNo l.text = none ∨ l.anchored = false ∧ r.lineSight l ≠ .refused ∧
      (r'.ended = true ∨ ∃ s', s.line lineNo l.text = some s' ∧ Between r' s' ∧
       r'.place ≠ .head) := by
  unfold Reader.readLine at hread
  simp only at hread
  split at hread
  · cases hread
  · cases l with
    | content cs =>
      simp only [Option.ite_none_right_eq_some, Bool.and_eq_true, Bool.or_eq_true] at hread
      obtain ⟨⟨hblock, hcontent⟩, hsame⟩ := hread
      obtain rfl : r = r' := Option.some.inj hsame
      obtain ⟨header, hheader⟩ := Option.isSome_iff_exists.mp hblock
      have hdeep : cs.all isBlank = true ∨ header < indentOf cs := by
        cases hblank : cs.all isBlank with
        | true => exact .inl rfl
        | false =>
          have hdeeper := hcontent.resolve_left
            (by rw [Line.text, hblank]; exact Bool.false_ne_true)
          rw [Reader.seenLine_block hseen hblank hheader] at hdeeper
          exact .inr (of_decide_eq_true hdeeper)
      have hline : s.line lineNo cs = some s := by
        rw [Scan.line, if_pos (h.swallowed hheader hdeep)]
      exact .inr ⟨rfl, nofun, .inr ⟨s, hline, h, hplace⟩⟩
    | tokens ps =>
      simp only [Option.ite_none_left_eq_some, Bool.not_eq_true, Bool.and_eq_false_iff,
        Bool.or_eq_false_iff] at hread
      obtain ⟨houtside, hread⟩ := hread
      cases hblank : (textOf ps).all isBlank with
      | true =>
        have hsame : some r = some r' := by simpa [Line.text, hblank] using hread
        obtain rfl := Option.some.inj hsame
        have hblock : r.block = none := by
          simpa [Line.text, hblank] using houtside
        obtain ⟨s', hline, hbetween⟩ := h.blank lineNo hblock hblank
        have hsame : r.lineSight (.tokens ps) = .same := if_pos hblank
        exact .inr ⟨anchored_not_blank hblank, by rw [hsame]; nofun,
          .inr ⟨s', hline, hbetween, hplace⟩⟩
      | false =>
        have hread' : (r.startLine (textOf ps)).readPieces ps = some r' := by
          simpa [Line.text, hblank] using hread
        have hswallows : s.swallows (textOf ps) = false := by
          refine h.not_swallowed fun header hheader => ?_
          have hclear := houtside.resolve_left (by simp [hheader])
          have hdeeper := Reader.seenLine_block hseen hblank hheader
          rw [hclear.1.2] at hdeeper
          exact ⟨hclear.2, of_decide_eq_false hdeeper.symm⟩
        have hplace' : r'.place ≠ .head := by
          intro hhead
          have := (Reader.blank_of_head hread' hhead).2
          simp [hblank] at this
        have hpieces : r.lineSight (.tokens ps) = (r.startLine (textOf ps)).piecesSight ps :=
          if_neg (by rw [Line.text, hblank]; exact Bool.false_ne_true)
        rw [hpieces] at hsight ⊢
        rcases h.tokens lineNo hplace hswallows (Reader.seenLine_plain hseen hblank)
          hread' hsight with
          hnone | ⟨hfree, hrefused, hend | ⟨s', hline, hbetween⟩⟩
        · exact .inl hnone
        · exact .inr ⟨hfree, hrefused, .inl hend⟩
        · exact .inr ⟨hfree, hrefused, .inr ⟨s', hline, hbetween, hplace'⟩⟩

/-! ## The document -/

theorem Reader.lines_of_ended {ls : List Line} (hended : r.ended = true)
    (h : r.readLines ls = some r') :
    ls.any Line.anchored = false := by
  induction ls generalizing r with
  | nil => rfl
  | cons l ls ih =>
    obtain ⟨r₁, hread, hrest⟩ := Option.bind_eq_some_iff.mp h
    have hline : l.anchored = false ∧ r₁.ended = true := by
      unfold Reader.readLine at hread
      simp only at hread
      split at hread
      · cases hread
      · cases l with
        | content cs =>
          simp only [Option.ite_none_right_eq_some] at hread
          exact ⟨rfl, Option.some.inj hread.2 ▸ hended⟩
        | tokens ps =>
          simp only [Option.ite_none_left_eq_some] at hread
          cases hblank : (textOf ps).all isBlank with
          | true =>
            have hsame : some r = some r₁ := by simpa [Line.text, hblank] using hread.2
            exact ⟨anchored_not_blank hblank, Option.some.inj hsame ▸ hended⟩
          | false =>
            have hread' : (r.startLine (textOf ps)).readPieces ps = some r₁ := by
              simpa [Line.text, hblank] using hread.2
            obtain ⟨hnone, -, hend⟩ :=
              Reader.not_anchored_of_ended (r := r.startLine (textOf ps)) hended hread'
            exact ⟨hnone, hend⟩
    rw [List.any_cons, hline.1, ih hline.2 hrest, Bool.or_false]

/-- **The lines of a document** up to the first token that the scan refuses it for. -/
theorem Between.lines {ls : List Line} (h : Between r s) (hplace : r.place ≠ .head)
    (hread : r.readLines ls = some r') (hseen : r.seenLines ls = true)
    (hanchored : ls.any Line.anchored = true) :
    (s.linesFrom lineNo (ls.map Line.text)).isSome = true := by
  induction ls generalizing r s lineNo with
  | nil => cases hanchored
  | cons l ls ih =>
    obtain ⟨r₁, hline, hrest⟩ := Option.bind_eq_some_iff.mp hread
    unfold Reader.seenLines at hseen
    rw [Bool.and_eq_true] at hseen
    obtain ⟨hseenLine, hseenRest⟩ := hseen
    have hother : r.lineSight l ≠ .other := by
      intro hother
      rw [hother] at hseenRest
      cases hseenRest
    rw [List.map_cons, Scan.linesFrom]
    rcases h.line (lineNo + 1) hplace hline hseenLine hother with
      hnone | ⟨hfree, hrefused, hend | ⟨s', hscan, hbetween, hplace'⟩⟩
    · rw [hnone]
      rfl
    · rw [List.any_cons, hfree, Reader.lines_of_ended hend hrest] at hanchored
      cases hanchored
    · rw [List.any_cons, hfree, Bool.false_or] at hanchored
      have hsame : r.lineSight l = .same := by
        cases hsight : r.lineSight l with
        | same => rfl
        | refused => exact absurd hsight hrefused
        | other => exact absurd hsight hother
      rw [hsame, hline] at hseenRest
      rw [hscan]
      exact ih hbetween hplace' hrest hseenRest hanchored

/-! ## Line breaks -/

/-- A character the normalization leaves alone. -/
def Kept (c : Char) : Prop := c ≠ '\r' ∧ isUnicodeBreak c = false

theorem replaceBreaks_append {cs : List Char} (h : ∀ c ∈ cs, Kept c) (rest : List Char) :
    replaceBreaks (cs ++ rest) = cs ++ replaceBreaks rest := by
  induction cs with
  | nil => rfl
  | cons c cs ih =>
    obtain ⟨hreturn, hbreak⟩ := h c List.mem_cons_self
    rw [List.cons_append, replaceBreaks.eq_3 c (cs ++ rest) fun _ hc _ => hreturn hc,
      if_neg (by simp [hreturn, hbreak]), ih fun c hc => h c (List.mem_cons_of_mem _ hc),
      List.cons_append]

theorem replaceBreaks_break (b : Break) (hcr : b = .cr → rest.head? ≠ some '\n') :
    replaceBreaks (b.text ++ rest) = '\n' :: replaceBreaks rest := by
  have hone : ∀ c : Char, (c ≠ '\r' ∨ rest.head? ≠ some '\n') →
    (c = '\n' ∨ c = '\r' ∨ isUnicodeBreak c = true) →
      replaceBreaks (c :: rest) = '\n' :: replaceBreaks rest := by
    intro c hpair hc
    rw [replaceBreaks.eq_3]
    · rcases hc with rfl | rfl | hc
      · rfl
      · rw [if_pos (.inl rfl)]
      · rw [if_pos (.inr hc)]
    · rintro cs rfl rfl
      rcases hpair with hne | hne <;> exact hne rfl
  cases b with
  | lf => exact hone '\n' (.inl (by decide)) (.inl rfl)
  | crlf => rfl
  | cr => exact hone '\r' (.inr (hcr rfl)) (.inr (.inl rfl))
  | nel => exact hone _ (.inl (by decide)) (.inr (.inr (by decide)))
  | ls => exact hone _ (.inl (by decide)) (.inr (.inr (by decide)))
  | ps => exact hone _ (.inl (by decide)) (.inr (.inr (by decide)))

theorem normalizeLineBreaks_eq (input : List Char) :
    normalizeLineBreaks input = replaceBreaks input := by
  unfold normalizeLineBreaks
  split
  · rfl
  · rename_i hclean
    have hkept : ∀ c ∈ input, Kept c := by
      intro c hc
      have hno : hasBreakByte c = false := by
        simpa using fun h => hclean (List.any_eq_true.mpr ⟨c, hc, h⟩)
      simp only [hasBreakByte, Bool.or_eq_false_iff, Bool.and_eq_false_iff, beq_eq_false_iff_ne,
        decide_eq_false_iff_not] at hno
      refine ⟨hno.1.1, ?_⟩
      simp only [isUnicodeBreak, Bool.or_eq_false_iff, beq_eq_false_iff_ne]
      omega
    have := replaceBreaks_append hkept []
    simpa [replaceBreaks] using this.symm

theorem linesFrom_feed {cs : List Char} (h : ∀ c ∈ cs, c ≠ '\n') (read : List Char) :
    Yaml.linesFrom read (cs ++ '\n' :: rest) = endLine (cs.reverse ++ read) :: Yaml.linesFrom
      [] rest := by
  induction cs generalizing read with
  | nil => rfl
  | cons c cs ih =>
    rw [List.cons_append, Yaml.linesFrom.eq_3 read c _ fun hc => h c List.mem_cons_self hc,
      ih fun c hc => h c (List.mem_cons_of_mem _ hc)]
    simp

theorem linesFrom_last {cs : List Char} (h : ∀ c ∈ cs, c ≠ '\n') (read : List Char) :
    Yaml.linesFrom read cs = if read = [] ∧ cs = [] then [] else [read.reverse ++ cs] := by
  induction cs generalizing read with
  | nil =>
    rw [Yaml.linesFrom]
    by_cases hread : read = [] <;> simp [hread]
  | cons c cs ih =>
    rw [Yaml.linesFrom.eq_3 read c _ fun hc => h c List.mem_cons_self hc,
      ih fun c hc => h c (List.mem_cons_of_mem _ hc), if_neg (by simp), if_neg (by simp)]
    simp

theorem endLine_reverse {cs : List Char} (h : ∀ c ∈ cs, c ≠ '\r') : endLine cs.reverse = cs := by
  unfold endLine
  split
  · rename_i ds heq
    have hmem : '\r' ∈ cs := List.mem_reverse.mp (heq ▸ List.mem_cons_self)
    exact absurd rfl (h _ hmem)
  · exact List.reverse_reverse cs

theorem kept_of_not_isBreak {cs : List Char} (h : cs.any isBreak = false) :
    ∀ c ∈ cs, c ≠ '\n' ∧ Kept c := by
  intro c hc
  have hno : isBreak c = false := by
    have := List.any_eq_false.mp h c hc
    simpa using this
  simp only [isBreak, Bool.or_eq_false_iff, beq_eq_false_iff_ne] at hno
  exact ⟨hno.1.1, hno.1.2, hno.2⟩

theorem head_ne_feed {l : Line} {b : Break} {ls : List (Line × Break)} {last : List Char}
    (h : breaksApart ((l, b) :: ls) = true) (hls : ∀ l ∈ ls, l.1.text.any isBreak = false)
    (hlast : last.any isBreak = false) (hb : b = .cr) :
    (Document.linesText ls ++ last).head? ≠ some '\n' := by
  subst hb
  have hfirst : ∀ cs : List Char, cs.any isBreak = false → cs.head? ≠ some '\n' := by
    intro cs hcs hhead
    obtain ⟨tail, rfl⟩ := List.head?_eq_some_iff.mp hhead
    exact (kept_of_not_isBreak hcs '\n' List.mem_cons_self).1 rfl
  cases ls with
  | nil => exact hfirst last hlast
  | cons l₂ ls =>
    obtain ⟨l₂, b₂⟩ := l₂
    simp only [breaksApart, Bool.and_eq_true, Bool.not_eq_true', Bool.and_eq_false_iff,
      List.isEmpty_eq_false_iff, beq_eq_false_iff_ne] at h
    have htext : Document.linesText ((l₂, b₂) :: ls) = l₂.text ++
      (b₂.text ++ Document.linesText ls) := by
      simp [Document.linesText]
    rw [htext]
    cases hl : l₂.text with
    | cons c cs =>
      have hcs := hfirst l₂.text (hls (l₂, b₂) List.mem_cons_self)
      rw [hl] at hcs
      simpa using hcs
    | nil =>
      have hb₂ : b₂ ≠ .lf := h.1.resolve_left (by simp [hl])
      cases b₂ with
      | lf => exact absurd rfl hb₂
      | crlf | cr | nel | ls | ps => simp [Break.text]

/-- **The lines the scan sees** are the lines of the document. -/
theorem lines_text {ls : List (Line × Break)} {last : List Char} (hbreaks : breaksApart ls = true)
    (hls : ∀ l ∈ ls, l.1.text.any isBreak = false) (hlast : last.any isBreak = false) :
    lines (replaceBreaks (Document.linesText ls ++ last)) =
      ls.map (fun l => l.1.text) ++ if last = [] then [] else [last] := by
  induction ls with
  | nil =>
    have hkept := kept_of_not_isBreak hlast
    have hsame : replaceBreaks last = last := by
      have := replaceBreaks_append (fun c hc => (hkept c hc).2) []
      simpa [replaceBreaks] using this
    show lines (replaceBreaks last) = _
    rw [hsame, lines, linesFrom_last fun c hc => (hkept c hc).1]
    simp
  | cons l ls ih =>
    obtain ⟨l, b⟩ := l
    have hkept := kept_of_not_isBreak (hls (l, b) List.mem_cons_self)
    have htext : Document.linesText ((l, b) :: ls) ++ last =
        l.text ++ (b.text ++ (Document.linesText ls ++ last)) := by
      simp [Document.linesText]
    have hrest : breaksApart ls = true := by
      cases ls with
      | nil => rfl
      | cons l₂ ls => cases b <;> simp_all [breaksApart]
    rw [htext, replaceBreaks_append fun c hc => (hkept c hc).2,
      replaceBreaks_break b (head_ne_feed hbreaks (fun l hl => hls l (List.mem_cons_of_mem _ hl))
        hlast), lines,
      linesFrom_feed fun c hc => (hkept c hc).1, List.append_nil, endLine_reverse fun c hc =>
      (hkept c hc).2.1]
    exact congrArg _ (ih hrest fun l hl => hls l (List.mem_cons_of_mem _ hl))

/-! ## Documents -/

theorem Reader.not_isBreak_of_readLines {ls : List Line} (h : r.readLines ls = some r') :
    ∀ l ∈ ls, l.text.any isBreak = false := by
  induction ls generalizing r with
  | nil => simp
  | cons l ls ih =>
    obtain ⟨r₁, hline, hrest⟩ := Option.bind_eq_some_iff.mp h
    have hfirst : l.text.any isBreak = false := by
      cases hb : l.text.any isBreak with
      | false => rfl
      | true => simp [Reader.readLine, hb] at hline
    intro l' hl'
    rcases List.mem_cons.mp hl' with rfl | hl'
    · exact hfirst
    · exact ih hrest l' hl'

theorem linesFrom_append_nil (s : Scan) (lineNo : ℕ) (ls : List (List Char)) :
    s.linesFrom lineNo (ls ++ [[]]) = s.linesFrom lineNo ls := by
  induction ls generalizing s lineNo with
  | nil =>
    have hempty : ∃ s', s.line (lineNo + 1) [] = some s' := by
      rw [Scan.line]
      split <;> exact ⟨_, rfl⟩
    obtain ⟨s', hs'⟩ := hempty
    simp [Scan.linesFrom, hs']
  | cons l ls ih =>
    rw [List.cons_append, Scan.linesFrom, Scan.linesFrom]
    cases s.line (lineNo + 1) l with
    | none => rfl
    | some s' => exact ih s' (lineNo + 1)

theorem findAnchorOrAliasToken_text {d : Document} (h : d.legal = true) :
    findAnchorOrAliasToken d.text = Scan.start.linesFrom 0 (d.allLines.map Line.text) := by
  rw [Document.legal, Bool.and_eq_true] at h
  obtain ⟨r', hread, -⟩ := (Option.any_eq_true _ _).mp h.2
  have hclean := Reader.not_isBreak_of_readLines hread
  have hlines : ∀ l ∈ d.lines, l.1.text.any isBreak = false := fun l hl =>
    hclean l.1 (List.mem_append_left _ (List.mem_map_of_mem hl))
  have hlast : d.last.text.any isBreak = false := hclean d.last (by simp [Document.allLines])
  rw [findAnchorOrAliasToken, normalizeLineBreaks_eq, Document.text, lines_text h.1 hlines hlast]
  by_cases hempty : d.last.text = []
  · simp [Document.allLines, hempty, linesFrom_append_nil, Function.comp_def]
  · simp [Document.allLines, hempty, Function.comp_def]

theorem between_start : Between Reader.start Scan.start :=
  ⟨⟨⟨rfl, rfl⟩, rfl, fun _ => rfl⟩, rfl, rfl, rfl⟩

theorem fromStr_of_found {T : Type} (parse : List Char → Except String T) {input : List Char}
    (h : (findAnchorOrAliasToken input).isSome = true) :
    (∃ bytes, fromStr parse input = .error (.tooLarge bytes)) ∨
      ∃ place, fromStr parse input = .error (.anchorsForbidden place) := by
  obtain ⟨line, hline⟩ := Option.isSome_iff_exists.mp h
  rw [fromStr]
  by_cases hbytes : (input.map Char.utf8Size).sum > maxYamlBytes
  · exact .inl ⟨_, if_pos hbytes⟩
  · exact .inr ⟨"line " ++ toString line, by simp only [if_neg hbytes, hline]⟩

/-- **Anchors and aliases are refused.** -/
theorem anchors_refused (d : Document) (hlegal : d.legal = true) (hseen : d.seen = true)
    (hanchored : d.anchored = true) :
    (findAnchorOrAliasToken d.text).isSome = true ∧
      ∀ (T : Type) (parse : List Char → Except String T),
        (∃ bytes, fromStr parse d.text = .error (.tooLarge bytes)) ∨
          ∃ place, fromStr parse d.text = .error (.anchorsForbidden place) := by
  have hfound : (findAnchorOrAliasToken d.text).isSome = true := by
    rw [findAnchorOrAliasToken_text hlegal]
    rw [Document.legal, Bool.and_eq_true] at hlegal
    obtain ⟨r', hread, -⟩ := (Option.any_eq_true _ _).mp hlegal.2
    exact between_start.lines (by decide) hread hseen hanchored
  exact ⟨hfound, fun T parse => fromStr_of_found parse hfound⟩

/-! ## Documents the scan reads differently -/

/-- A word, a colon, a blank and what follows. -/
def entry (k : List Char) (v : List Piece) : List Piece := [.word k, .value, .blanks [' ']] ++ v

/-- A value with an anchor: `&x 1`. -/
def anchoredOne : List Piece := [.anchor ['x'], .blanks [' '], .word ['1']]

/-- One line, with no break after it. -/
def oneLine (ps : List Piece) : Document := ⟨[], .tokens ps⟩

/-- `k:: 'a #'`, `i: a &b c-#d` and `j: &x 1`: the scan refuses the second line, before the `#` that
it would take for a comment. -/
theorem anchors_refused_quoted :
    let d : Document :=
      ⟨[(.tokens (entry ['k', ':'] [.quoted .single true ['a', ' ', '#'] true]), .crlf),
        (.tokens (entry ['i'] [.word ['a'], .blanks [' '], .word ['&', 'b'], .blanks [' '],
          .word ['c', '-', '#', 'd']]), .lf)],
      .tokens (entry ['j'] anchoredOne)⟩
    (findAnchorOrAliasToken d.text).isSome = true ∧
      ∀ (T : Type) (parse : List Char → Except String T),
        (∃ bytes, fromStr parse d.text = .error (.tooLarge bytes)) ∨
          ∃ place, fromStr parse d.text = .error (.anchorsForbidden place) :=
  anchors_refused _ (by decide) (by decide) (by decide)

/-- `a-#b: &x 1`: the `#` of the key is taken for the beginning of a comment. -/
theorem glued_hash :
    ¬ ∀ d : Document, d.legal = true → d.anchored = true →
    (findAnchorOrAliasToken d.text).isSome = true := by
  intro h
  have hfound := h (oneLine (entry ['a', '-', '#', 'b'] anchoredOne)) (by decide) (by decide)
  revert hfound
  decide

/-- `- k: |`, and at the column of `k` a second key with an anchor: it is taken for content. -/
example :
    let d : Document :=
      ⟨[(.tokens ([.blockEntry, .blanks [' ']] ++ entry ['k'] [.header '|' [] []]), .lf)],
      .tokens (.blanks [' ', ' '] :: entry ['j'] anchoredOne)⟩
    d.legal = true ∧ d.anchored = true ∧ findAnchorOrAliasToken d.text = none := by
  decide

/-- `k: "a"#c: 'x`, and an anchor on the next line: the quote of the comment is taken for a
scalar. -/
example :
    let first := entry ['k'] [.quoted .double true ['a'] true, .comment ['c', ':', ' ', '\'']]
    let d : Document := ⟨[(.tokens first, .lf)], .tokens (entry ['j'] anchoredOne)⟩
    d.legal = true ∧ d.anchored = true ∧ findAnchorOrAliasToken d.text = none := by
  decide

end Yaml

end ProtonWire
