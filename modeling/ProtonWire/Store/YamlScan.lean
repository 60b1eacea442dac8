import ProtonWire.Store.YamlText

/-!
# The scan over one piece

What the scan does with the characters of each kind of piece, from a state in which it agrees with
the parser on where it is.
-/

namespace ProtonWire

namespace Yaml

namespace Scan

variable {indent lineNo : ℕ} {s : Scan} {before rest : List Char}

/-! ## Runs of characters -/

@[simp] theorem charsFrom_nil (s : Scan) (before : List Char) (skip : ℕ) :
    charsFrom indent lineNo s before skip [] = some s := by
  cases skip <;> rfl

theorem charsFrom_skip (s : Scan) (before cs rest : List Char) :
    charsFrom indent lineNo s before cs.length (cs ++ rest) =
      charsFrom indent lineNo s (cs.reverse ++ before) 0 rest := by
  induction cs generalizing before with
  | nil => rfl
  | cons c cs ih => simpa [charsFrom] using ih (c :: before)

theorem charsFrom_cons (s : Scan) (before : List Char) (c : Char) (rest : List Char) :
    charsFrom indent lineNo s before 0 (c :: rest) =
      match s.char indent lineNo before c rest with
      | .found => none
      | .endLine s => some s
      | .go s skip =>
        charsFrom indent lineNo { s with prevIsSpacing := isSpacing c }
          (c :: before) skip rest := rfl

theorem charsFrom_go {c : Char} {s' : Scan} {skip : ℕ}
    (h : s.char indent lineNo before c rest = .go s' skip) :
    charsFrom indent lineNo s before 0 (c :: rest) =
      charsFrom indent lineNo { s' with prevIsSpacing := isSpacing c } (c :: before) skip rest := by
  rw [charsFrom_cons, h]

theorem char_blank {c : Char} (hc : isBlank c = true) :
    s.char indent lineNo before c rest = .go s 0 := by
  have hcases : c = ' ' ∨ c = '\t' := by simpa [isBlank] using hc
  rcases hcases with rfl | rfl <;> simp [Scan.char, Scan.inDouble, Scan.inSingle,
    Scan.token, isBlank]

theorem charsFrom_blanks {cs : List Char} (hcs : ∀ c ∈ cs, isBlank c = true) (hne : cs ≠ []) :
    charsFrom indent lineNo s before 0 (cs ++ rest) =
      charsFrom indent lineNo { s with prevIsSpacing := true } (cs.reverse ++ before) 0 rest := by
  induction cs generalizing s before with
  | nil => exact absurd rfl hne
  | cons c cs ih =>
    have hc : isBlank c = true := hcs c List.mem_cons_self
    have hspacing : isSpacing c = true := by simp [isSpacing, hc]
    rw [List.cons_append, charsFrom_go (char_blank hc), hspacing]
    by_cases hcs' : cs = []
    · subst hcs'
      rfl
    · rw [ih (fun c hc => hcs c (List.mem_cons_of_mem _ hc)) hcs', List.reverse_cons,
        List.append_assoc]
      rfl

/-- The scan is in no quoted scalar. -/
structure Bare (s : Scan) : Prop where
  double : s.inDoubleQuote = false
  single : s.inSingleQuote = false

theorem Bare.char (h : s.Bare) (indent lineNo : ℕ) (before : List Char) (c : Char)
    (rest : List Char) :
    s.char indent lineNo before c rest = s.token indent lineNo before c rest := by
  simp [Scan.char, h.double, h.single]

/-! ## Plain scalars -/

/-- The scan is inside a plain scalar. -/
structure InPlain (s : Scan) : Prop extends s.Bare where
  atNodeStart : s.atNodeStart = false
  plainPending : s.plainPending = (s.flowDepth == 0)
  flowPlain : s.flowPlain = decide (0 < s.flowDepth)

theorem InPlain.plain_eq (h : s.InPlain) : s.plain = s := by
  rw [Scan.plain, ← h.plainPending, ← h.flowPlain, ← h.atNodeStart]

theorem InPlain.prev (h : s.InPlain) (b : Bool) : ({ s with prevIsSpacing := b } : Scan).InPlain :=
  ⟨⟨h.double, h.single⟩, h.atNodeStart, h.plainPending, h.flowPlain⟩

/-- An anchor or an alias is found wherever its sign stands after spacing. -/
theorem Bare.sign (h : s.Bare) (hprev : s.prevIsSpacing = true) {c : Char} (hc : c = '&' ∨ c = '*')
    (hname : rest.head?.any isName = true) : s.char indent lineNo before c rest = .found := by
  rw [h.char]
  rcases hc with rfl | rfl <;> simp [Scan.token, hprev, hname]

/-- **A character of a plain scalar is passed over**, unless it is taken for a sign. -/
theorem InPlain.char (h : s.InPlain) {c : Char} (hblank : isBlank c = false)
    (hflow : 0 < s.flowDepth → isFlowIndicator c = false)
    (hcolon : c = ':' → spacedOrEol rest = false) (hhash : s.prevIsSpacing = true → c ≠ '#')
    (hsign : s.prevIsSpacing = true → c = '&' ∨ c = '*' → rest.head?.any isName = false) :
    s.char indent lineNo before c rest = .go s 0 := by
  rw [h.toBare.char]
  have hplain := h.plain_eq
  by_cases hamp : (c = '*' ∨ c = '&') ∧ s.prevIsSpacing
  · have hname := hsign hamp.2 hamp.1.symm
    rcases hamp with ⟨rfl | rfl, hprev⟩ <;> simp [Scan.token, hprev, hname, hplain]
  · have hhash' : ¬ (c = '#' ∧ s.prevIsSpacing) := fun hc => hhash hc.2 hc.1
    have hvalue : ¬ (c = ':' ∧ (spacedOrEol rest ∨ 0 < s.flowDepth ∧ ¬ s.flowPlain)) := by
      rintro ⟨rfl, hspaced | ⟨hin, hflat⟩⟩
      · simp [hcolon rfl] at hspaced
      · simp [h.flowPlain, hin] at hflat
    have hentry : ¬ (c = ',' ∧ 0 < s.flowDepth) := fun hc => by
      have := hflow hc.2
      simp [isFlowIndicator, hc.1] at this
    have hopen : ¬ ((c = '[' ∨ c = '{') ∧ (0 < s.flowDepth ∨ s.atNodeStart)) := by
      rintro ⟨hc, hin | hstart⟩
      · have := hflow hin
        rcases hc with rfl | rfl <;> simp [isFlowIndicator] at this
      · simp [h.atNodeStart] at hstart
    have hstart : ∀ p : Prop, ¬ (p ∧ s.atNodeStart) := fun p hp => by simp [h.atNodeStart] at hp
    have hstart' : ∀ p q : Prop, ¬ (p ∧ s.atNodeStart ∧ q) := fun p q hp => by
      simp [h.atNodeStart] at hp
    rw [Scan.token, if_neg (hstart _), if_neg (hstart _), if_neg hhash', if_neg hamp,
      if_neg (hstart _),
      if_neg (hstart' _ _), if_neg (by simp [hblank]), if_neg hvalue,
      if_neg (fun hc => hstart' _ _ hc.2), if_neg (hstart' _ _), if_neg (hstart' _ _),
      if_neg hentry,
      if_neg hopen]
    by_cases hclose : c = ']' ∨ c = '}'
    · -- only outside flow collections, where it closes nothing
      rw [if_pos hclose]
      have hout : s.flowDepth = 0 := by
        by_contra hin
        have := hflow (Nat.pos_of_ne_zero hin)
        rcases hclose with rfl | rfl <;> simp [isFlowIndicator] at this
      have hflat : s.flowPlain = false := by rw [h.flowPlain, hout]; rfl
      have hstart := h.atNodeStart
      obtain ⟨⟩ := s
      simp_all
    · rw [if_neg hclose, hplain]

/-- **The rest of a word** of a plain scalar. -/
theorem InPlain.word (h : s.InPlain) {x : Char} {cs : List Char}
    (hprev : s.prevIsSpacing = isSpacing x) (hblank : ∀ c ∈ cs, isBlank c = false)
    (hflow : 0 < s.flowDepth → ∀ c ∈ cs, isFlowIndicator c = false)
    (hlast : cs.getLast? = some ':' → spacedOrEol rest = false)
    (hsight : wordSight rest x cs ≠ .other) :
    wordSight rest x cs = .refused ∧ charsFrom indent lineNo s before 0 (cs ++ rest) = none ∨
      wordSight rest x cs = .same ∧ ∃ b, charsFrom indent lineNo s before 0 (cs ++ rest) =
        charsFrom indent lineNo { s with prevIsSpacing := b } (cs.reverse ++ before) 0 rest := by
  induction cs generalizing s before x with
  | nil => exact .inr ⟨rfl, s.prevIsSpacing, rfl⟩
  | cons c cs ih =>
    have hcolon : c = ':' → spacedOrEol (cs ++ rest) = false := by
      rintro rfl
      cases cs with
      | nil => exact hlast rfl
      | cons d cs => simpa [spacedOrEol] using hblank d (by simp)
    rw [wordSight] at hsight ⊢
    split_ifs at hsight ⊢ with hhash hsign
    · exact absurd rfl hsight
    · -- a sign
      simp only [Bool.and_eq_true, Bool.or_eq_true, beq_iff_eq] at hsign
      obtain ⟨⟨hspacing, hc⟩, hname⟩ := hsign
      refine .inl ⟨rfl, ?_⟩
      rw [List.cons_append, charsFrom_cons, h.toBare.sign (hprev.trans hspacing) hc hname]
    · have hgo : s.char indent lineNo before c (cs ++ rest) = .go s 0 := by
        refine h.char (hblank c (by simp)) (fun hin => hflow hin c (by simp)) hcolon ?_ ?_
        · rintro hspacing rfl
          simp [← hprev, hspacing] at hhash
        · intro hspacing hc
          rw [Bool.eq_false_iff]
          intro hname
          refine hsign ?_
          rw [← hprev, hspacing, hname]
          rcases hc with rfl | rfl <;> rfl
      have hlast' : cs.getLast? = some ':' → spacedOrEol rest = false := by
        cases cs with
        | nil => simp
        | cons d cs => simpa using hlast
      rw [List.cons_append, charsFrom_go hgo]
      have := @ih _ (c :: before) (h.prev (isSpacing c)) _ rfl (fun d hd => hblank d (by simp [hd]))
        (fun hin d hd => hflow hin d (by simp [hd])) hlast' hsight
      simpa using this

/-- A node starts where the scan is. -/
structure InNode (s : Scan) : Prop extends s.Bare where
  atNodeStart : s.atNodeStart = true
  flowPlain : 0 < s.flowDepth → s.flowPlain = false
  plainPending : 0 < s.flowDepth → s.plainPending = false

theorem InNode.plain (h : s.InNode) : s.plain.InPlain := ⟨⟨h.double, h.single⟩, rfl, rfl, rfl⟩

/-- **The first character of a plain scalar.** -/
theorem InNode.beginPlain (h : s.InNode) {c : Char} (hindicator : isIndicator c = false)
    (hblank : isBlank c = false) (hspaced : c = '-' ∨ c = '?' ∨ c = ':' → spacedOrEol rest = false)
    (hflow : 0 < s.flowDepth → c ≠ '?' ∧ c ≠ ':')
    (hmarker : before = [] → c = '-' → isMarker rest = false) :
    s.char indent lineNo before c rest = .go s.plain 0 := by
  rw [h.toBare.char]
  simp only [isIndicator, Bool.or_eq_false_iff, List.contains_eq_mem, decide_eq_false_iff_not,
    List.mem_cons, List.not_mem_nil, or_false, not_or, isFlowIndicator, beq_eq_false_iff_ne]
    at hindicator
  obtain ⟨⟨⟨⟨⟨hcomma, hopen⟩, hclose⟩, hbrace⟩, hbrace'⟩, hhash, hamp, hstar, hbang, hbar,
    hgt, hsq, hdq,
    -⟩ := hindicator
  have hvalue : ¬ (c = ':' ∧ (spacedOrEol rest ∨ 0 < s.flowDepth ∧ ¬ s.flowPlain)) := by
    rintro ⟨rfl, hsp | ⟨hin, -⟩⟩
    · simp [hspaced] at hsp
    · exact (hflow hin).2 rfl
  have hdash : ¬ (c = '-' ∧ before = [] ∧ s.atNodeStart ∧ s.flowDepth = 0 ∧ isMarker rest) := by
    rintro ⟨hc, hb, -, -, hm⟩
    simp [hmarker hb hc] at hm
  have hentry : ¬ (c = '-' ∧ s.atNodeStart ∧ spacedOrEol rest) := by
    rintro ⟨hc, -, hsp⟩
    simp [hspaced (.inl hc)] at hsp
  have hkey : ¬ (c = '?' ∧ s.atNodeStart ∧ (spacedOrEol rest ∨ 0 < s.flowDepth)) := by
    rintro ⟨hc, -, hsp | hin⟩
    · simp [hspaced (.inr (.inl hc))] at hsp
    · exact (hflow hin).1 hc
  rw [Scan.token, if_neg (by simp [hdq]), if_neg (by simp [hsq]), if_neg (by simp [hhash]),
    if_neg (by simp [hstar, hamp]), if_neg (by simp [hbang]), if_neg (by simp [hbar, hgt]),
    if_neg (by simp [hblank]), if_neg hvalue, if_neg hdash, if_neg hentry, if_neg hkey,
    if_neg (by simp [hcomma]), if_neg (by simp [hopen, hbrace]), if_neg (by simp [hclose, hbrace'])]

/-! ## Quoted scalars -/

theorem inDouble_go (hin : s.inDoubleQuote = true) {c : Char}
    (hc : c = '"' → (before.takeWhile (· = '\\')).length % 2 = 1) :
    s.char indent lineNo before c rest = .go s 0 := by
  rw [Scan.char, if_pos hin, Scan.inDouble, if_neg]
  rintro ⟨rfl, heven⟩
  have := hc rfl
  omega

/-- **The body of a double-quoted scalar.** The backslashes right before are in pairs. -/
theorem inDouble_body (indent lineNo : ℕ) (rest : List Char) {closes : Bool}
    (hin : s.inDoubleQuote = true) {cs : List Char}
    (hcs : doubleBody closes cs) (heven : (before.takeWhile (· = '\\')).length % 2 = 0) :
    ∃ b before', charsFrom indent lineNo s before 0 (cs ++ rest) =
        charsFrom indent lineNo { s with prevIsSpacing := b } before' 0 rest ∧
      (closes = true → (before'.takeWhile (· = '\\')).length % 2 = 0) := by
  induction cs using doubleBody.induct generalizing s before with
  | case1 => exact ⟨s.prevIsSpacing, before, rfl, fun _ => heven⟩
  | case2 =>
    -- a break is escaped: the line ends in the scalar
    have hopen : closes = false := by simpa [doubleBody] using hcs
    have hgo : s.char indent lineNo before '\\' rest = .go s 0 := inDouble_go hin (by simp)
    exact ⟨_, _, charsFrom_go hgo, fun hc => by simp [hopen] at hc⟩
  | case3 c cs ih =>
    -- an escape: whatever `c` is, the backslashes before it are odd in number
    have hgo : s.char indent lineNo before '\\' (c :: (cs ++ rest)) = .go s 0 :=
      inDouble_go hin (by simp)
    have hodd : (('\\' :: before).takeWhile (· = '\\')).length % 2 = 1 := by
      simp only [List.takeWhile_cons, decide_true, if_true, List.length_cons]
      omega
    have hgo' : ({ s with prevIsSpacing := isSpacing '\\' } : Scan).char indent lineNo
      ('\\' :: before) c
        (cs ++ rest) = .go { s with prevIsSpacing := isSpacing '\\' } 0 :=
      inDouble_go (s := { s with prevIsSpacing := isSpacing '\\' }) hin fun _ => hodd
    have heven' : ((c :: '\\' :: before).takeWhile (· = '\\')).length % 2 = 0 := by
      rw [List.takeWhile_cons]
      split
      · rw [List.length_cons]
        omega
      · rfl
    rw [List.cons_append, List.cons_append, charsFrom_go hgo, charsFrom_go hgo']
    exact ih (s := { s with prevIsSpacing := isSpacing c }) hin hcs heven'
  | case4 cs => cases hcs
  | case5 c cs hend hesc hquote ih =>
    have hback : c ≠ '\\' := by
      rintro rfl
      cases cs with
      | nil => exact hend rfl rfl
      | cons d cs => exact hesc d cs rfl rfl
    have hgo : s.char indent lineNo before c (cs ++ rest) = .go s 0 := inDouble_go hin fun hc =>
      absurd hc hquote
    rw [doubleBody.eq_5 closes c cs hend hesc hquote] at hcs
    rw [List.cons_append, charsFrom_go hgo]
    exact ih (s := { s with prevIsSpacing := isSpacing c }) hin hcs (by simp [hback])

/-- **The body of a single-quoted scalar.** -/
theorem inSingle_body (indent lineNo : ℕ) (before rest : List Char)
    (hdouble : s.inDoubleQuote = false) (hin : s.inSingleQuote = true) {cs : List Char}
    (hcs : singleBody cs) :
    ∃ b before', charsFrom indent lineNo s before 0 (cs ++ rest) =
      charsFrom indent lineNo { s with prevIsSpacing := b } before' 0 rest := by
  have hchar : ∀ (s : Scan) (before : List Char) (c : Char) (rest : List Char),
    s.inDoubleQuote = false →
      s.inSingleQuote = true → s.char indent lineNo before c rest = s.inSingle c rest := by
    intro s before c rest hd hs
    simp [Scan.char, hd, hs]
  induction cs using singleBody.induct generalizing s before with
  | case1 => exact ⟨s.prevIsSpacing, before, rfl⟩
  | case2 cs ih =>
    -- a doubled quote: the second is skipped
    have hgo : s.char indent lineNo before '\'' ('\'' :: (cs ++ rest)) = .go s 1 := by
      simp [hchar _ _ _ _ hdouble hin, Scan.inSingle]
    rw [List.cons_append, List.cons_append, charsFrom_go hgo]
    exact ih (s := { s with prevIsSpacing := isSpacing '\'' }) _ hdouble hin hcs
  | case3 cs hsecond =>
    have hfalse : singleBody ('\'' :: cs) = false := singleBody.eq_3 cs hsecond
    rw [hfalse] at hcs
    cases hcs
  | case4 c cs hpair hquote ih =>
    have hgo : s.char indent lineNo before c (cs ++ rest) = .go s 0 := by
      rw [hchar _ _ _ _ hdouble hin, Scan.inSingle, if_neg hquote]
    rw [singleBody.eq_4 c cs hpair hquote] at hcs
    rw [List.cons_append, charsFrom_go hgo]
    exact ih (s := { s with prevIsSpacing := isSpacing c }) _ hdouble hin hcs

/-! ## Indicators -/

theorem isMarker_of_spaced (h : spacedOrEol rest = true) : isMarker rest = false := by
  cases rest with
  | nil => rfl
  | cons c rest =>
    have hc : isBlank c = true := by simpa [spacedOrEol] using h
    have hdash : c ≠ '-' := by
      rintro rfl
      cases hc
    simp [isMarker, hdash]

theorem Bare.value (h : s.Bare) (hnext : spacedOrEol rest = true ∨ 0 < s.flowDepth ∧
    s.flowPlain = false) :
    s.char indent lineNo before ':' rest = .go (s.indicator indent) 0 := by
  have hvalue : (':' : Char) = ':' ∧ (spacedOrEol rest ∨ 0 < s.flowDepth ∧ ¬ s.flowPlain) := by
    refine ⟨rfl, hnext.imp id fun hin => ⟨hin.1, by simp [hin.2]⟩⟩
  rw [h.char, Scan.token, if_neg (by simp), if_neg (by simp), if_neg (by simp), if_neg (by simp),
    if_neg (by simp), if_neg (by simp), if_neg (by simp [isBlank]), if_pos hvalue]

theorem InNode.blockEntry (h : s.InNode) (hnext : spacedOrEol rest = true) :
    s.char indent lineNo before '-' rest = .go (s.indicator indent) 0 := by
  rw [h.toBare.char, Scan.token, if_neg (by simp), if_neg (by simp), if_neg (by simp),
    if_neg (by simp),
    if_neg (by simp), if_neg (by simp), if_neg (by simp [isBlank]), if_neg (by simp),
    if_neg (by simp [isMarker_of_spaced hnext]), if_pos ⟨rfl, h.atNodeStart, hnext⟩]

theorem InNode.key (h : s.InNode) (hnext : spacedOrEol rest = true ∨ 0 < s.flowDepth) :
    s.char indent lineNo before '?' rest = .go (s.indicator indent) 0 := by
  rw [h.toBare.char, Scan.token, if_neg (by simp), if_neg (by simp), if_neg (by simp),
    if_neg (by simp),
    if_neg (by simp), if_neg (by simp), if_neg (by simp [isBlank]), if_neg (by simp),
    if_neg (by simp),
    if_neg (by simp), if_pos ⟨rfl, h.atNodeStart, hnext⟩]

theorem InNode.documentStart (h : s.InNode) (hout : s.flowDepth = 0)
    (hnext : spacedOrEol rest = true) :
    s.char indent lineNo [] '-' ('-' :: '-' :: rest) = .go s.node 2 := by
  have hmarker : isMarker ('-' :: '-' :: rest) = true := by simpa [isMarker] using hnext
  rw [h.toBare.char, Scan.token, if_neg (by simp), if_neg (by simp), if_neg (by simp),
    if_neg (by simp),
    if_neg (by simp), if_neg (by simp), if_neg (by simp [isBlank]), if_neg (by simp),
    if_pos ⟨rfl, rfl, h.atNodeStart, hout, hmarker⟩]

theorem Bare.flowEntry (h : s.Bare) (hin : 0 < s.flowDepth) :
    s.char indent lineNo before ',' rest =
    .go { s with atNodeStart := true, flowPlain := false } 0 := by
  rw [h.char, Scan.token, if_neg (by simp), if_neg (by simp), if_neg (by simp), if_neg (by simp),
    if_neg (by simp), if_neg (by simp), if_neg (by simp [isBlank]), if_neg (by simp),
    if_neg (by simp),
    if_neg (by simp), if_neg (by simp), if_pos ⟨rfl, hin⟩]

theorem InNode.flowStart (h : s.InNode) {c : Char} (hc : c = '[' ∨ c = '{') :
    s.char indent lineNo before c rest = .go { s.node with flowDepth := s.flowDepth + 1 } 0 := by
  have hopen : (c = '[' ∨ c = '{') ∧ (0 < s.flowDepth ∨ s.atNodeStart) := ⟨hc, .inr h.atNodeStart⟩
  rw [h.toBare.char, Scan.token, if_pos hopen]
  rcases hc with rfl | rfl <;> simp [isBlank]

theorem Bare.flowEnd (h : s.Bare) {c : Char} (hc : c = ']' ∨ c = '}') :
    s.char indent lineNo before c rest =
      .go { s with flowDepth := s.flowDepth - 1, atNodeStart := false, flowPlain := false } 0 := by
  rw [h.char, Scan.token]
  rcases hc with rfl | rfl <;> simp [isBlank]

/-! ## Names and headers -/

theorem toNat_of_isDigit {c : Char} (h : c.isDigit = true) : 48 ≤ c.toNat ∧ c.toNat ≤ 57 := by
  simpa [Char.isDigit, UInt32.le_iff_toNat_le] using h

theorem toNat_of_isAlpha {c : Char} (h : c.isAlpha = true) :
    65 ≤ c.toNat ∧ c.toNat ≤ 90 ∨ 97 ≤ c.toNat ∧ c.toNat ≤ 122 := by
  simpa [Char.isAlpha, Char.isUpper, Char.isLower, UInt32.le_iff_toNat_le] using h

theorem isName_of_isAnchorChar {c : Char} (h : isAnchorChar c = true) : isName c = true := by
  have hletter : (48 ≤ c.toNat ∧ c.toNat ≤ 57 ∨ 65 ≤ c.toNat ∧ c.toNat ≤ 90 ∨
      97 ≤ c.toNat ∧ c.toNat ≤ 122) → isName c = true := by
    intro hc
    have hne : ∀ d : Char, ¬ (48 ≤ d.toNat ∧ d.toNat ≤ 57 ∨ 65 ≤ d.toNat ∧ d.toNat ≤ 90 ∨
        97 ≤ d.toNat ∧ d.toNat ≤ 122) → c ≠ d := by
      rintro d hd rfl
      exact hd hc
    have hspace : isWhitespace c = false := by
      simp only [isWhitespace, Bool.or_eq_false_iff, Bool.and_eq_false_iff, decide_eq_false_iff_not,
        beq_eq_false_iff_ne]
      omega
    simp [isName, hspace, isFlowIndicator, hne ',' (by decide), hne '[' (by decide),
      hne ']' (by decide),
      hne '{' (by decide), hne '}' (by decide)]
  simp only [isAnchorChar, Char.isAlphanum, Bool.or_eq_true, beq_iff_eq] at h
  rcases h with ((halpha | hdigit) | rfl) | rfl
  · exact hletter (.inr (toNat_of_isAlpha halpha))
  · exact hletter (.inl (toNat_of_isDigit hdigit))
  · rfl
  · rfl

theorem header_char {c : Char} (h : (c.isDigit || c == '+' || c == '-') = true) :
    (!(c == '#' || isBlank c)) = true := by
  simp only [Bool.or_eq_true, beq_iff_eq] at h
  rcases h with (hdigit | rfl) | rfl
  · have hd := toNat_of_isDigit hdigit
    have hne : ∀ d : Char, d.toNat < 48 → c ≠ d := by
      rintro d hlt rfl
      omega
    simp [isBlank, hne '#' (by decide), hne ' ' (by decide), hne '\t' (by decide)]
  · rfl
  · rfl

/-! ## Comments, tags and headers -/

theorem Bare.comment (h : s.Bare) (hprev : s.prevIsSpacing = true) :
    s.char indent lineNo before '#' rest =
    .endLine { s with plainPending := false, flowPlain := false } := by
  rw [h.char, Scan.token, if_neg (by simp), if_neg (by simp), if_pos ⟨rfl, hprev⟩]

theorem tagLength_tag {cs : List Char} (hverbatim : cs.head? ≠ some '<')
    (hcs : cs.all fun c => !endsTag c)
    (hnext : rest.head?.all endsTag) : tagLength (cs ++ rest) = cs.length := by
  have hhead : (cs ++ rest).head? ≠ some '<' := by
    cases cs with
    | nil =>
      intro hr
      have hr' : rest.head? = some '<' := by simpa using hr
      rw [hr'] at hnext
      cases hnext
    | cons c cs => simpa using hverbatim
  rw [tagLength, if_neg hhead]
  show ((cs ++ rest).takeWhile fun c => !endsTag c).length = cs.length
  rw [List.takeWhile_append_of_pos (by simpa using hcs)]
  cases rest with
  | nil => simp
  | cons d rest =>
    have hd : endsTag d = true := by simpa using hnext
    simp [hd]

theorem tagLength_verbatim {cs : List Char} (hcs : cs.all (· != '>')) :
    tagLength ('<' :: cs ++ '>' :: rest) = ('<' :: cs ++ ['>']).length := by
  have htake : ('<' :: cs ++ '>' :: rest).takeWhile (· ≠ '>') = '<' :: cs := by
    rw [List.takeWhile_append_of_pos (by simpa [List.all_eq_true] using hcs)]
    simp
  rw [tagLength, if_pos (by simp), htake, if_pos (by simp)]
  simp

/-- A tag is skipped, and a node still starts. -/
theorem InNode.tag (h : s.InNode) :
    s.char indent lineNo before '!' rest = .go s.node (tagLength rest) := by
  rw [h.toBare.char, Scan.token, if_neg (by simp), if_neg (by simp), if_neg (by simp),
    if_neg (by simp),
    if_pos ⟨rfl, h.atNodeStart⟩]

/-- The header of a block scalar ends the scan of the line. -/
theorem InNode.header (h : s.InNode) (hout : s.flowDepth = 0) {c : Char} (hc : c = '|' ∨ c = '>')
    {indicators trailing : List Char} (hind : indicators.all fun c => c.isDigit ||
     c == '+' || c == '-')
    (htrail : trailing.head?.all fun c => isBlank c || c == '#') :
    s.char indent lineNo before c (indicators ++ trailing) =
      .endLine { s with blockScalar := some (indent, lineNo), plainPending := false } := by
  have hheader : isHeader (indicators ++ trailing) = true := by
    have hkeep : ∀ c ∈ indicators, (!(c == '#' || isBlank c)) = true := fun c hc =>
      header_char (List.all_eq_true.mp hind c hc)
    rw [isHeader, List.takeWhile_append_of_pos hkeep, List.all_append, hind, Bool.true_and]
    cases trailing with
    | nil => rfl
    | cons d trailing =>
      have hd : (isBlank d || d == '#') = true := by simpa using htrail
      rw [Bool.or_comm] at hd
      rw [List.takeWhile_cons_of_neg (by simp [hd])]
      rfl
  have hstart : (c = '|' ∨ c = '>') ∧ s.atNodeStart ∧ s.flowDepth = 0 := ⟨hc, h.atNodeStart, hout⟩
  rw [h.toBare.char, Scan.token, if_pos hstart, if_pos hheader]
  rcases hc with rfl | rfl <;> simp

theorem Bare.found (h : s.Bare) (hprev : s.prevIsSpacing = true) {c : Char} (hc : c = '&' ∨ c = '*')
    {name : List Char} (hne : name ≠ []) (hname : name.all isAnchorChar) :
    s.char indent lineNo before c (name ++ rest) = .found := by
  cases name with
  | nil => exact absurd rfl hne
  | cons d name =>
    have hd : isName d = true := isName_of_isAnchorChar (List.all_eq_true.mp hname d (by simp))
    exact h.sign hprev hc (by simpa using hd)

end Scan

end Yaml

end ProtonWire
