import ProtonWire.Store.Yaml

/-!
# The license classifier

`src/xtask/src/license.rs`: a license expression is normalised, split into tokens and classified
while it is parsed. A malformed part has a verdict, which absorbs every other.

* `Compatibility`, `single`, `parseOr`, `parseAnd`, `parsePrimary`, `classify`: the source; a
  position is the tokens from it on;
* `Expr`, `Derives`: the grammar, with the expression of a sentence;
* `Derives.completes`, `sound_parseOr`: sentences are parsed, and what is parsed is a sentence;
* **`classify_spec`**: the classifier equals its grammar.
-/

namespace ProtonWire.License

/-! ## Verdicts -/

inductive Compatibility where
  | compatible
  | incompatible
  /-- Unknown or malformed. -/
  | unrecognized
  deriving DecidableEq

namespace Compatibility

/-- Any branch is enough, and an unrecognized one absorbs. -/
def or : Compatibility → Compatibility → Compatibility
  | unrecognized, _ => unrecognized
  | _, unrecognized => unrecognized
  | compatible, _ => compatible
  | _, compatible => compatible
  | incompatible, incompatible => incompatible

/-- Every branch is needed, and an unrecognized one absorbs. -/
def and : Compatibility → Compatibility → Compatibility
  | unrecognized, _ => unrecognized
  | _, unrecognized => unrecognized
  | incompatible, _ => incompatible
  | _, incompatible => incompatible
  | compatible, compatible => compatible

theorem or_eq_unrecognized {a b : Compatibility} :
    a.or b = unrecognized ↔ a = unrecognized ∨ b = unrecognized := by
  cases a <;> cases b <;> decide

theorem and_eq_unrecognized {a b : Compatibility} :
    a.and b = unrecognized ↔ a = unrecognized ∨ b = unrecognized := by
  cases a <;> cases b <;> decide

end Compatibility

def gpl3Compatible : List String :=
  ["MIT", "MIT-0", "Apache-2.0", "BSD-1-Clause", "BSD-2-Clause", "BSD-3-Clause", "ISC", "Zlib",
   "0BSD", "Unlicense",
    "MPL-2.0", "GPL-2.0-or-later", "LGPL-2.1-or-later", "LGPL-3.0-or-later", "BSL-1.0", "CC0-1.0",
    "Unicode-3.0",
    "Unicode-DFS-2016", "CDLA-Permissive-2.0", "bzip2-1.0.6", "WTFPL"]

/-- The verdict for one identifier. -/
def single (id : String) : Compatibility :=
  if id = "GPL-3.0" ∨ id = "GPL-3.0-only" ∨ id = "GPL-3.0-or-later" then .compatible
  else if id = "GPL-2.0" ∨ id = "GPL-2.0-only" then .incompatible
  else if id ∈ gpl3Compatible then .compatible
  else .unrecognized

/-! ## Tokens -/

/-- A slash is an `OR`, and parentheses stand alone. -/
def normalize (raw : List Char) : List Char :=
  ((raw.flatMap fun c => if c = '/' then " OR ".toList else [c]).flatMap
    fun c => if c = '(' then " ( ".toList else [c]).flatMap
    fun c => if c = ')' then " ) ".toList else [c]

/-- The maximal runs of characters that are no whitespace. -/
def splitWhitespace (text : List Char) : List String :=
  ((text.splitOnP Yaml.isWhitespace).filter (· ≠ [])).map String.ofList

/-- The tokens of a license expression. -/
def tokensOf (raw : String) : List String := splitWhitespace (normalize raw.toList)

/-! ## The parser -/

/-- A verdict, and the tokens that are left. -/
abbrev Parsed (tokens : List String) := Compatibility ×
    { rest : List String // rest.length ≤ tokens.length }

/-- The suffix of an identifier: `LLVM-exception` alone is accepted. -/
def exception (verdict : Compatibility) (tokens : List String) : Parsed tokens :=
  match tokens with
  | [] => (verdict, ⟨[], le_rfl⟩)
  | token :: rest =>
    if token = "WITH" then
      match rest with
      | [] => (.unrecognized, ⟨[], Nat.zero_le _⟩)
      | suffix :: rest =>
        if suffix = "LLVM-exception" then (verdict, ⟨rest, (Nat.le_succ _).trans (Nat.le_succ _)⟩)
        else (.unrecognized, ⟨suffix :: rest, Nat.le_succ _⟩)
    else (verdict, ⟨token :: rest, le_rfl⟩)

mutual

/-- `expr := and_expr (OR and_expr)*`. -/
def parseOr (tokens : List String) : Parsed tokens :=
  match parseAnd tokens with
  | (verdict, ⟨rest, hrest⟩) =>
    match orLoop verdict rest with
    | (verdict, ⟨last, hlast⟩) => (verdict, ⟨last, hlast.trans hrest⟩)
termination_by tokens.length * 4 + 3

/-- The branches of an `OR` that are left. -/
def orLoop (verdict : Compatibility) (tokens : List String) : Parsed tokens :=
  match tokens with
  | [] => (verdict, ⟨[], le_rfl⟩)
  | token :: rest =>
    if token = "OR" then
      match parseAnd rest with
      | (next, ⟨after, hafter⟩) =>
        match orLoop (verdict.or next) after with
        | (verdict, ⟨last, hlast⟩) => (verdict, ⟨last, (hlast.trans hafter).trans (Nat.le_succ _)⟩)
    else (verdict, ⟨token :: rest, le_rfl⟩)
termination_by tokens.length * 4

/-- `and_expr := primary (AND primary)*`. -/
def parseAnd (tokens : List String) : Parsed tokens :=
  match parsePrimary tokens with
  | (verdict, ⟨rest, hrest⟩) =>
    match andLoop verdict rest with
    | (verdict, ⟨last, hlast⟩) => (verdict, ⟨last, hlast.trans hrest⟩)
termination_by tokens.length * 4 + 2

/-- The branches of an `AND` that are left. -/
def andLoop (verdict : Compatibility) (tokens : List String) : Parsed tokens :=
  match tokens with
  | [] => (verdict, ⟨[], le_rfl⟩)
  | token :: rest =>
    if token = "AND" then
      match parsePrimary rest with
      | (next, ⟨after, hafter⟩) =>
        match andLoop (verdict.and next) after with
        | (verdict, ⟨last, hlast⟩) => (verdict, ⟨last, (hlast.trans hafter).trans (Nat.le_succ _)⟩)
    else (verdict, ⟨token :: rest, le_rfl⟩)
termination_by tokens.length * 4

/-- `primary := '(' expr ')' | id (WITH LLVM-exception)?`. -/
def parsePrimary (tokens : List String) : Parsed tokens :=
  match tokens with
  | [] => (.unrecognized, ⟨[], le_rfl⟩)
  | token :: rest =>
    if token = "(" then
      match parseOr rest with
      | (_, ⟨[], _⟩) => (.unrecognized, ⟨[], Nat.zero_le _⟩)
      | (inner, ⟨close :: after, hafter⟩) =>
        if close = ")" then (inner, ⟨after, (Nat.le_of_succ_le hafter).trans (Nat.le_succ _)⟩)
        else (.unrecognized, ⟨close :: after, hafter.trans (Nat.le_succ _)⟩)
    else if token = ")" ∨ token = "OR" ∨ token = "AND" ∨ token = "WITH" then
      -- no token is taken here
      (.unrecognized, ⟨token :: rest, le_rfl⟩)
    else
      match exception (single token) rest with
      | (verdict, ⟨after, hafter⟩) => (verdict, ⟨after, hafter.trans (Nat.le_succ _)⟩)
termination_by tokens.length * 4 + 1

end

/-- The verdict for a license expression. -/
def classify (raw : String) : Compatibility :=
  match parseOr (tokensOf raw) with
  | (verdict, ⟨rest, _⟩) => if rest ≠ [] then .unrecognized else verdict

/-! ## The grammar -/

/-- A license expression. -/
inductive Expr where
  | id (name : String)
  | or (left right : Expr)
  | and (left right : Expr)

namespace Expr

/-- The identifiers of an expression. -/
def ids : Expr → List String
  | id name => [name]
  | or left right => left.ids ++ right.ids
  | and left right => left.ids ++ right.ids

/-- The truth value under a valuation of the identifiers. -/
def eval (valuation : String → Bool) : Expr → Bool
  | id name => valuation name
  | or left right => left.eval valuation || right.eval valuation
  | and left right => left.eval valuation && right.eval valuation

/-- The verdict, composed as the parser composes it. -/
def verdict : Expr → Compatibility
  | id name => single name
  | or left right => left.verdict.or right.verdict
  | and left right => left.verdict.and right.verdict

theorem verdict_eq_unrecognized (e : Expr) :
    e.verdict = .unrecognized ↔ ∃ id ∈ e.ids, single id = .unrecognized := by
  induction e with
  | id name => simp [verdict, ids]
  | or left right ihl ihr =>
    rw [verdict, Compatibility.or_eq_unrecognized, ihl, ihr, ids]
    simp only [List.mem_append, or_and_right, exists_or]
  | and left right ihl ihr =>
    rw [verdict, Compatibility.and_eq_unrecognized, ihl, ihr, ids]
    simp only [List.mem_append, or_and_right, exists_or]

theorem verdict_eq_of_recognized {e : Expr} (h : e.verdict ≠ .unrecognized) :
    e.verdict = if e.eval fun id => single id = .compatible then .compatible
    else .incompatible := by
  induction e with
  | id name =>
    rw [verdict] at h ⊢
    rw [eval]
    cases hname : single name with
    | compatible => rfl
    | incompatible => rfl
    | unrecognized => exact absurd hname h
  | or left right ihl ihr =>
    rw [verdict, Ne, Compatibility.or_eq_unrecognized, not_or] at h
    rw [verdict, eval, ihl h.1, ihr h.2]
    cases left.eval _ <;> cases right.eval _ <;> rfl
  | and left right ihl ihr =>
    rw [verdict, Ne, Compatibility.and_eq_unrecognized, not_or] at h
    rw [verdict, eval, ihl h.1, ihr h.2]
    cases left.eval _ <;> cases right.eval _ <;> rfl

end Expr

/-- A token that is neither punctuation nor a keyword. -/
def IsId (token : String) : Prop :=
  token ≠ "(" ∧ token ≠ ")" ∧ token ≠ "OR" ∧ token ≠ "AND" ∧ token ≠ "WITH"

/-- The nonterminals. -/
inductive Level where
  | expr
  | andExpr
  | primary

/-- `expr := and_expr (OR and_expr)*`, `and_expr := primary (AND primary)*` and
`primary := '(' expr ')' | id (WITH LLVM-exception)?`, with the expression of each sentence. -/
inductive Derives : Level → List String → Expr → Prop where
  | orOne {ts : List String} {e : Expr} (first : Derives .andExpr ts e) : Derives .expr ts e
  | orMore {ts us : List String} {e f : Expr} (init : Derives .expr ts e)
    (last : Derives .andExpr us f) :
      Derives .expr (ts ++ "OR" :: us) (.or e f)
  | andOne {ts : List String} {e : Expr} (first : Derives .primary ts e) : Derives .andExpr ts e
  | andMore {ts us : List String} {e f : Expr} (init : Derives .andExpr ts e)
    (last : Derives .primary us f) :
      Derives .andExpr (ts ++ "AND" :: us) (.and e f)
  | group {ts : List String} {e : Expr} (inner : Derives .expr ts e) :
    Derives .primary ("(" :: (ts ++ [")"])) e
  | id {name : String} (isId : IsId name) : Derives .primary [name] (.id name)
  | exception {name : String} (isId : IsId name) :
      Derives .primary [name, "WITH", "LLVM-exception"] (.id name)

/-! ## One step of the parser -/

/-- The verdict and the tokens that are left. -/
def Parsed.plain {tokens : List String} (parsed : Parsed tokens) : Compatibility × List String :=
  (parsed.1, parsed.2.1)

section
variable {verdict : Compatibility} {token : String} {tokens rest : List String}

theorem parseOr_plain (tokens : List String) :
    (parseOr tokens).plain = (orLoop (parseAnd tokens).plain.1
     (parseAnd tokens).plain.2).plain := by
  rw [parseOr]
  rfl

theorem parseAnd_plain (tokens : List String) :
    (parseAnd tokens).plain = (andLoop (parsePrimary tokens).plain.1
     (parsePrimary tokens).plain.2).plain := by
  rw [parseAnd]
  rfl

theorem orLoop_stop (h : tokens.head? ≠ some "OR") :
    (orLoop verdict tokens).plain = (verdict, tokens) := by
  cases tokens with
  | nil =>
    rw [orLoop]
    rfl
  | cons token rest =>
    rw [orLoop, if_neg fun heq => h (congrArg some heq)]
    rfl

theorem orLoop_or (rest : List String) :
    (orLoop verdict ("OR" :: rest)).plain =
    (orLoop (verdict.or (parseAnd rest).plain.1) (parseAnd rest).plain.2).plain := by
  rw [orLoop, if_pos rfl]
  rfl

theorem andLoop_stop (h : tokens.head? ≠ some "AND") :
    (andLoop verdict tokens).plain = (verdict, tokens) := by
  cases tokens with
  | nil =>
    rw [andLoop]
    rfl
  | cons token rest =>
    rw [andLoop, if_neg fun heq => h (congrArg some heq)]
    rfl

theorem andLoop_and (rest : List String) : (andLoop verdict ("AND" :: rest)).plain =
    (andLoop (verdict.and (parsePrimary rest).plain.1) (parsePrimary rest).plain.2).plain := by
  rw [andLoop, if_pos rfl]
  rfl

theorem exception_stop (h : tokens.head? ≠ some "WITH") :
    (exception verdict tokens).plain = (verdict, tokens) := by
  cases tokens with
  | nil => rfl
  | cons token rest =>
    rw [exception.eq_def]
    dsimp only
    rw [if_neg fun heq => h (congrArg some heq)]
    rfl

theorem parsePrimary_id (h : IsId token) :
    (parsePrimary (token :: rest)).plain = (exception (single token) rest).plain := by
  obtain ⟨hopen, hclose, hor, hand, hwith⟩ := h
  rw [parsePrimary, if_neg hopen, if_neg (by simp [hclose, hor, hand, hwith])]
  rfl

theorem parsePrimary_group {inner : Compatibility} {after : List String}
    (h : (parseOr rest).plain = (inner, ")" :: after)) :
    (parsePrimary ("(" :: rest)).plain = (inner, after) := by
  rw [parsePrimary, if_pos rfl]
  revert h
  generalize parseOr rest = parsed
  intro h
  obtain ⟨verdict, ⟨left, hleft⟩⟩ := parsed
  cases h
  rfl

theorem parsePrimary_open {inner : Compatibility} {left : List String}
    (h : (parseOr rest).plain = (inner, left))
    (hopen : left.head? ≠ some ")") : (parsePrimary ("(" :: rest)).plain.1 = .unrecognized := by
  rw [parsePrimary, if_pos rfl]
  revert h
  generalize parseOr rest = parsed
  intro h
  obtain ⟨verdict, ⟨left, hleft⟩⟩ := parsed
  cases h
  cases left with
  | nil => rfl
  | cons close after =>
    dsimp only
    rw [if_neg fun heq => hopen (congrArg some heq)]
    rfl

theorem parsePrimary_reserved (hopen : token ≠ "(") (h : ¬ IsId token) :
    (parsePrimary (token :: rest)).plain.1 = .unrecognized := by
  have hreserved : token = ")" ∨ token = "OR" ∨ token = "AND" ∨ token = "WITH" := by
    by_contra hne
    push Not at hne
    exact h ⟨hopen, hne⟩
  rw [parsePrimary, if_neg hopen, if_pos hreserved]
  rfl

/-- The suffix of an identifier: none, or the one that is accepted. -/
theorem exception_cases (verdict : Compatibility) (tokens : List String) :
    (exception verdict tokens).plain.1 = .unrecognized ∨
    (exception verdict tokens).plain = (verdict, tokens) ∨
      ∃ after, tokens = "WITH" :: "LLVM-exception" :: after ∧
        (exception verdict tokens).plain = (verdict, after) := by
  by_cases hstop : tokens.head? = some "WITH"
  · cases tokens with
    | nil => cases hstop
    | cons token rest =>
      obtain rfl : token = "WITH" := Option.some.inj hstop
      cases rest with
      | nil => exact .inl rfl
      | cons suffix rest =>
        by_cases hsuffix : suffix = "LLVM-exception"
        · subst hsuffix
          exact .inr (.inr ⟨rest, rfl, rfl⟩)
        · left
          rw [exception.eq_def]
          dsimp only
          rw [if_pos rfl, if_neg hsuffix]
          rfl
  · exact .inr (.inl (exception_stop hstop))

end

/-! ## Sentences are parsed -/

/-- What the parser makes of a sentence with tokens behind it. -/
def Completes : Level → List String → Expr → Prop
  | .expr, ts, e => ∀ after : List String, after.head? ≠ some "WITH" → after.head? ≠ some "AND" →
      (parseOr (ts ++ after)).plain = (orLoop e.verdict after).plain
  | .andExpr, ts, e => ∀ after : List String, after.head? ≠ some "WITH" →
      (parseAnd (ts ++ after)).plain = (andLoop e.verdict after).plain
  | .primary, ts, e => ∀ after : List String, after.head? ≠ some "WITH" →
      (parsePrimary (ts ++ after)).plain = (e.verdict, after)

/-- **A sentence is parsed to its verdict.** -/
theorem Derives.completes {level : Level} {ts : List String} {e : Expr} (h : Derives level ts e) :
    Completes level ts e := by
  induction h with
  | @orOne ts e _ ih =>
    intro after hwith hand
    have hfirst : (parseAnd (ts ++ after)).plain = (e.verdict, after) :=
      (ih after hwith).trans (andLoop_stop hand)
    rw [parseOr_plain, hfirst]
  | @orMore ts us e f _ _ ihInit ihLast =>
    intro after hwith hand
    have hinit := ihInit ("OR" :: (us ++ after)) (by simp) (by simp)
    have hlast : (parseAnd (us ++ after)).plain = (f.verdict, after) :=
      (ihLast after hwith).trans (andLoop_stop hand)
    rw [List.append_assoc, List.cons_append, hinit, orLoop_or, hlast]
    rfl
  | @andOne ts e _ ih =>
    intro after hwith
    have hfirst := ih after hwith
    rw [parseAnd_plain, hfirst]
  | @andMore ts us e f _ _ ihInit ihLast =>
    intro after hwith
    have hinit := ihInit ("AND" :: (us ++ after)) (by simp)
    have hlast := ihLast after hwith
    rw [List.append_assoc, List.cons_append, hinit, andLoop_and, hlast]
    rfl
  | @group ts e _ ih =>
    intro after _
    have hinner := (ih (")" :: after) (by simp) (by simp)).trans (orLoop_stop (by simp))
    rw [List.cons_append, List.append_assoc, List.singleton_append]
    exact parsePrimary_group hinner
  | id isId =>
    intro after hwith
    exact (parsePrimary_id isId).trans (exception_stop hwith)
  | exception isId =>
    intro after _
    exact parsePrimary_id isId

/-! ## What is parsed is a sentence -/

/-- What is taken is a sentence, unless the verdict is that of a malformed one. -/
def Sound (level : Level) (tokens : List String) (result : Compatibility × List String) : Prop :=
  result.1 ≠ .unrecognized → ∃ ts e, tokens = ts ++ result.2 ∧ Derives level ts e ∧
  e.verdict = result.1

/-- The same behind a sentence with the verdict so far. -/
def LoopSound (level : Level) (verdict : Compatibility) (tokens : List String)
    (result : Compatibility × List String) :
    Prop :=
  result.1 ≠ .unrecognized → verdict ≠ .unrecognized ∧ ∀ us f, Derives level us f →
  f.verdict = verdict →
    ∃ ts e, tokens = ts ++ result.2 ∧ Derives level (us ++ ts) e ∧ e.verdict = result.1

/-- A loop that stops takes nothing. -/
theorem LoopSound.stop (level : Level) (verdict : Compatibility) (tokens : List String) :
    LoopSound level verdict tokens (verdict, tokens) :=
  fun h => ⟨h, fun us f hf hv => ⟨[], f, rfl, by rwa [List.append_nil], hv⟩⟩

theorem length_plain_le {tokens : List String} (parsed : Parsed tokens) :
    parsed.plain.2.length ≤ tokens.length :=
  parsed.2.2

theorem sound_parsePrimary {tokens : List String}
    (hor : ∀ rest : List String, rest.length < tokens.length →
     Sound .expr rest (parseOr rest).plain) :
    Sound .primary tokens (parsePrimary tokens).plain := by
  intro hverdict
  cases tokens with
  | nil =>
    rw [parsePrimary] at hverdict
    exact absurd rfl hverdict
  | cons token rest =>
    by_cases hopen : token = "("
    · subst hopen
      obtain ⟨inner, left, hinner⟩ : ∃ inner left, (parseOr rest).plain = (inner, left) :=
        ⟨_, _, rfl⟩
      by_cases hclose : left.head? = some ")"
      · obtain ⟨after, rfl⟩ : ∃ after, left = ")" :: after := by
          cases left with
          | nil => cases hclose
          | cons close after => exact ⟨after, by rw [Option.some.inj hclose]⟩
        have hgroup := parsePrimary_group hinner
        rw [hgroup] at hverdict ⊢
        have hsound := hor rest (by simp)
        rw [hinner] at hsound
        obtain ⟨ts, e, htokens, hderives, he⟩ := hsound hverdict
        exact ⟨"(" :: (ts ++ [")"]), e, by rw [htokens]; simp, .group hderives, he⟩
      · exact absurd (parsePrimary_open hinner hclose) hverdict
    · by_cases hid : IsId token
      · rw [parsePrimary_id hid] at hverdict ⊢
        rcases exception_cases (single token) rest with hbad | hnone | ⟨after, rfl, hafter⟩
        · exact absurd hbad hverdict
        · rw [hnone]
          exact ⟨[token], .id token, rfl, .id hid, rfl⟩
        · rw [hafter]
          exact ⟨_, .id token, rfl, .exception hid, rfl⟩
      · exact absurd (parsePrimary_reserved hopen hid) hverdict

theorem sound_andLoop {n : ℕ} (hprimary : ∀ rest : List String, rest.length < n →
    Sound .primary rest (parsePrimary rest).plain) {tokens : List String} (hlen : tokens.length ≤ n)
    (verdict : Compatibility) :
    LoopSound .andExpr verdict tokens (andLoop verdict tokens).plain := by
  induction hm : tokens.length using Nat.strong_induction_on generalizing tokens verdict with
  | _ m ih =>
    by_cases hhead : tokens.head? = some "AND"
    · obtain ⟨rest, rfl⟩ : ∃ rest, tokens = "AND" :: rest := by
        cases tokens with
        | nil => cases hhead
        | cons token rest => exact ⟨rest, by rw [Option.some.inj hhead]⟩
      rw [List.length_cons] at hlen hm
      obtain ⟨next, left, hnext⟩ : ∃ next left, (parsePrimary rest).plain = (next, left) :=
        ⟨_, _, rfl⟩
      have hleft : left.length ≤ rest.length := by
        have := length_plain_le (parsePrimary rest)
        rwa [hnext] at this
      rw [andLoop_and, hnext]
      intro hverdict
      obtain ⟨hand, hloop⟩ := ih left.length (by omega) (by omega) (verdict.and next) rfl hverdict
      rw [Ne, Compatibility.and_eq_unrecognized, not_or] at hand
      refine ⟨hand.1, fun us f hf hv => ?_⟩
      have hsound := hprimary rest (by omega)
      rw [hnext] at hsound
      obtain ⟨ts, e, htokens, hderives, he⟩ := hsound hand.2
      obtain ⟨more, g, hmore, hg, hgv⟩ := hloop (us ++ "AND" :: ts) (.and f e)
        (.andMore hf hderives)
        (by rw [Expr.verdict, hv, he])
      refine ⟨"AND" :: (ts ++ more), g, ?_, by simpa using hg, hgv⟩
      calc "AND" :: rest = "AND" :: (ts ++ left) := by rw [htokens]
        _ = "AND" :: (ts ++ (more ++ (andLoop (verdict.and next) left).plain.2)) :=
          congrArg (fun l => "AND" :: (ts ++ l)) hmore
        _ = _ := by simp
    · rw [andLoop_stop hhead]
      exact .stop _ _ _

theorem sound_parseAnd {tokens : List String}
    (hor : ∀ rest : List String, rest.length < tokens.length →
     Sound .expr rest (parseOr rest).plain) :
    Sound .andExpr tokens (parseAnd tokens).plain := by
  have hprimary : ∀ rest : List String, rest.length ≤ tokens.length →
    Sound .primary rest (parsePrimary rest).plain :=
    fun rest hrest => sound_parsePrimary fun after hafter => hor after (by omega)
  intro hverdict
  rw [parseAnd_plain] at hverdict ⊢
  obtain ⟨hfirst, hloop⟩ := sound_andLoop (fun rest hrest => hprimary rest (Nat.le_of_lt hrest))
    (length_plain_le (parsePrimary tokens)) (parsePrimary tokens).plain.1 hverdict
  obtain ⟨ts, e, htokens, hderives, he⟩ := hprimary tokens le_rfl hfirst
  obtain ⟨more, f, hmore, hf, hfv⟩ := hloop ts e (.andOne hderives) he
  exact ⟨ts ++ more, f, by rw [List.append_assoc, ← hmore, ← htokens], hf, hfv⟩

theorem sound_orLoop {n : ℕ} (hand : ∀ rest : List String, rest.length < n →
    Sound .andExpr rest (parseAnd rest).plain)
    {tokens : List String} (hlen : tokens.length ≤ n) (verdict : Compatibility) :
    LoopSound .expr verdict tokens (orLoop verdict tokens).plain := by
  induction hm : tokens.length using Nat.strong_induction_on generalizing tokens verdict with
  | _ m ih =>
    by_cases hhead : tokens.head? = some "OR"
    · obtain ⟨rest, rfl⟩ : ∃ rest, tokens = "OR" :: rest := by
        cases tokens with
        | nil => cases hhead
        | cons token rest => exact ⟨rest, by rw [Option.some.inj hhead]⟩
      rw [List.length_cons] at hlen hm
      obtain ⟨next, left, hnext⟩ : ∃ next left, (parseAnd rest).plain = (next, left) := ⟨_, _, rfl⟩
      have hleft : left.length ≤ rest.length := by
        have := length_plain_le (parseAnd rest)
        rwa [hnext] at this
      rw [orLoop_or, hnext]
      intro hverdict
      obtain ⟨hor, hloop⟩ := ih left.length (by omega) (by omega) (verdict.or next) rfl hverdict
      rw [Ne, Compatibility.or_eq_unrecognized, not_or] at hor
      refine ⟨hor.1, fun us f hf hv => ?_⟩
      have hsound := hand rest (by omega)
      rw [hnext] at hsound
      obtain ⟨ts, e, htokens, hderives, he⟩ := hsound hor.2
      obtain ⟨more, g, hmore, hg, hgv⟩ := hloop (us ++ "OR" :: ts) (.or f e) (.orMore hf hderives)
        (by rw [Expr.verdict, hv, he])
      refine ⟨"OR" :: (ts ++ more), g, ?_, by simpa using hg, hgv⟩
      calc "OR" :: rest = "OR" :: (ts ++ left) := by rw [htokens]
        _ = "OR" :: (ts ++ (more ++ (orLoop (verdict.or next) left).plain.2)) :=
          congrArg (fun l => "OR" :: (ts ++ l)) hmore
        _ = _ := by simp
    · rw [orLoop_stop hhead]
      exact .stop _ _ _

/-- **What is parsed with a recognized verdict is a sentence.** -/
theorem sound_parseOr (tokens : List String) : Sound .expr tokens (parseOr tokens).plain := by
  induction hn : tokens.length using Nat.strong_induction_on generalizing tokens with
  | _ n ih =>
    have hor : ∀ rest : List String, rest.length < n → Sound .expr rest (parseOr rest).plain :=
      fun rest hrest => ih rest.length hrest rest rfl
    have hand : ∀ rest : List String, rest.length ≤ n → Sound .andExpr rest (parseAnd rest).plain :=
      fun rest hrest => sound_parseAnd fun after hafter => hor after (by omega)
    intro hverdict
    rw [parseOr_plain] at hverdict ⊢
    obtain ⟨hfirst, hloop⟩ := sound_orLoop (fun rest hrest => hand rest (Nat.le_of_lt hrest))
      (hn ▸ length_plain_le (parseAnd tokens)) (parseAnd tokens).plain.1 hverdict
    obtain ⟨ts, e, htokens, hderives, he⟩ := hand tokens hn.le hfirst
    obtain ⟨more, f, hmore, hf, hfv⟩ := hloop ts e (.orOne hderives) he
    exact ⟨ts ++ more, f, by rw [List.append_assoc, ← hmore, ← htokens], hf, hfv⟩

/-! ## The classifier -/

theorem classify_eq (raw : String) : classify raw =
    if (parseOr (tokensOf raw)).plain.2 ≠ [] then .unrecognized
    else (parseOr (tokensOf raw)).plain.1 := rfl

theorem classify_of_derives {raw : String} {e : Expr} (h : Derives .expr (tokensOf raw) e) :
    classify raw = e.verdict := by
  have hparsed := (h.completes [] (by simp) (by simp)).trans (orLoop_stop (by simp))
  rw [List.append_nil] at hparsed
  rw [classify_eq, hparsed, if_neg (by simp)]

theorem exists_derives {raw : String} (h : classify raw ≠ .unrecognized) :
    ∃ e, Derives .expr (tokensOf raw) e := by
  rw [classify_eq] at h
  split_ifs at h with hrest
  · exact absurd rfl h
  · obtain ⟨ts, e, htokens, hderives, -⟩ := sound_parseOr (tokensOf raw) h
    rw [not_not.mp hrest, List.append_nil] at htokens
    exact ⟨e, htokens ▸ hderives⟩

/-- **The classifier equals its grammar.** A string is unrecognized exactly when its tokens are no
sentence, or a sentence with an identifier that is not recognized. Another is compatible exactly
when its expression is true, and incompatible when it is false. -/
theorem classify_spec (raw : String) :
    (classify raw = .unrecognized ↔ (¬ ∃ e, Derives .expr (tokensOf raw) e) ∨
      ∃ e, Derives .expr (tokensOf raw) e ∧ ∃ id ∈ e.ids, single id = .unrecognized) ∧
    ∀ e, Derives .expr (tokensOf raw) e → (∀ id ∈ e.ids, single id ≠ .unrecognized) →
      (classify raw = .compatible ↔ (e.eval fun id => single id = .compatible) = true) ∧
      (classify raw = .incompatible ↔ (e.eval fun id => single id = .compatible) = false) := by
  refine ⟨⟨fun h => ?_, ?_⟩, fun e he hids => ?_⟩
  · by_cases hsentence : ∃ e, Derives .expr (tokensOf raw) e
    · obtain ⟨e, he⟩ := hsentence
      exact .inr ⟨e, he, e.verdict_eq_unrecognized.mp (classify_of_derives he ▸ h)⟩
    · exact .inl hsentence
  · rintro (hnone | ⟨e, he, hid⟩)
    · by_contra h
      exact hnone (exists_derives h)
    · rw [classify_of_derives he]
      exact e.verdict_eq_unrecognized.mpr hid
  · have hverdict : e.verdict ≠ .unrecognized := by
      rw [Ne, e.verdict_eq_unrecognized]
      push Not
      exact hids
    rw [classify_of_derives he, Expr.verdict_eq_of_recognized hverdict]
    cases e.eval fun id => decide (single id = .compatible) <;> simp

/-- The slash is an `OR`: one compatible branch is enough. -/
theorem classify_spec_slash : classify "MIT/GPL-2.0" = .compatible := by
  have htokens : tokensOf "MIT/GPL-2.0" = ["MIT"] ++ "OR" :: ["GPL-2.0"] := by decide
  have hderives : Derives .expr (tokensOf "MIT/GPL-2.0") (.or (.id "MIT") (.id "GPL-2.0")) := by
    rw [htokens]
    exact .orMore (.orOne (.andOne (.id (by simp [IsId])))) (.andOne (.id (by simp [IsId])))
  exact ((classify_spec "MIT/GPL-2.0").2 _ hderives (by decide)).1.mpr (by decide)

end ProtonWire.License
