import Mathlib

/-!
# The anchor policy

`crates/store/src/yaml.rs`: what is refused before the YAML parser sees a document. A text is the
list of its characters.

* `normalizeLineBreaks`, `lines`: the copy the scan runs on;
* `Scan`: the state of the scan, `Scan.char` one character of a line;
* `findAnchorOrAliasToken`: the scan;
* `fromStr`: what is checked before the parser runs.
-/

namespace ProtonWire

namespace Yaml

/-! ## Characters -/

/-- A space or a tab. -/
def isBlank (c : Char) : Bool := c == ' ' || c == '\t'

/-- `char::is_whitespace`: the Unicode property `White_Space`. -/
def isWhitespace (c : Char) : Bool :=
  let n := c.toNat
  (9 ≤ n && n ≤ 13) || n == 0x20 || n == 0x85 || n == 0xA0 || n == 0x1680 ||
  (0x2000 ≤ n && n ≤ 0x200A) ||
    n == 0x2028 || n == 0x2029 || n == 0x202F || n == 0x205F || n == 0x3000

/-- A character that separates or encloses the entries of a flow collection. -/
def isFlowIndicator (c : Char) : Bool := c == ',' || c == '[' || c == ']' || c == '{' || c == '}'

/-- The characters after which `prev_is_spacing` is set. -/
def isSpacing (c : Char) : Bool := isBlank c || isFlowIndicator c || c == ':' ||
    c == '-' || c == '?'

/-- The byte order mark. -/
def byteOrderMark : Char := Char.ofNat 0xFEFF

/-- `U+0085`, `U+2028` and `U+2029`. -/
def isUnicodeBreak (c : Char) : Bool := c.toNat == 0x85 || c.toNat == 0x2028 || c.toNat == 0x2029

/-- The UTF-8 encoding of the character has the byte `\r`, `0xC2` or `0xE2`. -/
def hasBreakByte (c : Char) : Bool :=
  c == '\r' || (0x80 ≤ c.toNat && c.toNat ≤ 0xBF) || (0x2000 ≤ c.toNat && c.toNat ≤ 0x2FFF)

/-! ## Lines -/

/-- The loop of `normalize_line_breaks`. -/
def replaceBreaks : List Char → List Char
  | [] => []
  | '\r' :: '\n' :: cs => '\n' :: replaceBreaks cs
  | c :: cs => (if c = '\r' ∨ isUnicodeBreak c then '\n' else c) :: replaceBreaks cs

/-- `normalize_line_breaks`. -/
def normalizeLineBreaks (input : List Char) : List Char :=
  if input.any hasBreakByte then replaceBreaks input else input

/-- The line whose characters, last first, were read before a line feed. One carriage return belongs
to the break. -/
def endLine : List Char → List Char
  | '\r' :: cs => cs.reverse
  | cs => cs.reverse

/-- `str::lines`, from inside a line. -/
def linesFrom (read : List Char) : List Char → List (List Char)
  | [] => if read = [] then [] else [read.reverse]
  | '\n' :: cs => endLine read :: linesFrom [] cs
  | c :: cs => linesFrom (c :: read) cs

/-- `str::lines`. -/
def lines (input : List Char) : List (List Char) := linesFrom [] input

/-- The length of `line` less that of `line.trim_start_matches([' ', '\t'])`. -/
def indentOf (line : List Char) : ℕ := (line.takeWhile isBlank).length

/-! ## The scan -/

/-- What the scan remembers. `blockScalar` is the threshold of the open block scalar and the number
of the line of its header; the last two are reset at the head of a line. -/
structure Scan where
  inDoubleQuote : Bool
  inSingleQuote : Bool
  blockScalar : Option (ℕ × ℕ)
  flowDepth : ℕ
  plainPending : Bool
  ctxIndent : ℕ
  flowPlain : Bool
  atNodeStart : Bool
  prevIsSpacing : Bool
  deriving DecidableEq

/-- Before the first line. -/
def Scan.start : Scan where
  inDoubleQuote := false
  inSingleQuote := false
  blockScalar := none
  flowDepth := 0
  plainPending := false
  ctxIndent := 0
  flowPlain := false
  atNodeStart := true
  prevIsSpacing := true

/-- What one character comes to: an anchor or an alias, the end of the line's scan, or the next
character but `skip`. -/
inductive Next where
  | found
  | endLine (s : Scan)
  | go (s : Scan) (skip : ℕ)
  deriving DecidableEq

namespace Scan

/-- `spaced_or_eol`. -/
def spacedOrEol (rest : List Char) : Bool := rest.head?.all isBlank

/-- A character that can begin the name of an anchor or an alias. -/
def isName (c : Char) : Bool := !isWhitespace c && !isFlowIndicator c

/-- How many characters after `!` the tag has. -/
def tagLength (rest : List Char) : ℕ :=
  if rest.head? = some '<' then
    (rest.takeWhile (· ≠ '>')).length + if '>' ∈ rest then 1 else 0
  else (rest.takeWhile fun c => !(isBlank c || c == '#' || isFlowIndicator c)).length

/-- What follows `|` or `>` is indentation indicators and chomping markers. -/
def isHeader (rest : List Char) : Bool :=
  (rest.takeWhile fun c => !(c == '#' || isBlank c)).all fun c => c.isDigit || c == '+' || c == '-'

/-- Three dashes and a blank, or the end of the line. -/
def isMarker (rest : List Char) : Bool :=
  rest.take 2 == ['-', '-'] && spacedOrEol (rest.drop 2)

/-- A plain scalar is in flight. -/
def plain (s : Scan) : Scan :=
  { s with atNodeStart := false, plainPending := s.flowDepth == 0, flowPlain := decide (0 < s.flowDepth) }

/-- A node starts next. -/
def node (s : Scan) :
    Scan := { s with atNodeStart := true, plainPending := false, flowPlain := false }

/-- A node starts next, after an indicator of a line with this indentation. -/
def indicator (s : Scan) (indent : ℕ) : Scan :=
  { s.node with ctxIndent := if s.flowDepth = 0 then indent else s.ctxIndent }

/-- A quoted scalar ends. -/
def endQuote (s : Scan) : Scan := { s with atNodeStart := false, flowPlain := false }

/-- A character of a double-quoted scalar. `before` is the line up to it, last first. -/
def inDouble (s : Scan) (before : List Char) (c : Char) : Next :=
  if c = '"' ∧
  (before.takeWhile (· = '\\')).length % 2 = 0 then .go { s.endQuote with inDoubleQuote := false } 0
  else .go s 0

/-- A character of a single-quoted scalar. -/
def inSingle (s : Scan) (c : Char) (rest : List Char) : Next :=
  if c = '\'' then
    if rest.head? = some '\'' then .go s 1 else .go { s.endQuote with inSingleQuote := false } 0
  else .go s 0

/-- A character outside the quotes. -/
def token (s : Scan) (indent lineNo : ℕ) (before : List Char) (c : Char)
    (rest : List Char) : Next :=
  if c = '"' ∧ s.atNodeStart then
    .go { s with inDoubleQuote := true, plainPending := false, flowPlain := false } 0
  else if c = '\'' ∧ s.atNodeStart then
    .go { s with inSingleQuote := true, plainPending := false, flowPlain := false } 0
  else if c = '#' ∧ s.prevIsSpacing then
  .endLine { s with plainPending := false, flowPlain := false }
  else if (c = '*' ∨ c = '&') ∧ s.prevIsSpacing then
    if rest.head?.any isName then .found else .go s.plain 0
  else if c = '!' ∧ s.atNodeStart then .go s.node (tagLength rest)
  else if (c = '|' ∨ c = '>') ∧ s.atNodeStart ∧ s.flowDepth = 0 then
    if isHeader rest then .endLine { s with
        blockScalar := some (indent, lineNo)
        plainPending := false }
    else .go { s with atNodeStart := false, plainPending := true } 0
  else if isBlank c then .go s 0
  else if c = ':' ∧ (spacedOrEol rest ∨ 0 < s.flowDepth ∧ ¬ s.flowPlain) then
  .go (s.indicator indent) 0
  else if c = '-' ∧ before = [] ∧ s.atNodeStart ∧ s.flowDepth = 0 ∧ isMarker rest then .go s.node 2
  else if c = '-' ∧ s.atNodeStart ∧ spacedOrEol rest then .go (s.indicator indent) 0
  else if c = '?' ∧ s.atNodeStart ∧ (spacedOrEol rest ∨ 0 < s.flowDepth) then
  .go (s.indicator indent) 0
  else if c = ',' ∧ 0 < s.flowDepth then .go { s with atNodeStart := true, flowPlain := false } 0
  else if (c = '[' ∨ c = '{') ∧ (0 < s.flowDepth ∨ s.atNodeStart) then
    .go { s.node with flowDepth := s.flowDepth + 1 } 0
  else if c = ']' ∨ c = '}' then
    .go { s with flowDepth := s.flowDepth - 1, atNodeStart := false, flowPlain := false } 0
  else .go s.plain 0

/-- One character of a line. -/
def char (s : Scan) (indent lineNo : ℕ) (before : List Char) (c : Char) (rest : List Char) : Next :=
  if s.inDoubleQuote then s.inDouble before c
  else if s.inSingleQuote then s.inSingle c rest
  else s.token indent lineNo before c rest

/-- The loop over the characters of a line: `none` at an anchor or an alias. -/
def charsFrom (indent lineNo : ℕ) (s : Scan) (before : List Char) : ℕ → List Char → Option Scan
  | _, [] => some s
  | skip + 1, c :: rest => charsFrom indent lineNo s (c :: before) skip rest
  | 0, c :: rest =>
    match s.char indent lineNo before c rest with
    | .found => none
    | .endLine s => some s
    | .go s skip => charsFrom indent lineNo { s with prevIsSpacing := isSpacing c }
      (c :: before) skip rest

/-- The head of a line: whether a node starts there. -/
def head (s : Scan) (indent : ℕ) : Scan :=
  { s with
    atNodeStart := if 0 < s.flowDepth then !s.flowPlain
      else !(s.plainPending && decide (s.ctxIndent < indent))
    prevIsSpacing := true }

/-- The line is content of the open block scalar. -/
def swallows (s : Scan) (line : List Char) : Bool :=
  s.blockScalar.any fun b => line.all isWhitespace || decide (b.1 < indentOf line)

/-- One line. A byte order mark at a head where a node can start is passed over. -/
def line (s : Scan) (lineNo : ℕ) (line : List Char) : Option Scan :=
  if s.swallows line then some s
  else
    let s := { s with blockScalar := none }.head (indentOf line)
    match line with
    | c :: rest =>
      if s.atNodeStart ∧ c = byteOrderMark then charsFrom (indentOf line) lineNo s [c] 0 rest
      else charsFrom (indentOf line) lineNo s [] 0 line
    | [] => some s

/-- The loop over the lines, of which `lineNo` have been read. -/
def linesFrom (s : Scan) (lineNo : ℕ) : List (List Char) → Option ℕ
  | [] => none
  | l :: ls =>
    match s.line (lineNo + 1) l with
    | none => some (lineNo + 1)
    | some s => s.linesFrom (lineNo + 1) ls

end Scan

/-- `find_anchor_or_alias_token`. -/
def findAnchorOrAliasToken (input : List Char) : Option ℕ :=
  Scan.start.linesFrom 0 (lines (normalizeLineBreaks input))

/-! ## Loading -/

/-- `MAX_YAML_BYTES`. -/
def maxYamlBytes : ℕ := 2 ^ 20

/-- `YamlError`, where the parser's own errors and the structural caps are one. -/
inductive YamlError where
  | tooLarge (bytes : ℕ)
  | anchorsForbidden (place : String)
  | parse (message : String)

/-- `from_str`. `parse` is the parser and what follows it. -/
def fromStr {T : Type*} (parse : List Char → Except String T) (input : List Char) :
    Except YamlError T :=
  let bytes := (input.map Char.utf8Size).sum
  if bytes > maxYamlBytes then .error (.tooLarge bytes)
  else match findAnchorOrAliasToken input with
    | some line => .error (.anchorsForbidden ("line " ++ toString line))
    | none => (parse input).mapError .parse

end Yaml

end ProtonWire
