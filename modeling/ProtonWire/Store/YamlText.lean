import ProtonWire.Store.Yaml

/-!
# YAML documents

The documents the anchor policy is for, as the parser's scanner reads them: lines of tokens with the
layout between them. A block collection is known by the column of its first token, and what is
deeper than the innermost one continues a plain scalar, or is content of a block scalar.

* `Break`, `Piece`, `Line`, `Document`: the text;
* `Reader`: where the parser is; `Piece.legal`, `Reader.move`: what it takes next;
* `Document.legal`, `Document.anchored`: the parser takes it, and an anchor or an alias is in it;
* `Sight`, `Document.seen`: up to the first token that the scan refuses the document for, it takes
  nothing for something else.
-/

namespace ProtonWire

namespace Yaml

/-! ## Texts -/

/-- The line breaks of YAML 1.1. -/
inductive Break where
  | lf
  | crlf
  | cr
  | nel
  | ls
  | ps
  deriving DecidableEq

/-- The characters of a break. -/
def Break.text : Break → List Char
  | .lf => ['\n']
  | .crlf => ['\r', '\n']
  | .cr => ['\r']
  | .nel => [Char.ofNat 0x85]
  | .ls => [Char.ofNat 0x2028]
  | .ps => [Char.ofNat 0x2029]

/-- A character that breaks a line. -/
def isBreak (c : Char) : Bool := c == '\n' || c == '\r' || isUnicodeBreak c

/-- The two styles of quotes. -/
inductive Style where
  | single
  | double
  deriving DecidableEq

/-- The quote of a style. -/
def Style.quote : Style → Char
  | .single => '\''
  | .double => '"'

/-- A token of one line, or what stands between two. A plain scalar is read word by word, and a
quoted scalar line by line: it opens on its first and closes on its last. -/
inductive Piece where
  | blanks (cs : List Char)
  | comment (cs : List Char)
  | documentStart
  | documentEnd
  | blockEntry
  | key
  | value
  | flowEntry
  | flowStart (c : Char)
  | flowEnd (c : Char)
  | tag (cs : List Char)
  | verbatimTag (cs : List Char)
  | anchor (name : List Char)
  | aliasOf (name : List Char)
  | word (cs : List Char)
  | quoted (style : Style) (opens : Bool) (cs : List Char) (closes : Bool)
  | header (c : Char) (indicators trailing : List Char)

/-- The characters of a piece. -/
def Piece.text : Piece → List Char
  | .blanks cs | .word cs => cs
  | .comment cs => '#' :: cs
  | .documentStart => ['-', '-', '-']
  | .documentEnd => ['.', '.', '.']
  | .blockEntry => ['-']
  | .key => ['?']
  | .value => [':']
  | .flowEntry => [',']
  | .flowStart c | .flowEnd c => [c]
  | .tag cs => '!' :: cs
  | .verbatimTag cs => '!' :: '<' :: cs ++ ['>']
  | .anchor name => '&' :: name
  | .aliasOf name => '*' :: name
  | .quoted style opens cs closes =>
    (if opens then [style.quote] else []) ++ cs ++ if closes then [style.quote] else []
  | .header c indicators trailing => c :: indicators ++ trailing

/-- An anchor or an alias. -/
def Piece.isAnchor : Piece → Bool
  | .anchor _ | .aliasOf _ => true
  | _ => false

/-- The characters of several pieces. -/
def textOf (ps : List Piece) : List Char := ps.flatMap Piece.text

/-- A line: content of a block scalar, or pieces. -/
inductive Line where
  | content (cs : List Char)
  | tokens (ps : List Piece)

/-- The characters of a line. -/
def Line.text : Line → List Char
  | .content cs => cs
  | .tokens ps => textOf ps

/-- An anchor or an alias is on the line. -/
def Line.anchored : Line → Bool
  | .content _ => false
  | .tokens ps => ps.any Piece.isAnchor

/-- A document: lines with their breaks, and what is after the last break. -/
structure Document where
  lines : List (Line × Break)
  last : Line

namespace Document

/-- The characters of the lines and their breaks. -/
def linesText (ls : List (Line × Break)) : List Char := ls.flatMap fun l => l.1.text ++ l.2.text

/-- The input. -/
def text (d : Document) : List Char := linesText d.lines ++ d.last.text

/-- All the lines. -/
def allLines (d : Document) : List Line := d.lines.map Prod.fst ++ [d.last]

/-- Some node carries an anchor, or is an alias. -/
def anchored (d : Document) : Bool := d.allLines.any Line.anchored

end Document

/-! ## Reading -/

/-- Where the parser is in a line: at its head or elsewhere before a node, in a plain scalar, after
the last token of a node, or in a quoted scalar. -/
inductive Place where
  | head
  | node
  | plain
  | done
  | quote (style : Style)
  deriving DecidableEq

/-- What stands right before: a blank, an indicator or the head of the line; a closing quote; or the
last character of another token. -/
inductive Before where
  | spacing
  | quote
  | other
  deriving DecidableEq

/-- Where the parser is. `collections` are the columns of the open block collections, the innermost
first, `keyColumn` is where a node that can still become a key began, `context` is the indentation
of the line of the last indicator outside flow collections, and `block` that of the header of the
open block scalar. -/
structure Reader where
  place : Place
  before : Before
  flow : ℕ
  collections : List ℕ
  keyColumn : Option ℕ
  column : ℕ
  indent : ℕ
  context : ℕ
  block : Option ℕ
  ended : Bool

/-- Before the document. -/
def Reader.start : Reader where
  place := .node
  before := .spacing
  flow := 0
  collections := []
  keyColumn := none
  column := 0
  indent := 0
  context := 0
  block := none
  ended := false

namespace Reader

variable (r : Reader)

/-- A node can start here. -/
def nodeStarts : Bool := r.place == .head || r.place == .node

/-- The parser is in a quoted scalar. -/
def quoting : Bool := r.place == .quote .single || r.place == .quote .double

/-- The column is deeper than the innermost block collection. -/
def deeper (column : ℕ) : Bool := r.collections.head?.all fun c => decide (c < column)

/-- A token outside flow collections ends the block collections deeper than it. -/
def unroll : Reader :=
  if r.flow = 0 then
  { r with collections := r.collections.dropWhile fun c => decide (r.column < c) } else r

/-- A token that opens a node, which may turn out to be a key. -/
def opens : Reader :=
  if r.flow = 0 then { r.unroll with keyColumn := some (r.keyColumn.getD r.column) } else r

/-- An entry of the block collection at `column`, which is opened with its first. -/
def roll (column : ℕ) : Reader :=
  if r.flow = 0 then
    { r.unroll with
      collections := if r.unroll.deeper column then column :: r.unroll.collections
        else r.unroll.collections
      keyColumn := none
      context := r.indent }
  else r

/-- The parser has taken `p`. -/
def past (p : Piece) (place : Place) (before : Before) : Reader :=
  { r with place := place, before := before, column := r.column + p.text.length }

/-- What reading a piece does. -/
def move (p : Piece) : Reader :=
  match p with
  | .blanks _ => r.past p r.place .spacing
  | .comment _ => r.past p .node .other
  | .documentStart => { r with collections := [] }.past p .node .spacing
  | .documentEnd => { r with collections := [], ended := true }.past p .node .other
  | .blockEntry | .key => (r.roll r.column).past p .node .spacing
  | .value => (r.roll (r.keyColumn.getD r.column)).past p .node .spacing
  | .flowEntry => r.past p .node .spacing
  | .flowStart _ => { r.opens with flow := r.flow + 1 }.past p .node .spacing
  | .flowEnd _ => { r with flow := r.flow - 1 }.past p .done .spacing
  | .tag _ | .verbatimTag _ | .anchor _ => r.opens.past p .node .other
  | .aliasOf _ => r.opens.past p .done .other
  | .word _ => r.opens.past p .plain .other
  | .quoted style opens _ closes =>
    (if opens then r.opens else r).past p (if closes then .done else .quote style) .quote
  | .header _ _ _ => { r.unroll with block := some r.indent }.past p .node .other

end Reader

/-- The body of a single-quoted scalar: a quote in it is doubled. -/
def singleBody : List Char → Bool
  | [] => true
  | '\'' :: '\'' :: cs => singleBody cs
  | '\'' :: _ => false
  | _ :: cs => singleBody cs

/-- The body of a double-quoted scalar: a backslash escapes what follows it, also the line break. -/
def doubleBody (closes : Bool) : List Char → Bool
  | [] => true
  | ['\\'] => !closes
  | '\\' :: _ :: cs => doubleBody closes cs
  | '"' :: _ => false
  | _ :: cs => doubleBody closes cs

/-- The part of a quoted scalar that is on one line, before the rest of the line. -/
def Style.body (closes : Bool) (cs rest : List Char) : Style → Bool
  | .single => singleBody cs && rest.head? != some '\''
  | .double => doubleBody closes cs

/-- A character no plain scalar begins with. -/
def isIndicator (c : Char) : Bool :=
  isFlowIndicator c || ['#', '&', '*', '!', '|', '>', '\'', '"', '%', '@',
    Char.ofNat 0x60].contains c

/-- A character of the name of an anchor. -/
def isAnchorChar (c : Char) : Bool := c.isAlphanum || c == '-' || c == '_'

/-- What ends a tag that is not verbatim. -/
def endsTag (c : Char) : Bool := isBlank c || c == '#' || isFlowIndicator c

namespace Reader

variable (r : Reader)

/-- A plain scalar may begin with `c`, before the rest of the line. -/
def beginsPlain (c : Char) (rest : List Char) : Bool :=
  !isIndicator c &&
    (!(c == '-' || c == '?' || c == ':') || !Scan.spacedOrEol rest) &&
    (r.flow == 0 || !(c == '?' || c == ':')) &&
    !(r.column == 0 && (c == byteOrderMark || c == '-' && Scan.isMarker rest))

/-- `cs` is the next word of a plain scalar, up to a blank, a colon before a blank or, in a flow
collection, one of its indicators. -/
def word (cs rest : List Char) : Bool :=
  match cs with
  | [] => false
  | c :: tail =>
    r.before == .spacing && cs.all (fun c => !isBlank c) &&
      (cs.getLast? != some ':' || !Scan.spacedOrEol rest) &&
      (r.flow == 0 || cs.all fun c => !isFlowIndicator c) &&
      (r.place == .plain && c != '#' || r.nodeStarts && r.beginsPlain c (tail ++ rest))

end Reader

/-- The parser takes the piece next, with these pieces after it on the line. After the end of the
document there are comments only. -/
def Piece.legal (p : Piece) (r : Reader) (after : List Piece) : Bool :=
  let rest := textOf after
  let blankNext := Scan.spacedOrEol rest
  match p with
  | .blanks cs => !cs.isEmpty && cs.all isBlank && !r.quoting
  | .comment _ => !r.quoting && r.before != .other && after.isEmpty
  | .documentStart => r.place == .head && r.column == 0 && r.flow == 0 && blankNext && !r.ended
  | .documentEnd =>
    (r.place == .head || r.place == .plain) && r.column == 0 && r.flow == 0 && blankNext && !r.ended
  | .blockEntry => r.nodeStarts && r.flow == 0 && blankNext && !r.ended
  | .key => r.nodeStarts && (decide (0 < r.flow) || blankNext) && !r.ended
  | .value => !r.quoting && (blankNext || decide (0 < r.flow) && r.place != .plain) && !r.ended
  | .flowEntry => !r.quoting && decide (0 < r.flow) && !r.ended
  | .flowStart c => (c == '[' || c == '{') && r.nodeStarts && !r.ended
  | .flowEnd c => (c == ']' || c == '}') && !r.quoting && decide (0 < r.flow) && !r.ended
  | .tag cs =>
    r.nodeStarts && cs.head? != some '<' && cs.all (fun c => !endsTag c) &&
    rest.head?.all endsTag && !r.ended
  | .verbatimTag cs => r.nodeStarts && cs.all (· != '>') && rest.head?.all endsTag && !r.ended
  | .anchor name | .aliasOf name =>
    r.nodeStarts && r.before == .spacing && !name.isEmpty && name.all isAnchorChar && !r.ended
  | .word cs => r.word cs rest && !r.ended
  | .quoted style opens cs closes =>
    (if opens then r.nodeStarts else r.place == .quote style) &&
      style.body closes cs rest && (closes || after.isEmpty) && !r.ended
  | .header c indicators trailing =>
    r.nodeStarts && r.flow == 0 && (c == '|' || c == '>') &&
      indicators.all (fun c => c.isDigit || c == '+' || c == '-') &&
      trailing.head?.all (fun c => isBlank c || c == '#') && after.isEmpty && !r.ended

namespace Reader

/-- Read the pieces of a line. -/
def readPieces (r : Reader) : List Piece → Option Reader
  | [] => some r
  | p :: ps => if p.legal r ps then (r.move p).readPieces ps else none

/-- At the head of a line. A plain scalar goes on if the line is deeper than the innermost block
collection, and in a flow collection always. -/
def startLine (r : Reader) (text : List Char) : Reader :=
  { r with
    place := match r.place with
      | .quote style => .quote style
      | .plain => if 0 < r.flow ∨ r.deeper (indentOf text) then .plain else .head
      | _ => .head
    before := .spacing
    keyColumn := none
    column := 0
    indent := indentOf text
    block := none }

/-- Read a line. While a block scalar is open its content is what is blank, or deeper than the
innermost block collection. -/
def readLine (r : Reader) (line : Line) : Option Reader :=
  let isContent := line.text.all isBlank || r.deeper (indentOf line.text)
  if line.text.any isBreak then none
  else match line with
    | .content _ => if r.block.isSome && isContent then some r else none
    | .tokens ps =>
      if r.block.isSome && (isContent || line.text.all isWhitespace) then none
      else if line.text.all isBlank then some r
      else (r.startLine line.text).readPieces ps

/-- Read lines. -/
def readLines (r : Reader) : List Line → Option Reader
  | [] => some r
  | l :: ls => (r.readLine l).bind fun r => r.readLines ls

end Reader

/-- A carriage return is not followed by a line feed: the two would be one break. -/
def breaksApart : List (Line × Break) → Bool
  | (_, .cr) :: (l, b) :: ls => !(l.text.isEmpty && b == .lf) && breaksApart ((l, b) :: ls)
  | _ :: ls => breaksApart ls
  | [] => true

/-- **The parser takes the document**, and every scalar and flow collection in it is closed. -/
def Document.legal (d : Document) : Bool :=
  breaksApart d.lines && (Reader.start.readLines d.allLines).any fun r => r.flow == 0 && !r.quoting

/-! ## What the scan sees -/

/-- What the scan makes of a piece: what it is, a reason to refuse the document, or something
else. -/
inductive Sight where
  | same
  | refused
  | other
  deriving DecidableEq

/-- A word of a plain scalar, after the character `x`. A `#` right after a character the scan takes
for spacing is taken for a comment, a `&` or `*` before a name for an anchor or an alias. -/
def wordSight (rest : List Char) (x : Char) : List Char → Sight
  | [] => .same
  | c :: cs =>
    if isSpacing x && c == '#' then .other
    else if isSpacing x && (c == '&' || c == '*') && (cs ++ rest).head?.any Scan.isName
    then .refused
    else wordSight rest c cs

/-- The scan takes the piece for what it is in a plain scalar too: a word of another, the colon
after an empty key, a comment, an anchor. -/
def Piece.resumes : Piece → Bool
  | .word _ | .value | .comment _ | .anchor _ | .aliasOf _ => true
  | _ => false

/-- The first token of a line is such a piece. -/
def resumes : List Piece → Bool
  | .blanks _ :: ps => resumes ps
  | p :: _ => p.resumes
  | [] => false

/-- The same of a line. -/
def Line.resumes : Line → Bool
  | .content _ => false
  | .tokens ps => Yaml.resumes ps

/-- What the scan makes of a piece, before the rest of the line. A comment glued to a closing quote
is not taken for one. -/
def Piece.sight (p : Piece) (r : Reader) (rest : List Char) : Sight :=
  match p with
  | .word cs => wordSight rest ' ' cs
  | .comment _ => if r.before = .quote then .other else .same
  | .anchor _ | .aliasOf _ => .refused
  | _ => .same

namespace Reader

/-- The first of these pieces that the scan does not take for what it is. -/
def piecesSight (r : Reader) : List Piece → Sight
  | [] => .same
  | p :: ps => match p.sight r (textOf ps) with
    | .same => (r.move p).piecesSight ps
    | sight => sight

/-- The same of a line. -/
def lineSight (r : Reader) (l : Line) : Sight :=
  match l with
  | .content _ => .same
  | .tokens ps => if l.text.all isBlank then .same else (r.startLine l.text).piecesSight ps

/-- The line is as deep, against the line of the last indicator or of the header, as against the
innermost block collection: it goes on with the scalar for both, or for neither. After a plain
scalar it may also be read as going on where it does not, if its first token is taken for what it
is. -/
def seenLine (r : Reader) (line : Line) : Bool :=
  let indent := indentOf line.text
  line.text.all isBlank ||
    (r.block.all fun header => r.deeper indent == decide (header < indent)) &&
      (r.place != .plain || decide (0 < r.flow) || r.deeper indent == decide (r.context < indent) ||
        !r.deeper indent && line.resumes)

/-- The lines up to the first token that the scan refuses the document for. -/
def seenLines (r : Reader) : List Line → Bool
  | [] => true
  | l :: ls =>
    r.seenLine l && match r.lineSight l with
      | .same => (r.readLine l).all fun r => r.seenLines ls
      | .refused => true
      | .other => false

end Reader

/-- **Up to the first token that the scan refuses the document for, the scan and the parser agree**
on what is a comment and on which lines belong to a scalar. -/
def Document.seen (d : Document) : Bool := Reader.start.seenLines d.allLines

end Yaml

end ProtonWire
