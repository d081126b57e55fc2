import Timetabling.Yaml.Cursor

/-! # Scalar tokens

The three ways of writing a scalar, each read from its first character to its end:

* a *plain* scalar runs until `: ` (or a flow indicator inside a flow collection), a comment or
  a document marker; it may go on over lines that are indented beyond its collection;
* a *quoted* scalar runs to its closing quote; double quotes admit backslash escapes, single
  quotes only a doubled quote;
* a *block* scalar (`|` literal, `>` folded) takes the lines indented at least as far as its
  first line, with a chomping indicator (`-` strip, `+` keep) and an optional indentation digit.

Between the pieces of a plain or quoted scalar, blanks are kept as they are, a single line break
folds into a space, and further line breaks are kept. -/

namespace Timetabling

namespace Yaml

/-- What lies between two pieces of a scalar: blanks on the same line, or the first line break
with the breaks after it. -/
structure Gap where
  blanks : String := ""
  leadingBreak : String := ""
  trailingBreaks : String := ""
  /-- Whether a line break was met. -/
  broken : Bool := false

namespace Gap

/-- The text a gap stands for: its blanks, or, across lines, a space for a lone line feed, the
later breaks after a line feed, and every break otherwise. -/
def fold (g : Gap) : String :=
  if g.broken then
    if g.leadingBreak.startsWith "\n" then (if g.trailingBreaks.isEmpty then " " else g.trailingBreaks)
    else g.leadingBreak ++ g.trailingBreaks
  else g.blanks

/-- Whether a gap stands for anything. -/
def isEmpty (g : Gap) : Bool :=
  !g.broken && g.blanks.isEmpty

/-- Take in the blanks and breaks at a cursor. In a plain scalar (`plainIndent` given), a tab
that begins a continuation line before the given column is refused. -/
def take (start : Mark) (plainIndent : Option Int) : Nat → Gap → Cursor → Except YamlError (Gap × Cursor)
  | 0, g, c => .ok (g, c)
  | fuel + 1, g, c =>
    let ch := c.peek
    if isBlank ch then
      let tabBefore := match plainIndent with
        | some indent => g.broken && (c.mark.column : Int) < indent && ch == '\t'
        | none => false
      if tabBefore then .error (.scan start "found a tab character that violates indentation" c.mark)
      else if g.broken then take start plainIndent fuel g c.skip
      else
        let (b, c) := c.read g.blanks
        take start plainIndent fuel { g with blanks := b } c
    else if isBreak ch then
      if g.broken then
        let (t, c) := c.readLine g.trailingBreaks
        take start plainIndent fuel { g with trailingBreaks := t } c
      else
        let (l, c) := c.readLine ""
        take start plainIndent fuel { g with blanks := "", leadingBreak := l, broken := true } c
    else .ok (g, c)

end Gap

/-- The flow indicators, which end a plain scalar inside a flow collection. -/
def isFlowIndicator (c : Char) : Bool :=
  c == ',' || c == '?' || c == '[' || c == ']' || c == '\x7b' || c == '\x7d'

/-- Read the characters of one line of a plain scalar, joining them to the text after the gap
before them; the end mark follows the last character read. -/
def plainPiece (flow : Bool) : Nat → Cursor → String → Gap → Mark → Cursor × String × Gap × Mark
  | 0, c, s, g, e => (c, s, g, e)
  | fuel + 1, c, s, g, e =>
    let ch := c.peek
    if isBlankOrEnd ch || (ch == ':' && isBlankOrEnd (c.peekAt 1)) || (flow && isFlowIndicator ch) then
      (c, s, g, e)
    else
      let s := if g.isEmpty then s else s ++ g.fold
      let (s, c) := c.read s
      plainPiece flow fuel c s {} c.mark

/-- Read a plain scalar at a cursor. `indent` is the column a continuation line must reach in the
block context, and `flow` whether the scalar stands in a flow collection. Besides the token, the
result says whether the scalar ended after a line break. -/
def plainScalar (c : Cursor) (indent : Int) (flow : Bool) : Except YamlError (Token × Cursor × Bool) :=
  let start := c.mark
  let bound := c.text.size + 2
  let rec go : Nat → Cursor → String → Gap → Mark → Except YamlError (Cursor × String × Gap × Mark)
    | 0, c, s, g, e => .ok (c, s, g, e)
    | fuel + 1, c, s, g, e =>
      if c.atMarker '-' || c.atMarker '.' || c.peek == '#' then .ok (c, s, g, e)
      else
        let (c, s, g, e) := plainPiece flow bound c s g e
        if !(isBlank c.peek || isBreak c.peek) then .ok (c, s, g, e)
        else
          match Gap.take start (some indent) bound g c with
          | .error err => .error err
          | .ok (g, c) =>
            if !flow && (c.mark.column : Int) < indent then .ok (c, s, g, e)
            else go fuel c s g e
  match go bound c "" {} c.mark with
  | .error err => .error err
  | .ok (c, s, g, e) => .ok (⟨.scalar s .plain, start, e⟩, c, g.broken)

/-- The character a backslash escape of one letter stands for in a double-quoted scalar, or the
number of hexadecimal digits that follow it. -/
def escapeOf (c : Char) : Option (Char ⊕ Nat) :=
  match c with
  | '0' => some (.inl '\x00')
  | 'a' => some (.inl '\x07')
  | 'b' => some (.inl '\x08')
  | 't' | '\t' => some (.inl '\t')
  | 'n' => some (.inl '\n')
  | 'v' => some (.inl '\x0b')
  | 'f' => some (.inl '\x0c')
  | 'r' => some (.inl '\r')
  | 'e' => some (.inl '\x1b')
  | ' ' => some (.inl ' ')
  | '"' => some (.inl '"')
  | '\'' => some (.inl '\'')
  | '\\' => some (.inl '\\')
  | 'N' => some (.inl '\x85')
  | '_' => some (.inl '\xa0')
  | 'L' => some (.inl '\u2028')
  | 'P' => some (.inl '\u2029')
  | 'x' => some (.inr 2)
  | 'u' => some (.inr 4)
  | 'U' => some (.inr 8)
  | _ => none

/-- The value of `n` hexadecimal digits at a cursor, if they are all there. -/
def hexDigitsAt (c : Cursor) (n : Nat) : Option Nat :=
  (List.range n).foldlM (fun acc k => (hexValue (c.peekAt k)).map fun d => acc * 16 + d) 0

/-- Read the characters of one line of a quoted scalar up to a blank, a break or the closing
quote. The flag says whether an escaped line break ended the piece. -/
def quotedPiece (start : Mark) (single : Bool) :
    Nat → Cursor → String → Except YamlError (Cursor × String × Bool)
  | 0, c, s => .ok (c, s, false)
  | fuel + 1, c, s =>
    let ch := c.peek
    if isBlankOrEnd ch then .ok (c, s, false)
    else if single && ch == '\'' && c.peekAt 1 == '\'' then quotedPiece start single fuel (c.skipN 2) (s.push '\'')
    else if single && ch == '\'' then .ok (c, s, false)
    else if !single && ch == '"' then .ok (c, s, false)
    else if !single && ch == '\\' && isBreak (c.peekAt 1) then .ok ((c.skip).skipLine, s, true)
    else if !single && ch == '\\' then
      match escapeOf (c.peekAt 1) with
      | none => .error (.scan start "found unknown escape character" c.mark)
      | some (.inl e) => quotedPiece start single fuel (c.skipN 2) (s.push e)
      | some (.inr n) =>
        let c := c.skipN 2
        match hexDigitsAt c n with
        | none => .error (.scan start "did not find expected hexdecimal number" c.mark)
        | some v =>
          if (0xD800 ≤ v && v ≤ 0xDFFF) || v > 0x10FFFF then
            .error (.scan start "found invalid Unicode character escape code" c.mark)
          else quotedPiece start single fuel (c.skipN n) (s.push (Char.ofNat v))
    else
      let (s, c) := c.read s
      quotedPiece start single fuel c s

/-- Read a single- or double-quoted scalar at a cursor standing on its opening quote. -/
def quotedScalar (c : Cursor) (single : Bool) : Except YamlError (Token × Cursor) :=
  let start := c.mark
  let bound := c.text.size + 2
  let closing := if single then '\'' else '"'
  let rec go : Nat → Cursor → String → Except YamlError (Cursor × String)
    | 0, c, s => .ok (c, s)
    | fuel + 1, c, s =>
      if c.atMarker '-' || c.atMarker '.' then .error (.scan start "found unexpected document indicator" c.mark)
      else if c.peek == '\x00' then .error (.scan start "found unexpected end of stream" c.mark)
      else
        match quotedPiece start single bound c s with
        | .error err => .error err
        | .ok (c, s, escapedBreak) =>
          if c.peek == closing then .ok (c, s)
          else
            match Gap.take start none bound { broken := escapedBreak } c with
            | .error err => .error err
            | .ok (g, c) => go fuel c (if g.isEmpty then s else s ++ g.fold)
  match go bound c.skip "" with
  | .error err => .error err
  | .ok (c, s) =>
    let c := c.skip
    .ok (⟨.scalar s (if single then .singleQuoted else .doubleQuoted), start, c.mark⟩, c)

/-- Take in the indentation and empty lines before a line of a block scalar, adding the breaks to
`breaks`. An indentation of zero is not yet known: it becomes the deepest indentation of the
empty lines or the column of the first line, but at least one more than the enclosing one
(`outer`) and at least one. The result holds the indentation and the end mark after the last
break. -/
def blockBreaks (start : Mark) (outer : Int) (indent : Nat) (breaks : String) (c : Cursor) :
    Except YamlError (Cursor × Nat × String × Mark) :=
  let rec go : Nat → Cursor → String → Nat → Mark → Except YamlError (Cursor × String × Nat × Mark)
    | 0, c, b, deepest, e => .ok (c, b, deepest, e)
    | fuel + 1, c, b, deepest, e =>
      let rec spaces : Nat → Cursor → Cursor
        | 0, c => c
        | k + 1, c => if (indent == 0 || c.mark.column < indent) && c.peek == ' ' then spaces k c.skip else c
      let c := spaces (c.text.size + 2) c
      let deepest := max deepest c.mark.column
      if (indent == 0 || c.mark.column < indent) && c.peek == '\t' then
        .error (.scan start "found a tab character where an indentation space is expected" c.mark)
      else if !isBreak c.peek then .ok (c, b, deepest, e)
      else
        let (b, c) := c.readLine b
        go fuel c b deepest c.mark
  match go (c.text.size + 2) c breaks 0 c.mark with
  | .error err => .error err
  | .ok (c, b, deepest, e) =>
    let indent := if indent == 0 then max (max deepest (outer + 1).toNat) 1 else indent
    .ok (c, indent, b, e)

/-- The chomping and indentation indicators after `|` or `>`, in either order: `-1` strips the
final line break, `1` keeps the trailing empty lines, `0` keeps one break; an indentation digit
must not be zero. -/
def blockHeader (start : Mark) (c : Cursor) : Except YamlError (Int × Nat × Cursor) :=
  let chompOf (ch : Char) : Int := if ch == '+' then 1 else -1
  let digit (c : Cursor) : Except YamlError (Option Nat) :=
    if c.peek.isDigit then
      if c.peek == '0' then .error (.scan start "found an indentation indicator equal to 0" c.mark)
      else .ok (some (c.peek.toNat - '0'.toNat))
    else .ok none
  let ch := c.peek
  if ch == '+' || ch == '-' then
    let c := c.skip
    match digit c with
    | .error err => .error err
    | .ok none => .ok (chompOf ch, 0, c)
    | .ok (some d) => .ok (chompOf ch, d, c.skip)
  else
    match digit c with
    | .error err => .error err
    | .ok none => .ok (0, 0, c)
    | .ok (some d) =>
      let c := c.skip
      if c.peek == '+' || c.peek == '-' then .ok (chompOf c.peek, d, c.skip) else .ok (0, d, c)

/-- Read a literal or folded block scalar at a cursor standing on `|` or `>`; `outer` is the
indentation of the enclosing collection. -/
def blockScalar (c : Cursor) (literal : Bool) (outer : Int) : Except YamlError (Token × Cursor) := do
  let start := c.mark
  let (chomp, increment, c) ← blockHeader start c.skip
  let bound := c.text.size + 2
  let c := c.skipBlanks bound
  let c := if c.peek == '#' then c.skipToBreak bound else c
  if !isBreakOrEnd c.peek then
    throw (.scan start "did not find expected comment or line break" c.mark)
  let c := c.skipLine
  let indent : Nat := if increment > 0 then (if outer ≥ 0 then outer.toNat + increment else increment) else 0
  let (c, indent, trailing, e) ← blockBreaks start outer indent "" c
  let rec lines : Nat → Cursor → String → String → String → Bool → Mark →
      Except YamlError (Cursor × String × String × String × Mark)
    | 0, c, s, lead, trail, _, e => .ok (c, s, lead, trail, e)
    | fuel + 1, c, s, lead, trail, leadingBlank, e =>
      if c.mark.column != indent || c.peek == '\x00' then .ok (c, s, lead, trail, e)
      else
        let trailingBlank := isBlank c.peek
        let s := if !literal && !leadingBlank && !trailingBlank && lead.startsWith "\n" then
            (if trail.isEmpty then s.push ' ' else s)
          else s ++ lead
        let s := s ++ trail
        let leadingBlank := isBlank c.peek
        let rec line : Nat → Cursor → String → Cursor × String
          | 0, c, s => (c, s)
          | k + 1, c, s => if isBreakOrEnd c.peek then (c, s) else let (s, c) := c.read s; line k c s
        let (c, s) := line (c.text.size + 2) c s
        let (lead, c) := c.readLine ""
        match blockBreaks start outer indent "" c with
        | .error err => .error err
        | .ok (c, _, trail, e) => lines fuel c s lead trail leadingBlank e
  let (c, s, lead, trail, e) ← lines bound c "" "" trailing false e
  let s := if chomp != -1 then s ++ lead else s
  let s := if chomp == 1 then s ++ trail else s
  return (⟨.scalar s (if literal then .literal else .folded), start, e⟩, c)

end Yaml

end Timetabling
