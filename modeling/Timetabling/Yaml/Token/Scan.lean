import Timetabling.Yaml.Token.Scalar
import Timetabling.Yaml.Token.Property

/-! # Cutting a YAML text into tokens

A scanner turns characters into tokens on demand. Most tokens are read where they stand, but two
kinds are known only later:

* a mapping key written without `?` is recognised by the `:` that follows it, so the place where
  such a key *might* start is kept as a *key site*, one per flow level. When a `:` arrives while
  the site is still open, a `key` token is put in front of the key's first token; a site closes
  when its line ends, when the `:` would come more than 1024 characters after it, or when another
  token takes its place. A site is *required* when it opens a line at the current block
  indentation: closing it then is an error;
* block collections have no start marker: when a block entry or key sits deeper than the current
  indentation, a `blockSequenceStart` or `blockMappingStart` token goes in front of it, and when
  a line starts to the left of an indentation, a `blockEnd` closes it.

The parser takes tokens from the front. It gets one only when two more are queued behind it and
the front token is not the first token of a key that is still open. -/

namespace Timetabling

namespace Yaml

/-- A place where a mapping key may begin without `?`. -/
structure KeySite where
  possible : Bool := false
  required : Bool := false
  /-- The number of the token the key would begin at. -/
  tokenNumber : Nat := 0
  mark : Mark := {}
deriving Inhabited

/-- The state of a scanner: the cursor, every token produced so far, how many the parser took,
the indentation stack, the flow level, one key site per level, and whether a key may start here. -/
structure Scanner where
  cursor : Cursor
  tokens : Array Token := #[]
  taken : Nat := 0
  started : Bool := false
  indent : Int := -1
  indents : List Int := []
  flowLevel : Nat := 0
  sites : Array KeySite := #[]
  /-- The level of the site opened at a token, by token number, the latest first: token numbers
  never grow down the list. -/
  siteOfToken : List (Nat × Nat) := []
  keyAllowed : Bool := false
deriving Inhabited

namespace Scanner

/-- A scanner at the start of a text. -/
def ofText (text : String) : Scanner :=
  { cursor := Cursor.ofText text }

/-- Add a token at the end of the queue. -/
def push (s : Scanner) (kind : TokenKind) (start stop : Mark) : Scanner :=
  { s with tokens := s.tokens.push ⟨kind, start, stop⟩ }

/-- Put a token in front of the token with a given number. -/
def insertAt (s : Scanner) (n : Nat) (t : Token) : Scanner :=
  { s with tokens := s.tokens.insertIdxIfInBounds n t }

/-- Drop the entries for token `n` from a list of sites by token number, the latest first; the
search ends at the first entry for an earlier token. -/
def dropSite (n : Nat) : List (Nat × Nat) → List (Nat × Nat)
  | [] => []
  | (m, i) :: rest =>
    if m < n then (m, i) :: rest
    else if m == n then dropSite n rest
    else (m, i) :: dropSite n rest

/-- The level of the site opened at token `n`, from a list of sites by token number, the latest
first; the search ends at the first entry for an earlier token. -/
def findSite (n : Nat) : List (Nat × Nat) → Option Nat
  | [] => none
  | (m, i) :: rest =>
    if m < n then none
    else if m == n then some i
    else findSite n rest

/-- Forget the site opened at a token. -/
def forget (s : Scanner) (n : Nat) : Scanner :=
  { s with siteOfToken := dropSite n s.siteOfToken }

/-- Close the key site of the current level; closing a required one is an error. -/
def removeSite (s : Scanner) : Except YamlError Scanner :=
  let i := s.sites.size - 1
  match s.sites[i]? with
  | some k =>
    if k.possible then
      if k.required then .error (.scan k.mark "could not find expected ':'" s.cursor.mark)
      else .ok ({ s with sites := s.sites.set! i { k with possible := false } }.forget k.tokenNumber)
    else .ok s
  | none => .ok s

/-- Open a key site at the cursor, if a key may start here. -/
def saveSite (s : Scanner) : Except YamlError Scanner :=
  if s.keyAllowed then
    let required := s.flowLevel == 0 && s.indent == (s.cursor.mark.column : Int)
    let k : KeySite := ⟨true, required, s.tokens.size, s.cursor.mark⟩
    match s.removeSite with
    | .error e => .error e
    | .ok s =>
      let i := s.sites.size - 1
      .ok { s with sites := s.sites.set! i k, siteOfToken := (k.tokenNumber, i) :: s.siteOfToken }
  else .ok s

/-- Whether the site of a level is still open, closing it if it has gone stale (its line ended,
or the cursor is more than 1024 characters past it); a required site may not go stale. -/
def checkSite (s : Scanner) (i : Nat) : Except YamlError (Bool × Scanner) :=
  match s.sites[i]? with
  | none => .ok (false, s)
  | some k =>
    if !k.possible then .ok (false, s)
    else if k.mark.line < s.cursor.mark.line || k.mark.index + 1024 < s.cursor.mark.index then
      if k.required then .error (.scan k.mark "could not find expected ':'" s.cursor.mark)
      else .ok (false, { s with sites := s.sites.set! i { k with possible := false } })
    else .ok (true, s)

/-- Enter a flow collection. -/
def increaseFlow (s : Scanner) : Except YamlError Scanner :=
  let s := { s with sites := s.sites.push { mark := s.cursor.mark }, flowLevel := s.flowLevel + 1 }
  if s.flowLevel > 10000 then .error (.scan s.cursor.mark "exceeded max depth of 10000" s.cursor.mark)
  else .ok s

/-- Leave a flow collection. -/
def decreaseFlow (s : Scanner) : Scanner :=
  if s.flowLevel > 0 then
    let last := s.sites.back?.getD {}
    { s.forget last.tokenNumber with flowLevel := s.flowLevel - 1, sites := s.sites.pop }
  else s

/-- In the block context, open a block collection at a column deeper than the current
indentation, putting its start token at the end of the queue or in front of a given token. -/
def rollIndent (s : Scanner) (column : Nat) (before : Option Nat) (kind : TokenKind) (mark : Mark) :
    Except YamlError Scanner :=
  if s.flowLevel > 0 || !(s.indent < (column : Int)) then .ok s
  else
    let s := { s with indents := s.indent :: s.indents, indent := column }
    if s.indents.length > 10000 then
      .error (.scan (s.sites.back?.getD {}).mark "exceeded max depth of 10000" s.cursor.mark)
    else
      let t : Token := ⟨kind, mark, mark⟩
      match before with
      | some n => .ok (s.insertAt n t)
      | none => .ok { s with tokens := s.tokens.push t }

/-- In the block context, close the block collections indented beyond a column. -/
def unrollIndent (s : Scanner) (column : Int) (mark : Mark) : Scanner :=
  let rec go : Nat → Scanner → Scanner
    | 0, s => s
    | fuel + 1, s =>
      if s.indent > column then
        go fuel { s.push .blockEnd mark mark with indent := s.indents.headD (-1), indents := s.indents.tail }
      else s
  if s.flowLevel > 0 then s else go (s.indents.length + 1) s

/-- Move past blanks, comments and line breaks to the next token. A tab is passed over only in a
flow collection or where no key may start; a line break in the block context lets a key start. -/
def skipToToken (s : Scanner) : Scanner :=
  let bound := s.cursor.text.size + 2
  let rec go : Nat → Scanner → Scanner
    | 0, s => s
    | fuel + 1, s =>
      let c := s.cursor
      let c := if c.mark.column == 0 && c.peek == '\uFEFF' then c.skip else c
      let tabs := s.flowLevel > 0 || !s.keyAllowed
      let rec spaces : Nat → Cursor → Cursor
        | 0, c => c
        | k + 1, c => if c.peek == ' ' || (tabs && c.peek == '\t') then spaces k c.skip else c
      let c := spaces bound c
      let c := if c.peek == '#' then c.skipToBreak bound else c
      if isBreak c.peek then
        go fuel { s with cursor := c.skipLine, keyAllowed := s.flowLevel == 0 || s.keyAllowed }
      else { s with cursor := c }
  go bound s

/-- After a token, take a comment that follows it on the same line (after blanks or tabs). -/
def skipTrailingComment (s : Scanner) : Scanner :=
  let c := s.cursor
  let afterEntry := match s.tokens.back? with
    | some t => t.kind == .blockEntry
    | none => false
  if afterEntry || c.newlines > 0 then s
  else
    match (List.range 512).find? (fun k => !isBlank (c.peekAt k)) with
    | some k => if c.peekAt k == '#' then { s with cursor := (c.skipN k).skipToBreak (c.text.size + 2) } else s
    | none => s

/-- The stream start. -/
def fetchStreamStart (s : Scanner) : Scanner :=
  let m := s.cursor.mark
  { s with indent := -1, sites := #[{}], siteOfToken := [], keyAllowed := true, started := true }.push
    .streamStart m m

/-- The stream end: the last line counts as ended, and every collection is closed. -/
def fetchStreamEnd (s : Scanner) : Except YamlError Scanner := do
  let c := s.cursor
  let c := if c.mark.column != 0 then { c with mark := { c.mark with column := 0, line := c.mark.line + 1 } } else c
  let s := ({ s with cursor := c }).unrollIndent (-1) c.mark
  let s ← s.removeSite
  return { s with keyAllowed := false }.push .streamEnd c.mark c.mark

/-- A directive. -/
def fetchDirective (s : Scanner) : Except YamlError Scanner := do
  let s ← (s.unrollIndent (-1) s.cursor.mark).removeSite
  let (t, c) ← directiveToken s.cursor
  return { s with keyAllowed := false, cursor := c, tokens := s.tokens.push t }

/-- A document start or end marker. -/
def fetchDocumentMarker (s : Scanner) (kind : TokenKind) : Except YamlError Scanner := do
  let s ← (s.unrollIndent (-1) s.cursor.mark).removeSite
  let start := s.cursor.mark
  let c := s.cursor.skipN 3
  return { s with keyAllowed := false, cursor := c }.push kind start c.mark

/-- Move past a one-character indicator, queueing its token. -/
def indicator (s : Scanner) (kind : TokenKind) : Scanner :=
  let start := s.cursor.mark
  let c := s.cursor.skip
  { s with cursor := c }.push kind start c.mark

/-- The start of a flow collection, which may itself begin a key. -/
def fetchFlowStart (s : Scanner) (kind : TokenKind) : Except YamlError Scanner := do
  let s ← s.saveSite
  let s ← s.increaseFlow
  return { s with keyAllowed := true }.indicator kind

/-- The end of a flow collection. -/
def fetchFlowEnd (s : Scanner) (kind : TokenKind) : Except YamlError Scanner := do
  let s ← s.removeSite
  return { s.decreaseFlow with keyAllowed := false }.indicator kind

/-- A comma between flow items. -/
def fetchFlowEntry (s : Scanner) : Except YamlError Scanner := do
  let s ← s.removeSite
  return { s with keyAllowed := true }.indicator .flowEntry

/-- A block sequence entry `-`, which opens a sequence when it sits deeper than the indentation. -/
def fetchBlockEntry (s : Scanner) : Except YamlError Scanner := do
  let s ← if s.flowLevel == 0 then do
      if !s.keyAllowed then
        throw (.scan s.cursor.mark "block sequence entries are not allowed in this context" s.cursor.mark)
      s.rollIndent s.cursor.mark.column none .blockSequenceStart s.cursor.mark
    else pure s
  let s ← s.removeSite
  return { s with keyAllowed := true }.indicator .blockEntry

/-- An explicit key `?`, which opens a mapping when it sits deeper than the indentation. -/
def fetchKey (s : Scanner) : Except YamlError Scanner := do
  let s ← if s.flowLevel == 0 then do
      if !s.keyAllowed then
        throw (.scan s.cursor.mark "mapping keys are not allowed in this context" s.cursor.mark)
      s.rollIndent s.cursor.mark.column none .blockMappingStart s.cursor.mark
    else pure s
  let s ← s.removeSite
  return { s with keyAllowed := s.flowLevel == 0 }.indicator .key

/-- A value indicator `:`. If the key site of the level is open, its key is confirmed: a `key`
token (and, deeper than the indentation, a mapping start) goes in front of it. Otherwise the
value follows an explicit key or none, which the block context allows only where a key could
start. -/
def fetchValue (s : Scanner) : Except YamlError Scanner := do
  let i := s.sites.size - 1
  let k := s.sites[i]?.getD {}
  let (valid, s) ← s.checkSite i
  let s ← if valid then do
      let s := s.insertAt k.tokenNumber ⟨.key, k.mark, k.mark⟩
      let s ← s.rollIndent k.mark.column (some k.tokenNumber) .blockMappingStart k.mark
      let s := { s with sites := s.sites.set! i { k with possible := false } }.forget k.tokenNumber
      pure { s with keyAllowed := false }
    else do
      let s ← if s.flowLevel == 0 then do
          if !s.keyAllowed then
            throw (.scan s.cursor.mark "mapping values are not allowed in this context" s.cursor.mark)
          s.rollIndent s.cursor.mark.column none .blockMappingStart s.cursor.mark
        else pure s
      pure { s with keyAllowed := s.flowLevel == 0 }
  return s.indicator .value

/-- Queue a token read at the cursor by a reader, after opening a key site or closing it. -/
def fetchWith (s : Scanner) (opensKey : Bool) (read : Cursor → Except YamlError (Token × Cursor)) :
    Except YamlError Scanner := do
  let s ← if opensKey then s.saveSite else s.removeSite
  let (t, c) ← read s.cursor
  return { s with keyAllowed := !opensKey, cursor := c, tokens := s.tokens.push t }

/-- A plain scalar, after which a key may start if it ended after a line break. -/
def fetchPlain (s : Scanner) : Except YamlError Scanner := do
  let s ← s.saveSite
  let (t, c, broken) ← plainScalar s.cursor (s.indent + 1) (s.flowLevel > 0)
  return { s with keyAllowed := broken, cursor := c, tokens := s.tokens.push t }

/-- Whether a character begins a plain scalar, given the character after it. -/
def startsPlain (ch next : Char) (flow : Bool) : Bool :=
  let indicator := "-?:,[]#&*!|>\"%@".toList.contains ch || ch == '\'' || ch == '\x7b' || ch == '\x7d' ||
    ch.toNat == 96
  !(isBlankOrEnd ch || indicator) || (ch == '-' && !isBlank next) ||
    (!flow && (ch == '?' || ch == ':') && !isBlankOrEnd next)

/-- The token that begins with a content character. -/
def fetchContent (s : Scanner) : Except YamlError Scanner :=
  let c := s.cursor
  let ch := c.peek
  let next := c.peekAt 1
  let flow := s.flowLevel > 0
  if ch == '[' then s.fetchFlowStart .flowSequenceStart
  else if ch == '\x7b' then s.fetchFlowStart .flowMappingStart
  else if ch == ']' then s.fetchFlowEnd .flowSequenceEnd
  else if ch == '\x7d' then s.fetchFlowEnd .flowMappingEnd
  else if ch == ',' then s.fetchFlowEntry
  else if ch == '-' && isBlankOrEnd next then s.fetchBlockEntry
  else if ch == '?' && (flow || isBlankOrEnd next) then s.fetchKey
  else if ch == ':' && (flow || isBlankOrEnd next) then s.fetchValue
  else if ch == '*' then s.fetchWith true (anchorToken · true)
  else if ch == '&' then s.fetchWith true (anchorToken · false)
  else if ch == '!' then s.fetchWith true (tagToken · flow)
  else if ch == '|' && !flow then
    (s.fetchWith false (blockScalar · true s.indent)).map fun s => { s with keyAllowed := true }
  else if ch == '>' && !flow then
    (s.fetchWith false (blockScalar · false s.indent)).map fun s => { s with keyAllowed := true }
  else if ch == '\'' then s.fetchWith true (quotedScalar · true)
  else if ch == '"' then s.fetchWith true (quotedScalar · false)
  else if startsPlain ch next flow then s.fetchPlain
  else .error (.scan c.mark "found character that cannot start any token" c.mark)

/-- Produce the next token or tokens. -/
def fetchNext (s : Scanner) : Except YamlError Scanner := do
  if s.cursor.starved 1 then throw Cursor.forbiddenError
  if !s.started then return s.fetchStreamStart
  let scanMark := s.cursor.mark
  let s := s.skipToToken
  if s.cursor.starved 4 then throw Cursor.forbiddenError
  let s := s.unrollIndent s.cursor.mark.column scanMark
  let c := s.cursor
  if c.peek == '\x00' then s.fetchStreamEnd
  else if c.mark.column == 0 && c.peek == '%' then s.fetchDirective
  else if c.atMarker '-' then s.fetchDocumentMarker .documentStart
  else if c.atMarker '.' then s.fetchDocumentMarker .documentEnd
  else
    let s ← s.fetchContent
    return s.skipTrailingComment

/-- Produce tokens until the front token may be handed to the parser: two more are queued behind
it, and it does not begin a key that is still open. -/
def fetchMore (s : Scanner) : Except YamlError Scanner :=
  let rec go : Nat → Scanner → Except YamlError Scanner
    | 0, s => .ok s
    | fuel + 1, s =>
      let more (s : Scanner) : Except YamlError Scanner :=
        match s.fetchNext with
        | .error e => .error e
        | .ok s => go fuel s
      if s.tokens.size > s.taken + 2 then
        match findSite s.taken s.siteOfToken with
        | none => .ok s
        | some i =>
          match s.checkSite i with
          | .error e => .error e
          | .ok (false, s) => .ok s
          | .ok (true, s) => more s
      else more s
  go (s.cursor.text.size + 8) s

/-- The token at the front of the queue. -/
def peekToken (s : Scanner) : Except YamlError (Token × Scanner) := do
  let s ← s.fetchMore
  match s.tokens[s.taken]? with
  | some t => return (t, s)
  | none => throw (.abort "unexpected end of tokens")

/-- Hand the front token to the parser. -/
def skipToken (s : Scanner) : Scanner :=
  { s with taken := s.taken + 1 }

end Scanner

end Yaml

end Timetabling
