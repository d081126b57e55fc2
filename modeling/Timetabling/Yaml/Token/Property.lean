import Timetabling.Yaml.Cursor
import Timetabling.Text.Bytes

/-! # Anchors, tags and directives

The tokens that are not content:

* an anchor `&name` or alias `*name`, whose name is made of ASCII letters, digits, `_` and `-`,
  and is followed by a blank, the end of a line or one of `?:,]}%@` and the backquote;
* a tag: verbatim `!<uri>`, or a handle (`!`, `!!` or `!word!`) and a suffix, or `!suffix`
  under the primary handle, or `!` alone; a tag is followed by a blank or the end of a line,
  or a comma inside a flow collection. Its characters are those of a URI, and `%` escapes
  bytes of UTF-8;
* a `%YAML major.minor` directive, with at most two digits in each number, and a
  `%TAG handle prefix` directive. A directive may end in a comment and takes its line break. -/

namespace Timetabling

namespace Yaml

/-- Read the characters a test accepts, adding them to a text. -/
def Cursor.readWhile (p : Char → Bool) : Nat → Cursor → String → String × Cursor
  | 0, c, s => (s, c)
  | fuel + 1, c, s => if p c.peek then let (s, c) := c.read s; Cursor.readWhile p fuel c s else (s, c)

/-- Read an anchor (`&`) or alias (`*`) at a cursor standing on its indicator. -/
def anchorToken (c : Cursor) (isAlias : Bool) : Except YamlError (Token × Cursor) :=
  let start := c.mark
  let (name, c) := Cursor.readWhile isWordChar (c.text.size + 2) c.skip ""
  let ch := c.peek
  let ends := isBlankOrEnd ch || ch == '?' || ch == ':' || ch == ',' || ch == ']' || ch == '\x7d' ||
    ch == '%' || ch == '@' || ch.toNat == 96
  if name.isEmpty || !ends then .error (.scan start "did not find expected alphabetic or numeric character" c.mark)
  else .ok (⟨if isAlias then .alias name else .anchor name, start, c.mark⟩, c)

/-- Read a tag handle: `!`, then letters, digits, `_` and `-`, then `!` if there is one. In a
directive the handle must be `!` or end in `!`. -/
def tagHandle (start : Mark) (directive : Bool) (c : Cursor) : Except YamlError (String × Cursor) :=
  if c.peek != '!' then .error (.scan start "did not find expected '!'" c.mark)
  else
    let (s, c) := Cursor.readWhile isWordChar (c.text.size + 2) c.skip "!"
    if c.peek == '!' then let (s, c) := c.read s; .ok (s, c)
    else if directive && s != "!" then .error (.scan start "did not find expected '!'" c.mark)
    else .ok (s, c)

/-- Whether a character may appear in a tag URI. -/
def isUriChar (c : Char) : Bool :=
  isWordChar c || ";/?:@&=+$,.!~*()[]%".toList.contains c || c == '\''

/-- The length of the UTF-8 sequence a leading byte starts, or zero. -/
def sequenceWidth (b : Nat) : Nat :=
  if b % 128 == b then 1
  else if b / 32 == 6 then 2
  else if b / 16 == 14 then 3
  else if b / 8 == 30 then 4
  else 0

/-- Read one `%`-escaped UTF-8 character of a tag URI, adding its bytes. -/
def uriEscape (start : Mark) (c : Cursor) (bytes : Array UInt8) : Except YamlError (Array UInt8 × Cursor) :=
  let rec go : Nat → Nat → Cursor → Array UInt8 → Except YamlError (Array UInt8 × Cursor)
    | 0, _, c, b => .ok (b, c)
    | fuel + 1, w, c, b =>
      match c.peek == '%', hexValue (c.peekAt 1), hexValue (c.peekAt 2) with
      | true, some hi, some lo =>
        let octet := hi * 16 + lo
        let first := w == 0
        let w := if first then sequenceWidth octet else w
        if first && w == 0 then .error (.scan start "found an incorrect leading UTF-8 octet" c.mark)
        else if !first && octet / 64 != 2 then .error (.scan start "found an incorrect trailing UTF-8 octet" c.mark)
        else
          let b := b.push octet.toUInt8
          let c := c.skipN 3
          if w == 1 then .ok (b, c) else go fuel (w - 1) c b
      | _, _, _ => .error (.scan start "did not find URI escaped octet" c.mark)
  go 4 0 c bytes

/-- Read the characters of a tag URI after `head` (whose leading `!` is dropped). The URI must
not be empty unless a head was given. -/
def tagUri (start : Mark) (head : String) (c : Cursor) : Except YamlError (String × Cursor) :=
  let rec go : Nat → Cursor → Array UInt8 → Bool → Except YamlError (Array UInt8 × Cursor × Bool)
    | 0, c, b, seen => .ok (b, c, seen)
    | fuel + 1, c, b, seen =>
      if !isUriChar c.peek then .ok (b, c, seen)
      else if c.peek == '%' then
        match uriEscape start c b with
        | .error err => .error err
        | .ok (b, c) => go fuel c b true
      else go fuel c.skip (b ++ c.peek.toString.toUTF8.toList.toArray) true
  let initial := ((head.drop 1).toString.toUTF8.toList.toArray)
  match go (c.text.size + 2) c initial (!head.isEmpty) with
  | .error err => .error err
  | .ok (b, c, seen) =>
    if !seen then .error (.scan start "did not find expected tag URI" c.mark)
    else .ok (Text.ofBytesLossy b.toList, c)

/-- Read a tag at a cursor standing on `!`; `flow` says whether a comma may end it. -/
def tagToken (c : Cursor) (flow : Bool) : Except YamlError (Token × Cursor) := do
  let start := c.mark
  let (handle, suffix, c) ←
    if c.peekAt 1 == '<' then do
      let (suffix, c) ← tagUri start "" (c.skipN 2)
      if c.peek != '>' then throw (.scan start "did not find the expected '>'" c.mark)
      pure ("", suffix, c.skip)
    else do
      let (handle, c) ← tagHandle start false c
      if handle.length > 1 && handle.startsWith "!" && handle.endsWith "!" then
        let (suffix, c) ← tagUri start "" c
        pure (handle, suffix, c)
      else
        let (suffix, c) ← tagUri start handle c
        if suffix.isEmpty then pure ("", "!", c) else pure ("!", suffix, c)
  if !isBlankOrEnd c.peek && (!flow || c.peek != ',') then
    throw (.scan start "did not find expected whitespace or line break" c.mark)
  return (⟨.tag handle suffix, start, c.mark⟩, c)

/-- Read one number of a `%YAML` directive: one or two digits. -/
def versionNumber (start : Mark) (c : Cursor) : Except YamlError (Nat × Cursor) :=
  let rec go : Nat → Cursor → Nat → Nat → Except YamlError (Nat × Cursor)
    | 0, c, v, _ => .ok (v, c)
    | fuel + 1, c, v, n =>
      if c.peek.isDigit then
        if n + 1 > 2 then .error (.scan start "found extremely long version number" c.mark)
        else go fuel c.skip (v * 10 + (c.peek.toNat - '0'.toNat)) (n + 1)
      else if n == 0 then .error (.scan start "did not find expected version number" c.mark)
      else .ok (v, c)
  go 4 c 0 0

/-- Read a directive at a cursor standing on `%`, with the rest of its line. -/
def directiveToken (c : Cursor) : Except YamlError (Token × Cursor) := do
  let start := c.mark
  let bound := c.text.size + 2
  let (name, c) := Cursor.readWhile isWordChar bound c.skip ""
  if name.isEmpty then throw (.scan start "could not find expected directive name" c.mark)
  if !isBlankOrEnd c.peek then throw (.scan start "found unexpected non-alphabetical character" c.mark)
  let (kind, c) ←
    if name == "YAML" then do
      let (major, c) ← versionNumber start (c.skipBlanks bound)
      if c.peek != '.' then throw (.scan start "did not find expected digit or '.' character" c.mark)
      let (minor, c) ← versionNumber start c.skip
      pure (TokenKind.version major minor, c)
    else if name == "TAG" then do
      let (handle, c) ← tagHandle start true (c.skipBlanks bound)
      if !isBlank c.peek then throw (.scan start "did not find expected whitespace" c.mark)
      let (expansion, c) ← tagUri start "" (c.skipBlanks bound)
      if !isBlankOrEnd c.peek then throw (.scan start "did not find expected whitespace or line break" c.mark)
      pure (TokenKind.tagDirective handle expansion, c)
    else throw (.scan start "found unknown directive name" c.mark)
  let stop := c.mark
  let c := c.skipBlanks bound
  let c := if c.peek == '#' then c.skipToBreak bound else c
  if !isBreakOrEnd c.peek then throw (.scan start "did not find expected comment or line break" c.mark)
  return (⟨kind, start, stop⟩, c.skipLine)

end Yaml

end Timetabling
