import Timetabling.Text.Unicode

/-! # Dotenv files

A `.env` file is read twice when the service starts, by two readers with different rules.

## Loading into the environment

The first reader exports the file's variables into the environment, each one only if the
environment does not hold it yet. It reads statements one after another. Blank space and lines
starting with `#` between statements are skipped. A statement is `KEY=value` or `KEY: value`,
perhaps after `export`; the key holds letters, digits, `_` and `.`, judged byte by byte. A value
in single quotes is taken literally, and one in double quotes has `\n` and `\r` turned into line
breaks and other escaped characters unescaped. A value without quotes runs to the end of its
line, loses a comment that follows a blank and `#`, and is trimmed of blanks. References
`$NAME` and `${NAME}` in unquoted and double-quoted values are replaced by the values of the
variables assigned earlier in the same file. A file with a statement that does not read exports
nothing.

## Reading the settings

The second reader reads the file as settings, line by line; lines end at a line feed, a carriage
return, or both. A line is `KEY=value`, `KEY = value`, `KEY: value` or `export KEY=value`; blank
lines and lines starting with `#` are skipped, and a `#` after the value starts a comment. A key
is made of letters, digits, `_` and `.`.

A value may be quoted. A single-quoted value is taken literally; a double-quoted one turns `\n`
and `\r` into line breaks and drops the backslash of any other escape except before `$`. A
quoted value left open continues on the following lines up to its closing quote; a file that
ends with a quote open is refused with "missing quotes". An unquoted or double-quoted value has
its references `$NAME` and `${NAME}` replaced by the value of the variable, looked up by a
function given by the reader. A line that fits none of these forms is refused with
"line `…` doesn't match format", or, for `export NAME` of a name not assigned before, with
"line `…` has an unset variable". -/

namespace Timetabling

namespace Dotenv

/-- Remove surrounding white space. -/
def trim (cs : List Char) : List Char :=
  ((cs.dropWhile Unicode.isSpace).reverse.dropWhile Unicode.isSpace).reverse

/-! ## Loading into the environment -/

/-- The blanks inside a line: tab, vertical tab, form feed, carriage return, space, and the
next-line and no-break spaces. -/
def isInlineSpace (c : Char) : Bool :=
  c == '\t' || c == '\x0b' || c == '\x0c' || c == '\r' || c == ' ' || c.toNat == 0x85 || c.toNat == 0xA0

/-- Whether a byte of a key is acceptable, read as the character with its code: a blank, `_`,
`.`, or a letter or number of the Latin-1 range. -/
def keyByteOk (b : Nat) : Bool :=
  b == 9 || b == 11 || b == 12 || b == 13 || b == 32 || b == 0x85 || b == 0xA0 || b == 0x5F || b == 0x2E
    || (0x30 ≤ b && b ≤ 0x39) || (0x41 ≤ b && b ≤ 0x5A) || (0x61 ≤ b && b ≤ 0x7A)
    || b == 0xAA || b == 0xB5 || b == 0xBA || (0xC0 ≤ b && b ≤ 0xFF && b != 0xD7 && b != 0xF7)
    || b == 0xB2 || b == 0xB3 || b == 0xB9 || (0xBC ≤ b && b ≤ 0xBE)

/-- Whether every byte of a character's encoding is acceptable in a key. -/
def keyCharOk (c : Char) : Bool :=
  (String.singleton c).toUTF8.toList.all fun b => keyByteOk b.toNat

/-- Skip white space and `#` comment lines up to the next statement, if there is one. -/
def statementStart : Nat → List Char → Option (List Char)
  | 0, _ => none
  | fuel + 1, cs =>
    match cs.dropWhile Unicode.isSpace with
    | [] => none
    | '#' :: rest =>
      match rest.dropWhile (· != '\n') with
      | [] => none
      | r => statementStart fuel r
    | r => some r

/-- The key characters before `=` or `:`, and what follows the separator; `none` when the text
ends first. A character that cannot be in a key is refused. -/
def keyChars : List Char → List Char → Except String (Option (List Char × List Char))
  | [], _ => .ok none
  | c :: rest, acc =>
    if c == '=' || c == ':' then .ok (some (acc.reverse, rest))
    else if keyCharOk c then keyChars rest (c :: acc)
    else .error "unexpected character in variable name"

/-- The key of a statement and the text after its separator. A statement without a separator
has the empty key, and its whole text is the value. -/
def statementKey (src : List Char) : Except String (String × List Char) := do
  let src := src.dropWhile isInlineSpace
  let src := match src with
    | 'e' :: 'x' :: 'p' :: 'o' :: 'r' :: 't' :: rest =>
      if (rest.head?.map isInlineSpace).getD false then rest.dropWhile isInlineSpace else src
    | _ => src
  let found ← keyChars src []
  if src.isEmpty then throw "zero length string"
  match found with
  | some (key, after) =>
    pure (String.ofList (key.reverse.dropWhile Unicode.isSpace).reverse, after.dropWhile isInlineSpace)
  | none => pure ("", src.dropWhile isInlineSpace)

/-- The text after a reference's `$`: an optional `(`, an optional `{`, a name of uppercase
letters, digits and `_`, and an optional `}`. Answers the characters taken, the name, and the
rest. -/
def referenceTail (cs : List Char) : List Char × List Char × List Char :=
  let isName (c : Char) : Bool := ('A' ≤ c && c ≤ 'Z') || c.isDigit || c == '_'
  let (paren, cs) := match cs with
    | '(' :: r => (['('], r)
    | r => ([], r)
  let (brace, cs) := match cs with
    | '{' :: r => (['{'], r)
    | r => ([], r)
  let name := cs.takeWhile isName
  let cs := cs.dropWhile isName
  let (close, cs) := match cs with
    | '}' :: r => (['}'], r)
    | r => ([], r)
  (paren ++ brace ++ name ++ close, name, cs)

/-- Replace the references of a value by the variables assigned before. A reference after a
backslash loses the backslash and stays; a `$` without a name stays as it is. -/
def expandAssigned (vars : List (String × String)) : Nat → List Char → List Char
  | 0, cs => cs
  | _ + 1, [] => []
  | fuel + 1, '\\' :: '$' :: rest =>
    let (taken, _, rest) := referenceTail rest
    '$' :: taken ++ expandAssigned vars fuel rest
  | fuel + 1, '$' :: rest =>
    let (taken, name, rest) := referenceTail rest
    let replaced := if name.isEmpty then '$' :: taken
      else (((vars.reverse.find? (·.1 == String.ofList name)).map (·.2)).getD "").toList
    replaced ++ expandAssigned vars fuel rest
  | fuel + 1, c :: rest => c :: expandAssigned vars fuel rest

/-- Turn escaped `n` and `r` into line breaks, then drop the backslash before any character
but `$`. -/
def expandEscapes (cs : List Char) : List Char :=
  let rec named : List Char → List Char
    | '\\' :: 'n' :: rest => '\n' :: named rest
    | '\\' :: 'r' :: rest => '\r' :: named rest
    | '\\' :: c :: rest => if c == '\n' then '\\' :: named (c :: rest) else '\\' :: c :: named rest
    | c :: rest => c :: named rest
    | [] => []
  let rec unescape : List Char → List Char
    | '\\' :: c :: rest => if c == '$' then '\\' :: unescape (c :: rest) else c :: unescape rest
    | c :: rest => c :: unescape rest
    | [] => []
  unescape (named cs)

/-- The position of the closing quote `q` of a quoted value: the first `q` after the opening one
that does not follow a backslash. -/
def closingQuote (q : Char) (cs : List Char) : Option Nat :=
  (List.range cs.length).find? fun i => i ≥ 1 && cs.getD i ' ' == q && cs.getD (i - 1) ' ' != '\\'

/-- The value of a statement and the text after it. -/
def statementValue (vars : List (String × String)) (src : List Char) : Except String (String × List Char) :=
  let isLineEnd (c : Char) : Bool := c == '\n' || c == '\r'
  match src with
  | [] => .ok ("", [])
  | q :: _ =>
    if q == '"' || q == '\x27' then
      match closingQuote q src with
      | some i =>
        let raw := ((src.take i).reverse.dropWhile (· == q)).reverse.dropWhile (· == q)
        let v := if q == '"' then expandAssigned vars (raw.length + 1) (expandEscapes raw) else raw
        .ok (String.ofList v, src.drop (i + 1))
      | none => .error "unterminated quoted value"
    else
      let line := src.takeWhile (!isLineEnd ·)
      let after := src.dropWhile (!isLineEnd ·)
      let cut := ((List.range line.length).reverse.find? fun i =>
        i > 0 && line.getD i ' ' == '#' && isInlineSpace (line.getD (i - 1) ' ')).getD line.length
      let v := ((line.take cut).dropWhile isInlineSpace).reverse.dropWhile isInlineSpace |>.reverse
      .ok (String.ofList (expandAssigned vars (v.length + 1) v), after)

/-- Set a variable in a list of assignments: a key already there keeps its place and takes the
new value. -/
def assign (vars : List (String × String)) (key value : String) : List (String × String) :=
  if vars.any (·.1 == key) then vars.map fun (k, v) => if k == key then (k, value) else (k, v)
  else vars ++ [(key, value)]

/-- The variables a file exports into the environment, in the order they first appear, each
with its last value; a statement that does not read refuses the whole file. -/
def load (text : String) : Except String (List (String × String)) :=
  let cs := (text.replace "\r\n" "\n").toList
  let rec go : Nat → List Char → List (String × String) → Except String (List (String × String))
    | 0, _, vars => .ok vars
    | fuel + 1, cs, vars =>
      match statementStart (cs.length + 1) cs with
      | none => .ok vars
      | some st => do
        let (key, rest) ← statementKey st
        let (value, rest) ← statementValue vars rest
        go fuel rest (assign vars key value)
  go (cs.length + 1) cs []

/-! ## Reading the settings -/

/-- The blanks of the line format: space, tab, line feed, form feed and carriage return. -/
def isBlank (c : Char) : Bool :=
  c == ' ' || c == '\t' || c == '\n' || c == '\x0c' || c == '\r'

/-- The characters of a key. -/
def isKeyChar (c : Char) : Bool :=
  c.isAlphanum || c == '_' || c == '.'

/-- Whether what follows a value is only blanks and perhaps a comment that ends the text. -/
def restIsComment (r : List Char) : Bool :=
  match r.dropWhile isBlank with
  | [] => true
  | '#' :: rest => !rest.contains '\n'
  | _ => false

/-- The longest prefix of `v` that is a quoted value: from the opening quote to the last quote
after which only a comment may follow. -/
def quotedPrefix (q : Char) (v : List Char) : Option (List Char) :=
  match v with
  | c :: rest =>
    if c != q then none
    else
      let ends := (List.range rest.length).filter fun j =>
        rest.getD j ' ' == q && restIsComment (rest.drop (j + 1))
      ends.getLast?.map fun j => v.take (j + 2)
  | [] => none

/-- The longest prefix of `v` without `#` or a line break after which only a comment may
follow. -/
def plainPrefix (v : List Char) : Option (List Char) :=
  let n := (v.takeWhile fun c => c != '#' && c != '\n').length
  ((List.range n).reverse.find? fun k => restIsComment (v.drop (k + 1))).map fun k => v.take (k + 1)

/-- The value at the start of `v`, trying a single-quoted, a double-quoted and a plain value in
turn, and else no value at all. -/
def valueAt (v : List Char) : Option (List Char) :=
  match quotedPrefix '\x27' v with
  | some q => some q
  | none => match quotedPrefix '"' v with
    | some q => some q
    | none => match plainPrefix v with
      | some p => some p
      | none => if restIsComment v then some [] else none

/-- The key and raw value of an assignment that starts at `cs` (after any `export`). -/
def assignmentAt (cs : List Char) : Option (List Char × List Char) :=
  let key := cs.takeWhile isKeyChar
  let rest := cs.dropWhile isKeyChar
  if key.isEmpty then none
  else
    let afterBlanks := rest.dropWhile isBlank
    let viaEquals := match afterBlanks with
      | '=' :: r => (valueAt (r.dropWhile isBlank)).map fun v => (key, v)
      | _ => none
    match viaEquals with
    | some r => some r
    | none => match rest with
      | ':' :: r =>
        -- one blank at least, taken as few as possible
        let blanks := (r.takeWhile isBlank).length
        ((List.range blanks).findSome? fun k => valueAt (r.drop (k + 1))).map fun v => (key, v)
      | _ => none

/-- Split a line into key and raw value, if it has the form of an assignment. -/
def splitLine (line : List Char) : Option (List Char × List Char) :=
  let cs := line.dropWhile isBlank
  let exported := match cs with
    | 'e' :: 'x' :: 'p' :: 'o' :: 'r' :: 't' :: rest =>
      if (rest.head?.map isBlank).getD false then assignmentAt (rest.dropWhile isBlank) else none
    | _ => none
  match exported with
  | some r => some r
  | none => assignmentAt cs

/-- Undo the escapes of a double-quoted value. -/
def unescape : List Char → List Char
  | '\\' :: 'n' :: rest => '\n' :: unescape rest
  | '\\' :: 'r' :: rest => '\r' :: unescape rest
  | '\\' :: c :: rest => if c == '$' then '\\' :: unescape (c :: rest) else c :: unescape rest
  | c :: rest => c :: unescape rest
  | [] => []

/-- Replace variable references, looking names up with `lookup`. A reference preceded by a
backslash is kept, without the backslash, and a `$` without a name stays as it is. -/
def expand (lookup : String → String) : Nat → List Char → List Char
  | 0, cs => cs
  | fuel + 1, cs =>
    match cs with
    | '\\' :: '$' :: rest => '$' :: expand lookup fuel rest
    | '$' :: rest =>
      let (brace, rest) := match rest with
        | '{' :: r => (['{'], r)
        | r => ([], r)
      let isName (c : Char) : Bool := c.isUpper || c.isDigit || c == '_'
      let name := rest.takeWhile isName
      let (close, rest) := match rest.dropWhile isName with
        | '}' :: r => (['}'], r)
        | r => ([], r)
      if name.isEmpty then '$' :: brace ++ close ++ expand lookup fuel rest
      else (lookup (String.ofList name)).toList ++ expand lookup fuel rest
    | c :: rest => c :: expand lookup fuel rest
    | [] => []

/-- The value of an assignment: trimmed, unquoted, unescaped and expanded. -/
def finishValue (lookup : String → String) (raw : List Char) : String :=
  let v := trim raw
  let n := v.length
  let dq := n ≥ 2 && v.head? == some '"' && v.getLast? == some '"'
  let sq := n ≥ 2 && v.head? == some '\x27' && v.getLast? == some '\x27'
  let inner := if dq || sq then (v.drop 1).take (n - 2) else v
  if sq then String.ofList inner
  else
    let inner := if dq then unescape inner else inner
    String.ofList (expand lookup (inner.length + 1) inner)

/-- Whether a line opens a quote it does not close: the quote character, if so. -/
def openQuote (line : List Char) : Option Char :=
  let idx := match line.findIdx? (· == '=') with
    | some i => some i
    | none => line.findIdx? (· == ':')
  match idx with
  | some i =>
    if i > 0 ∧ i + 1 < line.length then
      let val := trim (line.drop (i + 1))
      match val with
      | q :: rest =>
        if q == '"' || q == '\x27' then
          -- the last quote is found in the bytes of the trimmed rest, and its offset is then
          -- looked up in the bytes of the whole value
          let body := (String.ofList (trim rest)).toUTF8.toList
          let bytes := (String.ofList val).toUTF8.toList
          let closing := (List.range body.length).reverse.find? fun j => body.getD j 0 == q.toNat.toUInt8
          match closing with
          | some j => if bytes.getD j 0 != 92 then none else some q
          | none => some q
        else none
      | [] => none
    else none
  | none => none

/-- Gather the lines of a quoted value left open: the joined text, the lines after it, and
whether the quote was closed. -/
def gatherQuoted (q : Char) : List (List Char) → List Char → List Char × List (List Char) × Bool
  | [], acc => (acc, [], false)
  | l :: rest, acc =>
    let acc := acc ++ '\n' :: l
    match (List.range l.length).reverse.find? (fun j => l.getD j ' ' == q) with
    | some j =>
      if j > 0 && l.getD (j - 1) ' ' == '\\' then gatherQuoted q rest acc
      else (acc, rest, true)
    | none => gatherQuoted q rest acc

/-- The lines of a text: each ends at a line feed, a carriage return, or a carriage return with a
line feed. -/
def splitLines (cs : List Char) : List (List Char) :=
  let rec go : Nat → List Char → List Char → List (List Char)
    | 0, _, line => [line.reverse]
    | _ + 1, [], line => [line.reverse]
    | fuel + 1, '\r' :: '\n' :: rest, line => line.reverse :: go fuel rest []
    | fuel + 1, '\r' :: rest, line => line.reverse :: go fuel rest []
    | fuel + 1, '\n' :: rest, line => line.reverse :: go fuel rest []
    | fuel + 1, c :: rest, line => go fuel rest (c :: line)
  go (cs.length + 1) cs []

/-- The error of a line that does not read: `export NAME` of a name not assigned before has an
unset variable, and any other line does not match the format. -/
def lineError (line : List Char) (assigned : List (String × String)) : String :=
  let st := String.ofList (trim line)
  let unset := st.startsWith "export" &&
    match st.splitOn " " with
    | _ :: rest@(_ :: _) => !(assigned.any (·.1 == " ".intercalate rest))
    | _ => false
  if unset then "line `" ++ st ++ "` has an unset variable"
  else "line `" ++ String.ofList line ++ "` doesn't match format"

/-- Read the assignments of a dotenv text, in order. `lookup` supplies the values of variables
that references name and that the file has not assigned before them. -/
def parse (lookup : String → Option String) (text : String) : Except String (List (String × String)) :=
  let cs := match text.toList with
    | c :: r => if c == Char.ofNat 0xfeff then r else c :: r
    | [] => []
  let lines := splitLines cs
  let rec go : Nat → List (List Char) → List (String × String) → Except String (List (String × String))
    | 0, _, acc => .ok acc
    | _ + 1, [], acc => .ok acc
    | fuel + 1, l :: rest, acc =>
      let line := trim l
      match line with
      | [] => go fuel rest acc
      | '#' :: _ => go fuel rest acc
      | _ =>
        let (line, rest, closed) := match openQuote line with
          | some q => gatherQuoted q rest line
          | none => (line, rest, true)
        if !closed then .error "missing quotes"
        else match splitLine line with
          | none =>
            let st := trim line
            if st.isEmpty || st.head? == some '#' then go fuel rest acc else .error (lineError line acc)
          | some (key, raw) =>
            let known (name : String) : String :=
              match lookup name with
              | some v => v
              | none => match (acc.reverse.find? (·.1 == name)) with
                | some (_, v) => v
                | none => ""
            go fuel rest (acc ++ [(String.ofList (trim key), finishValue known raw)])
  go (lines.length + 1) lines []

end Dotenv

end Timetabling
