import Timetabling.Yaml.Token

/-! # Reading position in a YAML text

A cursor walks the characters of a text, keeping the mark of where it stands and how many line
breaks it has passed since the last character that was not blank.

A byte-order mark at the very start of the text is not part of it. The reader refuses the
characters that no YAML text may hold: controls other than tab, line feed and carriage return,
delete, the C1 controls other than U+0085, and U+FFFE and U+FFFF. It delivers the text in pieces
of 512 bytes (a character cut at the end of a piece goes with the next one), and meets a
forbidden character only when it delivers the piece holding it; the cursor therefore sees the
text up to that piece and no further. -/

namespace Timetabling

namespace Yaml

/-- Whether a YAML text may hold a character. -/
def isAllowed (c : Char) : Bool :=
  let n := c.toNat
  n == 0x09 || n == 0x0A || n == 0x0D || (0x20 ≤ n && n ≤ 0x7E) || n == 0x85 ||
    (0xA0 ≤ n && n ≤ 0xD7FF) || (0xE000 ≤ n && n ≤ 0xFFFD) || (0x10000 ≤ n && n ≤ 0x10FFFF)

/-- How many characters come before the piece of 512 bytes that holds the character at `bad`,
when the text has `total` bytes, a byte-order mark of `skipped` bytes, and characters of the
given widths. The first piece ends at byte 512; each later piece ends 512 bytes after the first
character the piece before could not deliver whole. -/
def pieceStart (widths : List Nat) (total skipped bad : Nat) : Nat :=
  let rec go : List Nat → Nat → Nat → Nat → Nat → Nat
    | [], _, _, _, start => start
    | w :: rest, i, offset, pieceEnd, start =>
      let (pieceEnd, start) := if offset + w > pieceEnd then (min (offset + 512) total, i) else (pieceEnd, start)
      if i == bad then start else go rest (i + 1) (offset + w) pieceEnd start
  go widths 0 skipped (min 512 total) 0

/-- A place in a text being read. -/
structure Cursor where
  /-- The characters of the text, without a leading byte-order mark. -/
  text : Array Char
  /-- How many characters the reader delivers. -/
  readable : Nat
  /-- Whether the reader stops at a forbidden character after them. -/
  blocked : Bool
  mark : Mark := {}
  /-- Line breaks passed since the last character that was not blank. -/
  newlines : Nat := 0
deriving Inhabited

namespace Cursor

/-- A cursor at the start of a text. -/
def ofText (s : String) : Cursor :=
  let all := s.toList
  let (chars, skipped) := match all with
    | c :: rest => if c == '\uFEFF' then (rest, 3) else (all, 0)
    | [] => ([], 0)
  let text := chars.toArray
  match chars.findIdx? (fun c => !isAllowed c) with
  | none => { text, readable := text.size, blocked := false }
  | some bad =>
    { text, readable := pieceStart (chars.map Char.utf8Size) s.utf8ByteSize skipped bad, blocked := true }

/-- The character `k` places ahead, or U+0000 past what the reader delivers. -/
def peekAt (c : Cursor) (k : Nat) : Char :=
  let i := c.mark.index + k
  if i < c.readable then c.text.getD i '\x00' else '\x00'

/-- The character at the cursor. -/
def peek (c : Cursor) : Char :=
  c.peekAt 0

/-- Whether the reader fails before it can deliver `n` characters from the cursor. -/
def starved (c : Cursor) (n : Nat) : Bool :=
  c.blocked && c.mark.index + n > c.readable

/-- The error of a reader that meets a forbidden character. -/
def forbiddenError : YamlError :=
  .forbidden "control characters are not allowed"

/-- Move past one character on the same line. -/
def skip (c : Cursor) : Cursor :=
  { c with mark := ⟨c.mark.index + 1, c.mark.line, c.mark.column + 1⟩,
           newlines := if isBlank c.peek then c.newlines else 0 }

/-- Move past `n` characters on the same line. -/
def skipN (c : Cursor) : Nat → Cursor
  | 0 => c
  | n + 1 => (c.skip).skipN n

/-- Move past a line break, if the cursor is at one; a carriage return and line feed count as
one break. -/
def skipLine (c : Cursor) : Cursor :=
  if c.peek == '\r' && c.peekAt 1 == '\n' then
    { c with mark := ⟨c.mark.index + 2, c.mark.line + 1, 0⟩, newlines := c.newlines + 1 }
  else if isBreak c.peek then
    { c with mark := ⟨c.mark.index + 1, c.mark.line + 1, 0⟩, newlines := c.newlines + 1 }
  else c

/-- Move past one character, adding it to a text. -/
def read (c : Cursor) (acc : String) : String × Cursor :=
  (acc.push c.peek, c.skip)

/-- Move past a line break, adding it to a text: a carriage return, a line feed, both, or a
next-line character are added as a line feed, and a line or paragraph separator as itself. -/
def readLine (c : Cursor) (acc : String) : String × Cursor :=
  let ch := c.peek
  if ch == '\r' || ch == '\n' || ch == '\x85' then (acc.push '\n', c.skipLine)
  else if ch == '\u2028' || ch == '\u2029' then (acc.push ch, c.skipLine)
  else (acc, c)

/-- Move past blanks. -/
def skipBlanks (c : Cursor) : Nat → Cursor
  | 0 => c
  | fuel + 1 => if isBlank c.peek then (c.skip).skipBlanks fuel else c

/-- Move to the end of the line. -/
def skipToBreak (c : Cursor) : Nat → Cursor
  | 0 => c
  | fuel + 1 => if isBreakOrEnd c.peek then c else (c.skip).skipToBreak fuel

/-- A bound on the steps of any walk over the rest of the text. -/
def room (c : Cursor) : Nat :=
  c.text.size + 2 - c.mark.index

/-- Whether three given characters stand at the start of a line, followed by a blank, a break or
the end: a document marker. -/
def atMarker (c : Cursor) (ch : Char) : Bool :=
  c.mark.column == 0 && c.peek == ch && c.peekAt 1 == ch && c.peekAt 2 == ch && isBlankOrEnd (c.peekAt 3)

end Cursor

end Yaml

end Timetabling
