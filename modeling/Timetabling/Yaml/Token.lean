/-! # YAML tokens

A YAML text is read in three steps: its characters are cut into *tokens*, the tokens are
arranged into *events* (the start and end of documents and collections, scalars and aliases),
and the events are built into *nodes*. This module holds what the first step produces: places in
the text, the kinds of token, and the errors any step can meet.

A line break is a carriage return, a line feed, both in that order, a next-line character
U+0085, or a line or paragraph separator U+2028 or U+2029. Past the end of the text the reader
sees the character U+0000, which no text may hold. -/

namespace Timetabling

namespace Yaml

/-- A place in a text: the characters before it, and its line and column, counting from zero. -/
structure Mark where
  index : Nat := 0
  line : Nat := 0
  column : Nat := 0
deriving Repr, Inhabited, BEq

/-- How a scalar is written: plain, in single or double quotes, or as a literal (`|`) or folded
(`>`) block. -/
inductive ScalarStyle where
  | plain
  | singleQuoted
  | doubleQuoted
  | literal
  | folded
deriving Repr, Inhabited, BEq, DecidableEq

/-- What a token stands for. -/
inductive TokenKind where
  | streamStart
  | streamEnd
  /-- A `%YAML` directive with its version. -/
  | version (major minor : Nat)
  /-- A `%TAG` directive: a handle and the text it stands for. -/
  | tagDirective (handle expansion : String)
  | documentStart
  | documentEnd
  | blockSequenceStart
  | blockMappingStart
  | blockEnd
  | flowSequenceStart
  | flowSequenceEnd
  | flowMappingStart
  | flowMappingEnd
  /-- A `-` before an item of a block sequence. -/
  | blockEntry
  /-- A `,` between items of a flow collection. -/
  | flowEntry
  /-- The start of a mapping key, written `?` or implied by a following `:`. -/
  | key
  /-- A `:` before a mapping value. -/
  | value
  | alias (name : String)
  | anchor (name : String)
  /-- A node tag: its handle (empty for a verbatim tag) and suffix. -/
  | tag (handle suffix : String)
  | scalar (text : String) (style : ScalarStyle)
deriving Repr, Inhabited, BEq

/-- A token with where it starts and ends. -/
structure Token where
  kind : TokenKind
  start : Mark
  stop : Mark
deriving Repr, Inhabited

/-- Why a text could not be read as a document of a type. -/
inductive YamlError where
  /-- The text holds a character that no YAML text may hold. -/
  | forbidden (problem : String)
  /-- A problem met while cutting the text into tokens: where the construct being read began, the
  problem, and where it was found. -/
  | scan (context : Mark) (problem : String) (found : Mark)
  /-- A problem met while arranging tokens into events: where the enclosing construct began (the
  start of the text when there is none), the problem, and the token where it was found. -/
  | arrange (context : Mark) (problem : String) (found : Mark)
  /-- A problem met while building or decoding the document, with its whole message. -/
  | abort (message : String)
deriving Repr, Inhabited

namespace YamlError

/-- The line an error names, counting from one, or zero for none. A scanning problem names the
line of its construct, or else where it was found; an arranging problem does the same but counts
from zero, so a problem on the first line of the text names no line at all. -/
def line : YamlError → Nat
  | .scan context _ found =>
    if context.line != 0 then context.line + 1 else if found.line != 0 then found.line + 1 else 0
  | .arrange context _ found =>
    if context.line != 0 then context.line else found.line
  | .forbidden _ | .abort _ => 0

/-- The message of an error, after `yaml: `. -/
def message (e : YamlError) : String :=
  let where_ := if e.line == 0 then "" else "line " ++ toString e.line ++ ": "
  match e with
  | .forbidden p | .scan _ p _ | .arrange _ p _ => "yaml: " ++ where_ ++ p
  | .abort m => "yaml: " ++ m

end YamlError

/-- Whether a character breaks a line. -/
def isBreak (c : Char) : Bool :=
  c == '\r' || c == '\n' || c == '\x85' || c == '\u2028' || c == '\u2029'

/-- Whether a character is a space or a tab. -/
def isBlank (c : Char) : Bool :=
  c == ' ' || c == '\t'

/-- Whether a character breaks a line or lies past the end. -/
def isBreakOrEnd (c : Char) : Bool :=
  isBreak c || c == '\x00'

/-- Whether a character is blank, breaks a line or lies past the end. -/
def isBlankOrEnd (c : Char) : Bool :=
  isBlank c || isBreakOrEnd c

/-- Whether a character may appear in a directive name, an anchor or a tag handle: an ASCII
letter or digit, `_` or `-`. -/
def isWordChar (c : Char) : Bool :=
  ('0' ≤ c && c ≤ '9') || ('A' ≤ c && c ≤ 'Z') || ('a' ≤ c && c ≤ 'z') || c == '_' || c == '-'

/-- The value of a hexadecimal digit, if a character is one. -/
def hexValue (c : Char) : Option Nat :=
  if '0' ≤ c && c ≤ '9' then some (c.toNat - '0'.toNat)
  else if 'a' ≤ c && c ≤ 'f' then some (c.toNat - 'a'.toNat + 10)
  else if 'A' ≤ c && c ≤ 'F' then some (c.toNat - 'A'.toNat + 10)
  else none

end Yaml

end Timetabling
