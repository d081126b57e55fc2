import Timetabling.Json.Parse
import Timetabling.Json.Decode

/-! # Explaining malformed JSON

When stored JSON text is malformed, the reader reports the first character that cannot continue
the text, and what it was looking for there: the beginning of a value, an object key, the
separator after a key, and so on; a text that stops early is an unexpected end of input. The
check runs one character at a time with a stack of the open arrays and objects, the way a
streaming scanner does.

Well-formed text that does not fit the expected shape is reported by the kind of value found and
the type expected, and the first such misfit in the text is the one reported. -/

namespace Timetabling

namespace JsonSyntax

/-- What an open container expects after its current value. -/
inductive Frame where
  | objectKey
  | objectValue
  | arrayValue
deriving DecidableEq, Repr

/-- Where the scanner is within a value. -/
inductive Phase where
  | beginValue
  | beginValueOrEmpty
  | beginStringOrEmpty
  | beginString
  | endValue
  | endTop
  | inString
  | inEscape
  | inUnicode (left : Nat)
  | neg
  | zero
  | digits
  | dot
  | fraction
  | exponent
  | exponentSign
  | exponentDigits
  | literal (word : String) (rest : List Char)
deriving Repr

/-- A character as the error text shows it, in single quotes with escapes; a character outside
ASCII shows its first byte. -/
def quoteChar (c : Char) : String :=
  let n := if c.toNat < 0x80 then c.toNat
    else if c.toNat < 0x800 then 0xC0 + c.toNat / 64
    else if c.toNat < 0x10000 then 0xE0 + c.toNat / 4096
    else 0xF0 + c.toNat / 262144
  let hex := "0123456789abcdef".toList
  let h (k : Nat) : Char := hex.getD k '0'
  if c == '\'' then "'\\''"
  else if c == '"' then "'\"'"
  else if n == 7 then "'\\a'" else if n == 8 then "'\\b'" else if n == 12 then "'\\f'"
  else if n == 10 then "'\\n'" else if n == 13 then "'\\r'" else if n == 9 then "'\\t'"
  else if n == 11 then "'\\v'" else if n == 92 then "'\\\\'"
  else if n < 0x20 || n == 0x7F then "'\\x" ++ String.singleton (h (n / 16)) ++ String.singleton (h (n % 16)) ++ "'"
  else if n < 0x80 then "'" ++ String.singleton (Char.ofNat n) ++ "'"
  else if n ≤ 0xA0 || n == 0xAD then "'\\u00" ++ String.singleton (h (n / 16)) ++ String.singleton (h (n % 16)) ++ "'"
  else "'" ++ String.singleton (Char.ofNat n) ++ "'"

/-- The error for an unexpected character. -/
def invalid (c : Char) (context : String) : String :=
  "invalid character " ++ quoteChar c ++ " " ++ context

/-- Whether a character is a blank between tokens. -/
def isSpace (c : Char) : Bool :=
  c == ' ' || c == '\t' || c == '\n' || c == '\r'

/-- The phase that starts a value at a character, with the stack it leaves. -/
def beginValue (c : Char) (stack : List Frame) : Except String (Phase × List Frame) :=
  if isSpace c then .ok (.beginValue, stack)
  else match c with
    | '\x7b' => .ok (.beginStringOrEmpty, .objectKey :: stack)
    | '[' => .ok (.beginValueOrEmpty, .arrayValue :: stack)
    | '"' => .ok (.inString, stack)
    | '-' => .ok (.neg, stack)
    | '0' => .ok (.zero, stack)
    | 't' => .ok (.literal "true" ['r', 'u', 'e'], stack)
    | 'f' => .ok (.literal "false" ['a', 'l', 's', 'e'], stack)
    | 'n' => .ok (.literal "null" ['u', 'l', 'l'], stack)
    | _ => if '1' ≤ c ∧ c ≤ '9' then .ok (.digits, stack)
      else .error (invalid c "looking for beginning of value")

/-- The phase after a value ends, at the next character. -/
def endValue (c : Char) (stack : List Frame) : Except String (Phase × List Frame) :=
  match stack with
  | [] => if isSpace c then .ok (.endTop, []) else .error (invalid c "after top-level value")
  | f :: rest =>
    if isSpace c then .ok (.endValue, stack)
    else match f with
      | .objectKey =>
        if c == ':' then .ok (.beginValue, .objectValue :: rest)
        else .error (invalid c "after object key")
      | .objectValue =>
        if c == ',' then .ok (.beginString, .objectKey :: rest)
        else if c == '\x7d' then .ok (.endValue, rest)
        else .error (invalid c "after object key:value pair")
      | .arrayValue =>
        if c == ',' then .ok (.beginValue, stack)
        else if c == ']' then .ok (.endValue, rest)
        else .error (invalid c "after array element")

/-- One step of the scanner. -/
def step (p : Phase) (stack : List Frame) (c : Char) : Except String (Phase × List Frame) :=
  match p with
  | .beginValue => beginValue c stack
  | .beginValueOrEmpty =>
    if isSpace c then .ok (.beginValueOrEmpty, stack)
    else if c == ']' then endValue c stack
    else beginValue c stack
  | .beginStringOrEmpty =>
    if isSpace c then .ok (.beginStringOrEmpty, stack)
    else if c == '\x7d' then endValue c (.objectValue :: stack.drop 1)
    else if c == '"' then .ok (.inString, stack)
    else .error (invalid c "looking for beginning of object key string")
  | .beginString =>
    if isSpace c then .ok (.beginString, stack)
    else if c == '"' then .ok (.inString, stack)
    else .error (invalid c "looking for beginning of object key string")
  | .endValue => endValue c stack
  | .endTop =>
    if isSpace c then .ok (.endTop, stack) else .error (invalid c "after top-level value")
  | .inString =>
    if c == '"' then .ok (.endValue, stack)
    else if c == '\\' then .ok (.inEscape, stack)
    else if c.toNat < 0x20 then .error (invalid c "in string literal")
    else .ok (.inString, stack)
  | .inEscape =>
    if "bfnrt\\/\"".toList.contains c then .ok (.inString, stack)
    else if c == 'u' then .ok (.inUnicode 4, stack)
    else .error (invalid c "in string escape code")
  | .inUnicode left =>
    if c.isDigit || ('a' ≤ c ∧ c ≤ 'f') || ('A' ≤ c ∧ c ≤ 'F') then
      .ok (if left ≤ 1 then .inString else .inUnicode (left - 1), stack)
    else .error (invalid c "in \\u hexadecimal character escape")
  | .neg =>
    if c == '0' then .ok (.zero, stack)
    else if '1' ≤ c ∧ c ≤ '9' then .ok (.digits, stack)
    else .error (invalid c "in numeric literal")
  | .digits =>
    if c.isDigit then .ok (.digits, stack)
    else if c == '.' then .ok (.dot, stack)
    else if c == 'e' || c == 'E' then .ok (.exponent, stack)
    else endValue c stack
  | .zero =>
    if c == '.' then .ok (.dot, stack)
    else if c == 'e' || c == 'E' then .ok (.exponent, stack)
    else endValue c stack
  | .dot =>
    if c.isDigit then .ok (.fraction, stack)
    else .error (invalid c "after decimal point in numeric literal")
  | .fraction =>
    if c.isDigit then .ok (.fraction, stack)
    else if c == 'e' || c == 'E' then .ok (.exponent, stack)
    else endValue c stack
  | .exponent =>
    if c == '+' || c == '-' then .ok (.exponentSign, stack)
    else if c.isDigit then .ok (.exponentDigits, stack)
    else .error (invalid c "in exponent of numeric literal")
  | .exponentSign =>
    if c.isDigit then .ok (.exponentDigits, stack)
    else .error (invalid c "in exponent of numeric literal")
  | .exponentDigits =>
    if c.isDigit then .ok (.exponentDigits, stack)
    else endValue c stack
  | .literal word rest =>
    match rest with
    | [] => endValue c stack
    | e :: more =>
      if c == e then .ok ((if more.isEmpty then .endValue else .literal word more), stack)
      else .error (invalid c ("in literal " ++ word ++ " (expecting " ++ quoteChar e ++ ")"))

/-- Whether the text may end in a phase: after a complete value at the top level. -/
def canEnd (p : Phase) (stack : List Frame) : Bool :=
  stack.isEmpty && match p with
    | .endValue | .endTop | .digits | .zero | .fraction | .exponentDigits => true
    | _ => false

/-- The first error of a text, if it is not one well-formed JSON value. -/
def error? (text : String) : Option String :=
  let r := text.toList.foldlM (fun (s : Phase × List Frame) c => step s.1 s.2 c) (Phase.beginValue, [])
  match r with
  | .error e => some e
  | .ok (p, stack) => if canEnd p stack then none else some "unexpected end of JSON input"

/-- The kind of a value as a misfit names it. -/
def kindOf : Json → String
  | .null => "null"
  | .bool _ => "bool"
  | .number _ => "number"
  | .string _ => "string"
  | .array _ => "array"
  | .object _ => "object"

/-- A misfit: a value of a kind where a type was expected. -/
def misfit (kind expected : String) : String :=
  "json: cannot unmarshal " ++ kind ++ " into Go value of type " ++ expected

/-- A float, `null` reading as zero. -/
def float (j : Json) : Except String Float :=
  match j with
  | .null => .ok 0
  | .number lit =>
    match Json.asFloat j with
    | .ok x => .ok x
    | .error _ => .error (misfit ("number " ++ lit) "float64")
  | j => .error (misfit (kindOf j) "float64")

/-- Parse stored text, or explain why it is not JSON. -/
def parse (text : String) : Except String Json :=
  match error? text with
  | some e => .error e
  | none =>
    match Json.parse? text with
    | some j => .ok j
    | none => .error "unexpected end of JSON input"

/-- Stored text as a map from names to floats; `null` is no map. A repeated name keeps its last
value. -/
def floatMap (text : String) : Except String (Option (List (String × Float))) := do
  match ← parse text with
  | .null => pure none
  | .object members =>
    let entries ← members.mapM fun (k, v) => do pure (k, ← float v)
    pure (some (Json.lastWins entries))
  | j => .error (misfit (kindOf j) "map[string]float64")

/-- Stored text as a map from names to rows of floats; `null` is no map, and a `null` row is no
row. -/
def floatRows (text : String) : Except String (Option (List (String × Option (List Float)))) := do
  match ← parse text with
  | .null => pure none
  | .object members =>
    let entries ← members.mapM fun (k, v) => do
      match v with
      | .null => pure (k, none)
      | .array items => pure (k, some (← items.mapM float))
      | j => .error (misfit (kindOf j) "[]float64")
    pure (some (Json.lastWins entries))
  | j => .error (misfit (kindOf j) "map[string][]float64")

end JsonSyntax

end Timetabling
