import Timetabling.Json.Basic

/-! # Writing JSON text

Compact JSON: no blanks, members in their stored order. In strings the quote, the backslash and
the control characters are escaped, and so are `<`, `>`, `&` and the two line separators
U+2028 and U+2029, so the text can be embedded in HTML. -/

namespace Timetabling

namespace Json

/-- Four lowercase hexadecimal digits. -/
def hex4 (n : Nat) : String :=
  let d (k : Nat) : Char := "0123456789abcdef".toList.getD ((n / Nat.pow 16 k) % 16) '0'
  String.ofList [d 3, d 2, d 1, d 0]

/-- The escaped form of one character inside a string. -/
def escapeChar (c : Char) : String :=
  if c == '"' then "\\\""
  else if c == '\\' then "\\\\"
  else if c == '\n' then "\\n"
  else if c == '\r' then "\\r"
  else if c == '\t' then "\\t"
  else if c.toNat < 0x20 || c == '<' || c == '>' || c == '&' || c.toNat == 0x2028 || c.toNat == 0x2029 then
    "\\u" ++ hex4 c.toNat
  else String.singleton c

/-- A string literal. -/
def quote (s : String) : String :=
  "\"" ++ String.join (s.toList.map escapeChar) ++ "\""

mutual

/-- The compact text of a value. -/
def render : Json → String
  | .null => "null"
  | .bool b => if b then "true" else "false"
  | .number lit => lit
  | .string s => quote s
  | .array items => "[" ++ ",".intercalate (renderItems items) ++ "]"
  | .object members => "\x7b" ++ ",".intercalate (renderMembers members) ++ "\x7d"

/-- The texts of array items. -/
def renderItems : List Json → List String
  | [] => []
  | v :: vs => render v :: renderItems vs

/-- The texts of object members. -/
def renderMembers : List (String × Json) → List String
  | [] => []
  | (k, v) :: ms => (quote k ++ ":" ++ render v) :: renderMembers ms

end

/-- Whether a number literal is one that JSON cannot hold. -/
def isUnsupported (lit : String) : Bool :=
  lit == "NaN" || lit == "+Inf" || lit == "-Inf"

mutual

/-- The first number of a value, in writing order, that JSON cannot hold. -/
def unsupported? : Json → Option String
  | .number lit => if isUnsupported lit then some lit else none
  | .array items => unsupportedItem? items
  | .object members => unsupportedMember? members
  | _ => none

/-- The first number of some array items that JSON cannot hold. -/
def unsupportedItem? : List Json → Option String
  | [] => none
  | v :: vs => (unsupported? v).orElse fun _ => unsupportedItem? vs

/-- The first number of some object members that JSON cannot hold. -/
def unsupportedMember? : List (String × Json) → Option String
  | [] => none
  | (_, v) :: ms => (unsupported? v).orElse fun _ => unsupportedMember? ms

end

/-- The text of a value; a value holding a number that JSON cannot hold is refused. -/
def encode (j : Json) : Except String String :=
  match unsupported? j with
  | some v => .error ("json: unsupported value: " ++ v)
  | none => .ok (render j)

end Json

end Timetabling
