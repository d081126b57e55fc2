import Timetabling.Json.Basic

/-! # Reading JSON text

The strict grammar of RFC 8259: no leading zeros, no bare points, no comments, and only the four
blanks space, tab, line feed and carriage return between tokens. A `\u` escape of a lone
surrogate reads as U+FFFD; a high and low surrogate in a row read as one character. Numbers keep
their literal text. Reading is total: it runs on a fuel bound by the length of the text. -/

namespace Timetabling

namespace Json

/-- The four blanks allowed between tokens. -/
def isBlank (c : Char) : Bool :=
  c == ' ' || c == '\t' || c == '\n' || c == '\r'

/-- Drop leading blanks. -/
def skipBlanks : List Char → List Char
  | [] => []
  | c :: cs => if isBlank c then skipBlanks cs else c :: cs

/-- The value of a hexadecimal digit. -/
def hexDigit? (c : Char) : Option Nat :=
  if '0' ≤ c ∧ c ≤ '9' then some (c.toNat - '0'.toNat)
  else if 'a' ≤ c ∧ c ≤ 'f' then some (c.toNat - 'a'.toNat + 10)
  else if 'A' ≤ c ∧ c ≤ 'F' then some (c.toNat - 'A'.toNat + 10)
  else none

/-- Four hexadecimal digits after a `\u`, and the rest. -/
def hex4? : List Char → Option (Nat × List Char)
  | a :: b :: c :: d :: rest => do
    let a ← hexDigit? a
    let b ← hexDigit? b
    let c ← hexDigit? c
    let d ← hexDigit? d
    pure (((a * 16 + b) * 16 + c) * 16 + d, rest)
  | _ => none

/-- The replacement character, for escapes that name no character. -/
def replacement : Char := Char.ofNat 0xFFFD

/-- Read the body of a string up to its closing quote; the accumulator holds the characters read
so far in reverse. -/
def readString : Nat → List Char → List Char → Option (String × List Char)
  | 0, _, _ => none
  | _ + 1, [], _ => none
  | fuel + 1, c :: cs, acc =>
    if c == '"' then some (String.ofList acc.reverse, cs)
    else if c.toNat < 0x20 then none
    else if c == '\\' then
      match cs with
      | '"' :: r => readString fuel r ('"' :: acc)
      | '\\' :: r => readString fuel r ('\\' :: acc)
      | '/' :: r => readString fuel r ('/' :: acc)
      | 'b' :: r => readString fuel r ('\x08' :: acc)
      | 'f' :: r => readString fuel r ('\x0c' :: acc)
      | 'n' :: r => readString fuel r ('\n' :: acc)
      | 'r' :: r => readString fuel r ('\r' :: acc)
      | 't' :: r => readString fuel r ('\t' :: acc)
      | 'u' :: r =>
        match hex4? r with
        | none => none
        | some (u, r) =>
          if 0xD800 ≤ u ∧ u < 0xDC00 then
            match r with
            | '\\' :: 'u' :: r' =>
              match hex4? r' with
              | some (l, r'') =>
                if 0xDC00 ≤ l ∧ l < 0xE000 then
                  readString fuel r'' (Char.ofNat (0x10000 + (u - 0xD800) * 0x400 + (l - 0xDC00)) :: acc)
                else readString fuel r (replacement :: acc)
              | none => readString fuel r (replacement :: acc)
            | _ => readString fuel r (replacement :: acc)
          else if 0xDC00 ≤ u ∧ u < 0xE000 then readString fuel r (replacement :: acc)
          else readString fuel r (Char.ofNat u :: acc)
      | _ => none
    else readString fuel cs (c :: acc)

/-- Split off the leading decimal digits. -/
def spanDigits (cs : List Char) : List Char × List Char :=
  (cs.takeWhile Char.isDigit, cs.dropWhile Char.isDigit)

/-- Read a number literal: an optional minus, an integer part without leading zeros, an optional
fraction and an optional exponent. -/
def readNumber (cs : List Char) : Option (String × List Char) := do
  let (sign, cs) := match cs with
    | '-' :: r => (['-'], r)
    | r => ([], r)
  let (whole, cs) ← match cs with
    | '0' :: r => some (['0'], r)
    | c :: r => if c.isDigit then some (spanDigits (c :: r)) else none
    | [] => none
  let (frac, cs) ← match cs with
    | '.' :: r =>
      let (ds, r) := spanDigits r
      if ds.isEmpty then none else some ('.' :: ds, r)
    | r => some ([], r)
  let (exp, cs) ← match cs with
    | e :: r =>
      if e == 'e' || e == 'E' then
        let (s, r) := match r with
          | '+' :: r' => (['+'], r')
          | '-' :: r' => (['-'], r')
          | r' => ([], r')
        let (ds, r) := spanDigits r
        if ds.isEmpty then none else some (e :: s ++ ds, r)
      else some ([], e :: r)
    | [] => some ([], [])
  pure (String.ofList (sign ++ whole ++ frac ++ exp), cs)

mutual

/-- Read one value after optional blanks. -/
def readValue : Nat → List Char → Option (Json × List Char)
  | 0, _ => none
  | fuel + 1, cs =>
    match skipBlanks cs with
    | '\x7b' :: r =>
      match skipBlanks r with
      | '\x7d' :: r' => some (.object [], r')
      | _ => readMembers fuel r []
    | '[' :: r =>
      match skipBlanks r with
      | ']' :: r' => some (.array [], r')
      | _ => readItems fuel r []
    | '"' :: r => (readString (r.length + 1) r []).map fun (s, r') => (.string s, r')
    | 't' :: 'r' :: 'u' :: 'e' :: r => some (.bool true, r)
    | 'f' :: 'a' :: 'l' :: 's' :: 'e' :: r => some (.bool false, r)
    | 'n' :: 'u' :: 'l' :: 'l' :: r => some (.null, r)
    | r => (readNumber r).map fun (lit, r') => (.number lit, r')

/-- Read array items after the opening bracket; `acc` holds the items so far in reverse. -/
def readItems : Nat → List Char → List Json → Option (Json × List Char)
  | 0, _, _ => none
  | fuel + 1, cs, acc =>
    match readValue fuel cs with
    | none => none
    | some (v, r) =>
      match skipBlanks r with
      | ',' :: r' => readItems fuel r' (v :: acc)
      | ']' :: r' => some (.array (v :: acc).reverse, r')
      | _ => none

/-- Read object members after the opening brace; `acc` holds the members so far in reverse. -/
def readMembers : Nat → List Char → List (String × Json) → Option (Json × List Char)
  | 0, _, _ => none
  | fuel + 1, cs, acc =>
    match skipBlanks cs with
    | '"' :: r =>
      match readString (r.length + 1) r [] with
      | none => none
      | some (k, r) =>
        match skipBlanks r with
        | ':' :: r =>
          match readValue fuel r with
          | none => none
          | some (v, r) =>
            match skipBlanks r with
            | ',' :: r' => readMembers fuel r' ((k, v) :: acc)
            | '\x7d' :: r' => some (.object ((k, v) :: acc).reverse, r')
            | _ => none
        | _ => none
    | _ => none

end

/-- Read a whole text as one JSON value, with only blanks around it. -/
def parse? (s : String) : Option Json :=
  let cs := s.toList
  match readValue (2 * cs.length + 4) cs with
  | some (v, rest) => if (skipBlanks rest).isEmpty then some v else none
  | none => none

end Json

end Timetabling
