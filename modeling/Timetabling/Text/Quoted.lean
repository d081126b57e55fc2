import Timetabling.Text.Unicode

/-! # Quoted strings in messages

Messages quote user text between double quotes, with backslash escapes: the quote and backslash
themselves, the named control characters `\a \b \f \n \r \t \v`, other ASCII control characters
as `\xNN`, and any other character that is not printable as `\uNNNN`, or `\UNNNNNNNN` beyond the
basic plane, in lowercase hexadecimal. A printable character stands for itself. -/

namespace Timetabling

namespace Text

/-- The lowercase hexadecimal digit of a number below sixteen. -/
def hexDigit (n : Nat) : Char :=
  "0123456789abcdef".toList.getD n '0'

/-- The `width` lowest hexadecimal digits of a number, most significant first. -/
def hexDigits (width n : Nat) : String :=
  String.ofList ((List.range width).reverse.map fun k => hexDigit (n / Nat.pow 16 k % 16))

/-- Two lowercase hexadecimal digits. -/
def hex2 (n : Nat) : String :=
  hexDigits 2 n

/-- The escaped form of one character inside quotes. -/
def quoteChar (c : Char) : String :=
  match c with
  | '"' => "\\\""
  | '\\' => "\\\\"
  | c =>
    if Unicode.isPrint c then String.singleton c
    else match c with
      | '\x07' => "\\a"
      | '\x08' => "\\b"
      | '\x0c' => "\\f"
      | '\n' => "\\n"
      | '\r' => "\\r"
      | '\t' => "\\t"
      | '\x0b' => "\\v"
      | c =>
        if c.toNat < 0x20 || c.toNat == 0x7f then "\\x" ++ hex2 c.toNat
        else if c.toNat < 0x10000 then "\\u" ++ hexDigits 4 c.toNat
        else "\\U" ++ hexDigits 8 c.toNat

/-- Text between double quotes, escaped. -/
def quoted (s : String) : String :=
  "\"" ++ String.join (s.toList.map quoteChar) ++ "\""

end Text

end Timetabling
