/-! # Base64

Standard base64 with padding: groups of four characters from `A`–`Z`, `a`–`z`, `0`–`9`, `+`
and `/` stand for three bytes; the last group may end in `=` or `==` for two or one byte. Line
breaks (carriage returns and line feeds) may appear anywhere and are ignored; anything else, or
a missing pad, makes the text unreadable. The bits a padded group does not use are not checked. -/

namespace Timetabling

namespace Base64

/-- The six bits a base64 character stands for. -/
def sextet (c : Char) : Option Nat :=
  if 'A' ≤ c && c ≤ 'Z' then some (c.toNat - 'A'.toNat)
  else if 'a' ≤ c && c ≤ 'z' then some (c.toNat - 'a'.toNat + 26)
  else if '0' ≤ c && c ≤ '9' then some (c.toNat - '0'.toNat + 52)
  else if c == '+' then some 62
  else if c == '/' then some 63
  else none

/-- The bytes a group of four characters stands for; only the last group may be padded. -/
def group (last : Bool) : List Char → Option (List UInt8)
  | [a, b, c, d] =>
    match sextet a, sextet b with
    | some x, some y =>
      let n1 := x * 4 + y / 16
      if c == '=' && d == '=' && last then some [n1.toUInt8]
      else
        match sextet c with
        | some z =>
          let n2 := (y % 16) * 16 + z / 4
          if d == '=' && last then some [n1.toUInt8, n2.toUInt8]
          else (sextet d).map fun w => [n1.toUInt8, n2.toUInt8, ((z % 4) * 64 + w).toUInt8]
        | none => none
    | _, _ => none
  | _ => none

/-- The bytes a base64 text stands for, if it is well formed. -/
def decode? (text : String) : Option (List UInt8) :=
  let cs := text.toList.filter (fun c => c != '\r' && c != '\n')
  if cs.length % 4 != 0 then none
  else
    let rec go : Nat → List Char → List UInt8 → Option (List UInt8)
      | 0, _, acc => some acc
      | _, [], acc => some acc
      | fuel + 1, cs, acc =>
        let rest := cs.drop 4
        (group rest.isEmpty (cs.take 4)).bind fun bytes => go fuel rest (acc ++ bytes)
    go cs.length cs []

end Base64

end Timetabling
