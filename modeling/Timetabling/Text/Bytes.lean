/-! # Text from bytes

Bytes that should hold UTF-8 are read as text one character at a time: a well-formed sequence
(no overlong form, no surrogate, nothing beyond U+10FFFF) gives its character, and any other
byte gives one replacement character U+FFFD and is passed over alone. -/

namespace Timetabling

namespace Text

/-- Whether a byte continues a UTF-8 sequence, lying between `lo` and `hi`. -/
def continues (b lo hi : UInt8) : Bool :=
  lo ≤ b && b ≤ hi

/-- The character a well-formed UTF-8 sequence at the front of a byte list encodes, with the
number of bytes it takes. -/
def frontChar? : List UInt8 → Option (Char × Nat)
  | b0 :: rest =>
    let n0 := b0.toNat
    if n0 < 0x80 then some (Char.ofNat n0, 1)
    else if 0xC2 ≤ n0 && n0 ≤ 0xDF then
      match rest with
      | b1 :: _ => if continues b1 0x80 0xBF then some (Char.ofNat ((n0 - 0xC0) * 64 + (b1.toNat - 0x80)), 2) else none
      | _ => none
    else if 0xE0 ≤ n0 && n0 ≤ 0xEF then
      let lo : UInt8 := if n0 == 0xE0 then 0xA0 else 0x80
      let hi : UInt8 := if n0 == 0xED then 0x9F else 0xBF
      match rest with
      | b1 :: b2 :: _ =>
        if continues b1 lo hi && continues b2 0x80 0xBF then
          some (Char.ofNat ((n0 - 0xE0) * 4096 + (b1.toNat - 0x80) * 64 + (b2.toNat - 0x80)), 3)
        else none
      | _ => none
    else if 0xF0 ≤ n0 && n0 ≤ 0xF4 then
      let lo : UInt8 := if n0 == 0xF0 then 0x90 else 0x80
      let hi : UInt8 := if n0 == 0xF4 then 0x8F else 0xBF
      match rest with
      | b1 :: b2 :: b3 :: _ =>
        if continues b1 lo hi && continues b2 0x80 0xBF && continues b3 0x80 0xBF then
          some (Char.ofNat ((n0 - 0xF0) * 262144 + (b1.toNat - 0x80) * 4096 + (b2.toNat - 0x80) * 64 +
            (b3.toNat - 0x80)), 4)
        else none
      | _ => none
    else none
  | [] => none

/-- Read bytes as UTF-8 text, a replacement character standing for each byte that starts no
well-formed sequence. -/
def ofBytesLossy (bytes : List UInt8) : String :=
  let rec go : Nat → List UInt8 → List Char → List Char
    | 0, _, acc => acc.reverse
    | _, [], acc => acc.reverse
    | fuel + 1, b :: rest, acc =>
      match frontChar? (b :: rest) with
      | some (c, n) => go fuel ((b :: rest).drop n) (c :: acc)
      | none => go fuel rest (Char.ofNat 0xFFFD :: acc)
  String.ofList (go bytes.length bytes [])

end Text

end Timetabling
